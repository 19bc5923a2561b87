import Videum.Async.Isolation

/-!
# Programs that run alone

When requests arrive at an idle process only, a program runs from its arrival
to its end with nobody in between.  `alone` is the weakest precondition of
such a run.  There is no invariant to keep for others: the state after each
call is the state the next call finds.  `mayEnd` is its dual, and says that
some run of the program ends as promised.

## Main results

* `alone_call_any`, `alone_settle_any` — the rules for awaited calls.
* `alone_newer`, `alone_answered` — which answers such a run has added.
* `alone_eval`, `alone_of_timeless` — such a run may take place at one moment,
  and for a program without a clock nothing else can become of it.
* `Steps.serving` — a call served from an idle process ends as `alone` says.
* `Steps.serial` — what every call keeps holds whenever the process is idle.
* `Steps.of_mayEnd` — a run that `mayEnd` promises exists.
* `Steps.at_once` — a request may be served at one moment.
-/

namespace Videum.Async

variable {I : Iface} {A ε σ γ α β : Type}

/--
Weakest precondition of a program that thread `t` runs alone: started at
moment `amb` in state `s`, it ends in `post`.
-/
def alone (S : System I A ε σ γ β) (P : Policy I A ε σ γ β) (t : Nat)
    (request : γ) (post : Except ε α → A → σ → Log I A ε σ γ → Prop) :
    Prog I A ε α → A → σ → Log I A ε σ γ → Prop
  | .pure a, amb, s, log => post (.ok a) amb s log
  | .throw e, amb, s, log => post (.error e) amb s log
  | .ask k, amb, s, log => alone S P t request post (k amb) amb s log
  | .await op k, _, s, log =>
      ∀ (amb : A) (fault : Option ε), S.guard request amb op s = true →
        fault.all (P.fault op) = true →
          alone S P t request post (k (S.answer amb op fault s).1) amb
            (S.answer amb op fault s).2
            (S.entry t request amb op fault s :: log)

/-- Some run of the program, in which no call fails, ends in `post`. -/
def mayEnd (S : System I A ε σ γ β) (t : Nat) (request : γ)
    (post : Except ε α → A → σ → Log I A ε σ γ → Prop) :
    Prog I A ε α → A → σ → Log I A ε σ γ → Prop
  | .pure a, amb, s, log => post (.ok a) amb s log
  | .throw e, amb, s, log => post (.error e) amb s log
  | .ask k, amb, s, log => mayEnd S t request post (k amb) amb s log
  | .await op k, _, s, log =>
      ∃ amb : A, S.guard request amb op s = true ∧
        mayEnd S t request post (k (S.exec amb op s).1) amb
          (S.exec amb op s).2 (S.entry t request amb op none s :: log)

section Rules

variable {S : System I A ε σ γ β} {P : Policy I A ε σ γ β} {t : Nat}
  {request : γ} {s : σ} {amb : A} {log : Log I A ε σ γ}

theorem alone_mono {post post' : Except ε α → A → σ → Log I A ε σ γ → Prop}
    (hpost : ∀ r amb s log, post r amb s log → post' r amb s log)
    {p : Prog I A ε α} (h : alone S P t request post p amb s log) :
    alone S P t request post' p amb s log := by
  induction p generalizing amb s log with
  | pure a => exact hpost _ _ _ _ h
  | throw e => exact hpost _ _ _ _ h
  | ask k ih => exact ih amb h
  | await op k ih =>
      intro amb' fault hguard hfault
      exact ih _ (h amb' fault hguard hfault)

theorem alone_bind {δ : Type}
    {post : Except ε δ → A → σ → Log I A ε σ γ → Prop} {p : Prog I A ε α}
    {f : α → Prog I A ε δ}
    (h : alone S P t request
      (fun r amb s log => match r with
        | .ok a => alone S P t request post (f a) amb s log
        | .error e => post (.error e) amb s log) p amb s log) :
    alone S P t request post (p >>= f) amb s log := by
  induction p generalizing amb s log with
  | pure a => exact h
  | throw e => exact h
  | ask k ih => exact ih amb h
  | await op k ih =>
      intro amb' fault hguard hfault
      exact ih _ (h amb' fault hguard hfault)

/-- The rule for a program whose value is only wrapped up afterwards. -/
theorem alone_map {δ : Type}
    {post : Except ε α → A → σ → Log I A ε σ γ → Prop}
    {post' : Except ε δ → A → σ → Log I A ε σ γ → Prop} {p : Prog I A ε α}
    {g : α → δ} (h : alone S P t request post p amb s log)
    (hok : ∀ a amb s log, post (.ok a) amb s log →
      post' (.ok (g a)) amb s log)
    (herror : ∀ e amb s log, post (.error e) amb s log →
      post' (.error e) amb s log) :
    alone S P t request post' (p >>= fun a => .pure (g a)) amb s log := by
  apply alone_bind
  apply alone_mono ?_ h
  intro r amb' s' log' hr
  cases r with
  | ok a => exact hok a amb' s' log' hr
  | error e => exact herror e amb' s' log' hr

theorem alone_tryCatch {post : Except ε α → A → σ → Log I A ε σ γ → Prop}
    {p : Prog I A ε α} {h : ε → Prog I A ε α}
    (hp : alone S P t request
      (fun r amb s log => match r with
        | .ok a => post (.ok a) amb s log
        | .error e => alone S P t request post (h e) amb s log) p amb s log) :
    alone S P t request post (p.tryCatch h) amb s log := by
  induction p generalizing amb s log with
  | pure a => exact hp
  | throw e => exact hp
  | ask k ih => exact ih amb hp
  | await op k ih =>
      intro amb' fault hguard hfault
      exact ih _ (hp amb' fault hguard hfault)

/-- What runs on either exit decides with its own failure only. -/
theorem alone_tryFinally
    {post : Except ε α → A → σ → Log I A ε σ γ → Prop} {p : Prog I A ε α}
    {q : Prog I A ε Unit}
    (hp : alone S P t request
      (fun r amb s log => alone S P t request
        (fun r' amb s log => match r' with
          | .ok _ => post r amb s log
          | .error e => post (.error e) amb s log) q amb s log) p amb s log) :
    alone S P t request post (p.tryFinally q) amb s log := by
  induction p generalizing amb s log with
  | pure a =>
      apply alone_bind
      apply alone_mono (p := q) ?_ hp
      intro r' amb' s' log' h
      cases r' <;> exact h
  | throw e =>
      apply alone_bind
      apply alone_mono (p := q) ?_ hp
      intro r' amb' s' log' h
      cases r' <;> exact h
  | ask k ih => exact ih amb hp
  | await op k ih =>
      intro amb' fault hguard hfault
      exact ih _ (hp amb' fault hguard hfault)

/-- The rule for a last call. -/
theorem alone_last {op : I.Op}
    {post : Except ε (I.Res op) → A → σ → Log I A ε σ γ → Prop}
    (h : ∀ (amb : A) (fault : Option ε), fault.all (P.fault op) = true →
      post (S.answer amb op fault s).1 amb (S.answer amb op fault s).2
        (S.entry t request amb op fault s :: log)) :
    alone S P t request post (Prog.call op) amb s log := by
  have hend : ∀ (r : Except ε (I.Res op)) (amb : A) (s : σ)
      (log : Log I A ε σ γ), post r amb s log →
      alone S P t request post (Prog.ofExcept r) amb s log := by
    intro r amb s log hr
    cases r <;> exact hr
  exact fun amb' fault _ hfault => hend _ _ _ _ (h amb' fault hfault)

/-- The rule for an awaited call: it is rejected, or not. -/
theorem alone_call_any {post : Except ε α → A → σ → Log I A ε σ γ → Prop}
    {op : I.Op} {f : I.Res op → Prog I A ε α}
    (herror : ∀ amb fault e, S.guard request amb op s = true →
      fault.all (P.fault op) = true → (S.answer amb op fault s).1 = .error e →
        post (.error e) amb (S.answer amb op fault s).2
          (S.entry t request amb op fault s :: log))
    (hok : ∀ amb v, S.guard request amb op s = true →
      (S.exec amb op s).1 = .ok v →
        alone S P t request post (f v) amb (S.exec amb op s).2
          (S.entry t request amb op none s :: log)) :
    alone S P t request post (Prog.call op >>= f) amb s log := by
  intro amb' fault hguard hfault
  show alone S P t request post
    (Prog.ofExcept (S.answer amb' op fault s).1 >>= f) amb'
      (S.answer amb' op fault s).2 _
  cases hanswer : (S.answer amb' op fault s).1 with
  | error e => exact herror amb' fault e hguard hfault hanswer
  | ok v =>
      cases fault with
      | some e => exact nomatch hanswer
      | none => exact hok amb' v hguard hanswer

/-- The rule for an awaited call that cannot be made to fail. -/
theorem alone_call {post : Except ε α → A → σ → Log I A ε σ γ → Prop}
    {op : I.Op} {f : I.Res op → Prog I A ε α}
    (hP : ∀ e, P.fault op e = false)
    (herror : ∀ amb e, S.guard request amb op s = true →
      (S.exec amb op s).1 = .error e →
        post (.error e) amb (S.exec amb op s).2
          (S.entry t request amb op none s :: log))
    (hok : ∀ amb v, S.guard request amb op s = true →
      (S.exec amb op s).1 = .ok v →
        alone S P t request post (f v) amb (S.exec amb op s).2
          (S.entry t request amb op none s :: log)) :
    alone S P t request post (Prog.call op >>= f) amb s log := by
  apply alone_call_any ?_ hok
  intro amb' fault e hguard hfault hexec
  rw [Policy.fault_eq_none hP hfault] at hexec ⊢
  exact herror amb' e hguard hexec

/-- The rule for two calls one after the other, the second whatever became
of the first, where either may fail. -/
theorem alone_settle_any
    {post : Except ε Unit → A → σ → Log I A ε σ γ → Prop}
    {first second : I.Op}
    (hpost : ∀ (amb amb' : A) (fault fault' : Option ε),
      fault.all (P.fault first) = true → fault'.all (P.fault second) = true →
      S.guard request amb first s = true →
      S.guard request amb' second (S.answer amb first fault s).2 = true →
      ∀ r, (r = .ok () ↔ (S.answer amb first fault s).1.isOk = true ∧
        (S.answer amb' second fault' (S.answer amb first fault s).2).1.isOk
          = true) →
      post r amb' (S.answer amb' second fault' (S.answer amb first fault s).2).2
        (S.entry t request amb' second fault' (S.answer amb first fault s).2 ::
          S.entry t request amb first fault s :: log)) :
    alone S P t request post (Prog.settle first second) amb s log := by
  intro amb₁ fault₁ hguard₁ hfault₁ amb₂ fault₂ hguard₂ hfault₂
  have hend := hpost amb₁ amb₂ fault₁ fault₂ hfault₁ hfault₂ hguard₁ hguard₂
  dsimp only
  cases hr₁ : (S.answer amb₁ first fault₁ s).1 with
  | error e =>
      apply hend (.error e)
      rw [hr₁]
      exact ⟨nofun, fun h => nomatch h.1⟩
  | ok v₁ =>
      cases hr₂ : (S.answer amb₂ second fault₂
          (S.answer amb₁ first fault₁ s).2).1 with
      | error e =>
          apply hend (.error e)
          rw [hr₂]
          exact ⟨nofun, fun h => nomatch h.2⟩
      | ok v₂ =>
          apply hend (.ok ())
          rw [hr₁, hr₂]
          exact ⟨fun _ => ⟨rfl, rfl⟩, fun _ => rfl⟩

/-- The same rule for calls that cannot be made to fail. -/
theorem alone_settle {post : Except ε Unit → A → σ → Log I A ε σ γ → Prop}
    {first second : I.Op} (hP : ∀ op, op = first ∨ op = second →
      ∀ e, P.fault op e = false)
    (hpost : ∀ amb amb', S.guard request amb first s = true →
      S.guard request amb' second (S.exec amb first s).2 = true →
      ∀ r, (r = .ok () ↔ (S.exec amb first s).1.isOk = true ∧
        (S.exec amb' second (S.exec amb first s).2).1.isOk = true) →
      post r amb' (S.exec amb' second (S.exec amb first s).2).2
        (S.entry t request amb' second none (S.exec amb first s).2 ::
          S.entry t request amb first none s :: log)) :
    alone S P t request post (Prog.settle first second) amb s log := by
  have hnone : ∀ op, op = first ∨ op = second → ∀ fault : Option ε,
      fault.all (P.fault op) = true → fault = none := by
    intro op hop fault hfault
    cases fault with
    | none => rfl
    | some e =>
        rw [Option.all_some, hP op hop] at hfault
        exact nomatch hfault
  apply alone_settle_any
  intro amb₁ amb₂ fault₁ fault₂ hfault₁ hfault₂ hguard₁ hguard₂ r hr
  have h₁ := hnone first (.inl rfl) fault₁ hfault₁
  have h₂ := hnone second (.inr rfl) fault₂ hfault₂
  subst h₁
  subst h₂
  exact hpost amb₁ amb₂ hguard₁ hguard₂ r hr

/-- The rule for two calls at once, one rule for either order. -/
theorem alone_promiseAll {post : Except ε Unit → A → σ → Log I A ε σ γ → Prop}
    {swapped : A → Bool} {first second : I.Op}
    (hfirst : alone S P t request post (Prog.settle first second) amb s log)
    (hsecond : alone S P t request post (Prog.settle second first) amb s log) :
    alone S P t request post (Prog.promiseAll swapped first second) amb s
      log := by
  rw [Prog.promiseAll, alone]
  split
  · exact hsecond
  · exact hfirst

/-- A program all of whose calls keep `J` keeps `J`. -/
theorem alone_of_issues {J : σ → Log I A ε σ γ → Prop} {Q : I.Op → Prop}
    (hkept : ∀ (amb : A) (op : I.Op) (fault : Option ε) (s : σ)
      (log : Log I A ε σ γ), Q op → J s log →
      S.guard request amb op s = true → fault.all (P.fault op) = true →
        J (S.answer amb op fault s).2 (S.entry t request amb op fault s :: log))
    {p : Prog I A ε α} (hp : p.Issues Q) (hJ : J s log) :
    alone S P t request (fun _ _ s log => J s log) p amb s log := by
  induction p generalizing amb s log with
  | pure a => exact hJ
  | throw e => exact hJ
  | ask k ih => exact ih amb (hp amb) hJ
  | await op k ih =>
      intro amb' fault hguard hfault
      exact ih _ (hp.2 _) (hkept amb' op fault s log hp.1 hJ hguard hfault)

/-- The answers a program gets come on top of the log. -/
theorem alone_newer {Q : I.Op → Prop}
    {post : Except ε α → A → σ → Log I A ε σ γ → Prop} {p : Prog I A ε α}
    (hp : p.Issues Q) (h : alone S P t request post p amb s log) :
    alone S P t request
      (fun r amb s log' => post r amb s log' ∧
        ∃ newer : Log I A ε σ γ, log' = newer ++ log ∧ ∀ x ∈ newer, Q x.op)
      p amb s log := by
  induction p generalizing amb s log with
  | pure a => exact ⟨h, [], rfl, fun _ hx => nomatch hx⟩
  | throw e => exact ⟨h, [], rfl, fun _ hx => nomatch hx⟩
  | ask k ih => exact ih amb (hp amb) h
  | await op k ih =>
      intro amb' fault hguard hfault
      apply alone_mono ?_ (ih _ (hp.2 _) (h amb' fault hguard hfault))
      rintro r amb'' s' log' ⟨hpost, newer, rfl, hnewer⟩
      refine ⟨hpost, newer ++ [S.entry t request amb' op fault s], ?_, ?_⟩
      · rw [List.append_assoc, List.singleton_append]
      · intro x hx
        rcases List.mem_append.1 hx with hx | hx
        · exact hnewer x hx
        · rw [List.mem_singleton.1 hx]
          exact hp.1

/-- A program that runs alone goes on at the moment of its last answer. -/
theorem alone_answered {post : Except ε α → A → σ → Log I A ε σ γ → Prop}
    {p : Prog I A ε α} (h : alone S P t request post p amb s log)
    (hlast : ∃ x ∈ own t log, x.amb = amb) :
    alone S P t request
      (fun r amb s log' => post r amb s log' ∧ ∃ x ∈ own t log', x.amb = amb)
      p amb s log := by
  induction p generalizing amb s log with
  | pure a => exact ⟨h, hlast⟩
  | throw e => exact ⟨h, hlast⟩
  | ask k ih => exact ih amb h hlast
  | await op k ih =>
      intro amb' fault hguard hfault
      apply ih _ (h amb' fault hguard hfault)
      refine ⟨S.entry t request amb' op fault s, ?_, rfl⟩
      rw [own_entry]
      exact .head _

/-- A program that runs alone may run all of it at one moment. -/
theorem alone_eval {post : Except ε α → A → σ → Log I A ε σ γ → Prop}
    {p : Prog I A ε α} (h : alone S P t request post p amb s log)
    (hguard : p.admits (S.guard request amb) S.exec amb s = true) :
    ∃ newer : Log I A ε σ γ, (∀ x ∈ newer, x.amb = amb) ∧
      post (p.eval S.exec amb s).1 amb (p.eval S.exec amb s).2
        (newer ++ log) := by
  induction p generalizing s log with
  | pure a => exact ⟨[], (fun _ hx => nomatch hx), h⟩
  | throw e => exact ⟨[], (fun _ hx => nomatch hx), h⟩
  | ask k ih => exact ih amb h hguard
  | await op k ih =>
      obtain ⟨hop, hrest⟩ := Bool.and_eq_true_iff.1 hguard
      obtain ⟨newer, hnewer, hpost⟩ := ih _ (h amb none hop rfl) hrest
      refine ⟨newer ++ [S.entry t request amb op none s], ?_, ?_⟩
      · intro x hx
        rcases List.mem_append.1 hx with hx | hx
        · exact hnewer x hx
        · rw [List.mem_singleton.1 hx]
          rfl
      · rw [List.append_assoc, List.singleton_append]
        exact hpost

/-- Where neither the program nor the answers to its calls look at the moment,
nothing else can become of it than all of it at one moment. -/
theorem alone_of_timeless {Q : I.Op → Prop}
    {post : Except ε α → A → σ → Log I A ε σ γ → Prop} {p : Prog I A ε α}
    (hP : ∀ op e, P.fault op e = false)
    (hexec : ∀ op, Q op → ∀ amb amb' s, S.exec amb op s = S.exec amb' op s)
    (hp : p.Issues Q) (htimeless : p.Timeless) (m : A)
    (hpost : ∀ amb log, post (p.eval S.exec m s).1 amb (p.eval S.exec m s).2
      log) : alone S P t request post p amb s log := by
  induction p generalizing amb s log with
  | pure a => exact hpost amb log
  | throw e => exact hpost amb log
  | ask k _ => exact htimeless.elim
  | await op k ih =>
      intro amb' fault _ hfault
      rw [Policy.fault_eq_none (hP op) hfault, System.answer_none,
        hexec op hp.1 amb' m]
      exact ih _ (hp.2 _) (htimeless _) hpost

theorem alone_resume {post : Except ε α → A → σ → Log I A ε σ γ → Prop}
    {p : Prog I A ε α} (h : alone S P t request post p amb s log) :
    alone S P t request post (p.resume amb) amb s log := by
  induction p with
  | pure a => exact h
  | throw e => exact h
  | ask k ih => exact ih amb h
  | await op k _ => exact h

end Rules

/-- `x` is the only answer thread `t` has had to a call of the kind `p`. -/
structure Sole (p : I.Op → Prop) (t : Nat) (x : Entry I A ε σ γ)
    (log : Log I A ε σ γ) : Prop where
  mem : x ∈ own t log
  kind : p x.op
  only : ∀ y ∈ own t log, p y.op → y = x

theorem Sole.first {p : I.Op → Prop} {t : Nat} {x : Entry I A ε σ γ}
    {log : Log I A ε σ γ} (hown : own t log = []) (hx : x.tid = t)
    (hp : p x.op) : Sole p t x (x :: log) := by
  have hmine : own t (x :: log) = [x] := by rw [own_cons hx, hown]
  refine ⟨?_, hp, ?_⟩
  · rw [hmine]
    exact .head _
  · intro y hy _
    rw [hmine, List.mem_singleton] at hy
    exact hy

theorem Sole.cons {p : I.Op → Prop} {t : Nat} {x y : Entry I A ε σ γ}
    {log : Log I A ε σ γ} (h : Sole p t x log) (hy : y.tid = t)
    (hp : ¬ p y.op) : Sole p t x (y :: log) := by
  have hmine : own t (y :: log) = y :: own t log := own_cons hy
  refine ⟨?_, h.kind, ?_⟩
  · rw [hmine]
    exact .tail _ h.mem
  · intro z hz hpz
    rw [hmine] at hz
    rcases List.mem_cons.1 hz with rfl | hz
    · exact absurd hpz hp
    · exact h.only z hz hpz

/-! ## Calls on an idle process -/

/-- The process serves `request`, which arrived when the threads were `front`
and none of them was running, and will end in `post`. -/
def Serving (S : System I A ε σ γ α) (P : Policy I A ε σ γ α)
    (post : Except ε α → A → σ → Log I A ε σ γ → Prop)
    (front : List (Thread I A ε γ α)) (request : γ)
    (c : Config I A ε σ γ α) : Prop :=
  ∃ (p : Prog I A ε α) (amb : A),
    c.threads = front ++ [⟨request, p.resume amb⟩] ∧
    alone S P front.length request post (p.resume amb) amb c.state c.log

section Serving

variable {S : System I A ε σ γ α} {P : Policy I A ε σ γ α} {s₀ : σ}
  {c c' : Config I A ε σ γ α} {front : List (Thread I A ε γ α)}
  {request : γ} {amb : A}
  {post : Except ε α → A → σ → Log I A ε σ γ → Prop}

theorem Config.idle_iff :
    c.idle = true ↔ ∀ th ∈ c.threads, th.prog.running = false := by
  simp only [Config.idle, List.all_eq_true, Bool.not_eq_true']

theorem Serving.spawn
    (h : alone S P c.threads.length request post (S.body request) amb c.state
      c.log) :
    Serving S P post c.threads request (S.spawn c request amb) :=
  ⟨S.body request, amb, rfl, alone_resume h⟩

/-- The next answer goes to the request being served. -/
theorem Serving.perform (hfront : ∀ th ∈ front, th.prog.running = false)
    (h : Serving S P post front request c) {t : Nat} {request' : γ}
    {op : I.Op} {k : Except ε (I.Res op) → Prog I A ε α} {amb : A}
    {fault : Option ε} (hthread : c.threads[t]? = some ⟨request', .await op k⟩)
    (hguard : S.guard request' amb op c.state = true)
    (hfault : fault.all (P.fault op) = true) :
    Serving S P post front request
      (S.perform c t request' amb op k fault) := by
  obtain ⟨p, amb₀, hthreads, hp⟩ := h
  rw [hthreads] at hthread
  rcases Nat.lt_trichotomy t front.length with hlt | rfl | hgt
  · rw [List.getElem?_append_left hlt] at hthread
    have hrunning := hfront _ (List.mem_of_getElem? hthread)
    cases hrunning
  · rw [List.getElem?_concat_length] at hthread
    have hlast := Option.some.inj hthread
    cases hlast' : p.resume amb₀ with
    | await op' k' =>
        rw [hlast'] at hlast hp
        cases hlast
        have hnext := hp amb fault hguard hfault
        refine ⟨k (S.answer amb op fault c.state).1, amb, ?_, alone_resume hnext⟩
        simp only [System.perform, hthreads, List.set_append, Nat.lt_irrefl,
          if_false, Nat.sub_self, List.set_cons_zero]
    | _ =>
        rw [hlast'] at hlast
        cases hlast
  · rw [List.getElem?_eq_none (by
      rw [List.length_append, List.length_singleton]; omega)] at hthread
    cases hthread

/-- A request that is no longer being served has ended as promised. -/
theorem Serving.ended (h : Serving S P post front request c)
    (hidle : c.idle = true) :
    ∃ r amb, c.threads = front ++ [⟨request, Prog.ofExcept r⟩] ∧
      post r amb c.state c.log := by
  obtain ⟨p, amb, hthreads, hp⟩ := h
  have hstopped : (p.resume amb).running = false := by
    apply Config.idle_iff.1 hidle ⟨request, p.resume amb⟩
    rw [hthreads]
    exact List.mem_append_right _ (.head _)
  rcases Prog.resume_cases amb p with ⟨a, ha⟩ | ⟨e, he⟩ | ⟨op, k, hk⟩
  · rw [ha] at hthreads hp
    exact ⟨.ok a, amb, hthreads, hp⟩
  · rw [he] at hthreads hp
    exact ⟨.error e, amb, hthreads, hp⟩
  · rw [hk] at hstopped
    exact nomatch hstopped

/-- A call served from an idle process, while no other arrives. -/
theorem Steps.serving (hidle : c.idle = true)
    (h : Steps S P (S.spawn c request amb) c')
    (hone : c'.threads.length = c.threads.length + 1)
    (halone : alone S P c.threads.length request post (S.body request) amb
      c.state c.log) :
    Serving S P post c.threads request c' := by
  induction h with
  | refl => exact .spawn halone
  | @tail b b' hb hstep ih =>
      have hle := Steps.threads_length_le hb
      have hlen : (S.spawn c request amb).threads.length =
          c.threads.length + 1 := by
        simp only [System.spawn, List.length_append, List.length_singleton]
      cases hstep with
      | spawn request' amb' _ =>
          simp only [System.spawn, List.length_append,
            List.length_singleton] at hone hlen hle
          omega
      | perform amb' fault hthread hguard hfault =>
          simp only [System.perform, List.length_set] at hone
          exact (ih hone).perform (Config.idle_iff.1 hidle) hthread hguard
            hfault

/-- The end of a call that was served alone, from an idle process. -/
theorem Steps.ended_alone {r : Except ε α} (hidle : c.idle = true)
    (h : Steps S P (S.spawn c request amb) c')
    (hthreads : c'.threads = c.threads ++ [⟨request, Prog.ofExcept r⟩])
    (halone : alone S P c.threads.length request post (S.body request) amb
      c.state c.log) :
    ∃ amb', post r amb' c'.state c'.log := by
  have hidle' : c'.idle = true := by
    rw [Config.idle_iff, hthreads]
    intro th hth
    rcases List.mem_append.1 hth with hth | hth
    · exact Config.idle_iff.1 hidle th hth
    · rw [List.mem_singleton.1 hth]
      cases r <;> rfl
  have hone : c'.threads.length = c.threads.length + 1 := by
    rw [hthreads, List.length_append, List.length_singleton]
  obtain ⟨r', amb', hthreads', hend⟩ :=
    (Steps.serving hidle h hone halone).ended hidle'
  rw [hthreads] at hthreads'
  have hlast := List.append_cancel_left hthreads'
  have hprog := congrArg Thread.prog (List.cons.inj hlast).1
  rw [Prog.ofExcept_injective hprog]
  exact ⟨amb', hend⟩

/-- A run from one idle configuration to another is one call after the
other. -/
theorem Steps.serial {J : Config I A ε σ γ α → Prop}
    (haccepts : ∀ c request, P.accepts c request → c.idle = true)
    (hcall : ∀ (c : Config I A ε σ γ α) (request : γ) (amb : A),
      Reachable S P s₀ c → c.idle = true → J c →
      alone S P c.threads.length request
        (fun r _ s log => J ⟨s, c.threads ++ [⟨request, Prog.ofExcept r⟩], log⟩)
        (S.body request) amb c.state c.log)
    (hc : Reachable S P s₀ c) (hidle : c.idle = true) (hJ : J c)
    (h : Steps S P c c') (hidle' : c'.idle = true) : J c' := by
  have hended : ∀ {front : List (Thread I A ε γ α)} {request : γ}
      {b : Config I A ε σ γ α}, Serving S P (fun r _ s log =>
        J ⟨s, front ++ [⟨request, Prog.ofExcept r⟩], log⟩) front request b →
      b.idle = true → J b := by
    intro front request b hserving hb
    obtain ⟨r, _, hthreads, hJb⟩ := hserving.ended hb
    rw [← hthreads] at hJb
    exact hJb
  have hserial : c'.idle = true ∧ J c' ∨
      ∃ front request, (∀ th ∈ front, th.prog.running = false) ∧
        Serving S P (fun r _ s log =>
          J ⟨s, front ++ [⟨request, Prog.ofExcept r⟩], log⟩) front request
            c' := by
    clear hidle'
    induction h with
    | refl => exact .inl ⟨hidle, hJ⟩
    | @tail b b' hb hstep ih =>
        have hreach : Reachable S P s₀ b := hc.steps hb
        cases hstep with
        | spawn request amb haccept =>
            have hb_idle := haccepts b request haccept
            have hJb : J b := by
              rcases ih with ⟨_, hJb⟩ | ⟨front, _, _, hserving⟩
              · exact hJb
              · exact hended hserving hb_idle
            exact .inr ⟨b.threads, request, Config.idle_iff.1 hb_idle,
              .spawn (hcall b request amb hreach hb_idle hJb)⟩
        | perform amb fault hthread hguard hfault =>
            rcases ih with ⟨hb_idle, _⟩ | ⟨front, request, hfront, hserving⟩
            · have hrunning := Config.idle_iff.1 hb_idle _
                (List.mem_of_getElem? hthread)
              exact nomatch hrunning
            · exact .inr ⟨front, request, hfront,
                hserving.perform hfront hthread hguard hfault⟩
  rcases hserial with ⟨_, hJ'⟩ | ⟨_, _, _, hserving⟩
  · exact hJ'
  · exact hended hserving hidle'

/-- Whenever a process that serves one request after the other is idle, what
every call keeps holds. -/
theorem Reachable.serial {J : Config I A ε σ γ α → Prop}
    (haccepts : ∀ c request, P.accepts c request → c.idle = true)
    (hinit : J (Config.start s₀))
    (hcall : ∀ (c : Config I A ε σ γ α) (request : γ) (amb : A),
      Reachable S P s₀ c → c.idle = true → J c →
      alone S P c.threads.length request
        (fun r _ s log => J ⟨s, c.threads ++ [⟨request, Prog.ofExcept r⟩], log⟩)
        (S.body request) amb c.state c.log)
    (h : Reachable S P s₀ c) (hidle : c.idle = true) : J c :=
  Steps.serial haccepts hcall .refl rfl hinit h hidle

/-! ## Runs that exist -/

theorem mayEnd_mono {β : Type} {S : System I A ε σ γ β} {t : Nat}
    {request : γ} {post post' : Except ε α → A → σ → Log I A ε σ γ → Prop}
    (hpost : ∀ r amb s log, post r amb s log → post' r amb s log)
    {p : Prog I A ε α} {amb : A} {s : σ} {log : Log I A ε σ γ}
    (h : mayEnd S t request post p amb s log) :
    mayEnd S t request post' p amb s log := by
  induction p generalizing amb s log with
  | pure a => exact hpost _ _ _ _ h
  | throw e => exact hpost _ _ _ _ h
  | ask k ih => exact ih amb h
  | await op k ih =>
      obtain ⟨amb', hguard, hrest⟩ := h
      exact ⟨amb', hguard, ih _ hrest⟩

theorem mayEnd_bind {β δ : Type} {S : System I A ε σ γ β} {t : Nat}
    {request : γ} {post : Except ε δ → A → σ → Log I A ε σ γ → Prop}
    {p : Prog I A ε α} {f : α → Prog I A ε δ} {amb : A} {s : σ}
    {log : Log I A ε σ γ}
    (h : mayEnd S t request
      (fun r amb s log => match r with
        | .ok a => mayEnd S t request post (f a) amb s log
        | .error e => post (.error e) amb s log) p amb s log) :
    mayEnd S t request post (p >>= f) amb s log := by
  induction p generalizing amb s log with
  | pure a => exact h
  | throw e => exact h
  | ask k ih => exact ih amb h
  | await op k ih =>
      obtain ⟨amb', hguard, hrest⟩ := h
      exact ⟨amb', hguard, ih _ hrest⟩

/-- The rule for an awaited call: it is answered at the moment `amb`. -/
theorem mayEnd_call {β : Type} {S : System I A ε σ γ β} {t : Nat}
    {request : γ} {post : Except ε α → A → σ → Log I A ε σ γ → Prop}
    {op : I.Op} {f : I.Res op → Prog I A ε α} {amb₀ : A} {s : σ}
    {log : Log I A ε σ γ} (amb : A) {v : I.Res op}
    (hguard : S.guard request amb op s = true)
    (hexec : (S.exec amb op s).1 = .ok v)
    (h : mayEnd S t request post (f v) amb (S.exec amb op s).2
      (S.entry t request amb op none s :: log)) :
    mayEnd S t request post (Prog.call op >>= f) amb₀ s log := by
  refine ⟨amb, hguard, ?_⟩
  show mayEnd S t request post (Prog.ofExcept (S.exec amb op s).1 >>= f) amb
    (S.exec amb op s).2 _
  rw [hexec]
  exact h

theorem mayEnd_settle {β : Type} {S : System I A ε σ γ β} {t : Nat}
    {request : γ} {post : Except ε Unit → A → σ → Log I A ε σ γ → Prop}
    {first second : I.Op} {amb₀ : A} {s : σ} {log : Log I A ε σ γ}
    (amb : A) (hguard : S.guard request amb first s = true)
    (hok : (S.exec amb first s).1.isOk = true)
    (hguard' : S.guard request amb second (S.exec amb first s).2 = true)
    (hok' : (S.exec amb second (S.exec amb first s).2).1.isOk = true)
    (h : post (.ok ()) amb (S.exec amb second (S.exec amb first s).2).2
      (S.entry t request amb second none (S.exec amb first s).2 ::
        S.entry t request amb first none s :: log)) :
    mayEnd S t request post (Prog.settle first second) amb₀ s log := by
  refine ⟨amb, hguard, amb, hguard', ?_⟩
  cases hr₁ : (S.exec amb first s).1 with
  | error e =>
      rw [hr₁] at hok
      exact nomatch hok
  | ok v₁ =>
      cases hr₂ : (S.exec amb second (S.exec amb first s).2).1 with
      | error e =>
          rw [hr₂] at hok'
          exact nomatch hok'
      | ok v₂ => exact h

/-- A program may run all of it at one moment. -/
theorem mayEnd_of_eval {β : Type} {S : System I A ε σ γ β} {t : Nat}
    {request : γ} {post : Except ε α → A → σ → Log I A ε σ γ → Prop}
    {p : Prog I A ε α} {amb : A} {s : σ} {log : Log I A ε σ γ}
    (hguard : p.admits (S.guard request amb) S.exec amb s = true)
    (hpost : ∀ newer : Log I A ε σ γ, post (p.eval S.exec amb s).1 amb
      (p.eval S.exec amb s).2 (newer ++ log)) :
    mayEnd S t request post p amb s log := by
  induction p generalizing s log with
  | pure a => exact hpost []
  | throw e => exact hpost []
  | ask k ih => exact ih amb hguard hpost
  | await op k ih =>
      obtain ⟨hop, hrest⟩ := Bool.and_eq_true_iff.1 hguard
      refine ⟨amb, hop, ih _ hrest fun newer => ?_⟩
      have hend := hpost (newer ++ [S.entry t request amb op none s])
      rw [List.append_assoc] at hend
      exact hend

/-- A run that `mayEnd` promises exists. -/
theorem Steps.of_mayEnd
    (h : mayEnd S c.threads.length request post (S.body request) amb c.state
      c.log) :
    ∃ (c' : Config I A ε σ γ α) (r : Except ε α) (amb' : A),
      Steps S P (S.spawn c request amb) c' ∧
      c'.threads = c.threads ++ [⟨request, Prog.ofExcept r⟩] ∧
      post r amb' c'.state c'.log := by
  have hrun : ∀ (p : Prog I A ε α) (amb : A) (b : Config I A ε σ γ α),
      b.threads = c.threads ++ [⟨request, p.resume amb⟩] →
      mayEnd S c.threads.length request post p amb b.state b.log →
      ∃ (c' : Config I A ε σ γ α) (r : Except ε α) (amb' : A),
        Steps S P b c' ∧
        c'.threads = c.threads ++ [⟨request, Prog.ofExcept r⟩] ∧
        post r amb' c'.state c'.log := by
    intro p
    induction p with
    | pure a => exact fun amb b hb hend => ⟨b, .ok a, amb, .refl, hb, hend⟩
    | throw e => exact fun amb b hb hend => ⟨b, .error e, amb, .refl, hb, hend⟩
    | ask k ih => exact fun amb b hb hend => ih amb amb b hb hend
    | await op k ih =>
        rintro amb b hb ⟨amb', hguard, hend⟩
        have hthread : b.threads[c.threads.length]? =
            some ⟨request, .await op k⟩ := by
          rw [hb, List.getElem?_concat_length]
          rfl
        obtain ⟨c', r, amb'', hsteps, hresult⟩ := ih _ amb'
          (S.perform b c.threads.length request amb' op k none) (by
            simp only [System.perform, hb, List.set_append, Nat.lt_irrefl,
              if_false, Nat.sub_self, List.set_cons_zero, System.answer_none])
          hend
        exact ⟨c', r, amb'',
          .head (.perform amb' none hthread hguard rfl) hsteps, hresult⟩
  exact hrun (S.body request) amb _ rfl h

/-- A request may be served at once, whatever others are waiting for. -/
theorem Steps.at_once
    (hguard : (S.body request).admits (S.guard request amb) S.exec amb
      c.state = true) :
    ∃ c' : Config I A ε σ γ α, Steps S P (S.spawn c request amb) c' ∧
      c'.threads = c.threads ++ [⟨request, Prog.ofExcept
        ((S.body request).eval S.exec amb c.state).1⟩] ∧
      c'.state = ((S.body request).eval S.exec amb c.state).2 := by
  have hmay : mayEnd S c.threads.length request (fun r _ s _ =>
      r = ((S.body request).eval S.exec amb c.state).1 ∧
        s = ((S.body request).eval S.exec amb c.state).2)
      (S.body request) amb c.state c.log :=
    mayEnd_of_eval hguard fun _ => ⟨rfl, rfl⟩
  obtain ⟨c', _, _, hsteps, hthreads, rfl, hstate⟩ := Steps.of_mayEnd hmay
  exact ⟨c', hsteps, hthreads, hstate⟩

end Serving

end Videum.Async
