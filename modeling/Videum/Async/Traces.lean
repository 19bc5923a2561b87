import Videum.Async.Logic

/-!
# What a thread does, told from its own answers

A program decides on its next call from the answers it has had.  `follows`
judges it by these alone: between two of its calls the state may have become
anything.  It needs no invariant, and it says of every thread of every run
which calls it has made, and after which answers.

## Main results

* `follows_bind`, `follows_tryCatch`, `follows_forEach` — the structural
  rules.
* `follows_newer` — which answers a program has added.
* `Reachable.follows`, `Reachable.follows_result` — in every run, each call
  was one its thread may make after its own answers, and threads that have
  ended are where their proof says.
-/

namespace Videum.Async

variable {I : Iface} {A ε σ γ α β : Type}

/--
The program of thread `t` makes only calls that `G` permits after the answers
the thread has had so far, and ends in `post`.
-/
def follows (S : System I A ε σ γ β) (P : Policy I A ε σ γ β)
    (G : Log I A ε σ γ → I.Op → Prop) (t : Nat) (request : γ)
    (post : Except ε α → Log I A ε σ γ → Prop) :
    Prog I A ε α → A → Log I A ε σ γ → Prop
  | .pure a, _, mine => post (.ok a) mine
  | .throw e, _, mine => post (.error e) mine
  | .ask k, amb, mine => follows S P G t request post (k amb) amb mine
  | .await op k, _, mine =>
      G mine op ∧ ∀ (amb : A) (fault : Option ε) (s : σ),
        S.guard request amb op s = true → fault.all (P.fault op) = true →
          follows S P G t request post (k (S.answer amb op fault s).1) amb
            (S.entry t request amb op fault s :: mine)

section Rules

variable {S : System I A ε σ γ β} {P : Policy I A ε σ γ β}
  {G : Log I A ε σ γ → I.Op → Prop} {t : Nat} {request : γ} {amb : A}
  {mine : Log I A ε σ γ}

theorem follows_mono {post post' : Except ε α → Log I A ε σ γ → Prop}
    (hpost : ∀ r mine, post r mine → post' r mine) {p : Prog I A ε α}
    (h : follows S P G t request post p amb mine) :
    follows S P G t request post' p amb mine := by
  induction p generalizing amb mine with
  | pure a => exact hpost _ _ h
  | throw e => exact hpost _ _ h
  | ask k ih => exact ih amb h
  | await op k ih =>
      refine ⟨h.1, ?_⟩
      intro amb' fault s hguard hfault
      exact ih _ (h.2 amb' fault s hguard hfault)

/-- The answers a program gets come on top of those its thread has had. -/
theorem follows_newer {Q : I.Op → Prop}
    {post : Except ε α → Log I A ε σ γ → Prop} {p : Prog I A ε α}
    (hp : p.Issues Q) (h : follows S P G t request post p amb mine) :
    follows S P G t request
      (fun r mine' => post r mine' ∧
        ∃ newer : Log I A ε σ γ, mine' = newer ++ mine ∧ ∀ x ∈ newer, Q x.op)
      p amb mine := by
  induction p generalizing amb mine with
  | pure a => exact ⟨h, [], rfl, fun _ hx => nomatch hx⟩
  | throw e => exact ⟨h, [], rfl, fun _ hx => nomatch hx⟩
  | ask k ih => exact ih amb (hp amb) h
  | await op k ih =>
      refine ⟨h.1, ?_⟩
      intro amb' fault s hguard hfault
      apply follows_mono ?_ (ih _ (hp.2 _) (h.2 amb' fault s hguard hfault))
      rintro r mine' ⟨hpost, newer, rfl, hnewer⟩
      refine ⟨hpost, newer ++ [S.entry t request amb' op fault s], ?_, ?_⟩
      · rw [List.append_assoc, List.singleton_append]
      · intro x hx
        rcases List.mem_append.1 hx with hx | hx
        · exact hnewer x hx
        · rw [List.mem_singleton.1 hx]
          exact hp.1

theorem follows_bind {δ : Type} {post : Except ε δ → Log I A ε σ γ → Prop}
    {p : Prog I A ε α} {f : α → Prog I A ε δ}
    (h : follows S P G t request
      (fun r mine => match r with
        | .ok a => ∀ amb, follows S P G t request post (f a) amb mine
        | .error e => post (.error e) mine) p amb mine) :
    follows S P G t request post (p >>= f) amb mine := by
  induction p generalizing amb mine with
  | pure a => exact h amb
  | throw e => exact h
  | ask k ih => exact ih amb h
  | await op k ih =>
      refine ⟨h.1, ?_⟩
      intro amb' fault s hguard hfault
      exact ih _ (h.2 amb' fault s hguard hfault)

/-- The rule for a program whose value is only wrapped up afterwards. -/
theorem follows_map {δ : Type} {post : Except ε α → Log I A ε σ γ → Prop}
    {post' : Except ε δ → Log I A ε σ γ → Prop} {p : Prog I A ε α}
    {g : α → δ} (h : follows S P G t request post p amb mine)
    (hok : ∀ a mine, post (.ok a) mine → post' (.ok (g a)) mine)
    (herror : ∀ e mine, post (.error e) mine → post' (.error e) mine) :
    follows S P G t request post' (p >>= fun a => .pure (g a)) amb mine := by
  apply follows_bind
  apply follows_mono ?_ h
  intro r mine' hr
  cases r with
  | ok a => exact fun _ => hok a mine' hr
  | error e => exact herror e mine' hr

theorem follows_tryCatch {post : Except ε α → Log I A ε σ γ → Prop}
    {p : Prog I A ε α} {h : ε → Prog I A ε α}
    (hp : follows S P G t request
      (fun r mine => match r with
        | .ok a => post (.ok a) mine
        | .error e => ∀ amb, follows S P G t request post (h e) amb mine)
      p amb mine) :
    follows S P G t request post (p.tryCatch h) amb mine := by
  induction p generalizing amb mine with
  | pure a => exact hp
  | throw e => exact hp amb
  | ask k ih => exact ih amb hp
  | await op k ih =>
      refine ⟨hp.1, ?_⟩
      intro amb' fault s hguard hfault
      exact ih _ (hp.2 amb' fault s hguard hfault)

theorem follows_tryFinally {post : Except ε α → Log I A ε σ γ → Prop}
    {p : Prog I A ε α} {q : Prog I A ε Unit}
    (hp : follows S P G t request
      (fun r mine => ∀ amb, follows S P G t request
        (fun r' mine => match r' with
          | .ok _ => post r mine
          | .error e => post (.error e) mine) q amb mine) p amb mine) :
    follows S P G t request post (p.tryFinally q) amb mine := by
  induction p generalizing amb mine with
  | pure a =>
      apply follows_bind
      apply follows_mono (p := q) ?_ (hp amb)
      intro r' mine' h
      cases r' with
      | ok _ => exact fun _ => h
      | error e => exact h
  | throw e =>
      apply follows_bind
      apply follows_mono (p := q) ?_ (hp amb)
      intro r' mine' h
      cases r' with
      | ok _ => exact fun _ => h
      | error e => exact h
  | ask k ih => exact ih amb hp
  | await op k ih =>
      refine ⟨hp.1, ?_⟩
      intro amb' fault s hguard hfault
      exact ih _ (hp.2 amb' fault s hguard hfault)

/-- The rule for an awaited call: it is permitted, and the rest of the
program is followed after each answer. -/
theorem follows_call {post : Except ε α → Log I A ε σ γ → Prop} {op : I.Op}
    {f : I.Res op → Prog I A ε α} (hlaw : G mine op)
    (herror : ∀ amb fault s e, fault.all (P.fault op) = true →
      (S.answer amb op fault s).1 = .error e →
        post (.error e) (S.entry t request amb op fault s :: mine))
    (hok : ∀ amb s v, S.guard request amb op s = true →
      (S.exec amb op s).1 = .ok v →
        follows S P G t request post (f v) amb
          (S.entry t request amb op none s :: mine)) :
    follows S P G t request post (Prog.call op >>= f) amb mine := by
  refine ⟨hlaw, ?_⟩
  intro amb' fault s hguard hfault
  cases hanswer : (S.answer amb' op fault s).1 with
  | error e => exact herror amb' fault s e hfault hanswer
  | ok v =>
      cases fault with
      | some e => exact nomatch hanswer
      | none => exact hok amb' s v hguard hanswer

/-- The rule for a call that cannot be made to fail. -/
theorem follows_exec {post : Except ε α → Log I A ε σ γ → Prop} (op : I.Op)
    {f : I.Res op → Prog I A ε α} (hlaw : G mine op)
    (hP : ∀ e, P.fault op e = false)
    (h : ∀ amb s r, (S.exec amb op s).1 = r →
      follows S P G t request post (Prog.ofExcept r >>= f) amb
        (S.entry t request amb op none s :: mine)) :
    follows S P G t request post (Prog.call op >>= f) amb mine := by
  apply follows_call hlaw
  · intro amb fault s e hfault hanswer
    have hnone := Policy.fault_eq_none hP hfault
    subst hnone
    exact h amb s (.error e) hanswer
  · exact fun amb s v _ hv => h amb s (.ok v) hv

/-- The rule for a last call. -/
theorem follows_last {op : I.Op} {post : Except ε (I.Res op) →
    Log I A ε σ γ → Prop} (hlaw : G mine op)
    (herror : ∀ amb fault s e, fault.all (P.fault op) = true →
      (S.answer amb op fault s).1 = .error e →
        post (.error e) (S.entry t request amb op fault s :: mine))
    (hok : ∀ amb s v, S.guard request amb op s = true →
      (S.exec amb op s).1 = .ok v →
        post (.ok v) (S.entry t request amb op none s :: mine)) :
    follows S P G t request post (Prog.call op) amb mine := by
  rw [← Prog.bind_pure (Prog.call op)]
  exact follows_call hlaw herror hok

/-- The rule for a last call that cannot be made to fail. -/
theorem follows_exec_last (op : I.Op)
    {post : Except ε (I.Res op) → Log I A ε σ γ → Prop} (hlaw : G mine op)
    (hP : ∀ e, P.fault op e = false)
    (h : ∀ amb s r, (S.exec amb op s).1 = r →
      post r (S.entry t request amb op none s :: mine)) :
    follows S P G t request post (Prog.call op) amb mine := by
  rw [← Prog.bind_pure (Prog.call op)]
  apply follows_exec op hlaw hP
  intro amb s r hexec
  cases r with
  | ok v => exact h amb s (.ok v) hexec
  | error e => exact h amb s (.error e) hexec

/-- The rule for loops: `J` holds of what is left of the list, and each body
leads from one rest to the next. -/
theorem follows_forEach {post : Except ε Unit → Log I A ε σ γ → Prop}
    {xs : List α} {body : α → Prog I A ε Unit}
    {J : List α → Log I A ε σ γ → Prop} (hJ : J xs mine)
    (hdone : ∀ mine, J [] mine → post (.ok ()) mine)
    (hbody : ∀ x rest amb mine, J (x :: rest) mine →
      follows S P G t request
        (fun r mine => match r with
          | .ok _ => J rest mine
          | .error e => post (.error e) mine) (body x) amb mine) :
    follows S P G t request post (Prog.forEach xs body) amb mine := by
  induction xs generalizing amb mine with
  | nil => exact hdone mine hJ
  | cons x xs ih =>
      apply follows_bind
      apply follows_mono ?_ (hbody x xs amb mine hJ)
      intro r mine' hr
      cases r with
      | error e => exact hr
      | ok v => exact fun _ => ih hr

/-- A program all of whose calls are permitted after any further answers. -/
theorem follows_of_issues {Q : I.Op → Prop} {p : Prog I A ε α}
    (hp : p.Issues Q)
    (hG : ∀ newer op, Q op → G (newer ++ mine) op) :
    follows S P G t request (fun _ _ => True) p amb mine := by
  induction p generalizing amb mine with
  | pure a => trivial
  | throw e => trivial
  | ask k ih => exact ih amb (hp amb) hG
  | await op k ih =>
      refine ⟨hG [] op hp.1, ?_⟩
      intro amb' fault s _ _
      apply ih _ (hp.2 _)
      intro newer op' hop'
      have hlonger := hG (newer ++ [S.entry t request amb' op fault s]) op' hop'
      rw [List.append_assoc, List.singleton_append] at hlonger
      exact hlonger

theorem follows_resume {post : Except ε α → Log I A ε σ γ → Prop}
    {p : Prog I A ε α} (h : follows S P G t request post p amb mine) :
    follows S P G t request post (p.resume amb) amb mine := by
  induction p with
  | pure a => exact h
  | throw e => exact h
  | ask k ih => exact ih amb h
  | await op k _ => exact h

end Rules

/-- In every run, each call was one its thread may make after its own
answers, and what is left of a thread follows on from these. -/
theorem Reachable.follows {S : System I A ε σ γ α} {P : Policy I A ε σ γ α}
    {s₀ : σ} {G : γ → Log I A ε σ γ → I.Op → Prop}
    {post : γ → Except ε α → Log I A ε σ γ → Prop}
    (hbody : ∀ t request amb,
      Async.follows S P (G request) t request (post request)
        (S.body request) amb [])
    {c : Config I A ε σ γ α} (h : Reachable S P s₀ c) :
    Obeyed (fun log t request op => G request (own t log) op) c.log ∧
    ∀ t th, c.threads[t]? = some th → ∃ amb,
      Async.follows S P (G th.request) t th.request (post th.request) th.prog
        amb (own t c.log) := by
  induction h with
  | refl => exact ⟨Obeyed.nil _, fun t th hth => nomatch hth⟩
  | @tail b c hb hstep ih =>
      obtain ⟨hobeyed, hthreads⟩ := ih
      cases hstep with
      | spawn request amb _ =>
          refine ⟨hobeyed, ?_⟩
          intro t th hth
          rcases System.thread_of_spawn hth with hold | ⟨rfl, rfl⟩
          · exact hthreads t th hold
          · refine ⟨amb, ?_⟩
            have hnone : own b.threads.length b.log = [] :=
              Reachable.own_arriving hb
            show Async.follows S P (G request) b.threads.length request
              (post request) _ amb (own b.threads.length b.log)
            rw [hnone]
            exact follows_resume (hbody _ request amb)
      | @perform u request op k amb fault hthread hguard hfault =>
          obtain ⟨amb₀, hlaw, hrest⟩ := hthreads u _ hthread
          refine ⟨hobeyed.cons hlaw, ?_⟩
          intro t th hth
          rcases System.thread_of_perform hthread hth with
            ⟨hut, hold⟩ | ⟨rfl, rfl⟩
          · obtain ⟨amb₁, h₁⟩ := hthreads t th hold
            refine ⟨amb₁, ?_⟩
            show Async.follows S P (G th.request) t th.request
              (post th.request) th.prog amb₁
              (own t (S.entry u request amb op fault b.state :: b.log))
            rw [own_cons_ne hut]
            exact h₁
          · refine ⟨amb, ?_⟩
            show Async.follows S P (G request) u request (post request) _ amb
              (own u (S.entry u request amb op fault b.state :: b.log))
            rw [own_entry]
            exact follows_resume (hrest amb fault b.state hguard hfault)

/-- What the proof of a thread says holds of its answers once it has ended. -/
theorem Reachable.follows_ended {S : System I A ε σ γ α}
    {P : Policy I A ε σ γ α} {s₀ : σ} {G : γ → Log I A ε σ γ → I.Op → Prop}
    {post : γ → Except ε α → Log I A ε σ γ → Prop}
    (hbody : ∀ t request amb,
      Async.follows S P (G request) t request (post request)
        (S.body request) amb [])
    {c : Config I A ε σ γ α} (h : Reachable S P s₀ c) {t : Nat}
    {th : Thread I A ε γ α} (hth : c.threads[t]? = some th)
    (hended : th.prog.running = false) :
    ∃ r, th.prog = Prog.ofExcept r ∧ post th.request r (own t c.log) := by
  obtain ⟨amb, hfollows⟩ := (Reachable.follows hbody h).2 t th hth
  rcases h.thread_cases hth with ⟨a, ha⟩ | ⟨e, he⟩ | ⟨op, k, hop⟩
  · rw [ha] at hfollows
    exact ⟨.ok a, ha, hfollows⟩
  · rw [he] at hfollows
    exact ⟨.error e, he, hfollows⟩
  · rw [hop] at hended
    exact nomatch hended

theorem Reachable.follows_result {S : System I A ε σ γ α}
    {P : Policy I A ε σ γ α} {s₀ : σ} {G : γ → Log I A ε σ γ → I.Op → Prop}
    {post : γ → Except ε α → Log I A ε σ γ → Prop}
    (hbody : ∀ t request amb,
      Async.follows S P (G request) t request (post request)
        (S.body request) amb [])
    {c : Config I A ε σ γ α} (h : Reachable S P s₀ c) {t : Nat} {request : γ}
    {r : Except ε α}
    (hth : c.threads[t]? = some ⟨request, Prog.ofExcept r⟩) :
    post request r (own t c.log) := by
  obtain ⟨r', hprog, hpost⟩ :=
    h.follows_ended hbody hth (Prog.ofExcept_running r)
  rw [Prog.ofExcept_injective hprog]
  exact hpost

end Videum.Async
