import Videum.Async.Calls

/-!
# Systems made of parts

One process may run the programs of several systems, each with calls and a
state of its own: the requests of the whole are turned into requests of the
parts, and every call names the part it belongs to.  `PartOf` says what it
takes for a system to be a part of a whole.  A part never notices the others:
its share of a run of the whole is a run of the part alone, with the same
thread numbers, the same log entries and the same states
(`Reachable.part`).  What was proved about the part therefore holds in the
whole.

A thread of another part takes no step of this one.  In the run of the part it
appears as a request of its own that gets no answers, so that threads keep
their numbers.

## Main results

* `Reachable.part` — a run of the whole is, seen by a part, a run of it.
* `Reachable.of_agrees` — two systems whose answers agree wherever one of them
  gets have the same runs.
-/

namespace Videum.Async

variable {ι : Type} {I : ι → Iface} {i : ι} {M A E ε α β γ : Type}

/-- The calls of all parts, each under the name of its part. -/
abbrev Iface.parts {ι : Type} (I : ι → Iface) : Iface where
  Op := Σ j, (I j).Op
  Res op := (I op.1).Res op.2

/-- How the moments and exceptions of a part look in the whole. -/
structure Embedding (M A E ε : Type) where
  moment : M → A
  error : ε → E
  error? : E → Option ε
  error?_error : ∀ e, error? (error e) = some e

namespace Embedding

variable (v : Embedding M A E ε)

/-- The answer the part gets, when its call gets `r` in the whole. -/
def answer? : Except E α → Option (Except ε α)
  | .ok a => some (.ok a)
  | .error x => (v.error? x).map .error

/-- The answer the whole gets, when its part gets `r`. -/
def answer : Except ε α → Except E α
  | .ok a => .ok a
  | .error e => .error (v.error e)

@[simp] theorem answer?_answer (r : Except ε α) :
    v.answer? (v.answer r) = some r := by
  cases r with
  | ok a => rfl
  | error e =>
      show (v.error? (v.error e)).map _ = _
      rw [v.error?_error]
      rfl

@[simp] theorem answer?_error (e : ε) :
    v.answer? (.error (v.error e) : Except E α) = some (.error e) :=
  v.answer?_answer (.error e)

end Embedding

namespace Prog

/-- Go on with the answer the part gets.  An exception that is none of the
part's is passed on. -/
def receive {K : Iface} (v : Embedding M A E ε)
    (k : Except ε β → Prog K M E α) : Except E β → Prog K M E α
  | .ok a => k (.ok a)
  | .error x =>
      match v.error? x with
      | some e => k (.error e)
      | none => .throw x

/-- A program of part `i` as a program of the whole. -/
def within (v : Embedding M A E ε) (i : ι) :
    Prog (I i) A ε α → Prog (Iface.parts I) M E α
  | .pure a => .pure a
  | .throw e => .throw (v.error e)
  | .ask k => .ask fun m => (k (v.moment m)).within v i
  | .await op k => .await ⟨i, op⟩ (receive v fun r => (k r).within v i)

variable {v : Embedding M A E ε}

theorem receive_of_answer {K : Iface} {k : Except ε β → Prog K M E α}
    {r : Except E β} {r' : Except ε β} (h : v.answer? r = some r') :
    receive v k r = k r' := by
  cases r with
  | ok a =>
      cases h
      rfl
  | error x =>
      obtain ⟨e, he, rfl⟩ := Option.map_eq_some_iff.1 h
      simp only [receive, he]

/-- The calls of the program are calls of its part. -/
theorem Issues.within {Q : (Iface.parts I).Op → Prop} {p : Prog (I i) A ε α}
    (hp : p.Issues fun op => Q ⟨i, op⟩) : (p.within v i).Issues Q := by
  induction p with
  | pure a => trivial
  | throw e => trivial
  | ask k ih => exact fun m => ih (v.moment m) (hp (v.moment m))
  | await op k ih =>
      refine ⟨hp.1, ?_⟩
      intro r
      cases r with
      | ok a => exact ih (.ok a) (hp.2 (.ok a))
      | error x =>
          show (receive v (fun r => (k r).within v i) (.error x)).Issues Q
          unfold receive
          dsimp only
          cases v.error? x with
          | none => trivial
          | some e => exact ih (.error e) (hp.2 (.error e))

theorem resume_map {K : Iface} (p : Prog K A ε α) (f : α → β) (amb : A) :
    (p >>= fun a => .pure (f a)).resume amb =
      p.resume amb >>= fun a => .pure (f a) := by
  induction p with
  | pure a => rfl
  | throw e => rfl
  | ask k ih => exact ih amb
  | await op k _ => rfl

theorem resume_within (p : Prog (I i) A ε α) (m : M) :
    (p.within v i).resume m = (p.resume (v.moment m)).within v i := by
  induction p with
  | pure a => rfl
  | throw e => rfl
  | ask k ih => exact ih (v.moment m)
  | await op k _ => rfl

end Prog

/-! ## Being a part -/

section PartOf

variable {Ω σ ρ δ R : Type}

/-- What it takes for `S`, run under the policy `Q`, to be part `i` of `W`,
run under the policy `P`. -/
structure PartOf (W : System (Iface.parts I) M E Ω ρ R)
    (P : Policy (Iface.parts I) M E Ω ρ R) (i : ι)
    (S : System (I i) A ε σ δ α) (Q : Policy (I i) A ε σ δ α) where
  view : Ω → σ
  embedding : Embedding M A E ε
  reply : α → R
  /-- The request of the part that a request of the whole is turned into. -/
  target : ρ → Option δ
  /-- The request that stands for the requests of the other parts. -/
  rest : δ
  /-- What may be left to do for a request that is none of the part's: it
  leaves the state of the part alone. -/
  apart : ρ → Prog (Iface.parts I) M E R → Prop
  answers : ∀ m op w, (W.exec m ⟨i, op⟩ w).1 =
    embedding.answer (S.exec (embedding.moment m) op (view w)).1
  writes : ∀ m op w, view (W.exec m ⟨i, op⟩ w).2 =
    (S.exec (embedding.moment m) op (view w)).2
  guards : ∀ request d m op w, target request = some d →
    W.guard request m ⟨i, op⟩ w = true →
    S.guard d (embedding.moment m) op (view w) = true
  body : ∀ request m,
    (∃ d, target request = some d ∧ (W.body request).resume m =
      ((S.body d).resume (embedding.moment m)).within embedding i >>=
        fun a => .pure (reply a)) ∨
    apart request ((W.body request).resume m)
  apart_await : ∀ request op k, apart request (.await op k) →
    (op.1 ≠ i ∨ target request = none) ∧
    (∀ m w, view (W.exec m op w).2 = view w) ∧
    ∀ r m, apart request ((k r).resume m)
  accepts : ∀ c d, Q.accepts c d
  fault : ∀ op x, P.fault ⟨i, op⟩ x = true →
    ∃ e, x = embedding.error e ∧ Q.fault op e = true

namespace PartOf

variable {W : System (Iface.parts I) M E Ω ρ R}
  {P : Policy (Iface.parts I) M E Ω ρ R} {S : System (I i) A ε σ δ α}
  {Q : Policy (I i) A ε σ δ α} (part : PartOf W P i S Q)

/-- What is left to do for a request of the part, in the whole. -/
def lift (p : Prog (I i) A ε α) : Prog (Iface.parts I) M E R :=
  p.within part.embedding i >>= fun a => .pure (part.reply a)

/-- What a request of the part does with an answer, in the whole. -/
def liftNext {op : (I i).Op}
    (k : Except ε ((I i).Res op) → Prog (I i) A ε α)
    (r : Except E ((I i).Res op)) : Prog (Iface.parts I) M E R :=
  Prog.receive part.embedding (fun r' => (k r').within part.embedding i) r >>=
    fun a => .pure (part.reply a)

theorem lift_await (op : (I i).Op)
    (k : Except ε ((I i).Res op) → Prog (I i) A ε α) :
    part.lift (.await op k) = .await ⟨i, op⟩ (part.liftNext k) := rfl

theorem liftNext_of_answer {op : (I i).Op}
    {k : Except ε ((I i).Res op) → Prog (I i) A ε α}
    {r : Except E ((I i).Res op)} {r' : Except ε ((I i).Res op)}
    (h : part.embedding.answer? r = some r') :
    part.liftNext k r = part.lift (k r') := by
  unfold liftNext
  rw [Prog.receive_of_answer h]
  rfl

theorem resume_lift (p : Prog (I i) A ε α) (m : M) :
    (part.lift p).resume m = part.lift (p.resume (part.embedding.moment m)) := by
  unfold lift
  rw [Prog.resume_map, Prog.resume_within]

/-- A thread of the part that has returned has returned its reply. -/
theorem lift_eq_pure {p : Prog (I i) A ε α} {x : R}
    (h : part.lift p = .pure x) : ∃ a, p = .pure a ∧ x = part.reply a := by
  cases p with
  | pure a =>
      cases h
      exact ⟨a, rfl, rfl⟩
  | throw e => exact nomatch h
  | ask k => exact nomatch h
  | await op k => exact nomatch h

end PartOf

variable [DecidableEq ι]

/-- The call and the answer of part `i`, when the call is one of part `i`. -/
def ownCall? (v : Embedding M A E ε) (i : ι) :
    (op : (Iface.parts I).Op) → Except E ((Iface.parts I).Res op) →
      Option (Σ op : (I i).Op, Except ε ((I i).Res op))
  | ⟨j, op⟩, r =>
      if h : j = i then
        match j, h, op, r with
        | _, rfl, op, r => (v.answer? r).map fun r' => ⟨op, r'⟩
      else none

theorem ownCall?_self (v : Embedding M A E ε) (op : (I i).Op)
    (r : Except E ((I i).Res op)) :
    ownCall? (I := I) v i ⟨i, op⟩ r = (v.answer? r).map fun r' => ⟨op, r'⟩ :=
  dif_pos rfl

theorem ownCall?_ne (v : Embedding M A E ε) {op : (Iface.parts I).Op}
    (h : op.1 ≠ i) (r : Except E ((Iface.parts I).Res op)) :
    ownCall? v i op r = none :=
  dif_neg h

namespace PartOf

variable {W : System (Iface.parts I) M E Ω ρ R}
  {P : Policy (Iface.parts I) M E Ω ρ R} {S : System (I i) A ε σ δ α}
  {Q : Policy (I i) A ε σ δ α} (part : PartOf W P i S Q)

/-- The entry of the part's log that an entry of the whole stands for. -/
def partEntry (x : Entry (Iface.parts I) M E Ω ρ) : Option (Entry (I i) A ε σ δ) :=
  (part.target x.request).bind fun d =>
    (ownCall? part.embedding i x.op x.res).map fun own =>
      { tid := x.tid
        request := d
        amb := part.embedding.moment x.amb
        op := own.1
        before := part.view x.before
        res := own.2
        after := part.view x.after }

/-- The calls of the part. -/
def log (calls : Log (Iface.parts I) M E Ω ρ) : Log (I i) A ε σ δ :=
  calls.filterMap part.partEntry

/-- Thread `u` of the part is what the part sees of thread `th`. -/
structure Shows (th : Thread (Iface.parts I) M E ρ R)
    (u : Thread (I i) A ε δ α) : Prop where
  target : part.target th.request = some u.request
  prog : th.prog = part.lift u.prog

/-- The run `c` of the whole is, seen by the part, the run `c₁`. -/
structure Projects (c : Config (Iface.parts I) M E Ω ρ R)
    (c₁ : Config (I i) A ε σ δ α) : Prop where
  state : c₁.state = part.view c.state
  log : c₁.log = part.log c.log
  length : c₁.threads.length = c.threads.length
  threads : ∀ (t : Nat) th, c.threads[t]? = some th →
    (∃ u, c₁.threads[t]? = some u ∧ part.Shows th u) ∨
      part.apart th.request th.prog

theorem partEntry_of_other {x : Entry (Iface.parts I) M E Ω ρ}
    (h : x.op.1 ≠ i ∨ part.target x.request = none) :
    part.partEntry x = none := by
  unfold partEntry
  rcases h with hne | htarget
  · rw [ownCall?_ne _ hne]
    cases part.target x.request <;> rfl
  · rw [htarget]
    rfl

variable {part} {c : Config (Iface.parts I) M E Ω ρ R}
  {c₁ : Config (I i) A ε σ δ α}

/-- A request arrives: one of the part, or one that stands for it. -/
theorem Projects.spawn (h : part.Projects c c₁) (request : ρ) (m : M) :
    ∃ c₁', Step S Q c₁ c₁' ∧ part.Projects (W.spawn c request m) c₁' := by
  have hother : ∀ d {t : Nat} {th : Thread (Iface.parts I) M E ρ R},
      c.threads[t]? = some th →
      (∃ u, (S.spawn c₁ d (part.embedding.moment m)).threads[t]? = some u ∧
        part.Shows th u) ∨
      part.apart th.request th.prog := by
    intro d t th hth
    rcases h.threads t th hth with ⟨u, hu, hshows⟩ | hapart
    · exact .inl ⟨u, System.spawn_thread hu d _, hshows⟩
    · exact .inr hapart
  have hlength : ∀ d, (S.spawn c₁ d (part.embedding.moment m)).threads.length =
      (W.spawn c request m).threads.length := by
    intro d
    simp only [System.spawn, List.length_append, List.length_singleton, h.length]
  rcases part.body request m with ⟨d, htarget, hbody⟩ | hapart
  · refine ⟨_, .spawn d (part.embedding.moment m) (part.accepts c₁ d),
      h.state, h.log, hlength d, ?_⟩
    intro t th hth
    rcases System.thread_of_spawn hth with hold | ⟨rfl, rfl⟩
    · exact hother d hold
    · refine .inl ⟨⟨d, (S.body d).resume (part.embedding.moment m)⟩, ?_,
        htarget, hbody⟩
      simp only [System.spawn, ← h.length, List.getElem?_concat_length]
  · refine ⟨_, .spawn part.rest (part.embedding.moment m)
      (part.accepts c₁ part.rest), h.state, h.log, hlength part.rest, ?_⟩
    intro t th hth
    rcases System.thread_of_spawn hth with hold | ⟨rfl, rfl⟩
    · exact hother part.rest hold
    · exact .inr hapart

/-- A call that leaves the part alone is answered: the part does not
notice. -/
theorem Projects.other (h : part.Projects c c₁) {t : Nat} {request : ρ}
    {op : (Iface.parts I).Op}
    {k : Except E ((Iface.parts I).Res op) → Prog (Iface.parts I) M E R}
    (hthread : c.threads[t]? = some ⟨request, .await op k⟩)
    (hapart : part.apart request (.await op k)) (m : M) (fault : Option E) :
    part.Projects (W.perform c t request m op k fault) c₁ := by
  obtain ⟨hother, hkeeps, hrest⟩ := part.apart_await request op k hapart
  refine ⟨?_, ?_, ?_, ?_⟩
  · rw [h.state]
    cases fault with
    | none => exact (hkeeps m c.state).symm
    | some x => rfl
  · show c₁.log = List.filterMap part.partEntry (_ :: c.log)
    rw [List.filterMap_cons_none (part.partEntry_of_other hother)]
    exact h.log
  · simp only [System.perform, List.length_set, h.length]
  · intro u th hth
    rcases System.thread_of_perform hthread hth with ⟨_, hold⟩ | ⟨rfl, rfl⟩
    · exact h.threads u th hold
    · exact .inr (hrest _ m)

/-- A call of the part is answered. -/
theorem Projects.own (h : part.Projects c c₁) {t : Nat} {request : ρ} {d : δ}
    {op : (I i).Op} {k : Except ε ((I i).Res op) → Prog (I i) A ε α}
    (hthread : c.threads[t]? = some ⟨request, .await ⟨i, op⟩ (part.liftNext k)⟩)
    (hthread₁ : c₁.threads[t]? = some ⟨d, .await op k⟩)
    (htarget : part.target request = some d) {m : M} {fault : Option E}
    (hguard : W.guard request m ⟨i, op⟩ c.state = true)
    (hfault : fault.all (P.fault ⟨i, op⟩) = true) :
    ∃ c₁', Step S Q c₁ c₁' ∧ part.Projects
      (W.perform c t request m ⟨i, op⟩ (part.liftNext k) fault) c₁' := by
  obtain ⟨fault₁, hfault₁, hanswer, hafter⟩ : ∃ fault₁ : Option ε,
      fault₁.all (Q.fault op) = true ∧
      part.embedding.answer? (W.answer m ⟨i, op⟩ fault c.state).1 =
        some (S.answer (part.embedding.moment m) op fault₁ c₁.state).1 ∧
      (S.answer (part.embedding.moment m) op fault₁ c₁.state).2 =
        part.view (W.answer m ⟨i, op⟩ fault c.state).2 := by
    rw [h.state]
    cases fault with
    | none =>
        refine ⟨none, rfl, ?_, (part.writes m op c.state).symm⟩
        show part.embedding.answer? (W.exec m ⟨i, op⟩ c.state).1 = _
        rw [part.answers]
        exact part.embedding.answer?_answer _
    | some x =>
        obtain ⟨e, rfl, he⟩ := part.fault op x hfault
        exact ⟨some e, he, part.embedding.answer?_error e, rfl⟩
  refine ⟨_, .perform (part.embedding.moment m) fault₁ hthread₁ ?_ hfault₁,
    hafter, ?_, ?_, ?_⟩
  · rw [h.state]
    exact part.guards request d m op c.state htarget hguard
  · have hentry : part.partEntry (W.entry t request m ⟨i, op⟩ fault c.state) =
        some (S.entry t d (part.embedding.moment m) op fault₁ c₁.state) := by
      simp only [partEntry, System.entry, htarget, ownCall?_self, hanswer,
        ← hafter, ← h.state, Option.bind_some, Option.map_some]
    show _ = List.filterMap part.partEntry (_ :: c.log)
    rw [List.filterMap_cons_some hentry]
    exact congrArg _ h.log
  · simp only [System.perform, List.length_set, h.length]
  · intro u th hth
    rcases System.thread_of_perform hthread hth with ⟨hne, hold⟩ | ⟨rfl, rfl⟩
    · rcases h.threads u th hold with ⟨v, hv, hshows⟩ | hapart
      · exact .inl ⟨v, System.perform_thread_ne hv hne .., hshows⟩
      · exact .inr hapart
    · refine .inl ⟨_, System.perform_thread_self hthread₁ _ _, htarget, ?_⟩
      rw [part.liftNext_of_answer hanswer, resume_lift]

end PartOf

/-- Seen by a part, a run of the whole is a run of the part. -/
theorem Reachable.part {W : System (Iface.parts I) M E Ω ρ R}
    {P : Policy (Iface.parts I) M E Ω ρ R} {S : System (I i) A ε σ δ α}
    {Q : Policy (I i) A ε σ δ α} (part : PartOf W P i S Q) {w₀ : Ω}
    {c : Config (Iface.parts I) M E Ω ρ R} (h : Reachable W P w₀ c) :
    ∃ c₁, Reachable S Q (part.view w₀) c₁ ∧ part.Projects c c₁ := by
  induction h with
  | refl => exact ⟨_, .refl, rfl, rfl, rfl, fun _ _ hth => nomatch hth⟩
  | @tail c c' _ hstep ih =>
      obtain ⟨c₁, hc₁, hproj⟩ := ih
      cases hstep with
      | spawn request m _ =>
          obtain ⟨c₁', hstep₁, hproj'⟩ := hproj.spawn request m
          exact ⟨c₁', hc₁.tail hstep₁, hproj'⟩
      | @perform t request op k m fault hthread hguard hfault =>
          rcases hproj.threads t _ hthread with ⟨u, hu, hshows⟩ | hapart
          · obtain ⟨d, p⟩ := u
            obtain ⟨htarget, hprog⟩ := hshows
            cases p with
            | pure a => exact nomatch hprog
            | throw e => exact nomatch hprog
            | ask k₁ => exact nomatch hprog
            | await op₁ k₁ =>
                rw [part.lift_await] at hprog
                cases hprog
                obtain ⟨c₁', hstep₁, hproj'⟩ :=
                  hproj.own hthread hu htarget hguard hfault
                exact ⟨c₁', hc₁.tail hstep₁, hproj'⟩
          · exact ⟨c₁, hc₁, hproj.other hthread hapart m fault⟩

end PartOf

/-! ## Answers that agree -/

section Agrees

variable {J : Iface} {σ δ : Type} {S S' : System J A ε σ δ α}
  {P : Policy J A ε σ δ α} {s₀ : σ}

/-- Where `S` never gets to a call that `S'` answers differently, as long as
`Φ` holds of the log, `S` has the runs of `S'`. -/
theorem Reachable.of_agrees {Φ : Log J A ε σ δ → Prop}
    {c : Config J A ε σ δ α} (h : Reachable S' P s₀ c) (hlog : Φ c.log)
    (hΦ : ∀ x log, Φ (x :: log) → Φ log) (hbody : S'.body = S.body)
    (hguard : ∀ d amb op s, S'.guard d amb op s = true →
      S.guard d amb op s = true)
    (hexec : ∀ (c : Config J A ε σ δ α) (t : Nat) d amb op k,
      Reachable S P s₀ c → Φ c.log →
      c.threads[t]? = some ⟨d, .await op k⟩ →
      S'.exec amb op c.state = S.exec amb op c.state) :
    Reachable S P s₀ c := by
  induction h with
  | refl => exact .refl
  | @tail c c' _ hstep ih =>
      cases hstep with
      | spawn d amb haccept =>
          have hspawn : S'.spawn c d amb = S.spawn c d amb := by
            unfold System.spawn
            rw [hbody]
          rw [hspawn]
          exact (ih hlog).tail (.spawn d amb haccept)
      | @perform t d op k amb fault hthread hg hfault =>
          have hold : Φ c.log := hΦ _ _ hlog
          have hanswer : S'.answer amb op fault c.state =
              S.answer amb op fault c.state := by
            cases fault with
            | none => exact hexec c t d amb op k (ih hold) hold hthread
            | some e => rfl
          have hperform : S'.perform c t d amb op k fault =
              S.perform c t d amb op k fault := by
            unfold System.perform System.entry
            rw [hanswer]
          rw [hperform]
          exact (ih hold).tail
            (.perform amb fault hthread (hguard _ _ _ _ hg) hfault)

end Agrees

end Videum.Async
