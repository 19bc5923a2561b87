import Videum.Async.Machine

/-!
# What a program can call

Two predicates on the tree of a program, proved by recursion over it and
without a look at any state.  `AtCalls Q` says that `Q` holds at every call
the program can make, together with what follows the call.  `Until D post`
says that every path of the program makes a call whose answer discharges
`D`, unless it ends in `post` first.

## Main results

* `Reachable.atCalls` — what holds at every call of the served programs
  holds at every call still to be made in a running process.
* `Reachable.issued` — and at every call already answered.
* `Steps.entry_config` — an entry of the log was left by a step out of a
  configuration of the run.
-/

namespace Videum.Async

variable {I : Iface} {A ε σ γ α β : Type}

namespace Prog

/-- `Q` holds at every call the program can make, with what follows it. -/
def AtCalls (Q : (op : I.Op) → (Except ε (I.Res op) → Prog I A ε α) → Prop) :
    Prog I A ε α → Prop
  | .pure _ => True
  | .throw _ => True
  | .ask k => ∀ amb, (k amb).AtCalls Q
  | .await op k => Q op k ∧ ∀ r, (k r).AtCalls Q

/-- Every call the program can make is one of `Q`. -/
abbrev Issues (Q : I.Op → Prop) (p : Prog I A ε α) : Prop :=
  p.AtCalls fun op _ => Q op

/-- Every path makes a call that discharges `D`, or ends in `post` first. -/
def Until (D : (op : I.Op) → Except ε (I.Res op) → Prop)
    (post : Except ε α → Prop) : Prog I A ε α → Prop
  | .pure a => post (.ok a)
  | .throw e => post (.error e)
  | .ask k => ∀ amb, (k amb).Until D post
  | .await op k => ∀ r, D op r ∨ (k r).Until D post

section AtCalls

variable {Q : (op : I.Op) → (Except ε (I.Res op) → Prog I A ε α) → Prop}
  {Q' : (op : I.Op) → (Except ε (I.Res op) → Prog I A ε β) → Prop}

@[simp] theorem atCalls_pure (a : α) :
    (Prog.pure a : Prog I A ε α).AtCalls Q := trivial

theorem AtCalls.bind {p : Prog I A ε α} {f : α → Prog I A ε β}
    (hp : p.AtCalls Q) (hf : ∀ a, (f a).AtCalls Q')
    (hQ : ∀ op k, Q op k → Q' op fun r => k r >>= f) :
    (p >>= f).AtCalls Q' := by
  induction p with
  | pure a => exact hf a
  | throw e => trivial
  | ask k ih => exact fun amb => ih amb (hp amb)
  | await op k ih => exact ⟨hQ op k hp.1, fun r => ih r (hp.2 r)⟩

theorem AtCalls.tryCatch {Q' : (op : I.Op) →
      (Except ε (I.Res op) → Prog I A ε α) → Prop}
    {p : Prog I A ε α} {h : ε → Prog I A ε α}
    (hp : p.AtCalls Q) (hh : ∀ e, (h e).AtCalls Q')
    (hQ : ∀ op k, Q op k → Q' op fun r => (k r).tryCatch h) :
    (p.tryCatch h).AtCalls Q' := by
  induction p with
  | pure a => trivial
  | throw e => exact hh e
  | ask k ih => exact fun amb => ih amb (hp amb)
  | await op k ih => exact ⟨hQ op k hp.1, fun r => ih r (hp.2 r)⟩

theorem AtCalls.tryFinally {Q' : (op : I.Op) →
      (Except ε (I.Res op) → Prog I A ε α) → Prop}
    {Q₁ : (op : I.Op) → (Except ε (I.Res op) → Prog I A ε Unit) → Prop}
    {p : Prog I A ε α} {q : Prog I A ε Unit}
    (hp : p.AtCalls Q) (hq : q.AtCalls Q₁)
    (hQ : ∀ op k, Q op k → Q' op fun r => (k r).tryFinally q)
    (hQ₁ : ∀ op k (f : Unit → Prog I A ε α), Q₁ op k →
      Q' op fun r => k r >>= f) :
    (p.tryFinally q).AtCalls Q' := by
  induction p with
  | pure a => exact hq.bind (fun _ => trivial) fun op k => hQ₁ op k _
  | throw e => exact hq.bind (fun _ => trivial) fun op k => hQ₁ op k _
  | ask k ih => exact fun amb => ih amb (hp amb)
  | await op k ih => exact ⟨hQ op k hp.1, fun r => ih r (hp.2 r)⟩

theorem AtCalls.forEach
    {Q : (op : I.Op) → (Except ε (I.Res op) → Prog I A ε Unit) → Prop}
    {xs : List α} {body : α → Prog I A ε Unit}
    (hbody : ∀ x ∈ xs, (body x).AtCalls Q)
    (hQ : ∀ op k f, Q op k → Q op fun r => k r >>= f) :
    (Prog.forEach xs body).AtCalls Q := by
  induction xs with
  | nil => trivial
  | cons x xs ih =>
      have hrest := ih fun y hy => hbody y (.tail _ hy)
      exact (hbody x (.head _)).bind (fun _ => hrest) fun op k => hQ op k _

theorem AtCalls.resume {p : Prog I A ε α} (hp : p.AtCalls Q) (amb : A) :
    (p.resume amb).AtCalls Q := by
  induction p with
  | pure a => exact hp
  | throw e => exact hp
  | ask k ih => exact ih amb (hp amb)
  | await op k _ => exact hp

end AtCalls

/-! Where only the calls matter, the rules need no side conditions. -/

section Issues

variable {Q : I.Op → Prop}

theorem Issues.mono {Q' : I.Op → Prop} {p : Prog I A ε α} (hp : p.Issues Q)
    (hQ : ∀ op, Q op → Q' op) : p.Issues Q' := by
  induction p with
  | pure a => trivial
  | throw e => trivial
  | ask k ih => exact fun amb => ih amb (hp amb)
  | await op k ih => exact ⟨hQ op hp.1, fun r => ih r (hp.2 r)⟩

/-- What holds of every call holds of those the program makes. -/
theorem issues_any (hQ : ∀ op, Q op) (p : Prog I A ε α) : p.Issues Q := by
  induction p with
  | pure a => trivial
  | throw e => trivial
  | ask k ih => exact ih
  | await op k ih => exact ⟨hQ op, ih⟩

theorem Issues.call {op : I.Op} (h : Q op) :
    (Prog.call op : Prog I A ε (I.Res op)).Issues Q := by
  refine ⟨h, ?_⟩
  intro r
  cases r <;> trivial

theorem Issues.now : (Prog.now : Prog I A ε A).Issues Q :=
  fun _ => trivial

theorem Issues.bind {p : Prog I A ε α} {f : α → Prog I A ε β}
    (hp : p.Issues Q) (hf : ∀ a, (f a).Issues Q) : (p >>= f).Issues Q :=
  AtCalls.bind hp hf fun _ _ h => h

theorem Issues.tryCatch {p : Prog I A ε α} {h : ε → Prog I A ε α}
    (hp : p.Issues Q) (hh : ∀ e, (h e).Issues Q) :
    (p.tryCatch h).Issues Q :=
  AtCalls.tryCatch hp hh fun _ _ h => h

theorem Issues.tryFinally {p : Prog I A ε α} {q : Prog I A ε Unit}
    (hp : p.Issues Q) (hq : q.Issues Q) : (p.tryFinally q).Issues Q :=
  AtCalls.tryFinally hp hq (fun _ _ h => h) fun _ _ _ h => h

theorem Issues.forEach {xs : List α} {body : α → Prog I A ε Unit}
    (hbody : ∀ x ∈ xs, (body x).Issues Q) :
    (Prog.forEach xs body).Issues Q :=
  AtCalls.forEach hbody fun _ _ _ h => h

end Issues

section Until

variable {D : (op : I.Op) → Except ε (I.Res op) → Prop}
  {post : Except ε α → Prop}

theorem Until.bind {post' : Except ε β → Prop} {p : Prog I A ε α}
    {f : α → Prog I A ε β}
    (hp : p.Until D fun r => match r with
      | .ok a => (f a).Until D post'
      | .error e => post' (.error e)) :
    (p >>= f).Until D post' := by
  induction p with
  | pure a => exact hp
  | throw e => exact hp
  | ask k ih => exact fun amb => ih amb (hp amb)
  | await op k ih => exact fun r => (hp r).imp_right (ih r)

/-- When nothing is promised after an exception, only the last part of a
sequence counts. -/
theorem Until.after {post : Except ε β → Prop} (p : Prog I A ε α)
    {f : α → Prog I A ε β} (hpost : ∀ e, post (.error e))
    (hf : ∀ a, (f a).Until D post) : (p >>= f).Until D post := by
  induction p with
  | pure a => exact hf a
  | throw e => exact hpost e
  | ask k ih => exact fun amb => ih amb
  | await op k ih => exact fun r => .inr (ih r)

theorem Until.tryCatch {p : Prog I A ε α} {h : ε → Prog I A ε α}
    (hp : p.Until D fun r => match r with
      | .ok a => post (.ok a)
      | .error e => (h e).Until D post) :
    (p.tryCatch h).Until D post := by
  induction p with
  | pure a => exact hp
  | throw e => exact hp
  | ask k ih => exact fun amb => ih amb (hp amb)
  | await op k ih => exact fun r => (hp r).imp_right (ih r)

theorem Until.mono {post' : Except ε α → Prop} {p : Prog I A ε α}
    (hp : p.Until D post) (hpost : ∀ r, post r → post' r) :
    p.Until D post' := by
  induction p with
  | pure a => exact hpost _ hp
  | throw e => exact hpost _ hp
  | ask k ih => exact fun amb => ih amb (hp amb)
  | await op k ih => exact fun r => (hp r).imp_right (ih r)

theorem Until.resume {p : Prog I A ε α} (hp : p.Until D post) (amb : A) :
    (p.resume amb).Until D post := by
  induction p with
  | pure a => exact hp
  | throw e => exact hp
  | ask k ih => exact ih amb (hp amb)
  | await op k _ => exact hp

end Until

/-- What never ends before it discharges `D` is still bound to do so when
more is to be done afterwards. -/
theorem Until.before_bind {D : (op : I.Op) → Except ε (I.Res op) → Prop}
    {p : Prog I A ε α} (hp : p.Until D fun _ => False)
    (f : α → Prog I A ε β) : (p >>= f).Until D fun _ => False := by
  refine Until.bind (hp.mono ?_)
  intro r hr
  exact hr.elim

theorem Until.before_tryCatch {D : (op : I.Op) → Except ε (I.Res op) → Prop}
    {p : Prog I A ε α} (hp : p.Until D fun _ => False)
    (h : ε → Prog I A ε α) : (p.tryCatch h).Until D fun _ => False := by
  refine Until.tryCatch (hp.mono ?_)
  intro r hr
  exact hr.elim

theorem Until.before_tryFinally
    {D : (op : I.Op) → Except ε (I.Res op) → Prop} {p : Prog I A ε α}
    (hp : p.Until D fun _ => False) (q : Prog I A ε Unit) :
    (p.tryFinally q).Until D fun _ => False := by
  induction p with
  | pure a => exact hp.elim
  | throw e => exact hp.elim
  | ask k ih => exact fun amb => ih amb (hp amb)
  | await op k ih => exact fun r => (hp r).imp_right (ih r)

/-- A program that still has to discharge `D` waits for an answer. -/
theorem Until.running {D : (op : I.Op) → Except ε (I.Res op) → Prop}
    {p : Prog I A ε α} (hp : p.Until D fun _ => False) (amb : A) :
    (p.resume amb).running = true := by
  induction p with
  | pure a => exact hp.elim
  | throw e => exact hp.elim
  | ask k ih => exact ih amb (hp amb)
  | await op k _ => rfl

end Prog

/-- An answer of the log, with what is older. -/
theorem older_of_mem {x : Entry I A ε σ γ} {log : Log I A ε σ γ}
    (hx : x ∈ log) : ∃ older, (x :: older) <:+ log := by
  obtain ⟨newer, older, hlog⟩ := List.append_of_mem hx
  exact ⟨older, newer, hlog.symm⟩

/-- Of two different entries of a log one is the older. -/
theorem older_or_newer {log : Log I A ε σ γ} {x y : Entry I A ε σ γ}
    (hx : x ∈ log) (hy : y ∈ log) :
    x = y ∨ (∃ older, (x :: older) <:+ log ∧ y ∈ older) ∨
      ∃ older, (y :: older) <:+ log ∧ x ∈ older := by
  induction log with
  | nil => exact nomatch hx
  | cons z log ih =>
      have hsuffix : log <:+ z :: log := List.suffix_cons z log
      rcases List.mem_cons.1 hx with hxz | hx'
      · rcases List.mem_cons.1 hy with hyz | hy'
        · exact .inl (hxz.trans hyz.symm)
        · exact .inr (.inl ⟨log, hxz ▸ List.suffix_refl _, hy'⟩)
      · rcases List.mem_cons.1 hy with hyz | hy'
        · exact .inr (.inr ⟨log, hyz ▸ List.suffix_refl _, hx'⟩)
        · rcases ih hx' hy' with heq | ⟨older, h, hmem⟩ | ⟨older, h, hmem⟩
          · exact .inl heq
          · exact .inr (.inl ⟨older, h.trans hsuffix, hmem⟩)
          · exact .inr (.inr ⟨older, h.trans hsuffix, hmem⟩)

/-- `Q` held of every answer, with the log before it. -/
def Throughout (Q : Entry I A ε σ γ → Log I A ε σ γ → Prop) :
    Log I A ε σ γ → Prop
  | [] => True
  | x :: older => Q x older ∧ Throughout Q older

instance decidableThroughout {Q : Entry I A ε σ γ → Log I A ε σ γ → Prop}
    [hQ : ∀ x older, Decidable (Q x older)] :
    (log : Log I A ε σ γ) → Decidable (Throughout Q log)
  | [] => isTrue trivial
  | x :: older =>
      have : Decidable (Throughout Q older) := decidableThroughout older
      inferInstanceAs (Decidable (Q x older ∧ Throughout Q older))

theorem Throughout.suffix {Q : Entry I A ε σ γ → Log I A ε σ γ → Prop}
    {old new : Log I A ε σ γ} (h : Throughout Q new) (hs : old <:+ new) :
    Throughout Q old := by
  induction new with
  | nil =>
      rw [List.suffix_nil.1 hs]
      trivial
  | cons x new ih =>
      rcases List.suffix_cons_iff.1 hs with rfl | hs
      · exact h
      · exact ih h.2 hs

theorem throughout_of_suffix {Q : Entry I A ε σ γ → Log I A ε σ γ → Prop}
    {log : Log I A ε σ γ}
    (h : ∀ x older, (x :: older) <:+ log → Q x older) : Throughout Q log := by
  induction log with
  | nil => trivial
  | cons x older ih =>
      exact ⟨h x older (List.suffix_refl _),
        ih fun y rest hs => h y rest (hs.trans (List.suffix_cons x older))⟩

section Runs

variable {S : System I A ε σ γ α} {P : Policy I A ε σ γ α} {s₀ : σ}
  {c : Config I A ε σ γ α}

/-- What holds at every call of the served programs holds at every call
still to be made. -/
theorem Reachable.atCalls
    {Q : γ → (op : I.Op) → (Except ε (I.Res op) → Prog I A ε α) → Prop}
    (hbody : ∀ request, (S.body request).AtCalls (Q request))
    (h : Reachable S P s₀ c) {t : Nat} {th : Thread I A ε γ α}
    (hth : c.threads[t]? = some th) : th.prog.AtCalls (Q th.request) := by
  apply Reachable.thread_induct (Q := fun th => th.prog.AtCalls (Q th.request))
    ?_ ?_ h hth
  · exact fun _ request amb _ => (hbody request).resume amb
  · exact fun _ _ _ r amb hcall => (hcall.2 r).resume amb

/-- The entry `x` is left by a step out of `b`, which answers a call that
goes on with `k`. -/
structure AnsweredAt (S : System I A ε σ γ α) (P : Policy I A ε σ γ α)
    (b : Config I A ε σ γ α) (x : Entry I A ε σ γ) (fault : Option ε)
    (k : Except ε (I.Res x.op) → Prog I A ε α) : Prop where
  thread : b.threads[x.tid]? = some ⟨x.request, .await x.op k⟩
  guard : S.guard x.request x.amb x.op b.state = true
  allowed : fault.all (P.fault x.op) = true
  eq : x = S.entry x.tid x.request x.amb x.op fault b.state

theorem AnsweredAt.step {b : Config I A ε σ γ α} {x : Entry I A ε σ γ}
    {fault : Option ε} {k : Except ε (I.Res x.op) → Prog I A ε α}
    (h : AnsweredAt S P b x fault k) :
    Step S P b (S.perform b x.tid x.request x.amb x.op k fault) :=
  .perform x.amb fault h.thread h.guard h.allowed

/-! What the answer finds and leaves. -/

theorem AnsweredAt.before_eq {b : Config I A ε σ γ α} {x : Entry I A ε σ γ}
    {fault : Option ε} {k : Except ε (I.Res x.op) → Prog I A ε α}
    (h : AnsweredAt S P b x fault k) : x.before = b.state :=
  congrArg Entry.before h.eq

theorem AnsweredAt.state_eq {b : Config I A ε σ γ α} {x : Entry I A ε σ γ}
    {fault : Option ε} {k : Except ε (I.Res x.op) → Prog I A ε α}
    (h : AnsweredAt S P b x fault k) :
    (S.perform b x.tid x.request x.amb x.op k fault).state = x.after :=
  congrArg Entry.after h.eq.symm

theorem AnsweredAt.log_eq {b : Config I A ε σ γ α} {x : Entry I A ε σ γ}
    {fault : Option ε} {k : Except ε (I.Res x.op) → Prog I A ε α}
    (h : AnsweredAt S P b x fault k) :
    (S.perform b x.tid x.request x.amb x.op k fault).log = x :: b.log :=
  congrArg (· :: b.log) h.eq.symm

/-- A run can be split at every answer: the stretch of the log that ends with
it is an old one, or it was left by a step out of a configuration in between
that had the rest of the stretch as log. -/
theorem Steps.split_at {c₁ : Config I A ε σ γ α} (h : Steps S P c₁ c)
    {x : Entry I A ε σ γ} {older : Log I A ε σ γ}
    (hx : (x :: older) <:+ c.log) :
    (x :: older) <:+ c₁.log ∨ ∃ (b : Config I A ε σ γ α) (fault : Option ε)
      (k : Except ε (I.Res x.op) → Prog I A ε α),
      Steps S P c₁ b ∧ b.log = older ∧ AnsweredAt S P b x fault k ∧
      Steps S P (S.perform b x.tid x.request x.amb x.op k fault) c := by
  induction h with
  | refl => exact .inl hx
  | @tail c c' hc hstep ih =>
      cases hstep with
      | spawn request amb haccept =>
          apply (ih hx).imp_right
          rintro ⟨b, fault, k, hb, hlog, hat, hd⟩
          exact ⟨b, fault, k, hb, hlog, hat, hd.tail (.spawn _ _ haccept)⟩
      | @perform t request op k amb fault hthread hguard hfault =>
          rcases List.suffix_cons_iff.1 hx with heq | hx
          · cases heq
            exact .inr ⟨c, fault, k, hc, rfl, ⟨hthread, hguard, hfault, rfl⟩,
              .refl⟩
          · apply (ih hx).imp_right
            rintro ⟨b, fault', k', hb, hlog, hat, hd⟩
            exact ⟨b, fault', k', hb, hlog, hat,
              hd.tail (.perform amb fault hthread hguard hfault)⟩

theorem Reachable.split_at (h : Reachable S P s₀ c) {x : Entry I A ε σ γ}
    {older : Log I A ε σ γ} (hx : (x :: older) <:+ c.log) :
    ∃ (b : Config I A ε σ γ α) (fault : Option ε)
      (k : Except ε (I.Res x.op) → Prog I A ε α), Reachable S P s₀ b ∧
      b.log = older ∧ AnsweredAt S P b x fault k ∧
      Steps S P (S.perform b x.tid x.request x.amb x.op k fault) c := by
  rcases Steps.split_at h hx with hnil | hstep
  · exact absurd (List.suffix_nil.1 hnil) (List.cons_ne_nil x older)
  · exact hstep

/-- An entry of the log is an old one, or was left by a step out of a
configuration in between, whose log is what the log was before it. -/
theorem Steps.entry_config {c₁ : Config I A ε σ γ α} (h : Steps S P c₁ c)
    {x : Entry I A ε σ γ} (hx : x ∈ c.log) :
    x ∈ c₁.log ∨ ∃ (b : Config I A ε σ γ α) (fault : Option ε)
      (k : Except ε (I.Res x.op) → Prog I A ε α),
      Steps S P c₁ b ∧
      b.threads[x.tid]? = some ⟨x.request, .await x.op k⟩ ∧
      S.guard x.request x.amb x.op b.state = true ∧
      fault.all (P.fault x.op) = true ∧
      x = S.entry x.tid x.request x.amb x.op fault b.state ∧
      (x :: b.log) <:+ c.log := by
  obtain ⟨older, hsuffix⟩ := older_of_mem hx
  rcases Steps.split_at h hsuffix with hold | ⟨b, fault, k, hb, rfl, hat, _⟩
  · exact .inl (hold.subset (.head _))
  · exact .inr ⟨b, fault, k, hb, hat.thread, hat.guard, hat.allowed, hat.eq,
      hsuffix⟩

theorem Reachable.entry_config (h : Reachable S P s₀ c)
    {x : Entry I A ε σ γ} (hx : x ∈ c.log) :
    ∃ (b : Config I A ε σ γ α) (fault : Option ε)
      (k : Except ε (I.Res x.op) → Prog I A ε α),
      Reachable S P s₀ b ∧
      b.threads[x.tid]? = some ⟨x.request, .await x.op k⟩ ∧
      S.guard x.request x.amb x.op b.state = true ∧
      fault.all (P.fault x.op) = true ∧
      x = S.entry x.tid x.request x.amb x.op fault b.state ∧
      (x :: b.log) <:+ c.log := by
  rcases Steps.entry_config h hx with hstart | hstep
  · exact nomatch hstart
  · exact hstep

/-- A thread still waits for the answer it waited for, or there was a
configuration in between that answered it. -/
theorem Steps.answered_or_waiting {c₁ : Config I A ε σ γ α}
    (h : Steps S P c₁ c) {t : Nat} {request : γ} {op : I.Op}
    {k : Except ε (I.Res op) → Prog I A ε α}
    (hth : c₁.threads[t]? = some ⟨request, .await op k⟩) :
    c.threads[t]? = some ⟨request, .await op k⟩ ∨
      ∃ (b : Config I A ε σ γ α) (amb : A) (fault : Option ε),
        Steps S P c₁ b ∧ Step S P b (S.perform b t request amb op k fault) ∧
        Steps S P (S.perform b t request amb op k fault) c := by
  induction h with
  | refl => exact .inl hth
  | @tail b c hb hstep ih =>
      rcases ih with hwaiting | ⟨d, amb, fault, hd, hperform, hrest⟩
      · cases hstep with
        | spawn request' amb _ =>
            exact .inl (System.spawn_thread hwaiting request' amb)
        | @perform u request' op' k' amb fault hthread hguard hfault =>
            by_cases hu : u = t
            · subst hu
              rw [hwaiting] at hthread
              cases hthread
              exact .inr ⟨b, amb, fault, hb,
                .perform amb fault hwaiting hguard hfault, .refl⟩
            · exact .inl (System.perform_thread_ne hwaiting hu ..)
      · exact .inr ⟨d, amb, fault, hd, hperform, hrest.tail hstep⟩

/-- A thread has ended or waits for an answer. -/
theorem Reachable.thread_cases (h : Reachable S P s₀ c) {t : Nat}
    {th : Thread I A ε γ α} (hth : c.threads[t]? = some th) :
    (∃ a, th.prog = .pure a) ∨ (∃ e, th.prog = .throw e) ∨
      ∃ op k, th.prog = .await op k := by
  apply Reachable.thread_induct (Q := fun th => (∃ a, th.prog = .pure a) ∨
    (∃ e, th.prog = .throw e) ∨ ∃ op k, th.prog = .await op k) ?_ ?_ h hth
  · exact fun _ _ amb _ => Prog.resume_cases amb _
  · exact fun _ _ _ _ amb _ => Prog.resume_cases amb _

/-- Some thread of a process that is not idle waits for an answer. -/
theorem Reachable.waiting (h : Reachable S P s₀ c) (hbusy : c.idle = false) :
    ∃ (t : Nat) (request : γ) (op : I.Op)
      (k : Except ε (I.Res op) → Prog I A ε α),
      c.threads[t]? = some ⟨request, .await op k⟩ := by
  obtain ⟨⟨request, prog⟩, hmem, hrunning⟩ := List.all_eq_false.1 hbusy
  obtain ⟨t, hth⟩ := List.getElem?_of_mem hmem
  rcases h.thread_cases hth with ⟨a, rfl⟩ | ⟨e, rfl⟩ | ⟨op, k, rfl⟩
  · exact absurd rfl hrunning
  · exact absurd rfl hrunning
  · exact ⟨t, request, op, k, hth⟩

/-- An answer of the log that is no failure is what the call does. -/
theorem Reachable.entry_exec_of_ok (h : Reachable S P s₀ c)
    {x : Entry I A ε σ γ} (hx : x ∈ c.log) (hok : x.res.isOk = true) :
    x.res = (S.exec x.amb x.op x.before).1 ∧
      x.after = (S.exec x.amb x.op x.before).2 := by
  obtain ⟨b, fault, k, _, _, _, _, heq, _⟩ := h.entry_config hx
  cases fault with
  | some e =>
      rw [heq] at hok
      exact nomatch hok
  | none =>
      rw [heq]
      exact ⟨rfl, rfl⟩

/-- Where no call fails, every entry holds what the call does. -/
theorem Reachable.entry_exec (hP : ∀ op e, P.fault op e = false)
    (h : Reachable S P s₀ c) {x : Entry I A ε σ γ} (hx : x ∈ c.log) :
    x.res = (S.exec x.amb x.op x.before).1 ∧
      x.after = (S.exec x.amb x.op x.before).2 := by
  obtain ⟨b, fault, k, _, _, _, hfault, heq, _⟩ := h.entry_config hx
  rw [heq, Policy.fault_eq_none (hP x.op) hfault]
  exact ⟨rfl, rfl⟩

/-- Every answered call is one the served programs can make. -/
theorem Reachable.issued {Q : γ → I.Op → Prop}
    (hbody : ∀ request, (S.body request).Issues (Q request))
    (h : Reachable S P s₀ c) {x : Entry I A ε σ γ} (hx : x ∈ c.log) :
    Q x.request x.op := by
  obtain ⟨b, _, k, hb, hth, _⟩ := h.entry_config hx
  have hcalls := hb.atCalls (Q := fun request op _ => Q request op) hbody hth
  exact hcalls.1

/-- What every answered call preserves holds in every reachable state. -/
theorem Reachable.state_inv {Inv : σ → Prop} (hinit : Inv s₀)
    (hexec : ∀ request amb op s, S.guard request amb op s = true → Inv s →
      Inv (S.exec amb op s).2)
    (h : Reachable S P s₀ c) : Inv c.state := by
  induction h with
  | refl => exact hinit
  | tail _ hstep ih =>
      cases hstep with
      | spawn request amb _ => exact ih
      | perform amb fault _ hguard _ =>
          cases fault with
          | none => exact hexec _ _ _ _ hguard ih
          | some e => exact ih

end Runs

end Videum.Async
