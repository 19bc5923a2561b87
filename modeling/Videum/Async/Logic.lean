import Videum.Async.Calls

/-!
# A program logic for interleaved programs

`wp` is a weakest precondition for one thread among others.  Whenever the
thread waits for an answer, the other threads may have been answered any
number of times first: the log may have grown by entries of theirs, and the
state may be any state the invariant `Inv` allows for the longer log.  The
thread in turn has to keep `Inv` with each of its own calls.

Because the log records everything, facts a thread has learned are stated
about the log, where later entries of other threads cannot undo them; facts
about what the thread itself has *not* yet done survive because those
entries carry other thread numbers.

## Main results

* `wp_bind`, `wp_tryCatch`, `wp_forEach` — the structural rules.
* `wpLaw_call` — the rule for calls that obey a law.
* `Reachable.safe` — threads proved one by one are safe together.
-/

namespace Videum.Async

variable {I : Iface} {A ε σ γ α β : Type}

/-- The log grew from `old` to `new` while thread `t` did nothing. -/
def Others (t : Nat) (old new : Log I A ε σ γ) : Prop :=
  ∃ newer : Log I A ε σ γ, new = newer ++ old ∧ ∀ x ∈ newer, x.tid ≠ t

namespace Others

variable {t : Nat} {old mid new : Log I A ε σ γ}

theorem refl (t : Nat) (log : Log I A ε σ γ) : Others t log log :=
  ⟨[], rfl, fun _ h => nomatch h⟩

theorem cons (h : Others t old new) {x : Entry I A ε σ γ} (hx : x.tid ≠ t) :
    Others t old (x :: new) := by
  obtain ⟨newer, rfl, hnewer⟩ := h
  refine ⟨x :: newer, rfl, ?_⟩
  intro y hy
  rcases List.mem_cons.1 hy with rfl | hy
  · exact hx
  · exact hnewer y hy

theorem suffix (h : Others t old new) : old <:+ new := by
  obtain ⟨newer, rfl, _⟩ := h
  exact List.suffix_append newer old

theorem mem (h : Others t old new) {x : Entry I A ε σ γ} (hx : x ∈ old) :
    x ∈ new :=
  h.suffix.subset hx

end Others

/-- The answers thread `t` got, newest first. -/
def own (t : Nat) (log : Log I A ε σ γ) : Log I A ε σ γ :=
  log.filter (·.tid == t)

theorem mem_own {t : Nat} {log : Log I A ε σ γ} {x : Entry I A ε σ γ} :
    x ∈ own t log ↔ x ∈ log ∧ x.tid = t := by
  simp only [own, List.mem_filter, beq_iff_eq]

/-- What other threads do leaves the own answers alone. -/
theorem Others.own_eq {t : Nat} {old new : Log I A ε σ γ}
    (h : Others t old new) : own t new = own t old := by
  obtain ⟨newer, rfl, hnewer⟩ := h
  have hnone : own t newer = [] := by
    simp only [own, List.filter_eq_nil_iff, beq_iff_eq]
    exact hnewer
  simp only [own, List.filter_append] at hnone ⊢
  rw [hnone, List.nil_append]

theorem own_cons {t : Nat} {log : Log I A ε σ γ} {x : Entry I A ε σ γ}
    (h : x.tid = t) : own t (x :: log) = x :: own t log := by
  simp only [own, List.filter_cons, h, beq_self_eq_true, if_true]

/-- An answer of the thread is its newest own one. -/
theorem own_entry (S : System I A ε σ γ α) (t : Nat) (request : γ) (amb : A)
    (op : I.Op) (fault : Option ε) (s : σ) (log : Log I A ε σ γ) :
    own t (S.entry t request amb op fault s :: log) =
      S.entry t request amb op fault s :: own t log :=
  own_cons rfl

theorem own_cons_ne {t : Nat} {log : Log I A ε σ γ} {x : Entry I A ε σ γ}
    (h : x.tid ≠ t) : own t (x :: log) = own t log := by
  simp only [own, List.filter_cons, beq_iff_eq, h, if_false]

theorem own_mono {t : Nat} {old new : Log I A ε σ γ} (h : old <:+ new)
    {x : Entry I A ε σ γ} (hx : x ∈ own t old) : x ∈ own t new := by
  rw [mem_own] at hx ⊢
  exact ⟨h.subset hx.1, hx.2⟩

/-- An own answer, with the log before it. -/
theorem of_suffix_own {t : Nat} {log mine : Log I A ε σ γ}
    {x : Entry I A ε σ γ} (h : (x :: mine) <:+ own t log) :
    ∃ older, (x :: older) <:+ log ∧ own t older = mine := by
  induction log with
  | nil => exact absurd (List.suffix_nil.1 h) (List.cons_ne_nil x mine)
  | cons y log ih =>
      by_cases hy : y.tid = t
      · rw [own_cons hy] at h
        rcases List.suffix_cons_iff.1 h with heq | h
        · cases heq
          exact ⟨log, List.suffix_refl _, rfl⟩
        · obtain ⟨older, hs, hmine⟩ := ih h
          exact ⟨older, hs.trans (List.suffix_cons y log), hmine⟩
      · rw [own_cons_ne hy] at h
        obtain ⟨older, hs, hmine⟩ := ih h
        exact ⟨older, hs.trans (List.suffix_cons y log), hmine⟩

/-- The answers given since the last one of thread `t`. -/
def since (t : Nat) (log : Log I A ε σ γ) : Log I A ε σ γ :=
  log.takeWhile fun x => x.tid != t

/-- The newest own answer stands before the answers given since. -/
theorem log_eq_since {t : Nat} {log mine : Log I A ε σ γ}
    {y : Entry I A ε σ γ} (h : own t log = y :: mine) :
    ∃ older, log = since t log ++ y :: older := by
  induction log with
  | nil => exact nomatch h
  | cons x log ih =>
      unfold since
      by_cases hx : x.tid = t
      · rw [own_cons hx] at h
        cases h
        rw [List.takeWhile_cons_of_neg (by rw [bne_iff_ne]; exact fun h => h hx)]
        exact ⟨log, rfl⟩
      · rw [own_cons_ne hx] at h
        obtain ⟨older, hlog⟩ := ih h
        rw [List.takeWhile_cons_of_pos (by rwa [bne_iff_ne])]
        exact ⟨older, congrArg (x :: ·) hlog⟩

/-- What a thread only ever does first it does once. -/
theorem first_unique {log : Log I A ε σ γ} {p : Entry I A ε σ γ → Prop}
    (hfirst : ∀ (x : Entry I A ε σ γ) (older : Log I A ε σ γ),
      (x :: older) <:+ log → p x → own x.tid older = [])
    {x y : Entry I A ε σ γ} (hx : x ∈ log) (hy : y ∈ log)
    (htid : x.tid = y.tid) (hpx : p x) (hpy : p y) : x = y := by
  have hnot : ∀ (a b : Entry I A ε σ γ) (older : Log I A ε σ γ),
      (a :: older) <:+ log → p a → b ∈ older → b.tid ≠ a.tid := by
    intro a b older hs hpa hb hba
    have hmem : b ∈ own a.tid older := mem_own.2 ⟨hb, hba⟩
    rw [hfirst a older hs hpa] at hmem
    exact nomatch hmem
  rcases older_or_newer hx hy with heq | ⟨older, hs, hmem⟩ | ⟨older, hs, hmem⟩
  · exact heq
  · exact absurd htid.symm (hnot x y older hs hpx hmem)
  · exact absurd htid (hnot y x older hs hpy hmem)

/--
Weakest precondition of a program run by thread `t` on behalf of `request`:
started at moment `amb` with log `log`, the thread keeps `Inv` and ends in
`post`, whatever the other threads do meanwhile.
-/
def wp (S : System I A ε σ γ β) (P : Policy I A ε σ γ β)
    (Inv : σ → Log I A ε σ γ → Prop) (t : Nat) (request : γ)
    (post : Except ε α → A → Log I A ε σ γ → Prop) :
    Prog I A ε α → A → Log I A ε σ γ → Prop
  | .pure a, amb, log => post (.ok a) amb log
  | .throw e, amb, log => post (.error e) amb log
  | .ask k, amb, log => wp S P Inv t request post (k amb) amb log
  | .await op k, _, log =>
      ∀ (log' : Log I A ε σ γ) (s : σ) (amb : A) (fault : Option ε),
        Others t log log' → Inv s log' → S.guard request amb op s = true →
        fault.all (P.fault op) = true →
          Inv (S.answer amb op fault s).2
            (S.entry t request amb op fault s :: log') ∧
          wp S P Inv t request post (k (S.answer amb op fault s).1) amb
            (S.entry t request amb op fault s :: log')

section Rules

variable {S : System I A ε σ γ β} {P : Policy I A ε σ γ β}
  {Inv : σ → Log I A ε σ γ → Prop} {t : Nat} {request : γ}

theorem wp_mono {post post' : Except ε α → A → Log I A ε σ γ → Prop}
    (hpost : ∀ r amb log, post r amb log → post' r amb log)
    {p : Prog I A ε α} {amb : A} {log : Log I A ε σ γ}
    (h : wp S P Inv t request post p amb log) :
    wp S P Inv t request post' p amb log := by
  induction p generalizing amb log with
  | pure a => exact hpost _ _ _ h
  | throw e => exact hpost _ _ _ h
  | ask k ih => exact ih amb h
  | await op k ih =>
      intro log' s amb' fault hothers hinv hguard hfault
      obtain ⟨hinv', hrest⟩ := h log' s amb' fault hothers hinv hguard hfault
      exact ⟨hinv', ih _ hrest⟩

/-- A sequence is verified by verifying its first part up to the
precondition of the second. -/
theorem wp_bind {δ : Type} {post : Except ε δ → A → Log I A ε σ γ → Prop}
    {p : Prog I A ε α} {f : α → Prog I A ε δ} {amb : A}
    {log : Log I A ε σ γ}
    (h : wp S P Inv t request
      (fun r amb log => match r with
        | .ok a => wp S P Inv t request post (f a) amb log
        | .error e => post (.error e) amb log) p amb log) :
    wp S P Inv t request post (p >>= f) amb log := by
  induction p generalizing amb log with
  | pure a => exact h
  | throw e => exact h
  | ask k ih => exact ih amb h
  | await op k ih =>
      intro log' s amb' fault hothers hinv hguard hfault
      obtain ⟨hinv', hrest⟩ := h log' s amb' fault hothers hinv hguard hfault
      exact ⟨hinv', ih _ hrest⟩

/-- The rule for a program whose value is only wrapped up afterwards. -/
theorem wp_map {δ : Type} {post : Except ε α → A → Log I A ε σ γ → Prop}
    {post' : Except ε δ → A → Log I A ε σ γ → Prop} {p : Prog I A ε α}
    {g : α → δ} {amb : A} {log : Log I A ε σ γ}
    (h : wp S P Inv t request post p amb log)
    (hok : ∀ a amb log, post (.ok a) amb log → post' (.ok (g a)) amb log)
    (herror : ∀ e amb log, post (.error e) amb log →
      post' (.error e) amb log) :
    wp S P Inv t request post' (p >>= fun a => .pure (g a)) amb log := by
  apply wp_bind
  apply wp_mono ?_ h
  intro r amb' log' hr
  cases r with
  | ok a => exact hok a amb' log' hr
  | error e => exact herror e amb' log' hr

theorem wp_tryCatch {post : Except ε α → A → Log I A ε σ γ → Prop}
    {p : Prog I A ε α} {h : ε → Prog I A ε α} {amb : A}
    {log : Log I A ε σ γ}
    (hp : wp S P Inv t request
      (fun r amb log => match r with
        | .ok a => post (.ok a) amb log
        | .error e => wp S P Inv t request post (h e) amb log) p amb log) :
    wp S P Inv t request post (p.tryCatch h) amb log := by
  induction p generalizing amb log with
  | pure a => exact hp
  | throw e => exact hp
  | ask k ih => exact ih amb hp
  | await op k ih =>
      intro log' s amb' fault hothers hinv hguard hfault
      obtain ⟨hinv', hrest⟩ := hp log' s amb' fault hothers hinv hguard hfault
      exact ⟨hinv', ih _ hrest⟩

theorem wp_tryFinally {post : Except ε α → A → Log I A ε σ γ → Prop}
    {p : Prog I A ε α} {q : Prog I A ε Unit} {amb : A}
    {log : Log I A ε σ γ}
    (hp : wp S P Inv t request
      (fun r amb log => wp S P Inv t request
        (fun r' amb log => match r' with
          | .ok _ => post r amb log
          | .error e => post (.error e) amb log) q amb log) p amb log) :
    wp S P Inv t request post (p.tryFinally q) amb log := by
  induction p generalizing amb log with
  | pure a =>
      apply wp_bind
      apply wp_mono (p := q) ?_ hp
      intro r' amb' log' h
      cases r' <;> exact h
  | throw e =>
      apply wp_bind
      apply wp_mono (p := q) ?_ hp
      intro r' amb' log' h
      cases r' <;> exact h
  | ask k ih => exact ih amb hp
  | await op k ih =>
      intro log' s amb' fault hothers hinv hguard hfault
      obtain ⟨hinv', hrest⟩ := hp log' s amb' fault hothers hinv hguard hfault
      exact ⟨hinv', ih _ hrest⟩

/-- The log only grows while the program runs. -/
theorem wp_suffix {post : Except ε α → A → Log I A ε σ γ → Prop}
    {p : Prog I A ε α} {amb : A} {log : Log I A ε σ γ}
    (h : wp S P Inv t request post p amb log) :
    wp S P Inv t request
      (fun r amb log' => post r amb log' ∧ log <:+ log') p amb log := by
  induction p generalizing amb log with
  | pure a => exact ⟨h, List.suffix_refl _⟩
  | throw e => exact ⟨h, List.suffix_refl _⟩
  | ask k ih => exact ih amb h
  | await op k ih =>
      intro log' s amb' fault hothers hinv hguard hfault
      obtain ⟨hinv', hrest⟩ := h log' s amb' fault hothers hinv hguard hfault
      refine ⟨hinv', wp_mono ?_ (ih _ hrest)⟩
      rintro r amb'' log'' ⟨hpost, hsuffix⟩
      exact ⟨hpost, hothers.suffix.trans
        ((List.suffix_cons _ _).trans hsuffix)⟩

/-- The rule for loops whose bodies need nothing but an older log. -/
theorem wp_forEach {post : Except ε Unit → A → Log I A ε σ γ → Prop}
    {xs : List α} {body : α → Prog I A ε Unit} {amb : A}
    {log : Log I A ε σ γ} (herror : ∀ e amb log', post (.error e) amb log')
    (hdone : ∀ amb log', log <:+ log' → post (.ok ()) amb log')
    (hbody : ∀ x ∈ xs, ∀ amb log', log <:+ log' →
      wp S P Inv t request (fun _ _ _ => True) (body x) amb log') :
    wp S P Inv t request post (Prog.forEach xs body) amb log := by
  induction xs generalizing amb log with
  | nil => exact hdone amb log (List.suffix_refl _)
  | cons x xs ih =>
      apply wp_bind
      apply wp_mono ?_ (wp_suffix (hbody x (.head _) amb log
        (List.suffix_refl _)))
      rintro r amb' log' ⟨_, hsuffix⟩
      cases r with
      | error e => exact herror e amb' log'
      | ok v =>
          apply ih
          · exact fun amb'' log'' h => hdone amb'' log'' (hsuffix.trans h)
          · intro y hy amb'' log'' h
            exact hbody y (.tail _ hy) amb'' log'' (hsuffix.trans h)

/-- Starting a segment does not change what has to be proved about it. -/
theorem wp_resume {post : Except ε α → A → Log I A ε σ γ → Prop}
    {p : Prog I A ε α} {amb : A} {log : Log I A ε σ γ}
    (h : wp S P Inv t request post p amb log) :
    wp S P Inv t request post (p.resume amb) amb log := by
  induction p generalizing log with
  | pure a => exact h
  | throw e => exact h
  | ask k ih => exact ih amb h
  | await op k _ => exact h

end Rules

/-! ## Laws about calls

A law `G` judges a call by the log before it.  Where every call that obeys
`G` keeps an invariant, a program is verified by checking its calls one by
one, and the log may be read back under the law afterwards. -/

/-- Every answered call obeyed `G` when it was made. -/
def Obeyed (G : Log I A ε σ γ → Nat → γ → I.Op → Prop)
    (log : Log I A ε σ γ) : Prop :=
  ∀ (x : Entry I A ε σ γ) (older : Log I A ε σ γ),
    (x :: older) <:+ log → G older x.tid x.request x.op

/-- Each answered call obeyed the law, at the log it was made with. -/
theorem Obeyed.at_mem {G : Log I A ε σ γ → Nat → γ → I.Op → Prop}
    {log : Log I A ε σ γ} (h : Obeyed G log) {x : Entry I A ε σ γ}
    (hx : x ∈ log) :
    ∃ older, (x :: older) <:+ log ∧ G older x.tid x.request x.op := by
  obtain ⟨older, hsuffix⟩ := older_of_mem hx
  exact ⟨older, hsuffix, h x older hsuffix⟩

/-- The newest call obeyed the law at the log before it. -/
theorem Obeyed.newest {G : Log I A ε σ γ → Nat → γ → I.Op → Prop}
    {old new : Log I A ε σ γ} (h : Obeyed G new) {x : Entry I A ε σ γ}
    (hnew : new = x :: old) : G old x.tid x.request x.op :=
  h x old ⟨[], hnew.symm⟩

theorem Obeyed.nil (G : Log I A ε σ γ → Nat → γ → I.Op → Prop) :
    Obeyed G [] := by
  intro x older h
  exact absurd (List.suffix_nil.1 h) (List.cons_ne_nil x older)

theorem Obeyed.cons {G : Log I A ε σ γ → Nat → γ → I.Op → Prop}
    {log : Log I A ε σ γ} (h : Obeyed G log) {x : Entry I A ε σ γ}
    (hx : G log x.tid x.request x.op) : Obeyed G (x :: log) := by
  intro y older hy
  rcases List.suffix_cons_iff.1 hy with heq | hy
  · cases heq
    exact hx
  · exact h y older hy

/-- `Q` holds of every answer, with the answers before it. -/
def AtEach (Q : Log I A ε σ γ → Entry I A ε σ γ → Prop)
    (log : Log I A ε σ γ) : Prop :=
  ∀ (x : Entry I A ε σ γ) (older : Log I A ε σ γ),
    (x :: older) <:+ log → Q older x

theorem atEach_nil (Q : Log I A ε σ γ → Entry I A ε σ γ → Prop) :
    AtEach Q [] := by
  intro x older h
  exact absurd (List.suffix_nil.1 h) (List.cons_ne_nil x older)

theorem atEach_cons {Q : Log I A ε σ γ → Entry I A ε σ γ → Prop}
    {x : Entry I A ε σ γ} {log : Log I A ε σ γ} :
    AtEach Q (x :: log) ↔ Q log x ∧ AtEach Q log := by
  constructor
  · intro h
    exact ⟨h x log (List.suffix_refl _),
      fun y older hy => h y older (hy.trans (List.suffix_cons x log))⟩
  · rintro ⟨hx, hlog⟩ y older hy
    rcases List.suffix_cons_iff.1 hy with heq | hy
    · cases heq
      exact hx
    · exact hlog y older hy

instance decidableAtEach {Q : Log I A ε σ γ → Entry I A ε σ γ → Prop}
    [∀ older x, Decidable (Q older x)] :
    (log : Log I A ε σ γ) → Decidable (AtEach Q log)
  | [] => isTrue (atEach_nil Q)
  | x :: log =>
      have := decidableAtEach (Q := Q) log
      decidable_of_iff (Q log x ∧ AtEach Q log) atEach_cons.symm

/-- Calls that obey `G` keep `Inv`. -/
def KeptBy (S : System I A ε σ γ β) (P : Policy I A ε σ γ β)
    (Inv : σ → Log I A ε σ γ → Prop)
    (G : Log I A ε σ γ → Nat → γ → I.Op → Prop) : Prop :=
  ∀ (t : Nat) (request : γ) (amb : A) (op : I.Op) (fault : Option ε) (s : σ)
    (log : Log I A ε σ γ), Inv s log → G log t request op →
      S.guard request amb op s = true → fault.all (P.fault op) = true →
        Inv (S.answer amb op fault s).2
          (S.entry t request amb op fault s :: log)

/-- The invariant holds and the law was obeyed. -/
def Lawful (Inv : σ → Log I A ε σ γ → Prop)
    (G : Log I A ε σ γ → Nat → γ → I.Op → Prop) (s : σ)
    (log : Log I A ε σ γ) : Prop :=
  Inv s log ∧ Obeyed G log

/-- Weakest precondition of a program all of whose calls obey `G`. -/
abbrev wpLaw (S : System I A ε σ γ β) (P : Policy I A ε σ γ β)
    (Inv : σ → Log I A ε σ γ → Prop)
    (G : Log I A ε σ γ → Nat → γ → I.Op → Prop) (t : Nat) (request : γ)
    (post : Except ε α → A → Log I A ε σ γ → Prop) (p : Prog I A ε α)
    (amb : A) (log : Log I A ε σ γ) : Prop :=
  wp S P (Lawful Inv G) t request post p amb log

section Laws

variable {S : System I A ε σ γ β} {P : Policy I A ε σ γ β}
  {Inv : σ → Log I A ε σ γ → Prop}
  {G : Log I A ε σ γ → Nat → γ → I.Op → Prop} {t : Nat} {request : γ}

/-- The rule for an awaited call: it obeys the law, and the rest of the
program is verified for each answer. -/
theorem wpLaw_await (hkept : KeptBy S P Inv G)
    {post : Except ε α → A → Log I A ε σ γ → Prop} {op : I.Op}
    {k : Except ε (I.Res op) → Prog I A ε α} {amb₀ : A}
    {log : Log I A ε σ γ}
    (hlaw : ∀ log', Others t log log' → G log' t request op)
    (hk : ∀ (log' : Log I A ε σ γ) (s : σ) (amb : A) (fault : Option ε),
      Others t log log' → Inv s log' → S.guard request amb op s = true →
      fault.all (P.fault op) = true →
        wpLaw S P Inv G t request post (k (S.answer amb op fault s).1) amb
          (S.entry t request amb op fault s :: log')) :
    wpLaw S P Inv G t request post (.await op k) amb₀ log := by
  rintro log' s amb fault hothers ⟨hinv, hobeyed⟩ hguard hfault
  have hG := hlaw log' hothers
  refine ⟨⟨?_, ?_⟩, hk log' s amb fault hothers hinv hguard hfault⟩
  · exact hkept t request amb op fault s log' hinv hG hguard hfault
  · exact hobeyed.cons hG

/-- The rule for an awaited call whose failure ends the program. -/
theorem wpLaw_step (hkept : KeptBy S P Inv G)
    {post : Except ε α → A → Log I A ε σ γ → Prop} {op : I.Op}
    {f : I.Res op → Prog I A ε α} {amb₀ : A} {log : Log I A ε σ γ}
    (hlaw : ∀ log', Others t log log' → G log' t request op)
    (herror : ∀ (log' : Log I A ε σ γ) (s : σ) (amb : A) (fault : Option ε)
      (e : ε), Others t log log' → (S.answer amb op fault s).1 = .error e →
        post (.error e) amb (S.entry t request amb op fault s :: log'))
    (hok : ∀ (log' : Log I A ε σ γ) (s : σ) (amb : A) (fault : Option ε)
      (v : I.Res op), Others t log log' → Inv s log' →
      S.guard request amb op s = true → (S.answer amb op fault s).1 = .ok v →
        wpLaw S P Inv G t request post (f v) amb
          (S.entry t request amb op fault s :: log')) :
    wpLaw S P Inv G t request post (Prog.call op >>= f) amb₀ log := by
  apply wpLaw_await hkept hlaw
  intro log' s amb fault hothers hinv hguard _
  cases hanswer : (S.answer amb op fault s).1 with
  | error e => exact herror log' s amb fault e hothers hanswer
  | ok v => exact hok log' s amb fault v hothers hinv hguard hanswer

/-- The same rule where nothing is promised after a failure. -/
theorem wpLaw_call (hkept : KeptBy S P Inv G)
    {post : Except ε α → A → Log I A ε σ γ → Prop} {op : I.Op}
    {f : I.Res op → Prog I A ε α} {amb₀ : A} {log : Log I A ε σ γ}
    (herror : ∀ e amb log', post (.error e) amb log')
    (hlaw : ∀ log', Others t log log' → G log' t request op)
    (hf : ∀ (log' : Log I A ε σ γ) (s : σ) (amb : A) (v : I.Res op),
      Others t log log' → Inv s log' → S.guard request amb op s = true →
      (S.exec amb op s).1 = .ok v →
        wpLaw S P Inv G t request post (f v) amb
          (S.entry t request amb op none s :: log')) :
    wpLaw S P Inv G t request post (Prog.call op >>= f) amb₀ log := by
  apply wpLaw_step hkept hlaw
  · exact fun _ _ amb _ e _ _ => herror e amb _
  · intro log' s amb fault v hothers hinv hguard hanswer
    cases fault with
    | some e => exact nomatch hanswer
    | none => exact hf log' s amb v hothers hinv hguard hanswer

/-- The rule for two calls one after the other, the second whatever became
of the first. -/
theorem wpLaw_settle (hkept : KeptBy S P Inv G)
    {post : Except ε Unit → A → Log I A ε σ γ → Prop} {first second : I.Op}
    {amb₀ : A} {log : Log I A ε σ γ}
    (hfirst : ∀ log', Others t log log' → G log' t request first)
    (hsecond : ∀ (log' log'' : Log I A ε σ γ) (s : σ) (amb : A)
      (fault : Option ε), Others t log log' →
      Others t (S.entry t request amb first fault s :: log') log'' →
        G log'' t request second)
    (hpost : ∀ (log' log'' : Log I A ε σ γ) (s s' : σ) (amb amb' : A)
      (fault fault' : Option ε) (r : Except ε Unit), Others t log log' →
      Others t (S.entry t request amb first fault s :: log') log'' →
      (r = .ok () → (S.answer amb first fault s).1.isOk = true ∧
        (S.answer amb' second fault' s').1.isOk = true) →
        post r amb' (S.entry t request amb' second fault' s' :: log'')) :
    wpLaw S P Inv G t request post (Prog.settle first second) amb₀ log := by
  apply wpLaw_await hkept hfirst
  intro log' s amb fault hothers _ _ _
  apply wpLaw_await hkept
  · exact fun log'' hothers' => hsecond log' log'' s amb fault hothers hothers'
  · intro log'' s' amb' fault' hothers' _ _ _
    have hend := fun r => hpost log' log'' s s' amb amb' fault fault' r
      hothers hothers'
    cases hr₁ : (S.answer amb first fault s).1 with
    | error e => exact hend (.error e) nofun
    | ok v₁ =>
        cases hr₂ : (S.answer amb' second fault' s').1 with
        | error e => exact hend (.error e) nofun
        | ok v₂ =>
            apply hend (.ok ())
            intro _
            rw [hr₁, hr₂]
            exact ⟨rfl, rfl⟩

/-- The two answers of a `Promise.all`, newest first, in either order. -/
def Both (first second : I.Op) (x y : Entry I A ε σ γ) : Prop :=
  x.op = first ∧ y.op = second ∨ x.op = second ∧ y.op = first

/-- The rule for `Promise.all` of two calls, where the law judges a call by
the answers of its own thread. -/
theorem wpLaw_promiseAll (hkept : KeptBy S P Inv G) {swapped : A → Bool}
    {post : Except ε Unit → A → Log I A ε σ γ → Prop} {first second : I.Op}
    {amb₀ : A} {log : Log I A ε σ γ}
    (hlaw : ∀ op, op = first ∨ op = second → ∀ log',
      own t log' = own t log → G log' t request op)
    (hlaw' : ∀ op (x : Entry I A ε σ γ), op = first ∧ x.op = second ∨
      op = second ∧ x.op = first → ∀ log', own t log' = x :: own t log →
        G log' t request op)
    (hpost : ∀ r amb log' (x y : Entry I A ε σ γ),
      own t log' = y :: x :: own t log → Both first second y x →
      (r = .ok () → x.res.isOk = true ∧ y.res.isOk = true) →
        post r amb log') :
    wpLaw S P Inv G t request post
      (Prog.promiseAll swapped first second) amb₀ log := by
  have hown : ∀ {log' log'' : Log I A ε σ γ} {x : Entry I A ε σ γ},
      Others t log log' → x.tid = t → Others t (x :: log') log'' →
        own t log'' = x :: own t log := by
    intro log' log'' x hothers hx hothers'
    rw [hothers'.own_eq, own_cons hx, hothers.own_eq]
  show wpLaw S P Inv G t request post
    (if swapped amb₀ then Prog.settle second first
      else Prog.settle first second) amb₀ log
  split
  · apply wpLaw_settle hkept
    · exact fun log' h => hlaw second (.inr rfl) log' h.own_eq
    · intro log' log'' s amb fault h h'
      exact hlaw' first _ (.inl ⟨rfl, rfl⟩) log'' (hown h rfl h')
    · intro log' log'' s s' amb amb' fault fault' r h h' hok
      apply hpost r amb' _ (S.entry t request amb second fault s)
        (S.entry t request amb' first fault' s') ?_ (.inl ⟨rfl, rfl⟩) hok
      rw [own_cons (by rfl), hown h rfl h']
  · apply wpLaw_settle hkept
    · exact fun log' h => hlaw first (.inl rfl) log' h.own_eq
    · intro log' log'' s amb fault h h'
      exact hlaw' second _ (.inr ⟨rfl, rfl⟩) log'' (hown h rfl h')
    · intro log' log'' s s' amb amb' fault fault' r h h' hok
      apply hpost r amb' _ (S.entry t request amb first fault s)
        (S.entry t request amb' second fault' s') ?_ (.inr ⟨rfl, rfl⟩) hok
      rw [own_cons (by rfl), hown h rfl h']

/-- A program needs no proof when the law permits its calls at any time. -/
theorem wpLaw_of_issues (hkept : KeptBy S P Inv G)
    {post : Except ε α → A → Log I A ε σ γ → Prop}
    (hpost : ∀ r amb log, post r amb log) {p : Prog I A ε α}
    (hp : p.Issues fun op => ∀ log, G log t request op) {amb : A}
    {log : Log I A ε σ γ} : wpLaw S P Inv G t request post p amb log := by
  induction p generalizing amb log with
  | pure a => exact hpost _ _ _
  | throw e => exact hpost _ _ _
  | ask k ih => exact ih amb (hp amb)
  | await op k ih =>
      apply wpLaw_await hkept
      · exact fun log' _ => hp.1 log'
      · intro log' s amb fault _ _ _ _
        exact ih _ (hp.2 _)

/-- A program keeps what each of its calls keeps of its own answers. -/
theorem wpLaw_own (hkept : KeptBy S P Inv G) {J : Log I A ε σ γ → Prop}
    {p : Prog I A ε α}
    (hp : p.Issues fun op => (∀ log, G log t request op) ∧
      ∀ (x : Entry I A ε σ γ) (mine : Log I A ε σ γ), x.op = op →
        J mine → J (x :: mine))
    {amb : A} {log : Log I A ε σ γ} (hJ : J (own t log)) :
    wpLaw S P Inv G t request (fun _ _ log => J (own t log)) p amb log := by
  induction p generalizing amb log with
  | pure a => exact hJ
  | throw e => exact hJ
  | ask k ih => exact ih amb (hp amb) hJ
  | await op k ih =>
      obtain ⟨⟨hlaw, hkeeps⟩, hrest⟩ := hp
      apply wpLaw_await hkept
      · exact fun log' _ => hlaw log'
      · intro log' s amb fault hothers _ _ _
        apply ih _ (hrest _)
        rw [own_entry, hothers.own_eq]
        exact hkeeps _ _ rfl hJ

end Laws

/-- What is known about thread `t` when the log is `log`: its own last step
left a log `mine` from which the rest of its program is safe. -/
def ThreadSafe (S : System I A ε σ γ α) (P : Policy I A ε σ γ α)
    (Inv : σ → Log I A ε σ γ → Prop)
    (post : Nat → γ → Except ε α → A → Log I A ε σ γ → Prop) (t : Nat)
    (th : Thread I A ε γ α) (log : Log I A ε σ γ) : Prop :=
  ∃ (amb : A) (mine : Log I A ε σ γ), Others t mine log ∧
    wp S P Inv t th.request (post t th.request) th.prog amb mine

/-- The log belongs to the threads: every entry names a thread of the
configuration and that thread's request. -/
def LogOwned (c : Config I A ε σ γ α) : Prop :=
  ∀ x ∈ c.log, ∃ th, c.threads[x.tid]? = some th ∧ th.request = x.request

section Rule

variable {S : System I A ε σ γ α} {P : Policy I A ε σ γ α} {s₀ : σ}

theorem LogOwned.spawn {c : Config I A ε σ γ α} (h : LogOwned c)
    (request : γ) (amb : A) : LogOwned (S.spawn c request amb) := by
  intro x hx
  obtain ⟨th, hth, hreq⟩ := h x hx
  exact ⟨th, System.spawn_thread hth request amb, hreq⟩

theorem LogOwned.perform {c : Config I A ε σ γ α} (h : LogOwned c) {t : Nat}
    {request : γ} {op : I.Op} {k : Except ε (I.Res op) → Prog I A ε α}
    (amb : A) (fault : Option ε)
    (hthread : c.threads[t]? = some ⟨request, .await op k⟩) :
    LogOwned (S.perform c t request amb op k fault) := by
  intro x hx
  rcases List.mem_cons.1 hx with rfl | hx
  · exact ⟨_, System.perform_thread_self hthread amb fault, rfl⟩
  · obtain ⟨th, hth, hreq⟩ := h x hx
    by_cases ht : t = x.tid
    · subst ht
      rw [hth] at hthread
      cases hthread
      exact ⟨_, System.perform_thread_self hth amb fault, hreq⟩
    · exact ⟨th, System.perform_thread_ne hth ht .., hreq⟩

theorem Reachable.logOwned {c : Config I A ε σ γ α}
    (h : Reachable S P s₀ c) : LogOwned c := by
  refine h.induct (fun x hx => nomatch hx) ?_
  intro c c' _ hc hstep
  cases hstep with
  | spawn request amb _ => exact hc.spawn request amb
  | perform amb fault hthread _ _ => exact hc.perform amb fault hthread

/-- Entries of a thread that has not arrived yet do not exist. -/
theorem LogOwned.tid_lt {c : Config I A ε σ γ α} (h : LogOwned c)
    {x : Entry I A ε σ γ} (hx : x ∈ c.log) : x.tid < c.threads.length := by
  obtain ⟨th, hth, _⟩ := h x hx
  exact (List.getElem?_eq_some_iff.1 hth).1

/-- A thread that has not arrived yet has no answers. -/
theorem Reachable.own_arriving {c : Config I A ε σ γ α}
    (h : Reachable S P s₀ c) : own c.threads.length c.log = [] := by
  simp only [own, List.filter_eq_nil_iff, beq_iff_eq]
  intro x hx htid
  have hlt := h.logOwned.tid_lt hx
  omega

/-- An entry names the request its thread serves. -/
theorem LogOwned.request_of_thread {c : Config I A ε σ γ α} (h : LogOwned c)
    {x : Entry I A ε σ γ} (hx : x ∈ c.log) {th : Thread I A ε γ α}
    (hth : c.threads[x.tid]? = some th) : x.request = th.request := by
  obtain ⟨th', hth', hrequest⟩ := h x hx
  rw [hth] at hth'
  cases hth'
  exact hrequest.symm

/-- The entries of one thread name one request. -/
theorem LogOwned.request_eq {c : Config I A ε σ γ α} (h : LogOwned c)
    {x y : Entry I A ε σ γ} (hx : x ∈ c.log) (hy : y ∈ c.log)
    (htid : x.tid = y.tid) : x.request = y.request := by
  obtain ⟨th, hth, hrequest⟩ := h x hx
  rw [htid] at hth
  rw [h.request_of_thread hy hth, hrequest]

/-- The answers a thread had before name the request it serves. -/
theorem LogOwned.request_older {c : Config I A ε σ γ α} (h : LogOwned c)
    {x : Entry I A ε σ γ} {older : Log I A ε σ γ}
    (hs : (x :: older) <:+ c.log) :
    ∀ y ∈ own x.tid older, y.request = x.request := by
  intro y hy
  obtain ⟨hmem, htid⟩ := mem_own.1 hy
  exact h.request_eq (hs.subset (.tail _ hmem)) (hs.subset (.head _)) htid

/-- A run can be split at every answer of a thread that had none before. -/
theorem Steps.split_own {c c' : Config I A ε σ γ α} (h : Steps S P c c')
    {t : Nat} (hsilent : own t c.log = []) {x : Entry I A ε σ γ}
    {mine : Log I A ε σ γ} (hmine : (x :: mine) <:+ own t c'.log) :
    ∃ (b : Config I A ε σ γ α) (fault : Option ε)
      (k : Except ε (I.Res x.op) → Prog I A ε α), Steps S P c b ∧
      own t b.log = mine ∧ AnsweredAt S P b x fault k ∧
      Steps S P (S.perform b x.tid x.request x.amb x.op k fault) c' := by
  obtain ⟨older, hsuffix, hown⟩ := of_suffix_own hmine
  have htid : x.tid = t := (mem_own.1 (hmine.subset (.head _))).2
  rcases Steps.split_at h hsuffix with hold | ⟨b, fault, k, hb, hlog, hat, hc'⟩
  · have hx : x ∈ own t c.log := mem_own.2 ⟨hold.subset (.head _), htid⟩
    rw [hsilent] at hx
    exact nomatch hx
  · exact ⟨b, fault, k, hb, by rw [hlog, hown], hat, hc'⟩

/--
**Threads proved one by one are safe together.**  If `Inv` holds initially
and every accepted request starts a program whose `wp` holds at that point,
then `Inv` holds in every reachable configuration, and every thread is where
its proof says it is.
-/
theorem Reachable.safe {Inv : σ → Log I A ε σ γ → Prop}
    {post : Nat → γ → Except ε α → A → Log I A ε σ γ → Prop}
    (hinit : Inv s₀ [])
    (hspawn : ∀ (c : Config I A ε σ γ α) (request : γ) (amb : A),
      Reachable S P s₀ c → Inv c.state c.log →
      (∀ t th, c.threads[t]? = some th →
        ThreadSafe S P Inv post t th c.log) →
      P.accepts c request →
      wp S P Inv c.threads.length request (post c.threads.length request)
        (S.body request) amb c.log)
    {c : Config I A ε σ γ α} (h : Reachable S P s₀ c) :
    Inv c.state c.log ∧ ∀ t th, c.threads[t]? = some th →
      ThreadSafe S P Inv post t th c.log := by
  induction h with
  | refl => exact ⟨hinit, fun t th ht => nomatch ht⟩
  | @tail c c' hc hstep ih =>
      obtain ⟨hI, hT⟩ := ih
      cases hstep with
      | spawn request amb haccept =>
          refine ⟨hI, ?_⟩
          intro t th ht
          rcases System.thread_of_spawn ht with ht | ⟨rfl, rfl⟩
          · exact hT t th ht
          · exact ⟨amb, c.log, .refl _ _,
              wp_resume (hspawn c request amb hc hI hT haccept)⟩
      | @perform t request op k amb fault hthread hguard hfault =>
          obtain ⟨amb₀, mine, hothers, hwp⟩ := hT t _ hthread
          obtain ⟨hI', hwp'⟩ :=
            hwp c.log c.state amb fault hothers hI hguard hfault
          refine ⟨hI', ?_⟩
          intro u th hu
          rcases System.thread_of_perform hthread hu with
            ⟨hut, hu⟩ | ⟨rfl, rfl⟩
          · obtain ⟨amb₁, mine₁, hothers₁, hwp₁⟩ := hT u th hu
            exact ⟨amb₁, mine₁, hothers₁.cons hut, hwp₁⟩
          · exact ⟨amb, _, .refl _ _, wp_resume hwp'⟩

/-- What every answer keeps holds in every reachable configuration. -/
theorem Reachable.answers (Inv : σ → Log I A ε σ γ → Prop)
    (hinit : Inv s₀ [])
    (hanswer : ∀ (b b' : Config I A ε σ γ α) (t : Nat) (request : γ) (amb : A)
      (op : I.Op) (fault : Option ε), Reachable S P s₀ b →
      Reachable S P s₀ b' → Inv b.state b.log →
      S.guard request amb op b.state = true →
      b'.log = S.entry t request amb op fault b.state :: b.log →
        Inv (S.answer amb op fault b.state).2 b'.log)
    {c : Config I A ε σ γ α} (h : Reachable S P s₀ c) :
    Inv c.state c.log := by
  induction h with
  | refl => exact hinit
  | @tail b b' hb hstep ih =>
      have hb' : Reachable S P s₀ b' := Relation.ReflTransGen.tail hb hstep
      cases hstep with
      | spawn request amb _ => exact ih
      | @perform t request op k amb fault hthread hguard hfault =>
          exact hanswer b _ t request amb op fault hb hb' ih hguard rfl

/-- Where every program obeys the law, so does every log; the invariant
holds, and every thread is where its proof says it is. -/
theorem Reachable.lawful_threads {Inv : σ → Log I A ε σ γ → Prop}
    {G : Log I A ε σ γ → Nat → γ → I.Op → Prop}
    {post : Nat → γ → Except ε α → A → Log I A ε σ γ → Prop}
    (hinit : Inv s₀ [])
    (hbody : ∀ (c : Config I A ε σ γ α) (request : γ) (amb : A),
      Reachable S P s₀ c → Inv c.state c.log → P.accepts c request →
      wpLaw S P Inv G c.threads.length request
        (post c.threads.length request) (S.body request) amb c.log)
    {c : Config I A ε σ γ α} (h : Reachable S P s₀ c) :
    Lawful Inv G c.state c.log ∧ ∀ t th, c.threads[t]? = some th →
      ThreadSafe S P (Lawful Inv G) post t th c.log := by
  have hstart : Lawful Inv G s₀ [] := ⟨hinit, Obeyed.nil G⟩
  apply h.safe hstart
  intro c request amb hc hinv _ haccept
  exact hbody c request amb hc hinv.1 haccept

theorem Reachable.lawful {Inv : σ → Log I A ε σ γ → Prop}
    {G : Log I A ε σ γ → Nat → γ → I.Op → Prop} (hinit : Inv s₀ [])
    (hbody : ∀ (c : Config I A ε σ γ α) (request : γ) (amb : A),
      Reachable S P s₀ c → Inv c.state c.log → P.accepts c request →
      wpLaw S P Inv G c.threads.length request (fun _ _ _ => True)
        (S.body request) amb c.log)
    {c : Config I A ε σ γ α} (h : Reachable S P s₀ c) :
    Inv c.state c.log ∧ Obeyed G c.log := by
  have hthreads : Lawful Inv G c.state c.log ∧ ∀ t th,
      c.threads[t]? = some th →
        ThreadSafe S P (Lawful Inv G) (fun _ _ _ _ _ => True) t th c.log :=
    h.lawful_threads hinit hbody
  exact hthreads.1

/-- The proof of a thread that has returned holds of the log it left. -/
theorem ThreadSafe.returned {Inv : σ → Log I A ε σ γ → Prop}
    {post : Nat → γ → Except ε α → A → Log I A ε σ γ → Prop} {t : Nat}
    {th : Thread I A ε γ α} {log : Log I A ε σ γ}
    (h : ThreadSafe S P Inv post t th log) {a : α} (ha : th.prog = .pure a) :
    ∃ amb mine, Others t mine log ∧ post t th.request (.ok a) amb mine := by
  obtain ⟨amb, mine, hothers, hwp⟩ := h
  rw [ha] at hwp
  exact ⟨amb, mine, hothers, hwp⟩

/-- The proof of a thread that has ended holds of the log it left. -/
theorem Reachable.ended {Inv : σ → Log I A ε σ γ → Prop}
    {post : Nat → γ → Except ε α → A → Log I A ε σ γ → Prop}
    {c : Config I A ε σ γ α} (h : Reachable S P s₀ c) {t : Nat}
    {th : Thread I A ε γ α} (hth : c.threads[t]? = some th)
    (hsafe : ThreadSafe S P Inv post t th c.log)
    (hended : th.prog.running = false) :
    ∃ result amb mine, Others t mine c.log ∧
      post t th.request result amb mine := by
  obtain ⟨amb, mine, hothers, hwp⟩ := hsafe
  rcases h.thread_cases hth with ⟨a, ha⟩ | ⟨e, he⟩ | ⟨op, k, hop⟩
  · rw [ha] at hwp
    exact ⟨.ok a, amb, mine, hothers, hwp⟩
  · rw [he] at hwp
    exact ⟨.error e, amb, mine, hothers, hwp⟩
  · rw [hop] at hended
    exact nomatch hended

end Rule

end Videum.Async
