import Videum.Async.Logic

/-!
# Taking turns on a resource

A program reads a resource, checks what it has read, and stores its decision
later.  Nothing keeps another thread from reading in between.  When nobody
does, and a stored decision is seen by every later reader, the resource has
one reader at most.

## Main results

* `TakeTurns.reader_unique` — two readers of a resource are one thread.
* `filter_length_le_one` — what never happens after itself happens at most
  once.
* `once_directly_after` — nor does what each time directly follows it.
-/

namespace Videum.Async

variable {I : Iface} {A ε σ γ κ : Type}

/-- `x` reads a resource that another thread has read and has still to
store. -/
def Overlaps (reads : Entry I A ε σ γ → Option κ)
    (stores : Entry I A ε σ γ → Bool) (x : Entry I A ε σ γ)
    (older : Log I A ε σ γ) : Prop :=
  ∃ k ∈ reads x, ∃ y ∈ older, reads y = some k ∧
    ∀ z ∈ own y.tid older, stores z = false

instance [DecidableEq κ] (reads : Entry I A ε σ γ → Option κ)
    (stores : Entry I A ε σ γ → Bool) (x : Entry I A ε σ γ)
    (older : Log I A ε σ γ) : Decidable (Overlaps reads stores x older) :=
  inferInstanceAs (Decidable (∃ k ∈ reads x, ∃ y ∈ older,
    reads y = some k ∧ ∀ z ∈ own y.tid older, stores z = false))

/-- Nobody reads a resource before its earlier readers have stored it. -/
abbrev TakeTurns (reads : Entry I A ε σ γ → Option κ)
    (stores : Entry I A ε σ γ → Bool) (log : Log I A ε σ γ) : Prop :=
  Throughout (fun x older => ¬ Overlaps reads stores x older) log

section Turns

variable {reads : Entry I A ε σ γ → Option κ}
  {stores : Entry I A ε σ γ → Bool} {log : Log I A ε σ γ}

/-- Whoever reads a resource has it to itself: the resource was not stored
by an earlier reader, so there is none. -/
theorem TakeTurns.first_reader (hturns : TakeTurns reads stores log)
    {x y : Entry I A ε σ γ} {older : Log I A ε σ γ} {k : κ}
    (hx : (x :: older) <:+ log) (hreads : reads x = some k) (hy : y ∈ older)
    (hclosed : ∀ z ∈ own y.tid older, stores z = false) :
    reads y ≠ some k := by
  intro hy'
  apply (hturns.suffix hx).1
  exact ⟨k, hreads, y, hy, hy', hclosed⟩

/-- Two readers of a resource are one thread, when neither reads it once the
other has stored it. -/
theorem TakeTurns.reader_unique (hturns : TakeTurns reads stores log) {k : κ}
    {x y : Entry I A ε σ γ}
    (hxy : ∀ older, (x :: older) <:+ log → y ∈ older →
      ∀ z ∈ own y.tid older, stores z = false)
    (hyx : ∀ older, (y :: older) <:+ log → x ∈ older →
      ∀ z ∈ own x.tid older, stores z = false)
    (hx : x ∈ log) (hy : y ∈ log) (hreads : reads x = some k)
    (hreads' : reads y = some k) : x.tid = y.tid := by
  rcases older_or_newer hx hy with heq | ⟨older, hs, hmem⟩ | ⟨older, hs, hmem⟩
  · rw [heq]
  · have hstored := hxy older hs hmem
    exact absurd hreads' (hturns.first_reader hs hreads hmem hstored)
  · have hstored := hyx older hs hmem
    exact absurd hreads (hturns.first_reader hs hreads' hmem hstored)

end Turns

/-- What never happens after itself happens at most once. -/
theorem filter_length_le_one {log : Log I A ε σ γ}
    {p : Entry I A ε σ γ → Bool}
    (h : ∀ (x y : Entry I A ε σ γ) (older : Log I A ε σ γ),
      (x :: older) <:+ log → p x = true → y ∈ older → p y = false) :
    (log.filter p).length ≤ 1 := by
  induction log with
  | nil => exact Nat.zero_le 1
  | cons x older ih =>
      have hrest := ih fun a b rest hs => h a b rest
        (hs.trans (List.suffix_cons x older))
      cases hp : p x with
      | false =>
          rw [List.filter_cons_of_neg (by rw [hp]; exact Bool.false_ne_true)]
          exact hrest
      | true =>
          have hnone : older.filter p = [] := by
            rw [List.filter_eq_nil_iff]
            intro y hy
            rw [h x y older (List.suffix_refl _) hp hy]
            exact Bool.false_ne_true
          rw [List.filter_cons_of_pos hp, hnone]
          exact Nat.le_refl 1

/-- What a thread only does directly after a claim happens once, when the
claim does. -/
theorem once_directly_after {log : Log I A ε σ γ}
    (claims acts : Entry I A ε σ γ → Prop)
    (hdirect : ∀ (x : Entry I A ε σ γ) (older : Log I A ε σ γ),
      (x :: older) <:+ log → acts x →
        ∃ y rest, own x.tid older = y :: rest ∧ claims y)
    (honce : ∀ (x y : Entry I A ε σ γ) (older : Log I A ε σ γ),
      (x :: older) <:+ log → claims x → y ∈ older → ¬ claims y)
    (hdisjoint : ∀ x, claims x → ¬ acts x) {x x' : Entry I A ε σ γ}
    {older : Log I A ε σ γ} (hx : (x :: older) <:+ log) (hacts : acts x)
    (hx' : x' ∈ older) : ¬ acts x' := by
  intro hacts'
  obtain ⟨newer, older', rfl⟩ := List.append_of_mem hx'
  have hlog : newer ++ x' :: older' <:+ log :=
    (List.suffix_cons x _).trans hx
  have hlog' : (x' :: older') <:+ log :=
    (List.suffix_append newer _).trans hlog
  obtain ⟨y, rest, hown, hclaims⟩ := hdirect x _ hx hacts
  obtain ⟨y', rest', hown', hclaims'⟩ := hdirect x' older' hlog' hacts'
  have hmem : y ∈ own x.tid (newer ++ x' :: older') := by
    rw [hown]
    exact .head _
  have hmem' : y' ∈ own x'.tid older' := by
    rw [hown']
    exact .head _
  rw [mem_own] at hmem hmem'
  have hy : y ∈ log := hlog.subset hmem.1
  have hy' : y' ∈ log := hlog'.subset (.tail _ hmem'.1)
  rcases older_or_newer hy hy' with heq | ⟨o, hs, ho⟩ | ⟨o, hs, ho⟩
  · -- one thread: its newest answer before `x` is a claim, and so not `x'`
    subst heq
    have htid : x'.tid = x.tid := hmem'.2.symm.trans hmem.2
    rw [htid] at hown'
    have hrest : y ∈ rest := by
      have hsplit : own x.tid newer ++ x' :: y :: rest' = y :: rest := by
        rw [← hown, ← hown', ← own_cons htid]
        simp only [own, List.filter_append]
      cases hnewer : own x.tid newer with
      | nil =>
          rw [hnewer, List.nil_append] at hsplit
          cases hsplit
          exact absurd hacts' (hdisjoint x' hclaims)
      | cons z zs =>
          rw [hnewer, List.cons_append] at hsplit
          cases hsplit
          simp
    have hsuffix : (y :: rest) <:+ own x.tid (newer ++ x' :: older') :=
      ⟨[], hown.symm⟩
    obtain ⟨o, hs, ho⟩ := of_suffix_own hsuffix
    rw [← ho] at hrest
    exact honce y y o (hs.trans hlog) hclaims (mem_own.1 hrest).1 hclaims
  · exact honce y y' o hs hclaims ho hclaims'
  · exact honce y' y o hs hclaims' ho hclaims

end Videum.Async
