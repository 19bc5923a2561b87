import Mathlib.Data.List.Pairwise

/-!
# Tables

A table keeps its rows in the order of their insertion and hands out its
primary keys itself, so that two rows never share one.  The keys are part of
the structure: every operation below gives a table again, and no proof about
a run has to carry "the keys are distinct" along.

## Main results

* `Table.unique` — a primary key determines its row.
* `Table.mem_insert`, `Table.mem_update`, `Table.mem_save`,
  `Table.mem_delete` — the rows after each operation.
* `Table.delete_insert_rows` — a row that is added and deleted again.
* `Table.Ages.refl`, `Table.Ages.insert`, `Table.Ages.update`,
  `Table.Ages.save` — each is a step in which rows only age.
* `Table.Ages.distinct` — a column rows keep stays without duplicates.
* `find?_of_unique` — looking up by a property only one row has.
-/

namespace Videum.Common

section Empty

variable {ρ : Type} {key : ρ → Nat}

theorem keys_lt_nil : ∀ r ∈ ([] : List ρ), key r < 0 :=
  fun _ h => nomatch h

theorem keys_ne_nil : ([] : List ρ).Pairwise fun a b => key a ≠ key b :=
  List.Pairwise.nil

end Empty

/-- Rows of type `ρ`, told apart by the primary key `key`. -/
structure Table (ρ : Type) (key : ρ → Nat) where
  rows : List ρ := []
  nextId : Nat := 0
  keys_lt : ∀ r ∈ rows, key r < nextId := by exact keys_lt_nil
  keys_ne : rows.Pairwise (fun a b => key a ≠ key b) := by exact keys_ne_nil

namespace Table

variable {ρ : Type} {key : ρ → Nat}

/-- Add a row under the next primary key. -/
def insert (t : Table ρ key) (r : ρ) (h : key r = t.nextId) :
    Table ρ key where
  rows := t.rows ++ [r]
  nextId := t.nextId + 1
  keys_lt := by
    intro x hx
    rcases List.mem_append.1 hx with hx | hx
    · have hlt := t.keys_lt x hx
      omega
    · rw [List.mem_singleton.1 hx]
      omega
  keys_ne := by
    rw [List.pairwise_append]
    refine ⟨t.keys_ne, List.pairwise_singleton _ _, ?_⟩
    intro a ha b hb
    rw [List.mem_singleton.1 hb]
    have hlt := t.keys_lt a ha
    omega

/-- Rewrite every row, keeping the primary keys. -/
def update (t : Table ρ key) (f : ρ → ρ) (hf : ∀ r, key (f r) = key r) :
    Table ρ key where
  rows := t.rows.map f
  nextId := t.nextId
  keys_lt := by
    intro x hx
    obtain ⟨r, hr, rfl⟩ := List.mem_map.1 hx
    rw [hf]
    exact t.keys_lt r hr
  keys_ne := by
    rw [List.pairwise_map]
    exact t.keys_ne.imp fun h => by simpa only [hf] using h

/-- Remove the rows that satisfy `p`. -/
def delete (t : Table ρ key) (p : ρ → Bool) : Table ρ key where
  rows := t.rows.filter fun r => !p r
  nextId := t.nextId
  keys_lt := fun x hx => t.keys_lt x (List.mem_filter.1 hx).1
  keys_ne := t.keys_ne.filter _

/-- Write a whole row over the one with the same primary key. -/
def save (t : Table ρ key) (r : ρ) : Table ρ key :=
  t.update (fun x => if key x = key r then r else x) (by
    intro x
    by_cases hx : key x = key r
    · rw [if_pos hx, hx]
    · rw [if_neg hx])

/-- A primary key determines its row. -/
theorem unique (t : Table ρ key) {a b : ρ} (ha : a ∈ t.rows)
    (hb : b ∈ t.rows) (h : key a = key b) : a = b := by
  have hsymm : Std.Symm fun a b : ρ => key a ≠ key b := ⟨fun _ _ h => h.symm⟩
  by_contra hne
  exact t.keys_ne.forall ha hb hne h

@[simp] theorem mem_insert {t : Table ρ key} {r : ρ}
    {h : key r = t.nextId} {x : ρ} :
    x ∈ (t.insert r h).rows ↔ x ∈ t.rows ∨ x = r := by
  simp only [insert, List.mem_append, List.mem_singleton]

@[simp] theorem mem_update {t : Table ρ key} {f : ρ → ρ}
    {hf : ∀ r, key (f r) = key r} {x : ρ} :
    x ∈ (t.update f hf).rows ↔ ∃ r ∈ t.rows, f r = x := List.mem_map

@[simp] theorem mem_delete {t : Table ρ key} {p : ρ → Bool} {x : ρ} :
    x ∈ (t.delete p).rows ↔ x ∈ t.rows ∧ p x = false := by
  simp only [delete, List.mem_filter, Bool.not_eq_true']

/-- The row that was added last can be taken away again. -/
theorem delete_insert_rows {t : Table ρ key} {r : ρ} {h : key r = t.nextId}
    {p : ρ → Bool} (hr : p r = true)
    (hp : ∀ x ∈ t.rows, key x < t.nextId → p x = false) :
    ((t.insert r h).delete p).rows = t.rows := by
  have hold : t.rows.filter (fun x => !p x) = t.rows := by
    apply List.filter_eq_self.2
    intro x hx
    rw [hp x hx (t.keys_lt x hx)]
    rfl
  show (t.rows ++ [r]).filter (fun x => !p x) = t.rows
  rw [List.filter_append, hold, List.filter_cons_of_neg (by rw [hr]; exact nofun),
    List.filter_nil, List.append_nil]

/-- After a whole-row write: the other rows, and the row written if its
primary key was there. -/
theorem mem_save {t : Table ρ key} {r x : ρ} :
    x ∈ (t.save r).rows ↔
      x ∈ t.rows ∧ key x ≠ key r ∨ x = r ∧ ∃ y ∈ t.rows, key y = key r := by
  unfold save
  rw [mem_update]
  constructor
  · rintro ⟨y, hy, rfl⟩
    by_cases hk : key y = key r
    · rw [if_pos hk]
      exact .inr ⟨rfl, y, hy, hk⟩
    · rw [if_neg hk]
      exact .inl ⟨hy, hk⟩
  · rintro (⟨hx, hk⟩ | ⟨rfl, y, hy, hk⟩)
    · exact ⟨x, hx, if_neg hk⟩
    · exact ⟨y, hy, if_pos hk⟩

/-! ## Aging

Rows of a table may be rewritten, but some columns of a row never change and
others change in one direction only.  `Later r r'` says that `r'` may be what
became of `r`. -/

/-- A step in which no row is lost, and in which every row comes from an
earlier one or is the one that was added. -/
structure Ages (Later : ρ → ρ → Prop) (added : Option ρ)
    (t t' : Table ρ key) : Prop where
  kept : ∀ r ∈ t.rows, ∃ r' ∈ t'.rows, Later r r'
  origin : ∀ r' ∈ t'.rows, (∃ r ∈ t.rows, Later r r') ∨ added = some r'

/-- No two rows have the same `f`. -/
def Distinct {δ : Type} (t : Table ρ key) (f : ρ → δ) : Prop :=
  ∀ a ∈ t.rows, ∀ b ∈ t.rows, f a = f b → a = b

instance {δ : Type} [DecidableEq ρ] [DecidableEq δ] (t : Table ρ key)
    (f : ρ → δ) : Decidable (t.Distinct f) :=
  inferInstanceAs (Decidable (∀ a ∈ t.rows, ∀ b ∈ t.rows, f a = f b → a = b))

namespace Ages

variable {Later : ρ → ρ → Prop} {added : Option ρ} {t t' : Table ρ key}

theorem refl (hrefl : ∀ r, Later r r) : Ages Later added t t :=
  ⟨fun r hr => ⟨r, hr, hrefl r⟩, fun r hr => .inl ⟨r, hr, hrefl r⟩⟩

theorem insert (hrefl : ∀ r, Later r r) (r : ρ) (h : key r = t.nextId) :
    Ages Later (some r) t (t.insert r h) := by
  constructor
  · intro x hx
    exact ⟨x, mem_insert.2 (.inl hx), hrefl x⟩
  · intro x hx
    rcases mem_insert.1 hx with hx | rfl
    · exact .inl ⟨x, hx, hrefl x⟩
    · exact .inr rfl

theorem update {f : ρ → ρ} (hf : ∀ r, key (f r) = key r)
    (hlater : ∀ r ∈ t.rows, Later r (f r)) :
    Ages Later added t (t.update f hf) := by
  constructor
  · intro r hr
    exact ⟨f r, mem_update.2 ⟨r, hr, rfl⟩, hlater r hr⟩
  · intro r' hr'
    obtain ⟨r, hr, rfl⟩ := mem_update.1 hr'
    exact .inl ⟨r, hr, hlater r hr⟩

theorem save (hrefl : ∀ r, Later r r) {v : ρ}
    (hlater : ∀ r ∈ t.rows, key r = key v → Later r v) :
    Ages Later added t (t.save v) := by
  apply update
  intro r hr
  by_cases hk : key r = key v
  · rw [if_pos hk]
    exact hlater r hr hk
  · rw [if_neg hk]
    exact hrefl r

/-- A column that rows keep stays without duplicates, when an added row does
not bring one. -/
theorem distinct {δ : Type} {f : ρ → δ} (h : Ages Later added t t')
    (hkey : ∀ a b, Later a b → key b = key a)
    (hf : ∀ a b, Later a b → f b = f a) (hold : t.Distinct f)
    (hadded : ∀ n, added = some n → ∀ r ∈ t.rows, f r ≠ f n) :
    t'.Distinct f := by
  intro a' ha' b' hb' hab
  rcases h.origin a' ha' with ⟨a, ha, hla⟩ | hna
  · rcases h.origin b' hb' with ⟨b, hb, hlb⟩ | hnb
    · have heq := hold a ha b hb (by rw [← hf a a' hla, ← hf b b' hlb, hab])
      subst heq
      exact t'.unique ha' hb' ((hkey a a' hla).trans (hkey a b' hlb).symm)
    · have hne := hadded b' hnb a ha
      rw [← hf a a' hla] at hne
      exact absurd hab hne
  · rcases h.origin b' hb' with ⟨b, hb, hlb⟩ | hnb
    · have hne := hadded a' hna b hb
      rw [← hf b b' hlb] at hne
      exact absurd hab.symm hne
    · rw [hna] at hnb
      exact Option.some.inj hnb

end Ages

end Table

/-- Looking up by a property that one row of the list has. -/
theorem find?_of_unique {ρ : Type} {rows : List ρ} {p : ρ → Bool} {r : ρ}
    (hr : r ∈ rows) (hp : p r = true)
    (hunique : ∀ x ∈ rows, p x = true → x = r) : rows.find? p = some r := by
  cases hfind : rows.find? p with
  | none =>
      have hnone := List.find?_eq_none.1 hfind r hr
      exact absurd hp hnone
  | some x =>
      have hx := hunique x (List.mem_of_find?_eq_some hfind)
        (List.find?_some hfind)
      rw [hx]

end Videum.Common
