import Mathlib.Algebra.Order.Field.Rat
import Mathlib.Data.Rat.Cast.Order
import Mathlib.Tactic.NormNum

/-!
# Durations as texts

The texts `ms` reads as durations: an optional sign, a decimal number,
spaces, and the name of a unit in letters of either case, which may be
missing.  Such a text means a number of milliseconds.

## Main definitions

* `DurationText` — the parts of such a text.
* `ReadsAs` — a text and the milliseconds it means.
* `DurationReader` — a function that reads such texts.

## Main results

* `DurationText.value_eq_zero_iff` — which texts mean no time at all.
* `DurationText.value_of_letter` — what a text means that is nothing but
  digits and one letter.
-/

namespace Videum.Common

inductive DurationUnit
  | milliseconds
  | seconds
  | minutes
  | hours
  | days
  | weeks
  | years
  deriving DecidableEq

namespace DurationUnit

def names : DurationUnit → List String
  | milliseconds => ["milliseconds", "millisecond", "msecs", "msec", "ms"]
  | seconds => ["seconds", "second", "secs", "sec", "s"]
  | minutes => ["minutes", "minute", "mins", "min", "m"]
  | hours => ["hours", "hour", "hrs", "hr", "h"]
  | days => ["days", "day", "d"]
  | weeks => ["weeks", "week", "w"]
  | years => ["years", "year", "yrs", "yr", "y"]

/-- A year has 365.25 days. -/
def inMs : DurationUnit → Nat
  | milliseconds => 1
  | seconds => 1000
  | minutes => 60000
  | hours => 3600000
  | days => 86400000
  | weeks => 604800000
  | years => 31557600000

theorem inMs_pos (unit : DurationUnit) : 0 < unit.inMs := by
  cases unit <;> decide

theorem not_isDigit_of_mem_names {unit : DurationUnit} {name : String}
    (hname : name ∈ unit.names) {c : Char} (hc : c ∈ name.toList) :
    c.isDigit = false := by
  have hall : unit.names.all
      (fun name => name.toList.all fun c => !c.isDigit) = true := by
    cases unit <;> decide
  have hletter := List.all_eq_true.1 (List.all_eq_true.1 hall name hname) c hc
  rw [Bool.not_eq_true'] at hletter
  exact hletter

end DurationUnit

/-! ## Digits -/

theorem toLower_of_isDigit {c : Char} (h : c.isDigit = true) :
    c.toLower = c := by
  simp only [Char.isDigit, Bool.and_eq_true, decide_eq_true_eq] at h
  unfold Char.toLower
  split
  · next hupper =>
      exact absurd (UInt32.le_trans hupper.1 h.2) (by decide)
  · rfl

theorem not_isAlpha_of_isDigit {c : Char} (h : c.isDigit = true) :
    c.isAlpha = false := by
  have hlast : c.toNat ≤ '9'.toNat := (Char.isDigit_iff_toNat.1 h).2
  cases halpha : c.isAlpha with
  | false => rfl
  | true =>
      have hfirst : 'A'.toNat ≤ c.toNat := by
        rcases Bool.or_eq_true_iff.1 halpha with hupper | hlower
        · exact (of_decide_eq_true hupper).1
        · have hbounds := Bool.and_eq_true_iff.1 hlower
          have hfirst' : 'a'.toNat ≤ c.toNat := of_decide_eq_true hbounds.1
          exact le_trans (by decide) hfirst'
      exact absurd (le_trans hfirst hlast) (by decide)

theorem ofDigitChars_eq_zero_iff {ds : List Char}
    (hds : ∀ c ∈ ds, c.isDigit = true) :
    Nat.ofDigitChars 10 ds 0 = 0 ↔ ∀ c ∈ ds, c = '0' := by
  induction ds with
  | nil => simp
  | cons d ds ih =>
      have hdigit := hds d List.mem_cons_self
      have hd : d.toNat - '0'.toNat = 0 ↔ d = '0' := by
        simp only [Char.isDigit, Bool.and_eq_true, decide_eq_true_eq] at hdigit
        have hlow : '0'.toNat ≤ d.toNat := hdigit.1
        constructor
        · intro hsub
          exact Char.toNat_inj.1
            (Nat.le_antisymm (Nat.sub_eq_zero_iff_le.1 hsub) hlow)
        · rintro rfl
          rfl
      have hpow : 10 ^ ds.length ≠ 0 := pow_ne_zero _ (by decide)
      rw [Nat.ofDigitChars_cons, Nat.ofDigitChars_eq_ofDigitChars_zero,
        Nat.add_eq_zero_iff, Nat.mul_eq_zero, Nat.mul_zero, Nat.zero_add, hd,
        ih fun c hc => hds c (List.mem_cons_of_mem d hc), List.forall_mem_cons,
        or_iff_right hpow]

/-! ## The texts -/

/-- The parts of a duration text; without a name it means milliseconds. -/
structure DurationText where
  sign : List Char
  whole : List Char
  fraction : Option (List Char)
  spaces : Nat
  name : List Char
  unit : DurationUnit
  sign_ok : sign = [] ∨ sign = ['+'] ∨ sign = ['-']
  whole_digits : ∀ c ∈ whole, c.isDigit = true
  fraction_digits : ∀ c ∈ fraction.getD [], c.isDigit = true
  digits_ne : whole ++ fraction.getD [] ≠ []
  name_ok : name = [] ∧ unit = .milliseconds ∨
    String.ofList (name.map Char.toLower) ∈ unit.names

namespace DurationText

variable (t : DurationText)

/-- The point and what follows it. -/
def point : List Char :=
  match t.fraction with
  | none => []
  | some digits => '.' :: digits

def text : List Char :=
  t.sign ++ t.whole ++ t.point ++ List.replicate t.spaces ' ' ++ t.name

def digits : List Char := t.whole ++ t.fraction.getD []

def value : ℚ :=
  (if t.sign = ['-'] then -1 else 1) * (Nat.ofDigitChars 10 t.digits 0 : Nat) /
    10 ^ (t.fraction.getD []).length * t.unit.inMs

/-! ## The digits of a text -/

theorem not_isDigit_of_mem_sign {c : Char} (hc : c ∈ t.sign) :
    c.isDigit = false := by
  rcases t.sign_ok with hsign | hsign | hsign
  all_goals rw [hsign] at hc
  · exact nomatch hc
  · rw [List.mem_singleton.1 hc]
    rfl
  · rw [List.mem_singleton.1 hc]
    rfl

theorem not_isDigit_of_mem_name {c : Char} (hc : c ∈ t.name) :
    c.isDigit = false := by
  rcases t.name_ok with ⟨hname, _⟩ | hname
  · rw [hname] at hc
    exact nomatch hc
  · have hlower : c.toLower ∈ (String.ofList (t.name.map Char.toLower)).toList := by
      rw [String.toList_ofList]
      exact List.mem_map_of_mem hc
    have hletter := DurationUnit.not_isDigit_of_mem_names hname hlower
    cases hdigit : c.isDigit with
    | false => rfl
    | true =>
        rw [toLower_of_isDigit hdigit, hdigit] at hletter
        exact nomatch hletter

theorem not_isDigit_of_mem_spaces {c : Char}
    (hc : c ∈ List.replicate t.spaces ' ') : c.isDigit = false := by
  rw [List.eq_of_mem_replicate hc]
  rfl

/-- Taking the digits of a text forgets the point. -/
theorem filter_isDigit_text : t.text.filter Char.isDigit = t.digits := by
  have hdrop : ∀ l : List Char, (∀ c ∈ l, c.isDigit = false) →
      l.filter Char.isDigit = [] := by
    intro l hl
    apply List.filter_eq_nil_iff.2
    intro c hc
    rw [hl c hc]
    exact Bool.false_ne_true
  have hwhole : t.whole.filter Char.isDigit = t.whole :=
    List.filter_eq_self.2 t.whole_digits
  have hpoint : t.point.filter Char.isDigit = t.fraction.getD [] := by
    have hdigits := t.fraction_digits
    unfold point
    cases hfraction : t.fraction with
    | none => rfl
    | some digits =>
        rw [hfraction] at hdigits
        exact (List.filter_cons_of_neg (by decide)).trans
          (List.filter_eq_self.2 hdigits)
  rw [text, List.filter_append, List.filter_append, List.filter_append,
    List.filter_append, hwhole, hpoint,
    hdrop t.sign fun _ => t.not_isDigit_of_mem_sign,
    hdrop _ fun _ => t.not_isDigit_of_mem_spaces,
    hdrop t.name fun _ => t.not_isDigit_of_mem_name,
    List.append_nil, List.append_nil, List.nil_append]
  rfl

theorem digits_isDigit : ∀ c ∈ t.digits, c.isDigit = true := by
  intro c hc
  rw [← t.filter_isDigit_text] at hc
  exact (List.mem_filter.1 hc).2

/-- A text means no time at all exactly when its digits are all zero. -/
theorem value_eq_zero_iff :
    t.value = 0 ↔ ∀ c ∈ t.text, c.isDigit = true → c = '0' := by
  have hsign : (if t.sign = ['-'] then -1 else 1 : ℚ) ≠ 0 := by
    split <;> norm_num
  have hpow : (10 : ℚ) ^ (t.fraction.getD []).length ≠ 0 :=
    pow_ne_zero _ (by norm_num)
  have hvalue : t.value = 0 ↔ Nat.ofDigitChars 10 t.digits 0 = 0 := by
    rw [value, mul_eq_zero, div_eq_zero_iff, mul_eq_zero, Nat.cast_eq_zero]
    have hunit : (t.unit.inMs : ℚ) ≠ 0 :=
      Nat.cast_ne_zero.2 t.unit.inMs_pos.ne'
    tauto
  rw [hvalue, ofDigitChars_eq_zero_iff t.digits_isDigit,
    ← t.filter_isDigit_text]
  simp only [List.mem_filter, and_imp]

/-! ## A number and a letter -/

/-- What is left of a text without its digits. -/
theorem filter_not_isDigit_text :
    t.text.filter (fun c => !c.isDigit) =
      t.sign ++ t.fraction.elim [] (fun _ => ['.']) ++
        List.replicate t.spaces ' ' ++ t.name := by
  have hwhole : t.whole.filter (fun c => !c.isDigit) = [] :=
    List.filter_eq_nil_iff.2 fun c hc => by
      rw [t.whole_digits c hc]
      decide
  have hpoint : t.point.filter (fun c => !c.isDigit) =
      t.fraction.elim [] (fun _ => ['.']) := by
    have hdigits := t.fraction_digits
    unfold point
    cases hfraction : t.fraction with
    | none => rfl
    | some digits =>
        rw [hfraction] at hdigits
        have hnone : digits.filter (fun c => !c.isDigit) = [] :=
          List.filter_eq_nil_iff.2 fun c hc => by
            rw [hdigits c hc]
            decide
        exact (List.filter_cons_of_pos (by decide)).trans
          (congrArg (List.cons '.') hnone)
  have hkeep : ∀ l : List Char, (∀ c ∈ l, c.isDigit = false) →
      l.filter (fun c => !c.isDigit) = l := by
    intro l hl
    exact List.filter_eq_self.2 fun c hc => by rw [hl c hc]; rfl
  rw [text, List.filter_append, List.filter_append, List.filter_append,
    List.filter_append, hwhole, hpoint,
    hkeep t.sign fun _ => t.not_isDigit_of_mem_sign,
    hkeep _ fun _ => t.not_isDigit_of_mem_spaces,
    hkeep t.name fun _ => t.not_isDigit_of_mem_name, List.append_nil]

/-- The letters of a text are in its name. -/
theorem mem_name_of_isAlpha {c : Char} (hmem : c ∈ t.text)
    (hc : c.isAlpha = true) : c ∈ t.name := by
  have hnot : ∀ d : Char, d.isDigit = true → c ≠ d := by
    rintro d hd rfl
    rw [not_isAlpha_of_isDigit hd] at hc
    exact Bool.false_ne_true hc
  simp only [text, List.mem_append, List.mem_replicate] at hmem
  rcases hmem with (((hsign | hwhole) | hpoint) | ⟨_, rfl⟩) | hname
  · rcases t.sign_ok with hnone | hplus | hminus
    · rw [hnone] at hsign
      exact nomatch hsign
    · rw [hplus, List.mem_singleton] at hsign
      exact absurd hc (by rw [hsign]; decide)
    · rw [hminus, List.mem_singleton] at hsign
      exact absurd hc (by rw [hsign]; decide)
  · exact absurd rfl (hnot c (t.whole_digits c hwhole))
  · have hdigits := t.fraction_digits
    unfold point at hpoint
    cases hfraction : t.fraction with
    | none =>
        rw [hfraction] at hpoint
        exact nomatch hpoint
    | some digits =>
        rw [hfraction] at hpoint hdigits
        rcases List.mem_cons.1 hpoint with rfl | hmem
        · exact absurd hc (by decide)
        · exact absurd rfl (hnot c (hdigits c hmem))
  · exact absurd hc (by decide)
  · exact hname

/-- Digits and one letter mean that many of the unit the letter names. -/
theorem value_of_letter {ds : List Char} {c : Char}
    (htext : t.text = ds ++ [c]) (hds : ∀ d ∈ ds, d.isDigit = true)
    (hc : c.isAlpha = true) :
    t.value = (Nat.ofDigitChars 10 ds 0 : Nat) * t.unit.inMs ∧
      String.ofList [c.toLower] ∈ t.unit.names := by
  have hletter : c.isDigit = false := by
    cases hdigit : c.isDigit with
    | false => rfl
    | true => exact absurd hc (by rw [not_isAlpha_of_isDigit hdigit]; decide)
  have hdigits : t.digits = ds := by
    rw [← t.filter_isDigit_text, htext, List.filter_append,
      List.filter_eq_self.2 hds, List.filter_cons_of_neg (by simp [hletter])]
    exact List.append_nil ds
  have hrest : t.sign ++ t.fraction.elim [] (fun _ => ['.']) ++
      List.replicate t.spaces ' ' ++ t.name = [c] := by
    rw [← t.filter_not_isDigit_text, htext, List.filter_append,
      List.filter_eq_nil_iff.2 fun d hd => by rw [hds d hd]; decide,
      List.filter_cons_of_pos (by simp [hletter])]
    rfl
  -- the letter is in the name, so nothing else is there
  have hname : c ∈ t.name := by
    apply t.mem_name_of_isAlpha _ hc
    rw [htext]
    exact List.mem_append_right ds (List.mem_singleton_self c)
  have hpos := List.length_pos_of_mem hname
  have hlength := congrArg List.length hrest
  simp only [List.length_append, List.length_replicate,
    List.length_singleton] at hlength
  have hsign : t.sign = [] := List.length_eq_zero_iff.1 (by omega)
  have hfraction : t.fraction = none := by
    cases hfraction : t.fraction with
    | none => rfl
    | some digits =>
        rw [hfraction] at hlength
        have hpoint : (['.'] : List Char).length = 1 := rfl
        simp only [Option.elim_some] at hlength
        omega
  have hsingle : t.name = [c] := by
    obtain ⟨d, hd⟩ := List.length_eq_one_iff.1 (show t.name.length = 1 by omega)
    rw [hd, List.mem_singleton] at hname
    rw [hd, hname]
  constructor
  · rw [value, hdigits, hsign, hfraction, if_neg (by decide), one_mul]
    simp
  · rcases t.name_ok with ⟨hnone, _⟩ | hname
    · rw [hnone] at hsingle
      exact nomatch hsingle
    · rw [hsingle] at hname
      exact hname

end DurationText

/-- `x` is what `text` means, in milliseconds. -/
def ReadsAs (text : String) (x : ℚ) : Prop :=
  ∃ t : DurationText, t.text = text.toList ∧ t.value = x

/-- Digits and the letter of a unit mean what one expects. -/
theorem readsAs_of_letter {text : String} (ds : List Char) (c : Char)
    (unit : DurationUnit) (htext : text.toList = ds ++ [c])
    (hds : ds.all Char.isDigit = true) (hne : ds ≠ [])
    (hname : String.ofList [c.toLower] ∈ unit.names) :
    ReadsAs text (Nat.ofDigitChars 10 ds 0 * unit.inMs : Nat) := by
  refine ⟨{ sign := [], whole := ds, fraction := none, spaces := 0,
            name := [c], unit := unit, sign_ok := .inl rfl,
            whole_digits := List.all_eq_true.1 hds, fraction_digits := nofun,
            digits_ne := by rw [Option.getD_none, List.append_nil]; exact hne,
            name_ok := .inr hname }, ?_, ?_⟩
  · rw [htext]
    simp [DurationText.text, DurationText.point]
  · simp [DurationText.value, DurationText.digits]

/-- `ms`, as far as it is relied on: what it gives for a text is what the
text means. -/
structure DurationReader where
  ms : String → Option ℚ
  reads : ∀ {text x}, ms text = some x → ReadsAs text x

end Videum.Common
