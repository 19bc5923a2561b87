import Mathlib.Algebra.Order.Field.Basic
import Mathlib.Data.NNRat.Floor

/-!
# Numbers, texts and values of the language

What the configuration files and the services compute with: the numbers of
ECMAScript with their two infinities, two zeros and `NaN`, where exact
magnitudes take the place of double precision, and the functions that read
numbers from texts.

## Main definitions

* `Number` — a sign and a magnitude, or no number at all.
* `Number.div`, `Number.ceil`, `Number.max`, `Number.le` — the operators
  `/`, `Math.ceil`, `Math.max` and `<=`.
* `parseInt` — `parseInt(text, 10)`.
* `textOr` — `text || fallback`.
* `Json` — the values of `JSON.parse`.
-/

namespace Videum.Common

open NNRat

/-! ## Numbers -/

inductive Number
  | nan
  | infinity (negative : Bool)
  | finite (negative : Bool) (magnitude : ℚ≥0)
  deriving DecidableEq

namespace Number

def ofNat (n : Nat) : Number := .finite false n

/-- The mathematical value of a finite number. -/
def toRat? : Number → Option ℚ
  | .finite negative magnitude =>
      some (if negative then -magnitude else magnitude)
  | _ => none

/-- A zero divisor gives an infinity, and `0 / 0` no number. -/
def div : Number → Number → Number
  | .nan, _ => .nan
  | _, .nan => .nan
  | .infinity _, .infinity _ => .nan
  | .infinity a, .finite b _ => .infinity (a ^^ b)
  | .finite a _, .infinity b => .finite (a ^^ b) 0
  | .finite a x, .finite b y =>
      if y = 0 then if x = 0 then .nan else .infinity (a ^^ b)
      else .finite (a ^^ b) (x / y)

/-- `Math.ceil`, which rounds a negative number towards zero. -/
def ceil : Number → Number
  | .finite false x => .finite false ⌈x⌉₊
  | .finite true x => .finite true ⌊x⌋₊
  | x => x

/-- `<=` -/
def le : Number → Number → Bool
  | .nan, _ => false
  | _, .nan => false
  | .infinity true, _ => true
  | _, .infinity false => true
  | .infinity false, _ => false
  | _, .infinity true => false
  | .finite false x, .finite false y => x ≤ y
  | .finite false x, .finite true y => x = 0 && y = 0
  | .finite true _, .finite false _ => true
  | .finite true x, .finite true y => y ≤ x

def isNegative : Number → Bool
  | .nan => false
  | .infinity negative => negative
  | .finite negative _ => negative

/-- `Math.max` of two numbers; of the two zeros it takes the positive one. -/
def max : Number → Number → Number
  | .nan, _ => .nan
  | _, .nan => .nan
  | x, y => if y.le x && !(x.le y && x.isNegative) then x else y

theorem ofNat_injective : Function.Injective ofNat := by
  intro m n h
  exact Nat.cast_injective (Number.finite.inj h).2

theorem ofNat_le_ofNat (m n : Nat) : (ofNat m).le (ofNat n) = decide (m ≤ n) := by
  simp [ofNat, le]

theorem ofNat_le_infinity (m : Nat) : (ofNat m).le (.infinity false) = true :=
  rfl

/-- A quotient of positive integers, rounded up. -/
theorem ceil_div_ofNat (a : Nat) {b : Nat} (hb : 0 < b) :
    ((ofNat a).div (ofNat b)).ceil = ofNat ⌈(a : ℚ≥0) / b⌉₊ := by
  have hne : (b : ℚ≥0) ≠ 0 := Nat.cast_ne_zero.2 hb.ne'
  simp only [ofNat, div, if_neg hne, Bool.xor_self, ceil]

theorem ceil_div_zero {a : Nat} (ha : 0 < a) :
    ((ofNat a).div (ofNat 0)).ceil = .infinity false := by
  have hne : (a : ℚ≥0) ≠ 0 := Nat.cast_ne_zero.2 ha.ne'
  simp only [ofNat, div, Nat.cast_zero, if_true, if_neg hne, Bool.xor_self,
    ceil]

theorem max_one_ofNat {n : Nat} (hn : 1 ≤ n) :
    (ofNat 1).max (ofNat n) = ofNat n := by
  have hle : (ofNat 1).le (ofNat n) = true := by
    rw [ofNat_le_ofNat]
    exact decide_eq_true hn
  show (if (ofNat n).le (ofNat 1) && !((ofNat 1).le (ofNat n) && false)
    then ofNat 1 else ofNat n) = ofNat n
  rw [ofNat_le_ofNat]
  by_cases heq : n = 1
  · rw [heq, ite_self]
  · rw [Bool.and_false, Bool.not_false, Bool.and_true,
      if_neg (by simp; omega)]

theorem max_one_infinity : (ofNat 1).max (.infinity false) = .infinity false :=
  rfl

end Number

/-! ## Texts -/

/-- `text || fallback`: the empty text counts as false. -/
def textOr (text : Option String) (fallback : String) : String :=
  (text.filter (· ≠ "")).getD fallback

/-- `WhiteSpace` and `LineTerminator` of the grammar. -/
def isWhiteSpace (c : Char) : Bool :=
  c.toNat ∈ [0x09, 0x0A, 0x0B, 0x0C, 0x0D, 0x20, 0xA0, 0x1680, 0x2028, 0x2029,
      0x202F, 0x205F, 0x3000, 0xFEFF] ||
    (0x2000 ≤ c.toNat && c.toNat ≤ 0x200A)

/-- The digits a text starts with, as a number of this sign. -/
def parseDigitsFrom (negative : Bool) (text : List Char) : Number :=
  match text.takeWhile Char.isDigit with
  | [] => .nan
  | digits => .finite negative (Nat.ofDigitChars 10 digits 0 : Nat)

/-- `parseInt(text, 10)`: what follows the digits is ignored. -/
def parseInt (text : String) : Number :=
  match text.toList.dropWhile isWhiteSpace with
  | '-' :: rest => parseDigitsFrom true rest
  | '+' :: rest => parseDigitsFrom false rest
  | rest => parseDigitsFrom false rest

/-- It gives an integer with a sign, or no number. -/
theorem parseInt_cases (text : String) : parseInt text = .nan ∨
    ∃ negative, ∃ n : Nat, parseInt text = .finite negative n := by
  have hdigits : ∀ negative rest, parseDigitsFrom negative rest = .nan ∨
      ∃ n : Nat, parseDigitsFrom negative rest = .finite negative n := by
    intro negative rest
    unfold parseDigitsFrom
    split
    · exact .inl rfl
    · exact .inr ⟨_, rfl⟩
  have hsigned : ∀ negative rest, parseDigitsFrom negative rest = .nan ∨
      ∃ negative', ∃ n : Nat,
        parseDigitsFrom negative rest = .finite negative' n :=
    fun negative rest => (hdigits negative rest).imp_right fun ⟨n, h⟩ =>
      ⟨negative, n, h⟩
  unfold parseInt
  split <;> exact hsigned _ _

/-- A numeral with an exponent is read up to the exponent. -/
example : parseInt " 1e8" = .ofNat 1 := by rfl

/-! ## Values -/

inductive Json
  | null
  | bool (value : Bool)
  | number (value : Number)
  | string (value : String)
  | array (values : List Json)
  | object (fields : List (String × Json))

/-- The values that count as false are `null`, `false`, zero, `NaN` and the
empty text. -/
def Json.isTruthy : Json → Bool
  | .null => false
  | .bool value => value
  | .number .nan => false
  | .number (.infinity _) => true
  | .number (.finite _ magnitude) => magnitude ≠ 0
  | .string value => value ≠ ""
  | .array _ => true
  | .object _ => true

end Videum.Common
