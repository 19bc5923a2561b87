import Mathlib.Data.List.TakeWhile
import Mathlib.Data.List.Infix

/-!
# The values of header fields

A header field of HTTP is sent as octets.  A value like that of
`Content-Disposition` is a token and parameters, separated by semicolons;
what a parameter is given is a token or a quoted string, in which a backslash
stands before an octet that is meant as it is.  Octets from 128 on are
allowed in quoted strings, and which characters they are is left to a
charset.

## Main definitions

* `octets` — a text as it is sent.
* `readValue` — the grammar.
* `Charset` — how the octets of a value are read again.

## Main results

* `readValue_quoted_iff` — when a value has one parameter only.
* `quoted_iff` — the texts that come back out of quotation marks as they
  were put in.
-/

namespace Videum.Common

/-! ## Octets -/

/-- The octets a text is sent as. -/
def octets (text : String) : List UInt8 :=
  text.toList.flatMap String.utf8EncodeChar

def isAscii (b : UInt8) : Bool := b.toNat < 128

/-- `VCHAR` and blanks, and all that is not ASCII. -/
def isText (b : UInt8) : Bool := b = 9 || (32 ≤ b.toNat && b != 127)

/-- `qdtext`: what stands for itself between quotation marks. -/
def isQdtext (b : UInt8) : Bool := isText b && b != 34 && b != 92

/-- `tchar`. -/
def isTchar (b : UInt8) : Bool :=
  isAscii b && ((Char.ofNat b.toNat).isAlphanum ||
    (Char.ofNat b.toNat ∈ "!#$%&'*+-.^_`|~".toList))

/-- `OWS`. -/
def isBlank (b : UInt8) : Bool := b = 32 || b = 9

/-! ## Quoted strings -/

/-- The rest of a quoted string: what it says, and what follows the closing
mark. -/
def readQuoted : (escaped : Bool) → List UInt8 →
    Option (List UInt8 × List UInt8)
  | _, [] => none
  | true, b :: bs =>
      if isText b then
        (readQuoted false bs).map fun (said, rest) => (b :: said, rest)
      else none
  | false, b :: bs =>
      if b = 34 then some ([], bs)
      else if b = 92 then readQuoted true bs
      else if isQdtext b then
        (readQuoted false bs).map fun (said, rest) => (b :: said, rest)
      else none

theorem readQuoted_suffix {escaped : Bool} {bs said rest : List UInt8}
    (h : readQuoted escaped bs = some (said, rest)) : rest <:+ bs := by
  fun_induction readQuoted escaped bs generalizing said with
  | case1 => exact nomatch h
  | case2 b bs htext ih =>
      obtain ⟨⟨said', rest'⟩, hread, heq⟩ := Option.map_eq_some_iff.1 h
      obtain ⟨_, rfl⟩ := Prod.mk.inj heq
      exact (ih hread).trans (List.suffix_cons b bs)
  | case3 => exact nomatch h
  | case4 bs =>
      obtain ⟨_, rfl⟩ := Prod.mk.inj (Option.some.inj h)
      exact List.suffix_cons _ bs
  | case5 bs _ ih => exact (ih h).trans (List.suffix_cons _ bs)
  | case6 b bs _ _ hqd ih =>
      obtain ⟨⟨said', rest'⟩, hread, heq⟩ := Option.map_eq_some_iff.1 h
      obtain ⟨_, rfl⟩ := Prod.mk.inj heq
      exact (ih hread).trans (List.suffix_cons b bs)
  | case7 => exact nomatch h

/-- What stands for itself is read as it is. -/
theorem readQuoted_of_isQdtext {raw : List UInt8}
    (h : ∀ b ∈ raw, isQdtext b = true) :
    readQuoted false (raw ++ [34]) = some (raw, []) := by
  induction raw with
  | nil => rfl
  | cons b raw ih =>
      have hb := h b List.mem_cons_self
      have hparts := hb
      simp only [isQdtext, Bool.and_eq_true, bne_iff_ne] at hparts
      rw [List.cons_append, readQuoted, if_neg hparts.1.2, if_neg hparts.2,
        if_pos hb, ih fun c hc => h c (List.mem_cons_of_mem b hc)]
      rfl

/-- What was read up to the last mark stands for itself, or backslashes are
gone. -/
theorem readQuoted_whole {escaped : Bool} {raw said : List UInt8}
    (h : readQuoted escaped (raw ++ [34]) = some (said, [])) :
    escaped = false ∧ said = raw ∧ (∀ b ∈ raw, isQdtext b = true) ∨
      said.countP isAscii + (if escaped then 0 else 1) ≤ raw.countP isAscii := by
  induction raw generalizing escaped said with
  | nil =>
      cases escaped with
      | false =>
          obtain ⟨rfl, _⟩ := Prod.mk.inj (Option.some.inj h)
          exact .inl ⟨rfl, rfl, nofun⟩
      | true => exact nomatch h
  | cons b raw ih =>
      rw [List.cons_append] at h
      cases escaped with
      | true =>
          rw [readQuoted] at h
          split at h
          · obtain ⟨⟨said', rest⟩, hread, heq⟩ := Option.map_eq_some_iff.1 h
            obtain ⟨rfl, rfl⟩ := Prod.mk.inj heq
            have hcount : said'.countP isAscii ≤ raw.countP isAscii := by
              rcases ih hread with ⟨_, rfl, _⟩ | hless
              · exact Nat.le_refl _
              · exact Nat.le_of_succ_le hless
            refine .inr ?_
            simp only [List.countP_cons]
            exact Nat.add_le_add_right hcount _
          · exact nomatch h
      | false =>
          rw [readQuoted] at h
          split at h
          · -- the mark would have to be the last one
            obtain ⟨_, hrest⟩ := Prod.mk.inj (Option.some.inj h)
            exact absurd hrest (by simp)
          · split at h
            · next hbackslash =>
                refine .inr ?_
                rcases ih h with ⟨hfalse, _⟩ | hless
                · exact nomatch hfalse
                · subst hbackslash
                  rw [List.countP_cons_of_pos (by decide)]
                  exact Nat.succ_le_succ hless
            · split at h
              · next hqd =>
                  obtain ⟨⟨said', rest⟩, hread, heq⟩ :=
                    Option.map_eq_some_iff.1 h
                  obtain ⟨rfl, rfl⟩ := Prod.mk.inj heq
                  rcases ih hread with ⟨_, rfl, hall⟩ | hless
                  · exact .inl ⟨rfl, rfl, List.forall_mem_cons.2 ⟨hqd, hall⟩⟩
                  · refine .inr ?_
                    simp only [List.countP_cons]
                    rw [Nat.add_right_comm]
                    exact Nat.add_le_add_right hless _
              · exact nomatch h

/-! ## The grammar -/

/-- Names are compared without regard to case. -/
def lowerName (bs : List UInt8) : String :=
  String.ofList (bs.map fun b => (Char.ofNat b.toNat).toLower)

/-- A type, and parameters with what they are given. -/
structure FieldValue where
  type : String
  parameters : List (String × List UInt8)
  deriving DecidableEq

def readToken (bs : List UInt8) : Option (List UInt8 × List UInt8) :=
  if bs.takeWhile isTchar = [] then none
  else some (bs.takeWhile isTchar, bs.dropWhile isTchar)

/-- A token or a quoted string. -/
def readContent (bs : List UInt8) : Option (List UInt8 × List UInt8) :=
  if bs.head? = some 34 then readQuoted false bs.tail else readToken bs

/-- `name=content`. -/
def readParameter (bs : List UInt8) :
    Option ((String × List UInt8) × List UInt8) :=
  (readToken bs).bind fun (name, rest) =>
    if rest.head? = some 61 then
      (readContent rest.tail).map fun (content, rest) =>
        ((lowerName name, content), rest)
    else none

/-- A semicolon with blanks around it. -/
def readSeparator (bs : List UInt8) : Option (List UInt8) :=
  if (bs.dropWhile isBlank).head? = some 59 then
    some ((bs.dropWhile isBlank).tail.dropWhile isBlank)
  else none

theorem readToken_suffix {bs token rest : List UInt8}
    (h : readToken bs = some (token, rest)) : rest <:+ bs := by
  unfold readToken at h
  split at h
  · exact nomatch h
  · obtain ⟨_, rfl⟩ := Prod.mk.inj (Option.some.inj h)
    exact List.dropWhile_suffix isTchar

theorem readContent_suffix {bs content rest : List UInt8}
    (h : readContent bs = some (content, rest)) : rest <:+ bs := by
  unfold readContent at h
  split at h
  · exact (readQuoted_suffix h).trans (List.tail_suffix bs)
  · exact readToken_suffix h

theorem readParameter_suffix {bs rest : List UInt8}
    {parameter : String × List UInt8}
    (h : readParameter bs = some (parameter, rest)) : rest <:+ bs := by
  obtain ⟨⟨name, rest'⟩, htoken, h⟩ := Option.bind_eq_some_iff.1 h
  dsimp only at h
  split at h
  · obtain ⟨⟨content, rest''⟩, hcontent, heq⟩ := Option.map_eq_some_iff.1 h
    obtain ⟨_, rfl⟩ := Prod.mk.inj heq
    exact (readContent_suffix hcontent).trans
      ((List.tail_suffix rest').trans (readToken_suffix htoken))
  · exact nomatch h

/-- What a separator takes away is a semicolon and blanks. -/
theorem readSeparator_eq {bs rest : List UInt8}
    (h : readSeparator bs = some rest) :
    ∃ before after, bs = before ++ 59 :: (after ++ rest) ∧
      (∀ b ∈ before, isBlank b = true) ∧ ∀ b ∈ after, isBlank b = true := by
  unfold readSeparator at h
  split at h
  · next hhead =>
      obtain ⟨tail, htail⟩ := List.head?_eq_some_iff.1 hhead
      have hbs : bs.takeWhile isBlank ++ 59 :: tail = bs := by
        rw [← htail]
        exact List.takeWhile_append_dropWhile
      rw [htail] at h
      have hrest : tail.takeWhile isBlank ++ rest = tail := by
        rw [← Option.some.inj h]
        exact List.takeWhile_append_dropWhile
      refine ⟨bs.takeWhile isBlank, tail.takeWhile isBlank, ?_,
        fun _ => List.mem_takeWhile_imp, fun _ => List.mem_takeWhile_imp⟩
      rw [hrest, hbs]
  · exact nomatch h

theorem readSeparator_length {bs rest : List UInt8}
    (h : readSeparator bs = some rest) : rest.length < bs.length := by
  obtain ⟨before, after, rfl, _, _⟩ := readSeparator_eq h
  simp only [List.length_append, List.length_cons]
  omega

/-- Parameters, each after a separator; between two separators there may be
none. -/
def readParameters (bs : List UInt8) : Option (List (String × List UInt8)) :=
  if bs.all isBlank then some []
  else
    match _ : readSeparator bs with
    | none => none
    | some rest =>
        if rest = [] ∨ rest.head? = some 59 then readParameters rest
        else
          match _ : readParameter rest with
          | none => none
          | some (parameter, rest') =>
              (readParameters rest').map (parameter :: ·)
termination_by bs.length
decreasing_by
  · exact readSeparator_length ‹_›
  · exact Nat.lt_of_le_of_lt (readParameter_suffix ‹_›).length_le
      (readSeparator_length ‹_›)

def readValue (bs : List UInt8) : Option FieldValue :=
  (readToken bs).bind fun (type, rest) =>
    (readParameters rest).map fun parameters => ⟨lowerName type, parameters⟩

/-! ## A value with one parameter -/

/-- Where there are no parameters there is nothing but blanks and
semicolons. -/
theorem readParameters_nil {bs : List UInt8}
    (h : readParameters bs = some []) :
    ∀ b ∈ bs, isBlank b = true ∨ b = 59 := by
  fun_induction readParameters bs with
  | case1 bs hblank =>
      exact fun b hb => .inl (List.all_eq_true.1 hblank b hb)
  | case2 => exact nomatch h
  | case3 bs _ rest hseparator _ ih =>
      obtain ⟨before, after, rfl, hbefore, hafter⟩ := readSeparator_eq hseparator
      intro b hb
      simp only [List.mem_append, List.mem_cons] at hb
      rcases hb with hb | rfl | hb | hb
      · exact .inl (hbefore b hb)
      · exact .inr rfl
      · exact .inl (hafter b hb)
      · exact ih h b hb
  | case4 => exact nomatch h
  | case5 =>
      obtain ⟨_, _, heq⟩ := Option.map_eq_some_iff.1 h
      exact nomatch heq

theorem readParameters_empty : readParameters [] = some [] := by
  rw [readParameters]
  rfl

def IsToken (bs : List UInt8) : Prop :=
  bs ≠ [] ∧ bs.all isTchar = true

section OneParameter

variable {type name : List UInt8}

theorem isBlank_of_isTchar {b : UInt8} (h : isTchar b = true) :
    isBlank b = false := by
  cases hblank : isBlank b with
  | false => rfl
  | true =>
      simp only [isBlank, Bool.or_eq_true, decide_eq_true_eq] at hblank
      rcases hblank with rfl | rfl
      · exact absurd h (by decide)
      · exact absurd h (by decide)

theorem readToken_append (htype : IsToken type) {b : UInt8}
    (hb : isTchar b = false) (rest : List UInt8) :
    readToken (type ++ b :: rest) = some (type, b :: rest) := by
  have hstop : ¬ isTchar b = true := ne_true_of_eq_false hb
  have htchar := List.all_eq_true.1 htype.2
  rw [readToken, List.takeWhile_append_of_pos htchar,
    List.dropWhile_append_of_pos htchar, List.takeWhile_cons_of_neg hstop,
    List.dropWhile_cons_of_neg hstop, List.append_nil, if_neg htype.1]

theorem readParameter_quoted (hname : IsToken name) (bs : List UInt8) :
    readParameter (name ++ 61 :: 34 :: bs) =
      (readQuoted false bs).map fun (said, rest) =>
        ((lowerName name, said), rest) := by
  rw [readParameter, readToken_append hname (by decide)]
  rfl

/-- Parameters are read up to the quoted string of the first. -/
theorem readParameters_quoted (hname : IsToken name) (bs : List UInt8) :
    readParameters (59 :: 32 :: (name ++ 61 :: 34 :: bs)) =
      (readQuoted false bs).bind fun (said, rest) =>
        (readParameters rest).map ((lowerName name, said) :: ·) := by
  obtain ⟨n, ns, rfl⟩ := List.exists_cons_of_ne_nil hname.1
  have hn : isTchar n = true :=
    List.all_eq_true.1 hname.2 n List.mem_cons_self
  have hseparator : readSeparator (59 :: 32 :: (n :: ns ++ 61 :: 34 :: bs)) =
      some (n :: ns ++ 61 :: 34 :: bs) := by
    have hblank : ¬ isBlank n = true :=
      ne_true_of_eq_false (isBlank_of_isTchar hn)
    have hrest : (32 :: (n :: ns ++ 61 :: 34 :: bs)).dropWhile isBlank =
        n :: ns ++ 61 :: 34 :: bs := by
      rw [List.dropWhile_cons_of_pos (by decide), List.cons_append,
        List.dropWhile_cons_of_neg hblank]
    rw [readSeparator, List.dropWhile_cons_of_neg (by decide),
      if_pos (by rfl), List.tail_cons, hrest]
  rw [readParameters, if_neg (by simp [isBlank])]
  split
  · next hnone => exact absurd (hseparator.symm.trans hnone) nofun
  · next rest hsome =>
      obtain rfl : n :: ns ++ 61 :: 34 :: bs = rest :=
        Option.some.inj (hseparator.symm.trans hsome)
      have hsemicolon : n ≠ 59 := by
        rintro rfl
        exact absurd hn (by decide)
      rw [if_neg (by simp [hsemicolon])]
      have hparameter := readParameter_quoted hname bs
      cases hquoted : readQuoted false bs with
      | none =>
          rw [hquoted] at hparameter
          split
          · rfl
          · next hread => exact absurd (hparameter.symm.trans hread) nofun
      | some pair =>
          rw [hquoted] at hparameter
          split
          · next hnone => exact absurd (hparameter.symm.trans hnone) nofun
          · next parameter rest' hread =>
              obtain ⟨rfl, rfl⟩ :=
                Prod.mk.inj (Option.some.inj (hparameter.symm.trans hread))
              rfl

theorem readValue_quoted (htype : IsToken type) (hname : IsToken name)
    (bs : List UInt8) :
    readValue (type ++ 59 :: 32 :: (name ++ 61 :: 34 :: bs)) =
      (readQuoted false bs).bind fun (said, rest) =>
        (readParameters rest).map fun parameters =>
          ⟨lowerName type, (lowerName name, said) :: parameters⟩ := by
  rw [readValue, readToken_append htype (by decide)]
  dsimp only [Option.bind_some]
  rw [readParameters_quoted hname]
  cases readQuoted false bs with
  | none => rfl
  | some pair =>
      dsimp only [Option.bind_some]
      rw [Option.map_map]
      rfl

/-- A value with one quoted parameter is one whose quoted string goes up to
the last mark. -/
theorem readValue_quoted_iff (htype : IsToken type) (hname : IsToken name)
    (raw said : List UInt8) :
    readValue (type ++ 59 :: 32 :: (name ++ 61 :: 34 :: (raw ++ [34]))) =
        some ⟨lowerName type, [(lowerName name, said)]⟩ ↔
      readQuoted false (raw ++ [34]) = some (said, []) := by
  rw [readValue_quoted htype hname]
  constructor
  · intro h
    obtain ⟨⟨said', rest⟩, hread, h⟩ := Option.bind_eq_some_iff.1 h
    obtain ⟨parameters, hparameters, heq⟩ := Option.map_eq_some_iff.1 h
    obtain ⟨_, hlist⟩ := FieldValue.mk.inj heq
    obtain ⟨hfirst, rfl⟩ := List.cons.inj hlist
    obtain ⟨_, rfl⟩ := Prod.mk.inj hfirst
    -- what follows would have to end in the last mark
    rcases List.suffix_concat_iff.1 (readQuoted_suffix hread) with
      rfl | ⟨before, rfl, _⟩
    · exact hread
    · have hlast := readParameters_nil hparameters 34
        (List.mem_append_right before (List.mem_singleton_self 34))
      exact absurd hlast (by decide)
  · intro h
    rw [h]
    dsimp only [Option.bind_some]
    rw [readParameters_empty]
    rfl

end OneParameter

/-! ## Characters -/

/-- The characters a quoted string holds as they are. -/
def StandsForItself (c : Char) : Prop :=
  c ≠ '"' ∧ c ≠ '\\' ∧ (c = '\t' ∨ 32 ≤ c.toNat ∧ c.toNat ≠ 127)

instance (c : Char) : Decidable (StandsForItself c) :=
  inferInstanceAs (Decidable (c ≠ '"' ∧ c ≠ '\\' ∧
    (c = '\t' ∨ 32 ≤ c.toNat ∧ c.toNat ≠ 127)))

theorem utf8EncodeChar_of_lt {c : Char} (h : c.toNat < 128) :
    String.utf8EncodeChar c = [UInt8.ofNat c.toNat] := by
  unfold String.utf8EncodeChar
  exact if_pos (Nat.le_of_lt_succ h)

theorem not_isAscii_of_mem_utf8EncodeChar {c : Char} (h : 128 ≤ c.toNat)
    {b : UInt8} (hb : b ∈ String.utf8EncodeChar c) : isAscii b = false := by
  have hlow : ∀ n : Nat, 128 ≤ n % 256 → isAscii (UInt8.ofNat n) = false := by
    intro n hn
    rw [isAscii, decide_eq_false_iff_not, UInt8.toNat_ofNat']
    omega
  unfold String.utf8EncodeChar at hb
  dsimp only at hb
  rw [if_neg (show ¬ c.val.toNat ≤ 127 from Nat.not_le.2 h)] at hb
  -- the leading octet is at least 192, the others at least 128
  split at hb
  · simp only [List.mem_cons, List.not_mem_nil, or_false] at hb
    rcases hb with rfl | rfl
    all_goals exact hlow _ (by omega)
  · split at hb
    · simp only [List.mem_cons, List.not_mem_nil, or_false] at hb
      rcases hb with rfl | rfl | rfl
      all_goals exact hlow _ (by omega)
    · simp only [List.mem_cons, List.not_mem_nil, or_false] at hb
      rcases hb with rfl | rfl | rfl | rfl
      all_goals exact hlow _ (by omega)

/-- The ASCII characters of a text, as octets. -/
def asciiOctets (text : String) : List UInt8 :=
  (text.toList.filter (·.toNat < 128)).map fun c => UInt8.ofNat c.toNat

theorem isAscii_ofNat {n : Nat} (h : n < 128) :
    isAscii (UInt8.ofNat n) = true := by
  rw [isAscii, decide_eq_true_eq, UInt8.toNat_ofNat']
  omega

theorem filter_isAscii_octets (text : String) :
    (octets text).filter isAscii = asciiOctets text := by
  unfold octets asciiOctets
  induction text.toList with
  | nil => rfl
  | cons c cs ih =>
      rw [List.flatMap_cons, List.filter_append, ih]
      by_cases hc : c.toNat < 128
      · rw [utf8EncodeChar_of_lt hc, List.filter_cons_of_pos (isAscii_ofNat hc),
          List.filter_cons_of_pos (p := fun c : Char => decide (c.toNat < 128))
            (decide_eq_true hc)]
        rfl
      · rw [List.filter_eq_nil_iff.2 fun b hb => ne_true_of_eq_false
            (not_isAscii_of_mem_utf8EncodeChar (Nat.not_lt.1 hc) hb),
          List.filter_cons_of_neg (by simpa using hc), List.nil_append]

theorem isQdtext_iff (b : UInt8) :
    isQdtext b = true ↔
      (b.toNat = 9 ∨ 32 ≤ b.toNat ∧ b.toNat ≠ 127) ∧ b.toNat ≠ 34 ∧
        b.toNat ≠ 92 := by
  simp only [isQdtext, isText, Bool.and_eq_true, Bool.or_eq_true,
    decide_eq_true_eq, bne_iff_ne, ne_eq, ← UInt8.toNat_inj, and_assoc]
  rfl

theorem isQdtext_of_not_isAscii {b : UInt8} (h : isAscii b = false) :
    isQdtext b = true := by
  have hlarge : ¬ b.toNat < 128 := of_decide_eq_false h
  rw [isQdtext_iff]
  omega

theorem isQdtext_ofNat_iff {c : Char} (h : c.toNat < 128) :
    isQdtext (UInt8.ofNat c.toNat) = true ↔ StandsForItself c := by
  have hoctet : (UInt8.ofNat c.toNat).toNat = c.toNat := by
    rw [UInt8.toNat_ofNat']
    omega
  rw [isQdtext_iff, hoctet]
  simp only [StandsForItself, ne_eq, ← Char.toNat_inj]
  have hquote : '"'.toNat = 34 := rfl
  have hbackslash : '\\'.toNat = 92 := rfl
  have htab : '\t'.toNat = 9 := rfl
  rw [hquote, hbackslash, htab]
  tauto

/-- The octets of a text stand for themselves when its characters do. -/
theorem isQdtext_octets_iff (text : String) :
    (∀ b ∈ octets text, isQdtext b = true) ↔
      ∀ c ∈ text.toList, StandsForItself c := by
  have hchar : ∀ c, (∀ b ∈ String.utf8EncodeChar c, isQdtext b = true) ↔
      StandsForItself c := by
    intro c
    by_cases hc : c.toNat < 128
    · rw [utf8EncodeChar_of_lt hc, List.forall_mem_singleton,
        isQdtext_ofNat_iff hc]
    · have hlarge := Nat.not_lt.1 hc
      refine iff_of_true (fun b hb => isQdtext_of_not_isAscii
        (not_isAscii_of_mem_utf8EncodeChar hlarge hb)) ?_
      refine ⟨?_, ?_, .inr ⟨by omega, by omega⟩⟩
      all_goals
        rintro rfl
        exact absurd hlarge (by decide)
  unfold octets
  simp only [List.mem_flatMap, forall_exists_index, and_imp]
  constructor
  · intro h c hc
    exact (hchar c).1 fun b hb => h b c hc hb
  · intro h b c hc hb
    exact (hchar c).2 (h c hc) b hb

/-! ## Charsets -/

/-- How octets are read as a text; ASCII is read as ASCII, and nothing else
is. -/
structure Charset where
  decode : List UInt8 → Option String
  ascii : ∀ {bs text}, decode bs = some text →
    bs.filter isAscii = asciiOctets text

def utf8 : Charset where
  decode bs := String.fromUTF8? bs.toByteArray
  ascii := by
    intro bs text h
    have hbytes : text.toByteArray = bs.toByteArray := by
      unfold String.fromUTF8? at h
      split at h
      · rw [← Option.some.inj h]
        rfl
      · exact nomatch h
    rw [← String.utf8Encode_toList, List.utf8Encode] at hbytes
    rw [← List.toByteArray_inj.1 hbytes]
    exact filter_isAscii_octets text

theorem utf8_decode_octets (text : String) :
    utf8.decode (octets text) = some text := by
  have hbytes : (octets text).toByteArray = text.toByteArray :=
    String.utf8Encode_toList
  show String.fromUTF8? (octets text).toByteArray = some text
  rw [hbytes, String.fromUTF8?, dif_pos text.isValidUTF8]
  rfl

theorem toNat_ofNat_toNat (b : UInt8) :
    (Char.ofNat b.toNat).toNat = b.toNat := by
  have hvalid : b.toNat.isValidChar :=
    .inl (Nat.lt_trans b.toNat_lt (by decide))
  rw [Char.ofNat, dif_pos hvalid]
  rfl

/-- One character for each octet. -/
def latin1 : Charset where
  decode bs := some (String.ofList (bs.map fun b => Char.ofNat b.toNat))
  ascii := by
    intro bs text h
    have hoctet : ((fun c : Char => UInt8.ofNat c.toNat) ∘
        fun b : UInt8 => Char.ofNat b.toNat) = id := by
      funext b
      show UInt8.ofNat (Char.ofNat b.toNat).toNat = b
      rw [toNat_ofNat_toNat, UInt8.ofNat_toNat]
    rw [← Option.some.inj h, asciiOctets, String.toList_ofList,
      List.filter_map, List.map_map, hoctet, List.map_id]
    refine List.filter_congr fun b _ => ?_
    show isAscii b = decide ((Char.ofNat b.toNat).toNat < 128)
    rw [toNat_ofNat_toNat, isAscii]

theorem length_le_octets (cs : List Char) :
    cs.length ≤ (cs.flatMap String.utf8EncodeChar).length := by
  induction cs with
  | nil => exact Nat.le_refl 0
  | cons c cs ih =>
      have hpos := c.utf8Size_pos
      rw [List.flatMap_cons, List.length_append, String.length_utf8EncodeChar,
        List.length_cons]
      omega

/-- A text is all ASCII when it takes one octet for each character. -/
theorem lt_of_length_octets_le {cs : List Char}
    (h : (cs.flatMap String.utf8EncodeChar).length ≤ cs.length) :
    ∀ c ∈ cs, c.toNat < 128 := by
  induction cs with
  | nil => exact nofun
  | cons c cs ih =>
      have hrest := length_le_octets cs
      have hpos := c.utf8Size_pos
      rw [List.flatMap_cons, List.length_append, String.length_utf8EncodeChar,
        List.length_cons] at h
      have hone : c.utf8Size = 1 := by omega
      rw [Char.utf8Size_eq_one_iff, UInt32.le_iff_toNat_le] at hone
      exact List.forall_mem_cons.2
        ⟨Nat.lt_succ_of_le hone, ih (by omega)⟩

/-- It reads back the texts that are all ASCII. -/
theorem latin1_decode_octets_iff (text : String) :
    latin1.decode (octets text) = some text ↔
      ∀ c ∈ text.toList, c.toNat < 128 := by
  have hdecode : latin1.decode (octets text) = some text ↔
      (octets text).map (fun b => Char.ofNat b.toNat) = text.toList := by
    show some (String.ofList _) = some text ↔ _
    rw [Option.some_inj, ← String.toList_inj, String.toList_ofList]
  rw [hdecode]
  constructor
  · intro h
    apply lt_of_length_octets_le
    exact le_of_eq ((List.length_map _).symm.trans (congrArg List.length h))
  · unfold octets
    induction text.toList with
    | nil => exact fun _ => rfl
    | cons c cs ih =>
        intro h
        have hc := h c List.mem_cons_self
        have hchar : Char.ofNat (UInt8.ofNat c.toNat).toNat = c := by
          rw [UInt8.toNat_ofNat', Nat.mod_eq_of_lt (by omega), Char.ofNat_toNat]
        rw [List.flatMap_cons, utf8EncodeChar_of_lt hc, List.singleton_append,
          List.map_cons, hchar, ih fun d hd => h d (List.mem_cons_of_mem c hd)]

/-- A text comes back out of quotation marks exactly when its characters
stand for themselves, and the charset reads its octets. -/
theorem quoted_iff (charset : Charset) (text : String) :
    (∃ said, readQuoted false (octets text ++ [34]) = some (said, []) ∧
        charset.decode said = some text) ↔
      (∀ c ∈ text.toList, StandsForItself c) ∧
        charset.decode (octets text) = some text := by
  constructor
  · rintro ⟨said, hread, hdecode⟩
    rcases readQuoted_whole hread with ⟨_, rfl, hqd⟩ | hless
    · exact ⟨(isQdtext_octets_iff text).1 hqd, hdecode⟩
    · -- the charset makes as many characters of what was read
      have hsaid := congrArg List.length (charset.ascii hdecode)
      have hraw := congrArg List.length (filter_isAscii_octets text)
      rw [← List.countP_eq_length_filter] at hsaid hraw
      rw [hsaid, hraw] at hless
      exact absurd hless (Nat.not_succ_le_self _)
  · rintro ⟨hchars, hdecode⟩
    exact ⟨octets text,
      readQuoted_of_isQdtext ((isQdtext_octets_iff text).2 hchars), hdecode⟩

end Videum.Common
