import Videum.Common.Language
import Videum.Videos.Service

/-!
# The parts of an upload

How many part URLs `StorageService.initiateMultipartUpload`
(`storage/storage.service.ts`) hands out depends on a number of the
environment, which `config/storage.config.ts` reads with `parseInt` whatever
`config/env.validation.ts` has let through: a part size may be zero, negative
or no number at all.  The loop runs up to whatever the division has given.

## Main results

* `partLoop_ofNat`, `partLoop_infinity` — the loop ends exactly where the
  number of parts is finite.
* `returns_of_config` — with the part size of a `VideoConfig` it returns the
  URLs of `Videum.Videos.getPresignedPartUrls`, where all of them are signed.
* `part_plan_iff` — when the parts cover the upload and are few enough.
-/

namespace Videum.Videos

open Videum.Common

/-- `storage.config.ts`: `partSizeBytes`, from `STORAGE_PART_SIZE_BYTES` where
the environment has it. -/
def partSizeBytes (raw : Option String) : Number :=
  parseInt (textOr raw "104857600")

namespace StorageService

/-- `Math.max(1, Math.ceil(sizeBytes / this.partSizeBytes))`. -/
def partCount (partSizeBytes : Number) (sizeBytes : Nat) : Number :=
  (Number.ofNat 1).max ((Number.ofNat sizeBytes).div partSizeBytes).ceil

/-- The loop of `getPresignedPartUrls` from `partNumber` on, with the `parts`
pushed so far, while every URL is signed; `none` when `fuel` turns are not
enough. -/
def partLoop (storageKey : String) (uploadId : Nat) (partCount : Number) :
    (fuel partNumber : Nat) → List PresignedPart → Option (List PresignedPart)
  | 0, _, _ => none
  | fuel + 1, partNumber, parts =>
      if (Number.ofNat partNumber).le partCount then
        partLoop storageKey uploadId partCount fuel (partNumber + 1)
          (parts ++ [⟨partNumber, storageKey, uploadId⟩])
      else some parts

/-- `getPresignedPartUrls` terminates and returns `parts`. -/
def Returns (storageKey : String) (uploadId : Nat) (partCount : Number)
    (parts : List PresignedPart) : Prop :=
  ∃ fuel, partLoop storageKey uploadId partCount fuel 1 [] = some parts

section Loop

variable {storageKey : String} {uploadId : Nat}

/-- The loop ends after the last part. -/
theorem partLoop_ofNat (n k partNumber : Nat) (parts : List PresignedPart)
    (h : n + 1 = partNumber + k) :
    partLoop storageKey uploadId (.ofNat n) (k + 1) partNumber parts =
      some (parts ++ (List.range' partNumber k).map fun i =>
        ⟨i, storageKey, uploadId⟩) := by
  induction k generalizing partNumber parts with
  | zero =>
      have hend : ¬ partNumber ≤ n := by omega
      simp [partLoop, Number.ofNat_le_ofNat, hend]
  | succ k ih =>
      have hturn : partNumber ≤ n := by omega
      rw [partLoop, Number.ofNat_le_ofNat, if_pos (decide_eq_true hturn),
        ih (partNumber + 1) _ (by omega), List.range'_succ, List.map_cons,
        List.append_assoc, List.singleton_append]

/-- With infinitely many parts it does not end. -/
theorem partLoop_infinity (fuel partNumber : Nat)
    (parts : List PresignedPart) :
    partLoop storageKey uploadId (.infinity false) fuel partNumber parts =
      none := by
  induction fuel generalizing partNumber parts with
  | zero => rfl
  | succ fuel ih =>
      rw [partLoop, Number.ofNat_le_infinity, if_pos rfl]
      exact ih _ _

/-- More turns do not change what the loop returns. -/
theorem partLoop_succ {count : Number} {fuel partNumber : Nat}
    {parts result : List PresignedPart}
    (h : partLoop storageKey uploadId count fuel partNumber parts =
      some result) :
    partLoop storageKey uploadId count (fuel + 1) partNumber parts =
      some result := by
  induction fuel generalizing partNumber parts with
  | zero => exact nomatch h
  | succ fuel ih =>
      rw [partLoop] at h ⊢
      by_cases hturn : (Number.ofNat partNumber).le count = true
      · rw [if_pos hturn] at h ⊢
        exact ih h
      · rw [if_neg hturn] at h ⊢
        exact h

theorem partLoop_le {count : Number} {fuel fuel' partNumber : Nat}
    {parts result : List PresignedPart}
    (h : partLoop storageKey uploadId count fuel partNumber parts =
      some result) (hle : fuel ≤ fuel') :
    partLoop storageKey uploadId count fuel' partNumber parts =
      some result := by
  induction hle with
  | refl => exact h
  | step _ ih => exact partLoop_succ ih

theorem Returns.unique {count : Number} {parts parts' : List PresignedPart}
    (h : Returns storageKey uploadId count parts)
    (h' : Returns storageKey uploadId count parts') : parts = parts' := by
  obtain ⟨fuel, hfuel⟩ := h
  obtain ⟨fuel', hfuel'⟩ := h'
  have hmax := partLoop_le hfuel (Nat.le_max_left fuel fuel')
  rw [partLoop_le hfuel' (Nat.le_max_right fuel fuel')] at hmax
  exact (Option.some.inj hmax).symm

theorem returns_ofNat (n : Nat) :
    Returns storageKey uploadId (.ofNat n)
      (presignedParts storageKey uploadId n) :=
  ⟨n + 1, partLoop_ofNat n n 1 [] (Nat.add_comm n 1)⟩

end Loop

/-! ## The number of parts -/

/-- A positive size over a positive part size, rounded up. -/
theorem partCount_ofNat {p sizeBytes : Nat} (hp : 0 < p)
    (hsize : 0 < sizeBytes) :
    partCount (.ofNat p) sizeBytes = .ofNat ⌈(sizeBytes : ℚ≥0) / p⌉₊ := by
  have hpos : (0 : ℚ≥0) < sizeBytes / p :=
    div_pos (Nat.cast_pos.2 hsize) (Nat.cast_pos.2 hp)
  rw [partCount, Number.ceil_div_ofNat sizeBytes hp,
    Number.max_one_ofNat (Nat.ceil_pos.2 hpos)]

theorem partCount_zero {sizeBytes : Nat} (hsize : 0 < sizeBytes) :
    partCount (.ofNat 0) sizeBytes = .infinity false := by
  rw [partCount, Number.ceil_div_zero hsize, Number.max_one_infinity]

/-- The part size of a `VideoConfig` gives the URLs of `createDraft`. -/
theorem returns_of_config (cfg : VideoConfig) (storageKey : String)
    (uploadId : Nat) {sizeBytes : Nat} (hsize : 0 < sizeBytes) :
    Returns storageKey uploadId
      (partCount (.ofNat cfg.partSizeBytes) sizeBytes)
      (presignedParts storageKey uploadId
        (Videos.partCount cfg sizeBytes)) := by
  have hp := cfg.partSize_pos
  have hceil : ⌈(sizeBytes : ℚ≥0) / cfg.partSizeBytes⌉₊ =
      (sizeBytes + cfg.partSizeBytes - 1) / cfg.partSizeBytes := by
    apply eq_of_forall_ge_iff
    intro n
    rw [Nat.ceil_le, div_le_iff₀ (Nat.cast_pos.2 hp),
      Nat.div_le_iff_le_mul_add_pred hp, ← Nat.cast_mul, Nat.cast_le,
      Nat.mul_comm]
    omega
  have hpositive : 1 ≤ (sizeBytes + cfg.partSizeBytes - 1) /
      cfg.partSizeBytes := by
    rw [Nat.le_div_iff_mul_le hp]
    omega
  rw [partCount_ofNat hp hsize, hceil, Videos.partCount,
    Nat.max_eq_right hpositive]
  exact returns_ofNat _

end StorageService

/-! ## The plan -/

/-- The upload gets parts `1`, …, `n` that cover it, the last one with
something left to carry, and S3 takes them all. -/
def Planned (storageKey : String) (uploadId : Nat) (raw : Option String)
    (sizeBytes : Nat) : Prop :=
  ∃ parts n p,
    StorageService.Returns storageKey uploadId
      (StorageService.partCount (partSizeBytes raw) sizeBytes) parts ∧
    parts.map PresignedPart.part_number = List.range' 1 n ∧
    (partSizeBytes raw).toRat? = some p ∧
    ((n : ℚ) - 1) * p < sizeBytes ∧ (sizeBytes : ℚ) ≤ n * p ∧
    n ≤ maxPartNumber

section Plan

variable {storageKey : String} {uploadId : Nat} {raw : Option String}
  {sizeBytes : Nat}

/-- Parts that cover the upload have a positive size, and are as many as it
takes. -/
theorem Planned.partSize (h : Planned storageKey uploadId raw sizeBytes)
    (hsize : 0 < sizeBytes) :
    ∃ p : Nat, partSizeBytes raw = .ofNat p ∧ 0 < p ∧
      sizeBytes ≤ maxPartNumber * p := by
  obtain ⟨parts, n, p, _, _, hp, _, hcover, hn⟩ := h
  have hpositive : 0 < (n : ℚ) * p :=
    lt_of_lt_of_le (Nat.cast_pos.2 hsize) hcover
  rcases parseInt_cases (textOr raw "104857600") with
    hnan | ⟨negative, k, hk⟩
  · rw [partSizeBytes, hnan] at hp
    exact nomatch hp
  · rw [partSizeBytes, hk] at hp
    cases negative with
    | true =>
        have hneg : p = -((k : ℚ≥0) : ℚ) := (Option.some.inj hp).symm
        have hle : (n : ℚ) * p ≤ 0 := by
          rw [hneg]
          exact mul_nonpos_of_nonneg_of_nonpos (Nat.cast_nonneg n)
            (neg_nonpos.2 (NNRat.coe_nonneg _))
        exact absurd hpositive (not_lt.2 hle)
    | false =>
        have heq : p = (k : ℚ) := (Option.some.inj hp).symm
        rw [heq] at hcover hpositive
        have hkpos : 0 < k := by
          rcases Nat.eq_zero_or_pos k with rfl | hkpos
          · simp at hpositive
          · exact hkpos
        refine ⟨k, hk, hkpos, ?_⟩
        have hcover' : sizeBytes ≤ n * k := by exact_mod_cast hcover
        exact le_trans hcover' (Nat.mul_le_mul_right k hn)

/-- Parts that are too small make none. -/
theorem not_planned {p : Nat} (hraw : partSizeBytes raw = .ofNat p)
    (hsize : 0 < sizeBytes) (hlarge : maxPartNumber * p < sizeBytes) :
    ¬ Planned storageKey uploadId raw sizeBytes := by
  intro h
  obtain ⟨p', hraw', _, hlimit⟩ := h.partSize hsize
  rw [hraw] at hraw'
  rw [← Number.ofNat_injective hraw'] at hlimit
  omega

/-- A positive part size that is large enough makes a plan. -/
theorem planned_of_partSize {p : Nat} (hraw : partSizeBytes raw = .ofNat p)
    (hp : 0 < p) (hsize : 0 < sizeBytes)
    (hlimit : sizeBytes ≤ maxPartNumber * p) :
    Planned storageKey uploadId raw sizeBytes := by
  have hppos : (0 : ℚ≥0) < p := Nat.cast_pos.2 hp
  have hn : 0 < ⌈(sizeBytes : ℚ≥0) / p⌉₊ :=
    Nat.ceil_pos.2 (div_pos (Nat.cast_pos.2 hsize) hppos)
  refine ⟨presignedParts storageKey uploadId ⌈(sizeBytes : ℚ≥0) / p⌉₊,
    ⌈(sizeBytes : ℚ≥0) / p⌉₊, p, ?_, ?_, ?_, ?_, ?_, ?_⟩
  · rw [hraw, StorageService.partCount_ofNat hp hsize]
    exact StorageService.returns_ofNat _
  · rw [presignedParts, List.map_map]
    exact List.map_id _
  · rw [hraw]
    rfl
  · have hlt : ((⌈(sizeBytes : ℚ≥0) / p⌉₊ - 1 : ℕ) : ℚ≥0) * p < sizeBytes :=
      (lt_div_iff₀ hppos).1 (Nat.lt_ceil.1 (Nat.sub_lt hn Nat.one_pos))
    rw [← Nat.cast_pred hn]
    exact_mod_cast hlt
  · have hle : (sizeBytes : ℚ≥0) ≤ ⌈(sizeBytes : ℚ≥0) / p⌉₊ * p :=
      (div_le_iff₀ hppos).1 (Nat.le_ceil _)
    exact_mod_cast hle
  · rw [Nat.ceil_le, div_le_iff₀ hppos]
    exact_mod_cast hlimit

/--
**The multipart plan.**  For every setting of `STORAGE_PART_SIZE_BYTES`, or
none, and every draft that is accepted: the loop of `initiateMultipartUpload`
ends and its parts cover the upload within the limit of S3 exactly when the
setting is read as a positive part size of which ten thousand are enough.
-/
theorem part_plan_iff (storageKey : String) (uploadId : Nat)
    (raw : Option String) (dto : CreateVideoDto) :
    Planned storageKey uploadId raw dto.size_bytes ↔
      ∃ p : Nat, partSizeBytes raw = .ofNat p ∧ 0 < p ∧
        dto.size_bytes ≤ maxPartNumber * p := by
  constructor
  · exact fun h => h.partSize dto.size_range.1
  · rintro ⟨p, hraw, hp, hlimit⟩
    exact planned_of_partSize hraw hp dto.size_range.1 hlimit

end Plan

/-! ## Settings that are accepted -/

/-- `Joi.number()`, as far as it is relied on: it accepts the decimal numeral
of every safe integer. -/
structure NumberSchema where
  accepts : String → Bool
  safe : ∀ n : Nat, n ≤ 2 ^ 53 - 1 → accepts (toString n) = true

/-- One that accepts nothing else. -/
def numerals : NumberSchema where
  accepts text :=
    let n := Nat.ofDigitChars 10 text.toList 0
    text == toString n && n ≤ 2 ^ 53 - 1
  safe := by
    intro n hn
    have hdigits : Nat.ofDigitChars 10 (toString n).toList 0 = n := by
      rw [Nat.toString_eq_ofList_toDigits, String.toList_ofList]
      exact Nat.ofDigitChars_ten_toDigits
    simp only [hdigits, beq_self_eq_true, Bool.true_and, decide_eq_true_eq]
    exact hn

/-- A draft of the largest size. -/
def largestDraft : CreateVideoDto where
  title := "A long film"
  filename := "film.mkv"
  content_type := "video/x-matroska"
  size_bytes := maxUploadBytes
  title_length := by decide
  filename_length := by decide
  content_type_length := by decide
  size_range := by decide

/-- The largest upload does not fit into ten thousand parts of one mebibyte,
and with parts of no size the loop does not end; both settings are numerals
that `Joi.number()` accepts. -/
theorem part_plan_broken :
    (numerals.accepts "1048576" = true ∧
      ¬ Planned "videos/a/original" 0 (some "1048576")
        largestDraft.size_bytes) ∧
    (numerals.accepts "0" = true ∧
      ¬ ∃ parts, StorageService.Returns "videos/a/original" 0
        (StorageService.partCount (partSizeBytes (some "0"))
          largestDraft.size_bytes) parts) ∧
    ¬ ∃ schema : NumberSchema, ∀ raw, schema.accepts raw = true →
      ∀ dto : CreateVideoDto,
        Planned "videos/a/original" 0 (some raw) dto.size_bytes := by
  have hmebibyte : partSizeBytes (some "1048576") = .ofNat 1048576 := by rfl
  have hzero : partSizeBytes (some "0") = .ofNat 0 := by rfl
  have hlarge : ¬ Planned "videos/a/original" 0 (some "1048576")
      largestDraft.size_bytes :=
    not_planned hmebibyte (by decide) (by decide)
  refine ⟨⟨by decide, hlarge⟩, ⟨by decide, ?_⟩, ?_⟩
  · rintro ⟨parts, fuel, hreturns⟩
    rw [hzero, StorageService.partCount_zero (by decide),
      StorageService.partLoop_infinity] at hreturns
    exact nomatch hreturns
  · rintro ⟨schema, hplanned⟩
    exact hlarge (hplanned "1048576" (schema.safe 1048576 (by decide))
      largestDraft)

end Videum.Videos
