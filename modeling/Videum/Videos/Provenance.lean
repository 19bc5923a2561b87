import Videum.Async.Logic
import Videum.Videos.Handover

/-!
# Where rows and objects come from

Entities are read, kept in memory and written back, so a row may be written
long after it was read.  This module follows every row and every in-memory
copy to the insertion it descends from, and every uploaded object to the one
multipart upload that may assemble it.  Both hold over every interleaving,
whatever fails.

## Main results

* `provenance_kept` — a call that obeys `Authorized` keeps the provenance.
* `provenance_of_reachable` — every run has it, and obeys that law.
-/

namespace Videum.Videos

open Videum.Async

/-! ## Reading the log -/

/-- The row an answer has inserted. -/
def VideoOp.insertedRow : (op : VideoOp) → Except VideoError op.Res →
    Option Video
  | .insertVideo _, .ok r => some r
  | _, _ => none

/-- The object an answer has shown, with its size. -/
def VideoOp.seenObject : (op : VideoOp) → Except VideoError op.Res →
    Option (String × Nat)
  | .headObject key, .ok (some size) => some (key, size)
  | _, _ => none

/-- `r` was inserted, as it stands here. -/
def Inserted (log : VideoLog) (r : Video) : Prop :=
  ∃ x ∈ log, x.op.insertedRow x.res = some r

/-- A HEAD request has shown `key` with this size. -/
def Seen (log : VideoLog) (key : String) (size : Nat) : Prop :=
  ∃ x ∈ log, x.op.seenObject x.res = some (key, size)

theorem Inserted.mono {old new : VideoLog} (h : old <:+ new) {r : Video}
    (hr : Inserted old r) : Inserted new r := by
  obtain ⟨x, hx, hrow⟩ := hr
  exact ⟨x, h.subset hx, hrow⟩

theorem Seen.mono {old new : VideoLog} (h : old <:+ new) {key : String}
    {size : Nat} (hs : Seen old key size) : Seen new key size := by
  obtain ⟨x, hx, hseen⟩ := hs
  exact ⟨x, h.subset hx, hseen⟩

/-- `r` is a later state of the row `r₀`: the columns written once are
unchanged, and the upload id is gone or still there. -/
structure Descends (r r₀ : Video) : Prop where
  id : r.id = r₀.id
  storage_key : r.storage_key = r₀.storage_key
  size_bytes : r.size_bytes = r₀.size_bytes
  upload_id : r.upload_id = none ∨ r.upload_id = r₀.upload_id

theorem Descends.refl (r : Video) : Descends r r := ⟨rfl, rfl, rfl, .inr rfl⟩

/-- The video `r` has an ancestor among the inserted rows. -/
def Known (log : VideoLog) (r : Video) : Prop :=
  ∃ r₀, Inserted log r₀ ∧ Descends r r₀

theorem Known.mono {old new : VideoLog} (h : old <:+ new) {r : Video}
    (hr : Known old r) : Known new r := by
  obtain ⟨r₀, hr₀, hdesc⟩ := hr
  exact ⟨r₀, hr₀.mono h, hdesc⟩

/-! ## Keys -/

/-- A thumbnail is never stored under the key of an upload. -/
theorem thumbnailKeyFor_ne (key publicId : String) :
    thumbnailKeyFor key ≠ storageKeyFor publicId := by
  intro h
  have hlast := congrArg (fun s => s.toList.getLast?) h
  have hjpg : "/thumbnail.jpg".toList.getLast? = some 'g' := by decide
  have horiginal : "/original".toList.getLast? = some 'l' := by decide
  simp only [thumbnailKeyFor, storageKeyFor, String.toList_append,
    List.getLast?_append, hjpg, horiginal, Option.some_or] at hlast
  exact absurd hlast (by decide)

/-! ## The invariant -/

/-- Rows descend from insertions, and an uploaded object from the completed
upload of its row. -/
structure Provenance (s : Store) (log : VideoLog) : Prop where
  rows : ∀ r ∈ s.videos, Known log r
  kept : ∀ r₀, Inserted log r₀ → ∃ r ∈ s.videos, Descends r r₀
  fresh : ∀ r₀, Inserted log r₀ → r₀.id < s.nextVideoId
  original : ∀ r₀, Inserted log r₀ → ∃ publicId,
    r₀.storage_key = storageKeyFor publicId
  unique_id : ∀ r₀ r₁, Inserted log r₀ → Inserted log r₁ →
    r₀.id = r₁.id → r₀ = r₁
  unique_key : ∀ r₀ r₁, Inserted log r₀ → Inserted log r₁ →
    r₀.storage_key = r₁.storage_key → r₀ = r₁
  uploads : ∀ id u, s.uploads id = some u → id < s.nextUploadId
  objects : ∀ publicId size, s.objects (storageKeyFor publicId) = some size →
    ∃ r₀ id u, Inserted log r₀ ∧ r₀.storage_key = storageKeyFor publicId ∧
      r₀.upload_id = some id ∧ s.uploads id = some u ∧ u.completed = true

/-- Some thread has been handed a job for the video `id`. -/
def HandedOut (log : VideoLog) (id : Nat) : Prop :=
  ∃ x ∈ log, ∃ job, x.op.takenJob x.res = some job ∧ job.video_id = id

/-- The sweep has rescued the row `id`. -/
def Rescued (log : VideoLog) (id : Nat) : Prop :=
  ∃ x ∈ log, x.op = .updateVideo id rescuePatch ∧ x.res.isOk = true

/-- A HEAD request has shown the object of `v` with the declared size. -/
def Verified (log : VideoLog) (v : Video) : Prop :=
  Known log v ∧ Seen log v.storage_key v.size_bytes

/-- What the services may do, judged by the log. -/
def Authorized (log : VideoLog) : VideoOp → Prop
  | .insertVideo v =>
      v.status = .uploading ∧ ∃ publicId, v.storage_key = storageKeyFor publicId
  | .saveVideo v => v.upload_id = none ∧ Verified log v
  | .updateVideo id patch =>
      patch = rescuePatch ∧ (∃ r₀, Inserted log r₀ ∧ r₀.id = id) ∨
      patch = { status := some .failed } ∨
      HandedOut log id ∧ ∃ seconds key, patch =
        { duration_seconds := some seconds, thumbnail_key := some key
          status := some .ready }
  | .completeMultipartUpload key id _ =>
      ∃ r₀, Inserted log r₀ ∧ r₀.storage_key = key ∧ r₀.upload_id = some id
  | .putObject key _ _ => ∃ original, key = thumbnailKeyFor original
  | .addJob job =>
      Rescued log job.video_id ∨ ∃ v, v.id = job.video_id ∧ Verified log v
  | _ => True

theorem HandedOut.mono {old new : VideoLog} (h : old <:+ new) {id : Nat}
    (hid : HandedOut old id) : HandedOut new id := by
  obtain ⟨x, hx, hjob⟩ := hid
  exact ⟨x, h.subset hx, hjob⟩

theorem Rescued.mono {old new : VideoLog} (h : old <:+ new) {id : Nat}
    (hid : Rescued old id) : Rescued new id := by
  obtain ⟨x, hx, hrescue⟩ := hid
  exact ⟨x, h.subset hx, hrescue⟩

theorem Verified.mono {old new : VideoLog} (h : old <:+ new) {v : Video}
    (hv : Verified old v) : Verified new v :=
  ⟨hv.1.mono h, hv.2.mono h⟩

/-! ## Each call keeps it -/

section Step

variable {s : Store} {log : VideoLog}

/-- Entries that insert nothing add no rows to descend from. -/
theorem Inserted.of_cons {x : VideoEntry} {r : Video}
    (hx : x.op.insertedRow x.res = none) (h : Inserted (x :: log) r) :
    Inserted log r := by
  obtain ⟨y, hy, hrow⟩ := h
  rcases List.mem_cons.1 hy with rfl | hy
  · rw [hx] at hrow
    exact nomatch hrow
  · exact ⟨y, hy, hrow⟩

/-- A call that inserts nothing keeps the provenance when rows keep
descending and no new upload object appears. -/
theorem Provenance.of_kept (h : Provenance s log) {s' : Store}
    {x : VideoEntry} (hx : x.op.insertedRow x.res = none)
    (hrows : ∀ r ∈ s'.videos, Known (x :: log) r)
    (hkept : ∀ r ∈ s.videos, ∀ r₀, Inserted log r₀ → Descends r r₀ →
      ∃ r' ∈ s'.videos, Descends r' r₀)
    (hnext : s.nextVideoId ≤ s'.nextVideoId)
    (huploads : ∀ id u, s'.uploads id = some u → id < s'.nextUploadId)
    (hobjects : ∀ publicId size,
      s'.objects (storageKeyFor publicId) = some size →
      ∃ r₀ id u, Inserted log r₀ ∧ r₀.storage_key = storageKeyFor publicId ∧
        r₀.upload_id = some id ∧ s'.uploads id = some u ∧
        u.completed = true) :
    Provenance s' (x :: log) := by
  have hback : ∀ r, Inserted (x :: log) r → Inserted log r :=
    fun r => Inserted.of_cons hx
  have hsuffix : log <:+ x :: log := List.suffix_cons x log
  refine { rows := hrows, kept := ?_, fresh := ?_, original := ?_,
           unique_id := ?_, unique_key := ?_, uploads := huploads,
           objects := ?_ }
  · intro r₀ hr₀
    obtain ⟨r, hr, hdesc⟩ := h.kept r₀ (hback r₀ hr₀)
    exact hkept r hr r₀ (hback r₀ hr₀) hdesc
  · intro r₀ hr₀
    have hlt := h.fresh r₀ (hback r₀ hr₀)
    omega
  · exact fun r₀ hr₀ => h.original r₀ (hback r₀ hr₀)
  · exact fun r₀ r₁ h₀ h₁ => h.unique_id r₀ r₁ (hback r₀ h₀) (hback r₁ h₁)
  · exact fun r₀ r₁ h₀ h₁ => h.unique_key r₀ r₁ (hback r₀ h₀) (hback r₁ h₁)
  · intro publicId size hobject
    obtain ⟨r₀, id, u, hr₀, hrest⟩ := hobjects publicId size hobject
    exact ⟨r₀, id, u, hr₀.mono hsuffix, hrest⟩

/-- A call that leaves the table and the uploads alone. -/
theorem Provenance.of_frame (h : Provenance s log) {s' : Store}
    {x : VideoEntry} (hx : x.op.insertedRow x.res = none)
    (hvideos : s'.videos = s.videos) (hnext : s'.nextVideoId = s.nextVideoId)
    (huploads : s'.uploads = s.uploads)
    (hnextUpload : s'.nextUploadId = s.nextUploadId)
    (hobjects : ∀ publicId, s'.objects (storageKeyFor publicId)
      = s.objects (storageKeyFor publicId)) :
    Provenance s' (x :: log) := by
  apply h.of_kept hx
  · intro r hr
    rw [hvideos] at hr
    exact (h.rows r hr).mono (List.suffix_cons x log)
  · intro r hr r₀ _ hdesc
    rw [hvideos]
    exact ⟨r, hr, hdesc⟩
  · omega
  · intro id u hu
    rw [huploads] at hu
    rw [hnextUpload]
    exact h.uploads id u hu
  · intro publicId size hobject
    rw [hobjects] at hobject
    rw [huploads]
    exact h.objects publicId size hobject

/-- The new row descends from itself, and its keys are new. -/
theorem Provenance.insertVideo (h : Provenance s log) {x : VideoEntry}
    {m : Moment} {v : NewVideo} (hinsert : s.insertable v = true)
    (hx : x.op.insertedRow x.res = some (s.newRow m v))
    (hkey : ∃ publicId, v.storage_key = storageKeyFor publicId) :
    Provenance
      { s with
        videos := s.videos ++ [s.newRow m v]
        nextVideoId := s.nextVideoId + 1 } (x :: log) := by
  have hsuffix : log <:+ x :: log := List.suffix_cons x log
  have hnew : Inserted (x :: log) (s.newRow m v) := ⟨x, .head _, hx⟩
  have hold : ∀ r, Inserted (x :: log) r →
      r = s.newRow m v ∨ Inserted log r := by
    rintro r ⟨y, hy, hrow⟩
    rcases List.mem_cons.1 hy with rfl | hy
    · rw [hx] at hrow
      exact .inl (Option.some.inj hrow).symm
    · exact .inr ⟨y, hy, hrow⟩
  have hkeys : ∀ r, Inserted log r → r.storage_key ≠ v.storage_key := by
    intro r hr heq
    obtain ⟨r', hr', hdesc⟩ := h.kept r hr
    simp only [Store.insertable, Bool.and_eq_true, List.all_eq_true,
      bne_iff_ne] at hinsert
    exact (hinsert.2 r' hr').2 (hdesc.storage_key.trans heq)
  have hids : ∀ r, Inserted log r → r.id ≠ s.nextVideoId := by
    intro r hr
    have hlt := h.fresh r hr
    omega
  refine { rows := ?_, kept := ?_, fresh := ?_, original := ?_,
           unique_id := ?_, unique_key := ?_, uploads := h.uploads,
           objects := ?_ }
  · intro r hr
    rcases List.mem_append.1 hr with hr | hr
    · exact (h.rows r hr).mono hsuffix
    · have heq := List.mem_singleton.1 hr
      subst heq
      exact ⟨_, hnew, .refl _⟩
  · intro r₀ hr₀
    rcases hold r₀ hr₀ with rfl | hr₀
    · exact ⟨_, List.mem_append_right _ (List.mem_singleton.2 rfl), .refl _⟩
    · obtain ⟨r, hr, hdesc⟩ := h.kept r₀ hr₀
      exact ⟨r, List.mem_append_left _ hr, hdesc⟩
  · intro r₀ hr₀
    show r₀.id < s.nextVideoId + 1
    rcases hold r₀ hr₀ with rfl | hr₀
    · exact Nat.lt_succ_self _
    · have hlt := h.fresh r₀ hr₀
      omega
  · intro r₀ hr₀
    rcases hold r₀ hr₀ with rfl | hr₀
    · exact hkey
    · exact h.original r₀ hr₀
  · intro r₀ r₁ hr₀ hr₁ heq
    rcases hold r₀ hr₀ with rfl | hr₀ <;> rcases hold r₁ hr₁ with rfl | hr₁
    · rfl
    · exact absurd heq.symm (hids r₁ hr₁)
    · exact absurd heq (hids r₀ hr₀)
    · exact h.unique_id r₀ r₁ hr₀ hr₁ heq
  · intro r₀ r₁ hr₀ hr₁ heq
    rcases hold r₀ hr₀ with rfl | hr₀ <;> rcases hold r₁ hr₁ with rfl | hr₁
    · rfl
    · exact absurd heq.symm (hkeys r₁ hr₁)
    · exact absurd heq (hkeys r₀ hr₀)
    · exact h.unique_key r₀ r₁ hr₀ hr₁ heq
  · intro publicId size hobject
    obtain ⟨r₀, id, u, hr₀, hrest⟩ := h.objects publicId size hobject
    exact ⟨r₀, id, u, hr₀.mono hsuffix, hrest⟩

/-- A row written back descends from the row it was read from. -/
theorem Provenance.saveVideo (h : Provenance s log) {x : VideoEntry}
    {v : Video} (hx : x.op.insertedRow x.res = none) (hv : Known log v) :
    Provenance (s.saveVideo v) (x :: log) := by
  obtain ⟨r₀, hr₀, hdesc⟩ := hv
  apply h.of_kept hx
  · intro r' hr'
    obtain ⟨r, hr, heq⟩ := List.mem_map.1 hr'
    by_cases hid : r.id = v.id
    · rw [if_pos hid] at heq
      subst heq
      exact ⟨r₀, hr₀.mono (List.suffix_cons x log), hdesc⟩
    · rw [if_neg hid] at heq
      subst heq
      exact (h.rows r hr).mono (List.suffix_cons x log)
  · intro r hr r₁ hr₁ hdesc₁
    refine ⟨_, List.mem_map_of_mem hr, ?_⟩
    by_cases hid : r.id = v.id
    · rw [if_pos hid]
      have hsame : r₁ = r₀ := by
        apply h.unique_id r₁ r₀ hr₁ hr₀
        rw [← hdesc₁.id, hid, hdesc.id]
      rw [hsame]
      exact hdesc
    · rw [if_neg hid]
      exact hdesc₁
  · exact Nat.le_refl _
  · exact h.uploads
  · exact h.objects

theorem Descends.apply {r r₀ : Video} (h : Descends r r₀) {patch : VideoPatch}
    (hpatch : patch.upload_id = none ∨ patch.upload_id = some none) :
    Descends (patch.apply r) r₀ := by
  refine ⟨h.id, h.storage_key, h.size_bytes, ?_⟩
  rcases hpatch with hpatch | hpatch
  · simpa only [VideoPatch.apply, hpatch, Option.getD_none] using h.upload_id
  · exact .inl (by simp only [VideoPatch.apply, hpatch, Option.getD_some])

/-- An update touches no column that is written once. -/
theorem Provenance.updateVideo (h : Provenance s log) {x : VideoEntry}
    {id : Nat} {patch : VideoPatch} (hx : x.op.insertedRow x.res = none)
    (hpatch : patch.upload_id = none ∨ patch.upload_id = some none) :
    Provenance (s.updateVideo id patch) (x :: log) := by
  have hdesc : ∀ r r₀, Descends r r₀ →
      Descends (if r.id = id then patch.apply r else r) r₀ := by
    intro r r₀ h
    by_cases hid : r.id = id
    · rw [if_pos hid]
      exact h.apply hpatch
    · rw [if_neg hid]
      exact h
  apply h.of_kept hx
  · intro r' hr'
    obtain ⟨r, hr, heq⟩ := List.mem_map.1 hr'
    obtain ⟨r₀, hr₀, hd⟩ := h.rows r hr
    rw [← heq]
    exact ⟨r₀, hr₀.mono (List.suffix_cons x log), hdesc r r₀ hd⟩
  · intro r hr r₀ _ hd
    exact ⟨_, List.mem_map_of_mem hr, hdesc r r₀ hd⟩
  · exact Nat.le_refl _
  · exact h.uploads
  · exact h.objects

theorem Provenance.createMultipartUpload (h : Provenance s log)
    {x : VideoEntry} (hx : x.op.insertedRow x.res = none) (m : Moment)
    (key : String) :
    Provenance (s.createMultipartUpload m key) (x :: log) := by
  apply h.of_kept hx
  · exact fun r hr => (h.rows r hr).mono (List.suffix_cons x log)
  · exact fun r hr r₀ _ hdesc => ⟨r, hr, hdesc⟩
  · exact Nat.le_refl _
  · intro id u hu
    show id < s.nextUploadId + 1
    by_cases hid : id = s.nextUploadId
    · omega
    · simp only [Store.createMultipartUpload, Function.update_of_ne hid] at hu
      have hlt := h.uploads id u hu
      omega
  · intro publicId size hobject
    obtain ⟨r₀, id, u, hr₀, hkey, hid, hu, hdone⟩ :=
      h.objects publicId size hobject
    refine ⟨r₀, id, u, hr₀, hkey, hid, ?_, hdone⟩
    have hlt := h.uploads id u hu
    have hne : id ≠ s.nextUploadId := by omega
    simp only [Store.createMultipartUpload, Function.update_of_ne hne]
    exact hu

/-- Replacing the session of an upload that was there. -/
theorem Provenance.uploads_update (h : Provenance s log) {id : Nat}
    {u u' : MultipartUpload} (hu : s.uploads id = some u) :
    ∀ id' v, Function.update s.uploads id (some u') id' = some v →
      id' < s.nextUploadId := by
  intro id' v hv
  by_cases hid : id' = id
  · rw [hid]
    exact h.uploads id u hu
  · rw [Function.update_of_ne hid] at hv
    exact h.uploads id' v hv

theorem Provenance.uploadPart (h : Provenance s log) {x : VideoEntry}
    (hx : x.op.insertedRow x.res = none) (id : Nat) (part : StoredPart) :
    Provenance (s.uploadPart id part).2 (x :: log) := by
  have hframe : Provenance s (x :: log) :=
    h.of_frame hx rfl rfl rfl rfl fun _ => rfl
  unfold Store.uploadPart
  cases hu : s.uploads id with
  | none => exact hframe
  | some u =>
      dsimp only
      split
      · exact hframe
      · next hopen =>
          apply h.of_kept hx
          · exact fun r hr => (h.rows r hr).mono (List.suffix_cons x log)
          · exact fun r hr r₀ _ hdesc => ⟨r, hr, hdesc⟩
          · exact Nat.le_refl _
          · exact h.uploads_update hu
          · intro publicId size hobject
            obtain ⟨r₀, id', u', hr₀, hkey, hid, hu', hdone⟩ :=
              h.objects publicId size hobject
            refine ⟨r₀, id', u', hr₀, hkey, hid, ?_, hdone⟩
            have hne : id' ≠ id := by
              intro heq
              rw [heq, hu] at hu'
              cases hu'
              exact hopen hdone
            show Function.update s.uploads id _ id' = _
            rw [Function.update_of_ne hne]
            exact hu'

/-- The assembled object is the one of the row the upload belongs to. -/
theorem Provenance.completeMultipartUpload (h : Provenance s log)
    {x : VideoEntry} (hx : x.op.insertedRow x.res = none)
    (rule : CompletionRule) {key : String} {id : Nat}
    (parts : List CompletedPart)
    (hlaw : ∃ r₀, Inserted log r₀ ∧ r₀.storage_key = key ∧
      r₀.upload_id = some id) :
    Provenance (s.completeMultipartUpload rule key id parts).2
      (x :: log) := by
  unfold Store.completeMultipartUpload
  cases hc : s.completable rule key id parts with
  | none => exact h.of_frame hx rfl rfl rfl rfl fun _ => rfl
  | some done =>
      obtain ⟨u, assembled⟩ := done
      have hu : s.uploads id = some u := Store.completable_upload hc
      apply h.of_kept hx
      · exact fun r hr => (h.rows r hr).mono (List.suffix_cons x log)
      · exact fun r hr r₀ _ hdesc => ⟨r, hr, hdesc⟩
      · exact Nat.le_refl _
      · exact h.uploads_update hu
      · intro publicId size hobject
        dsimp only [Store.putObject] at hobject ⊢
        by_cases hkey : storageKeyFor publicId = key
        · obtain ⟨r₀, hr₀, hkey₀, hid₀⟩ := hlaw
          exact ⟨r₀, id, { u with completed := true }, hr₀,
            hkey₀.trans hkey.symm, hid₀, Function.update_self .., rfl⟩
        · rw [Function.update_of_ne hkey] at hobject
          obtain ⟨r₀, id', u', hr₀, hkey₀, hid₀, hu', hdone⟩ :=
            h.objects publicId size hobject
          by_cases hid : id' = id
          · subst hid
            exact ⟨r₀, id', { u with completed := true }, hr₀, hkey₀, hid₀,
              Function.update_self .., rfl⟩
          · refine ⟨r₀, id', u', hr₀, hkey₀, hid₀, ?_, hdone⟩
            rw [Function.update_of_ne hid]
            exact hu'

theorem Provenance.putObject (h : Provenance s log) {x : VideoEntry}
    (hx : x.op.insertedRow x.res = none) (original : String) (size : Nat) :
    Provenance (s.putObject (thumbnailKeyFor original) size) (x :: log) := by
  have hother : ∀ publicId,
      (s.putObject (thumbnailKeyFor original) size).objects
        (storageKeyFor publicId) = s.objects (storageKeyFor publicId) := by
    intro publicId
    have hne := (thumbnailKeyFor_ne original publicId).symm
    exact Store.putObject_objects_ne s size hne
  exact h.of_frame hx rfl rfl rfl rfl hother

end Step

/-- Calls that obey the law keep the provenance. -/
theorem provenance_kept (cfg : VideoConfig)
    (P : Policy VideoIface Moment VideoError Store VideoRequest VideoReply) :
    KeptBy (videoSystem cfg) P Provenance
      fun log _ _ op => Authorized log op := by
  intro t request m op fault s log h hlaw _ _
  cases fault with
  | some e =>
      have hnone : op.insertedRow (.error e) = none := by
        cases op <;> rfl
      exact h.of_frame hnone rfl rfl rfl rfl fun _ => rfl
  | none =>
      cases op with
      | insertVideo v =>
          by_cases hinsert : s.insertable v = true
          · have hexec : s.insertVideo m v = (.ok (s.newRow m v),
                { s with
                  videos := s.videos ++ [s.newRow m v]
                  nextVideoId := s.nextVideoId + 1 }) := if_pos hinsert
            have hstate : ((videoSystem cfg).answer m (.insertVideo v) none
                s).2 = _ := congrArg Prod.snd hexec
            rw [hstate]
            apply h.insertVideo hinsert ?_ hlaw.2
            show VideoOp.insertedRow (.insertVideo v)
              (s.insertVideo m v).1 = _
            rw [hexec]
            rfl
          · have hexec : s.insertVideo m v = (.error .database, s) :=
              if_neg hinsert
            have hstate : ((videoSystem cfg).answer m (.insertVideo v) none
                s).2 = _ := congrArg Prod.snd hexec
            rw [hstate]
            apply h.of_frame ?_ rfl rfl rfl rfl fun _ => rfl
            show VideoOp.insertedRow (.insertVideo v)
              (s.insertVideo m v).1 = _
            rw [hexec]
            rfl
      | saveVideo v => exact h.saveVideo rfl hlaw.2.1
      | updateVideo id patch =>
          rcases Store.exec_updateVideo_cases m id patch s with hexec | hexec
          · have hstate : ((videoSystem cfg).answer m (.updateVideo id patch)
                none s).2 = s.updateVideo id patch := congrArg Prod.snd hexec
            rw [hstate]
            apply h.updateVideo rfl
            rcases hlaw with ⟨rfl, _⟩ | rfl | ⟨_, _, _, rfl⟩
            · exact .inr rfl
            · exact .inl rfl
            · exact .inl rfl
          · have hstate : ((videoSystem cfg).answer m (.updateVideo id patch)
                none s).2 = s := congrArg Prod.snd hexec
            rw [hstate]
            exact h.of_frame rfl rfl rfl rfl rfl fun _ => rfl
      | createMultipartUpload key contentType =>
          exact h.createMultipartUpload rfl m key
      | uploadPart id part => exact h.uploadPart rfl id part
      | completeMultipartUpload key id parts =>
          exact h.completeMultipartUpload rfl m.completion parts hlaw
      | putObject key size contentType =>
          obtain ⟨original, rfl⟩ := hlaw
          exact h.putObject rfl original size
      | takeJob =>
          have hframe : (s.takeJob m.pick).2.videos = s.videos ∧
              (s.takeJob m.pick).2.nextVideoId = s.nextVideoId ∧
              (s.takeJob m.pick).2.uploads = s.uploads ∧
              (s.takeJob m.pick).2.nextUploadId = s.nextUploadId ∧
              (s.takeJob m.pick).2.objects = s.objects := by
            unfold Store.takeJob
            split
            · split <;> exact ⟨rfl, rfl, rfl, rfl, rfl⟩
            · exact ⟨rfl, rfl, rfl, rfl, rfl⟩
          obtain ⟨hvideos, hnext, huploads, hnextUpload, hobjects⟩ := hframe
          exact h.of_frame rfl hvideos hnext huploads hnextUpload
            fun publicId => congrFun hobjects _
      | _ => exact h.of_frame rfl rfl rfl rfl rfl fun _ => rfl

/-! ## The programs obey the law -/

theorem Authorized.mono {old new : VideoLog} (h : old <:+ new) {op : VideoOp}
    (hop : Authorized old op) : Authorized new op := by
  cases op with
  | insertVideo v => exact hop
  | saveVideo v => exact ⟨hop.1, hop.2.mono h⟩
  | updateVideo id patch =>
      rcases hop with ⟨hpatch, r₀, hr₀, hid⟩ | hfailed | ⟨hjob, hpatch⟩
      · exact .inl ⟨hpatch, r₀, hr₀.mono h, hid⟩
      · exact .inr (.inl hfailed)
      · exact .inr (.inr ⟨hjob.mono h, hpatch⟩)
  | completeMultipartUpload key id parts =>
      obtain ⟨r₀, hr₀, hrest⟩ := hop
      exact ⟨r₀, hr₀.mono h, hrest⟩
  | addJob job =>
      rcases hop with hrescued | ⟨v, hid, hv⟩
      · exact .inl (hrescued.mono h)
      · exact .inr ⟨v, hid, hv.mono h⟩
  | putObject key size contentType => exact hop
  | _ => trivial

/-- The program obeys the law from here on. -/
abbrev Obeys {α : Type} (cfg : VideoConfig)
    (P : Policy VideoIface Moment VideoError Store VideoRequest VideoReply)
    (t : Nat) (request : VideoRequest) (p : VideoProg α) (m : Moment)
    (log : VideoLog) : Prop :=
  wpLaw (videoSystem cfg) P Provenance (fun log _ _ op => Authorized log op)
    t request (fun _ _ _ => True) p m log

section Programs

variable {cfg : VideoConfig}
  {P : Policy VideoIface Moment VideoError Store VideoRequest VideoReply}
  {t : Nat} {request : VideoRequest} {α : Type} {m₀ : Moment}
  {log : VideoLog}

theorem Obeys.call_bind {op : VideoOp} {f : op.Res → VideoProg α}
    (hlaw : Authorized log op)
    (hf : ∀ (log' : VideoLog) (s : Store) (m : Moment) (v : op.Res),
      log <:+ log' → Provenance s log' → (Store.exec m op s).1 = .ok v →
      Obeys cfg P t request (f v) m
        ((videoSystem cfg).entry t request m op none s :: log')) :
    Obeys cfg P t request (await op >>= f) m₀ log := by
  apply wpLaw_call (provenance_kept cfg P) (fun _ _ _ => trivial)
  · exact fun log' hothers => hlaw.mono hothers.suffix
  · intro log' s m v hothers hinv _ hexec
    exact hf log' s m v hothers.suffix hinv hexec

/-- A last call. -/
theorem Obeys.call {op : VideoOp} (hlaw : Authorized log op) :
    Obeys cfg P t request (await op) m₀ log := by
  apply wpLaw_await (provenance_kept cfg P)
  · exact fun log' hothers => hlaw.mono hothers.suffix
  · intro log' s m fault _ _ _ _
    cases ((videoSystem cfg).answer m op fault s).1 <;> trivial

theorem Obeys.tryCatch {p : VideoProg α} {h : VideoError → VideoProg α}
    (hp : Obeys cfg P t request p m₀ log)
    (hh : ∀ e m log', log <:+ log' → Obeys cfg P t request (h e) m log') :
    Obeys cfg P t request (p.tryCatch h) m₀ log := by
  apply wp_tryCatch
  apply wp_mono ?_ (wp_suffix hp)
  rintro r m log' ⟨_, hsuffix⟩
  cases r with
  | ok v => trivial
  | error e => exact hh e m log' hsuffix

theorem Obeys.tryFinally {p : VideoProg α} {q : VideoProg Unit}
    (hp : Obeys cfg P t request p m₀ log)
    (hq : ∀ m log', Obeys cfg P t request q m log') :
    Obeys cfg P t request (p.tryFinally q) m₀ log := by
  apply wp_tryFinally
  apply wp_mono ?_ hp
  intro r m log' _
  apply wp_mono ?_ (hq m log')
  intro r' _ _ _
  cases r' <;> trivial

theorem Obeys.bind {β : Type} {p : VideoProg α} {f : α → VideoProg β}
    (hp : Obeys cfg P t request p m₀ log)
    (hf : ∀ a m log', log <:+ log' → Obeys cfg P t request (f a) m log') :
    Obeys cfg P t request (p >>= f) m₀ log := by
  apply wp_bind
  apply wp_mono ?_ (wp_suffix hp)
  rintro r m log' ⟨_, hsuffix⟩
  cases r with
  | ok a => exact hf a m log' hsuffix
  | error e => trivial

/-- The log keeps what a HEAD request has shown. -/
theorem seen_of_head {m : Moment} {s : Store} {key : String} {size : Nat}
    (h : (Store.exec m (.headObject key) s).1 = .ok (some size)) :
    Seen ((videoSystem cfg).entry t request m (.headObject key) none s :: log)
      key size := by
  have hobject : s.objects key = some size := Except.ok.inj h
  refine ⟨_, .head _, ?_⟩
  show VideoOp.seenObject (.headObject key) (.ok (s.objects key)) = _
  rw [hobject]
  rfl

theorem getPresignedPartUrls_obeys (storageKey : String)
    (uploadId n : Nat) :
    Obeys cfg P t request (getPresignedPartUrls cfg storageKey uploadId n) m₀
      log := by
  have hloop : Obeys cfg P t request (Prog.forEach (List.range' 1 n)
      fun partNumber => await (.getSignedUrl storageKey uploadId partNumber
        cfg.presignExpirySeconds)) m₀ log := by
    apply wp_forEach
    · exact fun _ _ _ => trivial
    · exact fun _ _ _ => trivial
    · exact fun _ _ m log' _ => Obeys.call (by trivial)
  exact hloop.bind fun _ _ _ _ => trivial

theorem createDraft_obeys (ownerId : Nat) (dto : CreateVideoDto) :
    Obeys cfg P t request (createDraft cfg ownerId dto) m₀ log := by
  have hinitiate : Obeys cfg P t request (initiateMultipartUpload cfg
      (storageKeyFor m₀.publicId) dto.content_type dto.size_bytes) m₀ log := by
    apply Obeys.call_bind (by trivial)
    intro log' s m created _ _ _
    cases created with
    | none => trivial
    | some uploadId =>
        exact (getPresignedPartUrls_obeys _ uploadId _).bind
          fun _ _ _ _ => trivial
  apply hinitiate.bind
  intro upload m log' _
  apply Obeys.call_bind
  · exact ⟨rfl, m₀.publicId, rfl⟩
  · intros
    trivial

theorem finalizeUpload_obeys {video : Video} (hv : Verified log video) :
    Obeys cfg P t request (finalizeUpload video) m₀ log := by
  obtain ⟨⟨r₀, hr₀, hdesc⟩, hseen⟩ := hv
  have hmarked : Verified log
      { video with status := .processing, upload_id := none } :=
    ⟨⟨r₀, hr₀, hdesc.id, hdesc.storage_key, hdesc.size_bytes, .inl rfl⟩,
      hseen⟩
  apply Obeys.call_bind
  · exact ⟨rfl, hmarked⟩
  · intro log' s m _ hsuffix _ _
    apply Obeys.call_bind
    · have hmono := hmarked.mono (hsuffix.trans (List.suffix_cons
        ((videoSystem cfg).entry t request m (.saveVideo
          { video with status := .processing, upload_id := none }) none s)
        log'))
      exact .inr ⟨{ video with status := .processing, upload_id := none },
        rfl, hmono⟩
    · intros
      trivial

theorem assembleUpload_obeys {video : Video} {uploadId : Nat}
    (hknown : Known log video) (hupload : video.upload_id = some uploadId)
    (dto : CompleteUploadDto) :
    Obeys cfg P t request (assembleUpload video uploadId dto) m₀ log := by
  have hlaw : ∀ parts, Authorized log
      (.completeMultipartUpload video.storage_key uploadId parts) := by
    intro parts
    obtain ⟨r₀, hr₀, hdesc⟩ := hknown
    refine ⟨r₀, hr₀, hdesc.storage_key.symm, ?_⟩
    rcases hdesc.upload_id with hnone | hsame
    · exact nomatch hupload.symm.trans hnone
    · exact hsame.symm.trans hupload
  apply Obeys.bind
  · exact Obeys.tryCatch (.call (hlaw _)) fun _ _ _ _ => trivial
  · intro _ m log' hsuffix
    apply Obeys.call_bind (by trivial)
    intro log'' s m' head hsuffix' _ hexec
    cases head with
    | none => trivial
    | some size =>
        dsimp only
        by_cases hsize : size = video.size_bytes
        · rw [if_neg (not_not_intro hsize)]
          apply finalizeUpload_obeys
          constructor
          · exact hknown.mono (hsuffix.trans (hsuffix'.trans
              (List.suffix_cons _ _)))
          · rw [← hsize]
            exact seen_of_head hexec
        · rw [if_pos hsize]
          trivial

theorem completeUpload_obeys (uuid : String → Option String)
    (ownerId : Nat) (publicId : String) (dto : CompleteUploadDto) :
    Obeys cfg P t request (completeUpload uuid ownerId publicId dto) m₀
      log := by
  unfold completeUpload findOneByPublicId
  cases uuid publicId with
  | none => trivial
  | some id =>
      apply Obeys.call_bind (by trivial)
      intro log' s m video? hsuffix hinv hexec
      cases video? with
      | none => trivial
      | some video =>
          have hfound : s.videos.find? (·.public_id == id) = some video :=
            Except.ok.inj hexec
          have hknown := hinv.rows video (List.mem_of_find?_eq_some hfound)
          dsimp only
          split
          · trivial
          · split
            · trivial
            · cases hupload : video.upload_id with
              | none => trivial
              | some uploadId =>
                  exact assembleUpload_obeys
                    (hknown.mono (List.suffix_cons _ _)) hupload dto

theorem reconcile_obeys {video : Video} (hknown : Known log video) :
    Obeys cfg P t request (reconcile video) m₀ log := by
  apply Obeys.call_bind (by trivial)
  intro log' s m head hsuffix _ _
  cases head with
  | none => exact Obeys.call (.inr (.inl rfl))
  | some size =>
      obtain ⟨r₀, hr₀, hdesc⟩ := hknown
      have hr₀' := hr₀.mono (hsuffix.trans (List.suffix_cons
        ((videoSystem cfg).entry t request m
          (.headObject video.storage_key) none s) log'))
      apply Obeys.call_bind
      · exact .inl ⟨rfl, r₀, hr₀', hdesc.id.symm⟩
      · intro log'' s' m' _ _ _ _
        exact Obeys.call (.inl ⟨_, .head _, rfl, rfl⟩)

theorem sweep_obeys : Obeys cfg P t request (sweep cfg) m₀ log := by
  show Obeys cfg P t request (await (.findStaleVideos _) >>= _) m₀ log
  apply Obeys.call_bind (by trivial)
  intro log' s m stale _ hinv hexec
  have hstale : s.videos.filter (fun r => r.status = .uploading ∧
      r.created_at < m₀.now - cfg.abandonedUploadTimeoutMs) = stale :=
    Except.ok.inj hexec
  apply wp_forEach
  · exact fun _ _ _ => trivial
  · exact fun _ _ _ => trivial
  · intro video hvideo m' log'' hsuffix
    rw [← hstale] at hvideo
    have hknown := hinv.rows video (List.mem_of_mem_filter hvideo)
    have hrec : Obeys cfg P t request (reconcile video) m' log'' :=
      reconcile_obeys (hknown.mono ((List.suffix_cons _ _).trans hsuffix))
    exact hrec.tryCatch fun _ _ _ _ => trivial

theorem processFile_obeys {job : ProcessVideoJobData}
    (hjob : HandedOut log job.video_id) :
    Obeys cfg P t request (processFile job) m₀ log := by
  have hprobe : ∀ m log', Obeys cfg P t request probeDuration m log' := by
    intro m log'
    apply Obeys.call_bind (by trivial)
    intros
    trivial
  apply Obeys.bind (.call (by trivial))
  intro _ m₁ log₁ h₁
  apply (hprobe m₁ log₁).bind
  intro seconds m₂ log₂ h₂
  apply Obeys.bind (.call (by trivial))
  intro _ m₃ log₃ h₃
  apply Obeys.bind (.call (by trivial))
  intro thumbnail m₄ log₄ h₄
  have hput : Authorized log₄ (.putObject (thumbnailKeyFor job.storage_key)
      thumbnail "image/jpeg") := ⟨job.storage_key, rfl⟩
  apply Obeys.bind (.call hput)
  intro _ m₅ log₅ h₅
  apply Obeys.call
  have hlater := hjob.mono (h₁.trans (h₂.trans (h₃.trans (h₄.trans h₅))))
  exact .inr (.inr ⟨hlater, _, _, rfl⟩)

theorem processVideo_obeys {job : ProcessVideoJobData}
    (hjob : HandedOut log job.video_id) :
    Obeys cfg P t request (processVideo job) m₀ log := by
  apply Obeys.bind (.call (by trivial))
  intro _ m log' hsuffix
  apply Obeys.tryFinally
  · apply (processFile_obeys (hjob.mono hsuffix)).tryCatch
    intro error m' log'' _
    have hfailed : Authorized log'' (.updateVideo job.video_id
        { status := some .failed }) := .inr (.inl rfl)
    apply Obeys.bind (.call hfailed)
    intros
    trivial
  · exact fun m' log'' => .call (by trivial)

theorem deliver_obeys : Obeys cfg P t request deliver m₀ log := by
  apply Obeys.call_bind (by trivial)
  intro log' s m job? _ _ hexec
  cases job? with
  | none => trivial
  | some job =>
      have htaken : (s.takeJob m.pick).1 = some job := Except.ok.inj hexec
      have hjob : HandedOut ((videoSystem cfg).entry t request m .takeJob none
          s :: log') job.video_id := ⟨_, .head _, job, htaken, rfl⟩
      apply Obeys.bind (.call (by trivial))
      intro video? m' log'' hsuffix
      cases video? with
      | none => trivial
      | some video =>
          dsimp only
          split
          · trivial
          · exact processVideo_obeys (hjob.mono hsuffix)

/-- Every request obeys the law. -/
theorem serve_obeys (request' : VideoRequest) :
    Obeys cfg P t request (serve cfg request') m₀ log := by
  cases request' with
  | createDraft ownerId dto =>
      exact (createDraft_obeys ownerId dto).bind fun _ _ _ _ => trivial
  | completeUpload ownerId publicId dto =>
      exact (completeUpload_obeys cfg.uuid ownerId publicId dto).bind
        fun _ _ _ _ => trivial
  | uploadPart uploadId part =>
      exact Obeys.bind (.call (by trivial)) fun _ _ _ _ => trivial
  | sweep => exact sweep_obeys.bind fun _ _ _ _ => trivial
  | deliver => exact deliver_obeys.bind fun _ _ _ _ => trivial
  | closeJob i =>
      exact Obeys.bind (.call (by trivial)) fun _ _ _ _ => trivial

end Programs

theorem provenance_empty : Provenance {} [] :=
  { rows := nofun
    kept := fun _ ⟨_, h, _⟩ => nomatch h
    fresh := fun _ ⟨_, h, _⟩ => nomatch h
    original := fun _ ⟨_, h, _⟩ => nomatch h
    unique_id := fun _ _ ⟨_, h, _⟩ => nomatch h
    unique_key := fun _ _ ⟨_, h, _⟩ => nomatch h
    uploads := nofun
    objects := nofun }

/-- Every run has the provenance, and obeys the law. -/
theorem provenance_of_reachable {cfg : VideoConfig}
    {P : Policy VideoIface Moment VideoError Store VideoRequest VideoReply}
    {c : VideoRun} (h : Reachable (videoSystem cfg) P {} c) :
    Provenance c.state c.log ∧
      Obeyed (fun log _ _ op => Authorized log op) c.log := by
  apply h.lawful provenance_empty
  intro c request m _ _ _
  exact serve_obeys request

end Videum.Videos
