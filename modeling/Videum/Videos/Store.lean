import Mathlib.Data.List.Sort
import Mathlib.Logic.Function.Basic
import Videum.Async.Machine
import Videum.Common.Exceptions

/-!
# The three stores of the upload flow

The `videos` table, the object storage and the `video-processing` queue, with
the calls the services make on them (`videos/entities/video.entity.ts`,
`storage/storage.service.ts`, `videos/videos.constants.ts`).  Every call is
one atomic step on the shared `Store`.

* `save(entity)` on a loaded entity writes every loaded column, so the row
  becomes the in-memory entity; `update({ id }, patch)` writes the columns of
  the patch and no other.
* A multipart upload is completed at most once, and its object is visible
  only from then on.  Which reports of parts the storage accepts is up to it,
  within the laws of a `CompletionRule`.
* A job is taken from the waiting jobs and runs until the queue closes it; as
  long as it runs, the queue may take it for stalled and hand it out again.

The command-line tools of the worker (`ffprobe`, `ffmpeg`) answer whatever
the moment says: nothing is assumed about them.
-/

namespace Videum.Videos

open Videum.Async
open Videum.Common

/-! ## Rows, objects and jobs -/

inductive VideoStatus
  | uploading
  | processing
  | ready
  | failed
  deriving DecidableEq, Repr

/-- `videos` row.  Dates are milliseconds since the epoch. -/
structure Video where
  id : Nat
  public_id : String
  owner_id : Nat
  title : String
  original_filename : String
  storage_key : String
  upload_id : Option Nat
  size_bytes : Nat
  content_type : String
  status : VideoStatus
  duration_seconds : Option Int
  thumbnail_key : Option String
  created_at : Int
  deriving DecidableEq, Repr

/-- The columns `createDraft` sets on a new row. -/
structure NewVideo where
  public_id : String
  owner_id : Nat
  title : String
  original_filename : String
  storage_key : String
  upload_id : Option Nat
  size_bytes : Nat
  content_type : String
  status : VideoStatus
  deriving DecidableEq, Repr

/-- The partial entity of an `update`; `none` leaves a column alone. -/
structure VideoPatch where
  status : Option VideoStatus := none
  upload_id : Option (Option Nat) := none
  duration_seconds : Option Int := none
  thumbnail_key : Option String := none
  deriving DecidableEq, Repr

def VideoPatch.apply (p : VideoPatch) (v : Video) : Video :=
  { v with
    status := p.status.getD v.status
    upload_id := p.upload_id.getD v.upload_id
    duration_seconds := p.duration_seconds.or v.duration_seconds
    thumbnail_key := p.thumbnail_key.or v.thumbnail_key }

/-- The values of a column of type `int`. -/
def isInt4 (n : Int) : Bool :=
  -2147483648 ≤ n && n ≤ 2147483647

/-- The values of the patch fit their columns.  Its only other value that may
be long is the key of a thumbnail, which is shorter than the column wherever
the public id is a `uuid`. -/
def VideoPatch.fits (p : VideoPatch) : Bool :=
  p.duration_seconds.all isInt4

/-- `ProcessVideoJobData`. -/
structure ProcessVideoJobData where
  video_id : Nat
  storage_key : String
  deriving DecidableEq, Repr

/-- `CompletedPart`: what the client reports about a part. -/
structure CompletedPart where
  part_number : Nat
  etag : String
  deriving DecidableEq, Repr

/-- A part the storage holds. -/
structure StoredPart where
  part_number : Nat
  etag : String
  size : Nat
  deriving DecidableEq, Repr

/-- A multipart upload session of the storage. -/
structure MultipartUpload where
  key : String
  started_at : Int
  parts : List StoredPart
  completed : Bool
  deriving DecidableEq, Repr

/-- The part an upload holds under this number: the last one uploaded. -/
def partAt (uploaded : List StoredPart) (number : Nat) : Option StoredPart :=
  uploaded.find? (·.part_number == number)

/-- The size of the object a reported part list assembles, when every part
is there. -/
def MultipartUpload.assemble (u : MultipartUpload) :
    List CompletedPart → Option Nat
  | [] => some 0
  | p :: rest =>
      (partAt u.parts p.part_number).bind fun stored =>
        (u.assemble rest).map (stored.size + ·)

/-- Part numbers have to be strictly ascending. -/
def ascending : List CompletedPart → Bool
  | p :: q :: rest => p.part_number < q.part_number && ascending (q :: rest)
  | _ => true

/-- Which reports the storage accepts for the parts an upload holds.  Sizes
and checksums are its own affair; what it documents for all of them is that
the numbers ascend and that each of them is the number of a part. -/
structure CompletionRule where
  accepts : List StoredPart → List CompletedPart → Bool
  ascending : ∀ uploaded report, accepts uploaded report = true →
    ascending report = true
  stored : ∀ uploaded report, accepts uploaded report = true →
    ∀ p ∈ report, (partAt uploaded p.part_number).isSome = true

/-- The largest part number S3 takes. -/
def maxPartNumber : Nat := 10000

/-- The smallest part S3 takes, but for the last one: 5 MiB. -/
def minPartBytes : Nat := 5242880

/-- The reported part is the stored one, with its number and its ETag. -/
def reportedAs (uploaded : List StoredPart) (p : CompletedPart) : Bool :=
  1 ≤ p.part_number && p.part_number ≤ maxPartNumber &&
    (partAt uploaded p.part_number).any (·.etag == p.etag)

/-- Every part but the last one is large enough. -/
def largeEnough (uploaded : List StoredPart) (report : List CompletedPart) :
    Bool :=
  report.dropLast.all fun p =>
    (partAt uploaded p.part_number).all (minPartBytes ≤ ·.size)

/-- The rule of S3, with ETags written as the storage has answered them. -/
def s3Accepts (uploaded : List StoredPart) (report : List CompletedPart) :
    Bool :=
  report ≠ [] && ascending report && report.all (reportedAs uploaded) &&
    largeEnough uploaded report

theorem ascending_of_s3Accepts (uploaded : List StoredPart)
    (report : List CompletedPart) (h : s3Accepts uploaded report = true) :
    ascending report = true := by
  simp only [s3Accepts, Bool.and_eq_true] at h
  exact h.1.1.2

theorem stored_of_s3Accepts (uploaded : List StoredPart)
    (report : List CompletedPart) (h : s3Accepts uploaded report = true) :
    ∀ p ∈ report, (partAt uploaded p.part_number).isSome = true := by
  intro p hp
  simp only [s3Accepts, Bool.and_eq_true, List.all_eq_true] at h
  have hreported := h.1.2 p hp
  simp only [reportedAs, Bool.and_eq_true] at hreported
  exact Option.isSome_of_any hreported.2

def s3Rule : CompletionRule where
  accepts := s3Accepts
  ascending := ascending_of_s3Accepts
  stored := stored_of_s3Accepts

structure Store where
  videos : List Video := []
  nextVideoId : Nat := 0
  objects : String → Option Nat := fun _ => none
  uploads : Nat → Option MultipartUpload := fun _ => none
  nextUploadId : Nat := 0
  waiting : List ProcessVideoJobData := []
  running : List ProcessVideoJobData := []

/-- Which job the queue hands to a worker: a waiting one, or once more one
that is running and that it takes for stalled. -/
inductive JobPick
  | fresh (i : Nat)
  | again (i : Nat)
  deriving DecidableEq, Repr

/-- What the outside world decides at one moment: the clock, the next
`uuidv7()`, the rule of the storage, the queue's choice, and the outputs of
the tools.  `probe` is the number `parseFloat` reads from the output of
`ffprobe`, `none` when it is not finite. -/
structure Moment where
  now : Int := 0
  publicId : String := ""
  completion : CompletionRule := s3Rule
  pick : JobPick := .fresh 0
  probe : Option Rat := none
  thumbnailSize : Nat := 0

inductive VideoError
  | domain (e : DomainException)
  | database
  | storage
  | queue
  | tool
  deriving DecidableEq, Repr

/-! ## Awaited calls -/

inductive VideoOp
  | insertVideo (v : NewVideo)
  | findVideoByPublicId (publicId : String)
  | findVideoById (id : Nat)
  | findStaleVideos (cutoff : Int)
  | saveVideo (v : Video)
  | updateVideo (id : Nat) (patch : VideoPatch)
  | createMultipartUpload (key contentType : String)
  | getSignedUrl (key : String) (uploadId partNumber expiresIn : Nat)
  | uploadPart (uploadId : Nat) (part : StoredPart)
  | completeMultipartUpload (key : String) (uploadId : Nat)
      (parts : List CompletedPart)
  | headObject (key : String)
  | downloadToFile (key : String)
  | putObject (key : String) (size : Nat) (contentType : String)
  | addJob (job : ProcessVideoJobData)
  | takeJob
  | closeJob (i : Nat)
  | mkdtemp
  | ffprobe
  | ffmpeg (seek : Nat)
  | readFile
  | rm
  deriving DecidableEq

def VideoOp.Res : VideoOp → Type
  | .insertVideo _ => Video
  | .findVideoByPublicId _ | .findVideoById _ => Option Video
  | .findStaleVideos _ => List Video
  | .createMultipartUpload _ _ => Option Nat
  | .headObject _ => Option Nat
  | .takeJob => Option ProcessVideoJobData
  | .ffprobe => Option Rat
  | .readFile => Nat
  | _ => Unit

/-- The calls that change a row that is already there. -/
def VideoOp.rewritesRow : VideoOp → Bool
  | .saveVideo _ => true
  | .updateVideo _ _ => true
  | _ => false

/-- The call that adds a row. -/
def VideoOp.inserts : VideoOp → Bool
  | .insertVideo _ => true
  | _ => false

/-- The calls that may store an object. -/
def VideoOp.storesObject : VideoOp → Bool
  | .putObject _ _ _ => true
  | .completeMultipartUpload _ _ _ => true
  | _ => false

/-- The call that starts an upload. -/
def VideoOp.startsUpload : VideoOp → Bool
  | .createMultipartUpload _ _ => true
  | _ => false

/-- The calls on uploads. -/
def VideoOp.writesUpload : VideoOp → Bool
  | .createMultipartUpload _ _ => true
  | .uploadPart _ _ => true
  | .completeMultipartUpload _ _ _ => true
  | _ => false

/-- The calls on the queue. -/
def VideoOp.writesQueue : VideoOp → Bool
  | .addJob _ => true
  | .takeJob => true
  | .closeJob _ => true
  | _ => false

abbrev VideoIface : Iface := ⟨VideoOp, VideoOp.Res⟩

namespace Store

/-- The row inserted for `v`: the database supplies the primary key and
`created_at`. -/
def newRow (s : Store) (m : Moment) (v : NewVideo) : Video :=
  { id := s.nextVideoId
    public_id := v.public_id
    owner_id := v.owner_id
    title := v.title
    original_filename := v.original_filename
    storage_key := v.storage_key
    upload_id := v.upload_id
    size_bytes := v.size_bytes
    content_type := v.content_type
    status := v.status
    duration_seconds := none
    thumbnail_key := none
    created_at := m.now }

/-- The column constraints of the table: lengths, and the unique `public_id`
and `storage_key`. -/
def insertable (s : Store) (v : NewVideo) : Bool :=
  v.title.length ≤ 255 && v.original_filename.length ≤ 255 &&
  v.storage_key.length ≤ 512 && v.content_type.length ≤ 127 &&
  s.videos.all fun r =>
    r.public_id != v.public_id && r.storage_key != v.storage_key

def insertVideo (s : Store) (m : Moment) (v : NewVideo) :
    Except VideoError Video × Store :=
  if s.insertable v then
    (.ok (s.newRow m v),
      { s with
        videos := s.videos ++ [s.newRow m v]
        nextVideoId := s.nextVideoId + 1 })
  else (.error .database, s)

/-- `repository.save` of a loaded entity.  Its row exists: no call deletes
from `videos`. -/
def saveVideo (s : Store) (v : Video) : Store :=
  { s with videos := s.videos.map fun r => if r.id = v.id then v else r }

/-- `repository.update({ id }, patch)`, when the values fit. -/
def updateVideo (s : Store) (id : Nat) (patch : VideoPatch) : Store :=
  { s with
    videos := s.videos.map fun r => if r.id = id then patch.apply r else r }

def createMultipartUpload (s : Store) (m : Moment) (key : String) : Store :=
  { s with
    uploads := Function.update s.uploads s.nextUploadId
      (some ⟨key, m.now, [], false⟩)
    nextUploadId := s.nextUploadId + 1 }

/-- A part is accepted as long as its upload is open. -/
def uploadPart (s : Store) (uploadId : Nat) (part : StoredPart) :
    Except VideoError Unit × Store :=
  match s.uploads uploadId with
  | some u =>
      if u.completed then (.error .storage, s)
      else
        (.ok (), { s with
          uploads := Function.update s.uploads uploadId
            (some { u with parts := part :: u.parts }) })
  | none => (.error .storage, s)

/-- The upload and the object size, when this completion goes through. -/
def completable (s : Store) (rule : CompletionRule) (key : String)
    (uploadId : Nat) (parts : List CompletedPart) :
    Option (MultipartUpload × Nat) :=
  (s.uploads uploadId).bind fun u =>
    if u.key = key ∧ u.completed = false ∧ rule.accepts u.parts parts then
      (u.assemble parts).map fun size => (u, size)
    else none

theorem completable_upload {s : Store} {rule : CompletionRule} {key : String}
    {uploadId : Nat} {parts : List CompletedPart} {u : MultipartUpload} {size : Nat}
    (h : s.completable rule key uploadId parts = some (u, size)) :
    s.uploads uploadId = some u := by
  obtain ⟨u', hu', hrest⟩ := Option.bind_eq_some_iff.1 h
  split at hrest
  · obtain ⟨_, _, heq⟩ := Option.map_eq_some_iff.1 hrest
    cases heq
    exact hu'
  · exact nomatch hrest

/-- An upload is completed at most once. -/
theorem completable_open {s : Store} {rule : CompletionRule} {key : String}
    {uploadId : Nat} {parts : List CompletedPart} {u : MultipartUpload} {size : Nat}
    (h : s.completable rule key uploadId parts = some (u, size)) :
    u.completed = false := by
  obtain ⟨u', hu', hrest⟩ := Option.bind_eq_some_iff.1 h
  split at hrest
  · next hcond =>
      obtain ⟨_, _, heq⟩ := Option.map_eq_some_iff.1 hrest
      cases heq
      exact hcond.2.1
  · exact nomatch hrest

/-- And under its own key. -/
theorem completable_key {s : Store} {rule : CompletionRule} {key : String}
    {uploadId : Nat} {parts : List CompletedPart} {u : MultipartUpload} {size : Nat}
    (h : s.completable rule key uploadId parts = some (u, size)) :
    u.key = key := by
  obtain ⟨u', hu', hrest⟩ := Option.bind_eq_some_iff.1 h
  split at hrest
  · next hcond =>
      obtain ⟨_, _, heq⟩ := Option.map_eq_some_iff.1 hrest
      cases heq
      exact hcond.1
  · cases hrest

def putObject (s : Store) (key : String) (size : Nat) : Store :=
  { s with objects := Function.update s.objects key (some size) }

theorem putObject_objects_ne (s : Store) {key key' : String} (size : Nat)
    (h : key' ≠ key) : (s.putObject key size).objects key' = s.objects key' :=
  Function.update_of_ne h _ _

def completeMultipartUpload (s : Store) (rule : CompletionRule)
    (key : String) (uploadId : Nat) (parts : List CompletedPart) :
    Except VideoError Unit × Store :=
  match s.completable rule key uploadId parts with
  | some (u, size) =>
      (.ok (), { s.putObject key size with
        uploads := Function.update s.uploads uploadId
          (some { u with completed := true }) })
  | none => (.error .storage, s)

def takeJob (s : Store) : JobPick → Option ProcessVideoJobData × Store
  | .fresh i =>
      match s.waiting[i]? with
      | some job =>
          (some job, { s with
            waiting := s.waiting.eraseIdx i
            running := s.running ++ [job] })
      | none => (none, s)
  | .again i => (s.running[i]?, s)

/-- The queue closes a running job: its worker has reported how it ended, or
it has stalled too often. -/
def closeJob (s : Store) (i : Nat) : Store :=
  { s with running := s.running.eraseIdx i }

/-- How long a presigned URL may be valid: a week. -/
def maxExpirySeconds : Nat := 604800

/-- The answer to a call, and the stores after it. -/
def exec (m : Moment) :
    (op : VideoOp) → Store → Except VideoError op.Res × Store
  | .insertVideo v, s => s.insertVideo m v
  | .findVideoByPublicId p, s =>
      (.ok (s.videos.find? (·.public_id == p)), s)
  | .findVideoById id, s => (.ok (s.videos.find? (·.id == id)), s)
  | .findStaleVideos cutoff, s =>
      (.ok (s.videos.filter fun r =>
        r.status = .uploading ∧ r.created_at < cutoff), s)
  | .saveVideo v, s => (.ok (), s.saveVideo v)
  | .updateVideo id patch, s =>
      if patch.fits then (.ok (), s.updateVideo id patch)
      else (.error .database, s)
  | .createMultipartUpload key _, s =>
      (.ok (some s.nextUploadId), s.createMultipartUpload m key)
  | .getSignedUrl _ _ _ expiresIn, s =>
      (if expiresIn ≤ maxExpirySeconds then .ok () else .error .storage, s)
  | .uploadPart uploadId part, s => s.uploadPart uploadId part
  | .completeMultipartUpload key uploadId parts, s =>
      s.completeMultipartUpload m.completion key uploadId parts
  | .headObject key, s => (.ok (s.objects key), s)
  | .downloadToFile key, s =>
      (if (s.objects key).isSome then .ok () else .error .storage, s)
  | .putObject key size _, s => (.ok (), s.putObject key size)
  | .addJob job, s => (.ok (), { s with waiting := s.waiting ++ [job] })
  | .takeJob, s => (.ok (s.takeJob m.pick).1, (s.takeJob m.pick).2)
  | .closeJob i, s => (.ok (), s.closeJob i)
  | .mkdtemp, s => (.ok (), s)
  | .ffprobe, s => (.ok m.probe, s)
  | .ffmpeg _, s => (.ok (), s)
  | .readFile, s => (.ok m.thumbnailSize, s)
  | .rm, s => (.ok (), s)

theorem exec_updateVideo_of_fits {patch : VideoPatch} (h : patch.fits = true)
    (m : Moment) (id : Nat) (s : Store) :
    exec m (.updateVideo id patch) s = (.ok (), s.updateVideo id patch) := by
  simp only [exec, h, if_true]

/-- An update is made, or refused as a whole. -/
theorem exec_updateVideo_cases (m : Moment) (id : Nat) (patch : VideoPatch)
    (s : Store) :
    exec m (.updateVideo id patch) s = (.ok (), s.updateVideo id patch) ∨
      exec m (.updateVideo id patch) s = (.error .database, s) := by
  cases h : patch.fits with
  | true => exact .inl (exec_updateVideo_of_fits h m id s)
  | false => exact .inr (by simp only [exec, h, Bool.false_eq_true, if_false])

/-! ## What a call leaves alone -/

/-- The part of the stores that is none of the call's business. -/
structure Frame (op : VideoOp) (s s' : Store) : Prop where
  videos : op.inserts = false → op.rewritesRow = false →
    s'.videos = s.videos ∧ s'.nextVideoId = s.nextVideoId
  objects : op.storesObject = false → s'.objects = s.objects
  uploads : op.writesUpload = false → s'.uploads = s.uploads
  nextUploadId : op.startsUpload = false → s'.nextUploadId = s.nextUploadId
  queue : op.writesQueue = false →
    s'.waiting = s.waiting ∧ s'.running = s.running

theorem Frame.refl (op : VideoOp) (s : Store) : Frame op s s :=
  ⟨fun _ _ => ⟨rfl, rfl⟩, fun _ => rfl, fun _ => rfl, fun _ => rfl,
    fun _ => ⟨rfl, rfl⟩⟩

theorem frame_exec (m : Moment) (op : VideoOp) (s : Store) :
    Frame op s (exec m op s).2 := by
  cases op with
  | insertVideo v =>
      simp only [exec, insertVideo]
      split
      · exact ⟨nofun, fun _ => rfl, fun _ => rfl, fun _ => rfl,
          fun _ => ⟨rfl, rfl⟩⟩
      · exact .refl _ s
  | saveVideo v =>
      exact ⟨nofun, fun _ => rfl, fun _ => rfl, fun _ => rfl,
        fun _ => ⟨rfl, rfl⟩⟩
  | updateVideo id patch =>
      simp only [exec]
      split
      · exact ⟨nofun, fun _ => rfl, fun _ => rfl, fun _ => rfl,
          fun _ => ⟨rfl, rfl⟩⟩
      · exact .refl _ s
  | createMultipartUpload key contentType =>
      exact ⟨fun _ _ => ⟨rfl, rfl⟩, fun _ => rfl, nofun, nofun,
        fun _ => ⟨rfl, rfl⟩⟩
  | uploadPart uploadId part =>
      simp only [exec, uploadPart]
      split
      · split
        · exact .refl _ s
        · exact ⟨fun _ _ => ⟨rfl, rfl⟩, fun _ => rfl, nofun, fun _ => rfl,
            fun _ => ⟨rfl, rfl⟩⟩
      · exact .refl _ s
  | completeMultipartUpload key uploadId parts =>
      simp only [exec, completeMultipartUpload]
      split
      · exact ⟨fun _ _ => ⟨rfl, rfl⟩, nofun, nofun, fun _ => rfl,
          fun _ => ⟨rfl, rfl⟩⟩
      · exact .refl _ s
  | putObject key size contentType =>
      exact ⟨fun _ _ => ⟨rfl, rfl⟩, nofun, fun _ => rfl, fun _ => rfl,
        fun _ => ⟨rfl, rfl⟩⟩
  | addJob job =>
      exact ⟨fun _ _ => ⟨rfl, rfl⟩, fun _ => rfl, fun _ => rfl, fun _ => rfl,
        nofun⟩
  | takeJob =>
      simp only [exec, takeJob]
      split
      · split
        · exact ⟨fun _ _ => ⟨rfl, rfl⟩, fun _ => rfl, fun _ => rfl,
            fun _ => rfl, nofun⟩
        · exact .refl _ s
      · exact .refl _ s
  | closeJob i =>
      exact ⟨fun _ _ => ⟨rfl, rfl⟩, fun _ => rfl, fun _ => rfl, fun _ => rfl,
        nofun⟩
  | _ => exact .refl _ s

/-! ## The table as a map -/

/-- The row with primary key `id`. -/
def row? (s : Store) (id : Nat) : Option Video :=
  s.videos.find? (·.id == id)

theorem row?_id {s : Store} {id : Nat} {r : Video} (h : s.row? id = some r) :
    r.id = id := by
  have hid := List.find?_some h
  simpa only [beq_iff_eq] using hid

theorem row?_mem {s : Store} {id : Nat} {r : Video} (h : s.row? id = some r) :
    r ∈ s.videos :=
  List.mem_of_find?_eq_some h

/-- A write that keeps primary keys acts on each row alone. -/
private theorem find?_map_id (f : Video → Video) (hf : ∀ r, (f r).id = r.id)
    (rows : List Video) (id : Nat) :
    (rows.map f).find? (·.id == id) = (rows.find? (·.id == id)).map f := by
  induction rows with
  | nil => rfl
  | cons r rows ih =>
      by_cases hr : r.id = id
      · simp [hf, hr]
      · simp [hf, hr, ih]

theorem row?_saveVideo (s : Store) (v : Video) (id : Nat) :
    (s.saveVideo v).row? id =
      (s.row? id).map fun r => if r.id = v.id then v else r := by
  unfold row? saveVideo
  refine find?_map_id _ ?_ s.videos id
  intro r
  by_cases hr : r.id = v.id
  · rw [if_pos hr, hr]
  · rw [if_neg hr]

theorem row?_updateVideo (s : Store) (key : Nat) (patch : VideoPatch)
    (id : Nat) :
    (s.updateVideo key patch).row? id =
      (s.row? id).map fun r => if r.id = key then patch.apply r else r := by
  unfold row? updateVideo
  refine find?_map_id _ ?_ s.videos id
  intro r
  by_cases hr : r.id = key
  · rw [if_pos hr]
    rfl
  · rw [if_neg hr]

/-- An insertion leaves the rows that are there alone. -/
theorem row?_insertVideo {s : Store} {id : Nat} {r : Video}
    (h : s.row? id = some r) (m : Moment) (v : NewVideo) :
    (s.insertVideo m v).2.row? id = some r := by
  unfold insertVideo
  split
  · simp only [row?] at h ⊢
    rw [List.find?_append, h]
    rfl
  · exact h

/-! ## Primary keys -/

/-- Every row is found under its primary key, and new keys are unused. -/
structure Keyed (s : Store) : Prop where
  found : ∀ r ∈ s.videos, s.row? r.id = some r
  fresh : ∀ r ∈ s.videos, r.id < s.nextVideoId

theorem keyed_empty : ({} : Store).Keyed := ⟨nofun, nofun⟩

theorem Keyed.newKey {s : Store} (h : s.Keyed) :
    s.row? s.nextVideoId = none := by
  cases hrow : s.row? s.nextVideoId with
  | none => rfl
  | some r =>
      have hfresh := h.fresh r (row?_mem hrow)
      have hid := row?_id hrow
      omega

/-- A write that keeps primary keys keeps the table keyed. -/
private theorem Keyed.of_map {s s' : Store} (h : s.Keyed)
    {f : Video → Video} (hf : ∀ r, (f r).id = r.id)
    (hvideos : s'.videos = s.videos.map f)
    (hnext : s'.nextVideoId = s.nextVideoId) : s'.Keyed := by
  constructor
  · intro r' hr'
    rw [hvideos] at hr'
    obtain ⟨r, hr, rfl⟩ := List.mem_map.1 hr'
    unfold row?
    rw [hvideos, find?_map_id f hf, hf]
    have hfound := h.found r hr
    unfold row? at hfound
    rw [hfound, Option.map_some]
  · intro r' hr'
    rw [hvideos] at hr'
    obtain ⟨r, hr, rfl⟩ := List.mem_map.1 hr'
    rw [hf, hnext]
    exact h.fresh r hr

theorem Keyed.saveVideo {s : Store} (h : s.Keyed) (v : Video) :
    (s.saveVideo v).Keyed := by
  have hid : ∀ r : Video, (if r.id = v.id then v else r).id = r.id := by
    intro r
    by_cases hr : r.id = v.id
    · rw [if_pos hr, hr]
    · rw [if_neg hr]
  exact h.of_map hid rfl rfl

theorem Keyed.updateVideo {s : Store} (h : s.Keyed) (id : Nat)
    (patch : VideoPatch) : (s.updateVideo id patch).Keyed := by
  have hid : ∀ r : Video,
      (if r.id = id then patch.apply r else r).id = r.id := by
    intro r
    by_cases hr : r.id = id
    · rw [if_pos hr]
      rfl
    · rw [if_neg hr]
  exact h.of_map hid rfl rfl

theorem Keyed.insertVideo {s : Store} (h : s.Keyed) (m : Moment)
    (v : NewVideo) : (s.insertVideo m v).2.Keyed := by
  unfold Store.insertVideo
  split
  · constructor
    · intro r hr
      rcases List.mem_append.1 hr with hr | hr
      · simp only [row?, List.find?_append]
        have hfound := h.found r hr
        simp only [row?] at hfound
        rw [hfound]
        rfl
      · have hnew := List.mem_singleton.1 hr
        subst hnew
        simp only [row?, List.find?_append]
        have hnone := h.newKey
        simp only [row?] at hnone
        rw [show (s.newRow m v).id = s.nextVideoId from rfl, hnone]
        simp [newRow]
    · intro r hr
      show r.id < s.nextVideoId + 1
      rcases List.mem_append.1 hr with hr | hr
      · have hfresh := h.fresh r hr
        omega
      · have hnew := List.mem_singleton.1 hr
        subst hnew
        exact Nat.lt_succ_self _
  · exact h

/-- The other calls do not touch the table. -/
theorem videos_exec (m : Moment) {op : VideoOp} (s : Store)
    (hinsert : op.inserts = false) (hrewrite : op.rewritesRow = false) :
    (exec m op s).2.videos = s.videos ∧
      (exec m op s).2.nextVideoId = s.nextVideoId :=
  (frame_exec m op s).videos hinsert hrewrite

/-- What holds of every row, and of all that a call writes, holds of every
row after it. -/
theorem forall_videos_exec {Q : Video → Prop} {m : Moment} {op : VideoOp}
    {s : Store} (hrows : ∀ r ∈ s.videos, Q r)
    (hinsert : ∀ v, op = .insertVideo v → Q (s.newRow m v))
    (hsave : ∀ v, op = .saveVideo v → Q v)
    (hupdate : ∀ patch r, op = .updateVideo r.id patch → r ∈ s.videos →
      Q (patch.apply r)) : ∀ r ∈ (exec m op s).2.videos, Q r := by
  intro r' hr'
  cases op with
  | insertVideo v =>
      simp only [exec, insertVideo] at hr'
      split at hr'
      · rcases List.mem_append.1 hr' with hr' | hr'
        · exact hrows r' hr'
        · rw [List.mem_singleton.1 hr']
          exact hinsert v rfl
      · exact hrows r' hr'
  | saveVideo v =>
      obtain ⟨r, hr, heq⟩ := List.mem_map.1 hr'
      by_cases hid : r.id = v.id
      · rw [if_pos hid] at heq
        rw [← heq]
        exact hsave v rfl
      · rw [if_neg hid] at heq
        rw [← heq]
        exact hrows r hr
  | updateVideo id patch =>
      rcases exec_updateVideo_cases m id patch s with hexec | hexec
      · rw [hexec] at hr'
        obtain ⟨r, hr, heq⟩ := List.mem_map.1 hr'
        by_cases hid : r.id = id
        · rw [if_pos hid] at heq
          rw [← heq]
          apply hupdate patch r ?_ hr
          rw [hid]
        · rw [if_neg hid] at heq
          rw [← heq]
          exact hrows r hr
      · rw [hexec] at hr'
        exact hrows r' hr'
  | _ =>
      rw [(videos_exec m s (by rfl) (by rfl)).1] at hr'
      exact hrows r' hr'

theorem row?_exec_eq (m : Moment) {op : VideoOp} (s : Store)
    (hinsert : op.inserts = false) (hrewrite : op.rewritesRow = false)
    (id : Nat) : (exec m op s).2.row? id = s.row? id := by
  unfold row?
  rw [(videos_exec m s hinsert hrewrite).1]

/-- Only `save` and `update` change rows that are already there. -/
theorem row?_exec {s : Store} {id : Nat} {r : Video} (h : s.row? id = some r)
    (m : Moment) (op : VideoOp) (hrewrite : op.rewritesRow = false) :
    (exec m op s).2.row? id = some r := by
  cases hinsert : op.inserts with
  | true =>
      cases op with
      | insertVideo v => exact row?_insertVideo h m v
      | _ => exact nomatch hinsert
  | false => rw [row?_exec_eq m s hinsert hrewrite, h]

theorem Keyed.exec {s : Store} (h : s.Keyed) (m : Moment) (op : VideoOp) :
    (Store.exec m op s).2.Keyed := by
  cases hinsert : op.inserts with
  | true =>
      cases op with
      | insertVideo v => exact h.insertVideo m v
      | _ => cases hinsert
  | false =>
      cases hrewrite : op.rewritesRow with
      | true =>
          cases op with
          | saveVideo v => exact h.saveVideo v
          | updateVideo id patch =>
              rcases exec_updateVideo_cases m id patch s with hexec | hexec
              · rw [hexec]
                exact h.updateVideo id patch
              · rw [hexec]
                exact h
          | _ => cases hrewrite
      | false =>
          obtain ⟨hvideos, hnext⟩ := videos_exec m s hinsert hrewrite
          constructor
          · intro r hr
            unfold row?
            rw [hvideos] at hr ⊢
            exact h.found r hr
          · intro r hr
            rw [hvideos] at hr
            rw [hnext]
            exact h.fresh r hr

end Store

end Videum.Videos
