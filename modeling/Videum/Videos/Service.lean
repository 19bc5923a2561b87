import Mathlib.Algebra.Order.Floor.Semiring
import Mathlib.Data.Rat.Floor
import Videum.Videos.Store

/-!
# Uploading and processing a video

`VideosService.createDraft` and `completeUpload`
(`videos/videos.service.ts`), the reconciliation sweep
(`videos/processors/upload-reconciliation.processor.ts`) and the worker
(`videos/processors/video-processing.processor.ts`), with the parts of
`StorageService` they use.  Each is a program over the calls of
`Videum.Videos.Store`; `videoSystem` puts them on one machine, next to the
clients that upload parts with presigned URLs.
-/

namespace Videum.Videos

open Videum.Async
open Videum.Common

abbrev VideoProg (α : Type) := Prog VideoIface Moment VideoError α

/-- Await a call to one of the stores. -/
abbrev await (op : VideoOp) : VideoProg op.Res :=
  Prog.call (I := VideoIface) op

theorem defaultPartSize_pos : 0 < 104857600 := by decide

/-- The configuration the services read, and how the database reads a text as
a `uuid`.  A part size that is zero, negative or no number is left out here;
`Videum.Videos.PartPlan` has every setting.  So is a validity that is
negative or no number, with which the storage signs as with any other. -/
structure VideoConfig where
  partSizeBytes : Nat := 104857600
  partSize_pos : 0 < partSizeBytes := by exact defaultPartSize_pos
  presignExpirySeconds : Nat := 3600
  abandonedUploadTimeoutMs : Int := 3600000
  uuid : String → Option String := some

/-! ## Requests -/

/-- `MAX_UPLOAD_BYTES`: 10 GiB. -/
def maxUploadBytes : Nat := 10 * 1024 ^ 3

/-- `CreateVideoDto`, as the validation pipe lets it through. -/
structure CreateVideoDto where
  title : String
  filename : String
  content_type : String
  size_bytes : Nat
  title_length : 1 ≤ validatedLength title ∧ validatedLength title ≤ 255
  filename_length : 1 ≤ validatedLength filename ∧
    validatedLength filename ≤ 255
  content_type_length : 1 ≤ validatedLength content_type
  size_range : 0 < size_bytes ∧ size_bytes ≤ maxUploadBytes

/-- `CompleteUploadDto`, as the validation pipe lets it through. -/
structure CompleteUploadDto where
  parts : List CompletedPart
  parts_ne : parts ≠ []
  part_ok : ∀ p ∈ parts, 0 < p.part_number ∧ 1 ≤ validatedLength p.etag

/-- A presigned URL grants the upload of one part. -/
structure PresignedPart where
  part_number : Nat
  key : String
  upload_id : Nat
  deriving DecidableEq, Repr

structure MultipartUploadInit where
  upload_id : Nat
  parts : List PresignedPart

structure CreateVideoResult where
  public_id : String
  upload_id : Nat
  storage_key : String
  parts : List PresignedPart

structure CompleteUploadResult where
  public_id : String
  status : VideoStatus
  deriving DecidableEq, Repr

/-! ## `StorageService` -/

/-- Number of parts a `sizeBytes` upload splits into. -/
def partCount (cfg : VideoConfig) (sizeBytes : Nat) : Nat :=
  max 1 ((sizeBytes + cfg.partSizeBytes - 1) / cfg.partSizeBytes)

/-- The URLs of the parts `1`, …, `partCount`. -/
def presignedParts (storageKey : String) (uploadId partCount : Nat) :
    List PresignedPart :=
  (List.range' 1 partCount).map fun partNumber =>
    ⟨partNumber, storageKey, uploadId⟩

/-- The URLs are signed one after the other, and a signature may be
refused. -/
def getPresignedPartUrls (cfg : VideoConfig) (storageKey : String)
    (uploadId partCount : Nat) : VideoProg (List PresignedPart) := do
  Prog.forEach (List.range' 1 partCount) fun partNumber =>
    await (.getSignedUrl storageKey uploadId partNumber
      cfg.presignExpirySeconds)
  return presignedParts storageKey uploadId partCount

def initiateMultipartUpload (cfg : VideoConfig)
    (storageKey contentType : String) (sizeBytes : Nat) :
    VideoProg MultipartUploadInit := do
  let created ← await (.createMultipartUpload storageKey contentType)
  match created with
  | none => Prog.throw .storage
  | some uploadId =>
      let parts ← getPresignedPartUrls cfg storageKey uploadId
        (partCount cfg sizeBytes)
      return ⟨uploadId, parts⟩

/-- The parts are sent sorted by part number. -/
def completeMultipartUpload (storageKey : String) (uploadId : Nat)
    (parts : List CompletedPart) : VideoProg Unit :=
  await (.completeMultipartUpload storageKey uploadId
    (parts.insertionSort fun a b => a.part_number ≤ b.part_number))

/-! ## `VideosService` -/

def storageKeyFor (publicId : String) : String :=
  "videos/" ++ publicId ++ "/original"

/-- Pre-registers a draft and starts its multipart upload.  The upload is
started first; the row is written once, with its upload id. -/
def createDraft (cfg : VideoConfig) (ownerId : Nat) (dto : CreateVideoDto) :
    VideoProg CreateVideoResult := do
  let moment ← Prog.now
  let publicId := moment.publicId
  let storageKey := storageKeyFor publicId
  let upload ← initiateMultipartUpload cfg storageKey dto.content_type
    dto.size_bytes
  let _video ← await (.insertVideo
    { public_id := publicId
      owner_id := ownerId
      title := dto.title
      original_filename := dto.filename
      storage_key := storageKey
      upload_id := some upload.upload_id
      size_bytes := dto.size_bytes
      content_type := dto.content_type
      status := .uploading })
  return ⟨publicId, upload.upload_id, storageKey, upload.parts⟩

/-- `findOne({ where: { public_id } })`: the column is a `uuid`, and the query
fails when the text is none. -/
def findOneByPublicId (uuid : String → Option String) (publicId : String) :
    VideoProg (Option Video) :=
  match uuid publicId with
  | none => Prog.throw .database
  | some id => await (.findVideoByPublicId id)

/-- The last part of `completeUpload`: mark the entity it has read as
`processing`, write it back whole, and enqueue the job. -/
def finalizeUpload (video : Video) : VideoProg CompleteUploadResult := do
  await
    (.saveVideo { video with status := .processing, upload_id := none })
  await (.addJob ⟨video.id, video.storage_key⟩)
  return ⟨video.public_id, .processing⟩

/-- `completeUpload` once it has read an open draft of its caller. -/
def assembleUpload (video : Video) (uploadId : Nat)
    (dto : CompleteUploadDto) : VideoProg CompleteUploadResult := do
  -- a failed assembly is reported as a missing object
  Prog.tryCatch
    (completeMultipartUpload video.storage_key uploadId dto.parts)
    fun _ => Prog.throw (.domain .UploadObjectMissing)
  let head ← await (.headObject video.storage_key)
  match head with
  | none => Prog.throw (.domain .UploadObjectMissing)
  | some size =>
      if size ≠ video.size_bytes then
        Prog.throw (.domain .UploadSizeMismatch)
      else finalizeUpload video

/-- Finalizes a multipart upload: verifies the object landed with the
declared size, moves the draft to `processing`, and enqueues the job. -/
def completeUpload (uuid : String → Option String) (ownerId : Nat)
    (publicId : String) (dto : CompleteUploadDto) :
    VideoProg CompleteUploadResult := do
  let video? ← findOneByPublicId uuid publicId
  match video? with
  | none => Prog.throw (.domain .VideoNotFound)
  | some video =>
      if video.owner_id ≠ ownerId then Prog.throw (.domain .NotVideoOwner)
      else if video.status ≠ .uploading then
        Prog.throw (.domain .UploadAlreadyFinalized)
      else
        match video.upload_id with
        | none => Prog.throw (.domain .UploadAlreadyFinalized)
        | some uploadId => assembleUpload video uploadId dto

/-! ## `UploadReconciliationProcessor` -/

/-- One draft of the sweep: rescued when an object is there, failed when
not. -/
def reconcile (video : Video) : VideoProg Unit := do
  let head ← await (.headObject video.storage_key)
  match head with
  | some _ =>
      await (.updateVideo video.id
        { status := some .processing, upload_id := some none })
      await (.addJob ⟨video.id, video.storage_key⟩)
  | none =>
      await
        (.updateVideo video.id { status := some .failed })

/-- The sweep: a failing draft is logged and the next one is tried. -/
def sweep (cfg : VideoConfig) : VideoProg Unit := do
  let moment ← Prog.now
  let cutoff := moment.now - cfg.abandonedUploadTimeoutMs
  let stale ← await (.findStaleVideos cutoff)
  Prog.forEach stale fun video =>
    Prog.tryCatch (reconcile video) fun _ => Prog.pure ()

/-! ## `VideoProcessingProcessor` -/

/-- `storageKey.substring(0, storageKey.lastIndexOf('/'))`: what stands
before the last slash, nothing when there is none. -/
def dirOf (storageKey : String) : String :=
  String.ofList
    (storageKey.toList.reverse.dropWhile (· != '/')).tail.reverse

def thumbnailKeyFor (storageKey : String) : String :=
  dirOf storageKey ++ "/thumbnail.jpg"

/-- `Math.round`, in integers. -/
def roundSeconds (x : Rat) : Int := (2 * x.num + x.den) / (2 * x.den)

/-- A half is rounded up. -/
theorem roundSeconds_eq (x : Rat) : roundSeconds x = ⌊x + 1 / 2⌋ := by
  have hden : ((2 * x.den : Nat) : Rat) ≠ 0 := by
    rw [Nat.cast_ne_zero]
    exact Nat.mul_ne_zero two_ne_zero x.den_ne_zero
  have hsum : x + 1 / 2 =
      ((2 * x.num + x.den : Int) : Rat) / ((2 * x.den : Nat) : Rat) := by
    rw [eq_div_iff hden, Nat.cast_mul, Nat.cast_ofNat, Int.cast_add,
      Int.cast_mul, Int.cast_ofNat, Int.cast_natCast, ← Rat.mul_den_eq_num x,
      add_mul, mul_left_comm, one_div, inv_mul_cancel_left₀ two_ne_zero]
  rw [hsum, Rat.floor_intCast_div_natCast, roundSeconds, Nat.cast_mul,
    Nat.cast_ofNat]

/-- Duration of the downloaded file; an unreadable one counts as 0. -/
def probeDuration : VideoProg Rat := do
  let stdout ← await .ffprobe
  return stdout.getD 0

def extractThumbnail (durationSeconds : Rat) : VideoProg Unit :=
  await (.ffmpeg (if durationSeconds > 2 then 1 else 0))

/-- The `try` block of the worker. -/
def processFile (job : ProcessVideoJobData) : VideoProg Unit := do
  await (.downloadToFile job.storage_key)
  let durationSeconds ← probeDuration
  extractThumbnail durationSeconds
  let thumbnailKey := thumbnailKeyFor job.storage_key
  let thumbnail ← await .readFile
  await (.putObject thumbnailKey thumbnail "image/jpeg")
  await (.updateVideo job.video_id
    { duration_seconds := some (roundSeconds durationSeconds)
      thumbnail_key := some thumbnailKey
      status := some .ready })

/-- The worker once it has read a row to process: on any failure the row is
marked `failed` and the failure is passed on; the work directory goes in any
case. -/
def processVideo (job : ProcessVideoJobData) : VideoProg Unit := do
  await .mkdtemp
  Prog.tryFinally
    (Prog.tryCatch (processFile job) fun error => do
      await
        (.updateVideo job.video_id { status := some .failed })
      Prog.throw error)
    (await .rm)

/-- `process(job)`: a missing row is skipped, and so is one already
`ready`. -/
def process (job : ProcessVideoJobData) : VideoProg Unit := do
  let video? ← await (.findVideoById job.video_id)
  match video? with
  | none => return ()
  | some video =>
      if video.status = .ready then return ()
      else processVideo job

/-- The queue hands one job to a worker. -/
def deliver : VideoProg Unit := do
  let job? ← await .takeJob
  match job? with
  | none => return ()
  | some job => process job

/-! ## The system -/

inductive VideoRequest
  | createDraft (ownerId : Nat) (dto : CreateVideoDto)
  | completeUpload (ownerId : Nat) (publicId : String)
      (dto : CompleteUploadDto)
  | uploadPart (uploadId : Nat) (part : StoredPart)
  | sweep
  | deliver
  | closeJob (i : Nat)

inductive VideoReply
  | draft (result : CreateVideoResult)
  | completed (result : CompleteUploadResult)
  | done

/-- The program serving a request.  Requests come from the HTTP controller,
from clients holding presigned URLs, from the scheduler and from the
queue, which closes jobs on its own. -/
def serve (cfg : VideoConfig) : VideoRequest → VideoProg VideoReply
  | .createDraft ownerId dto => do
      let r ← createDraft cfg ownerId dto
      return .draft r
  | .completeUpload ownerId publicId dto => do
      let r ← completeUpload cfg.uuid ownerId publicId dto
      return .completed r
  | .uploadPart uploadId part => do
      await (.uploadPart uploadId part)
      return .done
  | .sweep => do
      sweep cfg
      return .done
  | .deliver => do
      deliver
      return .done
  | .closeJob i => do
      await (.closeJob i)
      return .done

/-- The upload flow as a system; the outside world promises nothing. -/
def videoSystem (cfg : VideoConfig) :
    System VideoIface Moment VideoError Store VideoRequest VideoReply where
  exec := Store.exec
  guard _ _ _ _ := true
  body := serve cfg

/-- Any request at any time, and any call may fail. -/
def anyRun : Policy VideoIface Moment VideoError Store VideoRequest
    VideoReply where
  accepts _ _ := True
  fault _ _ := true

abbrev VideoLog := Log VideoIface Moment VideoError Store VideoRequest

abbrev VideoEntry := Entry VideoIface Moment VideoError Store VideoRequest

abbrev VideoRun := Config VideoIface Moment VideoError Store VideoRequest
  VideoReply

/-- Where a concrete schedule takes the upload flow. -/
def videoRun (xs : List (Tick Moment VideoError VideoRequest))
    (h : ((videoSystem {}).schedule anyRun (Config.start {}) xs).isSome
      = true) : VideoRun :=
  ((videoSystem {}).schedule anyRun (Config.start {}) xs).get h

theorem reachable_videoRun (xs : List (Tick Moment VideoError VideoRequest))
    (h : ((videoSystem {}).schedule anyRun (Config.start {}) xs).isSome
      = true) : Reachable (videoSystem {}) anyRun {} (videoRun xs h) :=
  Reachable.of_schedule xs h
    (System.admitted_of_forall xs (fun _ _ _ _ => trivial) _)

end Videum.Videos
