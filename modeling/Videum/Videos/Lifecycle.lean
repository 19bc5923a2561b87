import Videum.Async.Calls
import Videum.Videos.Service

/-!
# The life cycle of a video

A draft is `uploading`, then `processing`, then `ready`; it may end `failed`
from either of the first two, and a `ready` row is final.  Three writers move
rows along it (the completion call, the sweep and the worker), and each of
them writes some time after it has read.  This module says what the services
write at all and when one such write keeps the life cycle; which runs keep it
throughout is the subject of `Videum.Videos.Overlaps`.

## Main results

* `serve_issues` — the writes of the services.
* `lifecycleStep_iff_timely` — one answer, over every interleaving.
* `Steps.row_history`, `ready_frozen` — a row that keeps to the life cycle.
* `lifecycle_broken` — a late completion takes a `ready` row back.
-/

namespace Videum.Videos

open Videum.Async

/-- The changes of status of the life cycle. -/
def VideoStatus.canBecome : VideoStatus → VideoStatus → Bool
  | .uploading, .processing => true
  | .uploading, .failed => true
  | .processing, .ready => true
  | .processing, .failed => true
  | _, _ => false

/-- `ready` is final. -/
theorem VideoStatus.ready_final (status : VideoStatus) :
    ¬ VideoStatus.ready.canBecome status = true := by
  cases status <;> decide

/-- A row follows the life cycle, and keeps its results once it is ready. -/
structure RowStep (r r' : Video) : Prop where
  status : r'.status = r.status ∨ r.status.canBecome r'.status = true
  duration : r.status = .ready → r'.duration_seconds = r.duration_seconds
  thumbnail : r.status = .ready → r'.thumbnail_key = r.thumbnail_key

/-- Every row of `s` is still there in `s'` and has followed the life
cycle. -/
def LifecycleStep (s s' : Store) : Prop :=
  ∀ id r, s.row? id = some r → ∃ r', s'.row? id = some r' ∧ RowStep r r'

/-! ## When a write is timely -/

/-- The columns of the patch may be written over the row `r`. -/
def VideoPatch.Timely (p : VideoPatch) (r : Video) : Prop :=
  match p.status with
  | some .processing => r.status = .uploading ∨ r.status = .processing
  | some .failed => r.status ≠ .ready
  | some .ready =>
      r.status = .processing ∨
        r.status = .ready ∧ p.duration_seconds = r.duration_seconds ∧
          p.thumbnail_key = r.thumbnail_key
  | _ => True

/-- The row a write is about is still in a status the writer may leave. -/
def VideoOp.Timely (op : VideoOp) (s : Store) : Prop :=
  match op with
  | .saveVideo v =>
      ∀ r ∈ s.row? v.id, r.status = .uploading ∨ r.status = .processing
  | .updateVideo id patch => ∀ r ∈ s.row? id, patch.Timely r
  | _ => True

/-! ## What the services write -/

/-- The columns the sweep writes on a draft it rescues. -/
def rescuePatch : VideoPatch :=
  { status := some .processing, upload_id := some none }

/-- The writes of the services: the completion call saves a row it has
marked, the sweep and the worker update columns. -/
def ServiceWrite : VideoOp → Prop
  | .saveVideo v => v.status = .processing
  | .updateVideo _ patch =>
      patch = rescuePatch ∨ patch = { status := some .failed } ∨
      ∃ seconds key, patch =
        { duration_seconds := some seconds, thumbnail_key := some key
          status := some .ready }
  | _ => True

/-- An upload is started, and URLs are signed for it. -/
theorem initiateMultipartUpload_issues {Q : VideoOp → Prop}
    (cfg : VideoConfig) {storageKey contentType : String} (sizeBytes : Nat)
    (hcreate : Q (.createMultipartUpload storageKey contentType))
    (hsign : ∀ uploadId n expiresIn,
      Q (.getSignedUrl storageKey uploadId n expiresIn)) :
    (initiateMultipartUpload cfg storageKey contentType sizeBytes).Issues
      Q := by
  apply Prog.Issues.bind (.call hcreate)
  intro created
  cases created with
  | none => trivial
  | some uploadId =>
      have hurls : (getPresignedPartUrls cfg storageKey uploadId
          (partCount cfg sizeBytes)).Issues Q :=
        (Prog.Issues.forEach fun _ _ => .call (hsign _ _ _)).bind
          fun _ => trivial
      exact hurls.bind fun _ => trivial

theorem createDraft_issues (cfg : VideoConfig) (ownerId : Nat)
    (dto : CreateVideoDto) :
    (createDraft cfg ownerId dto).Issues ServiceWrite := by
  apply Prog.Issues.bind .now
  intro moment
  apply (initiateMultipartUpload_issues cfg dto.size_bytes trivial
    fun _ _ _ => trivial).bind
  intro upload
  exact Prog.Issues.bind (.call trivial) fun _ => trivial

theorem finalizeUpload_issues (video : Video) :
    (finalizeUpload video).Issues ServiceWrite := by
  have hsave : ServiceWrite (.saveVideo
      { video with status := .processing, upload_id := none }) := rfl
  apply Prog.Issues.bind (.call hsave)
  intro _
  exact Prog.Issues.bind (.call trivial) fun _ => trivial

theorem assembleUpload_issues (video : Video) (uploadId : Nat)
    (dto : CompleteUploadDto) :
    (assembleUpload video uploadId dto).Issues ServiceWrite := by
  have hassemble := Prog.Issues.tryCatch (A := Moment)
    (p := completeMultipartUpload video.storage_key uploadId dto.parts)
    (Q := ServiceWrite)
    (h := fun _ => Prog.throw (.domain .UploadObjectMissing))
    (.call trivial) fun _ => trivial
  apply hassemble.bind
  intro _
  apply Prog.Issues.bind (.call trivial)
  intro head
  cases head with
  | none => trivial
  | some size =>
      dsimp only
      split
      · trivial
      · exact finalizeUpload_issues video

/-- A lookup by public id issues at most the query. -/
theorem findOneByPublicId_issues {Q : VideoOp → Prop}
    (uuid : String → Option String) (publicId : String)
    (hQ : ∀ id, Q (.findVideoByPublicId id)) :
    (findOneByPublicId uuid publicId).Issues Q := by
  unfold findOneByPublicId
  cases uuid publicId with
  | none => trivial
  | some id => exact .call (hQ id)

theorem completeUpload_issues (uuid : String → Option String) (ownerId : Nat)
    (publicId : String) (dto : CompleteUploadDto) :
    (completeUpload uuid ownerId publicId dto).Issues ServiceWrite := by
  apply (findOneByPublicId_issues uuid publicId fun _ => trivial).bind
  intro video?
  cases video? with
  | none => trivial
  | some video =>
      dsimp only
      split
      · trivial
      · split
        · trivial
        · cases video.upload_id with
          | none => trivial
          | some uploadId => exact assembleUpload_issues video uploadId dto

theorem sweep_issues (cfg : VideoConfig) :
    (sweep cfg).Issues ServiceWrite := by
  apply Prog.Issues.bind .now
  intro amb
  apply Prog.Issues.bind (.call trivial)
  intro stale
  apply Prog.Issues.forEach
  intro video _
  refine Prog.Issues.tryCatch ?_ fun _ => trivial
  apply Prog.Issues.bind (.call trivial)
  intro head
  cases head with
  | none => exact .call (.inr (.inl rfl))
  | some size =>
      exact Prog.Issues.bind (.call (.inl rfl)) fun _ => .call trivial

theorem processFile_issues (job : ProcessVideoJobData) :
    (processFile job).Issues ServiceWrite := by
  have hprobe : probeDuration.Issues ServiceWrite :=
    Prog.Issues.bind (.call trivial) fun _ => trivial
  apply Prog.Issues.bind (.call trivial)
  intro _
  apply hprobe.bind
  intro seconds
  apply Prog.Issues.bind (.call trivial)
  intro _
  apply Prog.Issues.bind (.call trivial)
  intro _
  apply Prog.Issues.bind (.call trivial)
  intro _
  exact .call (.inr (.inr ⟨_, _, rfl⟩))

theorem deliver_issues : deliver.Issues ServiceWrite := by
  apply Prog.Issues.bind (.call trivial)
  intro job?
  cases job? with
  | none => trivial
  | some job =>
      apply Prog.Issues.bind (.call trivial)
      intro video?
      cases video? with
      | none => trivial
      | some video =>
          dsimp only
          split
          · trivial
          · apply Prog.Issues.bind (.call trivial)
            intro _
            refine Prog.Issues.tryFinally ?_ (.call trivial)
            refine Prog.Issues.tryCatch (processFile_issues job) ?_
            intro error
            exact Prog.Issues.bind (.call (.inr (.inl rfl))) fun _ => trivial

theorem serve_issues (cfg : VideoConfig) (request : VideoRequest) :
    (serve cfg request).Issues ServiceWrite := by
  cases request with
  | createDraft ownerId dto =>
      exact (createDraft_issues cfg ownerId dto).bind fun _ => trivial
  | completeUpload ownerId publicId dto =>
      exact (completeUpload_issues cfg.uuid ownerId publicId dto).bind
        fun _ => trivial
  | uploadPart uploadId part =>
      exact Prog.Issues.bind (.call trivial) fun _ => trivial
  | sweep => exact (sweep_issues cfg).bind fun _ => trivial
  | deliver => exact deliver_issues.bind fun _ => trivial
  | closeJob i => exact Prog.Issues.bind (.call trivial) fun _ => trivial

/-! ## One write -/

theorem RowStep.refl (r : Video) : RowStep r r :=
  ⟨.inl rfl, fun _ => rfl, fun _ => rfl⟩

theorem LifecycleStep.refl (s : Store) : LifecycleStep s s :=
  fun _ r h => ⟨r, h, .refl r⟩

/-- Saving a row marked `processing` follows the life cycle from the two
statuses before it and from no other. -/
theorem rowStep_processing_iff {r v : Video} (hv : v.status = .processing) :
    RowStep r v ↔ r.status = .uploading ∨ r.status = .processing := by
  constructor
  · intro h
    have hstatus := h.status
    rw [hv] at hstatus
    revert hstatus
    cases r.status <;> decide
  · intro h
    refine ⟨?_, ?_, ?_⟩
    · rw [hv]
      rcases h with h | h <;> rw [h] <;> decide
    · intro hready
      rw [hready] at h
      exact absurd h (by decide)
    · intro hready
      rw [hready] at h
      exact absurd h (by decide)

/-- The columns the services write follow the life cycle exactly when they
are timely. -/
theorem rowStep_apply_iff {patch : VideoPatch} {id : Nat}
    (hwrite : ServiceWrite (.updateVideo id patch)) (r : Video) :
    RowStep r (patch.apply r) ↔ patch.Timely r := by
  rcases hwrite with rfl | rfl | ⟨seconds, key, rfl⟩
  · exact rowStep_processing_iff rfl
  · constructor
    · intro h hready
      have hstatus : VideoStatus.failed = r.status ∨
          r.status.canBecome .failed = true := h.status
      rw [hready] at hstatus
      exact absurd hstatus (by decide)
    · intro h
      refine ⟨?_, fun _ => rfl, fun _ => rfl⟩
      have hne : r.status ≠ .ready := h
      show VideoStatus.failed = r.status ∨
        r.status.canBecome .failed = true
      revert hne
      cases r.status <;> decide
  · constructor
    · intro h
      have hstatus : VideoStatus.ready = r.status ∨
          r.status.canBecome .ready = true := h.status
      rcases hstatus with hready | hbecome
      · exact .inr ⟨hready.symm, h.duration hready.symm,
          h.thumbnail hready.symm⟩
      · left
        revert hbecome
        cases r.status <;> decide
    · intro h
      rcases h with hprocessing | ⟨hready, hseconds, hkey⟩
      · refine ⟨.inr ?_, ?_, ?_⟩
        · rw [hprocessing]
          rfl
        · intro hready
          exact absurd (hprocessing.symm.trans hready) (by decide)
        · intro hready
          exact absurd (hprocessing.symm.trans hready) (by decide)
      · exact ⟨.inl hready.symm, fun _ => hseconds, fun _ => hkey⟩

/-- A write to one row keeps the life cycle when that row does. -/
theorem lifecycleStep_iff {s s' : Store} {key : Nat} {f : Video → Video}
    (h : ∀ id, s'.row? id =
      (s.row? id).map fun r => if r.id = key then f r else r) :
    LifecycleStep s s' ↔ ∀ r ∈ s.row? key, RowStep r (f r) := by
  constructor
  · intro hstep r hr
    obtain ⟨r', hr', hrow⟩ := hstep key r hr
    rw [h key, hr, Option.map_some, if_pos (Store.row?_id hr)] at hr'
    cases hr'
    exact hrow
  · intro hrow id r hr
    refine ⟨if r.id = key then f r else r, ?_, ?_⟩
    · rw [h id, hr, Option.map_some]
    · by_cases hkey : r.id = key
      · rw [if_pos hkey]
        refine hrow r ?_
        rw [← hkey, Store.row?_id hr]
        exact hr
      · rw [if_neg hkey]
        exact .refl r

/-- A write of the services that takes effect keeps the life cycle exactly
when it is timely. -/
theorem lifecycleStep_exec_iff {op : VideoOp} (hwrite : ServiceWrite op)
    {m : Moment} {s : Store} (hok : (Store.exec m op s).1.isOk = true) :
    LifecycleStep s (Store.exec m op s).2 ↔ op.Timely s := by
  cases op with
  | saveVideo v =>
      refine (lifecycleStep_iff (Store.row?_saveVideo s v)).trans ?_
      constructor
      · exact fun h r hr => (rowStep_processing_iff hwrite).1 (h r hr)
      · exact fun h r hr => (rowStep_processing_iff hwrite).2 (h r hr)
  | updateVideo id patch =>
      rcases Store.exec_updateVideo_cases m id patch s with hexec | hexec
      · rw [hexec]
        refine (lifecycleStep_iff
          (Store.row?_updateVideo s id patch)).trans ?_
        constructor
        · exact fun h r hr => (rowStep_apply_iff hwrite r).1 (h r hr)
        · exact fun h r hr => (rowStep_apply_iff hwrite r).2 (h r hr)
      · rw [hexec] at hok
        cases hok
  | _ =>
      refine iff_of_true ?_ trivial
      intro id r hr
      exact ⟨r, Store.row?_exec hr m _ rfl, .refl r⟩

/-- A call that is refused leaves every row as it is. -/
theorem lifecycleStep_of_refused {op : VideoOp} {m : Moment} {s : Store}
    (h : (Store.exec m op s).1.isOk ≠ true) :
    LifecycleStep s (Store.exec m op s).2 := by
  cases op with
  | saveVideo v => exact absurd rfl h
  | updateVideo id patch =>
      rcases Store.exec_updateVideo_cases m id patch s with hexec | hexec
      · rw [hexec] at h
        exact absurd rfl h
      · rw [hexec]
        exact .refl s
  | _ =>
      intro id r hr
      exact ⟨r, Store.row?_exec hr m _ rfl, .refl r⟩

/-! ## Runs -/

/-- One answer of a run keeps the life cycle exactly when it is not a write
that took effect too late. -/
theorem lifecycleStep_iff_timely {cfg : VideoConfig} {s₀ : Store}
    {c : VideoRun} (h : Reachable (videoSystem cfg) anyRun s₀ c)
    {x : VideoEntry} (hx : x ∈ c.log) :
    LifecycleStep x.before x.after ↔
      (x.res.isOk = true → x.op.Timely x.before) := by
  have hwrite : ServiceWrite x.op :=
    h.issued (Q := fun _ op => ServiceWrite op) (serve_issues cfg) hx
  obtain ⟨b, fault, _, _, _, _, _, hx', _⟩ := h.entry_config hx
  cases fault with
  | some e =>
      rw [hx']
      exact iff_of_true (.refl _) (fun hok => nomatch hok)
  | none =>
      rw [hx']
      by_cases hok : (Store.exec x.amb x.op b.state).1.isOk = true
      · have hstep := lifecycleStep_exec_iff hwrite hok
        exact hstep.trans ⟨fun htimely _ => htimely, fun h => h hok⟩
      · exact iff_of_true (lifecycleStep_of_refused hok) fun h => absurd h hok

/-- A row of a run that keeps the life cycle is there ever after, some steps
of the life cycle further. -/
theorem Steps.row_history {cfg : VideoConfig} {c c' : VideoRun}
    (h : Steps (videoSystem cfg) anyRun c c')
    (hlog : ∀ x ∈ c'.log, LifecycleStep x.before x.after) {id : Nat}
    {r : Video} (hr : c.state.row? id = some r) :
    ∃ r', c'.state.row? id = some r' ∧ Relation.ReflTransGen RowStep r r' := by
  induction h with
  | refl => exact ⟨r, hr, .refl⟩
  | @tail mid last hsteps hstep ih =>
      cases hstep with
      | spawn request amb _ => exact ih hlog
      | perform amb fault _ _ _ =>
          obtain ⟨r', hr', hpath⟩ := ih fun x hx => hlog x (.tail _ hx)
          obtain ⟨r'', hr'', hrow⟩ := hlog _ (.head _) id r' hr'
          exact ⟨r'', hr'', hpath.tail hrow⟩

/-- Once a row is ready, its results stay what they are. -/
theorem ready_frozen {r r' : Video} (h : Relation.ReflTransGen RowStep r r')
    (hready : r.status = .ready) :
    r'.status = .ready ∧ r'.duration_seconds = r.duration_seconds ∧
      r'.thumbnail_key = r.thumbnail_key := by
  induction h with
  | refl => exact ⟨hready, rfl, rfl⟩
  | tail _ hrow ih =>
      obtain ⟨hstatus, hseconds, hkey⟩ := ih
      refine ⟨?_, (hrow.duration hstatus).trans hseconds,
        (hrow.thumbnail hstatus).trans hkey⟩
      rcases hrow.status with hsame | hbecome
      · rw [hsame, hstatus]
      · rw [hstatus] at hbecome
        exact absurd hbecome (VideoStatus.ready_final _)

/-! ## A late completion -/

/-- A draft of five bytes. -/
def sampleDraft : CreateVideoDto where
  title := "Holiday"
  filename := "holiday.mp4"
  content_type := "video/mp4"
  size_bytes := 5
  title_length := by decide
  filename_length := by decide
  content_type_length := by decide
  size_range := by decide

/-- Its only part, as the client reports it. -/
def sampleCompletion : CompleteUploadDto where
  parts := [⟨1, "etag"⟩]
  parts_ne := by decide
  part_ok := by decide

/-- A draft is created at time 0 and its part uploaded.  The completion call
has assembled and checked the object when an hour is over; a sweep rescues
the draft and a worker makes it ready before the call saves its copy. -/
def lateCompletion : VideoRun :=
  videoRun
    (Tick.serve (.createDraft 1 sampleDraft) 0 3 { publicId := "v" } ++
      Tick.serve (.uploadPart 0 ⟨1, "etag", 5⟩) 1 1 { now := 1 } ++
      Tick.serve (.completeUpload 1 "v" sampleCompletion) 2 3
        { now := 3600000 } ++
      Tick.serve .sweep 3 4 { now := 3600001 } ++
      Tick.serve .deliver 4 10 { now := 3600002, probe := some 7 } ++
      Tick.answers 2 1 { now := 3600003 })
    (by decide)

/-- A life cycle that is kept keeps a ready row ready. -/
theorem LifecycleStep.ready {s s' : Store} (h : LifecycleStep s s')
    (id : Nat) (hready : (s.row? id).map Video.status = some .ready) :
    (s'.row? id).map Video.status = some .ready := by
  obtain ⟨r, hr, hstatus⟩ := Option.map_eq_some_iff.1 hready
  obtain ⟨r', hr', hrow⟩ := h id r hr
  have hfrozen := ready_frozen (.single hrow) hstatus
  rw [hr', Option.map_some, hfrozen.1]

/-- The late save takes the row from `ready` back to `processing`. -/
theorem lifecycle_broken :
    ¬ ∀ c : VideoRun, Reachable (videoSystem {}) anyRun {} c →
      ∀ x ∈ c.log, LifecycleStep x.before x.after := by
  intro h
  have hsave := h lateCompletion (reachable_videoRun _ _)
    (lateCompletion.log.head (by decide)) (List.head_mem _)
  have hready := hsave.ready 0 (by decide)
  exact absurd hready (by decide)

/-- The same draft, completed at once and processed. -/
def promptCompletion : VideoRun :=
  videoRun
    (Tick.serve (.createDraft 1 sampleDraft) 0 3 { publicId := "v" } ++
      Tick.serve (.uploadPart 0 ⟨1, "etag", 5⟩) 1 1 { now := 1 } ++
      Tick.serve (.completeUpload 1 "v" sampleCompletion) 2 5 { now := 2 } ++
      Tick.serve .deliver 3 10 { now := 3, probe := some 7 })
    (by decide)

end Videum.Videos
