import Videum.Async.Alone
import Videum.Videos.Playback

/-!
# The worker by itself

One call of `VideoProcessingProcessor.process`
(`videos/processors/video-processing.processor.ts`), with nobody in between,
and with every step of the processing failing or not: the download, the two
tools, the thumbnail that is read and put, the update at the end.  The call
writes one row and one object, and the two keys it can confuse with others,
those of its thumbnail and of its original, are its own.

## Main results

* `thumbnailKeyFor_injective`, `thumbnailKeyFor_ne` — thumbnails have keys of
  their own.
* `processFile_alone` — where the processing may stop, and what it has done
  by then.
* `process_isolated` — the three outcomes of a call, and what it leaves alone.
-/

namespace Videum.Videos

open Videum.Async

/-! ## Keys -/

theorem thumbnailKeyFor_storageKeyFor (publicId : String) :
    thumbnailKeyFor (storageKeyFor publicId) =
      "videos/" ++ publicId ++ "/thumbnail.jpg" := by
  have hdir : dirOf (storageKeyFor publicId) = "videos/" ++ publicId := by
    apply String.toList_injective
    simp [dirOf, storageKeyFor]
  rw [thumbnailKeyFor, hdir]

/-- Two videos do not share a thumbnail. -/
theorem thumbnailKeyFor_injective :
    Function.Injective fun publicId =>
      thumbnailKeyFor (storageKeyFor publicId) := by
  intro p q h
  have hlist := congrArg String.toList h
  simp only [thumbnailKeyFor_storageKeyFor, String.toList_append] at hlist
  exact String.toList_injective (List.append_cancel_left
    (List.append_cancel_right hlist))

/-! ## A call of the worker -/

/-- The steps that may fail: all between the look at the row and the update
that compensates. -/
def VideoOp.isProcessing : VideoOp → Bool
  | .downloadToFile _ => true
  | .ffprobe => true
  | .ffmpeg _ => true
  | .readFile => true
  | .putObject _ _ _ => true
  | .updateVideo _ patch => patch.status == some .ready
  | _ => false

/-- The worker as a system of its own: a request is a job. -/
def workerSystem :
    System VideoIface Moment VideoError Store ProcessVideoJobData Unit where
  exec := Store.exec
  guard _ _ _ _ := true
  body := process

/-- One job, and any step of its processing may fail with any error. -/
def processingMayFail :
    Policy VideoIface Moment VideoError Store ProcessVideoJobData Unit where
  accepts _ _ := False
  fault op _ := op.isProcessing

abbrev WorkerLog :=
  Log VideoIface Moment VideoError Store ProcessVideoJobData

abbrev WorkerRun :=
  Config VideoIface Moment VideoError Store ProcessVideoJobData Unit

/-- From the stores `s`, a call for `job` that runs alone ends with `r`. -/
structure ProcessesAlone (s : Store) (job : ProcessVideoJobData)
    (r : Except VideoError Unit) (c' : WorkerRun) : Prop where
  steps : ∃ m, Steps workerSystem processingMayFail
    (workerSystem.spawn (Config.start s) job m) c'
  ended : c'.threads = [⟨job, Prog.ofExcept r⟩]

/-- What `ffprobe` has answered. -/
def VideoOp.probed :
    (op : VideoOp) → Except VideoError op.Res → Option (Option Rat)
  | .ffprobe, .ok stdout => some stdout
  | _, _ => none

/-- `ffprobe` has read this duration; one that is not finite counts as 0. -/
def Measured (log : WorkerLog) (durationSeconds : Rat) : Prop :=
  ∃ x ∈ log, ∃ stdout, x.op.probed x.res = some stdout ∧
    durationSeconds = stdout.getD 0

/-- The size of the thumbnail that was read. -/
def VideoOp.thumbnailSize :
    (op : VideoOp) → Except VideoError op.Res → Option Nat
  | .readFile, .ok size => some size
  | _, _ => none

/-- A thumbnail of this size was read. -/
def Extracted (log : WorkerLog) (size : Nat) : Prop :=
  ∃ x ∈ log, x.op.thumbnailSize x.res = some size

/-- No step of the processing has failed. -/
def Unfailed (log : WorkerLog) : Prop :=
  ∀ x ∈ log, x.op.isProcessing = true → x.res.isOk = true

/-- A step of the processing has failed with `e`. -/
def Failed (log : WorkerLog) (e : VideoError) : Prop :=
  ∃ x ∈ log, x.op.isProcessing = true ∧ x.res = .error e

theorem Measured.cons {log : WorkerLog} {durationSeconds : Rat}
    (h : Measured log durationSeconds)
    (x : Entry VideoIface Moment VideoError Store ProcessVideoJobData) :
    Measured (x :: log) durationSeconds := by
  obtain ⟨y, hy, hprobed⟩ := h
  exact ⟨y, .tail _ hy, hprobed⟩

theorem Extracted.cons {log : WorkerLog} {size : Nat} (h : Extracted log size)
    (x : Entry VideoIface Moment VideoError Store ProcessVideoJobData) :
    Extracted (x :: log) size := by
  obtain ⟨y, hy, hread⟩ := h
  exact ⟨y, .tail _ hy, hread⟩

theorem Unfailed.cons {log : WorkerLog} (h : Unfailed log)
    {x : Entry VideoIface Moment VideoError Store ProcessVideoJobData}
    (hx : x.op.isProcessing = true → x.res.isOk = true) : Unfailed (x :: log) :=
  List.forall_mem_cons.2 ⟨hx, h⟩

theorem Failed.cons {log : WorkerLog} {e : VideoError} (h : Failed log e)
    (x : Entry VideoIface Moment VideoError Store ProcessVideoJobData) :
    Failed (x :: log) e := by
  obtain ⟨y, hy, hfailed⟩ := h
  exact ⟨y, .tail _ hy, hfailed⟩

/-! ## What it may change -/

/-- The stores differ by `f` on the row of the job's video and by the
thumbnail of its key, and by nothing else. -/
structure Touches (job : ProcessVideoJobData) (f : Video → Video)
    (s s' : Store) : Prop where
  videos : s'.videos = s.videos.map fun r =>
    if r.id = job.video_id then f r else r
  nextVideoId : s'.nextVideoId = s.nextVideoId
  objects : ∀ key, key ≠ thumbnailKeyFor job.storage_key →
    s'.objects key = s.objects key
  uploads : s'.uploads = s.uploads ∧ s'.nextUploadId = s.nextUploadId
  queue : s'.waiting = s.waiting ∧ s'.running = s.running

section Touches

variable {job : ProcessVideoJobData} {f : Video → Video} {s s' : Store}

theorem Touches.refl (job : ProcessVideoJobData) (s : Store) :
    Touches job id s s where
  videos := by simp
  nextVideoId := rfl
  objects _ _ := rfl
  uploads := ⟨rfl, rfl⟩
  queue := ⟨rfl, rfl⟩

theorem Touches.putObject (h : Touches job f s s') (size : Nat) :
    Touches job f s (s'.putObject (thumbnailKeyFor job.storage_key) size) where
  videos := h.videos
  nextVideoId := h.nextVideoId
  objects key hkey := by
    rw [Store.putObject_objects_ne s' size hkey]
    exact h.objects key hkey
  uploads := h.uploads
  queue := h.queue

theorem Touches.updateVideo (h : Touches job id s s') (patch : VideoPatch) :
    Touches job patch.apply s (s'.updateVideo job.video_id patch) where
  videos := by
    have hsame : s'.videos = s.videos := by
      rw [h.videos]
      simp
    show s'.videos.map _ = _
    rw [hsame]
  nextVideoId := h.nextVideoId
  objects := h.objects
  uploads := h.uploads
  queue := h.queue

end Touches

/-- Two stores that agree on all rows but those of the video `id`. -/
def SameOthers (id : Nat) (s s' : Store) : Prop :=
  s'.videos.filter (·.id ≠ id) = s.videos.filter (·.id ≠ id)

theorem Touches.sameOthers {job : ProcessVideoJobData} {f : Video → Video}
    {s s' : Store} (h : Touches job f s s') (hf : ∀ r, (f r).id = r.id) :
    SameOthers job.video_id s s' := by
  unfold SameOthers
  rw [h.videos]
  induction s.videos with
  | nil => rfl
  | cons r rows ih =>
      by_cases hid : r.id = job.video_id
      · simpa [hid, hf] using ih
      · simpa [hid, hf] using ih

/-- How a call for `job` may end. -/
inductive ProcessOutcome (s : Store) (job : ProcessVideoJobData)
    (log : WorkerLog) : Except VideoError Unit → Store → Prop
  | skipped (hrow : ∀ v, s.row? job.video_id = some v → v.status = .ready) :
      ProcessOutcome s job log (.ok ()) s
  | succeeded {v : Video} {durationSeconds : Rat} {s' : Store}
      (hrow : s.row? job.video_id = some v) (hstatus : v.status ≠ .ready)
      {size : Nat} (hunfailed : Unfailed log)
      (hmeasured : Measured log durationSeconds)
      (hextracted : Extracted log size)
      (hstored : s'.objects (thumbnailKeyFor job.storage_key) = some size)
      (hchange : Touches job (fun r =>
        { r with
          duration_seconds := some (roundSeconds durationSeconds)
          thumbnail_key := some (thumbnailKeyFor job.storage_key)
          status := .ready }) s s') :
      ProcessOutcome s job log (.ok ()) s'
  | failed {v : Video} {e : VideoError} {s' : Store}
      (hrow : s.row? job.video_id = some v) (hstatus : v.status ≠ .ready)
      (hfailed : Failed log e)
      (hchange : Touches job (fun r => { r with status := .failed }) s s') :
      ProcessOutcome s job log (.error e) s'

/-! ## The program -/

section Program

variable {t : Nat} {request job : ProcessVideoJobData} {m : Moment}
  {s s₁ : Store} {log : WorkerLog}

/-- A step that changes nothing: the call ends with its failure, or goes on
with the stores it had. -/
theorem alone_unchanged {α : Type}
    {post : Except VideoError α → Moment → Store → WorkerLog → Prop}
    {op : VideoOp} {f : op.Res → VideoProg α} (hop : op.isProcessing = true)
    (hexec : ∀ m, (Store.exec m op s).2 = s) (hlog : Unfailed log)
    (herror : ∀ m e log, Failed log e → post (.error e) m s log)
    (hok : ∀ m v, (Store.exec m op s).1 = .ok v →
      Unfailed (workerSystem.entry t request m op none s :: log) →
      alone workerSystem processingMayFail t request post (f v) m s
        (workerSystem.entry t request m op none s :: log)) :
    alone workerSystem processingMayFail t request post (await op >>= f) m s
      log := by
  apply alone_call_any
  · intro m' fault e _ _ hanswer
    have hkept : (workerSystem.answer m' op fault s).2 = s := by
      cases fault with
      | none => exact hexec m'
      | some e' => rfl
    rw [hkept]
    exact herror m' e _ ⟨_, .head _, hop, hanswer⟩
  · intro m' v _ hanswer
    have hkept : (workerSystem.exec m' op s).2 = s := hexec m'
    rw [hkept]
    exact hok m' v hanswer (hlog.cons fun _ => congrArg Except.isOk hanswer)

/-- What the `try` block has done when it ends well. -/
structure FileDone (job : ProcessVideoJobData) (s s' : Store) (log : WorkerLog)
    (durationSeconds : Rat) (size : Nat) : Prop where
  unfailed : Unfailed log
  measured : Measured log durationSeconds
  extracted : Extracted log size
  stored : s'.objects (thumbnailKeyFor job.storage_key) = some size
  change : Touches job (readyPatch (roundSeconds durationSeconds)
    (thumbnailKeyFor job.storage_key)).apply s s'

/-- How the `try` block of the worker ends. -/
def FileEnds (job : ProcessVideoJobData) (s : Store) :
    Except VideoError Unit → Moment → Store → WorkerLog → Prop
  | .ok _, _, s', log => ∃ durationSeconds size,
      FileDone job s s' log durationSeconds size
  | .error e, _, s', log => Touches job id s s' ∧ Failed log e

/-- The update at the end. -/
theorem markReady_alone {durationSeconds : Rat} {size : Nat}
    (h : Touches job id s s₁) (hlog : Unfailed log)
    (hmeasured : Measured log durationSeconds)
    (hextracted : Extracted log size)
    (hstored : s₁.objects (thumbnailKeyFor job.storage_key) = some size) :
    alone workerSystem processingMayFail t request (FileEnds job s)
      (await (.updateVideo job.video_id
        (readyPatch (roundSeconds durationSeconds)
          (thumbnailKeyFor job.storage_key)))) m s₁ log := by
  refine alone_last ?_
  intro m' fault _
  cases fault with
  | some e => exact ⟨h, _, .head _, rfl, rfl⟩
  | none =>
      show FileEnds job s (Store.exec m' (.updateVideo job.video_id _) s₁).1 m'
        (Store.exec m' (.updateVideo job.video_id _) s₁).2 _
      rcases Store.exec_updateVideo_cases m' job.video_id
          (readyPatch (roundSeconds durationSeconds)
            (thumbnailKeyFor job.storage_key)) s₁ with hexec | hexec
      · have hok := congrArg (fun answer => answer.1.isOk) hexec
        rw [hexec]
        exact ⟨durationSeconds, size, hlog.cons fun _ => hok,
          hmeasured.cons _, hextracted.cons _, hstored, h.updateVideo _⟩
      · have herror := congrArg Prod.fst hexec
        rw [hexec]
        exact ⟨h, _, .head _, rfl, herror⟩

/-- The thumbnail is put, and the row updated. -/
theorem putThumbnail_alone {durationSeconds : Rat} {size : Nat}
    (hlog : Unfailed log) (hmeasured : Measured log durationSeconds)
    (hextracted : Extracted log size) :
    alone workerSystem processingMayFail t request (FileEnds job s)
      (await (.putObject (thumbnailKeyFor job.storage_key) size "image/jpeg") >>=
        fun _ => await (.updateVideo job.video_id
          (readyPatch (roundSeconds durationSeconds)
            (thumbnailKeyFor job.storage_key)))) m s log := by
  apply alone_call_any
  · intro m' fault e _ _ hanswer
    cases fault with
    | some e' => exact ⟨.refl job s, _, .head _, rfl, hanswer⟩
    | none => exact nomatch hanswer
  · intro m' _ _ hanswer
    apply markReady_alone ((Touches.refl job s).putObject size)
      (hlog.cons fun _ => congrArg Except.isOk hanswer) (hmeasured.cons _)
      (hextracted.cons _)
    exact Function.update_self _ _ _

theorem processFile_alone (hlog : Unfailed log) :
    alone workerSystem processingMayFail t request (FileEnds job s)
      (processFile job) m s log := by
  have hstop : ∀ (m : Moment) (e : VideoError) (log : WorkerLog),
      Failed log e → FileEnds job s (.error e) m s log :=
    fun _ _ _ hfailed => ⟨.refl job s, hfailed⟩
  apply alone_unchanged rfl (fun _ => rfl) hlog hstop
  intro m₁ _ _ hlog₁
  apply alone_bind
  refine alone_unchanged rfl (fun _ => rfl) hlog₁
    (fun m e log => hstop m e log) ?_
  intro m₂ stdout hanswer hlog₂
  have hmeasured : Measured
      (workerSystem.entry t request m₂ .ffprobe none s ::
        workerSystem.entry t request m₁ (.downloadToFile job.storage_key) none
          s :: log) (stdout.getD 0) := by
    refine ⟨_, .head _, stdout, ?_, rfl⟩
    show VideoOp.probed .ffprobe (Store.exec m₂ .ffprobe s).1 = some stdout
    rw [hanswer]
    rfl
  apply alone_unchanged (m := m₂) rfl (fun _ => rfl) hlog₂ hstop
  intro m₃ _ _ hlog₃
  apply alone_unchanged rfl (fun _ => rfl) hlog₃ hstop
  intro m₄ thumbnail hread hlog₄
  refine putThumbnail_alone hlog₄ ((hmeasured.cons _).cons _)
    ⟨_, .head _, ?_⟩
  show VideoOp.thumbnailSize .readFile (Store.exec m₄ .readFile s).1 =
    some thumbnail
  rw [hread]
  rfl

/-- The work directory is removed in any case, and that is all. -/
theorem rm_alone {post : Except VideoError Unit → Moment → Store →
      WorkerLog → Prop}
    (hpost : ∀ m x, (x.op.isProcessing = true → x.res.isOk = true) →
      post (.ok ()) m s (x :: log)) :
    alone workerSystem processingMayFail t request post (await .rm) m s log := by
  intro m' fault _ hfault
  cases fault with
  | some e => exact nomatch hfault
  | none => exact hpost m' _ fun hop => nomatch hop

/-- The row is marked `failed`, and the error goes on. -/
theorem compensate_alone {e : VideoError}
    {post : Except VideoError Unit → Moment → Store → WorkerLog → Prop}
    (hpost : ∀ m x, post (.error e) m (s.updateVideo job.video_id failedPatch)
      (x :: log)) :
    alone workerSystem processingMayFail t request post
      (await (.updateVideo job.video_id failedPatch) >>= fun _ =>
        Prog.throw e) m s log := by
  apply alone_call (fun _ => rfl)
  · exact fun _ _ _ hanswer => nomatch hanswer
  · exact fun m' _ _ _ => hpost m' _

/-- The worker once it has read a row to process. -/
theorem processVideo_alone (hlog : Unfailed log) {v : Video}
    (hrow : s.row? job.video_id = some v) (hstatus : v.status ≠ .ready) :
    alone workerSystem processingMayFail t request
      (fun r _ s' log => ProcessOutcome s job log r s') (processVideo job) m s
      log := by
  apply alone_call (fun _ => rfl)
  · exact fun _ _ _ hanswer => nomatch hanswer
  · intro m₁ _ _ _
    apply alone_tryFinally
    apply alone_tryCatch
    apply alone_mono ?_ (processFile_alone (hlog.cons fun _ => rfl))
    intro r m₂ s₂ log₂ hend
    cases r with
    | ok u =>
        obtain ⟨durationSeconds, size, hdone⟩ := hend
        apply rm_alone
        intro m₃ x hx
        exact .succeeded hrow hstatus (hdone.unfailed.cons hx)
          (hdone.measured.cons x) (hdone.extracted.cons x) hdone.stored
          hdone.change
    | error e =>
        obtain ⟨hchange, hfailed⟩ := hend
        apply compensate_alone
        intro m₃ x
        apply rm_alone
        intro m₄ y _
        exact .failed hrow hstatus ((hfailed.cons x).cons y)
          (hchange.updateVideo failedPatch)

theorem process_alone (hlog : Unfailed log) :
    alone workerSystem processingMayFail t request
      (fun r _ s' log => ProcessOutcome s job log r s') (process job) m s
      log := by
  apply alone_call (fun _ => rfl)
  · exact fun _ _ _ hanswer => nomatch hanswer
  · intro m₁ video? _ hanswer
    have hrow : s.row? job.video_id = video? := Except.ok.inj hanswer
    cases video? with
    | none =>
        apply ProcessOutcome.skipped
        intro v hv
        rw [hrow] at hv
        exact nomatch hv
    | some video =>
        by_cases hready : video.status = .ready
        · dsimp only
          rw [if_pos hready]
          apply ProcessOutcome.skipped
          intro v hv
          rw [hrow] at hv
          cases hv
          exact hready
        · dsimp only
          rw [if_neg hready]
          exact processVideo_alone (hlog.cons fun _ => rfl) hrow hready

end Program

/-! ## The result -/

section Isolation

variable {s : Store} {v : Video} {r : Except VideoError Unit} {c' : WorkerRun}

theorem ProcessesAlone.outcome {job : ProcessVideoJobData}
    (h : ProcessesAlone s job r c') :
    ProcessOutcome s job c'.log r c'.state := by
  obtain ⟨⟨m, hsteps⟩, hended⟩ := h
  obtain ⟨_, houtcome⟩ := Steps.ended_alone rfl hsteps hended
    (process_alone (List.forall_mem_nil _))
  exact houtcome

/-- `v` was created by `createDraft`, and so were the rows of the table; the
one with the public id of `v`, if it is there, is the row of `v`. -/
structure DraftedIn (s : Store) (v : Video) : Prop where
  own : OwnKey v
  rows : ∀ w ∈ s.videos, OwnKey w
  distinct : ∀ w ∈ s.videos, w.public_id = v.public_id ↔ w.id = v.id

/-- So it is for every row of every run. -/
theorem draftedIn_of_reachable {cfg : VideoConfig} {P : VideoPolicy}
    {c : VideoRun} (h : Reachable (videoSystem cfg) P {} c)
    (hv : v ∈ c.state.videos) : DraftedIn c.state v where
  own := (ownKeys_of_reachable h).rows v hv
  rows := (ownKeys_of_reachable h).rows
  distinct := by
    intro w hw
    constructor
    · intro hpublic
      rw [uniquePublicIds_of_reachable h w hw v hv hpublic]
    · intro hid
      have hkeyed := keyed_of_reachable h
      have hfound := hkeyed.found w hw
      rw [hid, hkeyed.found v hv] at hfound
      rw [Option.some.inj hfound]

/-- The thumbnail of another video has another key. -/
theorem OwnKey.thumbnail_ne {w : Video} (hw : OwnKey w) (hv : OwnKey v)
    (h : w.public_id ≠ v.public_id) :
    thumbnailKeyFor w.storage_key ≠ thumbnailKeyFor v.storage_key := by
  rw [hw, hv]
  exact fun heq => h (thumbnailKeyFor_injective heq)

/-- And no thumbnail has the key of an original. -/
theorem OwnKey.original_ne {w : Video} (hw : OwnKey w) (key : String) :
    w.storage_key ≠ thumbnailKeyFor key := by
  rw [hw]
  exact (thumbnailKeyFor_ne key w.public_id).symm

/-- Whatever the outcome, no other row and no other object changes. -/
theorem ProcessOutcome.frame {job : ProcessVideoJobData} {log : WorkerLog}
    {s' : Store} (h : ProcessOutcome s job log r s') :
    SameOthers job.video_id s s' ∧
      ∀ key, key ≠ thumbnailKeyFor job.storage_key →
        s'.objects key = s.objects key := by
  cases h with
  | skipped _ => exact ⟨rfl, fun _ _ => rfl⟩
  | succeeded _ _ _ _ _ _ hchange =>
      exact ⟨hchange.sameOthers fun _ => rfl, hchange.objects⟩
  | failed _ _ _ hchange =>
      exact ⟨hchange.sameOthers fun _ => rfl, hchange.objects⟩

/--
**The worker in isolation.**  One call of `process` for the job of a video
`v`, run alone from any stores, has one of the three outcomes, whichever step
of the processing fails: nothing happens; no step has failed, and the row of
`v` becomes ready with its duration and with the thumbnail that was read and
put; or a step has failed, the row becomes failed, and the error is thrown
again.  No other row changes, and no object but the thumbnail of `v`, which is
neither the thumbnail nor the original of another video, nor the original of
`v` itself.
-/
theorem process_isolated (hdrafts : DraftedIn s v)
    (h : ProcessesAlone s ⟨v.id, v.storage_key⟩ r c') :
    ProcessOutcome s ⟨v.id, v.storage_key⟩ c'.log r c'.state ∧
    SameOthers v.id s c'.state ∧
    (∀ key, key ≠ thumbnailKeyFor v.storage_key →
      c'.state.objects key = s.objects key) ∧
    c'.state.objects v.storage_key = s.objects v.storage_key ∧
    ∀ w ∈ s.videos, w.id ≠ v.id →
      c'.state.objects w.storage_key = s.objects w.storage_key ∧
      c'.state.objects (thumbnailKeyFor w.storage_key) =
        s.objects (thumbnailKeyFor w.storage_key) := by
  have houtcome := h.outcome
  obtain ⟨hrows, hobjects⟩ := houtcome.frame
  refine ⟨houtcome, hrows, hobjects, ?_, ?_⟩
  · exact hobjects _ (hdrafts.own.original_ne _)
  · intro w hw hid
    have hown := hdrafts.rows w hw
    have hpublic : w.public_id ≠ v.public_id :=
      fun heq => hid ((hdrafts.distinct w hw).1 heq)
    exact ⟨hobjects _ (hown.original_ne _),
      hobjects _ (hown.thumbnail_ne hdrafts.own hpublic)⟩

end Isolation

/-- Two videos in processing, with their originals. -/
def twoVideos : Store where
  videos := [{ uploadingOf 1 "a" with status := .processing },
    { uploadingOf 2 "b" with status := .processing }]
  nextVideoId := 3
  objects key :=
    if key = "videos/a/original" ∨ key = "videos/b/original" then some 8
    else none

/-- The update at the end fails, after the thumbnail was put. -/
def lateFailure : List (Tick Moment VideoError ProcessVideoJobData) :=
  Tick.answers 0 7 { probe := some 7, thumbnailSize := 3 } ++
    (.perform 0 { now := 0 } (some .database) ::
      Tick.answers 0 2 { now := 0 })

def failedLate : WorkerRun :=
  (workerSystem.schedule processingMayFail
    (workerSystem.spawn (Config.start twoVideos) ⟨1, "videos/a/original"⟩ {})
    lateFailure).get (by decide)

theorem processesAlone_failedLate :
    ProcessesAlone twoVideos ⟨1, "videos/a/original"⟩ (.error .database)
      failedLate where
  steps := ⟨{}, Steps.of_schedule lateFailure (Option.some_get _).symm
    (by simp [lateFailure, Tick.answers, System.Admitted])⟩
  ended := rfl

/-- The first video has failed, with its thumbnail left behind; the second is
as it was. -/
theorem process_isolated_failedLate :
    SameOthers 1 twoVideos failedLate.state ∧
      failedLate.state.videos.map Video.status = [.failed, .processing] ∧
      failedLate.state.objects "videos/a/thumbnail.jpg" = some 3 := by
  have hrows : ∀ w ∈ twoVideos.videos, OwnKey w :=
    List.forall_mem_cons.2 ⟨rfl, List.forall_mem_singleton.2 rfl⟩
  have hdrafts : DraftedIn twoVideos (uploadingOf 1 "a") :=
    ⟨rfl, hrows, by decide⟩
  exact ⟨(process_isolated hdrafts processesAlone_failedLate).2.1, by decide,
    by decide⟩

end Videum.Videos
