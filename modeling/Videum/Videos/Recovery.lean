import Videum.Videos.Sweep
import Videum.Videos.Verdict

/-!
# Which videos can still be played

A video is playable once its row is `ready`.  Calls fail in between, so rows
may be left `processing` without a job, or `failed` with their object in
storage.  Whether some later run can still make such a row `ready` depends on
its status and the queue alone: the owner or a sweep may go on with a row that
is `uploading`, a worker with a job that is waiting or running, and nobody
with anything else.

## Main results

* `Lost.steps` — a row that is lost stays as it is.
* `rescued_of_uploading`, `ready_of_job` — the runs that make a row `ready`.
* `mayBecomeReady_iff` — the rows that can still become `ready`.
-/

namespace Videum.Videos

open Videum.Async
open Videum.Common

/-- Somebody may go on with the video, or need not. -/
def Recoverable (s : Store) (v : Video) : Prop :=
  v.status = .uploading ∨ v.status = .ready ∨
    ∃ job ∈ s.jobs, job.video_id = v.id

instance (s : Store) (v : Video) : Decidable (Recoverable s v) :=
  inferInstanceAs (Decidable (_ ∨ _ ∨ ∃ job ∈ s.jobs, job.video_id = v.id))

/-- Some run from here makes the row `ready`. -/
def MayBecomeReady (cfg : VideoConfig) (c : VideoRun) (id : Nat) : Prop :=
  ∃ c', Steps (videoSystem cfg) anyRun c c' ∧
    (c'.state.row? id).map Video.status = some .ready

/-! ## Lost rows -/

/-- Since the idle moment `c` nobody has touched the row `v`, been handed a
job of it, or read it as a draft. -/
structure Lost (c b : VideoRun) (v : Video) : Prop where
  row : b.state.row? v.id = some v
  jobs : ∀ job ∈ b.state.jobs, job.video_id ≠ v.id
  read : ∀ x ∈ b.log, c.threads.length ≤ x.tid → ∀ w : Video,
    x.op.foundRow x.res = some w ∧ w.status = .uploading ∨
      w ∈ x.op.staleRows x.res → w.id ≠ v.id
  handed : ∀ x ∈ b.log, c.threads.length ≤ x.tid → ∀ job,
    x.op.takenJob x.res = some job → job.video_id ≠ v.id

namespace Lost

variable {cfg : VideoConfig} {P : VideoPolicy} {c b : VideoRun} {v : Video}
  {t : Nat} {request : VideoRequest}

/-- No newcomer holds the row as a draft. -/
theorem not_held (h : Lost c b v) (ht : c.threads.length ≤ t) {w : Video}
    (hw : Completing cfg.uuid request (own t b.log) w ∨
      Sweeping request (own t b.log) w) : w.id ≠ v.id := by
  rcases hw with ⟨_, _, ⟨x, hx, _, hfound⟩, hstatus⟩ | ⟨_, x, hx, hstale⟩
  · obtain ⟨hmem, htid⟩ := mem_own.1 hx
    exact h.read x hmem (htid ▸ ht) w (.inl ⟨hfound, hstatus⟩)
  · obtain ⟨hmem, htid⟩ := mem_own.1 hx
    exact h.read x hmem (htid ▸ ht) w (.inr hstale)

theorem not_working (h : Lost c b v) (ht : c.threads.length ≤ t)
    {job : ProcessVideoJobData} (hjob : Working request (own t b.log) job) :
    job.video_id ≠ v.id := by
  obtain ⟨_, ⟨x, hx, htaken⟩, _⟩ := hjob
  obtain ⟨hmem, htid⟩ := mem_own.1 hx
  exact h.handed x hmem (htid ▸ ht) job htaken

/-- The calls of newcomers leave the row alone. -/
theorem row_exec (h : Lost c b v) (ht : c.threads.length ≤ t) {op : VideoOp}
    (hlaw : Traced cfg.uuid request (own t b.log) op) (m : Moment) :
    (Store.exec m op b.state).2.row? v.id = some v := by
  cases op with
  | saveVideo w =>
      obtain ⟨w₀, hw₀, rfl, _⟩ := hlaw
      have hne : v.id ≠ w₀.id := (h.not_held ht (.inl hw₀)).symm
      refine (Store.row?_saveVideo b.state _ v.id).trans ?_
      rw [h.row, Option.map_some]
      exact congrArg some (if_neg hne)
  | updateVideo key patch =>
      have hne : v.id ≠ key := by
        rcases hlaw with ⟨w, hw, hid, _⟩ | ⟨job, hjob, hid, _⟩
        · have hheld : Completing cfg.uuid request (own t b.log) w ∨
              Sweeping request (own t b.log) w := .inr hw
          exact hid ▸ (h.not_held ht hheld).symm
        · exact hid ▸ (h.not_working ht hjob).symm
      rcases Store.exec_updateVideo_cases m key patch b.state with
        hexec | hexec
      · rw [hexec, Store.row?_updateVideo, h.row, Option.map_some, if_neg hne]
      · rw [hexec]
        exact h.row
  | _ => exact Store.row?_exec h.row m _ rfl

/-- They enqueue no job of it. -/
theorem jobs_exec (h : Lost c b v) (ht : c.threads.length ≤ t) {op : VideoOp}
    (hlaw : Traced cfg.uuid request (own t b.log) op) (m : Moment) :
    ∀ job ∈ (Store.exec m op b.state).2.jobs, job.video_id ≠ v.id := by
  intro job hjob
  rcases mem_jobs_exec hjob with hold | rfl
  · exact h.jobs job hold
  · obtain ⟨w, hw, rfl, _⟩ := hlaw
    exact h.not_held ht hw

/-- And they are not shown it as a draft. -/
theorem not_read (h : Lost c b v) (hkeyed : b.state.Keyed)
    (hstatus : v.status ≠ .uploading) {m : Moment} {op : VideoOp}
    {fault : Option VideoError} {w : Video}
    (hw : op.foundRow ((videoSystem cfg).answer m op fault b.state).1 =
        some w ∧ w.status = .uploading ∨
      w ∈ op.staleRows ((videoSystem cfg).answer m op fault b.state).1) :
    w.id ≠ v.id := by
  intro hid
  have hdraft : w ∈ b.state.videos ∧ w.status = .uploading := by
    rcases hw with ⟨hfound, huploading⟩ | hstale
    · exact ⟨(mem_of_foundRow hfound).1, huploading⟩
    · exact mem_of_staleRows hstale
  have hrow := hkeyed.found w hdraft.1
  rw [hid, h.row] at hrow
  cases hrow
  exact hstatus hdraft.2

/-- An answer to a newcomer keeps the row lost. -/
theorem answer (h : Lost c b v) (hstatus : v.status ≠ .uploading)
    {b' : VideoRun} (hb : Reachable (videoSystem cfg) P {} b)
    (hb' : Reachable (videoSystem cfg) P {} b') (ht : c.threads.length ≤ t)
    {m : Moment} {op : VideoOp} {fault : Option VideoError}
    (hstate : b'.state = ((videoSystem cfg).answer m op fault b.state).2)
    (hlog : b'.log = (videoSystem cfg).entry t request m op fault b.state ::
      b.log) : Lost c b' v := by
  have hlaw : Traced cfg.uuid request (own t b.log) op := traced_newest hb' hlog
  constructor
  · rw [hstate]
    cases fault with
    | some e => exact h.row
    | none => exact h.row_exec ht hlaw m
  · rw [hstate]
    cases fault with
    | some e => exact h.jobs
    | none => exact h.jobs_exec ht hlaw m
  · rw [hlog]
    apply List.forall_mem_cons.2 ⟨?_, h.read⟩
    intro _ w hw
    exact h.not_read (keyed_of_reachable hb) hstatus hw
  · rw [hlog]
    apply List.forall_mem_cons.2 ⟨?_, h.handed⟩
    intro _ job hjob
    cases fault with
    | some e => exact absurd hjob (by cases op <;> exact nofun)
    | none => exact h.jobs job (mem_jobs_of_taken hjob)

/-- A row that is neither a draft nor `ready`, and has no job, is lost. -/
theorem of_idle (hc : Reachable (videoSystem cfg) P {} c)
    (hv : v ∈ c.state.videos)
    (hjobs : ¬ ∃ job ∈ c.state.jobs, job.video_id = v.id) : Lost c c v := by
  have hold : ∀ x ∈ c.log, ¬ c.threads.length ≤ x.tid :=
    fun x hx => Nat.not_le_of_lt (hc.logOwned.tid_lt hx)
  exact
    { row := (keyed_of_reachable hc).found v hv
      jobs := fun job hjob hid => hjobs ⟨job, hjob, hid⟩
      read := fun x hx hnew => absurd hnew (hold x hx)
      handed := fun x hx hnew => absurd hnew (hold x hx) }

/-- Whatever happens after an idle moment, and whatever fails: a lost row
stays lost. -/
theorem steps (hc : Reachable (videoSystem cfg) P {} c) (hidle : c.idle = true)
    (h : Lost c c v) (hstatus : v.status ≠ .uploading)
    (hs : Steps (videoSystem cfg) P c b) : Lost c b v := by
  induction hs with
  | refl => exact h
  | @tail b b' hb hstep ih =>
      have hreach : Reachable (videoSystem cfg) P {} b := hc.steps hb
      have hreach' : Reachable (videoSystem cfg) P {} b' := .tail hreach hstep
      cases hstep with
      | spawn request m _ => exact ⟨ih.row, ih.jobs, ih.read, ih.handed⟩
      | @perform t request op k m fault hthread _ _ =>
          have ht : c.threads.length ≤ t := Steps.newcomer hb hidle hthread rfl
          exact ih.answer hstatus hreach hreach' ht rfl rfl

end Lost

/-! ## Runs that make a row `ready` -/

section Runs

variable {cfg : VideoConfig} {c : VideoRun} {v : Video}

/-- Any request may be served at one moment, whatever others wait for. -/
theorem served (cfg : VideoConfig) (c : VideoRun) (request : VideoRequest)
    (m : Moment) :
    ∃ c', Steps (videoSystem cfg) anyRun c c' ∧
      c'.state = ((serve cfg request).eval Store.exec m c.state).2 := by
  obtain ⟨c', hsteps, _, hstate⟩ : ∃ c' : VideoRun,
      Steps (videoSystem cfg) anyRun ((videoSystem cfg).spawn c request m) c' ∧
      c'.threads = c.threads ++ [⟨request, Prog.ofExcept
        (((videoSystem cfg).body request).eval (videoSystem cfg).exec m
          c.state).1⟩] ∧
      c'.state = (((videoSystem cfg).body request).eval (videoSystem cfg).exec m
        c.state).2 :=
    Steps.at_once (Prog.admits_of_guard (fun _ _ => rfl) _)
  exact ⟨c', .head (.spawn request m trivial) hsteps, hstate⟩

theorem MayBecomeReady.of_steps {c' : VideoRun} {id : Nat}
    (hs : Steps (videoSystem cfg) anyRun c c')
    (h : MayBecomeReady cfg c' id) : MayBecomeReady cfg c id := by
  obtain ⟨c'', hs', hready⟩ := h
  exact ⟨c'', hs.trans hs', hready⟩

/-! A worker that is handed a job. -/

/-- The worker's calls, when the object is there and its duration fits. -/
theorem processFile_eval {m : Moment} {s : Store} {job : ProcessVideoJobData}
    (hobject : (s.objects job.storage_key).isSome = true)
    (hfits : isInt4 (roundSeconds (m.probe.getD 0)) = true) :
    (processFile job).eval Store.exec m s = (.ok (),
      (s.putObject (thumbnailKeyFor job.storage_key) m.thumbnailSize).updateVideo
        job.video_id (readyPatch (roundSeconds (m.probe.getD 0))
          (thumbnailKeyFor job.storage_key))) := by
  have hdownload : Store.exec m (.downloadToFile job.storage_key) s =
      (.ok (), s) := by
    rw [Store.exec, if_pos hobject]
  have hpatch : (readyPatch (roundSeconds (m.probe.getD 0))
      (thumbnailKeyFor job.storage_key)).fits = true := hfits
  refine (Prog.eval_call_ok (I := VideoIface) hdownload _).trans ?_
  show (await (.updateVideo job.video_id (readyPatch _ _))).eval Store.exec m
    (s.putObject (thumbnailKeyFor job.storage_key) m.thumbnailSize) = _
  rw [Prog.eval_call]
  exact Store.exec_updateVideo_of_fits hpatch m job.video_id _

theorem processVideo_eval {m : Moment} {s : Store} {job : ProcessVideoJobData}
    (hobject : (s.objects job.storage_key).isSome = true)
    (hfits : isInt4 (roundSeconds (m.probe.getD 0)) = true) :
    (processVideo job).eval Store.exec m s =
      (processFile job).eval Store.exec m s := by
  have hguarded : ∀ (onError : VideoError → VideoProg Unit)
      (cleanup : VideoProg Unit), cleanup.eval Store.exec m =
        (fun s => (.ok (), s)) →
      ((Prog.tryCatch (processFile job) onError).tryFinally cleanup).eval
        Store.exec m s = (processFile job).eval Store.exec m s := by
    intro onError cleanup hcleanup
    rw [Prog.eval_tryFinally, Prog.eval_tryCatch,
      processFile_eval hobject hfits, hcleanup]
  exact hguarded _ _ rfl

/-- The worker makes the row `ready`, unless it is. -/
theorem process_eval {m : Moment} {s : Store} {job : ProcessVideoJobData}
    (hrow : s.row? job.video_id = some v)
    (hobject : (s.objects job.storage_key).isSome = true)
    (hfits : isInt4 (roundSeconds (m.probe.getD 0)) = true) :
    (((process job).eval Store.exec m s).2.row? job.video_id).map
      Video.status = some .ready := by
  have hfound : Store.exec m (.findVideoById job.video_id) s =
      (.ok (some v), s) :=
    congrArg (fun row => (Except.ok row, s)) hrow
  rw [process, Prog.eval_call_ok (I := VideoIface) hfound]
  by_cases hready : v.status = .ready
  · simp only [if_pos hready]
    show (s.row? job.video_id).map Video.status = _
    rw [hrow, Option.map_some, hready]
  · simp only [if_neg hready]
    rw [processVideo_eval hobject hfits, processFile_eval hobject hfits,
      Store.row?_updateVideo]
    show ((s.row? job.video_id).map _).map Video.status = _
    rw [hrow, Option.map_some, if_pos (Store.row?_id hrow)]
    rfl

/-- A waiting job may be handed to a worker, and a running one that has
stalled once more. -/
theorem exists_pick {s : Store} {job : ProcessVideoJobData}
    (hjob : job ∈ s.jobs) :
    ∃ pick, (s.takeJob pick).1 = some job ∧
      (s.takeJob pick).2.videos = s.videos ∧
      (s.takeJob pick).2.objects = s.objects := by
  rcases List.mem_append.1 hjob with hwaiting | hrunning
  · obtain ⟨i, hi⟩ := List.mem_iff_getElem?.1 hwaiting
    refine ⟨.fresh i, ?_⟩
    simp only [Store.takeJob, hi, and_self]
  · obtain ⟨i, hi⟩ := List.mem_iff_getElem?.1 hrunning
    exact ⟨.again i, hi, rfl, rfl⟩

/-- The object of an enqueued job is there. -/
theorem object_of_job (h : Reachable (videoSystem cfg) anyRun {} c)
    {job : ProcessVideoJobData} (hjob : job ∈ c.state.jobs) :
    ∃ r, c.state.row? job.video_id = some r ∧
      (c.state.objects job.storage_key).isSome = true := by
  have hadded := (queued_of_reachable h).jobs job hjob
  obtain ⟨r₀, hr₀, hid, hkey⟩ := jobOf_of_added h hadded
  obtain ⟨r, hr, hdesc⟩ := (provenance_of_reachable h).1.kept r₀ hr₀
  obtain ⟨y, hy, hmark⟩ := marked_of_added h hadded
  rw [← hid, ← hkey, ← hdesc.id]
  rw [← hid] at hmark
  exact ⟨r, (keyed_of_reachable h).found r hr, object_of_marked h hy hr₀ hmark⟩

/-- With a job in the queue the row may become `ready`. -/
theorem ready_of_job (h : Reachable (videoSystem cfg) anyRun {} c)
    {job : ProcessVideoJobData} (hjob : job ∈ c.state.jobs) :
    MayBecomeReady cfg c job.video_id := by
  obtain ⟨r, hrow, hobject⟩ := object_of_job h hjob
  obtain ⟨pick, htaken, hvideos, hobjects⟩ := exists_pick hjob
  obtain ⟨c', hsteps, hstate⟩ :=
    served cfg c .deliver { pick := pick }
  refine ⟨c', hsteps, ?_⟩
  have htake : Store.exec { pick := pick } .takeJob c.state =
      (.ok (some job), (c.state.takeJob pick).2) :=
    congrArg (fun job? => (Except.ok job?, (c.state.takeJob pick).2)) htaken
  have hdeliver : deliver.eval Store.exec { pick := pick } c.state =
      (process job).eval Store.exec { pick := pick }
        (c.state.takeJob pick).2 :=
    Prog.eval_call_ok (I := VideoIface) htake _
  rw [hstate, serve, Prog.pure_eq, Prog.eval_map, hdeliver]
  apply process_eval (v := r)
  · unfold Store.row?
    rw [hvideos]
    exact hrow
  · rw [hobjects]
    exact hobject
  · show isInt4 (roundSeconds 0) = true
    decide

/-! A sweep that comes late enough. -/

/-- The sweep enqueues the job of a draft whose object is there. -/
theorem job_of_sweep (h : Reachable (videoSystem cfg) anyRun {} c)
    (hv : v ∈ c.state.videos) (hstatus : v.status = .uploading)
    (hobject : (c.state.objects v.storage_key).isSome = true) :
    ∃ c', Steps (videoSystem cfg) anyRun c c' ∧
      ⟨v.id, v.storage_key⟩ ∈ c'.state.jobs := by
  obtain ⟨m, hm⟩ : ∃ m : Moment,
      m.now = v.created_at + cfg.abandonedUploadTimeoutMs + 1 :=
    ⟨{ now := v.created_at + cfg.abandonedUploadTimeoutMs + 1 }, rfl⟩
  obtain ⟨c', hsteps, hstate⟩ := served cfg c .sweep m
  refine ⟨c', hsteps, ?_⟩
  have hsweep : ((sweep cfg).eval Store.exec m c.state).2 =
      sweepAll (fun _ => none) m (c.state.staleDrafts (cutoffOf cfg m))
        c.state :=
    sweepFrom_eval (fun _ => none) m (cutoffOf cfg m) c.state
  have hstale : v ∈ c.state.staleDrafts (cutoffOf cfg m) := by
    refine List.mem_filter.2 ⟨hv, decide_eq_true ⟨hstatus, ?_⟩⟩
    rw [cutoffOf, hm]
    omega
  have hrows : c.state.staleDrafts (cutoffOf cfg m) ⊆ c.state.videos :=
    List.filter_subset_self _
  have hsettled : ⟨v.id, v.storage_key⟩ ∈
      (settlement (fun _ => none) c.state.objects v).jobs := by
    obtain ⟨size, hsize⟩ := Option.isSome_iff_exists.1 hobject
    simp [settlement, hsize]
  rw [hstate, serve, Prog.pure_eq, Prog.eval_map, hsweep,
    sweepAll_eq _ m (keyed_of_reachable h) hrows]
  apply List.mem_append_left
  apply List.mem_append_right
  exact List.mem_flatMap.2 ⟨v, hstale, hsettled⟩

/-! An owner who uploads the file in one part. -/

/-- A completed upload has left its object. -/
def UploadsAssembled (s : Store) : Prop :=
  ∀ id u, s.uploads id = some u → u.completed = true →
    (s.objects u.key).isSome = true

theorem UploadsAssembled.exec {s : Store} (h : UploadsAssembled s) (m : Moment)
    (op : VideoOp) : UploadsAssembled (Store.exec m op s).2 := by
  intro id u hu hdone
  cases op with
  | createMultipartUpload key contentType =>
      by_cases hid : id = s.nextUploadId
      · subst hid
        simp only [Store.exec, Store.createMultipartUpload,
          Function.update_self] at hu
        cases hu
        cases hdone
      · simp only [Store.exec, Store.createMultipartUpload,
          Function.update_of_ne hid] at hu
        exact h id u hu hdone
  | uploadPart key part =>
      rw [(Store.frame_exec m _ s).objects rfl]
      cases hok : (Store.exec m (.uploadPart key part) s).1.isOk with
      | false =>
          rw [Store.exec_of_refused hok] at hu
          exact h id u hu hdone
      | true =>
          obtain ⟨_, u₀, hu₀, huploads⟩ := Store.uploadPart_of_ok hok
          simp only [Store.exec, huploads] at hu
          by_cases hid : id = key
          · subst hid
            rw [Function.update_self] at hu
            cases hu
            exact h id u₀ hu₀ hdone
          · rw [Function.update_of_ne hid] at hu
            exact h id u hu hdone
  | completeMultipartUpload key uploadId parts =>
      cases hc : s.completable m.completion key uploadId parts with
      | none =>
          simp only [Store.exec, Store.completeMultipartUpload, hc] at hu ⊢
          exact h id u hu hdone
      | some pair =>
          obtain ⟨u₀, size⟩ := pair
          simp only [Store.exec, Store.completeMultipartUpload, hc,
            Store.putObject] at hu ⊢
          by_cases hkey : u.key = key
          · rw [hkey, Function.update_self, Option.isSome_some]
          · have hid : id ≠ uploadId := by
              rintro rfl
              rw [Function.update_self] at hu
              cases hu
              have hkey₀ : u₀.key = key := Store.completable_key hc
              exact hkey hkey₀
            rw [Function.update_of_ne hid] at hu
            rw [Function.update_of_ne hkey]
            exact h id u hu hdone
  | putObject key size contentType =>
      by_cases hkey : u.key = key
      · rw [hkey]
        simp only [Store.exec, Store.putObject, Function.update_self,
          Option.isSome_some]
      · simp only [Store.exec, Store.putObject, Function.update_of_ne hkey]
        exact h id u hu hdone
  | _ =>
      rw [(Store.frame_exec m _ s).uploads rfl] at hu
      rw [(Store.frame_exec m _ s).objects rfl]
      exact h id u hu hdone

theorem uploadsAssembled_of_reachable
    (h : Reachable (videoSystem cfg) anyRun {} c) :
    UploadsAssembled c.state := by
  refine h.state_inv ?_ fun _ m op _ _ hs => hs.exec m op
  intro id u hu
  cases hu

/-- A draft without an object is as it was inserted. -/
theorem inserted_of_absent (h : Reachable (videoSystem cfg) anyRun {} c)
    (hv : v ∈ c.state.videos) (hstatus : v.status = .uploading)
    (hnone : c.state.objects v.storage_key = none) : Inserted c.log v := by
  obtain ⟨r₀, hr₀, hdesc⟩ := (provenance_of_reachable h).1.rows v hv
  have hunmarked : Unmarked c.log r₀.id := by
    intro x hx hmark
    have hobject := object_of_marked h hx hr₀ hmark
    rw [← hdesc.storage_key, hnone] at hobject
    exact Bool.false_ne_true hobject
  have hrow := (keyed_of_reachable h).found v hv
  rw [hdesc.id] at hrow
  rcases row_of_unmarked h hr₀ hunmarked with ⟨_, hr⟩ | ⟨_, hr⟩
  · rw [hrow] at hr
    cases hr
    exact hr₀
  · rw [hrow] at hr
    cases hr
    cases hstatus

/-- Its upload is open. -/
theorem open_of_absent (h : Reachable (videoSystem cfg) anyRun {} c)
    (hv : Inserted c.log v) (hnone : c.state.objects v.storage_key = none) :
    ∃ id u, v.upload_id = some id ∧ c.state.uploads id = some u ∧
      u.key = v.storage_key ∧ u.completed = false := by
  obtain ⟨x, hx, hrow⟩ := hv
  obtain ⟨new, hop, _, hnew⟩ := (insertedRow_iff h hx).1 hrow
  obtain ⟨older, _, hlaw⟩ := (traced_of_reachable h).at_mem hx
  rw [hop] at hlaw
  obtain ⟨_, _, _, id, _, _, hid⟩ := hlaw
  have hupload : v.upload_id = some id := by
    rw [hnew]
    exact hid
  obtain ⟨u, hu, hkey⟩ := upload_of_inserted h ⟨x, hx, hrow⟩ hupload
  refine ⟨id, u, hupload, hu, hkey, Bool.eq_false_iff.2 fun hdone => ?_⟩
  have hobject := uploadsAssembled_of_reachable h id u hu hdone
  rw [hkey, hnone] at hobject
  exact Bool.false_ne_true hobject

/-- A completion whose object has the declared size goes on to the end. -/
theorem assembleUpload_eval {m : Moment} {s : Store} {dto : CompleteUploadDto}
    {id : Nat} {u : MultipartUpload}
    (hc : s.completable m.completion v.storage_key id (inOrder dto.parts) =
      some (u, v.size_bytes)) :
    (assembleUpload v id dto).eval Store.exec m s =
      (finalizeUpload v).eval Store.exec m (s.completeMultipartUpload
        m.completion v.storage_key id (inOrder dto.parts)).2 := by
  generalize hs₁ : (s.completeMultipartUpload m.completion v.storage_key id
    (inOrder dto.parts)).2 = s₁
  have hassemble : Store.exec m
      (.completeMultipartUpload v.storage_key id (inOrder dto.parts)) s =
        (.ok (), s₁) := by
    rw [← hs₁]
    simp only [Store.exec, Store.completeMultipartUpload, hc]
    rfl
  have hobject : s₁.objects v.storage_key = some v.size_bytes := by
    rw [← hs₁]
    simp only [Store.completeMultipartUpload, hc, Store.putObject,
      Function.update_self]
  have hhead : Store.exec m (.headObject v.storage_key) s₁ =
      (.ok (some v.size_bytes), s₁) :=
    congrArg (fun head => (Except.ok head, s₁)) hobject
  have hcompleted : (completeMultipartUpload v.storage_key id dto.parts).eval
      Store.exec m s = (.ok (), s₁) :=
    (Prog.eval_call (I := VideoIface) _).trans hassemble
  rw [assembleUpload, Prog.eval_bind, Prog.eval_tryCatch, hcompleted]
  refine (Prog.eval_call_ok (I := VideoIface) hhead _).trans ?_
  show (if v.size_bytes ≠ v.size_bytes then _ else finalizeUpload v).eval
    Store.exec m s₁ = _
  rw [if_neg (not_not_intro rfl)]

/-- A completion call whose file is there enqueues the job. -/
theorem completeUpload_eval {m : Moment} {s : Store} {text : String}
    {dto : CompleteUploadDto} {id : Nat} {u : MultipartUpload}
    (huuid : cfg.uuid text = some v.public_id)
    (hfind : s.videos.find? (·.public_id == v.public_id) = some v)
    (hstatus : v.status = .uploading) (hid : v.upload_id = some id)
    (hc : s.completable m.completion v.storage_key id (inOrder dto.parts) =
      some (u, v.size_bytes)) :
    ⟨v.id, v.storage_key⟩ ∈
      ((completeUpload cfg.uuid v.owner_id text dto).eval
        Store.exec m s).2.jobs := by
  have hfound : Store.exec m (.findVideoByPublicId v.public_id) s =
      (.ok (some v), s) :=
    congrArg (fun video? => (Except.ok video?, s)) hfind
  have hopen : (completeUpload cfg.uuid v.owner_id text dto).eval Store.exec m
      s = (assembleUpload v id dto).eval Store.exec m s := by
    unfold completeUpload findOneByPublicId
    rw [huuid]
    refine (Prog.eval_call_ok (I := VideoIface) hfound _).trans ?_
    simp only [ne_eq, not_true_eq_false, if_false, hstatus, hid]
  rw [hopen, assembleUpload_eval hc]
  exact List.mem_append_left _ (List.mem_append_right _ (.head _))

theorem Store.uploadPart_of_open {s : Store} {id : Nat} {u : MultipartUpload}
    (hu : s.uploads id = some u) (hopen : u.completed = false)
    (part : StoredPart) :
    s.uploadPart id part = (.ok (), { s with
      uploads := Function.update s.uploads id
        (some { u with parts := part :: u.parts }) }) := by
  rw [Store.uploadPart, hu]
  exact if_neg (Bool.eq_false_iff.1 hopen)

/-- The owner may still upload the file of a draft and complete it. -/
theorem job_of_upload (h : Reachable (videoSystem cfg) anyRun {} c)
    (hv : v ∈ c.state.videos) (hstatus : v.status = .uploading)
    (hnone : c.state.objects v.storage_key = none) {text : String}
    (huuid : cfg.uuid text = some v.public_id) :
    ∃ c', Steps (videoSystem cfg) anyRun c c' ∧
      ⟨v.id, v.storage_key⟩ ∈ c'.state.jobs := by
  obtain ⟨id, u, hid, hu, hkey, hopen⟩ :=
    open_of_absent h (inserted_of_absent h hv hstatus hnone) hnone
  obtain ⟨c₁, hsteps₁, hstate₁⟩ := served cfg c
    (.uploadPart id ⟨1, "etag", v.size_bytes⟩) {}
  obtain ⟨c₂, hsteps₂, hstate₂⟩ := served cfg c₁
    (.completeUpload v.owner_id text sampleCompletion) {}
  refine ⟨c₂, hsteps₁.trans hsteps₂, ?_⟩
  have huploaded : c₁.state =
      (c.state.uploadPart id ⟨1, "etag", v.size_bytes⟩).2 :=
    hstate₁.trans ((congrArg Prod.snd (Prog.eval_map _ _)).trans
      (congrArg Prod.snd (Prog.eval_call (I := VideoIface) _)))
  rw [Store.uploadPart_of_open hu hopen] at huploaded
  have hfind : c₁.state.videos.find? (·.public_id == v.public_id) = some v := by
    rw [huploaded]
    refine find?_of_unique (p := (·.public_id == v.public_id)) hv
      (beq_self_eq_true v.public_id) ?_
    intro r hr hpublic
    exact uniquePublicIds_of_reachable h r hr v hv (eq_of_beq hpublic)
  have hlanded : c₁.state.uploads id = some { u with
      parts := ⟨1, "etag", v.size_bytes⟩ :: u.parts } := by
    rw [huploaded]
    exact Function.update_self ..
  -- a single part is the last one, of whatever size
  have hc : c₁.state.completable s3Rule v.storage_key id
      (inOrder sampleCompletion.parts) = some ({ u with
        parts := ⟨1, "etag", v.size_bytes⟩ :: u.parts }, v.size_bytes) :=
    (completable_iff hlanded hkey hopen).2 ⟨rfl, rfl, rfl⟩
  have hcomplete : c₂.state = ((completeUpload cfg.uuid v.owner_id text
      sampleCompletion).eval Store.exec {} c₁.state).2 :=
    hstate₂.trans (congrArg Prod.snd (Prog.eval_map _ _))
  rw [hcomplete]
  exact completeUpload_eval huuid hfind hstatus hid hc

/-- With a job, or as long as it is `uploading`, a video may become `ready`. -/
theorem mayBecomeReady_of_recoverable
    (h : Reachable (videoSystem cfg) anyRun {} c) (hv : v ∈ c.state.videos)
    (huuid : ∃ text, cfg.uuid text = some v.public_id)
    (hrecover : Recoverable c.state v) : MayBecomeReady cfg c v.id := by
  rcases hrecover with hstatus | hready | ⟨job, hjob, hid⟩
  · obtain ⟨c', hsteps, hjob⟩ : ∃ c', Steps (videoSystem cfg) anyRun c c' ∧
        ⟨v.id, v.storage_key⟩ ∈ c'.state.jobs := by
      cases hobject : c.state.objects v.storage_key with
      | some size =>
          exact job_of_sweep h hv hstatus
            (Option.isSome_iff_exists.2 ⟨_, hobject⟩)
      | none =>
          obtain ⟨text, hid⟩ := huuid
          exact job_of_upload h hv hstatus hobject hid
    exact (ready_of_job (h.steps hsteps) hjob).of_steps hsteps
  · refine ⟨c, .refl, ?_⟩
    rw [(keyed_of_reachable h).found v hv, Option.map_some, hready]
  · rw [← hid]
    exact ready_of_job h hjob

/-- What is lost stays lost. -/
theorem recoverable_of_mayBecomeReady
    (h : Reachable (videoSystem cfg) anyRun {} c) (hidle : c.idle = true)
    (hv : v ∈ c.state.videos) (hready : MayBecomeReady cfg c v.id) :
    Recoverable c.state v := by
  refine by_contra fun hnot => ?_
  obtain ⟨hdraft, hold, hjobs⟩ : v.status ≠ .uploading ∧ v.status ≠ .ready ∧
      ¬ ∃ job ∈ c.state.jobs, job.video_id = v.id := by
    simpa only [Recoverable, not_or] using hnot
  obtain ⟨c', hsteps, hstatus⟩ := hready
  have hlost := (Lost.of_idle h hv hjobs).steps h hidle hdraft hsteps
  rw [hlost.row, Option.map_some] at hstatus
  exact hold (Option.some.inj hstatus)

end Runs

/-! ## A file that is there and cannot be played -/

/-- The row of a completion call whose job the queue has refused. -/
def unqueuedRow : Video := failedEnqueue.state.videos.head (by decide)

end Videum.Videos
