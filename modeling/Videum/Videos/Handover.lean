import Videum.Async.Calls
import Videum.Async.Logic
import Videum.Videos.Lifecycle

/-!
# From the table to the queue and back

Nothing but a job moves a `processing` row on: the completion call rejects
it and the sweep does not select it.  Writing the status and enqueueing the
job are two effects on two systems, and a worker drops its job when it
fails.  This module settles when no row is stranded in between.

The argument follows who *owes* a row: a program that cannot end before it
has enqueued a job for the row or moved it out of `processing` (`Owes`).
Every write of `processing` leaves its writer owing the row, and every job
handed out leaves the worker owing it (`Accountable`).

## Main results

* `processing_has_job` — no row is stranded in a run where no call of the
  hand-over fails on a `processing` row, whatever else fails.
* `processing_stranded` — one failing enqueue strands a row.
-/

namespace Videum.Videos

open Videum.Async

/-! ## The calls of the hand-over -/

/-- The requests that move drafts to `processing`. -/
def VideoRequest.finalizes : VideoRequest → Bool
  | .completeUpload _ _ _ => true
  | .sweep => true
  | _ => false

def VideoRequest.delivers : VideoRequest → Bool
  | .deliver => true
  | _ => false

/-- The calls at which a video changes hands: enqueueing its job, and, in
the worker, the calls outside its `try` block and the one in its `catch`. -/
def VideoRequest.handsOver (request : VideoRequest) : VideoOp → Bool
  | .addJob _ => true
  | .findVideoById _ => true
  | .mkdtemp => request.delivers
  | .updateVideo _ patch =>
      request.delivers && patch.status == some .failed
  | _ => false

/-- The video a call is about, where the call says. -/
def VideoOp.video? : VideoOp → Option Nat
  | .addJob job => some job.video_id
  | .findVideoById id => some id
  | .updateVideo id _ => some id
  | _ => none

theorem VideoRequest.finalizes_of_delivers {request : VideoRequest}
    (h : request.delivers = true) : request.finalizes = false := by
  cases request with
  | deliver => rfl
  | _ => cases h

/-- Of the calls of the hand-over only `mkdtemp` names no video. -/
theorem VideoRequest.delivers_of_unnamed {request : VideoRequest}
    {op : VideoOp} (hover : request.handsOver op = true)
    (hvideo : op.video? = none) : request.delivers = true := by
  cases op with
  | mkdtemp => exact hover
  | addJob job => cases hvideo
  | findVideoById id => cases hvideo
  | updateVideo id patch => cases hvideo
  | _ => cases hover

/-- The job an answer hands out. -/
def VideoOp.takenJob : (op : VideoOp) → Except VideoError op.Res →
    Option ProcessVideoJobData
  | .takeJob, .ok job? => job?
  | _, _ => none

/-- The videos of the jobs thread `t` has been handed. -/
def videosTaken (log : VideoLog) (t : Nat) : List Nat :=
  (own t log).filterMap fun x =>
    (x.op.takenJob x.res).map ProcessVideoJobData.video_id

/-- The videos that change hands with a call: the one it names, or, where it
names none, that of the job its thread was handed. -/
def videosHanded (older : VideoLog) (x : VideoEntry) : List Nat :=
  match x.op.video? with
  | some id => [id]
  | none => videosTaken older x.tid

def Store.processing (s : Store) (id : Nat) : Bool :=
  (s.row? id).any (·.status == .processing)

/-- A call of the hand-over failed while the row of its video was
`processing`. -/
def DropsVideo (older : VideoLog) (x : VideoEntry) : Prop :=
  x.request.handsOver x.op = true ∧ x.res.isOk = false ∧
    ∃ id ∈ videosHanded older x, x.before.processing id = true

instance (older : VideoLog) (x : VideoEntry) :
    Decidable (DropsVideo older x) :=
  inferInstanceAs (Decidable (_ ∧ _ ∧ ∃ id ∈ videosHanded older x, _))

/-- The answer settles what is owed to the video `id`: a job for it is
enqueued, or its row is not `processing` at that moment.  Whether a failing
call of the hand-over settles anything depends on the row (`DropsVideo`). -/
def Settles (request : VideoRequest) (id : Nat) :
    (op : VideoOp) → Except VideoError op.Res → Prop
  | .addJob job, .ok _ => job.video_id = id
  | .updateVideo key patch, .ok _ =>
      key = id ∧ (patch.status = some .ready ∨ patch.status = some .failed)
  | .findVideoById key, .ok row? =>
      key = id ∧ ∀ r : Video, row? = some r → r.status ≠ .processing
  | op, .error _ =>
      request.handsOver op = true ∧ ∀ key ∈ op.video?, key = id
  | _, .ok _ => False

/-- The program cannot end before it has settled what is owed to `id`. -/
def Owes {α : Type} (request : VideoRequest) (id : Nat) (p : VideoProg α) :
    Prop :=
  p.Until (Settles request id) fun _ => False

/-- A call that makes a row `processing`, or takes a job, leaves the program
owing that video. -/
def Accountable {α : Type} (request : VideoRequest) :
    (op : VideoOp) → (Except VideoError op.Res → VideoProg α) → Prop
  | .insertVideo v, _ => v.status ≠ .processing
  | .saveVideo v, k =>
      request.finalizes = true ∧ Owes request v.id (k (.ok ()))
  | .updateVideo id patch, k =>
      patch.status = some .processing →
        request.finalizes = true ∧ Owes request id (k (.ok ()))
  | .takeJob, k =>
      request.delivers = true ∧ ∀ job : ProcessVideoJobData,
        Owes request job.video_id (k (.ok (some job)))
  | _, _ => True

section Rules

variable {α β : Type} {request : VideoRequest} {op : VideoOp}
  {k : Except VideoError op.Res → VideoProg α}

theorem Accountable.bind (h : Accountable request op k)
    (f : α → VideoProg β) :
    Accountable request op fun r => k r >>= f := by
  cases op with
  | insertVideo v => exact h
  | saveVideo v => exact ⟨h.1, h.2.before_bind f⟩
  | updateVideo id patch =>
      exact fun hp => ⟨(h hp).1, (h hp).2.before_bind f⟩
  | takeJob => exact ⟨h.1, fun job => (h.2 job).before_bind f⟩
  | _ => trivial

theorem Accountable.tryCatch (h : Accountable request op k)
    (handler : VideoError → VideoProg α) :
    Accountable request op fun r => (k r).tryCatch handler := by
  cases op with
  | insertVideo v => exact h
  | saveVideo v => exact ⟨h.1, h.2.before_tryCatch handler⟩
  | updateVideo id patch =>
      exact fun hp => ⟨(h hp).1, (h hp).2.before_tryCatch handler⟩
  | takeJob => exact ⟨h.1, fun job => (h.2 job).before_tryCatch handler⟩
  | _ => trivial

theorem Accountable.tryFinally (h : Accountable request op k)
    (q : VideoProg Unit) :
    Accountable request op fun r => (k r).tryFinally q := by
  cases op with
  | insertVideo v => exact h
  | saveVideo v => exact ⟨h.1, h.2.before_tryFinally q⟩
  | updateVideo id patch =>
      exact fun hp => ⟨(h hp).1, (h hp).2.before_tryFinally q⟩
  | takeJob => exact ⟨h.1, fun job => (h.2 job).before_tryFinally q⟩
  | _ => trivial

/-- Every call of the program is accounted for. -/
abbrev Accounts (request : VideoRequest) (p : VideoProg α) : Prop :=
  p.AtCalls (Accountable request)

theorem Accounts.call (h : Accountable request op Prog.ofExcept) :
    Accounts request (await op) := by
  refine ⟨h, ?_⟩
  intro r
  cases r <;> trivial

theorem Accounts.bind {p : VideoProg α} {f : α → VideoProg β}
    (hp : Accounts request p) (hf : ∀ a, Accounts request (f a)) :
    Accounts request (p >>= f) :=
  Prog.AtCalls.bind hp hf fun _ _ h => h.bind f

theorem Accounts.call_bind {f : op.Res → VideoProg β}
    (h : Accountable request op fun r => Prog.ofExcept r >>= f)
    (hf : ∀ v, Accounts request (f v)) :
    Accounts request (await op >>= f) := by
  refine ⟨h, ?_⟩
  intro r
  cases r with
  | ok v => exact hf v
  | error e => trivial

theorem Accounts.tryCatch {p : VideoProg α}
    {handler : VideoError → VideoProg α} (hp : Accounts request p)
    (hh : ∀ e, Accounts request (handler e)) :
    Accounts request (p.tryCatch handler) :=
  Prog.AtCalls.tryCatch hp hh fun _ _ h => h.tryCatch handler

theorem Accounts.tryFinally {p : VideoProg α} {q : VideoProg Unit}
    (hp : Accounts request p) (hq : Accounts request q) :
    Accounts request (p.tryFinally q) :=
  Prog.AtCalls.tryFinally hp hq (fun _ _ h => h.tryFinally q)
    fun _ _ f h => h.bind f

theorem Accounts.forEach {xs : List α} {body : α → VideoProg Unit}
    (hbody : ∀ x ∈ xs, Accounts request (body x)) :
    Accounts request (Prog.forEach xs body) :=
  Prog.AtCalls.forEach hbody fun _ _ f h => h.bind f

/-- After the call the program still owes the video, unless it settles. -/
theorem Owes.call_bind {id : Nat} {f : op.Res → VideoProg β}
    (h : ∀ r, Settles request id op r ∨
      Owes request id (Prog.ofExcept r >>= f)) :
    Owes request id (await op >>= f) :=
  h

end Rules

/-! ## The programs account for what they do -/

/-- Enqueueing the job settles what is owed, whatever follows. -/
theorem owes_addJob (request : VideoRequest) (job : ProcessVideoJobData) :
    Owes request job.video_id (await (.addJob job)) := by
  intro r
  left
  cases r with
  | ok v => exact rfl
  | error e => exact ⟨rfl, fun _ hkey => (Option.some.inj hkey).symm⟩

theorem finalizeUpload_accounts (request : VideoRequest)
    (hrequest : request.finalizes = true) (video : Video) :
    Accounts request (finalizeUpload video) := by
  apply Accounts.call_bind
  · exact ⟨hrequest, (owes_addJob request
      ⟨video.id, video.storage_key⟩).before_bind _⟩
  · intro _
    apply Accounts.call_bind
    · trivial
    · exact fun _ => trivial

theorem assembleUpload_accounts (request : VideoRequest)
    (hrequest : request.finalizes = true) (video : Video) (uploadId : Nat)
    (dto : CompleteUploadDto) :
    Accounts request (assembleUpload video uploadId dto) := by
  have hassemble : Accounts request (Prog.tryCatch
      (completeMultipartUpload video.storage_key uploadId dto.parts)
      fun _ => Prog.throw (.domain .UploadObjectMissing)) :=
    .tryCatch (.call trivial) fun _ => trivial
  apply hassemble.bind
  intro _
  apply Accounts.call_bind
  · trivial
  · intro head
    cases head with
    | none => trivial
    | some size =>
        dsimp only
        split
        · trivial
        · exact finalizeUpload_accounts request hrequest video

theorem findOneByPublicId_accounts (request : VideoRequest)
    (uuid : String → Option String) (publicId : String) :
    Accounts request (findOneByPublicId uuid publicId) := by
  unfold findOneByPublicId
  cases uuid publicId with
  | none => trivial
  | some id => exact .call trivial

theorem completeUpload_accounts (request : VideoRequest)
    (hrequest : request.finalizes = true) (uuid : String → Option String)
    (ownerId : Nat) (publicId : String) (dto : CompleteUploadDto) :
    Accounts request (completeUpload uuid ownerId publicId dto) := by
  apply (findOneByPublicId_accounts request uuid publicId).bind
  intro video?
  cases video? with
  | none => trivial
  | some video =>
      dsimp only
      split
      · trivial
      · split
        · trivial
        · cases video.upload_id with
          | none => trivial
          | some uploadId =>
              exact assembleUpload_accounts request hrequest video
                uploadId dto

theorem reconcile_accounts (request : VideoRequest)
    (hrequest : request.finalizes = true) (video : Video) :
    Accounts request (reconcile video) := by
  apply Accounts.call_bind
  · trivial
  · intro head
    cases head with
    | none =>
        apply Accounts.call
        intro hstatus
        exact nomatch hstatus
    | some size =>
        apply Accounts.call_bind
        · intro _
          exact ⟨hrequest, owes_addJob request
            ⟨video.id, video.storage_key⟩⟩
        · intro _
          exact Accounts.call trivial

theorem sweep_accounts (cfg : VideoConfig) (request : VideoRequest)
    (hrequest : request.finalizes = true) : Accounts request (sweep cfg) := by
  intro amb
  apply Accounts.call_bind
  · trivial
  · intro stale
    apply Accounts.forEach
    intro video _
    have hreconcile := reconcile_accounts request hrequest video
    exact hreconcile.tryCatch fun _ => trivial

/-! ## The worker owes the video of its job -/

/-- The `try` block moves the row on, or throws. -/
theorem processFile_until (request : VideoRequest)
    (job : ProcessVideoJobData) :
    (processFile job).Until (Settles request job.video_id) fun r =>
      ∃ e, r = .error e := by
  have hthrow : ∀ e : VideoError, ∃ e' : VideoError,
      (.error e : Except VideoError Unit) = .error e' := fun e => ⟨e, rfl⟩
  apply Prog.Until.after _ hthrow
  intro _
  apply Prog.Until.after _ hthrow
  intro seconds
  apply Prog.Until.after _ hthrow
  intro _
  apply Prog.Until.after _ hthrow
  intro _
  apply Prog.Until.after _ hthrow
  intro _ r
  cases r with
  | ok v => exact .inl ⟨rfl, .inl rfl⟩
  | error e => exact .inr ⟨e, rfl⟩

/-- With its `catch`, the block moves the row on in any case. -/
theorem processVideo_owes {request : VideoRequest}
    (hrequest : request.delivers = true) (job : ProcessVideoJobData) :
    Owes request job.video_id (processVideo job) := by
  apply Owes.call_bind
  intro r
  cases r with
  | error e => exact .inl ⟨hrequest, nofun⟩
  | ok v =>
      right
      apply Prog.Until.before_tryFinally
      apply Prog.Until.tryCatch
      apply (processFile_until request job).mono
      rintro _ ⟨error, rfl⟩
      intro r
      left
      cases r with
      | ok v => exact ⟨rfl, .inr rfl⟩
      | error e =>
          refine ⟨?_, fun _ hkey => (Option.some.inj hkey).symm⟩
          show (request.delivers && some VideoStatus.failed == some .failed)
            = true
          rw [hrequest]
          rfl

theorem process_owes {request : VideoRequest}
    (hrequest : request.delivers = true) (job : ProcessVideoJobData) :
    Owes request job.video_id (process job) := by
  apply Owes.call_bind
  intro r
  cases r with
  | error e =>
      exact .inl ⟨rfl, fun _ hkey => (Option.some.inj hkey).symm⟩
  | ok video? =>
      cases video? with
      | none => exact .inl ⟨rfl, nofun⟩
      | some video =>
          by_cases hstatus : video.status = .processing
          · right
            have hready : video.status ≠ .ready := by
              rw [hstatus]
              decide
            show Owes request job.video_id
              (if video.status = .ready then Prog.pure ()
                else processVideo job)
            rw [if_neg hready]
            exact processVideo_owes hrequest job
          · left
            refine ⟨rfl, ?_⟩
            intro r hr
            cases hr
            exact hstatus

theorem processFile_accounts (request : VideoRequest)
    (job : ProcessVideoJobData) : Accounts request (processFile job) := by
  have hprobe : Accounts request probeDuration := by
    apply Accounts.call_bind
    · trivial
    · exact fun _ => trivial
  apply Accounts.call_bind (by trivial)
  intro _
  apply hprobe.bind
  intro seconds
  apply Accounts.call_bind (by trivial)
  intro _
  apply Accounts.call_bind (by trivial)
  intro _
  apply Accounts.call_bind (by trivial)
  intro _
  apply Accounts.call
  intro hstatus
  exact nomatch hstatus

theorem process_accounts (request : VideoRequest)
    (job : ProcessVideoJobData) : Accounts request (process job) := by
  apply Accounts.call_bind (by trivial)
  intro video?
  cases video? with
  | none => trivial
  | some video =>
      dsimp only
      split
      · trivial
      · apply Accounts.call_bind (by trivial)
        intro _
        have hcatch : ∀ error : VideoError, Accounts request
            (await (.updateVideo job.video_id { status := some .failed }) >>=
              fun _ => (Prog.throw error : VideoProg Unit)) := by
          intro error
          apply Accounts.call_bind
          · exact fun hstatus => nomatch hstatus
          · exact fun _ => trivial
        have hblock := (processFile_accounts request job).tryCatch hcatch
        exact hblock.tryFinally (.call trivial)

theorem deliver_accounts (request : VideoRequest)
    (hrequest : request.delivers = true) : Accounts request deliver := by
  apply Accounts.call_bind
  · exact ⟨hrequest, fun job => process_owes hrequest job⟩
  · intro job?
    cases job? with
    | none => trivial
    | some job => exact process_accounts request job

theorem createDraft_accounts (cfg : VideoConfig) (request : VideoRequest)
    (ownerId : Nat) (dto : CreateVideoDto) :
    Accounts request (createDraft cfg ownerId dto) := by
  intro moment
  have hsign : ∀ storageKey uploadId n, Accounts request
      (getPresignedPartUrls cfg storageKey uploadId n) := by
    intro storageKey uploadId n
    have hloop : Accounts request
        (Prog.forEach (List.range' 1 n) fun partNumber =>
          await (.getSignedUrl storageKey uploadId partNumber
            cfg.presignExpirySeconds)) :=
      Accounts.forEach fun _ _ => .call trivial
    exact hloop.bind fun _ => trivial
  have hinitiate : Accounts request (initiateMultipartUpload cfg
      (storageKeyFor moment.publicId) dto.content_type dto.size_bytes) := by
    apply Accounts.call_bind (by trivial)
    intro created
    cases created with
    | none => trivial
    | some uploadId => exact (hsign _ uploadId _).bind fun _ => trivial
  apply hinitiate.bind
  intro upload
  apply Accounts.call_bind
  · exact fun hstatus => nomatch hstatus
  · exact fun _ => trivial

/-- Every request accounts for the videos it handles. -/
theorem serve_accounts (cfg : VideoConfig) (request : VideoRequest) :
    Accounts request (serve cfg request) := by
  cases request with
  | createDraft ownerId dto =>
      exact (createDraft_accounts cfg _ ownerId dto).bind fun _ => trivial
  | completeUpload ownerId publicId dto =>
      have h := completeUpload_accounts (.completeUpload ownerId publicId dto)
        rfl cfg.uuid ownerId publicId dto
      exact h.bind fun _ => trivial
  | uploadPart uploadId part =>
      exact Accounts.call_bind (by trivial) fun _ => trivial
  | sweep => exact (sweep_accounts cfg .sweep rfl).bind fun _ => trivial
  | deliver => exact (deliver_accounts .deliver rfl).bind fun _ => trivial
  | closeJob i => exact Accounts.call_bind (by trivial) fun _ => trivial

/-! ## What the calls do to rows and jobs -/

def JobWaiting (s : Store) (id : Nat) : Prop :=
  ∃ job ∈ s.waiting, job.video_id = id

/-- A job that waited still waits, unless it is the one handed out. -/
theorem JobWaiting.takeJob {s : Store} {id : Nat} (h : JobWaiting s id)
    (pick : JobPick) :
    JobWaiting (s.takeJob pick).2 id ∨
      ∃ job, (s.takeJob pick).1 = some job ∧ job.video_id = id := by
  obtain ⟨job, hjob, hid⟩ := h
  cases pick with
  | again i => exact .inl ⟨job, hjob, hid⟩
  | fresh i =>
      simp only [Store.takeJob]
      cases htaken : s.waiting[i]? with
      | none => exact .inl ⟨job, hjob, hid⟩
      | some taken =>
          obtain ⟨j, hj, hget⟩ := List.getElem_of_mem hjob
          by_cases hji : j = i
          · right
            subst hji
            rw [List.getElem?_eq_getElem hj, hget] at htaken
            exact ⟨taken, rfl, Option.some.inj htaken ▸ hid⟩
          · left
            refine ⟨job, ?_, hid⟩
            have hmem : job ∈ s.waiting.eraseIdx i :=
              List.mem_eraseIdx_iff_getElem.2 ⟨j, hj, hji, hget⟩
            exact hmem

/-- The queue loses a job only by handing it out. -/
theorem JobWaiting.exec {s : Store} {id : Nat} (h : JobWaiting s id)
    (m : Moment) (op : VideoOp) :
    JobWaiting (Store.exec m op s).2 id ∨
      ∃ job, op.takenJob (Store.exec m op s).1 = some job ∧
        job.video_id = id := by
  obtain ⟨job, hjob, hid⟩ := h
  cases op with
  | takeJob => exact JobWaiting.takeJob ⟨job, hjob, hid⟩ m.pick
  | addJob new =>
      exact .inl ⟨job, List.mem_append_left _ hjob, hid⟩
  | closeJob i => exact .inl ⟨job, hjob, hid⟩
  | _ =>
      left
      refine ⟨job, ?_, hid⟩
      rw [((Store.frame_exec m _ s).queue (by rfl)).1]
      exact hjob

/-- The call may write `processing` to the row `id`. -/
def VideoOp.Marks (id : Nat) : VideoOp → Prop
  | .insertVideo v => v.status = .processing
  | .saveVideo v => v.id = id
  | .updateVideo key patch => key = id ∧ patch.status = some .processing
  | _ => False

/-- A row is `processing` because the call has marked it, or because it was so
before. -/
theorem processing_exec {s : Store} {id : Nat} {r' : Video} (m : Moment)
    (op : VideoOp) (hr' : (Store.exec m op s).2.row? id = some r')
    (hstatus : r'.status = .processing) :
    op.Marks id ∧ (Store.exec m op s).1.isOk = true ∨
      ∃ r, s.row? id = some r ∧ r.status = .processing := by
  cases op with
  | insertVideo v =>
      simp only [Store.exec, Store.insertVideo] at hr' ⊢
      split at hr'
      · next hinsertable =>
          simp only [Store.row?, List.find?_append] at hr'
          cases hold : s.videos.find? (·.id == id) with
          | some r =>
              rw [hold] at hr'
              have heq : r = r' := Option.some.inj hr'
              exact .inr ⟨r, hold, heq ▸ hstatus⟩
          | none =>
              left
              rw [hold, Option.none_or] at hr'
              have hnew := List.mem_singleton.1
                (List.mem_of_find?_eq_some hr')
              subst hnew
              rw [if_pos hinsertable]
              exact ⟨hstatus, rfl⟩
      · exact .inr ⟨r', hr', hstatus⟩
  | saveVideo v =>
      have hrow : (s.saveVideo v).row? id = some r' := hr'
      rw [Store.row?_saveVideo] at hrow
      obtain ⟨r, hr, heq⟩ := Option.map_eq_some_iff.1 hrow
      by_cases hv : r.id = v.id
      · exact .inl ⟨hv.symm.trans (Store.row?_id hr), rfl⟩
      · rw [if_neg hv] at heq
        exact .inr ⟨r, hr, heq ▸ hstatus⟩
  | updateVideo key patch =>
      rcases Store.exec_updateVideo_cases m key patch s with hexec | hexec
      · rw [hexec] at hr' ⊢
        have hrow : (s.updateVideo key patch).row? id = some r' := hr'
        rw [Store.row?_updateVideo] at hrow
        obtain ⟨r, hr, heq⟩ := Option.map_eq_some_iff.1 hrow
        by_cases hkey : r.id = key
        · rw [if_pos hkey] at heq
          subst heq
          cases hpatch : patch.status with
          | none =>
              right
              refine ⟨r, hr, ?_⟩
              simpa only [VideoPatch.apply, hpatch, Option.getD_none]
                using hstatus
          | some status =>
              left
              refine ⟨⟨hkey.symm.trans (Store.row?_id hr), ?_⟩, rfl⟩
              simp only [VideoPatch.apply, hpatch, Option.getD_some]
                at hstatus
              rw [hpatch, hstatus]
        · rw [if_neg hkey] at heq
          exact .inr ⟨r, hr, heq ▸ hstatus⟩
      · rw [hexec] at hr'
        exact .inr ⟨r', hr', hstatus⟩
  | _ =>
      rw [Store.row?_exec_eq m s (by rfl) (by rfl)] at hr'
      exact .inr ⟨r', hr', hstatus⟩

/-- An answer that settles a video leaves a job waiting for it, or its row
not `processing`. -/
theorem settles_exec {request : VideoRequest} {id : Nat} {s : Store}
    {m : Moment} {op : VideoOp}
    (h : Settles request id op (Store.exec m op s).1)
    (hok : (Store.exec m op s).1.isOk = true) :
    JobWaiting (Store.exec m op s).2 id ∨
      ∀ r', (Store.exec m op s).2.row? id = some r' →
        r'.status ≠ .processing := by
  cases op with
  | addJob job =>
      exact .inl ⟨job, List.mem_append_right _ (List.mem_singleton.2 rfl), h⟩
  | updateVideo key patch =>
      right
      intro r' hr'
      rcases Store.exec_updateVideo_cases m key patch s with hexec | hexec
      case inr =>
        rw [hexec] at hok
        cases hok
      rw [hexec] at h hr'
      obtain ⟨hkey, hpatch⟩ : key = id ∧ (patch.status = some .ready ∨
        patch.status = some .failed) := h
      have hrow : (s.updateVideo key patch).row? id = some r' := hr'
      rw [Store.row?_updateVideo] at hrow
      obtain ⟨r, hr, heq⟩ := Option.map_eq_some_iff.1 hrow
      rw [if_pos ((Store.row?_id hr).trans hkey.symm)] at heq
      subst heq
      rcases hpatch with hpatch | hpatch
      · simp only [VideoPatch.apply, hpatch, Option.getD_some]
        decide
      · simp only [VideoPatch.apply, hpatch, Option.getD_some]
        decide
  | findVideoById key =>
      right
      intro r' hr'
      obtain ⟨hkey, hstatus⟩ : key = id ∧ ∀ r : Video,
        s.videos.find? (·.id == key) = some r → r.status ≠ .processing := h
      subst hkey
      exact hstatus r' hr'
  | _ =>
      exfalso
      revert h hok
      cases (Store.exec m _ s).1 with
      | ok v => exact fun h _ => h
      | error e => exact fun _ hok => nomatch hok

/-! ## Runs -/

/-- Thread `t` has been handed a job for the video `id`. -/
def TookJob (log : VideoLog) (t id : Nat) : Prop :=
  ∃ x ∈ log, x.tid = t ∧
    ∃ job, x.op.takenJob x.res = some job ∧ job.video_id = id

/-- A worker is processing a job for the video `id`. -/
def JobRunning (c : VideoRun) (id : Nat) : Prop :=
  ∃ t th, c.threads[t]? = some th ∧ th.request.delivers = true ∧
    th.prog.running = true ∧ TookJob c.log t id

/-- Thread `t` owes the video `id`: it marked the row, or took a job. -/
structure Owner (c : VideoRun) (id t : Nat)
    (th : Thread VideoIface Moment VideoError VideoRequest VideoReply) :
    Prop where
  thread : c.threads[t]? = some th
  running : th.prog.running = true
  owes : Owes th.request id th.prog
  role : th.request.finalizes = true ∨
    th.request.delivers = true ∧ TookJob c.log t id

/-- Every `processing` row has a job waiting or a thread owing it. -/
def InHand (c : VideoRun) : Prop :=
  ∀ id r, c.state.row? id = some r → r.status = .processing →
    JobWaiting c.state id ∨ ∃ t th, Owner c id t th

theorem TookJob.cons {log : VideoLog} {t id : Nat} (h : TookJob log t id)
    (x : VideoEntry) : TookJob (x :: log) t id := by
  obtain ⟨y, hy, hrest⟩ := h
  exact ⟨y, .tail _ hy, hrest⟩

section Step

variable {cfg : VideoConfig} {c : VideoRun}

theorem Owner.spawn {id t : Nat}
    {th : Thread VideoIface Moment VideoError VideoRequest VideoReply}
    (h : Owner c id t th) (request : VideoRequest) (amb : Moment) :
    Owner ((videoSystem cfg).spawn c request amb) id t th :=
  ⟨System.spawn_thread h.thread request amb, h.running, h.owes, h.role⟩

variable {t : Nat} {request : VideoRequest} {op : VideoOp}
  {k : Except VideoError op.Res → VideoProg VideoReply} {amb : Moment}
  {fault : Option VideoError}

/-- Other threads keep what they owe. -/
theorem Owner.perform_ne {id u : Nat}
    {th : Thread VideoIface Moment VideoError VideoRequest VideoReply}
    (h : Owner c id u th) (hu : t ≠ u) :
    Owner ((videoSystem cfg).perform c t request amb op k fault) id u th := by
  refine ⟨System.perform_thread_ne h.thread hu .., h.running, h.owes, ?_⟩
  rcases h.role with hfinal | ⟨hdeliver, htook⟩
  · exact .inl hfinal
  · exact .inr ⟨hdeliver, htook.cons _⟩

/-- The thread that was answered owes what its next segment owes. -/
theorem Owner.of_perform {id : Nat}
    (hthread : c.threads[t]? = some ⟨request, .await op k⟩)
    (howes : Owes request id
      (k ((videoSystem cfg).answer amb op fault c.state).1))
    (hrole : request.finalizes = true ∨ request.delivers = true ∧
      TookJob ((videoSystem cfg).perform c t request amb op k fault).log
        t id) :
    ∃ u th, Owner ((videoSystem cfg).perform c t request amb op k fault)
      id u th :=
  ⟨t, _, System.perform_thread_self hthread amb fault, howes.running amb,
    howes.resume amb, hrole⟩

/-- A waiting job still waits, or this thread has just taken it. -/
theorem JobWaiting.perform {id : Nat} (h : JobWaiting c.state id)
    (hthread : c.threads[t]? = some ⟨request, .await op k⟩)
    (haccount : Accountable request op k) :
    JobWaiting ((videoSystem cfg).answer amb op fault c.state).2 id ∨
      ∃ u th, Owner ((videoSystem cfg).perform c t request amb op k fault)
        id u th := by
  cases fault with
  | some e => exact .inl h
  | none =>
      apply (h.exec amb op).imp_right
      rintro ⟨job, hjob, hid⟩
      cases op with
      | takeJob =>
          obtain ⟨hdeliver, howes⟩ := haccount
          have htaken : (c.state.takeJob amb.pick).1 = some job := hjob
          have hanswer : ((videoSystem cfg).answer amb .takeJob none
              c.state).1 = .ok (some job) := congrArg Except.ok htaken
          apply Owner.of_perform hthread
          · rw [hanswer, ← hid]
            exact howes job
          · exact .inr ⟨hdeliver, _, .head _, rfl, job, hjob, hid⟩
      | _ => cases hjob

/-- A failing call of the hand-over changes nothing. -/
theorem answer_of_handsOver (hover : request.handsOver op = true)
    (hans : ((videoSystem cfg).answer amb op fault c.state).1.isOk = false) :
    ((videoSystem cfg).answer amb op fault c.state).2 = c.state := by
  cases fault with
  | some e => rfl
  | none =>
      cases op with
      | addJob job => exact nomatch hans
      | findVideoById id => exact nomatch hans
      | mkdtemp => exact nomatch hans
      | updateVideo id patch =>
          rcases Store.exec_updateVideo_cases amb id patch c.state with
            hexec | hexec
          · have hok := congrArg (fun r => r.1.isOk) hexec
            rw [System.answer_none] at hans
            exact absurd (hok.symm.trans hans) Bool.true_eq_false_eq_False
          · exact congrArg Prod.snd hexec
      | _ => exact nomatch hover

/-- A call of the hand-over that settles a video hands it over. -/
theorem mem_videosHanded {id t : Nat} {x : VideoEntry}
    (hover : x.request.handsOver x.op = true) (htid : x.tid = t)
    (hvideo : ∀ key ∈ x.op.video?, key = id)
    (hrole : x.request.finalizes = true ∨
      x.request.delivers = true ∧ TookJob c.log t id) :
    id ∈ videosHanded c.log x := by
  subst htid
  unfold videosHanded
  cases hop : x.op.video? with
  | some key =>
      rw [hvideo key hop]
      exact List.mem_singleton_self id
  | none =>
      have hdeliver := VideoRequest.delivers_of_unnamed hover hop
      rcases hrole with hfinal | ⟨_, y, hy, htid, job, htaken, rfl⟩
      · rw [VideoRequest.finalizes_of_delivers hdeliver] at hfinal
        cases hfinal
      · refine List.mem_filterMap.2 ⟨y, mem_own.2 ⟨hy, htid⟩, ?_⟩
        rw [htaken, Option.map_some]

/-- An answer that settles a video leaves it waiting or not `processing`,
unless it drops the video. -/
theorem settles_answer {id : Nat}
    (h : Settles request id op
      ((videoSystem cfg).answer amb op fault c.state).1)
    (hrole : request.finalizes = true ∨
      request.delivers = true ∧ TookJob c.log t id)
    (hok : ¬ DropsVideo c.log ((videoSystem cfg).entry t request amb op fault
      c.state)) :
    JobWaiting ((videoSystem cfg).answer amb op fault c.state).2 id ∨
      ∀ r', ((videoSystem cfg).answer amb op fault c.state).2.row? id
        = some r' → r'.status ≠ .processing := by
  by_cases hans :
      ((videoSystem cfg).answer amb op fault c.state).1.isOk = true
  · cases fault with
    | some e => exact nomatch hans
    | none => exact settles_exec h hans
  · right
    intro r' hr' hstatus
    have hfail : ((videoSystem cfg).answer amb op fault c.state).1.isOk
        = false := by simpa only [Bool.not_eq_true] using hans
    have herror : request.handsOver op = true ∧
        ∀ key ∈ op.video?, key = id := by
      revert h hans
      cases ((videoSystem cfg).answer amb op fault c.state).1 with
      | ok v => exact fun _ hans => absurd rfl hans
      | error e => intro h _; cases op <;> exact h
    apply hok
    refine ⟨herror.1, hfail, id, mem_videosHanded (t := t) herror.1 rfl
      herror.2 hrole, ?_⟩
    rw [answer_of_handsOver herror.1 hfail] at hr'
    show (c.state.row? id).any _ = true
    rw [hr', Option.any_some, hstatus]
    rfl

/-- A video that is owed stays owed, waits, or is not `processing` any
more. -/
theorem Owner.perform {id u : Nat}
    {th : Thread VideoIface Moment VideoError VideoRequest VideoReply}
    (h : Owner c id u th)
    (hthread : c.threads[t]? = some ⟨request, .await op k⟩)
    (hok : ¬ DropsVideo c.log ((videoSystem cfg).entry t request amb op fault
      c.state)) :
    (∃ u th, Owner ((videoSystem cfg).perform c t request amb op k fault)
      id u th) ∨
    JobWaiting ((videoSystem cfg).answer amb op fault c.state).2 id ∨
      ∀ r', ((videoSystem cfg).answer amb op fault c.state).2.row? id
        = some r' → r'.status ≠ .processing := by
  by_cases hu : t = u
  · subst hu
    have heq := h.thread
    rw [hthread] at heq
    cases heq
    have howes := h.owes ((videoSystem cfg).answer amb op fault c.state).1
    rcases howes with hsettled | howes
    · exact .inr (settles_answer hsettled h.role hok)
    · left
      apply Owner.of_perform hthread howes
      rcases h.role with hfinal | ⟨hdeliver, htook⟩
      · exact .inl hfinal
      · exact .inr ⟨hdeliver, htook.cons _⟩
  · exact .inl ⟨u, th, h.perform_ne hu⟩

/-- A thread whose call has marked a row owes it from then on. -/
theorem Owner.of_marks {id : Nat} (hmarks : op.Marks id)
    (hok : (Store.exec amb op c.state).1.isOk = true)
    (hthread : c.threads[t]? = some ⟨request, .await op k⟩)
    (haccount : Accountable request op k) :
    ∃ u th, Owner ((videoSystem cfg).perform c t request amb op k none)
      id u th := by
  cases op with
  | insertVideo v => exact absurd hmarks haccount
  | saveVideo v =>
      obtain ⟨hfinal, howes⟩ := haccount
      have hid : v.id = id := hmarks
      subst hid
      exact Owner.of_perform hthread howes (.inl hfinal)
  | updateVideo key patch =>
      obtain ⟨hkey, hpatch⟩ := hmarks
      obtain ⟨hfinal, howes⟩ := haccount hpatch
      subst hkey
      have hanswer : ((videoSystem cfg).answer amb (.updateVideo key patch)
          none c.state).1 = .ok () := by
        rcases Store.exec_updateVideo_cases amb key patch c.state with
          hexec | hexec
        · exact congrArg Prod.fst hexec
        · rw [hexec] at hok
          cases hok
      apply Owner.of_perform hthread ?_ (.inl hfinal)
      rw [hanswer]
      exact howes
  | _ => exact hmarks.elim

/-- A video stays in hand as long as no call drops it. -/
theorem InHand.perform (h : InHand c)
    (hthread : c.threads[t]? = some ⟨request, .await op k⟩)
    (haccount : Accountable request op k)
    (hok : ¬ DropsVideo c.log ((videoSystem cfg).entry t request amb op fault
      c.state)) :
    InHand ((videoSystem cfg).perform c t request amb op k fault) := by
  intro id r' hr' hstatus
  have hkept : ∀ r, c.state.row? id = some r → r.status = .processing →
      JobWaiting ((videoSystem cfg).answer amb op fault c.state).2 id ∨
        ∃ u th, Owner ((videoSystem cfg).perform c t request amb op k fault)
          id u th := by
    intro r hr hprocessing
    rcases h id r hr hprocessing with hwaiting | ⟨u, th, howner⟩
    · exact hwaiting.perform hthread haccount
    · rcases howner.perform hthread hok with howner' | hwaiting | hnot
      · exact .inr howner'
      · exact .inl hwaiting
      · exact absurd hstatus (hnot r' hr')
  cases fault with
  | some e => exact hkept r' hr' hstatus
  | none =>
      rcases processing_exec amb op hr' hstatus with
        ⟨hmarks, hdone⟩ | ⟨r, hr, hold⟩
      · exact .inr (Owner.of_marks hmarks hdone hthread haccount)
      · exact hkept r hr hold

end Step

theorem reachable_inHand {cfg : VideoConfig} {c : VideoRun}
    (h : Reachable (videoSystem cfg) anyRun {} c)
    (hok : AtEach (fun older x => ¬ DropsVideo older x) c.log) :
    InHand c := by
  induction h with
  | refl => exact fun id r hr => nomatch hr
  | @tail c c' hc hstep ih =>
      cases hstep with
      | spawn request amb _ =>
          intro id r hr hstatus
          apply (ih hok id r hr hstatus).imp_right
          rintro ⟨t, th, howner⟩
          exact ⟨t, th, howner.spawn request amb⟩
      | @perform t request op k amb fault hthread _ _ =>
          have hcalls := Reachable.atCalls (Q := Accountable)
            (serve_accounts cfg) hc hthread
          obtain ⟨hlast, hbefore⟩ := atEach_cons.1 hok
          exact (ih hbefore).perform hthread hcalls.1 hlast

/--
**No stranded video.**  Over every interleaving with any other calls
failing: when no call of the hand-over has failed on a `processing` row and
neither a completion nor a sweep is in flight, every `processing` row has a
job for it waiting in the queue or running.
-/
theorem processing_has_job (cfg : VideoConfig) {c : VideoRun}
    (h : Reachable (videoSystem cfg) anyRun {} c)
    (hok : AtEach (fun older x => ¬ DropsVideo older x) c.log)
    (hquiet : ∀ th ∈ c.threads, th.request.finalizes = true →
      th.prog.running = false) :
    ∀ r ∈ c.state.videos, r.status = .processing →
      JobWaiting c.state r.id ∨ JobRunning c r.id := by
  intro r hr hstatus
  have hkeyed : c.state.Keyed :=
    h.state_inv Store.keyed_empty fun _ m op s _ hs => hs.exec m op
  have hrow := hkeyed.found r hr
  apply (reachable_inHand h hok r.id r hrow hstatus).imp_right
  rintro ⟨t, th, howner⟩
  rcases howner.role with hfinal | ⟨hdeliver, htook⟩
  · have hdone := hquiet th (List.mem_of_getElem? howner.thread) hfinal
    rw [howner.running] at hdone
    exact nomatch hdone
  · exact ⟨t, th, howner.thread, hdeliver, howner.running, htook⟩

/-- A draft is completed and its job taken; the worker has read the row and
made its work directory. -/
def takenOver : VideoRun :=
  videoRun
    (Tick.serve (.createDraft 1 sampleDraft) 0 3 { publicId := "v" } ++
      Tick.serve (.uploadPart 0 ⟨1, "etag", 5⟩) 1 1 { now := 1 } ++
      Tick.serve (.completeUpload 1 "v" sampleCompletion) 2 5 { now := 2 } ++
      Tick.serve .deliver 3 3 { now := 3 })
    (by decide)

theorem processing_has_job_of_takenOver :
    ∃ r ∈ takenOver.state.videos, r.status = .processing ∧
      (JobWaiting takenOver.state r.id ∨ JobRunning takenOver r.id) := by
  have hmem : takenOver.state.videos.head (by decide)
      ∈ takenOver.state.videos := List.head_mem _
  have hstatus : (takenOver.state.videos.head (by decide)).status
      = .processing := by decide
  exact ⟨_, hmem, hstatus, processing_has_job {} (reachable_videoRun _ _)
    (by decide) (by decide) _ hmem hstatus⟩

/-- The enqueue of the completion call fails, and nothing else. -/
def failedEnqueue : VideoRun :=
  videoRun
    (Tick.serve (.createDraft 1 sampleDraft) 0 3 { publicId := "v" } ++
      Tick.serve (.uploadPart 0 ⟨1, "etag", 5⟩) 1 1 { now := 1 } ++
      Tick.serve (.completeUpload 1 "v" sampleCompletion) 2 4 { now := 2 } ++
      [.perform 2 { now := 2 } (some .queue)])
    (by decide)

/-- After it the row is `processing`, the queue is empty and no worker
runs. -/
theorem processing_stranded :
    ¬ ∀ c : VideoRun, Reachable (videoSystem {}) anyRun {} c →
      (∀ th ∈ c.threads, th.request.finalizes = true →
        th.prog.running = false) →
      ∀ r ∈ c.state.videos, r.status = .processing →
        JobWaiting c.state r.id ∨ JobRunning c r.id := by
  intro h
  have hrow := h failedEnqueue (reachable_videoRun _ _) (by decide)
    (failedEnqueue.state.videos.head (by decide)) (List.head_mem _)
    (by decide)
  have hqueue : failedEnqueue.state.waiting = [] := by decide
  have hworkers : ∀ th ∈ failedEnqueue.threads,
      th.request.delivers = false := by decide
  rcases hrow with ⟨job, hjob, _⟩ | ⟨t, th, hth, hdeliver, _⟩
  · rw [hqueue] at hjob
    exact nomatch hjob
  · rw [hworkers th (List.mem_of_getElem? hth)] at hdeliver
    exact nomatch hdeliver

end Videum.Videos
