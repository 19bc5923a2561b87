import Videum.Videos.Provenance

/-!
# Size integrity

A video that is `processing` or `ready` has an object of the declared size.
Two paths move a draft out of `uploading`: the completion call compares the
sizes, the sweep only looks whether an object is there.  A completion that
fails on the size leaves the assembled object and the `uploading` row behind,
and the sweep rescues exactly such rows.

## Main results

* `objects_stable` — an uploaded object never changes its size.
* `size_integrity_iff` — the integrity holds throughout a run exactly when
  every rescue of the run finds an object of the declared size.
* `size_integrity_broken` — a rescue after a failed completion breaks it.
-/

namespace Videum.Videos

open Videum.Async

/-- Every video handed to processing has an object of its declared size. -/
def SizeIntegrity (s : Store) : Prop :=
  ∀ r ∈ s.videos, r.status = .processing ∨ r.status = .ready →
    s.objects r.storage_key = some r.size_bytes

/-- The row a call of the sweep rescues. -/
def VideoOp.rescues : VideoOp → Option Nat
  | .updateVideo id patch => if patch = rescuePatch then some id else none
  | _ => none

/-- A rescue that took effect found an object of the declared size. -/
def RescueSized (x : VideoEntry) : Prop :=
  x.res.isOk = true → ∀ id ∈ x.op.rescues, ∀ r ∈ x.before.row? id,
    x.before.objects r.storage_key = some r.size_bytes

instance (x : VideoEntry) : Decidable (RescueSized x) :=
  inferInstanceAs (Decidable (_ → ∀ id ∈ x.op.rescues,
    ∀ r ∈ x.before.row? id, _))

theorem VideoOp.rescues_eq (id : Nat) :
    (VideoOp.updateVideo id rescuePatch).rescues = some id := by
  show (if rescuePatch = rescuePatch then some id else none) = some id
  exact if_pos rfl

/-! ## Uploaded objects never change -/

section Step

variable {cfg : VideoConfig} {s : Store} {log : VideoLog}

/-- Once there is an object at the key of an upload, the upload is completed,
and it cannot be completed again. -/
theorem Provenance.not_completable (h : Provenance s log)
    (rule : CompletionRule) {key : String} {id : Nat}
    {parts : List CompletedPart} {size : Nat}
    (hlaw : Authorized log (.completeMultipartUpload key id parts))
    (hobject : s.objects key = some size) :
    s.completable rule key id parts = none := by
  obtain ⟨r₀, hr₀, hkey₀, hid₀⟩ := hlaw
  obtain ⟨publicId, horiginal⟩ := h.original r₀ hr₀
  rw [← hkey₀, horiginal] at hobject
  obtain ⟨r₁, id₁, u₁, hr₁, hkey₁, hid₁, hu₁, hdone⟩ :=
    h.objects publicId size hobject
  have hsame : r₁ = r₀ := by
    apply h.unique_key r₁ r₀ hr₁ hr₀
    rw [hkey₁, horiginal]
  rw [hsame, hid₀] at hid₁
  cases hid₁
  cases hc : s.completable rule key id parts with
  | none => rfl
  | some done =>
      rw [Store.completable_upload hc] at hu₁
      cases hu₁
      rw [Store.completable_open hc] at hdone
      exact nomatch hdone

/-- Once there is an object at the key of an upload, it stays: no other call
may write that key. -/
theorem objects_stable (h : Provenance s log) {op : VideoOp}
    (hlaw : Authorized log op) (m : Moment) {publicId : String} {size : Nat}
    (hobject : s.objects (storageKeyFor publicId) = some size) :
    (Store.exec m op s).2.objects (storageKeyFor publicId) = some size := by
  cases op with
  | putObject key thumbnail contentType =>
      obtain ⟨original, hkey⟩ := hlaw
      have hne : storageKeyFor publicId ≠ key := by
        rw [hkey]
        exact (thumbnailKeyFor_ne original publicId).symm
      exact (Store.putObject_objects_ne s thumbnail hne).trans hobject
  | completeMultipartUpload key id parts =>
      simp only [Store.exec, Store.completeMultipartUpload]
      cases hc : s.completable m.completion key id parts with
      | none => exact hobject
      | some done =>
          obtain ⟨u, assembled⟩ := done
          have hne : storageKeyFor publicId ≠ key := by
            intro hkey
            rw [hkey] at hobject
            cases hc.symm.trans (h.not_completable m.completion hlaw hobject)
          exact (Store.putObject_objects_ne s assembled hne).trans hobject
  | _ =>
      rw [(Store.frame_exec m _ s).objects (by rfl)]
      exact hobject

/-- A failing call leaves uploaded objects alone as well. -/
theorem objects_answer (h : Provenance s log) {op : VideoOp}
    (hlaw : Authorized log op) (m : Moment) (fault : Option VideoError)
    {publicId : String} {size : Nat}
    (hobject : s.objects (storageKeyFor publicId) = some size) :
    ((videoSystem cfg).answer m op fault s).2.objects
      (storageKeyFor publicId) = some size := by
  cases fault with
  | none => exact objects_stable h hlaw m hobject
  | some e => exact hobject

/-! ## The invariant -/

/-- The jobs the queue has: waiting or running. -/
def Store.jobs (s : Store) : List ProcessVideoJobData :=
  s.waiting ++ s.running

/-- The video `id` has an object of its declared size. -/
def Sized (s : Store) (log : VideoLog) (id : Nat) : Prop :=
  ∃ r₀, Inserted log r₀ ∧ r₀.id = id ∧
    s.objects r₀.storage_key = some r₀.size_bytes

/-- What the sizes rest on: what HEAD requests have shown is still true, and
whatever was rescued, enqueued or handed out has its object. -/
structure Sizes (s : Store) (log : VideoLog) : Prop where
  integrity : SizeIntegrity s
  seen : ∀ publicId size, Seen log (storageKeyFor publicId) size →
    s.objects (storageKeyFor publicId) = some size
  rescued : ∀ id, Rescued log id → Sized s log id
  handed : ∀ id, HandedOut log id → Sized s log id
  jobs : ∀ job ∈ s.jobs, Sized s log job.video_id

theorem Sized.answer (hprov : Provenance s log) {op : VideoOp}
    (hlaw : Authorized log op) {m : Moment} {fault : Option VideoError}
    {id : Nat} (h : Sized s log id) (x : VideoEntry) :
    Sized ((videoSystem cfg).answer m op fault s).2 (x :: log) id := by
  obtain ⟨r₀, hr₀, hid, hobject⟩ := h
  refine ⟨r₀, hr₀.mono (List.suffix_cons x log), hid, ?_⟩
  obtain ⟨publicId, hkey⟩ := hprov.original r₀ hr₀
  rw [hkey] at hobject ⊢
  exact objects_answer hprov hlaw m fault hobject

/-- A verified copy has its object. -/
theorem Sizes.of_verified (h : Sizes s log) (hprov : Provenance s log)
    {v : Video} (hv : Verified log v) :
    s.objects v.storage_key = some v.size_bytes ∧ Sized s log v.id := by
  obtain ⟨⟨r₀, hr₀, hdesc⟩, hseen⟩ := hv
  obtain ⟨publicId, hkey⟩ := hprov.original r₀ hr₀
  have hobject : s.objects v.storage_key = some v.size_bytes := by
    have hvkey := hdesc.storage_key.trans hkey
    rw [hvkey] at hseen ⊢
    exact h.seen publicId v.size_bytes hseen
  refine ⟨hobject, r₀, hr₀, hdesc.id.symm, ?_⟩
  rw [← hdesc.storage_key, ← hdesc.size_bytes]
  exact hobject

/-- A row of a sized video has its object. -/
theorem Sized.row (h : Provenance s log) {r : Video} (hr : r ∈ s.videos)
    (hsized : Sized s log r.id) :
    s.objects r.storage_key = some r.size_bytes := by
  obtain ⟨r₀, hr₀, hid, hobject⟩ := hsized
  obtain ⟨r₁, hr₁, hdesc⟩ := h.rows r hr
  have hsame : r₁ = r₀ := by
    apply h.unique_id r₁ r₀ hr₁ hr₀
    rw [← hdesc.id, hid]
  rw [hdesc.storage_key, hdesc.size_bytes, hsame]
  exact hobject

/-- A sized rescue leaves its video sized. -/
theorem RescueSized.sized (hprov : Provenance s log) (hkeyed : s.Keyed)
    {id : Nat} (hr₀ : ∃ r₀, Inserted log r₀ ∧ r₀.id = id)
    (hrescue : ∀ r ∈ s.row? id,
      s.objects r.storage_key = some r.size_bytes) : Sized s log id := by
  obtain ⟨r₀, hr₀, hid⟩ := hr₀
  obtain ⟨r, hr, hdesc⟩ := hprov.kept r₀ hr₀
  have hrow := hkeyed.found r hr
  rw [hdesc.id, hid] at hrow
  refine ⟨r₀, hr₀, hid, ?_⟩
  rw [← hdesc.storage_key, ← hdesc.size_bytes]
  exact hrescue r hrow

/-- The rows after a call have their objects when the rows before it do. -/
theorem Sizes.integrity_exec (h : Sizes s log) (hprov : Provenance s log)
    (hkeyed : s.Keyed) {op : VideoOp} (hlaw : Authorized log op) (m : Moment)
    (hrescue : ∀ id, op = .updateVideo id rescuePatch →
      ∀ r ∈ s.row? id, s.objects r.storage_key = some r.size_bytes) :
    SizeIntegrity (Store.exec m op s).2 := by
  have hstable : ∀ r ∈ s.videos,
      s.objects r.storage_key = some r.size_bytes →
      (Store.exec m op s).2.objects r.storage_key = some r.size_bytes := by
    intro r hr hobject
    obtain ⟨r₀, hr₀, hdesc⟩ := hprov.rows r hr
    obtain ⟨publicId, hkey⟩ := hprov.original r₀ hr₀
    rw [hdesc.storage_key, hkey] at hobject ⊢
    exact objects_stable hprov hlaw m hobject
  have hold : ∀ r ∈ s.videos, r.status = .processing ∨ r.status = .ready →
      (Store.exec m op s).2.objects r.storage_key = some r.size_bytes :=
    fun r hr hstatus => hstable r hr (h.integrity r hr hstatus)
  apply Store.forall_videos_exec hold
  · rintro v rfl hstatus
    have hnew : (s.newRow m v).status = .uploading := hlaw.1
    rw [hnew] at hstatus
    exact absurd hstatus (by decide)
  · rintro v rfl _
    exact (h.of_verified hprov hlaw.2).1
  · rintro patch r rfl hr hstatus
    have hobject : s.objects r.storage_key = some r.size_bytes := by
      rcases hlaw with ⟨hpatch, _⟩ | hpatch | ⟨hjob, _⟩
      · rw [hpatch] at hrescue
        exact hrescue r.id rfl r (hkeyed.found r hr)
      · rw [hpatch] at hstatus
        exact absurd hstatus (by simp [VideoPatch.apply])
      · exact Sized.row hprov hr (h.handed r.id hjob)
    rw [(Store.frame_exec m (.updateVideo r.id patch) s).objects rfl]
    exact hobject

/-- A job after a call was there before it, or is the one enqueued. -/
theorem mem_jobs_exec {m : Moment} {op : VideoOp} {job : ProcessVideoJobData}
    (h : job ∈ (Store.exec m op s).2.jobs) :
    job ∈ s.jobs ∨ op = .addJob job := by
  cases op with
  | addJob new =>
      simp only [Store.jobs, Store.exec, List.mem_append,
        List.mem_singleton] at h ⊢
      rcases h with (hold | hnew) | htaken
      · exact .inl (.inl hold)
      · exact .inr (by rw [hnew])
      · exact .inl (.inr htaken)
  | takeJob =>
      left
      simp only [Store.exec, Store.takeJob] at h
      split at h
      · split at h
        · next i job' hjob =>
            simp only [Store.jobs, List.mem_append, List.mem_singleton] at h ⊢
            rcases h with hwaiting | htaken | hnew
            · exact .inl (List.mem_of_mem_eraseIdx hwaiting)
            · exact .inr htaken
            · exact .inl (hnew ▸ List.mem_of_getElem? hjob)
        · exact h
      · exact h
  | closeJob i =>
      left
      simp only [Store.jobs, Store.exec, Store.closeJob,
        List.mem_append] at h ⊢
      exact h.imp_right List.mem_of_mem_eraseIdx
  | _ =>
      left
      rw [Store.jobs, ((Store.frame_exec m _ s).queue (by rfl)).1,
        ((Store.frame_exec m _ s).queue (by rfl)).2] at h
      exact h

/-- The job a worker is handed was in the queue. -/
theorem mem_jobs_of_taken {m : Moment} {op : VideoOp}
    {job : ProcessVideoJobData}
    (h : op.takenJob (Store.exec m op s).1 = some job) : job ∈ s.jobs := by
  cases op with
  | takeJob =>
      have htaken : (s.takeJob m.pick).1 = some job := h
      unfold Store.takeJob at htaken
      split at htaken
      · split at htaken
        · next i job' hjob =>
            cases htaken
            exact List.mem_append_left _ (List.mem_of_getElem? hjob)
        · exact nomatch htaken
      · exact List.mem_append_right _ (List.mem_of_getElem? htaken)
  | _ => exact nomatch h

/-- What a HEAD request shows is the object that is there. -/
theorem objects_of_seen {m : Moment} {op : VideoOp} {key : String}
    {size : Nat} (h : op.seenObject (Store.exec m op s).1 = some (key, size)) :
    s.objects key = some size := by
  cases op with
  | headObject key' =>
      revert h
      show VideoOp.seenObject (.headObject key') (.ok (s.objects key')) = _ → _
      cases hobject : s.objects key' with
      | none => exact fun h => nomatch h
      | some size' =>
          intro h
          cases h
          exact hobject
  | _ => exact nomatch h

/-- A call keeps the sizes when it is no rescue of a wrong size. -/
theorem Sizes.answer (h : Sizes s log) (hprov : Provenance s log)
    (hkeyed : s.Keyed) {t : Nat} {request : VideoRequest} {op : VideoOp}
    {m : Moment} {fault : Option VideoError} (hlaw : Authorized log op)
    (hrescue : RescueSized ((videoSystem cfg).entry t request m op fault s)) :
    Sizes ((videoSystem cfg).answer m op fault s).2
      ((videoSystem cfg).entry t request m op fault s :: log) := by
  have hkept : ∀ id, Sized s log id →
      Sized ((videoSystem cfg).answer m op fault s).2
        ((videoSystem cfg).entry t request m op fault s :: log) id :=
    fun id hid => hid.answer hprov hlaw _
  refine { integrity := ?_, seen := ?_, rescued := ?_, handed := ?_,
           jobs := ?_ }
  · cases fault with
    | some e => exact h.integrity
    | none =>
        apply h.integrity_exec hprov hkeyed hlaw m
        intro id hop
        subst hop
        exact hrescue rfl id (VideoOp.rescues_eq id)
  · rintro publicId size ⟨x, hx, hseen⟩
    apply objects_answer hprov hlaw m fault
    rcases List.mem_cons.1 hx with rfl | hx
    · cases fault with
      | some e => exact absurd hseen (by cases op <;> exact nofun)
      | none => exact objects_of_seen hseen
    · exact h.seen publicId size ⟨x, hx, hseen⟩
  · rintro id ⟨x, hx, hop, hok⟩
    apply hkept
    rcases List.mem_cons.1 hx with rfl | hx
    · have hop' : op = .updateVideo id rescuePatch := hop
      subst hop'
      have hknown : ∃ r₀, Inserted log r₀ ∧ r₀.id = id := by
        rcases hlaw with ⟨_, hknown⟩ | hpatch | ⟨_, _, _, hpatch⟩
        · exact hknown
        · exact absurd hpatch (by decide)
        · have hstatus : some VideoStatus.processing = some .ready :=
            congrArg VideoPatch.status hpatch
          exact absurd hstatus (by decide)
      exact RescueSized.sized hprov hkeyed hknown
        (hrescue hok id (VideoOp.rescues_eq id))
    · exact h.rescued id ⟨x, hx, hop, hok⟩
  · rintro id ⟨x, hx, job, hjob, hid⟩
    apply hkept
    rcases List.mem_cons.1 hx with rfl | hx
    · cases fault with
      | some e => exact absurd hjob (by cases op <;> exact nofun)
      | none =>
          rw [← hid]
          exact h.jobs job (mem_jobs_of_taken hjob)
    · exact h.handed id ⟨x, hx, job, hjob, hid⟩
  · intro job hjob
    apply hkept
    cases fault with
    | some e => exact h.jobs job hjob
    | none =>
        rcases mem_jobs_exec hjob with hold | hnew
        · exact h.jobs job hold
        · subst hnew
          rcases hlaw with hrescued | ⟨v, hv, hverified⟩
          · exact h.rescued job.video_id hrescued
          · rw [← hv]
            exact (h.of_verified hprov hverified).2

end Step

/-! ## Runs -/

section Runs

variable {cfg : VideoConfig}
  {P : Policy VideoIface Moment VideoError Store VideoRequest VideoReply}
  {c : VideoRun}

theorem keyed_of_reachable (h : Reachable (videoSystem cfg) P {} c) :
    c.state.Keyed :=
  h.state_inv Store.keyed_empty fun _ m op _ _ hs => hs.exec m op

/-- Runs whose rescues are sized keep the sizes. -/
theorem sizes_of_reachable (h : Reachable (videoSystem cfg) P {} c)
    (hrescue : ∀ x ∈ c.log, RescueSized x) : Sizes c.state c.log := by
  induction h with
  | refl =>
      exact { integrity := nofun
              seen := fun _ _ ⟨_, hx, _⟩ => nomatch hx
              rescued := fun _ ⟨_, hx, _⟩ => nomatch hx
              handed := fun _ ⟨_, hx, _⟩ => nomatch hx
              jobs := nofun }
  | @tail b c hb hstep ih =>
      cases hstep with
      | spawn request m _ => exact ih hrescue
      | @perform t request op k m fault hthread hguard hfault =>
          have hbefore := ih fun x hx => hrescue x (.tail _ hx)
          have hnext : Reachable (videoSystem cfg) P {}
              ((videoSystem cfg).perform b t request m op k fault) :=
            Relation.ReflTransGen.tail hb
              (.perform m fault hthread hguard hfault)
          have hlaw := (provenance_of_reachable hnext).2 _ b.log
            (List.suffix_refl _)
          exact hbefore.answer (provenance_of_reachable hb).1
            (keyed_of_reachable hb) hlaw (hrescue _ (.head _))

/-- A rescue that leaves the integrity was sized. -/
theorem rescueSized_of_integrity {t : Nat} {request : VideoRequest}
    {m : Moment} {op : VideoOp} {fault : Option VideoError} {s : Store}
    (hafter : SizeIntegrity ((videoSystem cfg).answer m op fault s).2) :
    RescueSized ((videoSystem cfg).entry t request m op fault s) := by
  cases fault with
  | some e => exact fun hok => nomatch hok
  | none =>
      intro _ id hid r hr
      cases op with
      | updateVideo key patch =>
          have hid' : (if patch = rescuePatch then some key else none)
            = some id := hid
          by_cases hpatch : patch = rescuePatch
          · rw [if_pos hpatch] at hid'
            have hkey : key = id := Option.some.inj hid'
            subst hkey
            have hfits : patch.fits = true := by
              rw [hpatch]
              rfl
            have hstate : ((videoSystem cfg).answer m (.updateVideo key patch)
                none s).2 = s.updateVideo key patch :=
              congrArg Prod.snd (Store.exec_updateVideo_of_fits hfits m key s)
            rw [hstate] at hafter
            have hrow := Store.row?_updateVideo s key patch key
            have hr' : s.row? key = some r := hr
            rw [hr', Option.map_some, if_pos (Store.row?_id hr')] at hrow
            have hstatus : (patch.apply r).status = .processing := by
              rw [hpatch]
              rfl
            exact hafter (patch.apply r) (Store.row?_mem hrow) (.inl hstatus)
          · rw [if_neg hpatch] at hid'
            exact nomatch hid'
      | _ => exact nomatch hid

/--
**Size integrity.**  Over every run, interleaved or one request after
another, with any calls failing: every video that is `processing` or `ready`
has an object of its declared size in every state of the run if and only if
every rescue by the sweep finds an object of the declared size.
-/
theorem size_integrity_iff (h : Reachable (videoSystem cfg) P {} c) :
    (∀ x ∈ c.log, SizeIntegrity x.after) ↔ ∀ x ∈ c.log, RescueSized x := by
  constructor
  · intro hall x hx
    obtain ⟨b, fault, k, _, _, _, _, heq, _⟩ := h.entry_config hx
    have hafter := hall x hx
    rw [heq] at hafter ⊢
    exact rescueSized_of_integrity hafter
  · intro hall x hx
    obtain ⟨b, fault, k, hb, _, _, _, heq, hsuffix⟩ := h.entry_config hx
    have hbefore := sizes_of_reachable hb fun y hy =>
      hall y (hsuffix.subset (.tail _ hy))
    have hlaw := (provenance_of_reachable h).2 x b.log hsuffix
    have hsized := hall x hx
    rw [heq] at hsized ⊢
    exact (hbefore.answer (provenance_of_reachable hb).1
      (keyed_of_reachable hb) hlaw hsized).integrity

end Runs

/-! ## A rescue of the wrong size -/

/-- One request after another: a request arrives when all others are
served. -/
def oneAtATime : Policy VideoIface Moment VideoError Store VideoRequest
    VideoReply where
  accepts c _ := c.idle = true
  fault _ _ := true

instance (c : VideoRun) (request : VideoRequest) :
    Decidable (oneAtATime.accepts c request) :=
  inferInstanceAs (Decidable (c.idle = true))

/-- Five bytes are declared and seven uploaded.  The completion call
assembles the object and rejects it; an hour later a sweep finds it. -/
def wrongSize : List (Tick Moment VideoError VideoRequest) :=
  Tick.serve (.createDraft 1 sampleDraft) 0 3 { publicId := "v" } ++
  Tick.serve (.uploadPart 0 ⟨1, "etag", 7⟩) 1 1 { now := 1 } ++
  Tick.serve (.completeUpload 1 "v" sampleCompletion) 2 3 { now := 2 } ++
  Tick.serve .sweep 3 4 { now := 3600001 }

theorem size_integrity_broken :
    ¬ ∀ c : VideoRun, Reachable (videoSystem {}) oneAtATime {} c →
      SizeIntegrity c.state := by
  intro h
  have hreach : Reachable (videoSystem {}) oneAtATime {}
      (videoRun wrongSize (by decide)) :=
    Reachable.of_schedule wrongSize (by decide) (by decide)
  have hrow := h _ hreach
    ((videoRun wrongSize (by decide)).state.videos.head (by decide))
    (List.head_mem _) (.inl (by decide))
  exact absurd hrow (by decide)

/-- The same with five bytes uploaded; the completion call dies before its
size check, and the sweep rescues an object of the right size. -/
def rightSize : VideoRun :=
  videoRun
    (Tick.serve (.createDraft 1 sampleDraft) 0 3 { publicId := "v" } ++
      Tick.serve (.uploadPart 0 ⟨1, "etag", 5⟩) 1 1 { now := 1 } ++
      Tick.serve (.completeUpload 1 "v" sampleCompletion) 2 2 { now := 2 } ++
      [.perform 2 { now := 2 } (some .storage)] ++
      Tick.serve .sweep 3 4 { now := 3600001 })
    (by decide)

theorem size_integrity_of_rightSize :
    (∀ x ∈ rightSize.log, SizeIntegrity x.after) ∧
      (rightSize.state.row? 0).map Video.status = some .processing := by
  constructor
  · exact (size_integrity_iff (reachable_videoRun _ _)).2 (by decide)
  · decide

end Videum.Videos
