import Videum.Videos.Leaks
import Videum.Videos.Sweep

/-!
# The columns a draft is registered with

`createDraft` writes what its caller declares: owner, title, filename, size
and content type.  Later writers only move the video along: they change its
status, its upload id and what the worker measures.  `completeUpload` writes
its whole entity back, long after it has read it, so that this holds is a
property of whole runs.

## Main results

* `fixed_of_reachable` — every row, and every entity in memory, has the
  columns of the insertion it comes from.
* `declared_for_good` — a row has what the request that made it declared, and
  no later call changes it or removes the row.
-/

namespace Videum.Videos

open Videum.Async

/-- The row without the columns that later calls write. -/
def Video.asDrafted (v : Video) : Video :=
  { v with
    status := .uploading
    upload_id := none
    duration_seconds := none
    thumbnail_key := none }

/-- The row `r` has what the request declared for it. -/
structure DeclaredBy (request : VideoRequest) (r : Video) : Prop where
  request : ∃ dto, request = .createDraft r.owner_id dto ∧
    r.title = dto.title ∧ r.original_filename = dto.filename ∧
    r.content_type = dto.content_type ∧ r.size_bytes = dto.size_bytes
  storage_key : r.storage_key = storageKeyFor r.public_id

theorem of_asDrafted {β : Type} {f : Video → β} {r r' : Video}
    (h : r'.asDrafted = r.asDrafted) (hf : ∀ v : Video, f v.asDrafted = f v) :
    f r' = f r := by
  rw [← hf r', h, hf]

theorem id_of_asDrafted {r r' : Video} (h : r'.asDrafted = r.asDrafted) :
    r'.id = r.id :=
  of_asDrafted h fun _ => rfl

theorem owner_id_of_asDrafted {r r' : Video}
    (h : r'.asDrafted = r.asDrafted) : r'.owner_id = r.owner_id :=
  of_asDrafted h fun _ => rfl

theorem DeclaredBy.of_asDrafted {request : VideoRequest} {r r' : Video}
    (h : DeclaredBy request r) (heq : r'.asDrafted = r.asDrafted) :
    DeclaredBy request r' := by
  obtain ⟨⟨dto, hrequest, htitle, hname, htype, hsize⟩, hkey⟩ := h
  refine ⟨⟨dto, ?_, ?_, ?_, ?_, ?_⟩, ?_⟩
  · rw [hrequest, owner_id_of_asDrafted heq]
  · exact (Videos.of_asDrafted heq fun _ => rfl).trans htitle
  · exact (Videos.of_asDrafted heq fun _ => rfl).trans hname
  · exact (Videos.of_asDrafted heq fun _ => rfl).trans htype
  · exact (Videos.of_asDrafted heq fun _ => rfl).trans hsize
  · have hpublic : r'.public_id = r.public_id :=
      Videos.of_asDrafted heq fun _ => rfl
    have hstored : r'.storage_key = r.storage_key :=
      Videos.of_asDrafted heq fun _ => rfl
    rw [hstored, hpublic]
    exact hkey

/-! ## What is inserted -/

/-- `createDraft` inserts what its caller declares. -/
def MayInsert : VideoRequest → VideoOp → Prop
  | .createDraft ownerId dto, .insertVideo v => ∀ (s : Store) (m : Moment),
      DeclaredBy (.createDraft ownerId dto) (s.newRow m v)
  | _, _ => True

theorem mayInsert_of_not_inserts {request : VideoRequest} {op : VideoOp}
    (h : op.inserts = false) : MayInsert request op := by
  cases op with
  | insertVideo v => exact nomatch h
  | _ => cases request <;> trivial

theorem createDraft_inserts (cfg : VideoConfig) (ownerId : Nat)
    (dto : CreateVideoDto) :
    (createDraft cfg ownerId dto).Issues
      (MayInsert (.createDraft ownerId dto)) := by
  apply Prog.Issues.bind .now
  intro moment
  apply (initiateMultipartUpload_issues cfg dto.size_bytes
    (mayInsert_of_not_inserts rfl)
    fun _ _ _ => mayInsert_of_not_inserts rfl).bind
  intro upload
  refine Prog.Issues.bind (.call ?_) fun _ => trivial
  exact fun s m => ⟨⟨dto, rfl, rfl, rfl, rfl, rfl⟩, rfl⟩

theorem serve_inserts (cfg : VideoConfig) (request : VideoRequest) :
    (serve cfg request).Issues (MayInsert request) := by
  cases request with
  | createDraft ownerId dto =>
      exact (createDraft_inserts cfg ownerId dto).bind fun _ => trivial
  | _ => exact Prog.issues_any (fun _ => trivial) _

/-! ## For whom a row is written -/

/-- The user in whose name a request is made. -/
def VideoRequest.caller : VideoRequest → Option Nat
  | .createDraft ownerId _ => some ownerId
  | .completeUpload ownerId _ _ => some ownerId
  | _ => none

/-- A row that is written whole is its caller's; single columns are written
in nobody's name. -/
def WritesOwn (request : VideoRequest) : VideoOp → Prop
  | .insertVideo v => request.caller = some v.owner_id
  | .saveVideo v => request.caller = some v.owner_id
  | .updateVideo _ _ => request.caller = none
  | _ => True

theorem createDraft_writesOwn (cfg : VideoConfig) (ownerId : Nat)
    (dto : CreateVideoDto) :
    (createDraft cfg ownerId dto).Issues
      (WritesOwn (.createDraft ownerId dto)) := by
  apply Prog.Issues.bind .now
  intro moment
  apply (initiateMultipartUpload_issues cfg dto.size_bytes trivial
    fun _ _ _ => trivial).bind
  intro upload
  exact Prog.Issues.bind (.call rfl) fun _ => trivial

theorem assembleUpload_writesOwn (video : Video) (uploadId : Nat)
    (publicId : String) (dto : CompleteUploadDto) :
    (assembleUpload video uploadId dto).Issues
      (WritesOwn (.completeUpload video.owner_id publicId dto)) := by
  apply Prog.Issues.bind
  · exact Prog.Issues.tryCatch (.call trivial) fun _ => trivial
  · intro _
    apply Prog.Issues.bind (.call trivial)
    intro head
    cases head with
    | none => trivial
    | some size =>
        dsimp only
        split
        · trivial
        · have hsaves : WritesOwn (.completeUpload video.owner_id publicId dto)
              (.saveVideo { video with status := .processing, upload_id := none }) :=
            rfl
          apply Prog.Issues.bind (.call hsaves)
          intro _
          exact Prog.Issues.bind (.call trivial) fun _ => trivial

theorem completeUpload_writesOwn (uuid : String → Option String)
    (ownerId : Nat) (publicId : String) (dto : CompleteUploadDto) :
    (completeUpload uuid ownerId publicId dto).Issues
      (WritesOwn (.completeUpload ownerId publicId dto)) := by
  apply (findOneByPublicId_issues uuid publicId fun _ => trivial).bind
  intro video?
  cases video? with
  | none => trivial
  | some video =>
      dsimp only
      split
      · trivial
      · next howner =>
          split
          · trivial
          · rw [← Decidable.not_not.1 howner]
            cases video.upload_id with
            | none => trivial
            | some uploadId => exact assembleUpload_writesOwn video uploadId _ _

theorem reconcile_writesOwn (video : Video) :
    (reconcile video).Issues (WritesOwn .sweep) := by
  apply Prog.Issues.bind (.call trivial)
  intro head
  cases head with
  | none => exact Prog.Issues.call rfl
  | some size =>
      exact Prog.Issues.bind (.call rfl) fun _ => Prog.Issues.call trivial

theorem processVideo_writesOwn (job : ProcessVideoJobData) :
    (processVideo job).Issues (WritesOwn .deliver) := by
  apply Prog.Issues.bind (.call trivial)
  intro _
  apply Prog.Issues.tryFinally ?_ (.call trivial)
  apply Prog.Issues.tryCatch
  · apply Prog.Issues.bind (.call trivial)
    intro _
    apply Prog.Issues.bind
    · exact Prog.Issues.bind (.call trivial) fun _ => trivial
    · intro durationSeconds
      apply Prog.Issues.bind (.call trivial)
      intro _
      apply Prog.Issues.bind (.call trivial)
      intro thumbnail
      exact Prog.Issues.bind (.call trivial) fun _ => Prog.Issues.call rfl
  · exact fun _ => Prog.Issues.bind (.call rfl) fun _ => trivial

theorem serve_writesOwn (cfg : VideoConfig) (request : VideoRequest) :
    (serve cfg request).Issues (WritesOwn request) := by
  cases request with
  | createDraft ownerId dto =>
      exact (createDraft_writesOwn cfg ownerId dto).bind fun _ => trivial
  | completeUpload ownerId publicId dto =>
      exact (completeUpload_writesOwn cfg.uuid ownerId publicId dto).bind
        fun _ => trivial
  | uploadPart uploadId part =>
      exact Prog.Issues.bind (.call trivial) fun _ => trivial
  | sweep =>
      apply Prog.Issues.bind
      · apply Prog.Issues.bind .now
        intro moment
        apply Prog.Issues.bind (.call trivial)
        intro stale
        apply Prog.Issues.forEach
        intro video _
        exact (reconcile_writesOwn video).tryCatch fun _ => trivial
      · exact fun _ => trivial
  | deliver =>
      apply Prog.Issues.bind
      · apply Prog.Issues.bind (.call trivial)
        intro job?
        cases job? with
        | none => trivial
        | some job =>
            apply Prog.Issues.bind (.call trivial)
            intro video?
            cases video? with
            | none => trivial
            | some video =>
                dsimp only
                split
                · trivial
                · exact processVideo_writesOwn job
      · exact fun _ => trivial
  | closeJob i => exact Prog.Issues.bind (.call trivial) fun _ => trivial

section Exec

variable {request : VideoRequest} {m : Moment} {op : VideoOp} {s : Store}

/-- A call in a user's name leaves the rows of others alone. -/
theorem rows_of_caller {userId : Nat} (hcaller : request.caller = some userId)
    (hop : WritesOwn request op) :
    ∀ r ∈ (Store.exec m op s).2.videos, r ∈ s.videos ∨ r.owner_id = userId := by
  apply Store.forall_videos_exec
  · exact fun r hr => .inl hr
  · rintro v rfl
    exact .inr (Option.some.inj (hop.symm.trans hcaller))
  · rintro v rfl
    exact .inr (Option.some.inj (hop.symm.trans hcaller))
  · rintro patch r rfl _
    exact nomatch hop.symm.trans hcaller

/-- A row after a call has the owner it had, or is the caller's. -/
theorem owner_exec (hop : WritesOwn request op) :
    ∀ r' ∈ (Store.exec m op s).2.videos,
      (∃ r ∈ s.videos, r.owner_id = r'.owner_id) ∨
        request.caller = some r'.owner_id := by
  apply Store.forall_videos_exec
  · exact fun r hr => .inl ⟨r, hr, rfl⟩
  · rintro v rfl
    exact .inr hop
  · rintro v rfl
    exact .inr hop
  · exact fun patch r _ hr => .inl ⟨r, hr, rfl⟩

end Exec

/-- A call that is refused changes nothing. -/
theorem Store.exec_of_refused {m : Moment} {op : VideoOp} {s : Store}
    (h : (Store.exec m op s).1.isOk = false) : (Store.exec m op s).2 = s := by
  cases op with
  | insertVideo v =>
      simp only [exec, insertVideo] at h ⊢
      split at h
      · cases h
      · next hrefused => rw [if_neg hrefused]
  | uploadPart uploadId part =>
      simp only [exec, uploadPart] at h ⊢
      cases hupload : s.uploads uploadId with
      | none => rfl
      | some u =>
          rw [hupload] at h
          dsimp only at h ⊢
          split at h
          · next hdone => rw [if_pos hdone]
          · cases h
  | completeMultipartUpload key uploadId parts =>
      simp only [exec, completeMultipartUpload] at h ⊢
      cases hcomplete : s.completable m.completion key uploadId parts with
      | none => rfl
      | some found =>
          rw [hcomplete] at h
          cases h
  | updateVideo id patch =>
      rcases exec_updateVideo_cases m id patch s with hexec | hexec
      · rw [hexec] at h
        cases h
      · rw [hexec]
  | getSignedUrl key uploadId n expiresIn => rfl
  | downloadToFile key => rfl
  | _ => cases h

section Runs

variable {cfg : VideoConfig} {P : VideoPolicy} {c c' : VideoRun}

/-- Only `createDraft` inserts, and only what its caller declares. -/
theorem declared_of_insert (h : Reachable (videoSystem cfg) P {} c)
    {x : VideoEntry} {older : VideoLog} (hlog : c.log = x :: older)
    {v : NewVideo} (hop : x.op = .insertVideo v) (s : Store) (m : Moment) :
    DeclaredBy x.request (s.newRow m v) := by
  have hlaw := traced_newest h hlog
  rw [hop] at hlaw
  obtain ⟨_, _, y, id, hsigning, hstarted, _⟩ := hlaw
  have hy : y ∈ own x.tid older := hsigning.mem
  obtain ⟨contentType, hstart⟩ := VideoOp.of_startedUpload hstarted
  have hylog : y ∈ c.log := by
    rw [hlog]
    exact .tail _ (mem_own.1 hy).1
  have hxlog : x ∈ c.log := by
    rw [hlog]
    exact .head _
  obtain ⟨before, hbefore⟩ := older_of_mem hylog
  have hstartLaw := traced_of_reachable h y before hbefore
  rw [hstart] at hstartLaw
  obtain ⟨⟨ownerId, dto, hrequest⟩, _⟩ := hstartLaw
  have hsame : x.request = y.request :=
    (h.logOwned.request_older ⟨[], hlog.symm⟩ y hy).symm
  have hmay := h.issued (serve_inserts cfg) hxlog
  rw [hop, hsame, hrequest] at hmay
  rw [hsame, hrequest]
  exact hmay s m

/-! ## Every run -/

/-- Rows, and the entities read, have the columns of an insertion that is in
the log, by a request that declared them. -/
structure Fixed (s : Store) (log : VideoLog) : Prop where
  rows : ∀ r ∈ s.videos, ∃ r₀, Inserted log r₀ ∧ r.asDrafted = r₀.asDrafted
  read : ∀ x ∈ log, ∀ v, x.op.foundRow x.res = some v →
    ∃ r₀, Inserted log r₀ ∧ v.asDrafted = r₀.asDrafted
  declared : ∀ x ∈ log, ∀ r₀, x.op.insertedRow x.res = some r₀ →
    DeclaredBy x.request r₀

theorem fixed_empty : Fixed {} [] :=
  ⟨(fun _ hr => nomatch hr), (fun _ hx => nomatch hx), fun _ hx => nomatch hx⟩

/-- The entity a completion call saves has the columns of an insertion. -/
theorem Fixed.saved {s : Store} {log mine : VideoLog} (hinv : Fixed s log)
    (hmine : ∀ x ∈ mine, x ∈ log) {request : VideoRequest} {w : Video}
    (hlaw : Traced cfg.uuid request mine (.saveVideo w)) :
    ∃ r₀, Inserted log r₀ ∧ w.asDrafted = r₀.asDrafted := by
  obtain ⟨v, ⟨_, _, ⟨x, hx, _, hfound⟩, _⟩, rfl, _⟩ := hlaw
  exact hinv.read x (hmine x hx) v hfound

theorem fixed_of_reachable (h : Reachable (videoSystem cfg) P {} c) :
    Fixed c.state c.log := by
  apply Reachable.answers Fixed fixed_empty ?_ h
  intro b b' t request m op fault hb hb' hinv _ hlog
  have hlaw : Traced cfg.uuid request (own t b.log) op := traced_newest hb' hlog
  have hs : b.log <:+ b'.log := by
    rw [hlog]
    exact List.suffix_cons _ _
  have hgrow : ∀ v : Video,
      (∃ r₀, Inserted b.log r₀ ∧ v.asDrafted = r₀.asDrafted) →
      ∃ r₀, Inserted b'.log r₀ ∧ v.asDrafted = r₀.asDrafted := by
    rintro v ⟨r₀, hr₀, heq⟩
    exact ⟨r₀, hr₀.mono hs, heq⟩
  refine ⟨?_, ?_, ?_⟩
  · cases fault with
    | some e => exact fun r hr => hgrow r (hinv.rows r hr)
    | none =>
        cases hok : (Store.exec m op b.state).1.isOk with
        | false =>
            have hsame : ((videoSystem cfg).answer m op none b.state).2 =
                b.state := Store.exec_of_refused hok
            rw [hsame]
            exact fun r hr => hgrow r (hinv.rows r hr)
        | true =>
            apply Store.forall_videos_exec fun r hr => hgrow r (hinv.rows r hr)
            · rintro v rfl
              refine ⟨_, ⟨_, by rw [hlog]; exact .head _, ?_⟩, rfl⟩
              exact insertedRow_answer_iff.2 ⟨v, rfl, hok, rfl⟩
            · rintro w rfl
              exact hgrow w (hinv.saved (fun x hx => (mem_own.1 hx).1) hlaw)
            · rintro patch r rfl hr
              exact hgrow r (hinv.rows r hr)
  · intro x hx v hfound
    rw [hlog] at hx
    rcases List.mem_cons.1 hx with rfl | hx
    · exact hgrow v (hinv.rows v (mem_of_foundRow hfound).1)
    · exact hgrow v (hinv.read x hx v hfound)
  · intro x hx r₀ hinserted
    rw [hlog] at hx
    rcases List.mem_cons.1 hx with rfl | hx
    · obtain ⟨v, hop, _, rfl⟩ := insertedRow_answer_iff.1 hinserted
      exact declared_of_insert hb' hlog hop b.state m
    · exact hinv.declared x hx r₀ hinserted

/-- Rows that share a primary key, at whatever time, share the columns. -/
theorem asDrafted_of_id (h : Reachable (videoSystem cfg) P {} c)
    (hs : Steps (videoSystem cfg) P c c') {r r' : Video}
    (hr : r ∈ c.state.videos) (hr' : r' ∈ c'.state.videos)
    (hid : r'.id = r.id) : r'.asDrafted = r.asDrafted := by
  have hc' : Reachable (videoSystem cfg) P {} c' := h.steps hs
  obtain ⟨r₀, hr₀, heq⟩ := (fixed_of_reachable h).rows r hr
  obtain ⟨r₁, hr₁, heq'⟩ := (fixed_of_reachable hc').rows r' hr'
  have hids : r₁.id = r₀.id := by
    rw [← id_of_asDrafted heq, ← id_of_asDrafted heq', hid]
  have hsame := (provenance_of_reachable hc').1.unique_id r₁ r₀ hr₁
    (hr₀.mono hs.log_suffix) hids
  rw [heq', heq, hsame]

/-- **A draft is what its owner declared, for good.**  Over every interleaving
of all requests, whatever fails: every row was inserted by a `createDraft` of
its owner and has the title, filename, content type and size of that request;
and from then on there is one row with its primary key in the table, and none
of these columns, nor the public id, the storage key or the date, changes any
more. -/
theorem declared_for_good (h : Reachable (videoSystem cfg) P {} c)
    (hs : Steps (videoSystem cfg) P c c') {r : Video}
    (hr : r ∈ c.state.videos) :
    (∃ x ∈ c.log, DeclaredBy x.request r) ∧
    ∃ r' ∈ c'.state.videos, r'.asDrafted = r.asDrafted ∧
      ∀ w ∈ c'.state.videos, w.id = r.id → w = r' := by
  have hc' : Reachable (videoSystem cfg) P {} c' := h.steps hs
  have hfixed := fixed_of_reachable h
  obtain ⟨r₀, ⟨x, hx, hinserted⟩, heq⟩ := hfixed.rows r hr
  refine ⟨⟨x, hx, (hfixed.declared x hx r₀ hinserted).of_asDrafted heq⟩, ?_⟩
  have hr₀ : Inserted c'.log r₀ := Inserted.mono hs.log_suffix ⟨x, hx, hinserted⟩
  obtain ⟨r', hr', hdesc⟩ := (provenance_of_reachable hc').1.kept r₀ hr₀
  have hid : r'.id = r.id := by
    rw [hdesc.id, ← id_of_asDrafted heq]
  refine ⟨r', hr', asDrafted_of_id h hs hr hr' hid, ?_⟩
  intro w hw hwid
  exact (keyed_of_reachable hc').unique hw hr' (hwid.trans hid.symm)

end Runs

/-- A draft is registered. -/
def registeredDraft : VideoRun :=
  videoRun (Tick.serve (.createDraft 1 sampleDraft) 0 3 { publicId := "v" })
    (by decide)

/-- An hour later the sweep gives it up. -/
def givenUpDraft : VideoRun :=
  ((videoSystem {}).schedule anyRun registeredDraft
    (Tick.serve .sweep 1 3 { now := 3600001 })).get (by decide)

theorem declared_for_good_of_givenUpDraft :
    ∃ r ∈ registeredDraft.state.videos,
      (∃ x ∈ registeredDraft.log, DeclaredBy x.request r) ∧
      ∃ r' ∈ givenUpDraft.state.videos, r'.asDrafted = r.asDrafted ∧
        ∀ w ∈ givenUpDraft.state.videos, w.id = r.id → w = r' := by
  have hreach : Reachable (videoSystem {}) anyRun {} registeredDraft :=
    reachable_videoRun _ _
  have hs : Steps (videoSystem {}) anyRun registeredDraft givenUpDraft :=
    Steps.of_schedule _ (Option.some_get _).symm
      (System.admitted_of_forall _ (fun _ _ _ _ => trivial) _)
  have hr := List.head_mem (l := registeredDraft.state.videos) (by decide)
  exact ⟨_, hr, declared_for_good hreach hs hr⟩

end Videum.Videos
