import Videum.Async.Traces
import Videum.Videos.Provenance

/-!
# The calls of the upload flow, one after the other

Each service reads, decides and writes.  This module says for every call that
writes which answers its thread has had before it: the completion call and
the sweep hold a draft they have read as `uploading`, the worker holds a job
it was handed, and a job is enqueued directly after its draft was marked.

## Main results

* `serve_traced` — the programs, one by one.
* `traced_of_reachable` — every run, over every interleaving, whatever fails.
-/

namespace Videum.Videos

open Videum.Async

abbrev VideoPolicy :=
  Policy VideoIface Moment VideoError Store VideoRequest VideoReply

/-! ## Reading the answers -/

namespace VideoOp

/-- The row a lookup by public id has found. -/
def foundRow : (op : VideoOp) → Except VideoError op.Res → Option Video
  | .findVideoByPublicId _, .ok (some v) => some v
  | _, _ => none

/-- The row a lookup by primary key has found. -/
def fetchedRow : (op : VideoOp) → Except VideoError op.Res → Option Video
  | .findVideoById _, .ok (some v) => some v
  | _, _ => none

/-- The drafts the sweep has found. -/
def staleRows : (op : VideoOp) → Except VideoError op.Res → List Video
  | .findStaleVideos _, .ok rows => rows
  | _, _ => []

/-- The key a HEAD request has not found. -/
def missedKey : (op : VideoOp) → Except VideoError op.Res → Option String
  | .headObject key, .ok none => some key
  | _, _ => none

/-- The upload an answer has started, with its key. -/
def startedUpload : (op : VideoOp) → Except VideoError op.Res →
    Option (String × Nat)
  | .createMultipartUpload key _, .ok (some id) => some (key, id)
  | _, _ => none

/-- The call signs the URL of a part. -/
def signs : VideoOp → Bool
  | .getSignedUrl _ _ _ _ => true
  | _ => false

/-- The row an answer has marked `processing`. -/
def marked : (op : VideoOp) → Except VideoError op.Res → Option Nat
  | .saveVideo v, .ok _ => some v.id
  | .updateVideo id patch, .ok _ => if patch = rescuePatch then some id else none
  | _, _ => none

theorem startedUpload_of_sign {op : VideoOp} {res : Except VideoError op.Res}
    {key : String} {id n expiresIn : Nat}
    (h : op = .getSignedUrl key id n expiresIn) :
    op.startedUpload res = none := by
  subst h
  rfl

theorem startedUpload_of_insert {op : VideoOp} {res : Except VideoError op.Res}
    {v : NewVideo} (h : op = .insertVideo v) : op.startedUpload res = none := by
  subst h
  rfl

end VideoOp

/-- The columns the sweep and the worker write on a video they give up. -/
def failedPatch : VideoPatch := { status := some .failed }

/-- The columns the worker writes on a video it has processed. -/
def readyPatch (seconds : Int) (thumbnailKey : String) : VideoPatch :=
  { duration_seconds := some seconds
    thumbnail_key := some thumbnailKey
    status := some .ready }

/-- The request is one to complete this video. -/
def VideoRequest.completes (uuid : String → Option String)
    (publicId : String) : VideoRequest → Bool
  | .completeUpload _ text _ => uuid text == some publicId
  | _ => false

theorem VideoRequest.of_completes {uuid : String → Option String}
    {publicId : String} {request : VideoRequest}
    (h : request.completes uuid publicId = true) :
    ∃ ownerId text dto, request = .completeUpload ownerId text dto := by
  cases request with
  | completeUpload ownerId text dto => exact ⟨ownerId, text, dto, rfl⟩
  | _ => cases h

section Answers

variable (uuid : String → Option String) (request : VideoRequest)
  (mine : VideoLog)

/-- A completion call has found its draft. -/
def Completing (v : Video) : Prop :=
  ∃ publicId, request.completes uuid publicId = true ∧
    (∃ x ∈ mine, x.op = .findVideoByPublicId publicId ∧
      x.op.foundRow x.res = some v) ∧
    v.status = .uploading

/-- The thread has assembled the object under the key. -/
def Assembling (key : String) : Prop :=
  ∃ x ∈ mine, ∃ id parts, x.op = .completeMultipartUpload key id parts ∧
    x.res.isOk = true

/-- A sweep has found the draft. -/
def Sweeping (v : Video) : Prop :=
  request = .sweep ∧ ∃ x ∈ mine, v ∈ x.op.staleRows x.res

/-- A worker was handed the job, and has found its row not ready. -/
def Working (job : ProcessVideoJobData) : Prop :=
  request = .deliver ∧ (∃ x ∈ mine, x.op.takenJob x.res = some job) ∧
    ∃ x ∈ mine, ∃ v, x.op = .findVideoById job.video_id ∧
      x.op.fetchedRow x.res = some v ∧ v.status ≠ .ready

/-- A HEAD request has found no object. -/
def Missed (key : String) : Prop :=
  ∃ x ∈ mine, x.op.missedKey x.res = some key

/-- The thread has started its upload with the answer `x`, and signed URLs
since. -/
def Signing (x : VideoEntry) : Prop :=
  ∃ signed : VideoLog, mine = signed ++ [x] ∧ ∀ y ∈ signed, y.op.signs = true

/-- An object was put under the key. -/
def Stored (key : String) : Prop :=
  ∃ x ∈ mine, ∃ size contentType, x.op = .putObject key size contentType ∧
    x.res.isOk = true

/-- The sweep is done with the draft: it has given it up or enqueued its job,
unless one of its calls has failed. -/
def Reconciled (v : Video) : Prop :=
  (∃ x ∈ mine, x.op = .updateVideo v.id failedPatch ∧ x.res.isOk = true) ∨
  (∃ x ∈ mine, x.op = .addJob ⟨v.id, v.storage_key⟩ ∧ x.res.isOk = true) ∨
  ∃ x ∈ mine, x.res.isOk = false

/-- The calls a service makes, and the answers its thread has had before. -/
def Traced : VideoOp → Prop
  | .createMultipartUpload key _ =>
      (∃ ownerId dto, request = .createDraft ownerId dto) ∧
      ∃ publicId, key = storageKeyFor publicId
  | .insertVideo v =>
      v.status = .uploading ∧ v.storage_key = storageKeyFor v.public_id ∧
      ∃ x id, Signing mine x ∧
        x.op.startedUpload x.res = some (v.storage_key, id) ∧
        v.upload_id = some id
  | .completeMultipartUpload key id _ =>
      ∃ v, Completing uuid request mine v ∧ key = v.storage_key ∧
        v.upload_id = some id
  | .saveVideo w =>
      ∃ v, Completing uuid request mine v ∧
        w = { v with status := .processing, upload_id := none } ∧
        Seen mine v.storage_key v.size_bytes ∧
        Assembling mine v.storage_key ∧
        ∀ x ∈ mine, x.op.rewritesRow = false
  | .updateVideo id patch =>
      (∃ v, Sweeping request mine v ∧ v.id = id ∧
        (patch = rescuePatch ∧ (∃ size, Seen mine v.storage_key size) ∨
          patch = failedPatch ∧ Missed mine v.storage_key)) ∨
      ∃ job, Working request mine job ∧ job.video_id = id ∧
        (patch = failedPatch ∨ ∃ seconds,
          patch = readyPatch seconds (thumbnailKeyFor job.storage_key) ∧
          Stored mine (thumbnailKeyFor job.storage_key))
  | .addJob job =>
      ∃ v, (Completing uuid request mine v ∨ Sweeping request mine v) ∧
        job = ⟨v.id, v.storage_key⟩ ∧
        ∃ x rest, mine = x :: rest ∧ x.op.marked x.res = some v.id
  | .putObject key _ _ =>
      ∃ job, Working request mine job ∧ key = thumbnailKeyFor job.storage_key
  | .takeJob => request = .deliver
  | _ => True

/-- Each upload the thread has started has had its draft inserted. -/
def Registered : Prop :=
  ∀ x ∈ mine, ∀ key id, x.op.startedUpload x.res = some (key, id) →
    ∃ y ∈ mine, ∃ v, y.op = .insertVideo v ∧ v.upload_id = some id ∧
      y.res.isOk = true

/-- No insertion of the thread has gone through. -/
def Unregistered : Prop :=
  ∀ y ∈ mine, ∀ v, y.op = .insertVideo v → y.res.isOk = false

end Answers

/-- A draft is inserted by the call that returns it, and by no call that
fails. -/
def Drafted {α : Type} (r : Except VideoError α) (mine : VideoLog) : Prop :=
  match r with
  | .ok _ => Registered mine
  | .error _ => Unregistered mine

/-- What a thread has done when it has ended. -/
def Ended (request : VideoRequest) (r : Except VideoError VideoReply)
    (mine : VideoLog) : Prop :=
  match request with
  | .createDraft _ _ => Drafted r mine
  | .sweep => ∀ v, Sweeping .sweep mine v → Reconciled mine v
  | _ => True

section Cons

variable {request : VideoRequest} {mine : VideoLog} {v : Video}

theorem Completing.cons {uuid : String → Option String}
    (h : Completing uuid request mine v) (x : VideoEntry) :
    Completing uuid request (x :: mine) v := by
  obtain ⟨publicId, hrequest, ⟨y, hy, hfound⟩, hopen⟩ := h
  exact ⟨publicId, hrequest, ⟨y, .tail _ hy, hfound⟩, hopen⟩

theorem Signing.cons {x : VideoEntry} (h : Signing mine x) {y : VideoEntry}
    (hy : y.op.signs = true) : Signing (y :: mine) x := by
  obtain ⟨signed, rfl, hsigned⟩ := h
  exact ⟨y :: signed, rfl, List.forall_mem_cons.2 ⟨hy, hsigned⟩⟩

theorem Signing.mem {x : VideoEntry} (h : Signing mine x) : x ∈ mine := by
  obtain ⟨signed, rfl, _⟩ := h
  exact List.mem_append_right signed (List.mem_singleton_self x)

/-- What is no signature is the start of the upload. -/
theorem Signing.eq_of_mem {x y : VideoEntry} (h : Signing mine x)
    (hy : y ∈ mine) (hsigns : y.op.signs = false) : y = x := by
  obtain ⟨signed, rfl, hsigned⟩ := h
  rcases List.mem_append.1 hy with hy | hy
  · rw [hsigned y hy] at hsigns
    cases hsigns
  · exact List.mem_singleton.1 hy

/-- Nothing is inserted before the URLs are signed. -/
theorem Signing.unregistered {x : VideoEntry} (h : Signing mine x) {key : String}
    {id : Nat} (hstarted : x.op.startedUpload x.res = some (key, id)) :
    Unregistered mine := by
  intro y hy v hop
  have hsame := h.eq_of_mem hy (by rw [hop]; rfl)
  rw [← hsame, VideoOp.startedUpload_of_insert hop] at hstarted
  cases hstarted

theorem Sweeping.mono {old new : VideoLog} (h : Sweeping request old v)
    (hsub : old ⊆ new) : Sweeping request new v := by
  obtain ⟨hrequest, y, hy, hfound⟩ := h
  exact ⟨hrequest, y, hsub hy, hfound⟩

theorem Sweeping.cons (h : Sweeping request mine v) (x : VideoEntry) :
    Sweeping request (x :: mine) v :=
  h.mono (List.subset_cons_self x mine)

theorem staleRows_of_ne {op : VideoOp} {res : Except VideoError op.Res}
    (h : ∀ cutoff, op ≠ .findStaleVideos cutoff) : op.staleRows res = [] := by
  cases op with
  | findStaleVideos cutoff => exact absurd rfl (h cutoff)
  | _ => rfl

/-- Answers that list no drafts add none to those the sweep has found. -/
theorem Sweeping.of_append {newer : VideoLog}
    (hnewer : ∀ x ∈ newer, ∀ cutoff, x.op ≠ .findStaleVideos cutoff)
    (h : Sweeping request (newer ++ mine) v) : Sweeping request mine v := by
  obtain ⟨hrequest, y, hy, hfound⟩ := h
  rcases List.mem_append.1 hy with hy | hy
  · rw [staleRows_of_ne (hnewer y hy)] at hfound
    exact nomatch hfound
  · exact ⟨hrequest, y, hy, hfound⟩

theorem Working.cons {job : ProcessVideoJobData} (h : Working request mine job)
    (x : VideoEntry) : Working request (x :: mine) job := by
  obtain ⟨hrequest, ⟨y, hy, htaken⟩, z, hz, hfetched⟩ := h
  exact ⟨hrequest, ⟨y, .tail _ hy, htaken⟩, z, .tail _ hz, hfetched⟩

theorem Reconciled.mono {old new : VideoLog} (h : Reconciled old v)
    (hsub : old ⊆ new) : Reconciled new v := by
  rcases h with ⟨y, hy, h⟩ | ⟨y, hy, h⟩ | ⟨y, hy, h⟩
  · exact .inl ⟨y, hsub hy, h⟩
  · exact .inr (.inl ⟨y, hsub hy, h⟩)
  · exact .inr (.inr ⟨y, hsub hy, h⟩)

end Cons

/-! ## The programs -/

/-- The program makes the calls `Traced` describes, and ends in `post`. -/
abbrev traces {α : Type} (cfg : VideoConfig) (P : VideoPolicy) (t : Nat)
    (request : VideoRequest) (post : Except VideoError α → VideoLog → Prop)
    (p : VideoProg α) (m : Moment) (mine : VideoLog) : Prop :=
  follows (videoSystem cfg) P (Traced cfg.uuid request) t request post p m
    mine

section Programs

variable {cfg : VideoConfig} {P : VideoPolicy} {t : Nat}
  {request : VideoRequest} {m₀ : Moment} {mine : VideoLog}

/-- The rule for a last call. -/
theorem follows_await {G : VideoLog → VideoOp → Prop} (op : VideoOp)
    {post : Except VideoError op.Res → VideoLog → Prop} (hlaw : G mine op)
    (herror : ∀ m fault s e,
      ((videoSystem cfg).answer m op fault s).1 = .error e →
        post (.error e) ((videoSystem cfg).entry t request m op fault s :: mine))
    (hok : ∀ m s v, (Store.exec m op s).1 = .ok v →
      post (.ok v) ((videoSystem cfg).entry t request m op none s :: mine)) :
    follows (videoSystem cfg) P G t request post (await op) m₀ mine :=
  follows_last hlaw (fun m fault s e _ h => herror m fault s e h)
    fun m s v _ h => hok m s v h

theorem getPresignedPartUrls_traced {x : VideoEntry} (h : Signing mine x)
    (storageKey : String) (uploadId n : Nat) :
    traces cfg P t request (fun _ mine => Signing mine x)
      (getPresignedPartUrls cfg storageKey uploadId n) m₀ mine := by
  have hloop : traces cfg P t request (fun _ mine => Signing mine x)
      (Prog.forEach (List.range' 1 n) fun partNumber =>
        await (.getSignedUrl storageKey uploadId partNumber
          cfg.presignExpirySeconds)) m₀ mine := by
    apply follows_forEach (J := fun _ mine => Signing mine x) h
    · exact fun _ hsigning => hsigning
    · intro partNumber rest m mine' hsigning
      refine follows_await (.getSignedUrl storageKey uploadId partNumber
        cfg.presignExpirySeconds) trivial ?_ ?_
      · exact fun _ _ _ _ _ => hsigning.cons rfl
      · exact fun _ _ _ _ => hsigning.cons rfl
  exact follows_map hloop (fun _ _ hsigning => hsigning)
    fun _ _ hsigning => hsigning

/-- What is left when the upload is to be started and its URLs signed. -/
def Initiated (key : String) (r : Except VideoError MultipartUploadInit)
    (mine : VideoLog) : Prop :=
  match r with
  | .ok upload => ∃ x, Signing mine x ∧
      x.op.startedUpload x.res = some (key, upload.upload_id)
  | .error _ => Unregistered mine

theorem initiateMultipartUpload_traced (ownerId : Nat) (dto : CreateVideoDto) :
    traces cfg P t (.createDraft ownerId dto)
      (Initiated (storageKeyFor m₀.publicId))
      (initiateMultipartUpload cfg (storageKeyFor m₀.publicId)
        dto.content_type dto.size_bytes) m₀ [] := by
  apply follows_call
  · exact ⟨⟨ownerId, dto, rfl⟩, m₀.publicId, rfl⟩
  · intro m fault s e _ _ y hy v hop
    rw [List.mem_singleton.1 hy] at hop
    cases hop
  · intro m s created _ hexec
    cases Except.ok.inj hexec
    have hsigned : traces cfg P t (.createDraft ownerId dto)
        (fun _ mine => Signing mine _)
        (getPresignedPartUrls cfg (storageKeyFor m₀.publicId) s.nextUploadId
          (partCount cfg dto.size_bytes)) m
        [(videoSystem cfg).entry t (.createDraft ownerId dto) m
          (.createMultipartUpload (storageKeyFor m₀.publicId) dto.content_type)
          none s] :=
      getPresignedPartUrls_traced ⟨[], rfl, List.forall_mem_nil _⟩ _ _ _
    refine follows_map hsigned ?_ ?_
    · exact fun _ _ hsigning => ⟨_, hsigning, rfl⟩
    · exact fun _ _ hsigning => hsigning.unregistered rfl

theorem createDraft_traced (ownerId : Nat) (dto : CreateVideoDto) :
    traces cfg P t (.createDraft ownerId dto) Drafted
      (createDraft cfg ownerId dto) m₀ [] := by
  show traces cfg P t (.createDraft ownerId dto) Drafted
    (initiateMultipartUpload cfg (storageKeyFor m₀.publicId) dto.content_type
      dto.size_bytes >>= _) m₀ []
  apply follows_bind
  apply follows_mono ?_ (initiateMultipartUpload_traced ownerId dto)
  intro r mine hr
  cases r with
  | error e => exact hr
  | ok upload =>
      obtain ⟨x, hsigning, hstarted⟩ := hr
      intro m
      apply follows_call
      · exact ⟨rfl, rfl, x, upload.upload_id, hsigning, hstarted, rfl⟩
      · intro m' fault s e _ hanswer y hy v hop
        rcases List.mem_cons.1 hy with rfl | hy
        · exact congrArg Except.isOk hanswer
        · exact hsigning.unregistered hstarted y hy v hop
      · intro m' s v _ hexec y hy key id hy'
        have hsame : y = x := by
          rcases List.mem_cons.1 hy with rfl | hy
          · cases hy'
          · refine hsigning.eq_of_mem hy ?_
            cases hop : y.op with
            | getSignedUrl key' uploadId n expiresIn =>
                rw [VideoOp.startedUpload_of_sign hop] at hy'
                cases hy'
            | _ => rfl
        rw [hsame, hstarted] at hy'
        cases hy'
        exact ⟨_, .head _, _, rfl, rfl, congrArg Except.isOk hexec⟩

/-- A completion call that has only read and assembled so far. -/
structure Completer (uuid : String → Option String) (request : VideoRequest)
    (mine : VideoLog) (v : Video) : Prop where
  completing : Completing uuid request mine v
  unwritten : ∀ x ∈ mine, x.op.rewritesRow = false

theorem Completer.cons {v : Video} (h : Completer cfg.uuid request mine v)
    {x : VideoEntry} (hx : x.op.rewritesRow = false) :
    Completer cfg.uuid request (x :: mine) v :=
  ⟨h.completing.cons x, List.forall_mem_cons.2 ⟨hx, h.unwritten⟩⟩

/-- The end of a completion call. -/
theorem finalizeUpload_traced {v : Video}
    (hv : Completer cfg.uuid request mine v)
    (hseen : Seen mine v.storage_key v.size_bytes)
    (hassembled : Assembling mine v.storage_key) :
    traces cfg P t request (fun _ _ => True) (finalizeUpload v) m₀ mine := by
  apply follows_call
  · exact ⟨v, hv.completing, rfl, hseen, hassembled, hv.unwritten⟩
  · exact fun _ _ _ _ _ _ => trivial
  · intro m s u _ _
    apply follows_call
    · exact ⟨v, .inl (hv.completing.cons _), rfl, _, mine, rfl, rfl⟩
    · exact fun _ _ _ _ _ _ => trivial
    · exact fun _ _ _ _ _ => trivial

theorem assembleUpload_traced {v : Video} {uploadId : Nat}
    (hv : Completer cfg.uuid request mine v)
    (hupload : v.upload_id = some uploadId) (dto : CompleteUploadDto) :
    traces cfg P t request (fun _ _ => True) (assembleUpload v uploadId dto) m₀
      mine := by
  have hassemble : traces cfg P t request
      (fun r mine => r.isOk = true →
        Completer cfg.uuid request mine v ∧ Assembling mine v.storage_key)
      (Prog.tryCatch (completeMultipartUpload v.storage_key uploadId dto.parts)
        fun _ => Prog.throw (.domain .UploadObjectMissing)) m₀ mine := by
    apply follows_tryCatch
    refine follows_await (.completeMultipartUpload v.storage_key uploadId _)
      ⟨v, hv.completing, rfl, hupload⟩ ?_ ?_
    · intro _ _ _ _ _ _ hok
      cases hok
    · intro m s u hexec _
      exact ⟨hv.cons rfl, _, .head _, _, _, rfl, congrArg Except.isOk hexec⟩
  apply follows_bind
  apply follows_mono ?_ hassemble
  intro r mine' hr
  cases r with
  | error e => trivial
  | ok u =>
      obtain ⟨hv', x, hx, hassembled⟩ := hr rfl
      intro m
      apply follows_call trivial
      · exact fun _ _ _ _ _ _ => trivial
      · intro m' s head _ hexec
        cases head with
        | none => trivial
        | some size =>
            dsimp only
            split
            · trivial
            · next hsize =>
                rw [not_not] at hsize
                subst hsize
                exact finalizeUpload_traced (hv'.cons rfl) (seen_of_head hexec)
                  ⟨x, .tail _ hx, hassembled⟩

theorem completeUpload_traced (ownerId : Nat) (publicId : String)
    (dto : CompleteUploadDto) :
    traces cfg P t (.completeUpload ownerId publicId dto) (fun _ _ => True)
      (completeUpload cfg.uuid ownerId publicId dto) m₀ [] := by
  unfold completeUpload findOneByPublicId
  cases huuid : cfg.uuid publicId with
  | none => trivial
  | some id =>
      apply follows_call trivial
      · exact fun _ _ _ _ _ _ => trivial
      · intro m s video? _ hexec
        cases video? with
        | none => trivial
        | some v =>
            dsimp only
            split
            · trivial
            · split
              · trivial
              · next hopen =>
                  rw [not_not] at hopen
                  have hexec' : (Store.exec m (.findVideoByPublicId id) s).1 =
                      .ok (some v) := hexec
                  have hfound : VideoOp.foundRow (.findVideoByPublicId id)
                      (Store.exec m (.findVideoByPublicId id) s).1 =
                        some v := by
                    rw [hexec']
                    rfl
                  cases hupload : v.upload_id with
                  | none => trivial
                  | some uploadId =>
                      apply assembleUpload_traced ?_ hupload
                      refine ⟨⟨id, beq_iff_eq.2 huuid,
                        ⟨_, .head _, rfl, hfound⟩, hopen⟩, ?_⟩
                      exact List.forall_mem_singleton.2 rfl

/-- One draft of the sweep. -/
theorem reconcile_traced {v : Video} (hv : Sweeping request mine v) :
    traces cfg P t request (fun _ mine => Reconciled mine v) (reconcile v) m₀
      mine := by
  have hfailed : ∀ {m : Moment} {op : VideoOp} {fault : Option VideoError}
      {s : Store} {e : VideoError} {mine : VideoLog},
      ((videoSystem cfg).answer m op fault s).1 = .error e →
      Reconciled ((videoSystem cfg).entry t request m op fault s :: mine) v :=
    fun h => .inr (.inr ⟨_, .head _, congrArg Except.isOk h⟩)
  apply follows_call trivial
  · exact fun _ _ _ _ _ h => hfailed h
  · intro m s head _ hexec
    have hexec' : s.objects v.storage_key = head := Except.ok.inj hexec
    cases head with
    | none =>
        refine follows_await (.updateVideo v.id failedPatch) ?_ ?_ ?_
        · refine .inl ⟨v, hv.cons _, rfl, .inr ⟨rfl, _, .head _, ?_⟩⟩
          show VideoOp.missedKey (.headObject v.storage_key)
            (.ok (s.objects v.storage_key)) = _
          rw [hexec']
          rfl
        · exact fun _ _ _ _ h => hfailed h
        · exact fun _ _ _ _ => .inl ⟨_, .head _, rfl, rfl⟩
    | some size =>
        apply follows_call
        · exact .inl ⟨v, hv.cons _, rfl, .inl ⟨rfl, size, seen_of_head hexec⟩⟩
        · exact fun _ _ _ _ _ h => hfailed h
        · intro m' s' _ _ _
          refine follows_await (.addJob ⟨v.id, v.storage_key⟩) ?_ ?_ ?_
          · refine ⟨v, .inr ((hv.cons _).cons _), rfl, _, _, rfl, ?_⟩
            show (if rescuePatch = rescuePatch then some v.id else none) = _
            exact if_pos rfl
          · exact fun _ _ _ _ h => hfailed h
          · exact fun _ _ _ _ => .inr (.inl ⟨_, .head _, rfl, rfl⟩)

theorem reconcile_reads (v : Video) :
    (reconcile v).Issues fun op : VideoOp =>
      ∀ cutoff, op ≠ .findStaleVideos cutoff := by
  apply Prog.Issues.bind (.call fun _ => nofun)
  intro head
  cases head with
  | none => exact .call fun _ => nofun
  | some size =>
      exact Prog.Issues.bind (.call fun _ => nofun) fun _ => .call fun _ => nofun

theorem sweep_traced :
    traces cfg P t .sweep
      (fun _ mine => ∀ v, Sweeping .sweep mine v → Reconciled mine v)
      (sweep cfg) m₀ [] := by
  show traces cfg P t .sweep _ (await (.findStaleVideos _) >>= _) m₀ []
  apply follows_call trivial
  · rintro m fault s e _ hanswer v ⟨_, x, hx, hstale⟩
    exact .inr (.inr ⟨x, hx, by
      rw [List.mem_singleton.1 hx]
      exact congrArg Except.isOk hanswer⟩)
  · intro m s stale _ hexec
    -- what is left of the list was found, and the rest is done with
    apply follows_forEach (J := fun rest mine =>
      (∀ v ∈ rest, Sweeping .sweep mine v) ∧
      ∀ v, Sweeping .sweep mine v → v ∈ rest ∨ Reconciled mine v)
    · have hfound : s.videos.filter (fun r => r.status = .uploading ∧
          r.created_at < m₀.now - cfg.abandonedUploadTimeoutMs) = stale :=
        Except.ok.inj hexec
      have hstale : VideoOp.staleRows (.findStaleVideos (m₀.now -
          cfg.abandonedUploadTimeoutMs)) (Store.exec m (.findStaleVideos
            (m₀.now - cfg.abandonedUploadTimeoutMs)) s).1 = stale := hfound
      constructor
      · intro v hv
        rw [← hstale] at hv
        exact ⟨rfl, _, .head _, hv⟩
      · rintro v ⟨_, x, hx, hv⟩
        left
        rw [List.mem_singleton.1 hx] at hv
        rw [← hstale]
        exact hv
    · exact fun mine' hJ v hv => (hJ.2 v hv).resolve_left nofun
    · rintro v rest m' mine' ⟨hrest, hdone⟩
      have hend : ∀ newer : VideoLog, Reconciled (newer ++ mine') v →
          (∀ x ∈ newer, ∀ cutoff, x.op ≠ .findStaleVideos cutoff) →
          (∀ w ∈ rest, Sweeping .sweep (newer ++ mine') w) ∧
          ∀ w, Sweeping .sweep (newer ++ mine') w →
            w ∈ rest ∨ Reconciled (newer ++ mine') w := by
        intro newer hreconciled hnewer
        have hsub := List.subset_append_right newer mine'
        refine ⟨fun w hw => (hrest w (.tail _ hw)).mono hsub, ?_⟩
        intro w hw
        rcases hdone w (hw.of_append hnewer) with hw | hw
        · rcases List.mem_cons.1 hw with rfl | hw
          · exact .inr hreconciled
          · exact .inl hw
        · exact .inr (hw.mono hsub)
      have hreconcile : traces cfg P t .sweep (fun _ mine => Reconciled mine v)
          (reconcile v) m' mine' := reconcile_traced (hrest v (.head _))
      apply follows_tryCatch
      apply follows_mono ?_ (follows_newer (reconcile_reads v) hreconcile)
      rintro r mine'' ⟨hreconciled, newer, rfl, hnewer⟩
      cases r with
      | ok u => exact hend newer hreconciled hnewer
      | error e => exact fun _ => hend newer hreconciled hnewer

/-- The worker keeps its job from call to call. -/
theorem working_call {job : ProcessVideoJobData} {op : VideoOp}
    {f : op.Res → VideoProg Unit} (hjob : Working request mine job)
    (hlaw : Traced cfg.uuid request mine op)
    (hf : ∀ m s v, Working request
      ((videoSystem cfg).entry t request m op none s :: mine) job →
      traces cfg P t request (fun _ mine => Working request mine job) (f v) m
        ((videoSystem cfg).entry t request m op none s :: mine)) :
    traces cfg P t request (fun _ mine => Working request mine job)
      (await op >>= f) m₀ mine :=
  follows_call hlaw (fun _ _ _ _ _ _ => hjob.cons _)
    fun m s v _ _ => hf m s v (hjob.cons _)

theorem processFile_traced {job : ProcessVideoJobData}
    (hjob : Working request mine job) :
    traces cfg P t request (fun _ mine => Working request mine job)
      (processFile job) m₀ mine := by
  apply working_call hjob
  · trivial
  · intro m₁ s₁ _ hjob₁
    apply follows_bind
    apply follows_call trivial
    · exact fun _ _ _ _ _ _ => hjob₁.cons _
    · intro m₂ s₂ stdout _ _ m₂'
      apply working_call (hjob₁.cons _)
      · trivial
      · intro m₃ s₃ _ hjob₃
        apply working_call hjob₃
        · trivial
        · intro m₄ s₄ thumbnail hjob₄
          apply working_call hjob₄
          · exact ⟨job, hjob₄, rfl⟩
          · intro m₅ s₅ _ hjob₅
            refine follows_await (.updateVideo job.video_id
              (readyPatch _ (thumbnailKeyFor job.storage_key))) ?_ ?_ ?_
            · exact .inr ⟨job, hjob₅, rfl,
                .inr ⟨_, rfl, _, .head _, _, _, rfl, rfl⟩⟩
            · exact fun _ _ _ _ _ => hjob₅.cons _
            · exact fun _ _ _ _ => hjob₅.cons _

theorem processVideo_traced {job : ProcessVideoJobData}
    (hjob : Working request mine job) :
    traces cfg P t request (fun _ _ => True) (processVideo job) m₀ mine := by
  apply follows_call trivial
  · exact fun _ _ _ _ _ _ => trivial
  · intro m s _ _ _
    apply follows_tryFinally
    apply follows_tryCatch
    apply follows_mono ?_ (processFile_traced (hjob.cons _))
    intro r mine' hjob'
    have hrm : ∀ (amb : Moment) (mine : VideoLog)
        (post : Except VideoError Unit → VideoLog → Prop),
        (∀ r mine, post r mine) →
        traces cfg P t request post (await .rm) amb mine := by
      intro amb mine post hpost
      refine follows_await .rm trivial ?_ ?_
      · exact fun _ _ _ _ _ => hpost _ _
      · exact fun _ _ _ _ => hpost _ _
    cases r with
    | ok u =>
        intro amb
        apply hrm
        rintro (_ | _) _ <;> trivial
    | error e =>
        intro amb
        apply follows_call
        · exact .inr ⟨job, hjob', rfl, .inl rfl⟩
        · intro _ _ _ _ _ _ amb'
          apply hrm
          rintro (_ | _) _ <;> trivial
        · intro _ _ _ _ _ amb'
          apply hrm
          rintro (_ | _) _ <;> trivial

theorem deliver_traced :
    traces cfg P t .deliver (fun _ _ => True) deliver m₀ mine := by
  apply follows_call rfl
  · exact fun _ _ _ _ _ _ => trivial
  · intro m s job? _ hexec
    cases job? with
    | none => trivial
    | some job =>
        have htaken : VideoOp.takenJob .takeJob (Store.exec m .takeJob s).1 =
            some job := by
          have hexec' : (Store.exec m .takeJob s).1 = .ok (some job) := hexec
          rw [hexec']
          rfl
        apply follows_call trivial
        · exact fun _ _ _ _ _ _ => trivial
        · intro m' s' video? _ hexec'
          cases video? with
          | none => trivial
          | some video =>
              dsimp only
              split
              · trivial
              · next hready =>
                  have hfetched : VideoOp.fetchedRow
                      (.findVideoById job.video_id)
                      (Store.exec m' (.findVideoById job.video_id) s').1 =
                        some video := by
                    have hexec'' : (Store.exec m' (.findVideoById job.video_id)
                        s').1 = .ok (some video) := hexec'
                    rw [hexec'']
                    rfl
                  exact processVideo_traced ⟨rfl, ⟨_, .tail _ (.head _), htaken⟩,
                    _, .head _, video, rfl, hfetched, hready⟩

theorem serve_traced (request : VideoRequest) :
    traces cfg P t request (Ended request) (serve cfg request) m₀ [] := by
  cases request with
  | createDraft ownerId dto =>
      exact follows_map (createDraft_traced ownerId dto) (fun _ _ h => h)
        fun _ _ h => h
  | completeUpload ownerId publicId dto =>
      exact follows_map (completeUpload_traced ownerId publicId dto)
        (fun _ _ h => h) fun _ _ h => h
  | uploadPart uploadId part =>
      apply follows_call trivial
      · exact fun _ _ _ _ _ _ => trivial
      · exact fun _ _ _ _ _ => trivial
  | sweep =>
      exact follows_map sweep_traced (fun _ _ h => h) fun _ _ h => h
  | deliver =>
      exact follows_map deliver_traced (fun _ _ h => h) fun _ _ h => h
  | closeJob i =>
      apply follows_call trivial
      · exact fun _ _ _ _ _ _ => trivial
      · exact fun _ _ _ _ _ => trivial

end Programs

/-! ## Every run -/

section Reads

variable {cfg : VideoConfig} {m : Moment} {op : VideoOp}
  {fault : Option VideoError} {s : Store} {v : Video}

/-- A lookup finds a row of the table, under the id it asks for. -/
theorem mem_of_foundRow
    (h : op.foundRow ((videoSystem cfg).answer m op fault s).1 = some v) :
    v ∈ s.videos ∧ ∀ publicId, op = .findVideoByPublicId publicId →
      v.public_id = publicId := by
  cases fault with
  | some e => cases op <;> exact nomatch h
  | none =>
      cases op with
      | findVideoByPublicId publicId =>
          have hfound : VideoOp.foundRow (.findVideoByPublicId publicId)
              (.ok (s.videos.find? (·.public_id == publicId))) = some v := h
          cases hrow : s.videos.find? (·.public_id == publicId) with
          | none =>
              rw [hrow] at hfound
              exact nomatch hfound
          | some r =>
              rw [hrow] at hfound
              cases hfound
              refine ⟨List.mem_of_find?_eq_some hrow, ?_⟩
              intro publicId' hop
              cases hop
              have hid := List.find?_some hrow
              exact eq_of_beq hid
      | _ => exact nomatch h

/-- The sweep reads drafts that are `uploading`. -/
theorem mem_of_staleRows
    (h : v ∈ op.staleRows ((videoSystem cfg).answer m op fault s).1) :
    v ∈ s.videos ∧ v.status = .uploading := by
  cases fault with
  | some e => cases op <;> exact nomatch h
  | none =>
      cases op with
      | findStaleVideos cutoff =>
          have hstale : v ∈ s.videos.filter fun r =>
              r.status = .uploading ∧ r.created_at < cutoff := h
          rw [List.mem_filter, decide_eq_true_iff] at hstale
          exact ⟨hstale.1, hstale.2.1⟩
      | _ => exact nomatch h

end Reads

section Runs

variable {cfg : VideoConfig} {P : VideoPolicy} {s₀ : Store} {c : VideoRun}

/-- The calls of every run are as `Traced` describes them. -/
theorem traced_of_reachable (h : Reachable (videoSystem cfg) P s₀ c) :
    Obeyed (fun log t request op => Traced cfg.uuid request (own t log) op)
      c.log :=
  (Reachable.follows (fun _ request _ => serve_traced request) h).1

/-- The law of the newest call of a run. -/
theorem traced_newest (h : Reachable (videoSystem cfg) P s₀ c) {x : VideoEntry}
    {older : VideoLog} (hlog : c.log = x :: older) :
    Traced cfg.uuid x.request (own x.tid older) x.op :=
  traced_of_reachable h x older ⟨[], hlog.symm⟩

/-- A thread that has ended has done what it has to. -/
theorem ended_of_reachable (h : Reachable (videoSystem cfg) P s₀ c) {t : Nat}
    {th : Thread VideoIface Moment VideoError VideoRequest VideoReply}
    (hth : c.threads[t]? = some th) (hended : th.prog.running = false) :
    ∃ r, th.prog = Prog.ofExcept r ∧ Ended th.request r (own t c.log) :=
  Reachable.follows_ended (fun _ request _ => serve_traced request) h hth hended

/-- What a lookup or a sweep has found descends from an inserted row. -/
theorem known_of_read (h : Reachable (videoSystem cfg) P {} c) {x : VideoEntry}
    (hx : x ∈ c.log) {v : Video}
    (hv : x.op.foundRow x.res = some v ∨ v ∈ x.op.staleRows x.res) :
    Known c.log v := by
  obtain ⟨b, fault, k, hb, _, _, _, heq, hsuffix⟩ := h.entry_config hx
  have hrows := (provenance_of_reachable hb).1.rows
  suffices hmem : v ∈ b.state.videos from
    (hrows v hmem).mono ((List.suffix_cons x b.log).trans hsuffix)
  rw [heq] at hv
  rcases hv with hv | hv
  · exact (mem_of_foundRow hv).1
  · exact (mem_of_staleRows hv).1

/-- The draft a completion call or a sweep works on descends from an inserted
row. -/
theorem known_of_held (h : Reachable (videoSystem cfg) P {} c) {t : Nat}
    {request : VideoRequest} {v : Video} {log : VideoLog} (hlog : log <:+ c.log)
    (hv : Completing cfg.uuid request (own t log) v ∨
      Sweeping request (own t log) v) :
    Known c.log v := by
  rcases hv with ⟨_, _, ⟨x, hx, _, hfound⟩, _⟩ | ⟨_, x, hx, hstale⟩
  · exact known_of_read h (hlog.subset (mem_own.1 hx).1) (.inl hfound)
  · exact known_of_read h (hlog.subset (mem_own.1 hx).1) (.inr hstale)

end Runs

end Videum.Videos
