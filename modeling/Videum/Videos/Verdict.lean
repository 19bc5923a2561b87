import Videum.Videos.Playback
import Videum.Videos.Reports

/-!
# What becomes of a completion call

`completeUpload` reads its draft, lets storage assemble the object, and
compares its size with the declared one.  In between anything may happen to
other drafts, other uploads and the queue.  While no sweep takes the draft for
stale and its owner does not complete it twice at the same time, the reply
depends on three things only: the parts uploaded when the call arrived, the
report, and the rule by which the storage judges reports.

## Main results

* `completeUpload_answers` — the answers a completion call has had.
* `completion_verdict` — its reply, in the middle of any run.
-/

namespace Videum.Videos

open Videum.Async
open Videum.Common

/-! ## The verdict -/

/-- What the owner of the draft `r` is told about a report. -/
def verdict (rule : CompletionRule) (uploaded : List StoredPart) (r : Video)
    (report : List CompletedPart) : Except VideoError CompleteUploadResult :=
  if rule.accepts uploaded (inOrder report) then
    if reportedSize uploaded report = r.size_bytes then
      .ok ⟨r.public_id, .processing⟩
    else .error (.domain .UploadSizeMismatch)
  else .error (.domain .UploadObjectMissing)

/-! ## The answers of a completion call -/

/-- The row is an open draft of this user. -/
def Video.OpenFor (ownerId : Nat) (v : Video) : Prop :=
  v.owner_id = ownerId ∧ v.status = .uploading ∧ v.upload_id.isSome = true

/-- The last calls of a completion. -/
def VideoOp.handsIn : VideoOp → Bool
  | .saveVideo _ => true
  | .addJob _ => true
  | _ => false

/-- The lookup of a completion call, and its request to storage. -/
structure Submitted (publicId : String) (dto : CompleteUploadDto) (v : Video)
    (find assemble : VideoEntry) : Prop where
  lookup : find.op = .findVideoByPublicId publicId
  found : find.op.foundRow find.res = some v
  assembly : ∃ id, v.upload_id = some id ∧
    assemble.op = .completeMultipartUpload v.storage_key id (inOrder dto.parts)

/-- How a completion call that looks up `publicId` ends, by its answers. -/
inductive CompletionAnswers (ownerId : Nat) (publicId : String)
    (dto : CompleteUploadDto) :
    Except VideoError CompleteUploadResult → VideoLog → Prop
  | turnedAway {find : VideoEntry}
      {r : Except VideoError CompleteUploadResult}
      (hlookup : find.op = .findVideoByPublicId publicId)
      (hnone : ∀ v, find.op.foundRow find.res = some v →
        ¬ v.OpenFor ownerId) :
      CompletionAnswers ownerId publicId dto r [find]
  | refused {find assemble : VideoEntry} {v : Video}
      (hsubmitted : Submitted publicId dto v find assemble)
      (hres : assemble.res.isOk = false) :
      CompletionAnswers ownerId publicId dto
        (.error (.domain .UploadObjectMissing)) [assemble, find]
  | unseen {find assemble head : VideoEntry} {v : Video} {e : VideoError}
      (hsubmitted : Submitted publicId dto v find assemble)
      (hres : assemble.res.isOk = true)
      (hhead : head.op = .headObject v.storage_key)
      (hseen : head.op.seenObject head.res = none) :
      CompletionAnswers ownerId publicId dto (.error e) [head, assemble, find]
  | mismatched {find assemble head : VideoEntry} {v : Video} {size : Nat}
      (hsubmitted : Submitted publicId dto v find assemble)
      (hres : assemble.res.isOk = true)
      (hseen : head.op.seenObject head.res = some (v.storage_key, size))
      (hsize : size ≠ v.size_bytes) :
      CompletionAnswers ownerId publicId dto
        (.error (.domain .UploadSizeMismatch)) [head, assemble, find]
  | finalized {find assemble head : VideoEntry} {v : Video}
      {r : Except VideoError CompleteUploadResult} {rest : VideoLog}
      (hsubmitted : Submitted publicId dto v find assemble)
      (hres : assemble.res.isOk = true)
      (hseen : head.op.seenObject head.res =
        some (v.storage_key, v.size_bytes))
      (hrest : ∀ x ∈ rest, x.op.handsIn = true)
      (hr : r = .ok ⟨v.public_id, .processing⟩ ∨
        ∃ x ∈ rest, x.res.isOk = false) :
      CompletionAnswers ownerId publicId dto r (rest ++ [head, assemble, find])

/-- The outcome of the request to storage, for the call. -/
def AssemblyAnswered (assemble : VideoEntry) : Except VideoError Unit → Prop
  | .ok _ => assemble.res.isOk = true
  | .error e =>
      e = .domain .UploadObjectMissing ∧ assemble.res.isOk = false

/-- A completion call assembles the upload of a draft of its caller. -/
def AssemblesOwn (uuid : String → Option String) (mine : VideoLog) :
    VideoRequest → VideoOp → Prop
  | .completeUpload ownerId text _, .completeMultipartUpload _ id _ =>
      ∃ v, v.owner_id = ownerId ∧ v.upload_id = some id ∧
        ∃ x ∈ mine, ∃ publicId, uuid text = some publicId ∧
          x.op = .findVideoByPublicId publicId ∧
          x.op.foundRow x.res = some v
  | _, _ => True

/-- The law a request obeys. -/
abbrev ownAssembly (uuid : String → Option String) (request : VideoRequest)
    (mine : VideoLog) (op : VideoOp) : Prop :=
  AssemblesOwn uuid mine request op

section Programs

variable {cfg : VideoConfig} {P : VideoPolicy} {t : Nat}
  {request : VideoRequest} {m₀ : Moment}

theorem finalizeUpload_answers {publicId : String} {dto : CompleteUploadDto}
    {v : Video} {find assemble head : VideoEntry}
    (hsubmitted : Submitted publicId dto v find assemble)
    (hres : assemble.res.isOk = true)
    (hseen : head.op.seenObject head.res =
      some (v.storage_key, v.size_bytes)) :
    follows (videoSystem cfg) P (ownAssembly cfg.uuid request) t request
      (CompletionAnswers v.owner_id publicId dto) (finalizeUpload v) m₀
      [head, assemble, find] := by
  have hend : ∀ (rest : VideoLog) (r : Except VideoError CompleteUploadResult),
      (∀ x ∈ rest, x.op.handsIn = true) →
      (r = .ok ⟨v.public_id, .processing⟩ ∨ ∃ x ∈ rest, x.res.isOk = false) →
      CompletionAnswers v.owner_id publicId dto r
        (rest ++ [head, assemble, find]) :=
    fun _ _ hrest hr => .finalized hsubmitted hres hseen hrest hr
  apply follows_call (by cases request <;> trivial)
  · intro m fault s e _ hanswer
    refine hend [_] (.error e) ?_ (.inr ⟨_, .head _, congrArg _ hanswer⟩)
    exact List.forall_mem_singleton.2 rfl
  · intro m s _ _ _
    apply follows_call (by cases request <;> trivial)
    · intro m' fault s' e _ hanswer
      refine hend [_, _] (.error e) ?_ (.inr ⟨_, .head _, congrArg _ hanswer⟩)
      exact List.forall_mem_cons.2 ⟨rfl, List.forall_mem_singleton.2 rfl⟩
    · intro m' s' _ _ _
      refine hend [_, _] (.ok ⟨v.public_id, .processing⟩) ?_ (.inl rfl)
      exact List.forall_mem_cons.2 ⟨rfl, List.forall_mem_singleton.2 rfl⟩

theorem assembleUpload_answers {text publicId : String}
    {dto : CompleteUploadDto} {v : Video} {id : Nat} {find : VideoEntry}
    (hrequest : request = .completeUpload v.owner_id text dto)
    (huuid : cfg.uuid text = some publicId)
    (hlookup : find.op = .findVideoByPublicId publicId)
    (hfound : find.op.foundRow find.res = some v)
    (hid : v.upload_id = some id) :
    follows (videoSystem cfg) P (ownAssembly cfg.uuid request) t request
      (CompletionAnswers v.owner_id publicId dto) (assembleUpload v id dto) m₀
      [find] := by
  have hassemble : follows (videoSystem cfg) P (ownAssembly cfg.uuid request)
      t request (fun r mine => ∃ assemble : VideoEntry, mine = [assemble, find] ∧
        Submitted publicId dto v find assemble ∧ AssemblyAnswered assemble r)
      (Prog.tryCatch (completeMultipartUpload v.storage_key id dto.parts)
        fun _ => Prog.throw (.domain .UploadObjectMissing)) m₀ [find] := by
    apply follows_tryCatch
    refine follows_await (.completeMultipartUpload v.storage_key id _) ?_ ?_ ?_
    · rw [hrequest]
      exact ⟨v, rfl, hid, find, .head _, publicId, huuid, hlookup, hfound⟩
    · intro m fault s e hanswer _
      exact ⟨_, rfl, ⟨hlookup, hfound, id, hid, rfl⟩, rfl,
        congrArg Except.isOk hanswer⟩
    · intro m s _ hexec
      exact ⟨_, rfl, ⟨hlookup, hfound, id, hid, rfl⟩,
        congrArg Except.isOk hexec⟩
  apply follows_bind
  apply follows_mono ?_ hassemble
  rintro r _ ⟨assemble, rfl, hsubmitted, hr⟩
  cases r with
  | error e =>
      obtain ⟨rfl, hres⟩ := hr
      exact .refused hsubmitted hres
  | ok _ =>
      intro m₁
      apply follows_call (by cases request <;> trivial)
      · intro m fault s e _ hanswer
        refine .unseen hsubmitted hr rfl ?_
        show VideoOp.seenObject (.headObject v.storage_key)
          ((videoSystem cfg).answer m (.headObject v.storage_key) fault s).1 =
            none
        rw [hanswer]
        rfl
      · intro m s head _ hexec
        have hshown : VideoOp.seenObject (.headObject v.storage_key)
            (Store.exec m (.headObject v.storage_key) s).1 =
              head.map fun size => (v.storage_key, size) := by
          have hobject : s.objects v.storage_key = head := Except.ok.inj hexec
          show VideoOp.seenObject (.headObject v.storage_key)
            (.ok (s.objects v.storage_key)) = _
          rw [hobject]
          cases head <;> rfl
        cases head with
        | none => exact .unseen hsubmitted hr rfl hshown
        | some size =>
            dsimp only
            by_cases hsize : size ≠ v.size_bytes
            · rw [if_pos hsize]
              exact .mismatched hsubmitted hr hshown hsize
            · rw [if_neg hsize]
              rw [not_not] at hsize
              subst hsize
              exact finalizeUpload_answers hsubmitted hr hshown

/-- What a call whose path names no id ends in. -/
theorem completeUpload_answers_none {ownerId : Nat} {text : String}
    {dto : CompleteUploadDto} (huuid : cfg.uuid text = none)
    {G : VideoLog → VideoOp → Prop}
    {post : Except VideoError CompleteUploadResult → VideoLog → Prop}
    (hpost : post (.error .database) []) :
    follows (videoSystem cfg) P G t request post
      (completeUpload cfg.uuid ownerId text dto) m₀ [] := by
  unfold completeUpload findOneByPublicId
  rw [huuid]
  exact hpost

theorem completeUpload_answers (ownerId : Nat) {text publicId : String}
    (dto : CompleteUploadDto) (huuid : cfg.uuid text = some publicId) :
    follows (videoSystem cfg) P
      (ownAssembly cfg.uuid (.completeUpload ownerId text dto)) t
      (.completeUpload ownerId text dto) (CompletionAnswers ownerId publicId dto)
      (completeUpload cfg.uuid ownerId text dto) m₀ [] := by
  unfold completeUpload findOneByPublicId
  rw [huuid]
  apply follows_call trivial
  · intro m fault s e _ hanswer
    refine .turnedAway rfl ?_
    intro v hv
    have hnone : VideoOp.foundRow (.findVideoByPublicId publicId)
        ((videoSystem cfg).answer m (.findVideoByPublicId publicId) fault s).1 =
          some v := hv
    rw [hanswer] at hnone
    cases hnone
  · intro m s video? _ hexec
    have hfound : ∀ x : VideoEntry,
        x = (videoSystem cfg).entry t (.completeUpload ownerId text dto) m
          (.findVideoByPublicId publicId) none s →
        x.op.foundRow x.res = video? := by
      rintro x rfl
      show VideoOp.foundRow (.findVideoByPublicId publicId)
        (Store.exec m (.findVideoByPublicId publicId) s).1 = video?
      have hexec' : (Store.exec m (.findVideoByPublicId publicId) s).1 =
          .ok video? := hexec
      rw [hexec']
      cases video? <;> rfl
    have hturned : ∀ r, (∀ v, video? = some v → ¬ v.OpenFor ownerId) →
        CompletionAnswers ownerId publicId dto r
          [(videoSystem cfg).entry t (.completeUpload ownerId text dto) m
            (.findVideoByPublicId publicId) none s] := by
      intro r hno
      refine .turnedAway rfl fun v hv => hno v ?_
      rw [← hfound _ rfl, hv]
    cases video? with
    | none => exact hturned _ fun v hv => nomatch hv
    | some video =>
        dsimp only
        by_cases howner : video.owner_id ≠ ownerId
        · rw [if_pos howner]
          apply hturned
          rintro _ ⟨⟩ hopen
          exact howner hopen.1
        · rw [if_neg howner]
          rw [not_not] at howner
          subst howner
          by_cases hstatus : video.status ≠ .uploading
          · rw [if_pos hstatus]
            apply hturned
            rintro _ ⟨⟩ hopen
            exact hstatus hopen.2.1
          · rw [if_neg hstatus]
            cases hid : video.upload_id with
            | none =>
                apply hturned
                rintro _ ⟨⟩ hopen
                rw [Video.OpenFor, hid] at hopen
                exact nomatch hopen.2.2
            | some id =>
                exact assembleUpload_answers rfl huuid rfl (hfound _ rfl) hid

end Programs

/-- How a request ends: a completion call whose path names an id as its
answers say. -/
def EndsAs (uuid : String → Option String) (request : VideoRequest)
    (reply : Except VideoError VideoReply) (mine : VideoLog) : Prop :=
  match request with
  | .completeUpload ownerId text dto => ∀ publicId, uuid text = some publicId →
      ∃ r, reply = r.map VideoReply.completed ∧
        CompletionAnswers ownerId publicId dto r mine
  | _ => True

theorem serve_answers (cfg : VideoConfig) (P : VideoPolicy) (t : Nat)
    (request : VideoRequest) (m : Moment) :
    follows (videoSystem cfg) P (ownAssembly cfg.uuid request) t request
      (EndsAs cfg.uuid request) (serve cfg request) m [] := by
  cases request with
  | completeUpload ownerId text dto =>
      cases huuid : cfg.uuid text with
      | none =>
          have hnone : ∀ reply mine, EndsAs cfg.uuid
              (.completeUpload ownerId text dto) reply mine := by
            intro reply mine publicId hid
            cases huuid.symm.trans hid
          have hfails : follows (videoSystem cfg) P
              (ownAssembly cfg.uuid (.completeUpload ownerId text dto)) t
              (.completeUpload ownerId text dto) (fun _ _ => True)
              (completeUpload cfg.uuid ownerId text dto) m [] :=
            completeUpload_answers_none huuid trivial
          apply follows_map hfails
          · exact fun _ mine _ => hnone _ mine
          · exact fun _ mine _ => hnone _ mine
      | some publicId =>
          apply follows_map (completeUpload_answers ownerId dto huuid)
          · intro result mine h publicId' hid
            cases huuid.symm.trans hid
            exact ⟨.ok result, rfl, h⟩
          · intro e mine h publicId' hid
            cases huuid.symm.trans hid
            exact ⟨.error e, rfl, h⟩
  | _ =>
      exact follows_of_issues (Prog.issues_any (fun _ => trivial) _)
        fun _ _ _ => trivial

/-! ## The draft in the meantime -/

/-- The answers given since the log was `old`. -/
def newerThan (old new : VideoLog) : VideoLog :=
  new.take (new.length - old.length)

/-- The cutoff a sweep asks for. -/
def VideoOp.cutoff? : VideoOp → Option Int
  | .findStaleVideos cutoff => some cutoff
  | _ => none

/-- A completion call of this user for this video. -/
def VideoRequest.completesFor (uuid : String → Option String) (ownerId : Nat)
    (publicId : String) : VideoRequest → Bool
  | .completeUpload ownerId' text _ =>
      ownerId' = ownerId ∧ uuid text = some publicId
  | _ => false

/-- Between `c` and `c'` the thread `t` has the draft `r`, whose upload is
`id`, to itself: no sweep so far took drafts of its age for stale, no other
completion call of its owner for it was answered and no part was uploaded to
it, and the calls of `t` were not made to fail. -/
structure Undisturbed (uuid : String → Option String) (c c' : VideoRun)
    (t : Nat) (r : Video) (id : Nat) : Prop where
  young : ∀ x ∈ c'.log, ∀ cutoff ∈ x.op.cutoff?, cutoff ≤ r.created_at
  completions : ∀ x ∈ newerThan c.log c'.log,
    x.request.completesFor uuid r.owner_id r.public_id = true → x.tid = t
  parts : ∀ x ∈ newerThan c.log c'.log, x.op.uploadedPart id x.res = none
  answered : ∀ x ∈ own t c'.log, x.res = (Store.exec x.amb x.op x.before).1

theorem VideoOp.of_completedUpload {op : VideoOp}
    {res : Except VideoError op.Res} {id : Nat}
    (h : op.completedUpload res = some id) :
    ∃ key parts, op = .completeMultipartUpload key id parts := by
  cases op with
  | completeMultipartUpload key id' parts =>
      cases res with
      | error e => exact nomatch h
      | ok v =>
          cases h
          exact ⟨key, parts, rfl⟩
  | _ => exact nomatch h

/-! What calls answer that are not made to fail. -/

theorem foundRow_of_exec {x : VideoEntry} {publicId : String}
    (hop : x.op = .findVideoByPublicId publicId)
    (hres : x.res = (Store.exec x.amb x.op x.before).1) :
    x.op.foundRow x.res =
      x.before.videos.find? (·.public_id == publicId) := by
  obtain ⟨tid, request, amb, op, before, res, after⟩ := x
  dsimp only at hop hres ⊢
  subst hop
  subst hres
  show VideoOp.foundRow (.findVideoByPublicId publicId)
    (.ok (before.videos.find? (·.public_id == publicId))) = _
  cases before.videos.find? (·.public_id == publicId) <;> rfl

theorem seenObject_of_exec {x : VideoEntry} {key : String}
    (hop : x.op = .headObject key)
    (hres : x.res = (Store.exec x.amb x.op x.before).1) :
    x.op.seenObject x.res =
      (x.before.objects key).map fun size => (key, size) := by
  obtain ⟨tid, request, amb, op, before, res, after⟩ := x
  dsimp only at hop hres ⊢
  subst hop
  subst hres
  show VideoOp.seenObject (.headObject key) (.ok (before.objects key)) = _
  cases before.objects key <;> rfl

theorem objects_of_assembled {x : VideoEntry} {key : String} {id size : Nat}
    {parts : List CompletedPart} {u : MultipartUpload}
    (hop : x.op = .completeMultipartUpload key id parts)
    (hafter : x.after = (Store.exec x.amb x.op x.before).2)
    (hc : x.before.completable x.amb.completion key id parts =
      some (u, size)) :
    x.after.objects key = some size := by
  rw [hafter, hop]
  simp only [Store.exec, Store.completeMultipartUpload, hc, Store.putObject,
    Function.update_self]

/-- The last calls of a completion are always answered. -/
theorem isOk_of_handsIn {m : Moment} {op : VideoOp} {s : Store}
    (h : op.handsIn = true) : (Store.exec m op s).1.isOk = true := by
  cases op with
  | saveVideo v => rfl
  | addJob job => rfl
  | _ => cases h

theorem VideoOp.headObject_of_seen {op : VideoOp}
    {res : Except VideoError op.Res} {key : String} {size : Nat}
    (h : op.seenObject res = some (key, size)) : op = .headObject key := by
  cases op with
  | headObject key' =>
      cases res with
      | error e => exact nomatch h
      | ok head =>
          cases head with
          | none => exact nomatch h
          | some size' =>
              cases h
              rfl
  | _ => exact nomatch h

section Runs

variable {cfg : VideoConfig} {P : VideoPolicy} {c c' b : VideoRun}

/-- What a row has for its columns, at any time of the run. -/
theorem asDrafted_of_row (h : Reachable (videoSystem cfg) P {} c)
    (hs : Steps (videoSystem cfg) P c c') {r r₀ : Video}
    (hr : r ∈ c.state.videos) (hr₀ : Inserted c'.log r₀)
    (hid : r.id = r₀.id) : r.asDrafted = r₀.asDrafted := by
  obtain ⟨r₁, hr₁, heq⟩ := (fixed_of_reachable h).rows r hr
  have hsame : r₁ = r₀ := by
    apply (provenance_of_reachable (h.steps hs)).1.unique_id r₁ r₀
      (hr₁.mono hs.log_suffix) hr₀
    rw [← id_of_asDrafted heq, hid]
  rw [heq, hsame]

/-- The sweep finds rows that are older than its cutoff. -/
theorem created_of_stale {m : Moment} {op : VideoOp}
    {fault : Option VideoError} {s : Store} {v : Video}
    (h : v ∈ op.staleRows ((videoSystem cfg).answer m op fault s).1) :
    v ∈ s.videos ∧ ∃ cutoff ∈ op.cutoff?, v.created_at < cutoff := by
  refine ⟨(mem_of_staleRows h).1, ?_⟩
  cases fault with
  | some e => cases op <;> exact nomatch h
  | none =>
      cases op with
      | findStaleVideos cutoff =>
          have hstale : v ∈ s.videos.filter fun r =>
              r.status = .uploading ∧ r.created_at < cutoff := h
          rw [List.mem_filter, decide_eq_true_iff] at hstale
          exact ⟨cutoff, rfl, hstale.2.2⟩
      | _ => exact nomatch h

/-- A draft that was never marked, and that no sweep found stale, is not given
up. -/
theorem not_givenUp (h : Reachable (videoSystem cfg) P {} c) {r₀ : Video}
    (hr₀ : Inserted c.log r₀) (hunmarked : Unmarked c.log r₀.id)
    (hyoung : ∀ x ∈ c.log, ∀ cutoff ∈ x.op.cutoff?,
      cutoff ≤ r₀.created_at) : ¬ GivenUp c.log r₀.id := by
  rintro ⟨x, hx, hop, _⟩
  obtain ⟨older, hsuffix, hlaw⟩ := (traced_of_reachable h).at_mem hx
  have holder : older <:+ c.log := (List.suffix_cons x older).trans hsuffix
  rw [hop] at hlaw
  rcases hlaw with ⟨v, ⟨_, y, hy, hstale⟩, hid, _⟩ | ⟨job, hjob, hid, _⟩
  · have hylog : y ∈ c.log := holder.subset (mem_own.1 hy).1
    obtain ⟨before, hbefore⟩ := older_of_mem hylog
    obtain ⟨b, fault, k, hb, _, hat, hbc⟩ := h.split_at hbefore
    rw [hat.eq] at hstale
    obtain ⟨hv, cutoff, hfind, hlt⟩ := created_of_stale hstale
    have hdate : v.created_at = r₀.created_at :=
      of_asDrafted (asDrafted_of_row hb (.head hat.step hbc) hv hr₀ hid)
        fun _ => rfl
    have hle := hyoung y hylog cutoff hfind
    omega
  · obtain ⟨b, fault, k, hb, hblog, _, _⟩ := h.split_at hsuffix
    rw [← hblog] at hjob
    apply marked_of_working hb hjob
    intro z hz
    rw [hid]
    rw [hblog] at hz
    exact hunmarked z (holder.subset hz)

/-- While its upload is open and no sweep found it stale, the row is the
inserted one. -/
theorem row_of_open (h : Reachable (videoSystem cfg) P {} c) {r₀ : Video}
    (hr₀ : Inserted c.log r₀) {id : Nat} {u : MultipartUpload}
    (hu : c.state.uploads id = some u) (hopen : u.completed = false)
    (hid : r₀.upload_id = some id)
    (hyoung : ∀ x ∈ c.log, ∀ cutoff ∈ x.op.cutoff?,
      cutoff ≤ r₀.created_at) : c.state.row? r₀.id = some r₀ := by
  have hunmarked := unmarked_of_open h hu hopen hr₀ hid
  rcases row_of_unmarked h hr₀ hunmarked with ⟨_, hrow⟩ | ⟨hgiven, _⟩
  · exact hrow
  · exact absurd hgiven (not_givenUp h hr₀ hunmarked hyoung)

/-- Only completion calls of the owner of a draft complete its upload. -/
theorem owner_of_completed (h : Reachable (videoSystem cfg) P {} c)
    {x : VideoEntry} (hx : x ∈ c.log) {id : Nat}
    (hdone : x.op.completedUpload x.res = some id) {r₀ : Video}
    (hr₀ : Inserted c.log r₀) (hid : r₀.upload_id = some id) :
    x.request.completesFor cfg.uuid r₀.owner_id r₀.public_id = true := by
  obtain ⟨key, parts, hop⟩ := VideoOp.of_completedUpload hdone
  obtain ⟨older, hsuffix, htraced⟩ := (traced_of_reachable h).at_mem hx
  rw [hop] at htraced
  obtain ⟨_, ⟨_, hcompletes, _⟩, _⟩ := htraced
  obtain ⟨ownerId, text, dto, hrequest⟩ :=
    VideoRequest.of_completes hcompletes
  have hlaw : AssemblesOwn cfg.uuid (own x.tid older) x.request x.op :=
    (Reachable.follows (serve_answers cfg P) h).1 x older hsuffix
  rw [hop, hrequest] at hlaw
  obtain ⟨v, howner, hvid, y, hy, publicId, huuid, hlookup, hfound⟩ := hlaw
  have hylog : y ∈ c.log := hsuffix.subset (.tail _ (mem_own.1 hy).1)
  obtain ⟨r₁, hr₁, hdesc⟩ := known_of_read h hylog (.inl hfound)
  have hid₁ : r₁.upload_id = some id := by
    rcases hdesc.upload_id with hnone | hsame
    · exact nomatch hvid.symm.trans hnone
    · exact hsame.symm.trans hvid
  have hsame : r₁ = r₀ := inserted_unique h hr₁ hr₀ hid₁ hid
  obtain ⟨r₂, hr₂, heq⟩ := (fixed_of_reachable h).read y hylog v hfound
  have hsame₂ : r₂ = r₀ := by
    apply (provenance_of_reachable h).1.unique_id r₂ r₀ hr₂ hr₀
    rw [← id_of_asDrafted heq, hdesc.id, hsame]
  rw [hsame₂] at heq
  have hpublic : v.public_id = r₀.public_id := of_asDrafted heq fun _ => rfl
  rw [hrequest]
  apply decide_eq_true
  rw [← howner, owner_id_of_asDrafted heq, huuid,
    ← public_id_of_found h hylog hlookup hfound, hpublic]
  exact ⟨rfl, rfl⟩

/-! ## The draft of an open upload -/

/-- `r` is a row whose upload `id` is still open. -/
structure OpenDraft (s : Store) (r : Video) (id : Nat) : Prop where
  row : r ∈ s.videos
  upload : r.upload_id = some id
  session : ∃ u, s.uploads id = some u ∧ u.completed = false

/-- It stands as it was inserted. -/
theorem OpenDraft.inserted (h : Reachable (videoSystem cfg) P {} c) {r : Video}
    {id : Nat} (hdraft : OpenDraft c.state r id)
    (hyoung : ∀ x ∈ c.log, ∀ cutoff ∈ x.op.cutoff?,
      cutoff ≤ r.created_at) : Inserted c.log r := by
  obtain ⟨u, hu, hopen⟩ := hdraft.session
  obtain ⟨r₀, hr₀, hdesc⟩ :=
    (provenance_of_reachable h).1.rows r hdraft.row
  have hid : r₀.upload_id = some id := by
    rcases hdesc.upload_id with hnone | hsame
    · exact nomatch hdraft.upload.symm.trans hnone
    · exact hsame.symm.trans hdraft.upload
  have hdate : r.created_at = r₀.created_at :=
    of_asDrafted (asDrafted_of_row h .refl hdraft.row hr₀ hdesc.id) fun _ => rfl
  rw [hdate] at hyoung
  have hrow := row_of_open h hr₀ hu hopen hid hyoung
  have hfound := (keyed_of_reachable h).found r hdraft.row
  rw [hdesc.id, hrow] at hfound
  rw [← Option.some.inj hfound]
  exact hr₀

/-- A draft is inserted as `uploading`. -/
theorem status_of_inserted (h : Reachable (videoSystem cfg) P {} c) {r : Video}
    (hr : Inserted c.log r) : r.status = .uploading := by
  obtain ⟨x, hx, hrow⟩ := hr
  obtain ⟨v, hop, _, rfl⟩ := (insertedRow_iff h hx).1 hrow
  obtain ⟨older, _, hlaw⟩ := (traced_of_reachable h).at_mem hx
  rw [hop] at hlaw
  exact hlaw.1

/-- The upload of an inserted row is there, under the key of the row. -/
theorem upload_of_inserted (h : Reachable (videoSystem cfg) P {} c) {r : Video}
    (hr : Inserted c.log r) {id : Nat} (hid : r.upload_id = some id) :
    ∃ u, c.state.uploads id = some u ∧ u.key = r.storage_key := by
  obtain ⟨x, hx, hrow⟩ := hr
  obtain ⟨v, hop, _, rfl⟩ := (insertedRow_iff h hx).1 hrow
  obtain ⟨older, hsuffix⟩ := older_of_mem hx
  obtain ⟨z, hz, _, hstarted⟩ := started_of_insert h hsuffix hop hid
  exact (sessions_of_reachable h).keys z hz _ id hstarted

/-! ## While the call runs -/

theorem newerThan_append (newer old : VideoLog) :
    newerThan old (newer ++ old) = newer := by
  rw [newerThan, List.length_append, Nat.add_sub_cancel, List.take_left]

theorem eq_newerThan_append {old new : VideoLog} (hs : old <:+ new) :
    new = newerThan old new ++ old := by
  obtain ⟨newer, rfl⟩ := hs
  rw [newerThan_append]

/-- An answer of the log is an old one, or was given since. -/
theorem mem_or_newer {old new : VideoLog} (hs : old <:+ new) {x : VideoEntry}
    (hx : x ∈ new) : x ∈ old ∨ x ∈ newerThan old new := by
  rw [eq_newerThan_append hs] at hx
  exact (List.mem_append.1 hx).symm

theorem newerThan_subset {old new new' : VideoLog} (hs : old <:+ new)
    (hs' : new <:+ new') : newerThan old new ⊆ newerThan old new' := by
  obtain ⟨newer, rfl⟩ := hs
  obtain ⟨newest, rfl⟩ := hs'
  rw [newerThan_append, ← List.append_assoc, newerThan_append]
  exact List.subset_append_right newest newer

/-- No part, no change to the parts. -/
theorem uploadedParts_eq {old new : VideoLog} (hs : old <:+ new) {id : Nat}
    (hparts : ∀ x ∈ newerThan old new, x.op.uploadedPart id x.res = none) :
    uploadedParts new id = uploadedParts old id := by
  have hnone : uploadedParts (newerThan old new) id = [] :=
    List.filterMap_eq_nil_iff.2 hparts
  rw [eq_newerThan_append hs, uploadedParts, List.filterMap_append]
  exact congrArg (· ++ uploadedParts old id) hnone

/-- As long as the thread itself has not completed the upload, it is open and
holds what it held. -/
theorem open_between {t : Nat} {r : Video} {id : Nat}
    (hc : Reachable (videoSystem cfg) P {} c)
    (hdraft : OpenDraft c.state r id) (hr : Inserted c.log r)
    (hcb : Steps (videoSystem cfg) P c b)
    (hbc : Steps (videoSystem cfg) P b c')
    (hquiet : Undisturbed cfg.uuid c c' t r id)
    (hown : ∀ x ∈ own t b.log, x.op.completedUpload x.res ≠ some id) :
    ∃ u, b.state.uploads id = some u ∧ u.key = r.storage_key ∧
      u.completed = false ∧ u.parts = uploadedParts c.log id := by
  have hb : Reachable (videoSystem cfg) P {} b := hc.steps hcb
  have hrb : Inserted b.log r := hr.mono hcb.log_suffix
  obtain ⟨u, hu, hkey⟩ := upload_of_inserted hb hrb hdraft.upload
  have hsession := (sessions_of_reachable hb).sessions id
  rw [hu] at hsession
  refine ⟨u, hu, hkey, ?_, ?_⟩
  · rw [← Bool.not_eq_true, hsession.2]
    rintro ⟨x, hx, hdone⟩
    rcases mem_or_newer hcb.log_suffix hx with hold | hnew
    · obtain ⟨u₀, hu₀, hopen⟩ := hdraft.session
      have hbefore := (sessions_of_reachable hc).sessions id
      rw [hu₀] at hbefore
      rw [hbefore.2.2 ⟨x, hold, hdone⟩] at hopen
      exact nomatch hopen
    · have htid := hquiet.completions x
        (newerThan_subset hcb.log_suffix hbc.log_suffix hnew)
        (owner_of_completed hb hx hdone hrb hdraft.upload)
      exact hown x (mem_own.2 ⟨hx, htid⟩) hdone
  · rw [hsession.1]
    exact uploadedParts_eq hcb.log_suffix fun x hx => hquiet.parts x
      (newerThan_subset hcb.log_suffix hbc.log_suffix hx)

/-- An uploaded object stays. -/
theorem object_kept (h : Reachable (videoSystem cfg) P {} c)
    (hs : Steps (videoSystem cfg) P c c') {publicId : String} {size : Nat}
    (hobject : c.state.objects (storageKeyFor publicId) = some size) :
    c'.state.objects (storageKeyFor publicId) = some size := by
  induction hs with
  | refl => exact hobject
  | @tail b b' hb hstep ih =>
      have hreach : Reachable (videoSystem cfg) P {} b' :=
        h.steps (hb.tail hstep)
      cases hstep with
      | spawn request amb _ => exact ih
      | @perform t request op k amb fault hthread hguard hfault =>
          have hlaw : Authorized b.log op :=
            (provenance_of_reachable hreach).2.newest rfl
          exact objects_answer (provenance_of_reachable (h.steps hb)).1 hlaw amb
            fault ih

/-! ## The reply -/

/-- A completion call for the draft `r`, served between `c` and `c'`, with the
storage judging its report by `rule`. -/
structure Attempt (cfg : VideoConfig) (P : VideoPolicy) (rule : CompletionRule)
    (c c' : VideoRun) (r : Video) (id : Nat) : Prop where
  reachable : Reachable (videoSystem cfg) P {} c
  steps : Steps (videoSystem cfg) P c c'
  draft : OpenDraft c.state r id
  quiet : Undisturbed cfg.uuid c c' c.threads.length r id
  ruled : ∀ x ∈ own c.threads.length c'.log, x.amb.completion = rule

namespace Attempt

variable {rule : CompletionRule} {r : Video} {id : Nat}

theorem inserted (h : Attempt cfg P rule c c' r id) : Inserted c.log r :=
  h.draft.inserted h.reachable fun x hx =>
    h.quiet.young x (h.steps.log_suffix.subset hx)

/-- The lookup finds the draft. -/
theorem found (h : Attempt cfg P rule c c' r id) {find : VideoEntry}
    (hmine : [find] <:+ own c.threads.length c'.log)
    (hlookup : find.op = .findVideoByPublicId r.public_id) :
    find.op.foundRow find.res = some r := by
  obtain ⟨b, fault, k, hcb, hown, hat, hbc⟩ :=
    h.steps.split_own h.reachable.own_arriving hmine
  have hb : Reachable (videoSystem cfg) P {} b := h.reachable.steps hcb
  have hbc' : Steps (videoSystem cfg) P b c' := .head hat.step hbc
  obtain ⟨u, hu, _, hopen, _⟩ := open_between h.reachable h.draft h.inserted hcb
    hbc' h.quiet (by
      rw [hown]
      exact fun _ hx => nomatch hx)
  have hrow := row_of_open hb (h.inserted.mono hcb.log_suffix) hu hopen
    h.draft.upload fun x hx => h.quiet.young x (hbc'.log_suffix.subset hx)
  have hmem : r ∈ b.state.videos := Store.row?_mem hrow
  have hres := h.quiet.answered find (hmine.subset (.head _))
  rw [foundRow_of_exec hlookup hres, hat.before_eq]
  apply find?_of_unique (p := (·.public_id == r.public_id)) hmem
    (beq_self_eq_true _)
  intro r' hr' hid
  exact uniquePublicIds_of_reachable hb r' hr' r hmem (eq_of_beq hid)

/-- Storage assembles the object when it lets the report through. -/
theorem assembled (h : Attempt cfg P rule c c' r id) {dto : CompleteUploadDto}
    {find assemble : VideoEntry}
    (hmine : [assemble, find] <:+ own c.threads.length c'.log)
    (hsubmitted : Submitted r.public_id dto r find assemble) :
    assemble.res.isOk =
        rule.accepts (uploadedParts c.log id) (inOrder dto.parts) ∧
    (assemble.res.isOk = true → assemble.after.objects r.storage_key =
      some (reportedSize (uploadedParts c.log id) dto.parts)) := by
  obtain ⟨b, fault, k, hcb, hown, hat, hbc⟩ :=
    h.steps.split_own h.reachable.own_arriving hmine
  have hbc' : Steps (videoSystem cfg) P b c' := .head hat.step hbc
  obtain ⟨u, hu, hkey, hopen, hparts⟩ := open_between h.reachable h.draft
    h.inserted hcb hbc' h.quiet (by
      rw [hown]
      intro x hx hdone
      rw [List.mem_singleton.1 hx] at hdone
      obtain ⟨key, parts, hop⟩ := VideoOp.of_completedUpload hdone
      exact nomatch hsubmitted.lookup.symm.trans hop)
  have hres := h.quiet.answered assemble (hmine.subset (.head _))
  have hrule := h.ruled assemble (hmine.subset (.head _))
  obtain ⟨id', hid', hop⟩ := hsubmitted.assembly
  rw [h.draft.upload] at hid'
  cases hid'
  have hcompletable : ∀ {u' size}, b.state.completable rule r.storage_key id
      (inOrder dto.parts) = some (u', size) ↔ u' = u ∧
        rule.accepts (uploadedParts c.log id) (inOrder dto.parts) = true ∧
        size = reportedSize (uploadedParts c.log id) dto.parts := by
    intro u' size
    rw [← hparts]
    exact completable_iff hu hkey hopen
  have hok : assemble.res.isOk = (b.state.completable rule r.storage_key id
      (inOrder dto.parts)).isSome := by
    rw [hres, isOk_assemble hop, hrule, hat.before_eq]
  constructor
  · rw [hok, Bool.eq_iff_iff, Option.isSome_iff_exists]
    constructor
    · rintro ⟨⟨u', size⟩, hsome⟩
      exact (hcompletable.1 hsome).2.1
    · exact fun haccepted => ⟨(u, _), hcompletable.2 ⟨rfl, haccepted, rfl⟩⟩
  · intro hassembled
    have hgoes := hassembled
    rw [hok, Option.isSome_iff_exists] at hgoes
    obtain ⟨⟨u', size⟩, hsome⟩ := hgoes
    obtain ⟨rfl, _, rfl⟩ := hcompletable.1 hsome
    rw [← hat.before_eq, ← hrule] at hsome
    have hmem : assemble ∈ c'.log := (mem_own.1 (hmine.subset (.head _))).1
    have hc' : Reachable (videoSystem cfg) P {} c' := h.reachable.steps h.steps
    exact objects_of_assembled hop (hc'.entry_exec_of_ok hmem hassembled).2 hsome

/-- From then on the object is there. -/
theorem stored (h : Attempt cfg P rule c c' r id) {dto : CompleteUploadDto}
    {find assemble : VideoEntry} (hcb : Steps (videoSystem cfg) P c b)
    (hbc : Steps (videoSystem cfg) P b c')
    (hmine : [assemble, find] <:+ own c.threads.length b.log)
    (hsubmitted : Submitted r.public_id dto r find assemble)
    (hok : assemble.res.isOk = true) :
    b.state.objects r.storage_key =
      some (reportedSize (uploadedParts c.log id) dto.parts) := by
  have hmine' : [assemble, find] <:+ own c.threads.length c'.log :=
    hmine.trans (hbc.log_suffix.filter _)
  have hobject := (h.assembled hmine' hsubmitted).2 hok
  obtain ⟨d, fault, k, hcd, _, hat, hdb⟩ :=
    hcb.split_own h.reachable.own_arriving hmine
  rw [← hat.state_eq] at hobject
  obtain ⟨publicId, hkey⟩ :=
    (provenance_of_reachable h.reachable).1.original r h.inserted
  rw [hkey] at hobject ⊢
  exact object_kept ((h.reachable.steps hcd).steps (.single hat.step)) hdb hobject

/-- And the HEAD request shows it. -/
theorem shown (h : Attempt cfg P rule c c' r id) {dto : CompleteUploadDto}
    {find assemble head : VideoEntry}
    (hmine : [head, assemble, find] <:+ own c.threads.length c'.log)
    (hsubmitted : Submitted r.public_id dto r find assemble)
    (hok : assemble.res.isOk = true)
    (hhead : head.op = .headObject r.storage_key) :
    head.op.seenObject head.res = some (r.storage_key,
      reportedSize (uploadedParts c.log id) dto.parts) := by
  obtain ⟨b, fault, k, hcb, hown, hat, hbc⟩ :=
    h.steps.split_own h.reachable.own_arriving hmine
  have hobject := h.stored hcb (.head hat.step hbc) 
    (hown.symm ▸ List.suffix_refl _) hsubmitted hok
  have hres := h.quiet.answered head (hmine.subset (.head _))
  rw [seenObject_of_exec hhead hres, hat.before_eq, hobject]
  rfl

/-- The call works on the draft. -/
theorem submitted (h : Attempt cfg P rule c c' r id) {dto : CompleteUploadDto}
    {v : Video} {find assemble : VideoEntry}
    (hmine : [assemble, find] <:+ own c.threads.length c'.log)
    (hsubmitted : Submitted r.public_id dto v find assemble) : v = r := by
  have hfirst : [find] <:+ own c.threads.length c'.log :=
    (List.suffix_cons assemble [find]).trans hmine
  have hfound := h.found hfirst hsubmitted.lookup
  exact Option.some.inj (hsubmitted.found.symm.trans hfound)

/-- The reply of the call, whatever its answers were. -/
theorem reply (h : Attempt cfg P rule c c' r id) {dto : CompleteUploadDto}
    {result : Except VideoError CompleteUploadResult}
    (hanswers : CompletionAnswers r.owner_id r.public_id dto result
      (own c.threads.length c'.log)) :
    result = verdict rule (uploadedParts c.log id) r dto.parts ∧
      (rule.accepts (uploadedParts c.log id) (inOrder dto.parts) = true →
        c'.state.objects r.storage_key =
          some (reportedSize (uploadedParts c.log id) dto.parts)) := by
  have hanswered := h.quiet.answered
  generalize hmine : own c.threads.length c'.log = mine at hanswers hanswered
  cases hanswers with
  | @turnedAway find result hlookup hnone =>
      have hfound := h.found (hmine ▸ List.suffix_refl _) hlookup
      refine absurd ⟨rfl, status_of_inserted h.reachable h.inserted, ?_⟩
        (hnone r hfound)
      rw [h.draft.upload]
      rfl
  | @refused find assemble v hsubmitted hres =>
      have hsuffix : [assemble, find] <:+ own c.threads.length c'.log :=
        hmine ▸ List.suffix_refl _
      obtain rfl := h.submitted hsuffix hsubmitted
      have hnot : ¬ rule.accepts (uploadedParts c.log id)
          (inOrder dto.parts) = true := by
        rw [← (h.assembled hsuffix hsubmitted).1, hres]
        exact Bool.false_ne_true
      exact ⟨(if_neg hnot).symm, fun haccepted => absurd haccepted hnot⟩
  | @unseen find assemble head v e hsubmitted hres hhead hseen =>
      have hsuffix : [head, assemble, find] <:+
        own c.threads.length c'.log := hmine ▸ List.suffix_refl _
      obtain rfl := h.submitted
        ((List.suffix_cons _ _).trans hsuffix) hsubmitted
      rw [h.shown hsuffix hsubmitted hres hhead] at hseen
      exact nomatch hseen
  | @mismatched find assemble head v size hsubmitted hres hseen hsize =>
      have hsuffix : [head, assemble, find] <:+
        own c.threads.length c'.log := hmine ▸ List.suffix_refl _
      have hpair := (List.suffix_cons _ _).trans hsuffix
      obtain rfl := h.submitted hpair hsubmitted
      have haccepted := (h.assembled hpair hsubmitted).1.symm.trans hres
      rw [h.shown hsuffix hsubmitted hres
        (VideoOp.headObject_of_seen hseen)] at hseen
      cases hseen
      refine ⟨?_, fun _ => h.stored h.steps .refl hpair hsubmitted hres⟩
      rw [verdict, if_pos haccepted, if_neg hsize]
  | @finalized find assemble head v result rest hsubmitted hres hseen hrest
      hr =>
      have hsuffix : [head, assemble, find] <:+
        own c.threads.length c'.log := hmine ▸ List.suffix_append _ _
      have hpair := (List.suffix_cons _ _).trans hsuffix
      obtain rfl := h.submitted hpair hsubmitted
      have haccepted := (h.assembled hpair hsubmitted).1.symm.trans hres
      rw [h.shown hsuffix hsubmitted hres
        (VideoOp.headObject_of_seen hseen)] at hseen
      have hsize := congrArg Prod.snd (Option.some.inj hseen)
      refine ⟨?_, fun _ => h.stored h.steps .refl hpair hsubmitted hres⟩
      rw [verdict, if_pos haccepted, if_pos hsize]
      rcases hr with hok | ⟨x, hx, hfailed⟩
      · exact hok
      · rw [hanswered x (List.mem_append_left _ hx),
          isOk_of_handsIn (hrest x hx)] at hfailed
        exact nomatch hfailed

end Attempt

/--
**What becomes of a completion call.**  In any run of all requests, with any
calls of the others failing: a completion call that arrives while the upload
of a draft of its caller is open, and has the draft to itself, is answered by
`verdict` — completed when the storage lets the report through and the sizes
of the parts it names add up to the declared one, a size mismatch when only
they do not, and a missing object otherwise.  A report that is let through
names each part once, and only parts that were uploaded, and leaves the object
with the size of their last uploads, whatever the verdict.
-/
theorem completion_verdict {rule : CompletionRule} {r : Video} {id : Nat}
    {text : String} {dto : CompleteUploadDto}
    {reply : Except VideoError VideoReply}
    (h : Attempt cfg P rule c c' r id)
    (huuid : cfg.uuid text = some r.public_id)
    (hreply : c'.threads[c.threads.length]? =
      some ⟨.completeUpload r.owner_id text dto, Prog.ofExcept reply⟩) :
    reply =
        (verdict rule (uploadedParts c.log id) r dto.parts).map .completed ∧
      (rule.accepts (uploadedParts c.log id) (inOrder dto.parts) = true →
        Faithful (uploadedParts c.log id) dto.parts ∧
        c'.state.objects r.storage_key =
          some (reportedSize (uploadedParts c.log id) dto.parts)) := by
  have hc' : Reachable (videoSystem cfg) P {} c' := h.reachable.steps h.steps
  have hends : EndsAs cfg.uuid (.completeUpload r.owner_id text dto) reply
      (own c.threads.length c'.log) :=
    hc'.follows_result (serve_answers cfg P) hreply
  obtain ⟨result, rfl, hanswers⟩ := hends r.public_id huuid
  obtain ⟨hresult, hobject⟩ := h.reply hanswers
  refine ⟨congrArg (Except.map VideoReply.completed) hresult, ?_⟩
  exact fun haccepted => ⟨faithful_of_accepted haccepted, hobject haccepted⟩

end Runs

/-- A draft of 5 MiB and three bytes. -/
def largeDraft : CreateVideoDto :=
  { sampleDraft with
    size_bytes := 5242883
    size_range := by decide }

/-- Two parts, the first one uploaded a second time. -/
def twoParts : VideoRun :=
  ((videoSystem {}).schedule nothingElseFails (Config.start {})
    (Tick.serve (.createDraft 1 largeDraft) 0 3 { publicId := "v" } ++
      Tick.serve (.createDraft 2 largeDraft) 1 3 { publicId := "w" } ++
      Tick.serve (.uploadPart 0 ⟨1, "old", 9⟩) 2 1 { now := 1 } ++
      Tick.serve (.uploadPart 0 ⟨2, "b", 3⟩) 3 1 { now := 1 } ++
      Tick.serve (.uploadPart 0 ⟨1, "a", 5242880⟩) 4 1 { now := 2 })).get
    (by decide)

/-- The report names the second part first. -/
def twoPartReport : CompleteUploadDto where
  parts := [⟨2, "b"⟩, ⟨1, "a"⟩]
  parts_ne := List.cons_ne_nil _ _
  part_ok := by decide

/-- Both owners complete, and a sweep comes by. -/
def twoCompletions : VideoRun :=
  ((videoSystem {}).schedule nothingElseFails twoParts
    ([.spawn (.completeUpload 1 "v" twoPartReport) { now := 3 },
      .spawn (.completeUpload 2 "v" twoPartReport) { now := 3 },
      .spawn .sweep { now := 3600000 }] ++
      Tick.answers 5 1 { now := 3 } ++ Tick.answers 6 1 { now := 3 } ++
      Tick.answers 5 1 { now := 4 } ++ Tick.answers 7 1 { now := 4 } ++
      Tick.answers 5 3 { now := 5 })).get (by decide)

/-- The first owner's draft. -/
def twoPartDraft : Video := twoParts.state.videos.head (by decide)

theorem ruled_twoCompletions :
    ∀ x ∈ own twoParts.threads.length twoCompletions.log,
      x.amb.completion = s3Rule := by
  have hrules : (own twoParts.threads.length twoCompletions.log).map
      (fun x => x.amb.completion) = List.replicate 5 s3Rule := rfl
  intro x hx
  apply List.eq_of_mem_replicate (n := 5)
  rw [← hrules]
  exact List.mem_map_of_mem hx

theorem attempt_twoCompletions :
    Attempt {} nothingElseFails s3Rule twoParts twoCompletions twoPartDraft
      0 := by
  have hreach : Reachable (videoSystem {}) nothingElseFails {} twoParts :=
    Reachable.of_schedule _ (by decide)
      (System.admitted_of_forall _ (fun _ _ _ _ => trivial) _)
  have hsteps : Steps (videoSystem {}) nothingElseFails twoParts
      twoCompletions :=
    Steps.of_schedule _ (Option.some_get _).symm
      (System.admitted_of_forall _ (fun _ _ _ _ => trivial) _)
  refine ⟨hreach, hsteps, ⟨List.head_mem _, by decide, ?_⟩, ?_,
    ruled_twoCompletions⟩
  · exact ⟨_, rfl, by decide⟩
  · refine ⟨by decide, by decide, by decide, ?_⟩
    intro x hx
    exact ((hreach.steps hsteps).entry_exec (fun _ _ => rfl)
      (mem_own.1 hx).1).1

theorem reply_twoCompletions :
    twoCompletions.threads[twoParts.threads.length]? =
      some ⟨.completeUpload twoPartDraft.owner_id "v" twoPartReport,
        Prog.ofExcept (.ok (.completed ⟨"v", .processing⟩))⟩ :=
  rfl

/-- The last part uploaded under each number counts, in any order. -/
theorem completion_verdict_twoCompletions :
    uploadedParts twoParts.log 0 =
      [⟨1, "a", 5242880⟩, ⟨2, "b", 3⟩, ⟨1, "old", 9⟩] ∧
    .ok (.completed ⟨"v", .processing⟩) =
      (verdict s3Rule (uploadedParts twoParts.log 0) twoPartDraft
        twoPartReport.parts).map VideoReply.completed ∧
    Faithful (uploadedParts twoParts.log 0) twoPartReport.parts ∧
    twoCompletions.state.objects "videos/v/original" = some 5242883 := by
  obtain ⟨hreply, hobject⟩ :=
    completion_verdict attempt_twoCompletions rfl reply_twoCompletions
  obtain ⟨hfaithful, hsize⟩ := hobject (by decide)
  exact ⟨by decide, hreply, hfaithful, hsize⟩

end Videum.Videos
