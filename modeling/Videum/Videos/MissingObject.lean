import Videum.Videos.SizeIntegrity
import Videum.Videos.Traces

/-!
# `UPLOAD_OBJECT_MISSING`

`completeUpload` reports every failure to assemble the object as a missing
object.  A multipart upload is assembled once: after a call that has assembled
the object and failed later, assembling it again fails, and the next call
reports the object missing while the storage holds it.

## Main results

* `refused_of_stored` — an object that is there is never assembled again.
* `objectMissing_sound_iff` — when the exception tells the truth.
* `objectMissing_unsound` — two calls in turn, the second of which does not.
-/

namespace Videum.Videos

open Videum.Async
open Videum.Common

/-! ## Assembling an object -/

/-- The key of the object a call assembles. -/
def VideoOp.assembledKey : VideoOp → Option String
  | .completeMultipartUpload key _ _ => some key
  | _ => none

theorem VideoOp.eq_of_assembledKey {op : VideoOp} {key : String}
    (h : op.assembledKey = some key) :
    ∃ id parts, op = .completeMultipartUpload key id parts := by
  cases op with
  | completeMultipartUpload key' id parts =>
      cases h
      exact ⟨id, parts, rfl⟩
  | _ => exact nomatch h

theorem isOk_assemble {m : Moment} {op : VideoOp} {s : Store} {key : String}
    {id : Nat} {parts : List CompletedPart}
    (hop : op = .completeMultipartUpload key id parts) :
    (Store.exec m op s).1.isOk =
      (s.completable m.completion key id parts).isSome := by
  subst hop
  simp only [Store.exec, Store.completeMultipartUpload]
  cases s.completable m.completion key id parts <;> rfl

/-- An assembly that has failed has no effect. -/
theorem answer_of_refused {cfg : VideoConfig} {m : Moment} {op : VideoOp}
    {fault : Option VideoError} {s : Store} {key : String}
    (hkey : op.assembledKey = some key)
    (hres : ((videoSystem cfg).answer m op fault s).1.isOk = false) :
    ((videoSystem cfg).answer m op fault s).2 = s := by
  obtain ⟨id, parts, rfl⟩ := VideoOp.eq_of_assembledKey hkey
  cases fault with
  | some e => rfl
  | none =>
      have hexec : (Store.exec m (.completeMultipartUpload key id parts)
          s).1.isOk = false := hres
      show (s.completeMultipartUpload m.completion key id parts).2 = s
      rw [isOk_assemble rfl, Option.isSome_eq_false_iff,
        Option.isNone_iff_eq_none] at hexec
      rw [Store.completeMultipartUpload, hexec]

/-- A HEAD request that finds nothing is right, and leaves everything. -/
theorem answer_of_missedKey {cfg : VideoConfig} {m : Moment} {op : VideoOp}
    {fault : Option VideoError} {s : Store} {key : String}
    (hmissed : op.missedKey ((videoSystem cfg).answer m op fault s).1 =
      some key) :
    ((videoSystem cfg).answer m op fault s).2.objects key = none := by
  cases fault with
  | some e => cases op <;> exact nomatch hmissed
  | none =>
      cases op with
      | headObject key' =>
          show s.objects key = none
          have hmissed' : VideoOp.missedKey (.headObject key')
            (.ok (s.objects key')) = some key := hmissed
          cases hobject : s.objects key' with
          | some size =>
              rw [hobject] at hmissed'
              exact nomatch hmissed'
          | none =>
              rw [hobject] at hmissed'
              cases hmissed'
              exact hobject
      | _ => exact nomatch hmissed

/-- The object is not there yet when the call to assemble it is answered. -/
def AssemblesAnew (x : VideoEntry) : Prop :=
  ∀ key ∈ x.op.assembledKey, x.before.objects key = none

instance (x : VideoEntry) : Decidable (AssemblesAnew x) :=
  inferInstanceAs (Decidable (∀ key ∈ x.op.assembledKey, _))

section Runs

variable {cfg : VideoConfig} {P : VideoPolicy} {c : VideoRun}

/-- An object that is there is never assembled again. -/
theorem refused_of_stored (h : Reachable (videoSystem cfg) P {} c)
    {x : VideoEntry} (hx : x ∈ c.log) {key : String}
    (hkey : x.op.assembledKey = some key) {size : Nat}
    (hobject : x.before.objects key = some size) : x.res.isOk = false := by
  obtain ⟨older, hsuffix⟩ := older_of_mem hx
  obtain ⟨b, fault, k, hb, hlog, hat, _⟩ := h.split_at hsuffix
  have hlaw : Authorized older x.op :=
    (provenance_of_reachable h).2 x older hsuffix
  have hprov := (provenance_of_reachable hb).1
  rw [hlog] at hprov
  rw [hat.before_eq] at hobject
  obtain ⟨id, parts, hop⟩ := VideoOp.eq_of_assembledKey hkey
  rw [hop] at hlaw
  have hnone := hprov.not_completable x.amb.completion hlaw hobject
  cases hok : x.res.isOk with
  | false => rfl
  | true =>
      have hassembled : (Store.exec x.amb x.op x.before).1.isOk = true := by
        rw [(h.entry_exec_of_ok hx hok).1] at hok
        exact hok
      rw [isOk_assemble hop, hat.before_eq, hnone] at hassembled
      exact nomatch hassembled

theorem after_of_refused (h : Reachable (videoSystem cfg) P {} c)
    {x : VideoEntry} (hx : x ∈ c.log) {key : String}
    (hkey : x.op.assembledKey = some key) (hres : x.res.isOk = false) :
    x.after = x.before := by
  obtain ⟨b, fault, k, _, _, _, _, heq, _⟩ := h.entry_config hx
  rw [heq] at hres ⊢
  exact answer_of_refused hkey hres

theorem objects_of_missedKey (h : Reachable (videoSystem cfg) P {} c)
    {x : VideoEntry} (hx : x ∈ c.log) {key : String}
    (hmissed : x.op.missedKey x.res = some key) :
    x.after.objects key = none := by
  obtain ⟨b, fault, k, _, _, _, _, heq, _⟩ := h.entry_config hx
  rw [heq] at hmissed ⊢
  exact answer_of_missedKey hmissed

/-- What a call has assembled was not there before. -/
theorem absent_of_assembled (h : Reachable (videoSystem cfg) P {} c)
    {x : VideoEntry} (hx : x ∈ c.log) {key : String}
    (hkey : x.op.assembledKey = some key) (hres : x.res.isOk = true) :
    x.before.objects key = none := by
  cases hobject : x.before.objects key with
  | none => rfl
  | some size =>
      have hrefused := refused_of_stored h hx hkey hobject
      exact nomatch hres.symm.trans hrefused

/-! ## The trace of a completion call -/

/-- What a completion call has done, and how it has ended. -/
inductive CompletionTrace {α : Type} : Except VideoError α → VideoLog → Prop
  | unsent {r mine} (hr : r ≠ .error (.domain .UploadObjectMissing))
      (hmine : ∀ x ∈ mine, x.op.assembledKey = none) : CompletionTrace r mine
  | refused {video : Video} {x y : VideoEntry}
      (hfound : y.op.foundRow y.res = some video)
      (hkey : x.op.assembledKey = some video.storage_key)
      (hres : x.res.isOk = false) :
      CompletionTrace (.error (.domain .UploadObjectMissing)) [x, y]
  | missed {video : Video} {x y z : VideoEntry}
      (hfound : y.op.foundRow y.res = some video)
      (hkey : x.op.assembledKey = some video.storage_key)
      (hres : x.res.isOk = true)
      (hmissed : z.op.missedKey z.res = some video.storage_key) :
      CompletionTrace (.error (.domain .UploadObjectMissing)) [z, x, y]
  | assembled {r} {video : Video} {x y : VideoEntry} (newer : VideoLog)
      (hfound : y.op.foundRow y.res = some video)
      (hkey : x.op.assembledKey = some video.storage_key)
      (hres : x.res.isOk = true)
      (hnewer : ∀ z ∈ newer, z.op.assembledKey = none)
      (hr : r ≠ .error (.domain .UploadObjectMissing)) :
      CompletionTrace r (newer ++ [x, y])

/-- The stores fail with errors of their own. -/
theorem exec_ne_domain {m : Moment} {op : VideoOp} {s : Store}
    {e : VideoError} (h : (Store.exec m op s).1 = .error e)
    (d : DomainException) : e ≠ .domain d := by
  cases op with
  | insertVideo v =>
      simp only [Store.exec, Store.insertVideo] at h
      split at h
      · cases h
      · cases h
        rintro ⟨⟩
  | uploadPart id part =>
      simp only [Store.exec, Store.uploadPart] at h
      split at h
      · split at h
        · cases h
          rintro ⟨⟩
        · cases h
      · cases h
        rintro ⟨⟩
  | completeMultipartUpload key id parts =>
      simp only [Store.exec, Store.completeMultipartUpload] at h
      split at h
      · cases h
      · cases h
        rintro ⟨⟩
  | updateVideo id patch =>
      rcases Store.exec_updateVideo_cases m id patch s with hexec | hexec
      · rw [hexec] at h
        cases h
      · rw [hexec] at h
        cases h
        rintro ⟨⟩
  | getSignedUrl key id n expiresIn =>
      simp only [Store.exec] at h
      split at h
      · cases h
      · cases h
        rintro ⟨⟩
  | downloadToFile key =>
      simp only [Store.exec] at h
      split at h
      · cases h
      · cases h
        rintro ⟨⟩
  | _ => cases h

/-- So do the calls that are made to fail. -/
def StoresOnly (P : VideoPolicy) : Prop :=
  ∀ op e, P.fault op e = true → ∀ d, e ≠ .domain d

section Traces

variable {t : Nat} {request : VideoRequest} {m₀ : Moment}

theorem finalizeUpload_assembles (video : Video) :
    (finalizeUpload video).Issues fun op : VideoOp => op.assembledKey = none :=
  .bind (.call rfl) fun _ => .bind (.call rfl) fun _ => trivial

theorem ne_of_answer (hP : StoresOnly P) {m : Moment} {op : VideoOp}
    {fault : Option VideoError} {s : Store} {e : VideoError}
    (hfault : fault.all (P.fault op) = true)
    (hanswer : ((videoSystem cfg).answer m op fault s).1 = .error e)
    (d : DomainException) : e ≠ .domain d := by
  cases fault with
  | some e' =>
      cases hanswer
      exact hP op e (by simpa using hfault) d
  | none => exact exec_ne_domain hanswer d

/-- The calls after the assembly. -/
theorem finalizeUpload_trace (hP : StoresOnly P) {video : Video}
    {mine : VideoLog} :
    follows (videoSystem cfg) P (fun _ _ => True) t request
      (fun r mine' => r ≠ .error (.domain .UploadObjectMissing) ∧
        ∃ newer : VideoLog, mine' = newer ++ mine ∧
          ∀ z ∈ newer, z.op.assembledKey = none)
      (finalizeUpload video) m₀ mine := by
  apply follows_newer (finalizeUpload_assembles video)
  apply follows_call trivial
  · intro m fault s e hfault hanswer heq
    exact ne_of_answer hP hfault hanswer _ (Except.error.inj heq)
  · intro m s _ _ _
    apply follows_call trivial
    · intro m fault s e hfault hanswer heq
      exact ne_of_answer hP hfault hanswer _ (Except.error.inj heq)
    · exact fun _ _ _ _ _ => nofun

/-- The assembly, with its failures reported as a missing object. -/
theorem assembly_trace {video : Video} {uploadId : Nat}
    {parts : List CompletedPart} {mine : VideoLog} :
    follows (videoSystem cfg) P (fun _ _ => True) t request
      (fun r mine' => ∃ x : VideoEntry, mine' = x :: mine ∧
        x.op.assembledKey = some video.storage_key ∧
        match r with
        | .ok _ => x.res.isOk = true
        | .error e => e = .domain .UploadObjectMissing ∧ x.res.isOk = false)
      (Prog.tryCatch (completeMultipartUpload video.storage_key uploadId parts)
        fun _ => Prog.throw (.domain .UploadObjectMissing)) m₀ mine := by
  apply follows_tryCatch
  refine follows_await (.completeMultipartUpload video.storage_key uploadId _)
    trivial ?_ ?_
  · intro m fault s e hanswer _
    exact ⟨_, rfl, rfl, rfl, congrArg Except.isOk hanswer⟩
  · intro m s _ hexec
    exact ⟨_, rfl, rfl, congrArg Except.isOk hexec⟩

theorem assembleUpload_trace (hP : StoresOnly P) {video : Video}
    {uploadId : Nat} (dto : CompleteUploadDto) {y : VideoEntry}
    (hfound : y.op.foundRow y.res = some video) :
    follows (videoSystem cfg) P (fun _ _ => True) t request CompletionTrace
      (assembleUpload video uploadId dto) m₀ [y] := by
  apply follows_bind
  apply follows_mono ?_ assembly_trace
  rintro r _ ⟨x, rfl, hkey, hr⟩
  cases r with
  | error e =>
      obtain ⟨rfl, hres⟩ := hr
      exact .refused hfound hkey hres
  | ok _ =>
      have hhead : ∀ {m : Moment} {fault : Option VideoError} {s : Store},
          ∀ z ∈ [(videoSystem cfg).entry t request m
            (.headObject video.storage_key) fault s],
            z.op.assembledKey = none := by
        intro m fault s z hz
        rw [List.mem_singleton.1 hz]
        rfl
      intro m₁
      apply follows_call trivial
      · intro m fault s e hfault hanswer
        refine .assembled [_] hfound hkey hr hhead ?_
        exact fun heq => ne_of_answer hP hfault hanswer _ (Except.error.inj heq)
      · intro m s head _ hexec
        have hexec' : s.objects video.storage_key = head := Except.ok.inj hexec
        cases head with
        | none =>
            refine .missed hfound hkey hr ?_
            show VideoOp.missedKey (.headObject video.storage_key)
              (.ok (s.objects video.storage_key)) = _
            rw [hexec']
            rfl
        | some size =>
            dsimp only
            split
            · exact .assembled [_] hfound hkey hr hhead nofun
            · apply follows_mono ?_ (finalizeUpload_trace hP)
              rintro r _ ⟨hr', newer, rfl, hnewer⟩
              rw [List.append_cons]
              refine .assembled (newer ++ [_]) hfound hkey hr ?_ hr'
              intro z hz
              rcases List.mem_append.1 hz with hz | hz
              · exact hnewer z hz
              · exact hhead z hz

theorem completeUpload_trace (hP : StoresOnly P) (ownerId : Nat)
    (publicId : String) (dto : CompleteUploadDto) :
    follows (videoSystem cfg) P (fun _ _ => True) t request CompletionTrace
      (completeUpload cfg.uuid ownerId publicId dto) m₀ [] := by
  unfold completeUpload findOneByPublicId
  cases cfg.uuid publicId with
  | none => exact .unsent nofun (List.forall_mem_nil _)
  | some id =>
      have hunsent : ∀ {m : Moment} {fault : Option VideoError} {s : Store},
          ∀ x ∈ [(videoSystem cfg).entry t request m (.findVideoByPublicId id)
            fault s], x.op.assembledKey = none := by
        intro m fault s x hx
        rw [List.mem_singleton.1 hx]
        rfl
      apply follows_call trivial
      · intro m fault s e hfault hanswer
        refine .unsent ?_ hunsent
        exact fun heq => ne_of_answer hP hfault hanswer _ (Except.error.inj heq)
      · intro m s video? _ hexec
        cases video? with
        | none => exact .unsent nofun hunsent
        | some video =>
            dsimp only
            split
            · exact .unsent nofun hunsent
            · split
              · exact .unsent nofun hunsent
              · cases video.upload_id with
                | none => exact .unsent nofun hunsent
                | some uploadId =>
                    apply assembleUpload_trace hP
                    have hexec' : (Store.exec m (.findVideoByPublicId id) s).1 =
                        .ok (some video) := hexec
                    show VideoOp.foundRow (.findVideoByPublicId id)
                      (Store.exec m (.findVideoByPublicId id) s).1 = _
                    rw [hexec']
                    rfl

/-- What holds of a completion holds of the reply built from it. -/
theorem CompletionTrace.map {α β : Type} {r : Except VideoError α}
    {mine : VideoLog} (h : CompletionTrace r mine) (g : α → β) :
    CompletionTrace (r.map g) mine := by
  have hmap : r ≠ .error (.domain .UploadObjectMissing) →
      r.map g ≠ .error (.domain .UploadObjectMissing) := by
    intro hr
    cases r with
    | ok a => exact nofun
    | error e => exact fun heq => hr (congrArg _ (Except.error.inj heq))
  cases h with
  | unsent hr hmine => exact .unsent (hmap hr) hmine
  | refused hfound hkey hres => exact .refused hfound hkey hres
  | missed hfound hkey hres hmissed =>
      exact .missed hfound hkey hres hmissed
  | assembled newer hfound hkey hres hnewer hr =>
      exact .assembled newer hfound hkey hres hnewer (hmap hr)

/-- What a thread has done when it has ended. -/
def Completed (request : VideoRequest) (r : Except VideoError VideoReply)
    (mine : VideoLog) : Prop :=
  match request with
  | .completeUpload _ _ _ => CompletionTrace r mine
  | _ => True

theorem serve_trace (hP : StoresOnly P) (t : Nat) (request : VideoRequest)
    (m₀ : Moment) :
    follows (videoSystem cfg) P (fun _ _ => True) t request (Completed request)
      (serve cfg request) m₀ [] := by
  cases request with
  | completeUpload ownerId publicId dto =>
      exact follows_map (completeUpload_trace hP ownerId publicId dto)
        (fun _ _ h => h.map VideoReply.completed)
        fun _ _ h => h.map VideoReply.completed
  | _ => exact follows_of_issues (serve_issues cfg _) fun _ _ _ => trivial

end Traces

/-! ## The exception -/

/-- An error of the application, as against one of the stores. -/
def VideoError.isDomain : VideoError → Bool
  | .domain _ => true
  | _ => false

/-- Any request at any time, and any call may fail with an error of the
stores. -/
def storesMayFail : VideoPolicy where
  accepts _ _ := True
  fault _ e := !e.isDomain

instance (c : VideoRun) (request : VideoRequest) :
    Decidable (storesMayFail.accepts c request) :=
  inferInstanceAs (Decidable True)

theorem storesOnly_storesMayFail : StoresOnly storesMayFail := by
  rintro op _ he d rfl
  exact nomatch he

/-- The exception tells the truth: when the last answer has come in, there is
no object under the key of the draft. -/
def MissingIsTrue {α : Type} (r : Except VideoError α) (mine : VideoLog) :
    Prop :=
  r = .error (.domain .UploadObjectMissing) →
    ∀ x ∈ mine.head?, ∀ y ∈ mine, ∀ video ∈ y.op.foundRow y.res,
      x.after.objects video.storage_key = none

theorem VideoOp.assembledKey_of_foundRow {op : VideoOp}
    {res : Except VideoError op.Res} {video : Video}
    (h : op.foundRow res = some video) : op.assembledKey = none := by
  cases op with
  | completeMultipartUpload key id parts => exact nomatch h
  | _ => rfl

theorem VideoOp.foundRow_of_missedKey {op : VideoOp}
    {res : Except VideoError op.Res} {key : String}
    (h : op.missedKey res = some key) : op.foundRow res = none := by
  cases op with
  | findVideoByPublicId publicId => exact nomatch h
  | _ => rfl

theorem VideoOp.assembledKey_of_missedKey {op : VideoOp}
    {res : Except VideoError op.Res} {key : String}
    (h : op.missedKey res = some key) : op.assembledKey = none := by
  cases op with
  | completeMultipartUpload key' id parts => exact nomatch h
  | _ => rfl

/-- A completion call has found one draft only. -/
theorem foundRow_pair {x y : VideoEntry} {key : String} {video : Video}
    (hkey : x.op.assembledKey = some key)
    (hfound : y.op.foundRow y.res = some video) :
    ∀ w ∈ [x, y], ∀ video' ∈ w.op.foundRow w.res, video' = video := by
  intro w hw video' hfound'
  rcases List.mem_cons.1 hw with rfl | hw
  · rw [VideoOp.assembledKey_of_foundRow hfound'] at hkey
    cases hkey
  · rw [List.mem_singleton.1 hw, hfound] at hfound'
    exact (Option.some.inj hfound').symm

/-- And it assembles one object only. -/
theorem assemblesAnew_pair {x y : VideoEntry} {key : String} {video : Video}
    (hkey : x.op.assembledKey = some key)
    (hfound : y.op.foundRow y.res = some video)
    (hnone : x.before.objects key = none) :
    ∀ w ∈ [x, y], AssemblesAnew w := by
  intro w hw key' hkey'
  rcases List.mem_cons.1 hw with rfl | hw
  · cases hkey.symm.trans hkey'
    exact hnone
  · rw [List.mem_singleton.1 hw, VideoOp.assembledKey_of_foundRow hfound]
      at hkey'
    exact nomatch hkey'

/--
**A missing object.**  In every run, whatever the order of the calls, whatever
was uploaded and whatever fails: a completion call that has ended reports the
object missing only when there is none, exactly when it has not tried to
assemble an object that was there.
-/
theorem objectMissing_sound_iff
    (h : Reachable (videoSystem cfg) storesMayFail {} c) {t : Nat} {ownerId : Nat}
    {publicId : String} {dto : CompleteUploadDto}
    {r : Except VideoError VideoReply}
    (hth : c.threads[t]? =
      some ⟨.completeUpload ownerId publicId dto, Prog.ofExcept r⟩) :
    MissingIsTrue r (own t c.log) ↔ ∀ x ∈ own t c.log, AssemblesAnew x := by
  have htrace := h.follows_result (serve_trace storesOnly_storesMayFail) hth
  have hmem : ∀ x ∈ own t c.log, x ∈ c.log := fun x hx => (mem_own.1 hx).1
  generalize own t c.log = mine at htrace hmem ⊢
  cases htrace with
  | unsent hr hmine =>
      refine ⟨fun _ x hx key hkey => ?_, fun _ heq => absurd heq hr⟩
      rw [hmine x hx] at hkey
      exact nomatch hkey
  | @refused video x y hfound hkey hres =>
      have hx : x ∈ [x, y] := .head _
      have hafter := after_of_refused h (hmem x hx) hkey hres
      constructor
      · intro htrue
        apply assemblesAnew_pair hkey hfound
        have hnone := htrue rfl x rfl y (.tail _ (.head _)) video hfound
        rw [hafter] at hnone
        exact hnone
      · intro hall _ x' hx' y' hy' video' hfound'
        cases hx'
        rw [foundRow_pair hkey hfound y' hy' video' hfound', hafter]
        exact hall x hx _ hkey
  | @missed video x y z hfound hkey hres hmissed =>
      have hx : x ∈ [z, x, y] := .tail _ (.head _)
      constructor
      · intro _ w hw
        rcases List.mem_cons.1 hw with rfl | hw
        · intro key' hkey'
          rw [VideoOp.assembledKey_of_missedKey hmissed] at hkey'
          exact nomatch hkey'
        · exact assemblesAnew_pair hkey hfound
            (absent_of_assembled h (hmem x hx) hkey hres) w hw
      · intro _ _ x' hx' y' hy' video' hfound'
        cases hx'
        rcases List.mem_cons.1 hy' with rfl | hy'
        · rw [VideoOp.foundRow_of_missedKey hmissed] at hfound'
          exact nomatch hfound'
        · rw [foundRow_pair hkey hfound y' hy' video' hfound']
          exact objects_of_missedKey h (hmem z (.head _)) hmissed
  | @assembled r video x y newer hfound hkey hres hnewer hr =>
      refine ⟨fun _ z hz => ?_, fun _ heq => absurd heq hr⟩
      have hx : x ∈ newer ++ [x, y] := List.mem_append_right _ (.head _)
      rcases List.mem_append.1 hz with hz | hz
      · intro key' hkey'
        rw [hnewer z hz] at hkey'
        exact nomatch hkey'
      · exact assemblesAnew_pair hkey hfound
            (absent_of_assembled h (hmem x hx) hkey hres) z hz

end Runs

/-! ## Two calls in turn -/

/-- Requests in turn; any call may fail with an error of the stores. -/
def callsInTurn : VideoPolicy where
  accepts c _ := c.idle = true
  fault _ e := !e.isDomain

instance (c : VideoRun) (request : VideoRequest) :
    Decidable (callsInTurn.accepts c request) :=
  inferInstanceAs (Decidable (c.idle = true))

/-- The first completion call assembles the object, and then its HEAD request
fails.  The owner calls again. -/
def retried : List (Tick Moment VideoError VideoRequest) :=
  Tick.serve (.createDraft 1 sampleDraft) 0 3 { publicId := "v" } ++
  Tick.serve (.uploadPart 0 ⟨1, "etag", 5⟩) 1 1 { now := 1 } ++
  Tick.serve (.completeUpload 1 "v" sampleCompletion) 2 2 { now := 2 } ++
  [.perform 2 { now := 2 } (some .storage)] ++
  Tick.serve (.completeUpload 1 "v" sampleCompletion) 3 2 { now := 3 }

def retriedRun : VideoRun := videoRun retried (by decide)

theorem objectMissing_sound_iff_of_retried :
    MissingIsTrue (.error (.domain .UploadObjectMissing) :
        Except VideoError VideoReply) (own 3 retriedRun.log) ↔
      ∀ x ∈ own 3 retriedRun.log, AssemblesAnew x := by
  have hreach : Reachable (videoSystem {}) storesMayFail {} retriedRun :=
    Reachable.of_schedule retried (by decide) (by decide)
  have hth : retriedRun.threads[3]? = some ⟨.completeUpload 1 "v"
      sampleCompletion, Prog.ofExcept (.error (.domain .UploadObjectMissing))⟩ :=
    rfl
  exact objectMissing_sound_iff hreach hth

/-- The second call reports the object missing, and it is there. -/
theorem objectMissing_unsound :
    ¬ ∀ (c : VideoRun) (t ownerId : Nat) (publicId : String)
      (dto : CompleteUploadDto) (r : Except VideoError VideoReply),
      Reachable (videoSystem {}) callsInTurn {} c →
      c.threads[t]? =
        some ⟨.completeUpload ownerId publicId dto, Prog.ofExcept r⟩ →
      MissingIsTrue r (own t c.log) := by
  intro h
  have hreach : Reachable (videoSystem {}) callsInTurn {} retriedRun :=
    Reachable.of_schedule retried (by decide) (by decide)
  have hnone : ∀ x ∈ (own 3 retriedRun.log).head?,
      ∀ y ∈ own 3 retriedRun.log, ∀ video ∈ y.op.foundRow y.res,
        x.after.objects video.storage_key = none :=
    h retriedRun 3 1 "v" sampleCompletion
      (.error (.domain .UploadObjectMissing)) hreach rfl rfl
  exact absurd hnone (by decide)

end Videum.Videos
