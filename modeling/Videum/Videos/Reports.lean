import Videum.Videos.Columns
import Videum.Videos.MissingObject

/-!
# Uploaded parts and reports of them

A client uploads parts under presigned URLs, as often as it likes and in any
order, and then reports which parts there are and with which ETags.  The
storage keeps the last part uploaded under each number.  Whether it assembles
the object from a report is up to its `CompletionRule`; the service sorts the
report before it passes it on, so its order does not matter, and a report that
is let through names each part once, and only parts that are there.

## Main results

* `completable_iff` — when storage assembles a report, and to which size.
* `sessions_of_reachable` — what an upload holds is what was uploaded to it,
  and it is completed when a call has completed it.
-/

namespace Videum.Videos

open Videum.Async

/-! ## Judging a report -/

/-- No part is reported twice, and each of them is there. -/
structure Faithful (uploaded : List StoredPart) (report : List CompletedPart) :
    Prop where
  nodup : (report.map CompletedPart.part_number).Nodup
  stored : ∀ p ∈ report, (partAt uploaded p.part_number).isSome = true

/-- The size of the parts reported. -/
def reportedSize (uploaded : List StoredPart) (report : List CompletedPart) :
    Nat :=
  (report.map fun p =>
    ((partAt uploaded p.part_number).map StoredPart.size).getD 0).sum

/-- The report as the service passes it on. -/
def inOrder (report : List CompletedPart) : List CompletedPart :=
  report.insertionSort fun a b => a.part_number ≤ b.part_number

section Reports

variable {uploaded : List StoredPart} {report report' : List CompletedPart}
  {rule : CompletionRule}

theorem reportedSize_of_perm (hperm : report.Perm report') :
    reportedSize uploaded report = reportedSize uploaded report' :=
  (hperm.map _).sum_eq

theorem inOrder_perm (report : List CompletedPart) :
    (inOrder report).Perm report :=
  List.perm_insertionSort _ report

theorem inOrder_pairwise (report : List CompletedPart) :
    (inOrder report).Pairwise fun a b => a.part_number ≤ b.part_number := by
  have : Std.Total fun a b : CompletedPart => a.part_number ≤ b.part_number :=
    ⟨fun a b => Nat.le_total a.part_number b.part_number⟩
  have : IsTrans CompletedPart fun a b => a.part_number ≤ b.part_number :=
    ⟨fun _ _ _ h h' => Nat.le_trans h h'⟩
  exact List.pairwise_insertionSort _ report

theorem ascending_iff {parts : List CompletedPart} :
    ascending parts = true ↔
      parts.Pairwise fun a b => a.part_number < b.part_number := by
  induction parts with
  | nil => exact iff_of_true rfl .nil
  | cons p rest ih =>
      cases rest with
      | nil => exact iff_of_true rfl (List.pairwise_singleton _ _)
      | cons q rest =>
          rw [ascending, Bool.and_eq_true, ih, decide_eq_true_iff,
            List.pairwise_cons (a := p)]
          apply and_congr_left
          intro hrest
          constructor
          · intro hlt x hx
            rcases List.mem_cons.1 hx with rfl | hx
            · exact hlt
            · exact Nat.lt_trans hlt ((List.pairwise_cons.1 hrest).1 x hx)
          · exact fun h => h q (.head _)

/-- Sorted, a report is ascending when it names no part twice. -/
theorem ascending_inOrder_iff :
    ascending (inOrder report) = true ↔
      (report.map CompletedPart.part_number).Nodup := by
  rw [ascending_iff, ← ((inOrder_perm report).map _).nodup_iff, List.Nodup,
    List.pairwise_map]
  constructor
  · exact fun h => h.imp fun hlt => Nat.ne_of_lt hlt
  · intro h
    exact (inOrder_pairwise report).imp₂
      (fun _ _ hle hne => Nat.lt_of_le_of_ne hle hne) h

/-- A report that is let through is faithful. -/
theorem faithful_of_accepted
    (h : rule.accepts uploaded (inOrder report) = true) :
    Faithful uploaded report where
  nodup := ascending_inOrder_iff.1 (rule.ascending uploaded _ h)
  stored p hp :=
    rule.stored uploaded _ h p ((inOrder_perm report).mem_iff.2 hp)

/-- The parts that are there make up an object. -/
theorem assemble_of_stored {u : MultipartUpload}
    (h : ∀ p ∈ report, (partAt u.parts p.part_number).isSome = true) :
    u.assemble report = some (reportedSize u.parts report) := by
  induction report with
  | nil => rfl
  | cons p rest ih =>
      obtain ⟨hp, hrest⟩ := List.forall_mem_cons.1 h
      obtain ⟨part, hpart⟩ := Option.isSome_iff_exists.1 hp
      have hsize : reportedSize u.parts (p :: rest) =
          part.size + reportedSize u.parts rest := by
        simp only [reportedSize, List.map_cons, List.sum_cons, hpart,
          Option.map_some, Option.getD_some]
      rw [MultipartUpload.assemble, hpart, ih hrest, hsize]
      rfl

end Reports

/-- An open upload can be completed with a report exactly when the storage
lets it through, and the object then has the size of the parts reported. -/
theorem completable_iff {s : Store} {rule : CompletionRule} {key : String}
    {id : Nat} {u : MultipartUpload} (hu : s.uploads id = some u)
    (hkey : u.key = key) (hopen : u.completed = false)
    {report : List CompletedPart} {u' : MultipartUpload} {size : Nat} :
    s.completable rule key id (inOrder report) = some (u', size) ↔
      u' = u ∧ rule.accepts u.parts (inOrder report) = true ∧
        size = reportedSize u.parts report := by
  rw [Store.completable, hu, Option.bind_some]
  by_cases haccepted : rule.accepts u.parts (inOrder report) = true
  · have hassemble : u.assemble (inOrder report) =
        some (reportedSize u.parts report) := by
      rw [← reportedSize_of_perm (inOrder_perm report)]
      exact assemble_of_stored (rule.stored u.parts _ haccepted)
    rw [if_pos ⟨hkey, hopen, haccepted⟩, hassemble, Option.map_some]
    constructor
    · intro h
      cases h
      exact ⟨rfl, haccepted, rfl⟩
    · rintro ⟨rfl, _, rfl⟩
      rfl
  · rw [if_neg fun h => haccepted h.2.2]
    exact ⟨fun h => (by cases h), fun h => absurd h.2.1 haccepted⟩

/-! ## What an upload holds -/

/-- The part an answer has added to the upload. -/
def VideoOp.uploadedPart (id : Nat) : (op : VideoOp) →
    Except VideoError op.Res → Option StoredPart
  | .uploadPart key part, .ok _ => if key = id then some part else none
  | _, _ => none

/-- The upload an answer has completed. -/
def VideoOp.completedUpload : (op : VideoOp) → Except VideoError op.Res →
    Option Nat
  | .completeMultipartUpload _ id _, .ok _ => some id
  | _, _ => none

/-- The parts uploaded so far, newest first. -/
def uploadedParts (log : VideoLog) (id : Nat) : List StoredPart :=
  log.filterMap fun x => x.op.uploadedPart id x.res

/-- A call has completed the upload. -/
def UploadCompleted (log : VideoLog) (id : Nat) : Prop :=
  ∃ x ∈ log, x.op.completedUpload x.res = some id

/-- The upload, as the calls have left it: one that was started is there, and
nothing was done to one that was not. -/
def SessionOf (log : VideoLog) (id : Nat) : Option MultipartUpload → Prop
  | some u => u.parts = uploadedParts log id ∧
      (u.completed = true ↔ UploadCompleted log id)
  | none => uploadedParts log id = [] ∧ ¬ UploadCompleted log id

/-- Every upload is as the calls have left it, under the key it was started
for. -/
structure Sessions (s : Store) (log : VideoLog) : Prop where
  sessions : ∀ id, SessionOf log id (s.uploads id)
  keys : ∀ x ∈ log, ∀ key id, x.op.startedUpload x.res = some (key, id) →
    ∃ u, s.uploads id = some u ∧ u.key = key

theorem uploadedParts_cons (x : VideoEntry) (log : VideoLog) (id : Nat) :
    uploadedParts (x :: log) id =
      (x.op.uploadedPart id x.res).toList ++ uploadedParts log id := by
  rw [uploadedParts, List.filterMap_cons]
  cases x.op.uploadedPart id x.res <;> rfl

theorem uploadCompleted_cons {x : VideoEntry} {log : VideoLog} {id : Nat} :
    UploadCompleted (x :: log) id ↔
      x.op.completedUpload x.res = some id ∨ UploadCompleted log id := by
  simp only [UploadCompleted, List.mem_cons, exists_eq_or_imp]

theorem uploadedPart_of_not_ok {op : VideoOp} {res : Except VideoError op.Res}
    (h : res.isOk = false) (id : Nat) : op.uploadedPart id res = none := by
  cases res with
  | ok v => exact nomatch h
  | error e => cases op <;> rfl

theorem completedUpload_of_not_ok {op : VideoOp}
    {res : Except VideoError op.Res} (h : res.isOk = false) :
    op.completedUpload res = none := by
  cases res with
  | ok v => exact nomatch h
  | error e => cases op <;> rfl

theorem Store.uploadPart_of_ok {s : Store} {id : Nat} {part : StoredPart}
    (h : (s.uploadPart id part).1.isOk = true) :
    (s.uploadPart id part).1 = .ok () ∧ ∃ u, s.uploads id = some u ∧
      (s.uploadPart id part).2.uploads = Function.update s.uploads id
        (some { u with parts := part :: u.parts }) := by
  unfold Store.uploadPart at h ⊢
  cases hu : s.uploads id with
  | none =>
      rw [hu] at h
      cases h
  | some u =>
      rw [hu] at h
      dsimp only at h ⊢
      by_cases hdone : u.completed = true
      · rw [if_pos hdone] at h
        cases h
      · rw [if_neg hdone]
        exact ⟨rfl, u, rfl, rfl⟩

theorem Store.completeMultipartUpload_of_ok {s : Store}
    {rule : CompletionRule} {key : String} {id : Nat}
    {parts : List CompletedPart}
    (h : (s.completeMultipartUpload rule key id parts).1.isOk = true) :
    (s.completeMultipartUpload rule key id parts).1 = .ok () ∧
    ∃ u, s.uploads id = some u ∧
      (s.completeMultipartUpload rule key id parts).2.uploads =
        Function.update s.uploads id (some { u with completed := true }) := by
  unfold Store.completeMultipartUpload at h ⊢
  cases hc : s.completable rule key id parts with
  | none =>
      rw [hc] at h
      cases h
  | some found =>
      exact ⟨rfl, found.1, Store.completable_upload hc, rfl⟩

section Step

variable {cfg : VideoConfig} {s : Store} {log : VideoLog} {m : Moment}
  {op : VideoOp} {fault : Option VideoError} {t : Nat}
  {request : VideoRequest}

/-- An answer that neither adds a part nor completes the upload. -/
theorem SessionOf.cons {id : Nat} {u? : Option MultipartUpload}
    (h : SessionOf log id u?) {x : VideoEntry}
    (hpart : x.op.uploadedPart id x.res = none)
    (hdone : x.op.completedUpload x.res ≠ some id) :
    SessionOf (x :: log) id u? := by
  have hparts : uploadedParts (x :: log) id = uploadedParts log id := by
    rw [uploadedParts_cons, hpart]
    rfl
  have hcompleted : UploadCompleted (x :: log) id ↔ UploadCompleted log id :=
    uploadCompleted_cons.trans (or_iff_right hdone)
  cases u? with
  | none => exact ⟨hparts.trans h.1, fun hc => h.2 (hcompleted.1 hc)⟩
  | some u => exact ⟨h.1.trans hparts.symm, h.2.trans hcompleted.symm⟩

/-- An answer that adds a part. -/
theorem SessionOf.cons_part {id : Nat} {u : MultipartUpload}
    (h : SessionOf log id (some u)) {x : VideoEntry} {part : StoredPart}
    (hpart : x.op.uploadedPart id x.res = some part)
    (hdone : x.op.completedUpload x.res ≠ some id) :
    SessionOf (x :: log) id (some { u with parts := part :: u.parts }) := by
  refine ⟨?_, h.2.trans
    (uploadCompleted_cons.trans (or_iff_right hdone)).symm⟩
  rw [uploadedParts_cons, hpart]
  exact congrArg (part :: ·) h.1

/-- An answer that completes the upload. -/
theorem SessionOf.cons_completed {id : Nat} {u : MultipartUpload}
    (h : SessionOf log id (some u)) {x : VideoEntry}
    (hpart : x.op.uploadedPart id x.res = none)
    (hdone : x.op.completedUpload x.res = some id) :
    SessionOf (x :: log) id (some { u with completed := true }) := by
  refine ⟨?_, iff_of_true rfl (uploadCompleted_cons.2 (.inl hdone))⟩
  rw [uploadedParts_cons, hpart]
  exact h.1

theorem SessionOf.uploadPart (h : ∀ id, SessionOf log id (s.uploads id))
    {key : Nat} {part : StoredPart}
    (hok : (s.uploadPart key part).1.isOk = true) (id : Nat) :
    SessionOf ((videoSystem cfg).entry t request m (.uploadPart key part) none
      s :: log) id ((s.uploadPart key part).2.uploads id) := by
  obtain ⟨hres, u, hu, huploads⟩ := Store.uploadPart_of_ok hok
  have hpart : VideoOp.uploadedPart id (.uploadPart key part)
      (s.uploadPart key part).1 = if key = id then some part else none := by
    rw [hres]
    rfl
  have hdone : VideoOp.completedUpload (.uploadPart key part)
      (s.uploadPart key part).1 ≠ some id := by
    rw [hres]
    exact fun h => nomatch h
  have hold := h id
  rw [huploads]
  by_cases hid : id = key
  · subst hid
    rw [if_pos rfl] at hpart
    rw [hu] at hold
    rw [Function.update_self]
    exact hold.cons_part hpart hdone
  · rw [if_neg (Ne.symm hid)] at hpart
    rw [Function.update_of_ne hid]
    exact hold.cons hpart hdone

theorem SessionOf.completeMultipartUpload
    (h : ∀ id, SessionOf log id (s.uploads id)) {key : String}
    {uploadId : Nat} {parts : List CompletedPart}
    (hok : (s.completeMultipartUpload m.completion key uploadId
      parts).1.isOk = true) (id : Nat) :
    SessionOf ((videoSystem cfg).entry t request m
      (.completeMultipartUpload key uploadId parts) none s :: log) id
        ((s.completeMultipartUpload m.completion key uploadId
          parts).2.uploads id) := by
  obtain ⟨hres, u, hu, huploads⟩ := Store.completeMultipartUpload_of_ok hok
  have hpart : VideoOp.uploadedPart id
      (.completeMultipartUpload key uploadId parts)
      (s.completeMultipartUpload m.completion key uploadId parts).1 = none := by
    rw [hres]
    rfl
  have hdone : VideoOp.completedUpload
      (.completeMultipartUpload key uploadId parts)
      (s.completeMultipartUpload m.completion key uploadId parts).1 =
        some uploadId := by
    rw [hres]
    rfl
  have hold := h id
  rw [huploads]
  by_cases hid : id = uploadId
  · subst hid
    rw [hu] at hold
    rw [Function.update_self]
    exact hold.cons_completed hpart hdone
  · rw [Function.update_of_ne hid]
    refine hold.cons hpart fun heq => hid ?_
    exact (Option.some.inj (hdone.symm.trans heq)).symm

/-- The uploads after a call that goes through. -/
theorem SessionOf.exec (h : ∀ id, SessionOf log id (s.uploads id))
    (hfresh : s.uploads s.nextUploadId = none)
    (hok : (Store.exec m op s).1.isOk = true) (id : Nat) :
    SessionOf ((videoSystem cfg).entry t request m op none s :: log) id
      ((Store.exec m op s).2.uploads id) := by
  cases op with
  | createMultipartUpload key contentType =>
      refine SessionOf.cons ?_ rfl (Option.some_ne_none id).symm
      simp only [Store.exec, Store.createMultipartUpload]
      by_cases hid : id = s.nextUploadId
      · subst hid
        have hold := h s.nextUploadId
        rw [hfresh] at hold
        rw [Function.update_self]
        exact ⟨hold.1.symm, iff_of_false Bool.false_ne_true hold.2⟩
      · rw [Function.update_of_ne hid]
        exact h id
  | uploadPart key part => exact SessionOf.uploadPart h hok id
  | completeMultipartUpload key uploadId parts =>
      exact SessionOf.completeMultipartUpload h hok id
  | _ =>
      rw [(Store.frame_exec m _ s).uploads (by rfl)]
      exact (h id).cons rfl (Option.some_ne_none id).symm

/-- The uploads after a call. -/
theorem SessionOf.answer (h : ∀ id, SessionOf log id (s.uploads id))
    (hfresh : s.uploads s.nextUploadId = none) (id : Nat) :
    SessionOf ((videoSystem cfg).entry t request m op fault s :: log) id
      (((videoSystem cfg).answer m op fault s).2.uploads id) := by
  have hrefused : ∀ res : Except VideoError op.Res, res.isOk = false →
      op.uploadedPart id res = none ∧ op.completedUpload res ≠ some id := by
    intro res hres
    rw [completedUpload_of_not_ok hres]
    exact ⟨uploadedPart_of_not_ok hres id, (Option.some_ne_none id).symm⟩
  cases fault with
  | some e =>
      obtain ⟨hpart, hdone⟩ := hrefused (.error e) rfl
      exact (h id).cons hpart hdone
  | none =>
      cases hok : (Store.exec m op s).1.isOk with
      | true => exact SessionOf.exec h hfresh hok id
      | false =>
          obtain ⟨hpart, hdone⟩ := hrefused _ hok
          rw [System.answer_none]
          show SessionOf _ id ((Store.exec m op s).2.uploads id)
          rw [Store.exec_of_refused hok]
          exact (h id).cons hpart hdone

/-- An upload that is there stays, under its key. -/
theorem upload_kept {id : Nat} {u : MultipartUpload}
    (hu : s.uploads id = some u) (hid : id ≠ s.nextUploadId) :
    ∃ u', ((videoSystem cfg).answer m op fault s).2.uploads id = some u' ∧
      u'.key = u.key := by
  cases fault with
  | some e => exact ⟨u, hu, rfl⟩
  | none =>
      have hupdate : ∀ (key : Nat) (u₀ u₁ : MultipartUpload),
          s.uploads key = some u₀ → u₁.key = u₀.key →
          ∃ u', Function.update s.uploads key (some u₁) id = some u' ∧
            u'.key = u.key := by
        intro key u₀ u₁ hu₀ hkey
        by_cases heq : id = key
        · subst heq
          rw [hu₀] at hu
          cases hu
          exact ⟨u₁, Function.update_self _ _ _, hkey⟩
        · exact ⟨u, (Function.update_of_ne heq _ _).trans hu, rfl⟩
      cases hok : (Store.exec m op s).1.isOk with
      | false =>
          rw [System.answer_none]
          show ∃ u', (Store.exec m op s).2.uploads id = some u' ∧ _
          rw [Store.exec_of_refused hok]
          exact ⟨u, hu, rfl⟩
      | true =>
          show ∃ u', (Store.exec m op s).2.uploads id = some u' ∧ _
          cases op with
          | createMultipartUpload key contentType =>
              exact ⟨u, (Function.update_of_ne hid _ _).trans hu, rfl⟩
          | uploadPart key part =>
              obtain ⟨_, u₀, hu₀, huploads⟩ := Store.uploadPart_of_ok hok
              simp only [Store.exec, huploads]
              exact hupdate key u₀ _ hu₀ rfl
          | completeMultipartUpload key uploadId parts =>
              obtain ⟨_, u₀, hu₀, huploads⟩ :=
                Store.completeMultipartUpload_of_ok hok
              simp only [Store.exec, huploads]
              exact hupdate uploadId u₀ _ hu₀ rfl
          | _ =>
              rw [(Store.frame_exec m _ s).uploads (by rfl)]
              exact ⟨u, hu, rfl⟩

/-- An upload that a call has started is there, under its key. -/
theorem upload_of_started {key : String} {id : Nat}
    (h : op.startedUpload ((videoSystem cfg).answer m op fault s).1 =
      some (key, id)) :
    ∃ u, ((videoSystem cfg).answer m op fault s).2.uploads id = some u ∧
      u.key = key := by
  cases fault with
  | some e => exact absurd h (by cases op <;> exact nofun)
  | none =>
      cases op with
      | createMultipartUpload key' contentType =>
          have hid : some (key', s.nextUploadId) = some (key, id) := h
          cases hid
          exact ⟨_, Function.update_self _ _ _, rfl⟩
      | _ => exact nomatch h

end Step

section Runs

variable {cfg : VideoConfig} {P : VideoPolicy} {c : VideoRun}

theorem sessions_empty : Sessions {} [] where
  sessions _ := ⟨rfl, fun ⟨_, hx, _⟩ => nomatch hx⟩
  keys _ hx := nomatch hx

/-- Over every interleaving, whatever fails, an upload holds the parts that
were uploaded to it, and is completed when a call has completed it. -/
theorem sessions_of_reachable (h : Reachable (videoSystem cfg) P {} c) :
    Sessions c.state c.log := by
  apply Reachable.answers Sessions sessions_empty ?_ h
  intro b b' t request m op fault hb _ hinv _ hlog
  have hnext := (provenance_of_reachable hb).1.uploads
  have hfresh : b.state.uploads b.state.nextUploadId = none := by
    cases hu : b.state.uploads b.state.nextUploadId with
    | none => rfl
    | some u => exact absurd (hnext _ u hu) (Nat.lt_irrefl _)
  rw [hlog]
  constructor
  · exact SessionOf.answer hinv.sessions hfresh
  · intro x hx key id hstarted
    rcases List.mem_cons.1 hx with rfl | hx
    · exact upload_of_started hstarted
    · obtain ⟨u, hu, hkey⟩ := hinv.keys x hx key id hstarted
      obtain ⟨u', hu', hkey'⟩ : ∃ u', ((videoSystem cfg).answer m op fault
          b.state).2.uploads id = some u' ∧ u'.key = u.key :=
        upload_kept hu (Nat.ne_of_lt (hnext id u hu))
      exact ⟨u', hu', hkey'.trans hkey⟩

end Runs

end Videum.Videos
