import Videum.Videos.Drafts
import Videum.Videos.MissingObject

/-!
# Writers that overtake each other

A completion call, a sweep and a worker each read a row, work for some time,
and write its status without a second look.  What each of them checks when it
reads (the draft is `uploading`, the row of a job is not `ready`) is enough for
the life cycle as long as nobody is overtaken: from the read to the write
nobody else takes the row to its end.

## Main results

* `since_of_reachable` — what the answers since a read have made of its row.
* `lifecycle_iff_unovertaken` — which runs keep the life cycle.
* `marksOpen_of_completions` — without sweeps every mark finds its draft open.
-/

namespace Videum.Videos

open Videum.Async

/-! ## Reads and writes of a row -/

namespace VideoOp

/-- The rows an answer shows. -/
def shown (op : VideoOp) (res : Except VideoError op.Res) : List Video :=
  (op.foundRow res).toList ++ (op.fetchedRow res).toList ++ op.staleRows res

theorem shown_of_foundRow {op : VideoOp} {res : Except VideoError op.Res}
    {v : Video} (h : op.foundRow res = some v) : v ∈ op.shown res := by
  simp only [shown, h, Option.toList_some, List.mem_append,
    List.mem_singleton, true_or]

theorem shown_of_fetchedRow {op : VideoOp} {res : Except VideoError op.Res}
    {v : Video} (h : op.fetchedRow res = some v) : v ∈ op.shown res := by
  simp only [shown, h, Option.toList_some, List.mem_append,
    List.mem_singleton, true_or, or_true]

theorem shown_of_staleRows {op : VideoOp} {res : Except VideoError op.Res}
    {v : Video} (h : v ∈ op.staleRows res) : v ∈ op.shown res :=
  List.mem_append_right _ h

/-- The row a call writes a status to, and the status. -/
def writtenStatus : VideoOp → Option (Nat × VideoStatus)
  | .saveVideo v => some (v.id, v.status)
  | .updateVideo id patch => patch.status.map fun status => (id, status)
  | _ => none

end VideoOp

/-- The answer has written this status to the row `id`. -/
def Makes (id : Nat) (status : VideoStatus) (x : VideoEntry) : Prop :=
  x.res.isOk = true ∧ x.op.writtenStatus = some (id, status)

instance (id : Nat) (status : VideoStatus) (x : VideoEntry) :
    Decidable (Makes id status x) :=
  inferInstanceAs (Decidable (_ ∧ _))

/-- The thread `t` has read the row `id` as `v`, and `since` are the answers
since then. -/
inductive ReadSince (t id : Nat) (v : Video) : VideoLog → VideoLog → Prop
  | read {y : VideoEntry} (older : VideoLog) (htid : y.tid = t)
      (hshown : v ∈ y.op.shown y.res) (hid : v.id = id) :
      ReadSince t id v (y :: older) []
  | later {y : VideoEntry} {older since : VideoLog}
      (h : ReadSince t id v older since) :
      ReadSince t id v (y :: older) (y :: since)

/-- Between a read of the row `id` as `v` and the write `x` of `status` to it,
nobody has made the row ready, unless by the very same write, or failed,
unless `x` fails it too; and what was read as failed is not made ready. -/
structure Unovertaken (x : VideoEntry) (id : Nat) (status : VideoStatus)
    (v : Video) (since : VideoLog) : Prop where
  ready : ∀ z ∈ since, Makes id .ready z → z.op = x.op
  failed : ∀ z ∈ since, Makes id .failed z → status = .failed
  again : status = .ready → v.status ≠ .failed

/-- A request that writes a status to a row is not overtaken since it has read
the row. -/
def WritesUnovertaken (older : VideoLog) (x : VideoEntry) : Prop :=
  ∀ w ∈ x.op.writtenStatus, x.res.isOk = true → ∀ v since,
    ReadSince x.tid w.1 v older since → Unovertaken x w.1 w.2 v since

theorem unovertaken_iff {x : VideoEntry} {id : Nat} {status : VideoStatus}
    {v : Video} {since : VideoLog} :
    Unovertaken x id status v since ↔
      (∀ z ∈ since, Makes id .ready z → z.op = x.op) ∧
      (∀ z ∈ since, Makes id .failed z → status = .failed) ∧
      (status = .ready → v.status ≠ .failed) :=
  ⟨fun h => ⟨h.ready, h.failed, h.again⟩, fun h => ⟨h.1, h.2.1, h.2.2⟩⟩

instance (x : VideoEntry) (id : Nat) (status : VideoStatus) (v : Video)
    (since : VideoLog) : Decidable (Unovertaken x id status v since) :=
  decidable_of_iff _ unovertaken_iff.symm

theorem readSince_cons {t id : Nat} {v : Video} {y : VideoEntry}
    {older since : VideoLog} :
    ReadSince t id v (y :: older) since ↔
      (y.tid = t ∧ v ∈ y.op.shown y.res ∧ v.id = id ∧ since = []) ∨
        ∃ since', ReadSince t id v older since' ∧ since = y :: since' := by
  constructor
  · intro h
    cases h with
    | read _ htid hshown hid => exact .inl ⟨htid, hshown, hid, rfl⟩
    | later h => exact .inr ⟨_, h, rfl⟩
  · rintro (⟨htid, hshown, hid, rfl⟩ | ⟨since', h, rfl⟩)
    · exact .read older htid hshown hid
    · exact .later h

/-- What holds of every read can be decided read by read. -/
def decidableReads (t id : Nat) (Q : Video → VideoLog → Prop)
    [∀ v since, Decidable (Q v since)] :
    (log : VideoLog) →
      Decidable (∀ v since, ReadSince t id v log since → Q v since)
  | [] => isTrue (by
      intro v since h
      cases h)
  | y :: older =>
      have := decidableReads t id (fun v since => Q v (y :: since)) older
      decidable_of_iff
        ((y.tid = t → ∀ v ∈ y.op.shown y.res, v.id = id → Q v []) ∧
          ∀ v since, ReadSince t id v older since → Q v (y :: since)) (by
        simp only [readSince_cons]
        constructor
        · rintro ⟨hread, hlater⟩ v since
            (⟨htid, hshown, hid, rfl⟩ | ⟨since', h, rfl⟩)
          · exact hread htid v hshown hid
          · exact hlater v since' h
        · intro h
          constructor
          · exact fun htid v hshown hid =>
              h v [] (.inl ⟨htid, hshown, hid, rfl⟩)
          · exact fun v since hsince => h v _ (.inr ⟨since, hsince, rfl⟩))

instance (older : VideoLog) (x : VideoEntry) :
    Decidable (WritesUnovertaken older x) :=
  have (w : Nat × VideoStatus) := decidableReads x.tid w.1
    (fun v since => Unovertaken x w.1 w.2 v since) older
  inferInstanceAs (Decidable (∀ w ∈ x.op.writtenStatus, _ → _))

/-- Who has read a row has done so some answers ago. -/
theorem exists_readSince {t id : Nat} {v : Video} {log : VideoLog}
    {y : VideoEntry} (hy : y ∈ own t log) (hshown : v ∈ y.op.shown y.res)
    (hid : v.id = id) : ∃ since, ReadSince t id v log since := by
  obtain ⟨hmem, htid⟩ := mem_own.1 hy
  clear hy
  induction log with
  | nil => exact nomatch hmem
  | cons z older ih =>
      rcases List.mem_cons.1 hmem with rfl | hmem
      · exact ⟨[], .read older htid hshown hid⟩
      · obtain ⟨since, h⟩ := ih hmem
        exact ⟨z :: since, .later h⟩

theorem ReadSince.subset {t id : Nat} {v : Video} {log since : VideoLog}
    (h : ReadSince t id v log since) : since ⊆ log := by
  induction h with
  | read older _ _ _ => exact List.nil_subset _
  | later _ ih => exact List.cons_subset_cons _ ih

/-! ## What becomes of a row that was read -/

/-- The write that makes a row ready with the results of `r`. -/
def Video.readyWrite (r : Video) : VideoOp :=
  .updateVideo r.id
    { duration_seconds := r.duration_seconds
      thumbnail_key := r.thumbnail_key
      status := some .ready }

/-- `r` is the row that was read as `v`, with the answers `since`. -/
structure Since (v r : Video) (since : VideoLog) : Prop where
  path : Relation.ReflTransGen RowStep v r
  ready : r.status = .ready → v.status ≠ .ready →
    ∃ z ∈ since, Makes r.id .ready z
  failed : r.status = .failed → v.status ≠ .failed →
    ∃ z ∈ since, Makes r.id .failed z
  made_ready : ∀ z ∈ since, Makes r.id .ready z →
    r.status = .ready ∧ z.op = r.readyWrite
  made_failed : ∀ z ∈ since, Makes r.id .failed z → r.status = .failed

theorem Since.refl (v : Video) : Since v v [] where
  path := .refl
  ready hready hnot := absurd hready hnot
  failed hfailed hnot := absurd hfailed hnot
  made_ready _ hz := nomatch hz
  made_failed _ hz := nomatch hz

/-- `failed` is final, too. -/
theorem VideoStatus.failed_final (status : VideoStatus) :
    ¬ VideoStatus.failed.canBecome status = true := by
  cases status <;> decide

theorem RowStep.failed {r r' : Video} (h : RowStep r r')
    (hfailed : r.status = .failed) : r'.status = .failed := by
  rcases h.status with hsame | hbecome
  · rw [hsame, hfailed]
  · rw [hfailed] at hbecome
    exact absurd hbecome (VideoStatus.failed_final _)

theorem RowStep.ready {r r' : Video} (h : RowStep r r')
    (hready : r.status = .ready) (hid : r'.id = r.id) :
    r'.status = .ready ∧ r'.readyWrite = r.readyWrite := by
  obtain ⟨hstatus, hseconds, hkey⟩ := ready_frozen (.single h) hready
  refine ⟨hstatus, ?_⟩
  rw [Video.readyWrite, Video.readyWrite, hid, hseconds, hkey]

/-- A row that was failed stays so. -/
theorem failed_frozen {v r : Video} (h : Relation.ReflTransGen RowStep v r)
    (hfailed : v.status = .failed) : r.status = .failed := by
  induction h with
  | refl => exact hfailed
  | tail _ hrow ih => exact hrow.failed ih

section Answers

variable {cfg : VideoConfig} {P : VideoPolicy} {c : VideoRun} {t : Nat}
  {request : VideoRequest} {m : Moment} {op : VideoOp}
  {fault : Option VideoError} {s : Store}

/-- A lookup by primary key finds the row it asks for. -/
theorem row_of_fetchedRow {v : Video}
    (h : op.fetchedRow ((videoSystem cfg).answer m op fault s).1 = some v) :
    ∃ id, op = .findVideoById id ∧ s.row? id = some v := by
  cases fault with
  | some e => cases op <;> exact nomatch h
  | none =>
      cases op with
      | findVideoById id =>
          refine ⟨id, rfl, ?_⟩
          have hfetched : VideoOp.fetchedRow (.findVideoById id)
              (.ok (s.row? id)) = some v := h
          cases hrow : s.row? id with
          | none =>
              rw [hrow] at hfetched
              exact nomatch hfetched
          | some r =>
              rw [hrow] at hfetched
              exact hfetched
      | _ => exact nomatch h

/-- What an answer shows is in the table, and stays there. -/
theorem row_of_shown (hkeyed : s.Keyed) {v : Video}
    (h : v ∈ op.shown ((videoSystem cfg).answer m op fault s).1) :
    ((videoSystem cfg).answer m op fault s).2.row? v.id = some v := by
  simp only [VideoOp.shown, List.mem_append, Option.mem_toList] at h
  rcases h with (hfound | hfetched) | hstale
  · have hrewrite : op.rewritesRow = false := by
      cases op with
      | findVideoByPublicId publicId => rfl
      | _ => exact nomatch hfound
    exact row?_answer (hkeyed.found v (mem_of_foundRow hfound).1) hrewrite
  · obtain ⟨id, hop, hrow⟩ := row_of_fetchedRow hfetched
    rw [Store.row?_id hrow]
    apply row?_answer hrow
    rw [hop]
    rfl
  · have hrewrite : op.rewritesRow = false := by
      cases op with
      | findStaleVideos cutoff => rfl
      | _ => exact nomatch hstale
    exact row?_answer (hkeyed.found v (mem_of_staleRows hstale).1) hrewrite

/-- What an answer makes of a row: it leaves the row alone, or is a write of
the row that went through. -/
theorem row_answer {r r' : Video} {id : Nat} (hr : s.row? id = some r)
    (hr' : ((videoSystem cfg).answer m op fault s).2.row? id = some r') :
    (r' = r ∧ (((videoSystem cfg).answer m op fault s).1.isOk = true →
        ∀ status, op.writtenStatus ≠ some (id, status))) ∨
      ((videoSystem cfg).answer m op fault s).1.isOk = true ∧
        (op = .saveVideo r' ∨
          ∃ patch, op = .updateVideo id patch ∧ r' = patch.apply r) := by
  have hsame : ((videoSystem cfg).answer m op fault s).2.row? id = some r →
      r' = r := fun h => Option.some.inj (hr'.symm.trans h)
  cases fault with
  | some e => exact .inl ⟨hsame hr, fun hok => nomatch hok⟩
  | none =>
      cases op with
      | saveVideo v =>
          have hrow : ((s.row? id).map fun r => if r.id = v.id then v else r) =
              some r' := (Store.row?_saveVideo s v id).symm.trans hr'
          rw [hr, Option.map_some, Store.row?_id hr] at hrow
          by_cases hid : id = v.id
          · rw [if_pos hid] at hrow
            cases hrow
            exact .inr ⟨rfl, .inl rfl⟩
          · rw [if_neg hid] at hrow
            cases hrow
            refine .inl ⟨rfl, fun _ status heq => hid ?_⟩
            exact (congrArg Prod.fst (Option.some.inj heq)).symm
      | updateVideo key patch =>
          rcases Store.exec_updateVideo_cases m key patch s with hexec | hexec
          · have hstate := congrArg Prod.snd hexec
            have hrow : ((s.row? id).map fun r =>
                if r.id = key then patch.apply r else r) = some r' := by
              rw [← Store.row?_updateVideo, ← hr']
              exact congrArg (fun s' => s'.row? id) hstate.symm
            rw [hr, Option.map_some, Store.row?_id hr] at hrow
            by_cases hid : id = key
            · subst hid
              rw [if_pos rfl] at hrow
              cases hrow
              refine .inr ⟨?_, .inr ⟨patch, rfl, rfl⟩⟩
              exact congrArg (fun answer => answer.1.isOk) hexec
            · rw [if_neg hid] at hrow
              cases hrow
              refine .inl ⟨rfl, fun _ status heq => hid ?_⟩
              obtain ⟨_, _, hpair⟩ := Option.map_eq_some_iff.1 heq
              exact (congrArg Prod.fst hpair).symm
          · refine .inl ⟨hsame ?_, fun hok => ?_⟩
            · exact (congrArg (fun answer => answer.2.row? id) hexec).trans hr
            · have hfailed := congrArg (fun answer => answer.1.isOk) hexec
              exact nomatch hok.symm.trans hfailed
      | _ => exact .inl ⟨hsame (row?_answer hr (by rfl)), fun _ _ => nofun⟩

/-- The row after an answer has the status that was written to it. -/
theorem row_of_made {r r' : Video} {id : Nat} (hwrite : ServiceWrite op)
    (hr : s.row? id = some r)
    (hr' : ((videoSystem cfg).answer m op fault s).2.row? id = some r')
    {status : VideoStatus}
    (hok : ((videoSystem cfg).answer m op fault s).1.isOk = true)
    (hmakes : op.writtenStatus = some (id, status)) :
    r'.status = status ∧ (status = .ready → op = r'.readyWrite) := by
  rcases row_answer hr hr' with ⟨_, hnot⟩ | ⟨_, rfl | ⟨patch, rfl, rfl⟩⟩
  · exact absurd hmakes (hnot hok status)
  · have hstatus : r'.status = status :=
      congrArg Prod.snd (Option.some.inj hmakes)
    refine ⟨hstatus, fun hready => ?_⟩
    have hprocessing : r'.status = .processing := hwrite
    rw [hstatus, hready] at hprocessing
    cases hprocessing
  · have hid : (patch.apply r).id = id := Store.row?_id hr'
    rcases hwrite with rfl | rfl | ⟨seconds, key, rfl⟩
    · cases hmakes
      exact ⟨rfl, fun hready => nomatch hready⟩
    · cases hmakes
      exact ⟨rfl, fun hready => nomatch hready⟩
    · cases hmakes
      refine ⟨rfl, fun _ => ?_⟩
      rw [Video.readyWrite, hid]
      rfl

/-- The status of a row only changes where it is written. -/
theorem makes_of_changed {r r' : Video} {id : Nat} (hr : s.row? id = some r)
    (hr' : ((videoSystem cfg).answer m op fault s).2.row? id = some r')
    (hchanged : r'.status ≠ r.status) :
    Makes id r'.status ((videoSystem cfg).entry t request m op fault s) := by
  have hid := Store.row?_id hr'
  rcases row_answer hr hr' with ⟨rfl, _⟩ | ⟨hok, rfl | ⟨patch, rfl, rfl⟩⟩
  · exact absurd rfl hchanged
  · refine ⟨hok, ?_⟩
    show some (r'.id, r'.status) = _
    rw [hid]
  · refine ⟨hok, ?_⟩
    show patch.status.map (fun status => (id, status)) =
      some (id, patch.status.getD r.status)
    cases hstatus : patch.status with
    | some status => rfl
    | none =>
        have hsame : (patch.apply r).status = r.status := by
          simp only [VideoPatch.apply, hstatus, Option.getD_none]
        exact absurd hsame hchanged

/-- An answer that keeps the life cycle takes the row one step further. -/
theorem Since.answer {v r r' : Video} {since : VideoLog} (h : Since v r since)
    (hwrite : ServiceWrite op) (hr : s.row? r.id = some r)
    (hr' : ((videoSystem cfg).answer m op fault s).2.row? r.id = some r')
    (hstep : RowStep r r') :
    Since v r' ((videoSystem cfg).entry t request m op fault s :: since) := by
  have hid : r'.id = r.id := Store.row?_id hr'
  have hnew : ∀ status, r'.status = status → r.status ≠ status →
      Makes r'.id status ((videoSystem cfg).entry t request m op fault s) := by
    rintro _ rfl hchanged
    rw [hid]
    exact makes_of_changed hr hr' (Ne.symm hchanged)
  constructor
  · exact h.path.tail hstep
  · intro hready hnot
    by_cases hbefore : r.status = .ready
    · obtain ⟨z, hz, hmakes⟩ := h.ready hbefore hnot
      exact ⟨z, .tail _ hz, hid ▸ hmakes⟩
    · exact ⟨_, .head _, hnew _ hready hbefore⟩
  · intro hfailed hnot
    by_cases hbefore : r.status = .failed
    · obtain ⟨z, hz, hmakes⟩ := h.failed hbefore hnot
      exact ⟨z, .tail _ hz, hid ▸ hmakes⟩
    · exact ⟨_, .head _, hnew _ hfailed hbefore⟩
  · intro z hz hmakes
    rw [hid] at hmakes
    rcases List.mem_cons.1 hz with rfl | hz
    · obtain ⟨hstatus, hop⟩ := row_of_made hwrite hr hr' hmakes.1 hmakes.2
      exact ⟨hstatus, hop rfl⟩
    · obtain ⟨hready, hop⟩ := h.made_ready z hz hmakes
      obtain ⟨hready', hsame⟩ := hstep.ready hready hid
      exact ⟨hready', hop.trans hsame.symm⟩
  · intro z hz hmakes
    rw [hid] at hmakes
    rcases List.mem_cons.1 hz with rfl | hz
    · exact (row_of_made hwrite hr hr' hmakes.1 hmakes.2).1
    · exact hstep.failed (h.made_failed z hz hmakes)

end Answers

section Runs

variable {cfg : VideoConfig} {P : VideoPolicy} {c : VideoRun}

/-- What becomes of a row that was read, over every interleaving, as long as
the answers since keep the life cycle. -/
theorem since_of_reachable (h : Reachable (videoSystem cfg) P {} c)
    {t id : Nat} {v : Video} {since : VideoLog}
    (hread : ReadSince t id v c.log since)
    (hkept : ∀ z ∈ since, LifecycleStep z.before z.after) :
    ∃ r, c.state.row? id = some r ∧ Since v r since := by
  have hinv : ∀ since, ReadSince t id v c.log since →
      (∀ z ∈ since, LifecycleStep z.before z.after) →
      ∃ r, c.state.row? id = some r ∧ Since v r since := by
    apply Reachable.answers (fun s log => ∀ since,
      ReadSince t id v log since →
      (∀ z ∈ since, LifecycleStep z.before z.after) →
      ∃ r, s.row? id = some r ∧ Since v r since) ?_ ?_ h
    · intro since hread
      cases hread
    · intro b b' t' request m op fault hb hb' ih _ hlog since hread hkept
      rw [hlog] at hread
      rcases readSince_cons.1 hread with
        ⟨_, hshown, rfl, rfl⟩ | ⟨since', hread', rfl⟩
      · exact ⟨v, row_of_shown (keyed_of_reachable hb) hshown, .refl v⟩
      · obtain ⟨hstep, hold⟩ := List.forall_mem_cons.1 hkept
        obtain ⟨r, hr, hsince⟩ := ih since' hread' hold
        obtain ⟨r', hr', hrow⟩ := hstep id r hr
        have hwrite : ServiceWrite op := hb'.issued
          (Q := fun _ op => ServiceWrite op) (serve_issues cfg)
          (x := (videoSystem cfg).entry t' request m op fault b.state) (by
            rw [hlog]
            exact .head _)
        have hid : r.id = id := Store.row?_id hr
        subst hid
        exact ⟨r', hr', hsince.answer hwrite hr hr' hrow⟩
  exact hinv since hread hkept

/-- A draft that is `uploading` has its upload. -/
theorem open_of_uploading (h : Reachable (videoSystem cfg) P {} c) :
    ∀ r ∈ c.state.videos, r.status = .uploading → r.upload_id ≠ none := by
  apply Reachable.answers (fun s _ => ∀ r ∈ s.videos,
    r.status = .uploading → r.upload_id ≠ none) ?_ ?_ h
  · intro r hr
    cases hr
  · intro b b' t request m op fault _ hb' hinv _ hlog
    have hlaw : Traced cfg.uuid request (own t b.log) op :=
      traced_newest hb' hlog
    cases fault with
    | some e => exact hinv
    | none =>
        apply Store.forall_videos_exec hinv
        · rintro v rfl _
          obtain ⟨_, _, _, id, _, _, hupload⟩ := hlaw
          rw [Store.newRow, hupload]
          exact Option.some_ne_none id
        · rintro w rfl huploading
          obtain ⟨v, _, rfl, _⟩ := hlaw
          cases huploading
        · rintro patch r rfl _ huploading
          rcases hlaw with ⟨_, _, _, ⟨rfl, _⟩ | ⟨rfl, _⟩⟩ |
            ⟨_, _, _, rfl | ⟨_, rfl, _⟩⟩ <;> cases huploading

/-- The row of a worker's job has left `uploading`. -/
theorem not_uploading_of_working (h : Reachable (videoSystem cfg) P {} c)
    {t : Nat} {request : VideoRequest} {job : ProcessVideoJobData}
    (hjob : Working request (own t c.log) job) {r : Video}
    (hr : c.state.row? job.video_id = some r) : r.status ≠ .uploading := by
  obtain ⟨_, ⟨x, hx, htaken⟩, _⟩ := hjob
  obtain ⟨y, hy, hmark⟩ :=
    marked_of_added h (added_of_handed h (mem_own.1 hx).1 htaken)
  obtain ⟨r', hr', hclosed⟩ := closed_of_reachable h y hy _ hmark
  cases hr.symm.trans hr'
  intro huploading
  exact open_of_uploading h r (Store.row?_mem hr) huploading hclosed

/-- A lookup by primary key finds a row with that key. -/
theorem id_of_fetched (h : Reachable (videoSystem cfg) P {} c)
    {x : VideoEntry} (hx : x ∈ c.log) {id : Nat}
    (hop : x.op = .findVideoById id) {v : Video}
    (hfetched : x.op.fetchedRow x.res = some v) : v.id = id := by
  obtain ⟨b, fault, k, _, _, _, _, heq, _⟩ := h.entry_config hx
  rw [heq] at hop hfetched
  obtain ⟨id', hop', hrow⟩ := row_of_fetchedRow hfetched
  cases hop.symm.trans hop'
  exact Store.row?_id hrow

/-- What a sweep has found was `uploading`. -/
theorem uploading_of_sweeping (h : Reachable (videoSystem cfg) P {} c)
    {t : Nat} {request : VideoRequest} {v : Video}
    (hv : Sweeping request (own t c.log) v) : v.status = .uploading := by
  obtain ⟨_, x, hx, hstale⟩ := hv
  obtain ⟨b, fault, k, _, _, _, _, heq, _⟩ :=
    h.entry_config (mem_own.1 hx).1
  rw [heq] at hstale
  exact (mem_of_staleRows hstale).2

end Runs

/-! ## Writes that are in time -/

/-- A write of `status` to the row `r`, not overtaken since its thread has read
it as `v`. -/
structure InTurn (x : VideoEntry) (status : VideoStatus) (v r : Video) :
    Prop where
  ready : r.status = .ready → v.status ≠ .ready →
    status = .ready ∧ x.op = r.readyWrite
  failed : r.status = .failed → v.status ≠ .failed → status = .failed
  again : status = .ready → v.status ≠ .failed

section Writes

variable {cfg : VideoConfig} {b c : VideoRun} {x : VideoEntry}

/-- The row a request writes, after it has read it. -/
theorem inTurn_of_unovertaken (hb : Reachable (videoSystem cfg) anyRun {} b)
    (hkept : ∀ z ∈ b.log, LifecycleStep z.before z.after)
    (hx : WritesUnovertaken b.log x) (hok : x.res.isOk = true) {id : Nat}
    {status : VideoStatus} (hwrites : x.op.writtenStatus = some (id, status))
    {v : Video} {y : VideoEntry} (hy : y ∈ own x.tid b.log)
    (hshown : v ∈ y.op.shown y.res) (hid : v.id = id) {r : Video}
    (hr : b.state.row? id = some r) : InTurn x status v r := by
  obtain ⟨since, hread⟩ := exists_readSince hy hshown hid
  have hun : Unovertaken x id status v since :=
    hx (id, status) hwrites hok v since hread
  obtain ⟨r', hr', hsince⟩ := since_of_reachable hb hread
    fun z hz => hkept z (hread.subset hz)
  cases hr.symm.trans hr'
  have hrid : r.id = id := Store.row?_id hr
  subst hrid
  refine ⟨?_, ?_, hun.again⟩
  · intro hready hnot
    obtain ⟨z, hz, hmakes⟩ := hsince.ready hready hnot
    have hsame : z.op = x.op := hun.ready z hz hmakes
    have hstatus := hmakes.2
    rw [hsame, hwrites] at hstatus
    cases hstatus
    exact ⟨rfl, hsame.symm.trans (hsince.made_ready z hz hmakes).2⟩
  · intro hfailed hnot
    obtain ⟨z, hz, hmakes⟩ := hsince.failed hfailed hnot
    exact hun.failed z hz hmakes

/-- The completion call and the sweep have read their draft as `uploading`,
and find it so or `processing`. -/
theorem InTurn.of_uploading {v r : Video} (h : InTurn x .processing v r)
    (hv : v.status = .uploading) :
    r.status = .uploading ∨ r.status = .processing := by
  cases hstatus : r.status with
  | uploading => exact .inl rfl
  | processing => exact .inr rfl
  | ready =>
      have hready := h.ready hstatus (by rw [hv]; decide)
      exact absurd hready.1 (by decide)
  | failed =>
      have hfailed := h.failed hstatus (by rw [hv]; decide)
      exact absurd hfailed (by decide)

/-- Who gives a video up has not read it as `ready`, and does not find it
so. -/
theorem InTurn.failing {v r : Video} (h : InTurn x .failed v r)
    (hv : v.status ≠ .ready) : r.status ≠ .ready := by
  intro hready
  exact absurd (h.ready hready hv).1 (by decide)

/-- A write that is not overtaken is timely. -/
theorem timely_of_unovertaken (hb : Reachable (videoSystem cfg) anyRun {} b)
    (hkept : ∀ z ∈ b.log, LifecycleStep z.before z.after)
    (hlaw : Traced cfg.uuid x.request (own x.tid b.log) x.op)
    (hx : WritesUnovertaken b.log x) (hok : x.res.isOk = true) :
    x.op.Timely b.state := by
  obtain ⟨tid, request, amb, op, before, res, after⟩ := x
  cases op with
  | saveVideo w =>
      obtain ⟨v, ⟨_, _, ⟨y, hy, _, hfound⟩, hv⟩, rfl, _⟩ := hlaw
      intro r hr
      exact (inTurn_of_unovertaken hb hkept hx hok rfl hy
        (VideoOp.shown_of_foundRow hfound) rfl hr).of_uploading hv
  | updateVideo id patch =>
      rcases hlaw with ⟨v, hsweep, hid, hpatch⟩ | ⟨job, hjob, hid, hpatch⟩
      · have hv := uploading_of_sweeping hb hsweep
        obtain ⟨_, y, hy, hstale⟩ := hsweep
        have hshown := VideoOp.shown_of_staleRows hstale
        rcases hpatch with ⟨rfl, _⟩ | ⟨rfl, _⟩
        · intro r hr
          exact (inTurn_of_unovertaken hb hkept hx hok rfl hy hshown hid
            hr).of_uploading hv
        · intro r hr
          have hturn := inTurn_of_unovertaken hb hkept hx hok rfl hy hshown
            hid hr
          apply hturn.failing
          rw [hv]
          decide
      · have hnot : ∀ r, b.state.row? id = some r →
            r.status ≠ .uploading := by
          intro r hr
          rw [← hid] at hr
          exact not_uploading_of_working hb hjob hr
        obtain ⟨_, _, y, hy, v, hop, hfetched, hv⟩ := hjob
        have hshown := VideoOp.shown_of_fetchedRow hfetched
        have hvid : v.id = id := by
          rw [← hid]
          exact id_of_fetched hb (mem_own.1 hy).1 hop hfetched
        rcases hpatch with rfl | ⟨seconds, rfl, _⟩
        · intro r hr
          exact (inTurn_of_unovertaken hb hkept hx hok rfl hy hshown hvid
            hr).failing hv
        · intro r hr
          have hturn := inTurn_of_unovertaken hb hkept hx hok rfl hy hshown
            hvid hr
          cases hstatus : r.status with
          | uploading => exact absurd hstatus (hnot r hr)
          | processing => exact .inl hstatus
          | ready =>
              obtain ⟨_, hsame⟩ := hturn.ready hstatus hv
              obtain ⟨_, hpatch⟩ := VideoOp.updateVideo.inj hsame
              exact .inr ⟨hstatus, congrArg VideoPatch.duration_seconds hpatch,
                congrArg VideoPatch.thumbnail_key hpatch⟩
          | failed =>
              have hfailed := hturn.failed hstatus (hturn.again rfl)
              exact absurd hfailed (by decide)
  | _ => trivial

/-- A write of a run that keeps the life cycle has not been overtaken. -/
theorem unovertaken_of_kept (h : Reachable (videoSystem cfg) anyRun {} c)
    (hkept : ∀ z ∈ c.log, LifecycleStep z.before z.after)
    {older : VideoLog} (hx : (x :: older) <:+ c.log) :
    WritesUnovertaken older x := by
  rintro ⟨id, status⟩ hwrites hok v since hread
  have hmem : x ∈ c.log := hx.subset (.head _)
  have hwrite : ServiceWrite x.op :=
    h.issued (Q := fun _ op => ServiceWrite op) (serve_issues cfg) hmem
  obtain ⟨b, fault, k, hb, rfl, hat, _⟩ := h.split_at hx
  have hold : ∀ z ∈ b.log, LifecycleStep z.before z.after :=
    fun z hz => hkept z (hx.subset (.tail _ hz))
  obtain ⟨r, hr, hsince⟩ := since_of_reachable hb hread
    fun z hz => hold z (hread.subset hz)
  have hstep := hkept x hmem
  rw [hat.eq] at hstep hwrite hok hwrites
  obtain ⟨r', hr', hrow⟩ := hstep id r hr
  obtain ⟨hstatus, hop⟩ := row_of_made hwrite hr hr' hok hwrites
  have hrid : r.id = id := Store.row?_id hr
  subst hrid
  constructor
  · intro z hz hmakes
    obtain ⟨hready, hsame⟩ := hsince.made_ready z hz hmakes
    obtain ⟨hready', hsame'⟩ := hrow.ready hready (Store.row?_id hr')
    have hmade : x.op = r'.readyWrite := by
      rw [hat.eq]
      exact hop (hstatus.symm.trans hready')
    rw [hsame, hmade, hsame']
  · intro z hz hmakes
    exact hstatus.symm.trans (hrow.failed (hsince.made_failed z hz hmakes))
  · intro hready hfailed
    have hfailed' : status = .failed :=
      hstatus.symm.trans (hrow.failed (failed_frozen hsince.path hfailed))
    cases hready.symm.trans hfailed'

/--
**The life cycle of every video.**  Over every interleaving of completions,
sweeps, deliveries and all other requests, with any calls failing: every change
of a row follows the life cycle, and ready rows keep their results, exactly
when no request that writes a status was overtaken since it read the row, and
none makes a row ready that it has read as failed.
-/
theorem lifecycle_iff_unovertaken
    (h : Reachable (videoSystem cfg) anyRun {} c) :
    (∀ x ∈ c.log, LifecycleStep x.before x.after) ↔
      AtEach WritesUnovertaken c.log := by
  constructor
  · exact fun hkept x older hx => unovertaken_of_kept h hkept hx
  · intro hturns
    -- answer by answer, from the start of the run
    suffices hkept : ∀ log : VideoLog, log <:+ c.log →
        ∀ x ∈ log, LifecycleStep x.before x.after from
      hkept c.log (List.suffix_refl _)
    intro log
    induction log with
    | nil => exact fun _ => List.forall_mem_nil _
    | cons x older ih =>
        intro hx
        have hold := ih ((List.suffix_cons x older).trans hx)
        refine List.forall_mem_cons.2 ⟨?_, hold⟩
        obtain ⟨b, fault, k, hb, rfl, hat, _⟩ := h.split_at hx
        rw [lifecycleStep_iff_timely h (hx.subset (.head _)), hat.before_eq]
        exact timely_of_unovertaken hb hold (traced_of_reachable h x b.log hx)
          (hturns x b.log hx)

end Writes

/-- A draft that is completed at once and processed keeps the life cycle. -/
theorem lifecycle_of_promptCompletion :
    (∀ x ∈ promptCompletion.log, LifecycleStep x.before x.after) ∧
      (promptCompletion.state.row? 0).map Video.status = some .ready := by
  have h : Reachable (videoSystem {}) anyRun {} promptCompletion :=
    reachable_videoRun _ _
  constructor
  · exact (lifecycle_iff_unovertaken h).2 (by decide)
  · decide

/-! ## Completions alone -/

section Completions

variable {cfg : VideoConfig} {P : VideoPolicy} {c : VideoRun}

/-- An object that was assembled is there. -/
theorem object_of_assembled (h : Reachable (videoSystem cfg) P {} c)
    {x : VideoEntry} (hx : x ∈ c.log) {key : String}
    (hkey : x.op.assembledKey = some key) (hok : x.res.isOk = true) :
    (c.state.objects key).isSome = true := by
  apply isSome_objects_of_after h hx
  obtain ⟨hres, hafter⟩ := h.entry_exec_of_ok hx hok
  obtain ⟨id, parts, hop⟩ := VideoOp.eq_of_assembledKey hkey
  have hassembled : (Store.exec x.amb x.op x.before).1.isOk = true := by
    rw [hres] at hok
    exact hok
  rw [isOk_assemble hop] at hassembled
  obtain ⟨⟨u, size⟩, hcompletable⟩ := Option.isSome_iff_exists.1 hassembled
  have hexec : (videoSystem cfg).exec x.amb x.op x.before =
      Store.exec x.amb x.op x.before := rfl
  rw [hafter, hexec, hop, Store.exec, Store.completeMultipartUpload,
    hcompletable]
  simp only [Store.putObject, Function.update_self, Option.isSome_some]

/-- One call assembles an object. -/
theorem assembled_unique (h : Reachable (videoSystem cfg) P {} c)
    {x y : VideoEntry} (hx : x ∈ c.log) (hy : y ∈ c.log) {key : String}
    (hxkey : x.op.assembledKey = some key) (hxok : x.res.isOk = true)
    (hykey : y.op.assembledKey = some key) (hyok : y.res.isOk = true) :
    x = y := by
  have hnever : ∀ {x y : VideoEntry} {older : VideoLog},
      (x :: older) <:+ c.log → y ∈ older → x.op.assembledKey = some key →
      x.res.isOk = true → y.op.assembledKey = some key →
      y.res.isOk = false := by
    intro x y older hsuffix hmem hkey hok hkey'
    rw [← Bool.not_eq_true]
    intro hok'
    obtain ⟨b, fault, k, hb, rfl, hat, _⟩ := h.split_at hsuffix
    have hobject := object_of_assembled hb hmem hkey' hok'
    have hnone := absent_of_assembled h (hsuffix.subset (.head _)) hkey hok
    rw [hat.before_eq] at hnone
    rw [hnone] at hobject
    cases hobject
  rcases older_or_newer hx hy with heq | ⟨older, hs, hmem⟩ | ⟨older, hs, hmem⟩
  · exact heq
  · exact nomatch hyok.symm.trans (hnever hs hmem hxkey hxok hykey)
  · exact nomatch hxok.symm.trans (hnever hs hmem hykey hyok hxkey)

/-- Copies of one video share its storage key. -/
theorem Known.storage_key_eq (h : Reachable (videoSystem cfg) P {} c)
    {v w : Video} (hv : Known c.log v) (hw : Known c.log w)
    (hid : v.id = w.id) : v.storage_key = w.storage_key := by
  obtain ⟨r₀, hr₀, hdesc⟩ := hv
  obtain ⟨r₁, hr₁, hdesc'⟩ := hw
  have hsame : r₀ = r₁ := by
    apply (provenance_of_reachable h).1.unique_id r₀ r₁ hr₀ hr₁
    rw [← hdesc.id, ← hdesc'.id, hid]
  rw [hdesc.storage_key, hdesc'.storage_key, hsame]

/-- A draft is inserted with its upload. -/
theorem upload_ne_none_of_inserted (h : Reachable (videoSystem cfg) P {} c)
    {r₀ : Video} (hr₀ : Inserted c.log r₀) : r₀.upload_id ≠ none := by
  obtain ⟨x, hx, hrow⟩ := hr₀
  obtain ⟨v, hop, _, rfl⟩ := (insertedRow_iff h hx).1 hrow
  obtain ⟨older, _, hlaw⟩ := (traced_of_reachable h).at_mem hx
  rw [hop] at hlaw
  obtain ⟨_, _, _, id, _, _, hupload⟩ := hlaw
  rw [Store.newRow, hupload]
  exact Option.some_ne_none id

/-- A row without its upload was marked. -/
theorem marked_of_closed (h : Reachable (videoSystem cfg) P {} c) {r₀ : Video}
    (hr₀ : Inserted c.log r₀) {r : Video} (hr : c.state.row? r₀.id = some r)
    (hclosed : r.upload_id = none) :
    ∃ y ∈ c.log, y.op.marked y.res = some r₀.id := by
  by_contra hnone
  have hunmarked : Unmarked c.log r₀.id :=
    fun y hy hmark => hnone ⟨y, hy, hmark⟩
  have hopen := upload_ne_none_of_inserted h hr₀
  rcases row_of_unmarked h hr₀ hunmarked with ⟨_, hrow⟩ | ⟨_, hrow⟩
  · cases hr.symm.trans hrow
    exact hopen hclosed
  · cases hr.symm.trans hrow
    exact hopen hclosed

/-- A mark that is not a sweep's is the save of a completion that has
assembled the object, and has written nothing before. -/
theorem completion_of_marked (h : Reachable (videoSystem cfg) P {} c)
    {x : VideoEntry} {older : VideoLog} (hx : (x :: older) <:+ c.log)
    (hno : x.request ≠ .sweep) {id : Nat}
    (hmark : x.op.marked x.res = some id) :
    x.op.rewritesRow = true ∧ ∃ v, Known older v ∧ v.id = id ∧
      (∃ y ∈ own x.tid older, y.op.assembledKey = some v.storage_key ∧
        y.res.isOk = true) ∧
      ∀ y ∈ own x.tid older, y.op.rewritesRow = false := by
  have hlaw := traced_of_reachable h x older hx
  obtain ⟨b, fault, k, hb, rfl, hat, _⟩ := h.split_at hx
  obtain ⟨tid, request, amb, op, before, res, after⟩ := x
  cases op with
  | saveVideo w =>
      obtain ⟨v, hv, rfl, _, ⟨y, hy, id', parts, hop, hok⟩, hunwritten⟩ := hlaw
      have hid : v.id = id := by
        cases res with
        | ok u => exact Option.some.inj hmark
        | error e => exact nomatch hmark
      refine ⟨rfl, v, known_of_held hb (List.suffix_refl _) (.inl hv), hid,
        ⟨y, hy, ?_, hok⟩, hunwritten⟩
      rw [hop]
      rfl
  | updateVideo key patch =>
      obtain ⟨rfl, _⟩ := VideoOp.marked_update hmark
      rcases hlaw with ⟨_, hsweep, _⟩ | ⟨_, _, _, hfailed | ⟨_, hready, _⟩⟩
      · exact absurd hsweep.1 hno
      · exact absurd hfailed (by decide)
      · exact absurd (congrArg VideoPatch.upload_id hready) nofun
  | _ => exact nomatch hmark

/--
**Marks of completions.**  In a run without sweeps, whatever overlaps and
whatever fails: every mark finds its draft open, since only one completion
call gets to assemble the object.
-/
theorem marksOpen_of_completions (h : Reachable (videoSystem cfg) P {} c)
    (hno : ∀ x ∈ c.log, x.request ≠ .sweep) (id : Nat) :
    ∀ x ∈ c.log, MarksOpen id x := by
  intro x hx hmark r hr hclosed
  obtain ⟨older, hsuffix⟩ := older_of_mem hx
  obtain ⟨_, v, hv, hid, ⟨y, hy, hykey, hyok⟩, hunwritten⟩ :=
    completion_of_marked h hsuffix (hno x hx) hmark
  obtain ⟨b, fault, k, hb, rfl, hat, _⟩ := h.split_at hsuffix
  rw [hat.before_eq, ← hid] at hr
  -- another call has marked the draft before
  have ⟨r₀, hr₀, hdesc⟩ := hv
  rw [hdesc.id] at hr
  obtain ⟨x', hx', hmark'⟩ := marked_of_closed hb hr₀ hr hclosed
  obtain ⟨older', hsuffix'⟩ := older_of_mem hx'
  have holder : older' <:+ b.log := (List.suffix_cons x' older').trans hsuffix'
  obtain ⟨hwrites, w, hw, hid', ⟨y', hy', hykey', hyok'⟩, _⟩ :=
    completion_of_marked hb hsuffix'
      (hno x' (hsuffix.subset (.tail _ hx'))) hmark'
  have hkey : w.storage_key = v.storage_key := by
    apply Known.storage_key_eq hb (hw.mono holder) hv
    rw [hid', hdesc.id]
  rw [hkey] at hykey'
  -- and it is the same call
  have hsame := assembled_unique hb (mem_own.1 hy).1
    (holder.subset (mem_own.1 hy').1) hykey hyok hykey' hyok'
  have htid : x'.tid = x.tid := by
    rw [← (mem_own.1 hy').2, ← hsame, (mem_own.1 hy).2]
  have hunwritten' := hunwritten x' (mem_own.2 ⟨hx', htid⟩)
  exact nomatch hwrites.symm.trans hunwritten'

end Completions

end Videum.Videos
