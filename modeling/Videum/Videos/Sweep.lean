import Mathlib.Data.List.Induction
import Videum.Async.Alone
import Videum.Videos.Lifecycle
import Videum.Videos.Traces

/-!
# One sweep

The reconciliation sweep goes through the stale drafts one by one and catches
what fails.  What becomes of a draft depends on its own row, on its object and
on its own calls: the sweep does to the table, and to the queue, what
`reconcile` does to every stale draft by itself.

## Main results

* `reconciled_eq` — what `reconcile` does with one row.
* `sweepAll_videos`, `sweepAll_waiting` — and with a list of rows.
* `sweep_pointwise` — one sweep, for every table, storage and assignment of
  failures.
-/

namespace Videum.Videos

open Videum.Async

/-! ## Failures -/

/-- Which calls fail, and with which error. -/
abbrev Failures := VideoOp → Option VideoError

/-- A call that fails has no effect. -/
def execFailing (fails : Failures) (m : Moment) (op : VideoOp) (s : Store) :
    Except VideoError op.Res × Store :=
  match fails op with
  | some e => (.error e, s)
  | none => Store.exec m op s

/-- The upload flow in which these calls fail and no others. -/
def failingSystem (cfg : VideoConfig) (fails : Failures) :
    System VideoIface Moment VideoError Store VideoRequest VideoReply where
  exec := execFailing fails
  guard _ _ _ _ := true
  body := serve cfg

/-- Any request at any time. -/
def nothingElseFails : VideoPolicy where
  accepts _ _ := True
  fault _ _ := false

/-- The calls the sweep makes for the row `v`. -/
def VideoOp.isFor (v : Video) : VideoOp → Bool
  | .headObject key => key == v.storage_key
  | .updateVideo id _ => id == v.id
  | .addJob job => job == ⟨v.id, v.storage_key⟩
  | _ => false

/-! ## One row -/

/-- The stores after `reconcile` by itself. -/
def reconciled (fails : Failures) (m : Moment) (s : Store) (v : Video) :
    Store :=
  ((reconcile v).eval (execFailing fails) m s).2

/-- What is written to the row of a draft, and the jobs that are enqueued. -/
structure Settlement where
  patch : Option VideoPatch := none
  jobs : List ProcessVideoJobData := []

/-- What becomes of the draft `v`. -/
def settlement (fails : Failures) (objects : String → Option Nat)
    (v : Video) : Settlement :=
  if (fails (.headObject v.storage_key)).isSome then {}
  else
    match objects v.storage_key with
    | some _ =>
        if (fails (.updateVideo v.id rescuePatch)).isSome then {}
        else if (fails (.addJob ⟨v.id, v.storage_key⟩)).isSome then
          { patch := some rescuePatch }
        else
          { patch := some rescuePatch, jobs := [⟨v.id, v.storage_key⟩] }
    | none =>
        if (fails (.updateVideo v.id failedPatch)).isSome then {}
        else { patch := some failedPatch }

/-- Write a settlement. -/
def Store.settle (s : Store) (id : Nat) (o : Settlement) : Store :=
  { (match o.patch with
      | some patch => s.updateVideo id patch
      | none => s) with
    waiting := s.waiting ++ o.jobs }

@[simp] theorem Store.settle_nothing (s : Store) (id : Nat) :
    s.settle id {} = s := by
  simp [settle]

@[simp] theorem Store.settle_patch (s : Store) (id : Nat)
    (patch : VideoPatch) :
    s.settle id { patch := some patch } = s.updateVideo id patch := by
  simp [settle, updateVideo]

theorem execFailing_some {fails : Failures} {m : Moment} {op : VideoOp}
    {e : VideoError} (h : fails op = some e) (s : Store) :
    execFailing fails m op s = (.error e, s) := by
  rw [execFailing, h]

theorem execFailing_none {fails : Failures} {m : Moment} {op : VideoOp}
    (h : fails op = none) (s : Store) :
    execFailing fails m op s = Store.exec m op s := by
  rw [execFailing, h]

/-- A draft whose object is there. -/
theorem rescued_eq (fails : Failures) (m : Moment) (s : Store) (v : Video)
    {size : Nat} (hhead : fails (.headObject v.storage_key) = none)
    (hobject : s.objects v.storage_key = some size) :
    reconciled fails m s v = s.settle v.id (settlement fails s.objects v) := by
  have hfound : execFailing fails m (.headObject v.storage_key) s =
      (.ok (some size), s) := by
    rw [execFailing_none hhead, Store.exec, hobject]
  have hsettlement : settlement fails s.objects v =
      if (fails (.updateVideo v.id rescuePatch)).isSome then {}
      else if (fails (.addJob ⟨v.id, v.storage_key⟩)).isSome then
        { patch := some rescuePatch }
      else { patch := some rescuePatch, jobs := [⟨v.id, v.storage_key⟩] } := by
    rw [settlement, hhead, hobject]
    rfl
  have hrest : (reconcile v).eval (execFailing fails) m s =
      (await (.updateVideo v.id rescuePatch) >>= fun _ =>
        await (.addJob ⟨v.id, v.storage_key⟩)).eval (execFailing fails) m s := by
    rw [reconcile, Prog.eval_call_ok hfound]
    rfl
  rw [hsettlement, reconciled, hrest]
  cases hupdate : fails (.updateVideo v.id rescuePatch) with
  | some e =>
      rw [Prog.eval_call_error (execFailing_some hupdate s)]
      simp
  | none =>
      rw [Prog.eval_call_ok (execFailing_none hupdate s), Prog.eval_call]
      cases hadd : fails (.addJob ⟨v.id, v.storage_key⟩) with
      | some e =>
          rw [execFailing_some hadd]
          simp
      | none =>
          rw [execFailing_none hadd]
          rfl

/-- A draft whose object is not. -/
theorem failed_eq (fails : Failures) (m : Moment) (s : Store) (v : Video)
    (hhead : fails (.headObject v.storage_key) = none)
    (hobject : s.objects v.storage_key = none) :
    reconciled fails m s v = s.settle v.id (settlement fails s.objects v) := by
  have hmissed : execFailing fails m (.headObject v.storage_key) s =
      (.ok none, s) := by
    rw [execFailing_none hhead, Store.exec, hobject]
  have hsettlement : settlement fails s.objects v =
      if (fails (.updateVideo v.id failedPatch)).isSome then {}
      else { patch := some failedPatch } := by
    rw [settlement, hhead, hobject]
    rfl
  have hrest : (reconcile v).eval (execFailing fails) m s =
      (await (.updateVideo v.id failedPatch)).eval (execFailing fails) m s := by
    rw [reconcile, Prog.eval_call_ok hmissed]
    rfl
  rw [hsettlement, reconciled, hrest, Prog.eval_call]
  cases hupdate : fails (.updateVideo v.id failedPatch) with
  | some e =>
      rw [execFailing_some hupdate]
      simp
  | none =>
      rw [execFailing_none hupdate, Store.exec_updateVideo_of_fits rfl]
      simp

theorem reconciled_eq (fails : Failures) (m : Moment) (s : Store)
    (v : Video) :
    reconciled fails m s v = s.settle v.id (settlement fails s.objects v) := by
  cases hhead : fails (.headObject v.storage_key) with
  | some e =>
      have hnothing : settlement fails s.objects v = {} := by
        rw [settlement, hhead]
        rfl
      rw [hnothing, reconciled, reconcile,
        Prog.eval_call_error (execFailing_some hhead s)]
      simp
  | none =>
      cases hobject : s.objects v.storage_key with
      | some size => exact rescued_eq fails m s v hhead hobject
      | none => exact failed_eq fails m s v hhead hobject

/-! ## All of them -/

/-- `reconcile` applied to one row after the other. -/
def sweepAll (fails : Failures) (m : Moment) (rows : List Video) (s : Store) :
    Store :=
  rows.foldl (reconciled fails m) s

/-- The row after its settlement. -/
def Settlement.row (o : Settlement) (v : Video) : Video :=
  match o.patch with
  | some patch => patch.apply v
  | none => v

theorem VideoPatch.apply_apply (p : VideoPatch) (v : Video) :
    p.apply (p.apply v) = p.apply v := by
  obtain ⟨status, upload_id, duration, thumbnail⟩ := p
  cases status <;> cases upload_id <;> cases duration <;> cases thumbnail <;>
    rfl

@[simp] theorem Settlement.row_id (o : Settlement) (v : Video) :
    (o.row v).id = v.id := by
  unfold row
  cases o.patch <;> rfl

theorem Settlement.row_row (o : Settlement) (v : Video) :
    o.row (o.row v) = o.row v := by
  unfold row
  cases o.patch with
  | none => rfl
  | some patch => exact patch.apply_apply v

theorem Store.settle_eq (s : Store) (id : Nat) (o : Settlement) :
    s.settle id o = { s with
      videos := s.videos.map fun r => if r.id = id then o.row r else r
      waiting := s.waiting ++ o.jobs } := by
  unfold settle Settlement.row
  cases o.patch with
  | none => simp
  | some patch => rfl

theorem Store.Keyed.unique {s : Store} (h : s.Keyed) {a b : Video}
    (ha : a ∈ s.videos) (hb : b ∈ s.videos) (hid : a.id = b.id) : a = b := by
  have hfound := h.found a ha
  rw [hid, h.found b hb] at hfound
  exact (Option.some.inj hfound).symm

/-- The rows that are reconciled are written independently of each other, and
of the order. -/
theorem sweepAll_eq (fails : Failures) (m : Moment) {s : Store}
    (hkeyed : s.Keyed) {rows : List Video} (hrows : rows ⊆ s.videos) :
    sweepAll fails m rows s = { s with
      videos := s.videos.map fun r =>
        if r ∈ rows then (settlement fails s.objects r).row r else r
      waiting := s.waiting ++
        rows.flatMap fun v => (settlement fails s.objects v).jobs } := by
  induction rows using List.reverseRecOn with
  | nil => simp [sweepAll]
  | append_singleton rows v ih =>
      have hv : v ∈ s.videos := hrows (List.mem_append_right _ (.head _))
      have hfirst := ih fun r hr => hrows (List.mem_append_left _ hr)
      have hlast : sweepAll fails m (rows ++ [v]) s =
          reconciled fails m (sweepAll fails m rows s) v := by
        rw [sweepAll, List.foldl_append]
        rfl
      rw [hlast, hfirst, reconciled_eq, Store.settle_eq]
      have hvideos : (s.videos.map fun r =>
            if r ∈ rows then (settlement fails s.objects r).row r else r).map
          (fun r => if r.id = v.id then (settlement fails s.objects v).row r
            else r) =
          s.videos.map fun r => if r ∈ rows ++ [v] then
            (settlement fails s.objects r).row r else r := by
        rw [List.map_map]
        apply List.map_congr_left
        intro r hr
        by_cases hid : r.id = v.id
        · have hsame : r = v := hkeyed.unique hr hv hid
          subst hsame
          -- a row that is reconciled twice is written the same columns again
          by_cases hmem : r ∈ rows
          · simp [hmem, Settlement.row_row]
          · simp [hmem]
        · have hne : r ≠ v := fun heq => hid (congrArg Video.id heq)
          by_cases hmem : r ∈ rows
          · simp [hmem, hid]
          · simp [hmem, hid, hne]
      dsimp only
      rw [hvideos, List.append_assoc, List.flatMap_append,
        List.flatMap_singleton]

/-! ## Each by itself -/

/-- The draft is past the timeout. -/
def Video.isStale (cutoff : Int) (r : Video) : Bool :=
  decide (r.status = .uploading ∧ r.created_at < cutoff)

def Store.staleDrafts (s : Store) (cutoff : Int) : List Video :=
  s.videos.filter (Video.isStale cutoff)

/-- The row after `reconcile` by itself. -/
def rowAlone (fails : Failures) (m : Moment) (s : Store) (v : Video) : Video :=
  ((reconciled fails m s v).row? v.id).getD v

/-- The jobs that `reconcile` has enqueued by itself. -/
def jobsAlone (fails : Failures) (m : Moment) (s : Store) (v : Video) :
    List ProcessVideoJobData :=
  (reconciled fails m s v).waiting.drop s.waiting.length

theorem rowAlone_eq (fails : Failures) (m : Moment) {s : Store}
    (hkeyed : s.Keyed) {v : Video} (hv : v ∈ s.videos) :
    rowAlone fails m s v = (settlement fails s.objects v).row v := by
  have hfound := hkeyed.found v hv
  rw [rowAlone, reconciled_eq]
  unfold Store.settle Settlement.row
  cases (settlement fails s.objects v).patch with
  | none =>
      show (s.row? v.id).getD v = v
      rw [hfound, Option.getD_some]
  | some patch =>
      show ((s.updateVideo v.id patch).row? v.id).getD v = patch.apply v
      rw [Store.row?_updateVideo, hfound, Option.map_some, if_pos rfl,
        Option.getD_some]

theorem jobsAlone_eq (fails : Failures) (m : Moment) (s : Store) (v : Video) :
    jobsAlone fails m s v = (settlement fails s.objects v).jobs := by
  rw [jobsAlone, reconciled_eq, Store.settle_eq, List.drop_left]

/-- `s'` is `s` with every stale draft reconciled by itself: every other row
is unchanged, and so is all but the table and the queue. -/
structure ReconciledEach (fails : Failures) (m : Moment) (cutoff : Int)
    (s s' : Store) : Prop where
  videos : s'.videos = s.videos.map fun r =>
    if r.isStale cutoff then rowAlone fails m s r else r
  waiting : s'.waiting.Perm (s.waiting ++
    (s.staleDrafts cutoff).flatMap (jobsAlone fails m s))
  rest : s' = { s with videos := s'.videos, waiting := s'.waiting }

/-- In any order. -/
theorem sweepAll_each (fails : Failures) (m : Moment) {cutoff : Int}
    {s : Store} (hkeyed : s.Keyed) {rows : List Video}
    (hrows : rows.Perm (s.staleDrafts cutoff)) :
    ReconciledEach fails m cutoff s (sweepAll fails m rows s) := by
  have hmem : ∀ r ∈ rows, r ∈ s.videos := fun r hr =>
    (List.mem_filter.1 (hrows.mem_iff.1 hr)).1
  have heq := sweepAll_eq fails m hkeyed hmem
  constructor
  · rw [heq]
    apply List.map_congr_left
    intro r hr
    have hiff : r ∈ rows ↔ r.isStale cutoff = true := by
      rw [hrows.mem_iff, Store.staleDrafts, List.mem_filter, and_iff_right hr]
    rw [rowAlone_eq fails m hkeyed hr]
    exact if_congr hiff rfl rfl
  · rw [heq]
    apply List.Perm.append_left
    have hjobs : (s.staleDrafts cutoff).flatMap (jobsAlone fails m s) =
        (s.staleDrafts cutoff).flatMap
          fun v => (settlement fails s.objects v).jobs :=
      List.flatMap_congr fun v _ => jobsAlone_eq fails m s v
    rw [hjobs]
    exact hrows.flatMap_right _
  · rw [heq]

/-! ## The sweep -/

/-- A sweep finds the stores in state `s` and ends with `r` in `c'`, and no
other program runs. -/
def SweepsAlone (cfg : VideoConfig) (fails : Failures) (s : Store) (m : Moment)
    (r : Except VideoError VideoReply) (c' : VideoRun) : Prop :=
  Steps (failingSystem cfg fails) nothingElseFails
      ((failingSystem cfg fails).spawn (Config.start s) .sweep m) c' ∧
    c'.threads = [⟨.sweep, Prog.ofExcept r⟩]

/-- What was created before it is stale. -/
def cutoffOf (cfg : VideoConfig) (m : Moment) : Int :=
  m.now - cfg.abandonedUploadTimeoutMs

/-- The answers of a sweep do not depend on the clock. -/
def VideoOp.Clockless (op : VideoOp) : Prop :=
  ∀ m m' s, Store.exec m op s = Store.exec m' op s

theorem reconcile_clockless (v : Video) :
    (reconcile v).Issues VideoOp.Clockless := by
  apply Prog.Issues.bind (.call fun _ _ _ => rfl)
  intro head
  cases head with
  | none => exact .call fun _ _ _ => rfl
  | some size =>
      exact Prog.Issues.bind (.call fun _ _ _ => rfl) fun _ =>
        .call fun _ _ _ => rfl

theorem reconcile_timeless (v : Video) : (reconcile v).Timeless := by
  apply Prog.Timeless.bind (Prog.timeless_call _)
  intro head
  cases head with
  | none => exact Prog.timeless_call _
  | some size =>
      exact Prog.Timeless.bind (Prog.timeless_call _) fun _ =>
        Prog.timeless_call _

/-- The sweep, once it has worked out its cutoff. -/
def sweepFrom (cutoff : Int) : VideoProg Unit := do
  let stale ← await (.findStaleVideos cutoff)
  Prog.forEach stale fun video =>
    Prog.tryCatch (reconcile video) fun _ => Prog.pure ()

theorem sweepFrom_clockless (cutoff : Int) :
    (sweepFrom cutoff).Issues VideoOp.Clockless := by
  apply Prog.Issues.bind (.call fun _ _ _ => rfl)
  intro stale
  exact .forEach fun v _ => (reconcile_clockless v).tryCatch fun _ => trivial

theorem sweepFrom_timeless (cutoff : Int) : (sweepFrom cutoff).Timeless := by
  apply Prog.Timeless.bind (Prog.timeless_call _)
  intro stale
  exact .forEach fun v => (reconcile_timeless v).tryCatch fun _ => trivial

/-- The stores after a sweep. -/
def swept (fails : Failures) (m : Moment) (cutoff : Int) (s : Store) : Store :=
  match fails (.findStaleVideos cutoff) with
  | some _ => s
  | none => sweepAll fails m (s.staleDrafts cutoff) s

theorem sweepFrom_eval (fails : Failures) (m : Moment) (cutoff : Int)
    (s : Store) :
    ((sweepFrom cutoff).eval (execFailing fails) m s).2 =
      swept fails m cutoff s := by
  unfold swept
  cases hfind : fails (.findStaleVideos cutoff) with
  | some e =>
      rw [sweepFrom, Prog.eval_call_error (execFailing_some hfind s)]
  | none =>
      rw [sweepFrom, Prog.eval_call_ok (execFailing_none hfind s),
        Prog.eval_forEach_tryCatch]
      rfl

theorem sweep_alone {cfg : VideoConfig} {fails : Failures} {s : Store}
    {m : Moment} {log : VideoLog} :
    alone (failingSystem cfg fails) nothingElseFails 0 .sweep
      (fun _ _ s' _ =>
        s' = swept fails m (cutoffOf cfg m) s)
      (serve cfg .sweep) m s log := by
  have hclock : ∀ op : VideoOp, op.Clockless → ∀ m m' s,
      execFailing fails m op s = execFailing fails m' op s := by
    intro op hop m m' s
    unfold execFailing
    rw [hop m m' s]
  have hsweep : alone (failingSystem cfg fails) nothingElseFails 0 .sweep
      (fun _ _ s' _ =>
        s' = swept fails m (cutoffOf cfg m) s)
      (sweepFrom (cutoffOf cfg m)) m s log :=
    alone_of_timeless (fun _ _ => rfl) hclock (sweepFrom_clockless _)
      (sweepFrom_timeless _) m fun _ _ => sweepFrom_eval fails m _ s
  exact alone_map hsweep (fun _ _ _ _ h => h) fun _ _ _ _ h => h

theorem SweepsAlone.state_eq {cfg : VideoConfig} {fails : Failures}
    {s : Store} {m : Moment} {r : Except VideoError VideoReply} {c' : VideoRun}
    (h : SweepsAlone cfg fails s m r c') :
    c'.state = swept fails m (cutoffOf cfg m) s := by
  obtain ⟨hsteps, hthreads⟩ := h
  obtain ⟨_, hend⟩ := hsteps.ended_alone rfl hthreads sweep_alone
  exact hend

/-! ## Rows do not meet -/

/-- What becomes of a row depends on its own calls only. -/
theorem settlement_congr {fails fails' : Failures} {v : Video}
    (h : ∀ op : VideoOp, op.isFor v = true → fails' op = fails op)
    (objects : String → Option Nat) :
    settlement fails' objects v = settlement fails objects v := by
  have hhead := h (.headObject v.storage_key) (by simp [VideoOp.isFor])
  have hupdate : ∀ patch, fails' (.updateVideo v.id patch) =
      fails (.updateVideo v.id patch) :=
    fun patch => h _ (by simp [VideoOp.isFor])
  have hadd := h (.addJob ⟨v.id, v.storage_key⟩) (by simp [VideoOp.isFor])
  simp only [settlement, hhead, hupdate, hadd]

/-- A draft none of whose calls has failed is no draft any more. -/
theorem isStale_row {fails : Failures} {v : Video}
    (h : ∀ op : VideoOp, op.isFor v = true → fails op = none)
    (objects : String → Option Nat) (cutoff : Int) :
    ((settlement fails objects v).row v).isStale cutoff = false := by
  have hnone : settlement fails objects v =
      settlement (fun _ => none) objects v := by
    apply settlement_congr
    exact h
  rw [hnone, settlement]
  cases objects v.storage_key <;> rfl

theorem staleDrafts_sweepAll {fails : Failures} {m : Moment} {cutoff : Int}
    {s : Store} (hkeyed : s.Keyed)
    (hfree : ∀ v ∈ s.staleDrafts cutoff, ∀ op : VideoOp, op.isFor v = true →
      fails op = none) :
    (sweepAll fails m (s.staleDrafts cutoff) s).staleDrafts cutoff = [] := by
  rw [Store.staleDrafts, (sweepAll_each fails m hkeyed (.refl _)).videos,
    List.filter_eq_nil_iff]
  intro r' hr'
  obtain ⟨r, hr, rfl⟩ := List.mem_map.1 hr'
  by_cases hstale : r.isStale cutoff = true
  · rw [if_pos hstale, rowAlone_eq fails m hkeyed hr,
      isStale_row (hfree r (List.mem_filter.2 ⟨hr, hstale⟩))]
    exact Bool.false_ne_true
  · rw [if_neg hstale]
    exact hstale

/--
**One sweep.**  For every table, storage, clock and assignment of failures to
calls, a sweep that runs alone leaves every stale draft as `reconcile` leaves
it by itself, and everything else as it was.  The order of the drafts does not
matter to the table, nor to the jobs but for their order; what fails for one
draft does not matter to another; and after a sweep in which nothing has
failed, another one at the same cutoff changes nothing.
-/
theorem sweep_pointwise {cfg : VideoConfig} {fails : Failures} {s : Store}
    {m : Moment} {r : Except VideoError VideoReply} {c' : VideoRun}
    (h : SweepsAlone cfg fails s m r c') (hkeyed : s.Keyed)
    (hfind : fails (.findStaleVideos (cutoffOf cfg m)) = none) :
    ReconciledEach fails m (cutoffOf cfg m) s c'.state ∧
    (∀ rows : List Video, rows.Perm (s.staleDrafts (cutoffOf cfg m)) →
      (sweepAll fails m rows s).videos = c'.state.videos ∧
        (sweepAll fails m rows s).waiting.Perm c'.state.waiting) ∧
    (∀ (fails' : Failures), ∀ v ∈ s.videos,
      (∀ op : VideoOp, op.isFor v = true → fails' op = fails op) →
        rowAlone fails' m s v = rowAlone fails m s v ∧
          jobsAlone fails' m s v = jobsAlone fails m s v) ∧
    ((∀ v ∈ s.staleDrafts (cutoffOf cfg m), ∀ op : VideoOp,
        op.isFor v = true → fails op = none) →
      ∀ (fails' : Failures) (m' : Moment) (r' : Except VideoError VideoReply)
        (c'' : VideoRun), cutoffOf cfg m' = cutoffOf cfg m →
        SweepsAlone cfg fails' c'.state m' r' c'' → c''.state = c'.state) := by
  have hstate : c'.state =
      sweepAll fails m (s.staleDrafts (cutoffOf cfg m)) s := by
    rw [h.state_eq, swept, hfind]
  rw [hstate]
  have heach := sweepAll_each fails m hkeyed
    (.refl (s.staleDrafts (cutoffOf cfg m)))
  refine ⟨heach, ?_, ?_, ?_⟩
  · intro rows hrows
    have hother := sweepAll_each fails m hkeyed hrows
    exact ⟨hother.videos.trans heach.videos.symm,
      hother.waiting.trans heach.waiting.symm⟩
  · intro fails' v hv hagree
    rw [rowAlone_eq fails' m hkeyed hv, rowAlone_eq fails m hkeyed hv,
      jobsAlone_eq, jobsAlone_eq, settlement_congr hagree]
    exact ⟨rfl, rfl⟩
  · intro hfree fails' m' r' c'' hcutoff h'
    rw [h'.state_eq, hcutoff, swept]
    cases fails' (.findStaleVideos (cutoffOf cfg m)) with
    | some e => rfl
    | none =>
        dsimp only
        rw [staleDrafts_sweepAll hkeyed hfree]
        rfl

def draftRow (id : Nat) (key : String) (created_at : Int) : Video :=
  ⟨id, key, 1, "title", "file", key, some id, 5, "video/mp4", .uploading, none,
    none, created_at⟩

/-- Two stale drafts whose objects are there, and a recent one. -/
def threeDrafts : Store where
  videos := [draftRow 0 "a" 0, draftRow 1 "b" 0, draftRow 2 "c" 9]
  nextVideoId := 3
  objects key := if key = "c" then none else some 5

/-- The row of the first draft cannot be updated. -/
def firstFails : Failures
  | .updateVideo 0 _ => some .database
  | _ => none

/-- A sweep one millisecond after the two have become stale. -/
def sweptRun : VideoRun :=
  ((failingSystem {} firstFails).schedule nothingElseFails
    ((failingSystem {} firstFails).spawn (Config.start threeDrafts) .sweep
      { now := 3600001 })
    (Tick.answers 0 6 { now := 3600001 })).get (by decide)

theorem sweepsAlone_sweptRun :
    SweepsAlone {} firstFails threeDrafts { now := 3600001 } (.ok .done)
      sweptRun :=
  ⟨Steps.of_schedule (Tick.answers 0 6 { now := 3600001 })
    (Option.some_get _).symm (by simp [Tick.answers, System.Admitted]), rfl⟩

theorem sweep_pointwise_of_sweptRun :
    ReconciledEach firstFails { now := 3600001 } 1 threeDrafts sweptRun.state ∧
      sweptRun.state.videos.map Video.status =
        [.uploading, .processing, .uploading] :=
  ⟨(sweep_pointwise sweepsAlone_sweptRun ⟨by decide, by decide⟩ rfl).1,
    by decide⟩

end Videum.Videos
