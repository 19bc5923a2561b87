import Videum.Async.Turns
import Videum.Videos.SizeIntegrity
import Videum.Videos.Traces

/-!
# The processing trigger

A completion call or a sweep marks its draft `processing`, which clears the
upload id, and then enqueues the draft's job.  Both decide on a copy they read
earlier, so two of them may mark the same draft.  A draft that has been marked
never gets its upload id back; as long as every mark finds it still there,
nobody else has marked the draft and it gets one job at most.  Completion
calls alone meet this, as `Videum.Videos.Overlaps` shows: only one of them gets
to assemble the object.

## Main results

* `Closed.answer` — a marked draft stays without its upload id.
* `one_job` — runs whose marks find their draft open enqueue one job.
* `two_jobs` — a completion that overlaps a sweep enqueues a second one.
-/

namespace Videum.Videos

open Videum.Async

/-- The video an answer has enqueued a job for. -/
def VideoOp.enqueued : (op : VideoOp) → Except VideoError op.Res → Option Nat
  | .addJob job, .ok _ => some job.video_id
  | _, _ => none

/-- The answer has enqueued a job for the video `id`. -/
def Enqueues (id : Nat) (x : VideoEntry) : Bool :=
  x.op.enqueued x.res == some id

/-- A mark of the draft `id` finds it open: nobody has cleared its upload
id. -/
def MarksOpen (id : Nat) (x : VideoEntry) : Prop :=
  x.op.marked x.res = some id →
    ∀ r ∈ x.before.row? id, r.upload_id ≠ none

instance (id : Nat) (x : VideoEntry) : Decidable (MarksOpen id x) :=
  inferInstanceAs (Decidable (_ → ∀ r ∈ x.before.row? id, _))

/-- Every draft that was marked is there, without its upload id. -/
def Closed (s : Store) (log : VideoLog) : Prop :=
  ∀ x ∈ log, ∀ id, x.op.marked x.res = some id →
    ∃ r, s.row? id = some r ∧ r.upload_id = none

/-! ## A mark closes its draft -/

theorem VideoOp.marked_error {op : VideoOp} (e : VideoError) :
    op.marked (.error e) = none := by
  cases op <;> rfl

theorem VideoOp.marked_update {id key : Nat} {patch : VideoPatch}
    {res : Except VideoError Unit}
    (h : VideoOp.marked (.updateVideo key patch) res = some id) :
    patch = rescuePatch ∧ key = id := by
  cases res with
  | error e => exact nomatch h
  | ok u =>
      have hmark : (if patch = rescuePatch then some key else none) =
          some id := h
      by_cases hpatch : patch = rescuePatch
      · rw [if_pos hpatch] at hmark
        exact ⟨hpatch, Option.some.inj hmark⟩
      · rw [if_neg hpatch] at hmark
        exact nomatch hmark

section Step

variable {cfg : VideoConfig} {s : Store} {log : VideoLog}

/-- A known video has its row. -/
theorem exists_row (hprov : Provenance s log) (hkeyed : s.Keyed) {v : Video}
    (hv : Known log v) : ∃ r, s.row? v.id = some r := by
  obtain ⟨r₀, hr₀, hdesc₀⟩ := hv
  obtain ⟨r, hr, hdesc⟩ := hprov.kept r₀ hr₀
  refine ⟨r, ?_⟩
  rw [hdesc₀.id, ← hdesc.id]
  exact hkeyed.found r hr

/-- No call gives an upload id back. -/
theorem closed_exec {request : VideoRequest} {mine : VideoLog} {op : VideoOp}
    (hlaw : Traced cfg.uuid request mine op) (m : Moment) {id : Nat}
    {r : Video} (hr : s.row? id = some r) (hclosed : r.upload_id = none) :
    ∃ r', (Store.exec m op s).2.row? id = some r' ∧ r'.upload_id = none := by
  cases op with
  | saveVideo w =>
      obtain ⟨v, _, hw, _⟩ := hlaw
      refine ⟨_, (Store.row?_saveVideo s w id).trans (congrArg _ hr), ?_⟩
      by_cases hid : r.id = w.id
      · simp only [hid, if_true, hw]
      · simp only [hid, if_false, hclosed]
  | updateVideo key patch =>
      have hpatch : patch.upload_id = none ∨ patch.upload_id = some none := by
        rcases hlaw with ⟨_, _, _, ⟨rfl, _⟩ | ⟨rfl, _⟩⟩ |
          ⟨_, _, _, rfl | ⟨_, rfl, _⟩⟩
        · exact .inr rfl
        · exact .inl rfl
        · exact .inl rfl
        · exact .inl rfl
      rcases Store.exec_updateVideo_cases m key patch s with hexec | hexec
      case inr =>
        rw [hexec]
        exact ⟨r, hr, hclosed⟩
      rw [hexec]
      refine ⟨_, (Store.row?_updateVideo s key patch id).trans
        (congrArg _ hr), ?_⟩
      by_cases hid : r.id = key
      · rcases hpatch with hpatch | hpatch
        · simp only [hid, if_true, VideoPatch.apply, hpatch, Option.getD_none,
            hclosed]
        · simp only [hid, if_true, VideoPatch.apply, hpatch, Option.getD_some]
      · simp only [hid, if_false, hclosed]
  | _ => exact ⟨r, Store.row?_exec hr m _ rfl, hclosed⟩

/-- Who marks a draft has read it, and has seen its object. -/
theorem held_of_marked {request : VideoRequest} {mine : VideoLog} {op : VideoOp}
    {res : Except VideoError op.Res}
    (hlaw : Traced cfg.uuid request mine op) {id : Nat}
    (hmark : op.marked res = some id) :
    ∃ v, (Completing cfg.uuid request mine v ∨ Sweeping request mine v) ∧
      v.id = id ∧ ∃ size, Seen mine v.storage_key size := by
  cases res with
  | error e =>
      rw [VideoOp.marked_error] at hmark
      exact nomatch hmark
  | ok u =>
      cases op with
      | saveVideo w =>
          obtain ⟨v, hv, rfl, hseen, _⟩ := hlaw
          exact ⟨v, .inl hv, Option.some.inj hmark, v.size_bytes, hseen⟩
      | updateVideo key patch =>
          obtain ⟨rfl, hkey⟩ := VideoOp.marked_update hmark
          rcases hlaw with ⟨v, hv, hid, ⟨_, hseen⟩ | ⟨hfailed, _⟩⟩ |
            ⟨_, _, _, hfailed | ⟨_, hready, _⟩⟩
          · exact ⟨v, .inr hv, hid.trans hkey, hseen⟩
          · exact absurd hfailed (by decide)
          · exact absurd hfailed (by decide)
          · exact absurd (congrArg VideoPatch.upload_id hready) nofun
      | _ => exact nomatch hmark

/-- A mark leaves its draft without its upload id. -/
theorem closed_of_marked {request : VideoRequest} {mine : VideoLog}
    {op : VideoOp} (hlaw : Traced cfg.uuid request mine op) (m : Moment) {id : Nat}
    (hrow : ∃ r, s.row? id = some r)
    (hmark : op.marked (Store.exec m op s).1 = some id) :
    ∃ r, (Store.exec m op s).2.row? id = some r ∧ r.upload_id = none := by
  obtain ⟨r, hr⟩ := hrow
  cases op with
  | saveVideo w =>
      have hid : w.id = id := Option.some.inj hmark
      subst hid
      obtain ⟨v, _, rfl, _⟩ := hlaw
      refine ⟨_, (Store.row?_saveVideo s _ v.id).trans (congrArg _ hr), ?_⟩
      simp only [Store.row?_id hr, if_true]
  | updateVideo key patch =>
      obtain ⟨rfl, rfl⟩ := VideoOp.marked_update hmark
      refine ⟨_, (Store.row?_updateVideo s key _ key).trans
        (congrArg _ hr), ?_⟩
      simp only [Store.row?_id hr, if_true, VideoPatch.apply, rescuePatch,
        Option.getD_some]
  | _ => cases hmark

/-- Every call keeps the marked drafts closed. -/
theorem Closed.answer {P : VideoPolicy} {b b' : VideoRun}
    (hb : Reachable (videoSystem cfg) P {} b)
    (hb' : Reachable (videoSystem cfg) P {} b') {t : Nat}
    {request : VideoRequest} {m : Moment} {op : VideoOp}
    {fault : Option VideoError} (h : Closed b.state b.log)
    (hlog : b'.log = (videoSystem cfg).entry t request m op fault b.state ::
      b.log) :
    Closed ((videoSystem cfg).answer m op fault b.state).2 b'.log := by
  have hlaw : Traced cfg.uuid request (own t b.log) op := traced_newest hb' hlog
  intro x hx id hmark
  rw [hlog] at hx
  rcases List.mem_cons.1 hx with rfl | hx
  · cases fault with
    | some e => exact nomatch (VideoOp.marked_error e).symm.trans hmark
    | none =>
        obtain ⟨v, hv, rfl, _⟩ := held_of_marked hlaw hmark
        apply closed_of_marked hlaw m ?_ hmark
        exact exists_row (provenance_of_reachable hb).1 (keyed_of_reachable hb)
          (known_of_held hb (List.suffix_refl _) hv)
  · obtain ⟨r, hr, hclosed⟩ := h x hx id hmark
    cases fault with
    | some e => exact ⟨r, hr, hclosed⟩
    | none => exact closed_exec hlaw m hr hclosed

end Step

/-! ## Jobs -/

/-- The job was enqueued. -/
def Added (log : VideoLog) (job : ProcessVideoJobData) : Prop :=
  ∃ x ∈ log, x.op = .addJob job ∧ x.res.isOk = true

/-- The job names an inserted row and its storage key. -/
def JobOf (log : VideoLog) (job : ProcessVideoJobData) : Prop :=
  ∃ r₀, Inserted log r₀ ∧ r₀.id = job.video_id ∧
    r₀.storage_key = job.storage_key

theorem Added.cons {log : VideoLog} {job : ProcessVideoJobData}
    (h : Added log job) (x : VideoEntry) : Added (x :: log) job := by
  obtain ⟨y, hy, hadd⟩ := h
  exact ⟨y, .tail _ hy, hadd⟩

/-- Every job of the queue, and every one handed out, was enqueued. -/
structure Queued (s : Store) (log : VideoLog) : Prop where
  jobs : ∀ job ∈ s.jobs, Added log job
  handed : ∀ x ∈ log, ∀ job, x.op.takenJob x.res = some job → Added log job

theorem queued_empty : Queued {} [] :=
  ⟨(fun _ hjob => nomatch hjob), fun _ hx => nomatch hx⟩

theorem Queued.answer {cfg : VideoConfig} {s : Store} {log : VideoLog}
    (h : Queued s log) (t : Nat) (request : VideoRequest) (m : Moment)
    (op : VideoOp) (fault : Option VideoError) :
    Queued ((videoSystem cfg).answer m op fault s).2
      ((videoSystem cfg).entry t request m op fault s :: log) := by
  constructor
  · intro job hjob
    cases fault with
    | some e => exact (h.jobs job hjob).cons _
    | none =>
        rcases mem_jobs_exec hjob with hold | hnew
        · exact (h.jobs job hold).cons _
        · subst hnew
          exact ⟨_, .head _, rfl, rfl⟩
  · intro x hx job hjob
    apply Added.cons
    rcases List.mem_cons.1 hx with rfl | hx
    · cases fault with
      | some e => exact absurd hjob (by cases op <;> exact nofun)
      | none => exact h.jobs job (mem_jobs_of_taken hjob)
    · exact h.handed x hx job hjob

/-! ## Runs -/

section Runs

variable {cfg : VideoConfig} {P : VideoPolicy} {c : VideoRun}

theorem closed_of_reachable (h : Reachable (videoSystem cfg) P {} c) :
    Closed c.state c.log := by
  apply Reachable.answers Closed (fun _ hx => nomatch hx) ?_ h
  intro b b' t request m op fault hb hb' hinv _ hlog
  exact hinv.answer hb hb' hlog

/-- Where a draft is marked twice, the second mark does not find it open. -/
theorem not_marked_before (h : Reachable (videoSystem cfg) P {} c)
    {x y : VideoEntry} {older : VideoLog} (hx : (x :: older) <:+ c.log)
    (hy : y ∈ older) {id : Nat} (hopen : MarksOpen id x)
    (hmark : x.op.marked x.res = some id) :
    y.op.marked y.res ≠ some id := by
  intro hmark'
  obtain ⟨b, fault, k, hb, rfl, hat, _⟩ := h.split_at hx
  obtain ⟨r, hr, hclosed⟩ := closed_of_reachable hb y hy id hmark'
  have hbefore : x.before = b.state := hat.before_eq
  apply hopen hmark r ?_ hclosed
  rw [hbefore]
  exact hr

/-- A job is enqueued directly after its thread has marked the draft. -/
theorem marked_before_enqueues (h : Reachable (videoSystem cfg) P {} c)
    {x : VideoEntry} {older : VideoLog} (hx : (x :: older) <:+ c.log) {id : Nat}
    (henqueues : Enqueues id x = true) :
    ∃ y rest, own x.tid older = y :: rest ∧ y.op.marked y.res = some id := by
  have hlaw := traced_of_reachable h x older hx
  obtain ⟨tid, request, amb, op, before, res, after⟩ := x
  have hjob : op.enqueued res = some id := eq_of_beq henqueues
  cases op with
  | addJob job =>
      cases res with
      | error e => exact nomatch hjob
      | ok u =>
          cases hjob
          obtain ⟨v, _, rfl, y, rest, hown, hmark⟩ := hlaw
          exact ⟨y, rest, hown, hmark⟩
  | _ => cases res <;> exact nomatch hjob

theorem not_enqueues_of_marked {x : VideoEntry} {id key : Nat}
    (h : x.op.marked x.res = some key) : Enqueues id x = false := by
  obtain ⟨tid, request, amb, op, before, res, after⟩ := x
  cases op with
  | saveVideo v => rfl
  | updateVideo id patch => rfl
  | _ => exact nomatch h

/--
**One job for each draft.**  Over every interleaving of completions, sweeps
and all other requests, with any calls failing: a draft that each of its marks
finds open has at most one job enqueued.
-/
theorem one_job (h : Reachable (videoSystem cfg) P {} c) (id : Nat)
    (hopen : ∀ x ∈ c.log, MarksOpen id x) :
    (c.log.filter (Enqueues id)).length ≤ 1 := by
  apply filter_length_le_one
  intro x x' older hx henqueues hx'
  rw [← Bool.not_eq_true]
  apply once_directly_after
    (fun y : VideoEntry => y.op.marked y.res = some id)
    (fun y => Enqueues id y = true) ?_ ?_ ?_ hx henqueues hx'
  · exact fun y rest hy hacts => marked_before_enqueues h hy hacts
  · intro y z rest hy hmark hz
    exact not_marked_before h hy hz (hopen y (hy.subset (.head _))) hmark
  · intro y hmark
    rw [not_enqueues_of_marked hmark]
    exact Bool.false_ne_true

theorem queued_of_reachable (h : Reachable (videoSystem cfg) P {} c) :
    Queued c.state c.log := by
  apply Reachable.answers Queued queued_empty ?_ h
  intro b b' t request m op fault _ _ hinv _ hlog
  rw [hlog]
  exact hinv.answer t request m op fault

/-- Whoever is handed a job is handed one that was enqueued. -/
theorem added_of_handed (h : Reachable (videoSystem cfg) P {} c) {x : VideoEntry}
    (hx : x ∈ c.log) {job : ProcessVideoJobData}
    (hjob : x.op.takenJob x.res = some job) : Added c.log job :=
  (queued_of_reachable h).handed x hx job hjob

/-- An enqueued job is the job of an inserted row. -/
theorem jobOf_of_added (h : Reachable (videoSystem cfg) P {} c)
    {job : ProcessVideoJobData} (hjob : Added c.log job) : JobOf c.log job := by
  obtain ⟨x, hx, hop, _⟩ := hjob
  obtain ⟨older, hsuffix, hlaw⟩ := (traced_of_reachable h).at_mem hx
  rw [hop] at hlaw
  obtain ⟨v, hheld, rfl, _⟩ := hlaw
  obtain ⟨r₀, hr₀, hdesc⟩ :=
    known_of_held h ((List.suffix_cons x older).trans hsuffix) hheld
  exact ⟨r₀, hr₀, hdesc.id.symm, hdesc.storage_key.symm⟩

/-- The draft of an enqueued job was marked. -/
theorem marked_of_added (h : Reachable (videoSystem cfg) P {} c)
    {job : ProcessVideoJobData} (hjob : Added c.log job) :
    ∃ y ∈ c.log, y.op.marked y.res = some job.video_id := by
  obtain ⟨x, hx, hop, _⟩ := hjob
  obtain ⟨older, hsuffix, hlaw⟩ := (traced_of_reachable h).at_mem hx
  rw [hop] at hlaw
  obtain ⟨v, _, rfl, y, rest, hown, hmark⟩ := hlaw
  have hy : y ∈ own x.tid older := by
    rw [hown]
    exact .head _
  exact ⟨y, hsuffix.subset (.tail _ (mem_own.1 hy).1), hmark⟩

end Runs

/-! ## A second job -/

/-- The completion call has assembled and checked the object when an hour is
over and a sweep rescues the draft; the call goes on with its copy. -/
def doubleTrigger : VideoRun :=
  videoRun
    (Tick.serve (.createDraft 1 sampleDraft) 0 3 { publicId := "v" } ++
      Tick.serve (.uploadPart 0 ⟨1, "etag", 5⟩) 1 1 { now := 1 } ++
      Tick.serve (.completeUpload 1 "v" sampleCompletion) 2 3
        { now := 3600000 } ++
      Tick.serve .sweep 3 4 { now := 3600001 } ++
      Tick.answers 2 2 { now := 3600002 })
    (by decide)

/-- Both paths enqueue the job of the one draft. -/
theorem two_jobs :
    ¬ ∀ c : VideoRun, Reachable (videoSystem {}) anyRun {} c → ∀ id,
      (c.log.filter (Enqueues id)).length ≤ 1 := by
  intro h
  have hcount := h doubleTrigger (reachable_videoRun _ _) 0
  exact absurd hcount (by decide)

/-- The draft of a prompt completion is marked once, while it is open. -/
theorem one_job_promptCompletion :
    (∀ x ∈ promptCompletion.log, MarksOpen 0 x) ∧
      (promptCompletion.log.filter (Enqueues 0)).length ≤ 1 := by
  have hopen : ∀ x ∈ promptCompletion.log, MarksOpen 0 x := by decide
  exact ⟨hopen, one_job (reachable_videoRun _ _) 0 hopen⟩

end Videum.Videos
