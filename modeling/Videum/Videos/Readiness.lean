import Videum.Videos.Drafts

/-!
# Ready means complete

A `ready` row has its duration and its thumbnail.  One update of the worker
writes the status together with both columns, after the thumbnail was put into
the bucket, and no other write makes a row `ready`; so no stale save, no
rescue and no second worker can separate the three.

## Main results

* `Readiness.answer` — every call keeps the invariant.
* `ready_complete` — over every interleaving, with any failing calls.
-/

namespace Videum.Videos

open Videum.Async

/-- The row has a duration and a thumbnail key of its own, and the bucket has
the thumbnail. -/
structure Complete (s : Store) (r : Video) : Prop where
  duration : r.duration_seconds ≠ none
  thumbnail : r.thumbnail_key = some (thumbnailKeyFor r.storage_key)
  object : (s.objects (thumbnailKeyFor r.storage_key)).isSome = true

/-- Every `ready` row is complete. -/
def ReadyComplete (s : Store) : Prop :=
  ∀ r ∈ s.videos, r.status = .ready → Complete s r

/-! ## The invariant -/

/-- What readiness rests on: thumbnails that were put are still there. -/
structure Readiness (s : Store) (log : VideoLog) : Prop where
  complete : ReadyComplete s
  stored : ∀ key, Stored log key → (s.objects key).isSome = true

section Step

variable {cfg : VideoConfig} {s : Store} {log : VideoLog}

/-- A row that grows no older stays complete. -/
theorem Complete.exec {r : Video} (h : Complete s r) (m : Moment)
    (op : VideoOp) : Complete (Store.exec m op s).2 r :=
  ⟨h.duration, h.thumbnail, Store.isSome_objects_exec h.object m op⟩

/-- What the worker writes is complete. -/
theorem complete_readyPatch (hready : Readiness s log)
    (hprov : Provenance s log) {r : Video} (hr : r ∈ s.videos)
    {job : ProcessVideoJobData} (hjob : JobOf log job) (hid : r.id = job.video_id)
    (hstored : Stored log (thumbnailKeyFor job.storage_key)) (seconds : Int)
    {s' : Store} (hobjects : s'.objects = s.objects) :
    Complete s' ((readyPatch seconds
      (thumbnailKeyFor job.storage_key)).apply r) := by
  obtain ⟨r₀, hr₀, hid₀, hkey₀⟩ := hjob
  obtain ⟨r₁, hr₁, hdesc⟩ := hprov.rows r hr
  have hsame : r₁ = r₀ := by
    apply hprov.unique_id r₁ r₀ hr₁ hr₀
    rw [← hdesc.id, hid, hid₀]
  have hkey : r.storage_key = job.storage_key := by
    rw [hdesc.storage_key, hsame, hkey₀]
  have hobject := hready.stored _ hstored
  rw [← hobjects, ← hkey] at hobject
  refine ⟨nofun, ?_, hobject⟩
  show some (thumbnailKeyFor job.storage_key) =
    some (thumbnailKeyFor r.storage_key)
  rw [hkey]

/-- The rows after a call are complete when those before it are. -/
theorem Readiness.complete_exec (h : Readiness s log) (hprov : Provenance s log)
    {t : Nat} {request : VideoRequest} {op : VideoOp}
    (hlaw : Traced cfg.uuid request (own t log) op)
    (hjobs : ∀ job, Working request (own t log) job → JobOf log job)
    (m : Moment) :
    ReadyComplete (Store.exec m op s).2 := by
  have hold : ∀ r ∈ s.videos, r.status = .ready →
      Complete (Store.exec m op s).2 r :=
    fun r hr hstatus => (h.complete r hr hstatus).exec m op
  apply Store.forall_videos_exec hold
  · rintro v rfl hstatus
    have hnew : (s.newRow m v).status = .uploading := hlaw.1
    rw [hnew] at hstatus
    exact nomatch hstatus
  · rintro w rfl hstatus
    obtain ⟨v, _, hw, _⟩ := hlaw
    rw [hw] at hstatus
    exact nomatch hstatus
  · rintro patch r rfl hr hstatus
    rcases hlaw with ⟨v, _, _, ⟨rfl, _⟩ | ⟨rfl, _⟩⟩ |
      ⟨job, hjob, hid, rfl | ⟨seconds, rfl, hstored⟩⟩
    · exact nomatch hstatus
    · exact nomatch hstatus
    · exact nomatch hstatus
    · have hstored' : Stored log (thumbnailKeyFor job.storage_key) := by
        obtain ⟨y, hy, hput⟩ := hstored
        exact ⟨y, (mem_own.1 hy).1, hput⟩
      exact complete_readyPatch h hprov hr (hjobs job hjob) hid.symm hstored'
        seconds ((Store.frame_exec m _ s).objects rfl)

end Step

theorem readiness_empty : Readiness {} [] :=
  { complete := nofun
    stored := fun _ ⟨_, hx, _⟩ => nomatch hx }

/-- Every call keeps readiness. -/
theorem Readiness.answer {cfg : VideoConfig} {P : VideoPolicy}
    {b b' : VideoRun} (hb : Reachable (videoSystem cfg) P {} b)
    (hb' : Reachable (videoSystem cfg) P {} b') {t : Nat}
    {request : VideoRequest} {m : Moment} {op : VideoOp}
    {fault : Option VideoError} (h : Readiness b.state b.log)
    (hlog : b'.log = (videoSystem cfg).entry t request m op fault b.state ::
      b.log) :
    Readiness ((videoSystem cfg).answer m op fault b.state).2 b'.log := by
  have hlaw : Traced cfg.uuid request (own t b.log) op := traced_newest hb' hlog
  constructor
  · cases fault with
    | some e => exact h.complete
    | none =>
        apply h.complete_exec (provenance_of_reachable hb).1 hlaw
        rintro job ⟨_, ⟨x, hx, htaken⟩, _⟩
        exact jobOf_of_added hb (added_of_handed hb (mem_own.1 hx).1 htaken)
  · rintro key ⟨x, hx, size, contentType, hput, hok⟩
    rw [hlog] at hx
    rcases List.mem_cons.1 hx with rfl | hx
    · cases fault with
      | some e => exact nomatch hok
      | none =>
          have hput' : op = .putObject key size contentType := hput
          subst hput'
          show ((b.state.putObject key size).objects key).isSome = true
          simp only [Store.putObject, Function.update_self, Option.isSome_some]
    · have hobject := h.stored key ⟨x, hx, size, contentType, hput, hok⟩
      cases fault with
      | some e => exact hobject
      | none => exact Store.isSome_objects_exec hobject m op

/--
**Ready means complete.**  Over every interleaving of drafts, completions,
sweeps and deliveries, with any calls failing: every `ready` row has a
duration and the thumbnail key of its own storage key, and the bucket holds an
object there.
-/
theorem ready_complete {cfg : VideoConfig} {P : VideoPolicy} {c : VideoRun}
    (h : Reachable (videoSystem cfg) P {} c) :
    ∀ r ∈ c.state.videos, r.status = .ready →
      r.duration_seconds ≠ none ∧
      r.thumbnail_key = some (dirOf r.storage_key ++ "/thumbnail.jpg") ∧
      (c.state.objects (dirOf r.storage_key ++ "/thumbnail.jpg")).isSome
        = true := by
  have hready : Readiness c.state c.log := by
    apply Reachable.answers Readiness readiness_empty ?_ h
    intro b b' t request m op fault hb hb' hinv _ hlog
    exact hinv.answer hb hb' hlog
  intro r hr hstatus
  have hcomplete := hready.complete r hr hstatus
  exact ⟨hcomplete.duration, hcomplete.thumbnail, hcomplete.object⟩

/-- A row that a prompt worker has made ready. -/
theorem ready_complete_promptCompletion :
    (promptCompletion.state.videos.map Video.status = [.ready]) ∧
      ∀ r ∈ promptCompletion.state.videos, r.status = .ready →
        r.duration_seconds ≠ none ∧
        r.thumbnail_key = some (dirOf r.storage_key ++ "/thumbnail.jpg") ∧
        (promptCompletion.state.objects
          (dirOf r.storage_key ++ "/thumbnail.jpg")).isSome = true :=
  ⟨by decide, ready_complete (reachable_videoRun _ _)⟩

end Videum.Videos
