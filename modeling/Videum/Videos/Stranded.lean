import Videum.Videos.Drafts

/-!
# Finished uploads that nobody completes

A client may upload every part of a draft and never call `completeUpload`.
The sweep is there to rescue such drafts, and it asks storage with a HEAD
request whether the object has landed.  But parts become an object only when
somebody completes the multipart upload, and nobody but a completion call
does: the HEAD request finds nothing, and the sweep gives every such draft up.

## Main results

* `sweep_gives_up` — a sweep fails each stranded draft, however complete its
  parts are.
* `not_rescued` — one such draft.
-/

namespace Videum.Videos

open Videum.Async

/-- A stale draft whose uploaded parts make up the declared file, as the
storage would assemble it. -/
structure Stranded (cfg : VideoConfig) (s : Store) (now : Int) (v : Video) :
    Prop where
  row : v ∈ s.videos
  status : v.status = .uploading
  stale : v.created_at < now - cfg.abandonedUploadTimeoutMs
  finished : ∃ rule id parts u, v.upload_id = some id ∧
    s.completable rule v.storage_key id parts = some (u, v.size_bytes)

/-- A sweep has arrived in `c₀` at the moment `m` and has ended in `c`, no
call of it has failed, and nobody has asked to complete the video. -/
structure SweepRun (cfg : VideoConfig) (P : VideoPolicy) (c₀ c : VideoRun)
    (m : Moment) (publicId : String) : Prop where
  reachable : Reachable (videoSystem cfg) P {} c₀
  accepted : P.accepts c₀ .sweep
  run : Steps (videoSystem cfg) P ((videoSystem cfg).spawn c₀ .sweep m) c
  ended : ∃ th, c.threads[c₀.threads.length]? = some th ∧
    th.prog.running = false
  ok : ∀ x ∈ own c₀.threads.length c.log, x.res.isOk = true
  never : ∀ th ∈ c.threads, th.request.completes cfg.uuid publicId = false

section Sweep

variable {cfg : VideoConfig} {P : VideoPolicy} {c₀ c : VideoRun} {m : Moment}
  {v : Video}

theorem SweepRun.steps {publicId : String}
    (h : SweepRun cfg P c₀ c m publicId) : Steps (videoSystem cfg) P c₀ c := by
  have hspawn : Step (videoSystem cfg) P c₀
      ((videoSystem cfg).spawn c₀ .sweep m) :=
    .spawn VideoRequest.sweep m h.accepted
  exact .head hspawn h.run

theorem SweepRun.reached {publicId : String}
    (h : SweepRun cfg P c₀ c m publicId) :
    Reachable (videoSystem cfg) P {} c :=
  Reachable.steps h.reachable h.steps

/-- A stranded draft is never marked: its object never appears. -/
theorem SweepRun.unmarked (h : SweepRun cfg P c₀ c m v.public_id)
    (hrow : v ∈ c₀.state.videos) : Unmarked c.log v.id := by
  intro x hx hmark
  obtain ⟨r₀, hr₀, hdesc⟩ := (provenance_of_reachable h.reachable).1.rows v hrow
  have hr₀' : Inserted c.log r₀ := hr₀.mono (Steps.log_suffix h.steps)
  rw [hdesc.id] at hmark
  have hobject := object_of_marked h.reached hx hr₀' hmark
  have hown : OwnKey v := (ownKeys_of_reachable h.reachable).rows v hrow
  rw [← hdesc.storage_key, hown] at hobject
  obtain ⟨th, hth, hcompletes⟩ := assembled_of_object h.reached hobject
  exact nomatch hcompletes.symm.trans (h.never th hth)

theorem Unmarked.suffix {old new : VideoLog} {id : Nat} (h : Unmarked new id)
    (hs : old <:+ new) : Unmarked old id :=
  fun x hx => h x (hs.subset hx)

/-- A stranded draft is as it was inserted. -/
theorem SweepRun.inserted (h : SweepRun cfg P c₀ c m v.public_id)
    (hv : Stranded cfg c₀.state m.now v) : Inserted c₀.log v := by
  obtain ⟨r₀, hr₀, hdesc⟩ :=
    (provenance_of_reachable h.reachable).1.rows v hv.row
  have hunmarked : Unmarked c₀.log r₀.id := by
    rw [← hdesc.id]
    exact (h.unmarked hv.row).suffix (Steps.log_suffix h.steps)
  have hrow := (keyed_of_reachable h.reachable).found v hv.row
  rw [hdesc.id] at hrow
  rcases row_of_unmarked h.reachable hr₀ hunmarked with ⟨_, hr⟩ | ⟨_, hr⟩
  · rw [hrow] at hr
    cases hr
    exact hr₀
  · rw [hrow] at hr
    have hstatus : v.status = .failed := by
      rw [Option.some.inj hr]
      rfl
    rw [hv.status] at hstatus
    exact nomatch hstatus

/-- The sweep finds the draft, unless somebody else has given it up. -/
theorem SweepRun.found (h : SweepRun cfg P c₀ c m v.public_id)
    (hv : Stranded cfg c₀.state m.now v) :
    GivenUp c.log v.id ∨ Sweeping .sweep (own c₀.threads.length c.log) v := by
  obtain ⟨k, hk⟩ : ∃ k, (serve cfg .sweep).resume m = .await
      (.findStaleVideos (m.now - cfg.abandonedUploadTimeoutMs)) k := ⟨_, rfl⟩
  have hstart : ((videoSystem cfg).spawn c₀ .sweep m).threads[
      c₀.threads.length]? = some ⟨.sweep, .await
        (.findStaleVideos (m.now - cfg.abandonedUploadTimeoutMs)) k⟩ := by
    rw [← hk]
    exact List.getElem?_concat_length
  obtain ⟨th, hth, hended⟩ := h.ended
  rcases Steps.answered_or_waiting h.run hstart with
    hwaiting | ⟨b, amb, fault, hb, hperform, hrest⟩
  · rw [hth] at hwaiting
    cases hwaiting
    exact nomatch hended
  · have hmem : (videoSystem cfg).entry c₀.threads.length .sweep amb
        (.findStaleVideos (m.now - cfg.abandonedUploadTimeoutMs)) fault
          b.state ∈ c.log := (Steps.log_suffix hrest).subset (.head _)
    have hown := mem_own.2 ⟨hmem, rfl⟩
    have hok := h.ok _ hown
    cases fault with
    | some e => exact nomatch hok
    | none =>
        have hbefore : Steps (videoSystem cfg) P c₀ b :=
          .head (.spawn VideoRequest.sweep m h.accepted) hb
        have hafter : b.log <:+ c.log :=
          Steps.log_suffix (Relation.ReflTransGen.head hperform hrest)
        have hunmarked := (h.unmarked hv.row).suffix hafter
        have hinserted := (h.inserted hv).mono (Steps.log_suffix hbefore)
        rcases row_of_unmarked (h.reachable.steps hbefore) hinserted
          hunmarked with ⟨_, hr⟩ | ⟨⟨y, hy, hfailed⟩, _⟩
        · refine .inr ⟨rfl, _, hown, ?_⟩
          have hstale : v ∈ b.state.videos.filter fun r =>
              r.status = .uploading ∧
                r.created_at < m.now - cfg.abandonedUploadTimeoutMs := by
            rw [List.mem_filter, decide_eq_true_iff]
            exact ⟨Store.row?_mem hr, hv.status, hv.stale⟩
          exact hstale
        · exact .inl ⟨y, hafter.subset hy, hfailed⟩

/-- A stranded draft is given up. -/
theorem SweepRun.givenUp (h : SweepRun cfg P c₀ c m v.public_id)
    (hv : Stranded cfg c₀.state m.now v) : GivenUp c.log v.id := by
  rcases h.found hv with hgiven | hfound
  · exact hgiven
  · obtain ⟨th, hth, hended⟩ := h.ended
    have hstart : ((videoSystem cfg).spawn c₀ .sweep m).threads[
        c₀.threads.length]? = some ⟨.sweep, (serve cfg .sweep).resume m⟩ :=
      List.getElem?_concat_length
    obtain ⟨th', hth', hrequest⟩ := Steps.request_stable h.run hstart
    rw [hth] at hth'
    cases hth'
    obtain ⟨r, _, hdone⟩ := ended_of_reachable h.reached hth hended
    rw [hrequest] at hdone
    rcases hdone v hfound with ⟨x, hx, hfailed⟩ | ⟨x, hx, hadd⟩ | ⟨x, hx, herror⟩
    · exact ⟨x, (mem_own.1 hx).1, hfailed⟩
    · obtain ⟨y, hy, hmark⟩ :=
        marked_of_added h.reached ⟨x, (mem_own.1 hx).1, hadd⟩
      exact absurd hmark (h.unmarked hv.row y hy)
    · exact nomatch herror.symm.trans (h.ok x hx)

/-- What has not been marked has no job. -/
theorem Unmarked.no_job (h : Reachable (videoSystem cfg) P {} c) {id : Nat}
    (hunmarked : Unmarked c.log id) : ∀ x ∈ c.log, Enqueues id x = false := by
  intro x hx
  rw [← Bool.not_eq_true]
  intro henqueues
  obtain ⟨older, hsuffix⟩ := older_of_mem hx
  obtain ⟨y, rest, hown, hmark⟩ := marked_before_enqueues h hsuffix henqueues
  have hy : y ∈ own x.tid older := by
    rw [hown]
    exact .head _
  exact hunmarked y (hsuffix.subset (.tail _ (mem_own.1 hy).1)) hmark

/--
**A sweep gives up every stranded draft.**  Whatever parts the client has
uploaded, and whatever else goes on while the sweep runs: if nobody asks to
complete the video, the sweep leaves its row `failed`, and no job is ever
enqueued for it.
-/
theorem sweep_gives_up (h : SweepRun cfg P c₀ c m v.public_id)
    (hv : Stranded cfg c₀.state m.now v) :
    (c.state.row? v.id).map Video.status = some .failed ∧
      ∀ x ∈ c.log, Enqueues v.id x = false := by
  have hunmarked := h.unmarked hv.row
  refine ⟨?_, hunmarked.no_job h.reached⟩
  have hinserted := (h.inserted hv).mono (Steps.log_suffix h.steps)
  rcases row_of_unmarked h.reached hinserted hunmarked with
    ⟨hnot, _⟩ | ⟨_, hr⟩
  · exact absurd (h.givenUp hv) hnot
  · rw [hr]
    rfl

end Sweep

/-! ## One such draft -/

/-- A draft whose only part has been uploaded. -/
def finishedUpload : VideoRun :=
  videoRun
    (Tick.serve (.createDraft 1 sampleDraft) 0 3 { publicId := "v" } ++
      Tick.serve (.uploadPart 0 ⟨1, "etag", 5⟩) 1 1 { now := 1 })
    (by decide)

/-- An hour later a sweep comes by. -/
def sweptUpload : VideoRun :=
  ((videoSystem {}).schedule anyRun
    ((videoSystem {}).spawn finishedUpload .sweep { now := 3600001 })
    (Tick.answers 2 3 { now := 3600001 })).get (by decide)

/-- The draft. -/
def finishedRow : Video :=
  finishedUpload.state.videos.head (by decide)

theorem sweepRun_sweptUpload :
    SweepRun {} anyRun finishedUpload sweptUpload { now := 3600001 }
      finishedRow.public_id := by
  refine { reachable := reachable_videoRun _ _, accepted := trivial, run := ?_,
           ended := ⟨_, rfl, rfl⟩, ok := by decide, never := by decide }
  exact Steps.of_schedule _ (Option.some_get _).symm
    (System.admitted_of_forall _ (fun _ _ _ _ => trivial) _)

theorem stranded_finishedRow :
    Stranded {} finishedUpload.state 3600001 finishedRow :=
  { row := List.head_mem _
    status := by decide
    stale := by decide
    finished := ⟨s3Rule, 0, [⟨1, "etag"⟩], _, by decide, rfl⟩ }

/-- Its file is complete, and the sweep gives it up. -/
theorem not_rescued :
    ¬ ∀ (c₀ c : VideoRun) (m : Moment) (v : Video),
      SweepRun {} anyRun c₀ c m v.public_id → Stranded {} c₀.state m.now v →
        (c.state.row? v.id).map Video.status = some .processing ∧
          ∃ x ∈ c.log, Enqueues v.id x = true := by
  intro h
  have hrescued := h _ _ _ _ sweepRun_sweptUpload stranded_finishedRow
  exact absurd hrescued.1 (by decide)

theorem sweep_gives_up_finishedRow :
    (sweptUpload.state.row? finishedRow.id).map Video.status = some .failed ∧
      ∀ x ∈ sweptUpload.log, Enqueues finishedRow.id x = false :=
  sweep_gives_up sweepRun_sweptUpload stranded_finishedRow

end Videum.Videos
