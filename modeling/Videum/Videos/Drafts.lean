import Videum.Videos.Trigger

/-!
# What becomes of a draft

Until it is marked, a draft is touched by nobody but a sweep that gives it up:
its row is the inserted one, or the inserted one marked `failed`.  And it is
marked only after a HEAD request has shown its object, which is there only
when a completion call has assembled it.

## Main results

* `assembled_of_object` — an uploaded object was assembled by a completion
  call for its video.
* `object_of_marked` — a marked draft has its object.
* `row_of_unmarked` — the row of a draft that was never marked.
-/

namespace Videum.Videos

open Videum.Async

/-! ## Objects stay -/

theorem Store.putObject_isSome {s : Store} {key : String}
    (h : (s.objects key).isSome = true) (key' : String) (size : Nat) :
    ((s.putObject key' size).objects key).isSome = true := by
  by_cases hkey : key = key'
  · simp only [putObject, hkey, Function.update_self, Option.isSome_some]
  · rw [putObject_objects_ne s size hkey]
    exact h

/-- No call deletes an object. -/
theorem Store.isSome_objects_exec {s : Store} {key : String}
    (h : (s.objects key).isSome = true) (m : Moment) (op : VideoOp) :
    ((Store.exec m op s).2.objects key).isSome = true := by
  cases op with
  | completeMultipartUpload key' id parts =>
      simp only [Store.exec, Store.completeMultipartUpload]
      split
      · exact Store.putObject_isSome h key' _
      · exact h
  | putObject key' size contentType => exact Store.putObject_isSome h key' size
  | _ =>
      rw [(frame_exec m _ s).objects (by rfl)]
      exact h

/-- What an answer has left in the storage is still there. -/
theorem isSome_objects_of_after {cfg : VideoConfig} {P : VideoPolicy}
    {c : VideoRun} (h : Reachable (videoSystem cfg) P {} c) {x : VideoEntry}
    (hx : x ∈ c.log) {key : String}
    (hobject : (x.after.objects key).isSome = true) :
    (c.state.objects key).isSome = true := by
  have hinv : ∀ x ∈ c.log, (x.after.objects key).isSome = true →
      (c.state.objects key).isSome = true := by
    apply Reachable.answers (fun s log => ∀ x ∈ log,
      (x.after.objects key).isSome = true → (s.objects key).isSome = true)
      (List.forall_mem_nil _) ?_ h
    intro b b' t request m op fault _ _ hinv _ hlog x hx hafter
    rw [hlog] at hx
    rcases List.mem_cons.1 hx with rfl | hx
    · exact hafter
    · have hbefore := hinv x hx hafter
      cases fault with
      | some e => exact hbefore
      | none => exact Store.isSome_objects_exec hbefore m op
  exact hinv x hx hobject

/-- What a HEAD request has shown is still there. -/
theorem isSome_objects_of_seen {cfg : VideoConfig} {P : VideoPolicy}
    {c : VideoRun} (h : Reachable (videoSystem cfg) P {} c) {key : String}
    {size : Nat} (hseen : Seen c.log key size) :
    (c.state.objects key).isSome = true := by
  obtain ⟨x, hx, hshown⟩ := hseen
  apply isSome_objects_of_after h hx
  obtain ⟨b, fault, k, _, _, _, _, heq, _⟩ := h.entry_config hx
  rw [heq] at hshown ⊢
  cases fault with
  | some e => exact absurd hshown (by cases x.op <;> exact nofun)
  | none =>
      have hobject := objects_of_seen hshown
      exact Store.isSome_objects_exec (Option.isSome_iff_exists.2
        ⟨size, hobject⟩) x.amb x.op

/-! ## Who assembles an object -/

theorem storageKeyFor_injective : Function.Injective storageKeyFor := by
  intro p q h
  have hlist := congrArg String.toList h
  simp only [storageKeyFor, String.toList_append] at hlist
  exact String.toList_injective (List.append_cancel_left
    (List.append_cancel_right hlist))

/-- The row is stored under the key of its public id. -/
def OwnKey (r : Video) : Prop :=
  r.storage_key = storageKeyFor r.public_id

/-- Every row, and every row a lookup has found, has its own key. -/
structure OwnKeys (s : Store) (log : VideoLog) : Prop where
  rows : ∀ r ∈ s.videos, OwnKey r
  found : ∀ x ∈ log, ∀ v, x.op.foundRow x.res = some v → OwnKey v

/-- An object after a call was there before it, or was put or assembled. -/
theorem objects_changed {m : Moment} {op : VideoOp} {s : Store} {key : String}
    {size : Nat} (h : (Store.exec m op s).2.objects key = some size) :
    s.objects key = some size ∨
      (∃ size' contentType, op = .putObject key size' contentType) ∨
      ∃ id parts, op = .completeMultipartUpload key id parts := by
  have hput : ∀ key' size', (s.putObject key' size').objects key = some size →
      s.objects key = some size ∨ key' = key := by
    intro key' size' hobject
    by_cases hkey : key = key'
    · exact .inr hkey.symm
    · rw [Store.putObject_objects_ne s size' hkey] at hobject
      exact .inl hobject
  cases op with
  | completeMultipartUpload key' id parts =>
      simp only [Store.exec, Store.completeMultipartUpload] at h
      split at h
      · rcases hput key' _ h with hold | rfl
        · exact .inl hold
        · exact .inr (.inr ⟨id, parts, rfl⟩)
      · exact .inl h
  | putObject key' size' contentType =>
      rcases hput key' size' h with hold | rfl
      · exact .inl hold
      · exact .inr (.inl ⟨size', contentType, rfl⟩)
  | _ =>
      rw [(Store.frame_exec m _ s).objects (by rfl)] at h
      exact .inl h

section Runs

variable {cfg : VideoConfig} {P : VideoPolicy} {c : VideoRun}

theorem ownKeys_empty : OwnKeys {} [] :=
  ⟨(fun _ hr => nomatch hr), fun _ hx => nomatch hx⟩

theorem ownKeys_of_reachable (h : Reachable (videoSystem cfg) P {} c) :
    OwnKeys c.state c.log := by
  apply Reachable.answers OwnKeys ownKeys_empty ?_ h
  intro b b' t request m op fault hb hb' hinv _ hlog
  have hlaw : Traced cfg.uuid request (own t b.log) op := traced_newest hb' hlog
  constructor
  · cases fault with
    | some e => exact hinv.rows
    | none =>
        apply Store.forall_videos_exec hinv.rows
        · rintro v rfl
          exact hlaw.2.1
        · rintro w rfl
          obtain ⟨v, ⟨_, _, ⟨x, hx, _, hfound⟩, _⟩, rfl, _⟩ := hlaw
          exact hinv.found x (mem_own.1 hx).1 v hfound
        · rintro patch r rfl hr
          exact hinv.rows r hr
  · intro x hx v hfound
    rw [hlog] at hx
    rcases List.mem_cons.1 hx with rfl | hx
    · exact hinv.rows v (mem_of_foundRow hfound).1
    · exact hinv.found x hx v hfound

/-- A lookup by public id finds a row with that id. -/
theorem public_id_of_found (h : Reachable (videoSystem cfg) P {} c)
    {x : VideoEntry} (hx : x ∈ c.log) {publicId : String}
    (hop : x.op = .findVideoByPublicId publicId) {v : Video}
    (hfound : x.op.foundRow x.res = some v) : v.public_id = publicId := by
  obtain ⟨b, fault, k, _, _, _, _, heq, _⟩ := h.entry_config hx
  rw [heq] at hop hfound
  exact (mem_of_foundRow hfound).2 publicId hop

/-- The key of the object was assembled. -/
def Assembled (log : VideoLog) (key : String) : Prop :=
  ∃ x ∈ log, ∃ id parts, x.op = .completeMultipartUpload key id parts

/-- An uploaded object was assembled. -/
theorem assembled_of_reachable (h : Reachable (videoSystem cfg) P {} c) :
    ∀ publicId size, c.state.objects (storageKeyFor publicId) = some size →
      Assembled c.log (storageKeyFor publicId) := by
  apply Reachable.answers (fun s log => ∀ publicId size,
    s.objects (storageKeyFor publicId) = some size →
      Assembled log (storageKeyFor publicId)) ?_ ?_ h
  · intro publicId size hobject
    exact nomatch hobject
  · intro b b' t request m op fault _ hb' hinv _ hlog publicId size hobject
    have hlaw : Traced cfg.uuid request (own t b.log) op := traced_newest hb' hlog
    have hold : b.state.objects (storageKeyFor publicId) = some size →
        Assembled b'.log (storageKeyFor publicId) := by
      intro hbefore
      obtain ⟨x, hx, hassembled⟩ := hinv publicId size hbefore
      rw [hlog]
      exact ⟨x, .tail _ hx, hassembled⟩
    cases fault with
    | some e => exact hold hobject
    | none =>
        rcases objects_changed hobject with
          hbefore | ⟨_, _, rfl⟩ | ⟨id, parts, hop⟩
        · exact hold hbefore
        · obtain ⟨job, _, hkey⟩ := hlaw
          exact absurd hkey.symm (thumbnailKeyFor_ne job.storage_key publicId)
        · rw [hlog]
          exact ⟨_, .head _, id, parts, hop⟩

/-- An uploaded object is there only when a completion call for its video has
arrived. -/
theorem assembled_of_object (h : Reachable (videoSystem cfg) P {} c)
    {publicId : String}
    (hobject : (c.state.objects (storageKeyFor publicId)).isSome = true) :
    ∃ th ∈ c.threads, th.request.completes cfg.uuid publicId = true := by
  obtain ⟨size, hsize⟩ := Option.isSome_iff_exists.1 hobject
  obtain ⟨x, hx, id, parts, hop⟩ := assembled_of_reachable h publicId size hsize
  obtain ⟨older, hsuffix, hlaw⟩ := (traced_of_reachable h).at_mem hx
  rw [hop] at hlaw
  obtain ⟨v, ⟨publicId', hrequest, ⟨y, hy, hlookup, hfound⟩, _⟩, hkey, _⟩ :=
    hlaw
  have hy' : y ∈ c.log := hsuffix.subset (.tail _ (mem_own.1 hy).1)
  have hid := public_id_of_found h hy' hlookup hfound
  have hown : OwnKey v := (ownKeys_of_reachable h).found y hy' v hfound
  have hsame : publicId = publicId' := by
    apply storageKeyFor_injective
    rw [hkey, hown, hid]
  obtain ⟨th, hth, hth'⟩ := Reachable.logOwned h x hx
  refine ⟨th, List.mem_of_getElem? hth, ?_⟩
  rw [hth', hsame]
  exact hrequest

/-! ## Drafts that were never marked -/

/-- A marked draft has its object. -/
theorem object_of_marked (h : Reachable (videoSystem cfg) P {} c)
    {x : VideoEntry} (hx : x ∈ c.log) {r₀ : Video} (hr₀ : Inserted c.log r₀)
    (hmark : x.op.marked x.res = some r₀.id) :
    (c.state.objects r₀.storage_key).isSome = true := by
  obtain ⟨older, hsuffix, hlaw⟩ := (traced_of_reachable h).at_mem hx
  have holder : older <:+ c.log := (List.suffix_cons x older).trans hsuffix
  obtain ⟨v, hheld, hid, size, y, hy, hshown⟩ := held_of_marked hlaw hmark
  obtain ⟨r₁, hr₁, hdesc⟩ := known_of_held h holder hheld
  have hsame : r₁ = r₀ := by
    apply (provenance_of_reachable h).1.unique_id r₁ r₀ hr₁ hr₀
    rw [← hdesc.id, hid]
  apply isSome_objects_of_seen h
  rw [← hsame, ← hdesc.storage_key]
  exact ⟨y, holder.subset (mem_own.1 hy).1, hshown⟩

/-- A sweep, or a worker, has given the video up. -/
def GivenUp (log : VideoLog) (id : Nat) : Prop :=
  ∃ x ∈ log, x.op = .updateVideo id failedPatch ∧ x.res.isOk = true

/-- Nobody has marked the video. -/
def Unmarked (log : VideoLog) (id : Nat) : Prop :=
  ∀ x ∈ log, x.op.marked x.res ≠ some id

/-- The row is the inserted one, marked `failed` when it was given up. -/
def Untouched (s : Store) (log : VideoLog) (r₀ : Video) : Prop :=
  ¬ GivenUp log r₀.id ∧ s.row? r₀.id = some r₀ ∨
    GivenUp log r₀.id ∧ s.row? r₀.id = some (failedPatch.apply r₀)

/-- Only inserted rows are updated. -/
theorem inserted_of_updated (h : Reachable (videoSystem cfg) P {} c)
    {x : VideoEntry} (hx : x ∈ c.log) {id : Nat} {patch : VideoPatch}
    (hop : x.op = .updateVideo id patch) :
    ∃ r₀, Inserted c.log r₀ ∧ r₀.id = id := by
  obtain ⟨older, hsuffix, hlaw⟩ := (traced_of_reachable h).at_mem hx
  have holder : older <:+ c.log := (List.suffix_cons x older).trans hsuffix
  rw [hop] at hlaw
  rcases hlaw with ⟨v, hv, hid, _⟩ | ⟨job, ⟨_, ⟨y, hy, htaken⟩, _⟩, hid, _⟩
  · obtain ⟨r₀, hr₀, hdesc⟩ := known_of_held h holder (.inr hv)
    exact ⟨r₀, hr₀, hdesc.id.symm.trans hid⟩
  · have hy' : y ∈ c.log := holder.subset (mem_own.1 hy).1
    obtain ⟨r₀, hr₀, hid₀, _⟩ := jobOf_of_added h (added_of_handed h hy' htaken)
    exact ⟨r₀, hr₀, hid₀.trans hid⟩

/-- A worker only touches marked videos. -/
theorem marked_of_working (h : Reachable (videoSystem cfg) P {} c)
    {request : VideoRequest} {t : Nat} {job : ProcessVideoJobData}
    (hjob : Working request (own t c.log) job) :
    ¬ Unmarked c.log job.video_id := by
  obtain ⟨_, ⟨x, hx, htaken⟩, _⟩ := hjob
  obtain ⟨y, hy, hmark⟩ :=
    marked_of_added h (added_of_handed h (mem_own.1 hx).1 htaken)
  exact fun hunmarked => hunmarked y hy hmark

/-- Only `save` and `update` change rows that are there. -/
theorem row?_answer {s : Store} {id : Nat} {r : Video} (h : s.row? id = some r)
    {m : Moment} {op : VideoOp} {fault : Option VideoError}
    (hrewrite : op.rewritesRow = false) :
    ((videoSystem cfg).answer m op fault s).2.row? id = some r := by
  cases fault with
  | some e => exact h
  | none => exact Store.row?_exec h m op hrewrite

/-- Another call leaves an untouched row alone. -/
theorem Untouched.of_row {s : Store} {log : VideoLog} {r₀ : Video} {t : Nat}
    {request : VideoRequest} {m : Moment} {op : VideoOp}
    {fault : Option VideoError} (h : Untouched s log r₀)
    (hop : op = .updateVideo r₀.id failedPatch →
      ((videoSystem cfg).answer m op fault s).1.isOk = false)
    (hrow : ∀ r, s.row? r₀.id = some r →
      ((videoSystem cfg).answer m op fault s).2.row? r₀.id = some r) :
    Untouched ((videoSystem cfg).answer m op fault s).2
      ((videoSystem cfg).entry t request m op fault s :: log) r₀ := by
  have hback : GivenUp ((videoSystem cfg).entry t request m op fault s :: log)
      r₀.id → GivenUp log r₀.id := by
    rintro ⟨y, hy, hfailed, hok⟩
    rcases List.mem_cons.1 hy with rfl | hy
    · exact nomatch (hop hfailed).symm.trans hok
    · exact ⟨y, hy, hfailed, hok⟩
  rcases h with ⟨hnot, hr⟩ | ⟨⟨y, hy, hfailed⟩, hr⟩
  · exact .inl ⟨fun hup => hnot (hback hup), hrow _ hr⟩
  · exact .inr ⟨⟨y, .tail _ hy, hfailed⟩, hrow _ hr⟩

/-- A call that marks nothing leaves a row untouched. -/
theorem Untouched.answer {b b' : VideoRun}
    (hb : Reachable (videoSystem cfg) P {} b)
    (hb' : Reachable (videoSystem cfg) P {} b') {t : Nat}
    {request : VideoRequest} {m : Moment} {op : VideoOp}
    {fault : Option VideoError} {r₀ : Video}
    (hunmarked : Unmarked b'.log r₀.id) (h : Untouched b.state b.log r₀)
    (hlog : b'.log = (videoSystem cfg).entry t request m op fault b.state ::
      b.log) :
    Untouched ((videoSystem cfg).answer m op fault b.state).2 b'.log r₀ := by
  have hlaw : Traced cfg.uuid request (own t b.log) op := traced_newest hb' hlog
  rw [hlog] at hunmarked ⊢
  have hmark : op.marked ((videoSystem cfg).answer m op fault b.state).1 ≠
      some r₀.id := hunmarked _ (.head _)
  have hold : Unmarked b.log r₀.id := fun x hx => hunmarked x (.tail _ hx)
  cases fault with
  | some e => exact h.of_row (fun _ => rfl) fun _ hr => hr
  | none =>
      cases op with
      | saveVideo w =>
          apply h.of_row
          · exact nofun
          · intro r hr
            have hne : r.id ≠ w.id := by
              intro heq
              apply hmark
              show some w.id = some r₀.id
              rw [← heq, Store.row?_id hr]
            exact (Store.row?_saveVideo b.state w r₀.id).trans (by
              rw [hr, Option.map_some, if_neg hne])
      | updateVideo key patch =>
          by_cases hkey : key = r₀.id
          · subst hkey
            have hpatch : patch = failedPatch := by
              rcases hlaw with ⟨_, _, _, ⟨rfl, _⟩ | ⟨rfl, _⟩⟩ |
                ⟨job, hjob, hid, _⟩
              · exact absurd (VideoOp.rescues_eq r₀.id) hmark
              · rfl
              · rw [← hid] at hold
                exact absurd hold (marked_of_working hb hjob)
            subst hpatch
            refine .inr ⟨⟨_, .head _, rfl, rfl⟩, ?_⟩
            have hrow : b.state.row? r₀.id = some r₀ ∨
                b.state.row? r₀.id = some (failedPatch.apply r₀) := by
              rcases h with ⟨_, hr⟩ | ⟨_, hr⟩
              · exact .inl hr
              · exact .inr hr
            refine (Store.row?_updateVideo b.state r₀.id _ r₀.id).trans ?_
            rcases hrow with hr | hr
            · rw [hr, Option.map_some, if_pos rfl]
            · rw [hr, Option.map_some, if_pos (Store.row?_id hr)]
              rfl
          · apply h.of_row
            · intro hop
              cases hop
              exact absurd rfl hkey
            · intro r hr
              have hne : r.id ≠ key := by
                rw [Store.row?_id hr]
                exact Ne.symm hkey
              show (Store.exec m (.updateVideo key patch)
                b.state).2.row? r₀.id = some r
              rcases Store.exec_updateVideo_cases m key patch b.state with
                hexec | hexec
              · rw [hexec, Store.row?_updateVideo, hr, Option.map_some,
                  if_neg hne]
              · rw [hexec]
                exact hr
      | _ =>
          apply h.of_row
          · exact nofun
          · exact fun r hr => row?_answer hr (by rfl)

/-- What an insertion that goes through inserts. -/
theorem insertedRow_answer_iff {s : Store} {m : Moment} {op : VideoOp}
    {fault : Option VideoError} {r : Video} :
    op.insertedRow ((videoSystem cfg).answer m op fault s).1 = some r ↔
      ∃ v, op = .insertVideo v ∧
        ((videoSystem cfg).answer m op fault s).1.isOk = true ∧
        r = s.newRow m v := by
  cases fault with
  | some e =>
      constructor
      · exact fun h => absurd h (by cases op <;> exact nofun)
      · exact fun ⟨_, _, hok, _⟩ => nomatch hok
  | none =>
      cases op with
      | insertVideo v =>
          show VideoOp.insertedRow (.insertVideo v) (s.insertVideo m v).1 =
            some r ↔ ∃ w, VideoOp.insertVideo v = .insertVideo w ∧
              (s.insertVideo m v).1.isOk = true ∧ r = s.newRow m w
          unfold Store.insertVideo
          split
          · constructor
            · intro h
              exact ⟨v, rfl, rfl, (Option.some.inj h).symm⟩
            · rintro ⟨w, hop, _, rfl⟩
              cases hop
              rfl
          · exact iff_of_false nofun fun ⟨_, _, hok, _⟩ => nomatch hok
      | _ => exact iff_of_false nofun fun ⟨_, hop, _⟩ => nomatch hop

/-- A row is inserted as the call says. -/
theorem insertedRow_iff (h : Reachable (videoSystem cfg) P {} c) {x : VideoEntry}
    (hx : x ∈ c.log) {r : Video} :
    x.op.insertedRow x.res = some r ↔
      ∃ v, x.op = .insertVideo v ∧ x.res.isOk = true ∧
        r = x.before.newRow x.amb v := by
  obtain ⟨b, fault, k, _, _, _, _, heq, _⟩ := h.entry_config hx
  rw [heq]
  exact insertedRow_answer_iff

/-- A new row is untouched. -/
theorem untouched_of_inserted {b b' : VideoRun}
    (hb : Reachable (videoSystem cfg) P {} b) {t : Nat}
    {request : VideoRequest} {m : Moment} {op : VideoOp}
    {fault : Option VideoError} {r₀ : Video}
    (hlog : b'.log = (videoSystem cfg).entry t request m op fault b.state ::
      b.log)
    (hrow : op.insertedRow ((videoSystem cfg).answer m op fault b.state).1 =
      some r₀) :
    Untouched ((videoSystem cfg).answer m op fault b.state).2 b'.log r₀ := by
  obtain ⟨v, rfl, hok, rfl⟩ := insertedRow_answer_iff.1 hrow
  cases fault with
  | some e => exact nomatch hok
  | none =>
      have hkeyed := (keyed_of_reachable hb).insertVideo m v
      have hinsert : (b.state.insertVideo m v).1.isOk = true := hok
      show Untouched (b.state.insertVideo m v).2 b'.log _
      unfold Store.insertVideo at hkeyed hinsert ⊢
      split at hinsert
      · next hinsertable =>
          rw [if_pos hinsertable] at hkeyed ⊢
          refine .inl ⟨?_, hkeyed.found _ ?_⟩
          · rintro ⟨y, hy, hfailed, _⟩
            rw [hlog] at hy
            rcases List.mem_cons.1 hy with rfl | hy
            · exact nomatch hfailed
            · obtain ⟨r₁, hr₁, hid⟩ := inserted_of_updated hb hy hfailed
              have hlt := (provenance_of_reachable hb).1.fresh r₁ hr₁
              rw [hid] at hlt
              exact absurd hlt (Nat.lt_irrefl _)
          · exact List.mem_append_right _ (List.mem_singleton.2 rfl)
      · exact nomatch hinsert

/-- Until a draft is marked, its row is untouched. -/
theorem row_of_unmarked (h : Reachable (videoSystem cfg) P {} c) {r₀ : Video}
    (hr₀ : Inserted c.log r₀) (hunmarked : Unmarked c.log r₀.id) :
    Untouched c.state c.log r₀ := by
  have hinv : ∀ r₀, Inserted c.log r₀ → Unmarked c.log r₀.id →
      Untouched c.state c.log r₀ := by
    apply Reachable.answers (fun s log => ∀ r₀, Inserted log r₀ →
      Unmarked log r₀.id → Untouched s log r₀) ?_ ?_ h
    · rintro r₀ ⟨x, hx, _⟩
      exact nomatch hx
    · rintro b b' t request m op fault hb hb' hinv _ hlog r₀ ⟨x, hx, hrow⟩ hun
      rw [hlog] at hx
      rcases List.mem_cons.1 hx with rfl | hx
      · exact untouched_of_inserted hb hlog hrow
      · have hold : Unmarked b.log r₀.id := by
          intro y hy
          apply hun y
          rw [hlog]
          exact .tail _ hy
        exact (hinv r₀ ⟨x, hx, hrow⟩ hold).answer hb hb' hun hlog
  exact hinv r₀ hr₀ hunmarked

end Runs

end Videum.Videos
