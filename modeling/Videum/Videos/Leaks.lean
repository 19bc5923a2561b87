import Videum.Async.Alone
import Videum.Videos.Drafts

/-!
# Multipart uploads that stay open

`createDraft` starts a multipart upload, signs the URLs of its parts, and
inserts the row that names it last; no call ever aborts an upload, so an open
upload is either named by an `uploading` row or leaked.  There are two ways to
leak it: the call that started it fails afterwards, at a signature or at the
insertion, and nothing refers to the upload any more, or a sweep gives the
draft up without a word to storage.  There is no third way.

## Main results

* `started_unique` — every upload has been started once.
* `no_leaks_iff` — the old open uploads all belong to `uploading` rows exactly
  when none of them was leaked in one of the two ways.
* `upload_leaked` — a draft whose insertion fails leaks its upload.
-/

namespace Videum.Videos

open Videum.Async

/-- Every open upload started before `cutoff` is the upload of an `uploading`
row. -/
def NoLeaks (s : Store) (cutoff : Int) : Prop :=
  ∀ id u, s.uploads id = some u → u.completed = false →
    u.started_at < cutoff →
      ∃ r ∈ s.videos, r.upload_id = some id ∧ r.status = .uploading

/-- The `createDraft` that started this upload has failed. -/
def DraftFailed (c : VideoRun) (id : Nat) : Prop :=
  ∃ x ∈ c.log, (∃ key, x.op.startedUpload x.res = some (key, id)) ∧
    ∃ th e, c.threads[x.tid]? = some th ∧ th.prog = Prog.throw e

/-- The draft that started this upload has been given up. -/
def Abandoned (log : VideoLog) (id : Nat) : Prop :=
  ∃ r₀, Inserted log r₀ ∧ r₀.upload_id = some id ∧ GivenUp log r₀.id

/-! ## Uploads and the calls that started them -/

/-- The upload was started by a call of the log. -/
def StartedIn (log : VideoLog) (id : Nat) : Prop :=
  ∃ x ∈ log, ∃ key, x.op.startedUpload x.res = some (key, id)

/-- Uploads are started before they are there, under new ids. -/
structure Started (s : Store) (log : VideoLog) : Prop where
  opened : ∀ id u, s.uploads id = some u → StartedIn log id
  fresh : ∀ id, StartedIn log id → id < s.nextUploadId

section Step

variable {cfg : VideoConfig} {s : Store} {m : Moment} {op : VideoOp}
  {fault : Option VideoError}

theorem VideoOp.of_startedUpload {res : Except VideoError op.Res}
    {key : String} {id : Nat} (h : op.startedUpload res = some (key, id)) :
    ∃ contentType, op = .createMultipartUpload key contentType := by
  cases op with
  | createMultipartUpload key' contentType =>
      cases res with
      | error e => exact nomatch h
      | ok created =>
          cases created with
          | none => exact nomatch h
          | some id' =>
              cases h
              exact ⟨contentType, rfl⟩
  | _ => exact nomatch h

/-- A call starts an upload under the next id, and uses it up. -/
theorem startedUpload_answer {key : String} {id : Nat}
    (h : op.startedUpload ((videoSystem cfg).answer m op fault s).1 =
      some (key, id)) :
    id = s.nextUploadId ∧
      ((videoSystem cfg).answer m op fault s).2.nextUploadId = id + 1 := by
  cases fault with
  | some e => exact absurd h (by cases op <;> exact nofun)
  | none =>
      cases op with
      | createMultipartUpload key' contentType =>
          have hid : some (key', s.nextUploadId) = some (key, id) := h
          cases hid
          exact ⟨rfl, rfl⟩
      | _ => exact nomatch h

theorem nextUploadId_answer :
    s.nextUploadId ≤ ((videoSystem cfg).answer m op fault s).2.nextUploadId := by
  cases fault with
  | some e => exact Nat.le_refl _
  | none =>
      show s.nextUploadId ≤ (Store.exec m op s).2.nextUploadId
      cases op with
      | createMultipartUpload key contentType => exact Nat.le_succ _
      | _ => rw [(Store.frame_exec m _ s).nextUploadId (by rfl)]

/-- An upload after a call was there before it, or the call has started it. -/
theorem uploads_answer {id : Nat}
    (h : (((videoSystem cfg).answer m op fault s).2.uploads id).isSome = true) :
    (s.uploads id).isSome = true ∨ ∃ key,
      op.startedUpload ((videoSystem cfg).answer m op fault s).1 =
        some (key, id) := by
  have hupdate : ∀ (key : Nat) (u u' : MultipartUpload),
      s.uploads key = some u →
      (Function.update s.uploads key (some u') id).isSome = true →
      (s.uploads id).isSome = true := by
    intro key u u' hu hsome
    by_cases hid : id = key
    · rw [hid, hu, Option.isSome_some]
    · rwa [Function.update_of_ne hid] at hsome
  cases fault with
  | some e => exact .inl h
  | none =>
      have hexec : ((Store.exec m op s).2.uploads id).isSome = true := h
      cases op with
      | createMultipartUpload key contentType =>
          by_cases hid : id = s.nextUploadId
          · right
            rw [hid]
            exact ⟨key, rfl⟩
          · simp only [Store.exec, Store.createMultipartUpload,
              Function.update_of_ne hid] at hexec
            exact .inl hexec
      | uploadPart key part =>
          simp only [Store.exec, Store.uploadPart] at hexec
          split at hexec
          · next u hu =>
              split at hexec
              · exact .inl hexec
              · exact .inl (hupdate key u _ hu hexec)
          · exact .inl hexec
      | completeMultipartUpload key uploadId parts =>
          simp only [Store.exec, Store.completeMultipartUpload] at hexec
          split at hexec
          · next u size hc =>
              exact .inl (hupdate uploadId u _ (Store.completable_upload hc)
                hexec)
          · exact .inl hexec
      | _ =>
          rw [(Store.frame_exec m _ s).uploads (by rfl)] at hexec
          exact .inl hexec

end Step

section Runs

variable {cfg : VideoConfig} {P : VideoPolicy} {c : VideoRun}

theorem started_empty : Started {} [] :=
  ⟨(fun _ _ hu => nomatch hu), fun _ ⟨_, hx, _⟩ => nomatch hx⟩

theorem started_of_reachable (h : Reachable (videoSystem cfg) P {} c) :
    Started c.state c.log := by
  apply Reachable.answers Started started_empty ?_ h
  intro b b' t request m op fault _ _ hinv _ hlog
  have hold : ∀ id, StartedIn b.log id → StartedIn b'.log id := by
    rintro id ⟨x, hx, hstarted⟩
    rw [hlog]
    exact ⟨x, .tail _ hx, hstarted⟩
  constructor
  · intro id u hu
    have hsome : (((videoSystem cfg).answer m op fault b.state).2.uploads
        id).isSome = true := by
      rw [hu, Option.isSome_some]
    rcases uploads_answer hsome with hbefore | ⟨key, hstarted⟩
    · obtain ⟨u', hu'⟩ := Option.isSome_iff_exists.1 hbefore
      exact hold id (hinv.opened id u' hu')
    · rw [hlog]
      exact ⟨_, .head _, key, hstarted⟩
  · rintro id ⟨x, hx, key, hstarted⟩
    rw [hlog] at hx
    rcases List.mem_cons.1 hx with rfl | hx
    · have hnext := (startedUpload_answer hstarted).2
      exact Nat.lt_of_lt_of_le (Nat.lt_succ_self id) (Nat.le_of_eq hnext.symm)
    · exact Nat.lt_of_lt_of_le (hinv.fresh id ⟨x, hx, key, hstarted⟩)
        nextUploadId_answer

/-- Every upload has been started once. -/
theorem started_unique (h : Reachable (videoSystem cfg) P {} c)
    {x y : VideoEntry} (hx : x ∈ c.log) (hy : y ∈ c.log) {key key' : String}
    {id : Nat} (hstarted : x.op.startedUpload x.res = some (key, id))
    (hstarted' : y.op.startedUpload y.res = some (key', id)) : x = y := by
  have hnot : ∀ (a b : VideoEntry) (older : VideoLog) (k k' : String),
      (a :: older) <:+ c.log → b ∈ older →
      a.op.startedUpload a.res = some (k, id) →
      b.op.startedUpload b.res ≠ some (k', id) := by
    intro a b older k k' hsuffix hb ha hb'
    obtain ⟨d, fault, _, hd, rfl, hat, _⟩ := h.split_at hsuffix
    have hlt := (started_of_reachable hd).fresh id ⟨b, hb, k', hb'⟩
    rw [hat.eq] at ha
    have heq := (startedUpload_answer ha).1
    omega
  rcases older_or_newer hx hy with heq | ⟨older, hs, hmem⟩ | ⟨older, hs, hmem⟩
  · exact heq
  · exact absurd hstarted' (hnot x y older key key' hs hmem hstarted)
  · exact absurd hstarted (hnot y x older key' key hs hmem hstarted')

/-- The thread that inserts a draft has started its upload, and signed URLs
since. -/
theorem started_of_insert (h : Reachable (videoSystem cfg) P {} c)
    {x : VideoEntry} {older : VideoLog} (hx : (x :: older) <:+ c.log)
    {v : NewVideo} (hop : x.op = .insertVideo v) {id : Nat}
    (hupload : v.upload_id = some id) :
    ∃ z ∈ c.log, Signing (own x.tid older) z ∧
      z.op.startedUpload z.res = some (v.storage_key, id) := by
  have hlaw := traced_of_reachable h x older hx
  rw [hop] at hlaw
  obtain ⟨_, _, z, id', hsigning, hstarted, hid⟩ := hlaw
  rw [hupload] at hid
  cases hid
  have hz : z ∈ older := (mem_own.1 hsigning.mem).1
  exact ⟨z, hx.subset (.tail _ hz), hsigning, hstarted⟩

/-- Every upload has one insertion, and that is tried once. -/
theorem insert_unique (h : Reachable (videoSystem cfg) P {} c)
    {x y : VideoEntry} (hx : x ∈ c.log) (hy : y ∈ c.log) {v v' : NewVideo}
    (hop : x.op = .insertVideo v) (hop' : y.op = .insertVideo v') {id : Nat}
    (hupload : v.upload_id = some id) (hupload' : v'.upload_id = some id) :
    x = y := by
  have hnot : ∀ (a b : VideoEntry) (older : VideoLog) (w w' : NewVideo),
      (a :: older) <:+ c.log → b ∈ older → a.op = .insertVideo w →
      b.op = .insertVideo w' → w.upload_id = some id →
      w'.upload_id ≠ some id := by
    intro a b older w w' hsuffix hb ha hb' hw hw'
    have holder : older <:+ c.log := (List.suffix_cons a older).trans hsuffix
    obtain ⟨older', hsplit⟩ := older_of_mem hb
    have hsuffix' : (b :: older') <:+ c.log := hsplit.trans holder
    obtain ⟨z, hz, hown, hstarted⟩ := started_of_insert h hsuffix ha hw
    obtain ⟨z', hz', hown', hstarted'⟩ := started_of_insert h hsuffix' hb' hw'
    have hsame := started_unique h hz hz' hstarted hstarted'
    subst hsame
    have htid : b.tid = a.tid :=
      (mem_own.1 hown'.mem).2.symm.trans (mem_own.1 hown.mem).2
    have hbz : b = z := by
      apply hown.eq_of_mem (mem_own.2 ⟨hb, htid⟩)
      rw [hb']
      rfl
    rw [← hbz, VideoOp.startedUpload_of_insert hb'] at hstarted
    exact nomatch hstarted
  rcases older_or_newer hx hy with heq | ⟨older, hs, hmem⟩ | ⟨older, hs, hmem⟩
  · exact heq
  · exact absurd hupload' (hnot x y older v v' hs hmem hop hop' hupload)
  · exact absurd hupload (hnot y x older v' v hs hmem hop' hop hupload')

/-- Every upload has one row at most. -/
theorem inserted_unique (h : Reachable (videoSystem cfg) P {} c)
    {r₀ r₁ : Video} (hr₀ : Inserted c.log r₀) (hr₁ : Inserted c.log r₁) {id : Nat}
    (hupload₀ : r₀.upload_id = some id) (hupload₁ : r₁.upload_id = some id) :
    r₀ = r₁ := by
  obtain ⟨x, hx, hrow⟩ := hr₀
  obtain ⟨y, hy, hrow'⟩ := hr₁
  obtain ⟨v, hop, _, rfl⟩ := (insertedRow_iff h hx).1 hrow
  obtain ⟨v', hop', _, rfl⟩ := (insertedRow_iff h hy).1 hrow'
  have hsame := insert_unique h hx hy hop hop' hupload₀ hupload₁
  subst hsame
  exact Option.some.inj (hrow.symm.trans hrow')

/-- The draft of an open upload was never marked. -/
theorem unmarked_of_open (h : Reachable (videoSystem cfg) P {} c) {id : Nat}
    {u : MultipartUpload} (hu : c.state.uploads id = some u)
    (hopen : u.completed = false) {r₀ : Video} (hr₀ : Inserted c.log r₀)
    (hupload : r₀.upload_id = some id) : Unmarked c.log r₀.id := by
  intro x hx hmark
  have hprov := (provenance_of_reachable h).1
  have hobject := object_of_marked h hx hr₀ hmark
  obtain ⟨size, hsize⟩ := Option.isSome_iff_exists.1 hobject
  obtain ⟨publicId, hkey⟩ := hprov.original r₀ hr₀
  rw [hkey] at hsize
  obtain ⟨r₁, id₁, u₁, hr₁, hkey₁, hid₁, hu₁, hdone⟩ :=
    hprov.objects publicId size hsize
  have hsame : r₁ = r₀ := by
    apply hprov.unique_key r₁ r₀ hr₁ hr₀
    rw [hkey₁, hkey]
  rw [hsame, hupload] at hid₁
  cases hid₁
  rw [hu] at hu₁
  cases hu₁
  rw [hopen] at hdone
  exact nomatch hdone

/-- The call that has started an upload, and how it has ended. -/
theorem drafted_of_started (h : Reachable (videoSystem cfg) P {} c)
    (hidle : c.idle = true) {x : VideoEntry} (hx : x ∈ c.log) {key : String}
    {id : Nat} (hstarted : x.op.startedUpload x.res = some (key, id)) :
    ∃ th r, c.threads[x.tid]? = some th ∧ th.prog = Prog.ofExcept r ∧
      Drafted r (own x.tid c.log) := by
  obtain ⟨th, hth, hrequest⟩ := Reachable.logOwned h x hx
  have hended := Config.idle_iff.1 hidle th (List.mem_of_getElem? hth)
  obtain ⟨r, hprog, hdone⟩ := ended_of_reachable h hth hended
  obtain ⟨older, _, hlaw⟩ := (traced_of_reachable h).at_mem hx
  obtain ⟨contentType, hop⟩ := VideoOp.of_startedUpload hstarted
  rw [hop] at hlaw
  obtain ⟨⟨ownerId, dto, hdraft⟩, _⟩ := hlaw
  rw [hrequest, hdraft] at hdone
  exact ⟨th, r, hth, hprog, hdone⟩

/-- The draft of an upload was inserted, unless the call that started it has
failed. -/
theorem inserted_of_open (h : Reachable (videoSystem cfg) P {} c)
    (hidle : c.idle = true) {id : Nat} {u : MultipartUpload}
    (hu : c.state.uploads id = some u) (hfailed : ¬ DraftFailed c id) :
    ∃ y ∈ c.log, ∃ v, y.op = .insertVideo v ∧ v.upload_id = some id ∧
      y.res.isOk = true := by
  obtain ⟨x, hx, key, hstarted⟩ := (started_of_reachable h).opened id u hu
  obtain ⟨th, r, hth, hprog, hdrafted⟩ := drafted_of_started h hidle hx hstarted
  cases r with
  | error e => exact absurd ⟨x, hx, ⟨key, hstarted⟩, th, e, hth, hprog⟩ hfailed
  | ok reply =>
      obtain ⟨y, hy, hinsert⟩ :=
        hdrafted x (mem_own.2 ⟨hx, rfl⟩) key id hstarted
      exact ⟨y, (mem_own.1 hy).1, hinsert⟩

/-- A draft that was inserted was returned to its client. -/
theorem not_draftFailed (h : Reachable (videoSystem cfg) P {} c)
    (hidle : c.idle = true) {r₀ : Video} (hr₀ : Inserted c.log r₀) {id : Nat}
    (hupload : r₀.upload_id = some id) : ¬ DraftFailed c id := by
  rintro ⟨x, hx, ⟨key, hstarted⟩, th, e, hth, hprog⟩
  obtain ⟨y, hy, hrow⟩ := hr₀
  obtain ⟨v, hop, hok, rfl⟩ := (insertedRow_iff h hy).1 hrow
  obtain ⟨older, hsuffix⟩ := older_of_mem hy
  obtain ⟨z, hz, hown, hstarted'⟩ := started_of_insert h hsuffix hop hupload
  have hsame := started_unique h hx hz hstarted hstarted'
  subst hsame
  obtain ⟨th', r, hth', hprog', hdrafted⟩ :=
    drafted_of_started h hidle hx hstarted
  rw [hth] at hth'
  cases hth'
  cases r with
  | ok reply => exact nomatch hprog.symm.trans hprog'
  | error e' =>
      have htid : y.tid = x.tid := (mem_own.1 hown.mem).2.symm
      rw [hdrafted y (mem_own.2 ⟨hy, htid⟩) v hop] at hok
      exact nomatch hok

/--
**What is leaked.**  Over every interleaving, with any calls failing, whenever
the process is idle, as it is right after a sweep that was served alone: the
open uploads started before `cutoff` all belong to `uploading` rows if and only
if none of them was left by a `createDraft` that failed or by a draft given up.
-/
theorem no_leaks_iff (h : Reachable (videoSystem cfg) P {} c)
    (hidle : c.idle = true) (cutoff : Int) :
    NoLeaks c.state cutoff ↔
      ∀ id u, c.state.uploads id = some u → u.completed = false →
        u.started_at < cutoff →
          ¬ DraftFailed c id ∧ ¬ Abandoned c.log id := by
  have hprov := (provenance_of_reachable h).1
  constructor
  · intro hleaks id u hu hopen hold
    obtain ⟨r, hr, hupload, hstatus⟩ := hleaks id u hu hopen hold
    obtain ⟨r₀, hr₀, hdesc⟩ := hprov.rows r hr
    have hupload₀ : r₀.upload_id = some id := by
      rcases hdesc.upload_id with hnone | hsame
      · exact nomatch hupload.symm.trans hnone
      · exact hsame.symm.trans hupload
    refine ⟨not_draftFailed h hidle hr₀ hupload₀, ?_⟩
    rintro ⟨r₁, hr₁, hupload₁, hgiven⟩
    rw [inserted_unique h hr₁ hr₀ hupload₁ hupload₀] at hgiven
    have hunmarked := unmarked_of_open h hu hopen hr₀ hupload₀
    have hrow := (keyed_of_reachable h).found r hr
    rw [hdesc.id] at hrow
    rcases row_of_unmarked h hr₀ hunmarked with ⟨hnot, _⟩ | ⟨_, hfailed⟩
    · exact hnot hgiven
    · rw [hrow] at hfailed
      have hstatus' : r.status = .failed := by
        rw [Option.some.inj hfailed]
        rfl
      rw [hstatus] at hstatus'
      exact nomatch hstatus'
  · intro hleft id u hu hopen hold
    obtain ⟨hdraft, habandoned⟩ := hleft id u hu hopen hold
    obtain ⟨y, hy, v, hop, hv, hok⟩ := inserted_of_open h hidle hu hdraft
    have hrow := (insertedRow_iff h hy).2 ⟨v, hop, hok, rfl⟩
    have hr₀ : Inserted c.log (y.before.newRow y.amb v) := ⟨y, hy, hrow⟩
    have hunmarked := unmarked_of_open h hu hopen hr₀ hv
    rcases row_of_unmarked h hr₀ hunmarked with ⟨_, hr⟩ | ⟨hgiven, _⟩
    · refine ⟨_, Store.row?_mem hr, hv, ?_⟩
      obtain ⟨older, _, hlaw⟩ := (traced_of_reachable h).at_mem hy
      rw [hop] at hlaw
      exact hlaw.1
    · exact absurd ⟨_, hr₀, hv, hgiven⟩ habandoned

end Runs

/-! ## A leaked upload -/

/-- A sweep that arrived at the idle process `c₀` at the moment `m` has been
served, and nothing else since. -/
structure AfterSweep (cfg : VideoConfig) (c₀ c : VideoRun) (m : Moment) :
    Prop where
  reachable : Reachable (videoSystem cfg) oneAtATime {} c₀
  before : c₀.idle = true
  run : Steps (videoSystem cfg) oneAtATime
    ((videoSystem cfg).spawn c₀ .sweep m) c
  after : c.idle = true
  only : c.threads.length = c₀.threads.length + 1

/-- The upload of a draft is started, and its insertion fails. -/
def failedInsert : List (Tick Moment VideoError VideoRequest) :=
  Tick.serve (.createDraft 1 sampleDraft) 0 2 { publicId := "v" } ++
  [.perform 0 { now := 1 } (some .database)]

/-- More than an hour later a sweep comes by. -/
def sweptFailure : VideoRun :=
  ((videoSystem {}).schedule oneAtATime
    ((videoSystem {}).spawn (videoRun failedInsert (by decide)) .sweep
      { now := 3600001 })
    (Tick.answers 1 1 { now := 3600001 })).get (by decide)

theorem afterSweep_sweptFailure :
    AfterSweep {} (videoRun failedInsert (by decide)) sweptFailure
      { now := 3600001 } := by
  refine { reachable := ?_, before := by decide, run := ?_, after := by decide
           only := by decide }
  · exact Reachable.of_schedule failedInsert (by decide) (by decide)
  · exact Steps.of_schedule _ (Option.some_get _).symm (by decide)

/-- The sweep reads the table, and nothing there names the upload. -/
theorem upload_leaked :
    ¬ ∀ (c₀ c : VideoRun) (m : Moment), AfterSweep {} c₀ c m →
      NoLeaks c.state (m.now - 3600000) := by
  intro h
  have hleaks := h _ _ _ afterSweep_sweptFailure
  obtain ⟨r, hr, _⟩ := hleaks 0 _ rfl rfl (by decide)
  have hnone : sweptFailure.state.videos = [] := by decide
  rw [hnone] at hr
  exact nomatch hr

/-- A draft whose row is five milliseconds younger than its upload, at a sweep
whose cutoff lies between the two. -/
def youngDraft : VideoRun :=
  videoRun
    (Tick.serve (.createDraft 1 sampleDraft) 0 2 { publicId := "v" } ++
      Tick.answers 0 1 { now := 5 } ++
      Tick.serve .sweep 1 1 { now := 3600003 })
    (by decide)

theorem no_leaks_youngDraft :
    (youngDraft.state.uploads 0).map (fun u => (u.completed, u.started_at)) =
        some (false, 0) ∧
      (NoLeaks youngDraft.state 3 ↔
        ∀ id u, youngDraft.state.uploads id = some u → u.completed = false →
          u.started_at < 3 →
            ¬ DraftFailed youngDraft id ∧ ¬ Abandoned youngDraft.log id) :=
  ⟨by decide, no_leaks_iff (reachable_videoRun _ _) (by decide) 3⟩

end Videum.Videos
