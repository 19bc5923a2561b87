import Videum.Auth.Service
import Videum.Videos.Drafts

/-!
# Watching and downloading

`VideosService.getForPlayback` and `getDownloadUrl` (`videos/videos.service.ts`)
behind their routes (`videos/videos.controller.ts`), which let everybody in:
the guard attaches the user of a token it can verify, and nobody otherwise.
Both methods look the video up by one shared rule, so what a requester gets
depends on the `ready` rows and on the requester's own rows, and on nothing
else in the table.

## Main results

* `eval_findVisibleVideo` — the shared lookup is a lookup among what the
  requester may see.
* `uniquePublicIds_of_reachable` — no two rows have one public id.
* `unpublished_invisible` — two tables that agree on what the requester may
  see give the same answers.
-/

namespace Videum.Videos

open Videum.Async
open Videum.Common

/-! ## Presigned downloads -/

/-- A presigned GET URL: the object it opens, and the content disposition the
storage is to answer with. -/
structure PresignedGet where
  key : String
  disposition : Option String
  deriving DecidableEq, Repr

/-- A text that counts as true: it is there and not empty. -/
def truthy (text : Option String) : Option String :=
  text.filter (· ≠ "")

def getPresignedGetUrl (storageKey : String)
    (downloadFilename : Option String := none) : PresignedGet :=
  { key := storageKey
    disposition := (truthy downloadFilename).map fun name =>
      "attachment; filename=\"" ++ name ++ "\"" }

/-! ## `VideosService` -/

structure VideoPlaybackResult where
  public_id : String
  title : String
  status : VideoStatus
  duration_seconds : Option Int
  thumbnail_url : Option PresignedGet
  playback_url : Option PresignedGet
  deriving DecidableEq, Repr

section Service

-- How the database reads a text as a `uuid`.
variable (uuid : String → Option String)

def isOwner (requesterId : Option Nat) (video : Video) : Bool :=
  requesterId == some video.owner_id

/-- Loads a video and enforces the shared visibility rule. -/
def findVisibleVideo (publicId : String) (requesterId : Option Nat) :
    VideoProg Video := do
  let video? ← findOneByPublicId uuid publicId
  match video? with
  | none => Prog.throw (.domain .VideoNotFound)
  | some video =>
      if video.status ≠ .ready ∧ isOwner requesterId video = false then
        Prog.throw (.domain .VideoNotFound)
      else return video

def getForPlayback (publicId : String) (requesterId : Option Nat) :
    VideoProg VideoPlaybackResult := do
  let video ← findVisibleVideo uuid publicId requesterId
  let playbackUrl :=
    if video.status = .ready then some (getPresignedGetUrl video.storage_key)
    else none
  let thumbnailUrl :=
    (truthy video.thumbnail_key).map fun key => getPresignedGetUrl key
  return { public_id := video.public_id
           title := video.title
           status := video.status
           duration_seconds := video.duration_seconds
           thumbnail_url := thumbnailUrl
           playback_url := playbackUrl }

def getDownloadUrl (publicId : String) (requesterId : Option Nat) :
    VideoProg PresignedGet := do
  let video ← findVisibleVideo uuid publicId requesterId
  if video.status ≠ .ready then Prog.throw (.domain .VideoNotReady)
  else return getPresignedGetUrl video.storage_key (some video.original_filename)

/-! ## The routes -/

/-- `user?.sub`. -/
def subOf (user : Option Auth.Jwt) : Option Nat :=
  user.map (·.claims.sub)

/-- `@Redirect()` with status 302. -/
structure Redirect where
  url : PresignedGet
  statusCode : Nat
  deriving DecidableEq, Repr

/-- `VideosController.getForPlayback`. -/
def playbackHandler (publicId : String) (user : Option Auth.Jwt) :
    VideoProg VideoPlaybackResult :=
  getForPlayback uuid publicId (subOf user)

/-- `VideosController.download`. -/
def downloadHandler (publicId : String) (user : Option Auth.Jwt) :
    VideoProg Redirect := do
  let url ← getDownloadUrl uuid publicId (subOf user)
  return ⟨url, 302⟩

end Service

/-- What the client gets. -/
inductive Response (α : Type)
  | answered (body : α)
  | failed (e : VideoError)
  | unauthorized
  deriving DecidableEq, Repr

/-- What the guard of an `@OptionalAuth()` route attaches as `request.user`. -/
def optionalUser (cfg : Auth.AuthConfig) (m : Auth.Moment)
    (authorization : Option Auth.AuthHeader) :
    Except Auth.AuthError (Option Auth.Jwt) :=
  ((Auth.canActivate cfg false true authorization).eval Auth.Store.exec m {}).1

/-- An `@OptionalAuth()` route: the guard, then the handler. -/
def optionalRoute {α : Type} (cfg : Auth.AuthConfig) (m : Auth.Moment)
    (authorization : Option Auth.AuthHeader)
    (handler : Option Auth.Jwt → VideoProg α) (s : Store) : Response α :=
  match optionalUser cfg m authorization with
  | .error _ => .unauthorized
  | .ok user =>
      match ((handler user).eval Store.exec { now := m.now } s).1 with
      | .ok body => .answered body
      | .error e => .failed e

/-! ## Who asks -/

/-- The user who has signed in, when the request proves it: an anonymous
request, and one whose header cannot be verified, come from nobody. -/
def requesterOf (cfg : Auth.AuthConfig) (m : Auth.Moment) :
    Option Auth.AuthHeader → Option Nat
  | some (.bearer token) => (Auth.verifyJwt cfg m token).map (·.claims.sub)
  | _ => none

/-- The guard lets every request in, as the user who has signed in. -/
theorem optionalUser_eq (cfg : Auth.AuthConfig) (m : Auth.Moment)
    (authorization : Option Auth.AuthHeader) :
    ∃ user, optionalUser cfg m authorization = .ok user ∧
      subOf user = requesterOf cfg m authorization := by
  cases authorization with
  | none => exact ⟨none, rfl, rfl⟩
  | some header =>
      cases header with
      | other text => exact ⟨none, rfl, rfl⟩
      | bearer token =>
          simp only [optionalUser, Auth.canActivate, requesterOf]
          cases hverify : Auth.verifyJwt cfg m token with
          | none => exact ⟨none, by simp [hverify], rfl⟩
          | some payload => exact ⟨some payload, by simp [hverify], rfl⟩

/-- A request whose token does not verify owns no video. -/
theorem isOwner_of_unverified {cfg : Auth.AuthConfig} {m : Auth.Moment}
    {authorization : Option Auth.AuthHeader}
    (h : ∀ token, authorization = some (.bearer token) →
      Auth.verifyJwt cfg m token = none) {user : Option Auth.Jwt}
    (huser : optionalUser cfg m authorization = .ok user) (video : Video) :
    isOwner (subOf user) video = false := by
  obtain ⟨user', huser', hsub⟩ := optionalUser_eq cfg m authorization
  rw [huser] at huser'
  rw [Except.ok.inj huser', hsub]
  cases authorization with
  | none => rfl
  | some header =>
      cases header with
      | other text => rfl
      | bearer token => simp only [requesterOf, h token rfl]; rfl

/-! ## What a requester may see -/

/-- The visibility rule. -/
def visible (requesterId : Option Nat) (video : Video) : Bool :=
  video.status = .ready || isOwner requesterId video

/-- The lookup among the rows the requester may see. -/
def visibleVideo (uuid : String → Option String) (publicId : String)
    (requesterId : Option Nat) (videos : List Video) :
    Except VideoError Video :=
  match uuid publicId with
  | none => .error .database
  | some id =>
      match videos.find? fun r => r.public_id == id && visible requesterId r with
      | none => .error (.domain .VideoNotFound)
      | some video => .ok video

/-- The unique constraint of the column `public_id`. -/
def UniquePublicIds (videos : List Video) : Prop :=
  ∀ r ∈ videos, ∀ r' ∈ videos, r.public_id = r'.public_id → r = r'

instance (videos : List Video) : Decidable (UniquePublicIds videos) :=
  inferInstanceAs (Decidable (∀ r ∈ videos, ∀ r' ∈ videos,
    r.public_id = r'.public_id → r = r'))

/-- Every table of a run satisfies the constraint: a public id determines the
storage key, which determines the insertion. -/
theorem uniquePublicIds_of_reachable {cfg : VideoConfig} {P : VideoPolicy}
    {c : VideoRun} (h : Reachable (videoSystem cfg) P {} c) :
    UniquePublicIds c.state.videos := by
  intro r hr r' hr' hid
  have hprov := (provenance_of_reachable h).1
  have hkeys := ownKeys_of_reachable h
  obtain ⟨r₀, hr₀, hdesc⟩ := hprov.rows r hr
  obtain ⟨r₁, hr₁, hdesc'⟩ := hprov.rows r' hr'
  have hkey : r₀.storage_key = r₁.storage_key := by
    rw [← hdesc.storage_key, ← hdesc'.storage_key, hkeys.rows r hr,
      hkeys.rows r' hr', hid]
  have hsame := hprov.unique_key r₀ r₁ hr₀ hr₁ hkey
  have hkeyed := keyed_of_reachable h
  have hrow := hkeyed.found r hr
  have hrow' := hkeyed.found r' hr'
  rw [show r'.id = r.id by rw [hdesc.id, hdesc'.id, hsame], hrow] at hrow'
  exact Option.some.inj hrow'

section Lookup

variable {ρ : Type} {rows rows' : List ρ} {p q : ρ → Bool}

/-- Where only one row satisfies `p`, a lookup can check `q` afterwards. -/
theorem find?_and_of_unique
    (hunique : ∀ r ∈ rows, ∀ r' ∈ rows, p r = true → p r' = true → r = r') :
    (rows.find? fun r => p r && q r) = (rows.find? p).filter q := by
  cases hfind : rows.find? p with
  | none =>
      rw [List.find?_eq_none] at hfind
      apply List.find?_eq_none.2
      intro r hr hboth
      exact hfind r hr (Bool.and_eq_true_iff.1 hboth).1
  | some r =>
      have hr := List.mem_of_find?_eq_some hfind
      have hp := List.find?_some hfind
      by_cases hq : q r = true
      · rw [Option.filter_some, if_pos hq]
        apply find?_of_unique hr (Bool.and_eq_true_iff.2 ⟨hp, hq⟩)
        intro x hx hboth
        exact hunique x hx r hr (Bool.and_eq_true_iff.1 hboth).1 hp
      · rw [Option.filter_some, if_neg hq]
        apply List.find?_eq_none.2
        intro x hx hboth
        obtain ⟨hpx, hqx⟩ := Bool.and_eq_true_iff.1 hboth
        rw [hunique x hx r hr hpx hp] at hqx
        exact hq hqx

/-- A lookup depends on the rows it looks for, where there is one at most. -/
theorem find?_congr_of_unique
    (hunique : ∀ r ∈ rows', ∀ r' ∈ rows', p r = true → p r' = true → r = r')
    (hagree : ∀ r, p r = true → (r ∈ rows ↔ r ∈ rows')) :
    rows.find? p = rows'.find? p := by
  cases hfind : rows.find? p with
  | none =>
      rw [List.find?_eq_none] at hfind
      symm
      apply List.find?_eq_none.2
      intro r hr hp
      exact hfind r ((hagree r hp).2 hr) hp
  | some r =>
      have hp := List.find?_some hfind
      have hr := (hagree r hp).1 (List.mem_of_find?_eq_some hfind)
      exact (find?_of_unique hr hp fun x hx hpx =>
        hunique x hx r hr hpx hp).symm

end Lookup

section Visible

variable {uuid : String → Option String} {m : Moment} {s s' : Store}

theorem eval_findVisibleVideo (hunique : UniquePublicIds s.videos)
    (publicId : String) (requesterId : Option Nat) :
    (findVisibleVideo uuid publicId requesterId).eval Store.exec m s =
      (visibleVideo uuid publicId requesterId s.videos, s) := by
  unfold findVisibleVideo findOneByPublicId visibleVideo
  cases uuid publicId with
  | none => rfl
  | some id =>
      have hfind : (s.videos.find? fun r =>
            r.public_id == id && visible requesterId r) =
          (s.videos.find? (·.public_id == id)).filter
            (visible requesterId) := by
        apply find?_and_of_unique
        intro r hr r' hr' hp hp'
        exact hunique r hr r' hr'
          ((beq_iff_eq.1 hp).trans (beq_iff_eq.1 hp').symm)
      have hexec : Store.exec m (.findVideoByPublicId id) s =
          (.ok (s.videos.find? (·.public_id == id)), s) := rfl
      dsimp only
      rw [hfind]
      apply (Prog.eval_call_ok hexec _).trans
      cases s.videos.find? (·.public_id == id) with
      | none => rfl
      | some video =>
          by_cases hvisible : visible requesterId video = true
          · have hcond : ¬ (video.status ≠ .ready ∧
                isOwner requesterId video = false) := by
              rintro ⟨hstatus, howner⟩
              simp [visible, hstatus, howner] at hvisible
            simp only [if_neg hcond, Option.filter_some, if_pos hvisible]
            rfl
          · have hcond : video.status ≠ .ready ∧
                isOwner requesterId video = false := by
              simpa [visible] using hvisible
            simp only [if_pos hcond, Option.filter_some, if_neg hvisible]
            rfl

/-- The lookup reads nothing but what the requester may see. -/
theorem visibleVideo_congr {requesterId : Option Nat}
    (hunique : UniquePublicIds s'.videos)
    (hagree : ∀ r, visible requesterId r = true →
      (r ∈ s.videos ↔ r ∈ s'.videos)) (publicId : String) :
    visibleVideo uuid publicId requesterId s.videos =
      visibleVideo uuid publicId requesterId s'.videos := by
  unfold visibleVideo
  cases uuid publicId with
  | none => rfl
  | some id =>
      have hfind : (s.videos.find? fun r =>
            r.public_id == id && visible requesterId r) =
          s'.videos.find? fun r =>
            r.public_id == id && visible requesterId r := by
        apply find?_congr_of_unique
        · intro r hr r' hr' hp hp'
          exact hunique r hr r' hr'
            ((beq_iff_eq.1 (Bool.and_eq_true_iff.1 hp).1).trans
              (beq_iff_eq.1 (Bool.and_eq_true_iff.1 hp').1).symm)
        · exact fun r hp => hagree r (Bool.and_eq_true_iff.1 hp).2
      dsimp only
      rw [hfind]

end Visible

/-! ## Two tables -/

section Tables

variable {uuid : String → Option String} {cfg : Auth.AuthConfig}
  {m : Auth.Moment} {authorization : Option Auth.AuthHeader} {s s' : Store}

/-- A route that looks a video up, and from then on only computes. -/
theorem optionalRoute_congr {α : Type}
    {handler : Option Auth.Jwt → VideoProg α} {f : Video → VideoProg α}
    {publicId : String}
    (hhandler : ∀ user, handler user =
      findVisibleVideo uuid publicId (subOf user) >>= f)
    (hf : ∀ video, ((f video).eval Store.exec { now := m.now } s).1 =
      ((f video).eval Store.exec { now := m.now } s').1)
    (hunique : UniquePublicIds s.videos)
    (hunique' : UniquePublicIds s'.videos)
    (hagree : ∀ r, visible (requesterOf cfg m authorization) r = true →
      (r ∈ s.videos ↔ r ∈ s'.videos)) :
    optionalRoute cfg m authorization handler s =
      optionalRoute cfg m authorization handler s' := by
  obtain ⟨user, huser, hsub⟩ := optionalUser_eq cfg m authorization
  have hvideo : visibleVideo uuid publicId (requesterOf cfg m authorization)
      s.videos = visibleVideo uuid publicId (requesterOf cfg m authorization)
      s'.videos := visibleVideo_congr hunique' hagree publicId
  have heval : ((handler user).eval Store.exec { now := m.now } s).1 =
      ((handler user).eval Store.exec { now := m.now } s').1 := by
    rw [hhandler, Prog.eval_bind, Prog.eval_bind,
      eval_findVisibleVideo hunique, eval_findVisibleVideo hunique', hsub,
      hvideo]
    cases visibleVideo uuid publicId (requesterOf cfg m authorization)
        s'.videos with
    | error e => rfl
    | ok video => exact hf video
  unfold optionalRoute
  rw [huser]
  dsimp only
  rw [heval]

/-- The download of a video that was found. -/
def redirectTo (video : Video) : VideoProg Redirect :=
  if video.status ≠ .ready then Prog.throw (.domain .VideoNotReady)
  else return ⟨getPresignedGetUrl video.storage_key
    (some video.original_filename), 302⟩

theorem downloadHandler_eq (publicId : String) (user : Option Auth.Jwt) :
    downloadHandler uuid publicId user =
      findVisibleVideo uuid publicId (subOf user) >>= redirectTo := by
  unfold downloadHandler getDownloadUrl
  rw [Prog.bind_assoc]
  refine congrArg _ (funext fun video => ?_)
  unfold redirectTo
  split <;> rfl

/-- **Unpublished videos are invisible to others**: what the two routes answer
depends on the `ready` rows and the requester's own rows only, and a request
that proves no user is nobody's. -/
theorem unpublished_invisible (uuid : String → Option String)
    (cfg : Auth.AuthConfig) (m : Auth.Moment)
    (authorization : Option Auth.AuthHeader) (s s' : Store)
    (hunique : UniquePublicIds s.videos)
    (hunique' : UniquePublicIds s'.videos)
    (hagree : ∀ r : Video, r.status = .ready ∨
        requesterOf cfg m authorization = some r.owner_id →
      (r ∈ s.videos ↔ r ∈ s'.videos)) :
    (∀ publicId,
      optionalRoute cfg m authorization (playbackHandler uuid publicId) s =
        optionalRoute cfg m authorization (playbackHandler uuid publicId) s' ∧
      optionalRoute cfg m authorization (downloadHandler uuid publicId) s =
        optionalRoute cfg m authorization (downloadHandler uuid publicId) s') ∧
    ((∀ token, authorization = some (.bearer token) →
        Auth.verifyJwt cfg m token = none) →
      ∃ user, optionalUser cfg m authorization = .ok user ∧
        ∀ video, isOwner (subOf user) video = false) := by
  have hvisible : ∀ r, visible (requesterOf cfg m authorization) r = true →
      (r ∈ s.videos ↔ r ∈ s'.videos) := by
    intro r hr
    apply hagree
    simpa only [visible, isOwner, Bool.or_eq_true, decide_eq_true_eq,
      beq_iff_eq] using hr
  refine ⟨fun publicId => ⟨?_, ?_⟩, ?_⟩
  · exact optionalRoute_congr (fun user => rfl) (fun video => rfl) hunique
      hunique' hvisible
  · apply optionalRoute_congr (downloadHandler_eq publicId) ?_ hunique
      hunique' hvisible
    intro video
    unfold redirectTo
    split <;> rfl
  · intro hunverified
    obtain ⟨user, huser, _⟩ := optionalUser_eq cfg m authorization
    exact ⟨user, huser, isOwner_of_unverified hunverified huser⟩

end Tables

/-- A video of `owner`, in upload. -/
def uploadingOf (owner : Nat) (publicId : String) : Video where
  id := owner
  public_id := publicId
  owner_id := owner
  title := "holidays"
  original_filename := "holidays.mp4"
  storage_key := storageKeyFor publicId
  upload_id := some owner
  size_bytes := 8
  content_type := "video/mp4"
  status := .uploading
  duration_seconds := none
  thumbnail_key := none
  created_at := 0

/-- User 1, signed in, cannot tell whether user 2 has a video in upload. -/
theorem unpublished_invisible_sample :
    let m : Auth.Moment := { now := 0 }
    let authorization := some (Auth.AuthHeader.bearer (.jwt
      { secret := "secret", claims := .access 1 "ana@example.com"
        iat := 0, exp := 900 }))
    requesterOf Auth.sampleConfig m authorization = some 1 ∧
      optionalRoute Auth.sampleConfig m authorization
          (playbackHandler some "b")
          { videos := [uploadingOf 1 "a", uploadingOf 2 "b"] } =
        optionalRoute Auth.sampleConfig m authorization
          (playbackHandler some "b") { videos := [uploadingOf 1 "a"] } := by
  refine ⟨by decide, ?_⟩
  apply ((unpublished_invisible some Auth.sampleConfig _ _ _ _ (by decide)
    (by decide) ?_).1 "b").1
  intro r hr
  have hne : r ≠ uploadingOf 2 "b" := by
    rintro rfl
    revert hr
    decide
  show r ∈ [_, _] ↔ r ∈ [_]
  rw [List.mem_pair, List.mem_singleton, or_iff_left hne]

end Videum.Videos
