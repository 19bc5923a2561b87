import Videum.Auth.Authentication
import Videum.Backend.Service

/-!
# The two parts of the backend

Without the foreign key between them the two parts share nothing.  This module
takes the key away (`separateSystem`) and shows that what is left is made of
`authSystem` and `videoSystem`: a request runs the guards at the moment it
arrives, and from then on the program of one part.

## Main results

* `resume_serve` — a request after its guards.
* `authPart`, `videosPart` — the two systems are the parts.
-/

namespace Videum.Backend

open Videum.Async
open Videum.Common

/-- The backend without the reference between its parts. -/
def separateSystem (cfg : BackendConfig) :
    System BackendIface Moment BackendError Store Request Reply :=
  { backendSystem cfg with exec := Store.execApart }

/-! ## The guards -/

/-- What `JwtAuthGuard` makes of a request at one moment. -/
def attached (cfg : Auth.AuthConfig) (m : Auth.Moment)
    (authorization : Option Auth.AuthHeader) (route : Route) :
    Except Auth.AuthError (Option Auth.Jwt) :=
  if route.isPublic then .ok none
  else
    match authorization with
    | some (.bearer token) =>
        match Auth.verifyJwt cfg m token with
        | some payload => .ok (some payload)
        | none => if route.isOptional then .ok none else .error .unauthorized
    | _ => if route.isOptional then .ok none else .error .unauthorized

variable {cfg : BackendConfig} {authorization : Option Auth.AuthHeader}
  {route : Route} {m : Moment}

theorem canActivate_within {α : Type} (f : Option Auth.Jwt → BackendProg α) :
    (((Auth.canActivate cfg.auth route.isPublic route.isOptional
      authorization).within authView .auth : BackendProg (Option Auth.Jwt)) >>=
        f).resume m =
      match attached cfg.auth m.auth authorization route with
      | .ok user => (f user).resume m
      | .error e => .throw (.auth e) := by
  unfold Auth.canActivate attached
  cases route.isPublic with
  | true => rfl
  | false =>
      cases authorization with
      | none => cases route.isOptional <;> rfl
      | some header =>
          cases header with
          | other text => cases route.isOptional <;> rfl
          | bearer token =>
              show Prog.resume m (((Auth.bearerUser cfg.auth route.isOptional
                m.auth token).within authView .auth :
                  BackendProg (Option Auth.Jwt)) >>= f) = _
              unfold Auth.bearerUser
              dsimp only [Bool.false_eq_true, if_false]
              cases Auth.verifyJwt cfg.auth m.auth token with
              | some payload => rfl
              | none => cases route.isOptional <;> rfl

/-- A request after its guards. -/
theorem resume_respond :
    (respond cfg authorization route).resume m =
      match attached cfg.auth m.auth authorization route with
      | .ok user =>
          if m.throttled then .throw .throttled
          else (handle cfg user route).resume m
      | .error e => .throw (.auth e) := by
  unfold respond
  rw [canActivate_within]
  cases attached cfg.auth m.auth authorization route with
  | error e => rfl
  | ok user =>
      show ((if m.throttled then Prog.throw .throttled
        else handle cfg user route : BackendProg Reply)).resume m = _
      cases m.throttled <;> rfl

/-- Whom the guard attaches has presented the token. -/
theorem bearer_of_attached {j : Auth.Jwt}
    (h : attached cfg.auth m.auth authorization route = .ok (some j)) :
    (Request.http authorization route).bearer = some j ∧
      j.secret = cfg.auth.jwtSecret := by
  unfold attached at h
  split at h
  · cases h
  · split at h
    · next token =>
        split at h
        · next payload hverify =>
            cases h
            obtain ⟨rfl, hsecret⟩ := Auth.of_verifyJwt hverify
            exact ⟨rfl, hsecret⟩
        · split at h <;> cases h
    · split at h <;> cases h

/-! ## The parts -/

/-- What may be left to do for a request that is none of `AuthService`'s: it
waits for no call of that part, and gets no reply of its controller. -/
def ApartFromAuth (p : BackendProg Reply) : Prop :=
  p.Issues (fun op : BackendIface.Op => op.1 = .videos) ∧
    p.Until (fun _ _ => False) fun r => ∀ reply, r ≠ .ok (.auth reply)

/-- The calls that only look a video up. -/
def LooksUp : BackendIface.Op → Prop
  | ⟨.videos, .findVideoByPublicId _⟩ => True
  | _ => False

/-- What may be left to do for a request that is none of the videos'. -/
def ApartFromVideos (request : Request) (p : BackendProg Reply) : Prop :=
  p.Issues fun op : BackendIface.Op =>
    op.1 = .auth ∨ request.videos = none ∧ LooksUp op

theorem apartFromAuth_throw (e : BackendError) :
    ApartFromAuth (.throw e) :=
  ⟨trivial, fun _ => nofun⟩

theorem apartFromAuth_within {α : Type} {f : α → Reply}
    (hf : ∀ a reply, f a ≠ .auth reply) (p : Videos.VideoProg α) :
    ApartFromAuth (((p.within videosView .videos : BackendProg α) >>=
      fun a => .pure (f a)).resume m) := by
  constructor
  · apply Prog.AtCalls.resume
    have hwithin : (p.within videosView .videos : BackendProg α).Issues
        fun op : BackendIface.Op => op.1 = .videos :=
      Prog.Issues.within (Prog.issues_any (fun _ => rfl) p)
    exact hwithin.bind fun _ => trivial
  · apply Prog.Until.resume
    apply Prog.Until.after
    · exact fun _ _ => nofun
    · intro a reply h
      exact hf a reply (Except.ok.inj h)

theorem apartFromVideos_within {α : Type} {f : α → Reply} {request : Request}
    (p : Auth.AuthProg α) :
    ApartFromVideos request (((p.within authView .auth : BackendProg α) >>=
      fun a => .pure (f a)).resume m) := by
  apply Prog.AtCalls.resume
  have hwithin : (p.within authView .auth : BackendProg α).Issues
      fun op : BackendIface.Op =>
        op.1 = .auth ∨ request.videos = none ∧ LooksUp op :=
    Prog.Issues.within (Prog.issues_any (fun _ => .inl rfl) p)
  exact hwithin.bind fun _ => trivial

/-- A method of `AuthService`, from the moment it starts. -/
theorem resume_inAuth (request : Auth.AuthRequest) :
    (inAuth cfg request).resume m =
      (((Auth.serve cfg.auth request).resume m.auth).within authView .auth :
        BackendProg Auth.AuthReply) >>= fun a => .pure (.auth a) := by
  have hresume : ((Auth.serve cfg.auth request).within authView .auth :
      BackendProg Auth.AuthReply).resume m =
        ((Auth.serve cfg.auth request).resume m.auth).within authView .auth :=
    Prog.resume_within (I := Part.iface) (i := .auth) (v := authView) _ m
  unfold inAuth
  simp only [Prog.pure_eq, Prog.resume_map]
  rw [hresume]

theorem resume_inVideos (request : Videos.VideoRequest) :
    (inVideos cfg request).resume m =
      (((Videos.serve cfg.videos request).resume m.videos).within videosView
        .videos : BackendProg Videos.VideoReply) >>=
          fun a => .pure (.videos a) := by
  have hresume : ((Videos.serve cfg.videos request).within videosView .videos :
      BackendProg Videos.VideoReply).resume m =
        ((Videos.serve cfg.videos request).resume m.videos).within videosView
          .videos :=
    Prog.resume_within (I := Part.iface) (i := .videos) (v := videosView) _ m
  unfold inVideos
  simp only [Prog.pure_eq, Prog.resume_map]
  rw [hresume]

/-- What the part sees of a handler. -/
theorem handle_auth {user : Option Auth.Jwt}
    (huser : ∀ j, user = some j →
      (Request.http authorization route).bearer = some j) :
    (∃ d, (Request.http authorization route).auth = some d ∧
      (handle cfg user route).resume m =
        (((Auth.serve cfg.auth d).resume m.auth).within authView .auth :
          BackendProg Auth.AuthReply) >>= fun a => .pure (.auth a)) ∨
      ApartFromAuth ((handle cfg user route).resume m) := by
  cases route with
  | register dto => exact .inl ⟨_, rfl, resume_inAuth _⟩
  | confirmEmail token => exact .inl ⟨_, rfl, resume_inAuth _⟩
  | resendConfirmation email => exact .inl ⟨_, rfl, resume_inAuth _⟩
  | login dto => exact .inl ⟨_, rfl, resume_inAuth _⟩
  | refresh refreshToken => exact .inl ⟨_, rfl, resume_inAuth _⟩
  | forgotPassword email => exact .inl ⟨_, rfl, resume_inAuth _⟩
  | resetPassword dto => exact .inl ⟨_, rfl, resume_inAuth _⟩
  | logout =>
      cases user with
      | none => exact .inr (apartFromAuth_throw _)
      | some j =>
          refine .inl ⟨.logout j.claims.sub, ?_, resume_inAuth _⟩
          simp only [Request.auth, huser j rfl, Option.map_some]
  | me => exact .inr ⟨trivial, fun _ => nofun⟩
  | create dto =>
      cases user with
      | none => exact .inr (apartFromAuth_throw _)
      | some j =>
          refine .inr (apartFromAuth_within ?_ _)
          rintro _ _ ⟨⟩
  | complete publicId dto =>
      cases user with
      | none => exact .inr (apartFromAuth_throw _)
      | some j =>
          refine .inr (apartFromAuth_within ?_ _)
          rintro _ _ ⟨⟩
  | getForPlayback publicId =>
      refine .inr (apartFromAuth_within ?_ _)
      rintro _ _ ⟨⟩
  | download publicId =>
      refine .inr (apartFromAuth_within ?_ _)
      rintro _ _ ⟨⟩

/-- What a playback handler does: it only looks the video up. -/
theorem looksUp_within {α : Type} {f : α → Reply} {request : Request}
    (hvideos : request.videos = none) {p : Videos.VideoProg α}
    (hp : p.Issues fun op => LooksUp ⟨.videos, op⟩) :
    ApartFromVideos request (((p.within videosView .videos :
      BackendProg α) >>= fun a => .pure (f a)).resume m) := by
  apply Prog.AtCalls.resume
  have hwithin : (p.within videosView .videos : BackendProg α).Issues
      fun op : BackendIface.Op =>
        op.1 = .auth ∨ request.videos = none ∧ LooksUp op := by
    apply Prog.Issues.within (I := Part.iface) (i := .videos)
    exact hp.mono fun op h => .inr ⟨hvideos, h⟩
  exact hwithin.bind fun _ => trivial

theorem findVisibleVideo_issues (publicId : String)
    (requesterId : Option Nat) :
    (Videos.findVisibleVideo cfg.videos.uuid publicId requesterId).Issues
      fun op => LooksUp ⟨.videos, op⟩ := by
  unfold Videos.findVisibleVideo Videos.findOneByPublicId
  apply Prog.Issues.bind
  · cases cfg.videos.uuid publicId with
    | none => trivial
    | some id => exact Prog.Issues.call trivial
  · intro video?
    cases video? with
    | none => trivial
    | some video =>
        dsimp only
        split <;> trivial

theorem handle_videos {user : Option Auth.Jwt}
    (huser : ∀ j, user = some j →
      (Request.http authorization route).bearer = some j) :
    (∃ d, (Request.http authorization route).videos = some d ∧
      (handle cfg user route).resume m =
        (((Videos.serve cfg.videos d).resume m.videos).within videosView
          .videos : BackendProg Videos.VideoReply) >>=
            fun a => .pure (.videos a)) ∨
      ApartFromVideos (.http authorization route)
        ((handle cfg user route).resume m) := by
  cases route with
  | create dto =>
      cases user with
      | none => exact .inr trivial
      | some j =>
          refine .inl ⟨.createDraft j.claims.sub dto, ?_, resume_inVideos _⟩
          simp only [Request.videos, huser j rfl, Option.map_some]
  | complete publicId dto =>
      cases user with
      | none => exact .inr trivial
      | some j =>
          refine .inl ⟨.completeUpload j.claims.sub publicId dto, ?_,
            resume_inVideos _⟩
          simp only [Request.videos, huser j rfl, Option.map_some]
  | getForPlayback publicId =>
      refine .inr (looksUp_within rfl ?_)
      exact (findVisibleVideo_issues publicId _).bind fun _ => trivial
  | download publicId =>
      refine .inr (looksUp_within rfl ?_)
      apply Prog.Issues.bind
      · apply (findVisibleVideo_issues publicId _).bind
        intro video
        split <;> trivial
      · exact fun _ => trivial
  | me => exact .inr trivial
  | logout =>
      cases user with
      | none => exact .inr trivial
      | some j => exact .inr (apartFromVideos_within _)
  | register dto => exact .inr (apartFromVideos_within _)
  | confirmEmail token => exact .inr (apartFromVideos_within _)
  | resendConfirmation email => exact .inr (apartFromVideos_within _)
  | login dto => exact .inr (apartFromVideos_within _)
  | refresh refreshToken => exact .inr (apartFromVideos_within _)
  | forgotPassword email => exact .inr (apartFromVideos_within _)
  | resetPassword dto => exact .inr (apartFromVideos_within _)

/-- What the part sees of a request to the API. -/
theorem respond_auth (authorization : Option Auth.AuthHeader) (route : Route)
    (m : Moment) :
    (∃ d, (Request.http authorization route).auth = some d ∧
      (respond cfg authorization route).resume m =
        (((Auth.serve cfg.auth d).resume m.auth).within authView .auth :
          BackendProg Auth.AuthReply) >>= fun a => .pure (.auth a)) ∨
      ApartFromAuth ((respond cfg authorization route).resume m) := by
  rw [resume_respond]
  cases hattached : attached cfg.auth m.auth authorization route with
  | error e => exact .inr (apartFromAuth_throw _)
  | ok user =>
      dsimp only
      cases m.throttled with
      | true => exact .inr (apartFromAuth_throw _)
      | false =>
          apply handle_auth
          rintro j rfl
          exact (bearer_of_attached hattached).1

theorem respond_videos (authorization : Option Auth.AuthHeader)
    (route : Route) (m : Moment) :
    (∃ d, (Request.http authorization route).videos = some d ∧
      (respond cfg authorization route).resume m =
        (((Videos.serve cfg.videos d).resume m.videos).within videosView
          .videos : BackendProg Videos.VideoReply) >>=
            fun a => .pure (.videos a)) ∨
      ApartFromVideos (.http authorization route)
        ((respond cfg authorization route).resume m) := by
  rw [resume_respond]
  cases hattached : attached cfg.auth m.auth authorization route with
  | error e => exact .inr trivial
  | ok user =>
      dsimp only
      cases m.throttled with
      | true => exact .inr trivial
      | false =>
          apply handle_videos
          rintro j rfl
          exact (bearer_of_attached hattached).1

section Parts

variable (cfg : BackendConfig)

/-- The requests of `AuthService` are a part of the backend. -/
def authPart : PartOf (separateSystem cfg) (unforged cfg) .auth
    (Auth.authSystem cfg.auth) Auth.anyRun where
  view := Store.auth
  embedding := authView
  reply := .auth
  target := Request.auth
  rest := .activate true false none
  apart _ := ApartFromAuth
  answers _ _ _ := rfl
  writes _ _ _ := rfl
  guards request d m op w htarget hguard := by
    change request.auth.all _ = true at hguard
    rw [htarget] at hguard
    exact hguard
  body request m := by
    cases request with
    | http authorization route => exact respond_auth authorization route m
    | uploadPart uploadId part =>
        refine .inr (apartFromAuth_within ?_ _)
        rintro _ _ ⟨⟩
    | sweep =>
        refine .inr (apartFromAuth_within ?_ _)
        rintro _ _ ⟨⟩
    | deliver =>
        refine .inr (apartFromAuth_within ?_ _)
        rintro _ _ ⟨⟩
    | closeJob i =>
        refine .inr (apartFromAuth_within ?_ _)
        rintro _ _ ⟨⟩
  apart_await request op k h := by
    obtain ⟨⟨hop, hissues⟩, huntil⟩ := h
    obtain ⟨i, op⟩ := op
    subst hop
    refine ⟨.inl nofun, fun _ _ => rfl, fun r m => ⟨(hissues r).resume m, ?_⟩⟩
    exact ((huntil r).resolve_left id).resume m
  accepts _ _ := trivial
  fault op x h := by
    cases x with
    | auth e => exact ⟨e, rfl, rfl⟩
    | videos e => exact nomatch h
    | throttled => exact nomatch h

/-- The requests of the services of videos are the other part. -/
def videosPart : PartOf (separateSystem cfg) (unforged cfg) .videos
    (Videos.videoSystem cfg.videos) Videos.anyRun where
  view := Store.videos
  embedding := videosView
  reply := .videos
  target := Request.videos
  rest := .deliver
  apart := ApartFromVideos
  answers _ _ _ := rfl
  writes _ _ _ := rfl
  guards _ _ _ _ _ _ _ := rfl
  body request m := by
    cases request with
    | http authorization route => exact respond_videos authorization route m
    | uploadPart uploadId part => exact .inl ⟨_, rfl, resume_inVideos _⟩
    | sweep => exact .inl ⟨_, rfl, resume_inVideos _⟩
    | deliver => exact .inl ⟨_, rfl, resume_inVideos _⟩
    | closeJob i => exact .inl ⟨_, rfl, resume_inVideos _⟩
  apart_await request op k h := by
    obtain ⟨hop, hissues⟩ := h
    obtain ⟨i, op⟩ := op
    refine ⟨?_, ?_, fun r m => (hissues r).resume m⟩
    · rcases hop with hauth | ⟨hnone, _⟩
      · exact .inl fun hvideos => nomatch hauth.symm.trans hvideos
      · exact .inr hnone
    · intro m w
      rcases hop with hauth | ⟨_, hlooks⟩
      · subst hauth
        rfl
      · cases i with
        | auth => rfl
        | videos =>
            cases op with
            | findVideoByPublicId publicId => rfl
            | _ => exact hlooks.elim
  accepts _ _ := trivial
  fault op x h := by
    cases x with
    | videos e => exact ⟨e, rfl, rfl⟩
    | auth e => exact nomatch h
    | throttled => exact nomatch h

end Parts

end Videum.Backend
