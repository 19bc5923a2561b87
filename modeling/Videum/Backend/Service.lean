import Videum.Async.Parts
import Videum.Auth.Service
import Videum.Videos.Playback

/-!
# The whole backend

The API process and the worker as one system: the routes of `AuthController`
(`auth/auth.controller.ts`) and `VideosController`
(`videos/videos.controller.ts`) behind the two global guards
(`auth/auth.module.ts`), the reconciliation sweep and the processing jobs, and
the clients that upload parts.  The programs are those of `Videum.Auth.Service`
and `Videum.Videos.Service`; what is new is who may start them, and the
reference between their tables: `videos.owner_id` has to name a user
(`database/migrations/1783629270547-CreateVideos.ts`).

`JwtAuthGuard` runs first and attaches the payload of the token,
`ThrottlerGuard` second.  What the latter counts is its own affair: at any
moment it may refuse a request.
-/

namespace Videum.Backend

open Videum.Async
open Videum.Common

/-! ## The two parts -/

inductive Part
  | auth
  | videos
  deriving DecidableEq, Repr

def Part.iface : Part → Iface
  | .auth => Auth.AuthIface
  | .videos => Videos.VideoIface

/-- The calls of both parts. -/
abbrev BackendIface : Iface := Iface.parts Part.iface

structure Store where
  auth : Auth.Store := {}
  videos : Videos.Store := {}

/-- One moment of both parts, by one clock, and whether `ThrottlerGuard`
refuses a request that arrives in it. -/
structure Moment where
  auth : Auth.Moment
  videos : Videos.Moment
  throttled : Bool := false
  one_clock : videos.now = auth.now

inductive BackendError
  | auth (e : Auth.AuthError)
  | videos (e : Videos.VideoError)
  | throttled
  deriving DecidableEq, Repr

abbrev BackendProg (α : Type) := Prog BackendIface Moment BackendError α

/-- How `AuthService` sees the backend. -/
def authView : Embedding Moment Auth.Moment BackendError Auth.AuthError where
  moment := Moment.auth
  error := .auth
  error?
    | .auth e => some e
    | _ => none
  error?_error _ := rfl

/-- How the services of videos see it. -/
def videosView :
    Embedding Moment Videos.Moment BackendError Videos.VideoError where
  moment := Moment.videos
  error := .videos
  error?
    | .videos e => some e
    | _ => none
  error?_error _ := rfl

/-! ## The database -/

namespace Store

/-- Whether the foreign key of `videos.owner_id` refuses the call: a video
needs its owner, and a user who owns a video stays. -/
def refuses (s : Store) : BackendIface.Op → Bool
  | ⟨.auth, .deleteUser id⟩ => s.videos.videos.any (·.owner_id == id)
  | ⟨.videos, .insertVideo v⟩ => (s.auth.userById v.owner_id).isNone
  | _ => false

/-- A call, but for the foreign key between the parts. -/
def execApart (m : Moment) :
    (op : BackendIface.Op) → Store →
      Except BackendError (BackendIface.Res op) × Store
  | ⟨.auth, op⟩, s =>
      (authView.answer (Auth.Store.exec m.auth op s.auth).1,
        { s with auth := (Auth.Store.exec m.auth op s.auth).2 })
  | ⟨.videos, op⟩, s =>
      (videosView.answer (Videos.Store.exec m.videos op s.videos).1,
        { s with videos := (Videos.Store.exec m.videos op s.videos).2 })

/-- What a part gets when a constraint refuses its query. -/
def refusal : Part → BackendError
  | .auth => .auth .database
  | .videos => .videos .database

def exec (m : Moment) (op : BackendIface.Op) (s : Store) :
    Except BackendError (BackendIface.Res op) × Store :=
  if s.refuses op then (.error (refusal op.1), s) else execApart m op s

end Store

/-! ## The routes -/

/-- The routes of the two controllers, with what the pipes let through. -/
inductive Route
  | register (dto : Auth.RegisterDto)
  | confirmEmail (token : Auth.RawToken)
  | resendConfirmation (email : String)
  | login (dto : Auth.LoginDto)
  | refresh (refreshToken : Auth.RawToken)
  | forgotPassword (email : String)
  | resetPassword (dto : Auth.ResetPasswordDto)
  | logout
  | me
  | create (dto : Videos.CreateVideoDto)
  | complete (publicId : String) (dto : Videos.CompleteUploadDto)
  | getForPlayback (publicId : String)
  | download (publicId : String)

namespace Route

/-- `@Public()`. -/
def isPublic : Route → Bool
  | register _ | confirmEmail _ | resendConfirmation _ | login _ | refresh _
  | forgotPassword _ | resetPassword _ => true
  | _ => false

/-- `@OptionalAuth()`. -/
def isOptional : Route → Bool
  | getForPlayback _ | download _ => true
  | _ => false

end Route

inductive Reply
  | auth (reply : Auth.AuthReply)
  | me (user : Option Auth.Jwt)
  | videos (reply : Videos.VideoReply)
  | playback (result : Videos.VideoPlaybackResult)
  | redirect (redirect : Videos.Redirect)

/-- The configuration of both parts. -/
structure BackendConfig where
  auth : Auth.AuthConfig
  videos : Videos.VideoConfig

section Handlers

variable (cfg : BackendConfig)

/-- A method of `AuthService`. -/
def inAuth (request : Auth.AuthRequest) : BackendProg Reply := do
  let reply ← (Auth.serve cfg.auth request).within authView .auth
  return .auth reply

/-- A method of the services of videos. -/
def inVideos (request : Videos.VideoRequest) : BackendProg Reply := do
  let reply ← (Videos.serve cfg.videos request).within videosView .videos
  return .videos reply

/-- `@CurrentUser() user`, where the handler reads `user.sub`. -/
def currentUser (user : Option Auth.Jwt)
    (handler : Auth.Jwt → BackendProg Reply) : BackendProg Reply :=
  match user with
  | some payload => handler payload
  -- the guard of such a route lets nobody in without
  | none => Prog.throw (.auth .typeError)

/-- The handlers of the controllers. -/
def handle (user : Option Auth.Jwt) : Route → BackendProg Reply
  | .register dto => inAuth cfg (.register dto)
  | .confirmEmail token => inAuth cfg (.confirm token)
  | .resendConfirmation email => inAuth cfg (.resendConfirmation email)
  | .login dto => inAuth cfg (.login dto)
  | .refresh refreshToken => inAuth cfg (.refresh refreshToken)
  | .forgotPassword email => inAuth cfg (.forgotPassword email)
  | .resetPassword dto => inAuth cfg (.resetPassword dto)
  | .logout => currentUser user fun payload =>
      inAuth cfg (.logout payload.claims.sub)
  | .me => return .me user
  | .create dto => currentUser user fun payload =>
      inVideos cfg (.createDraft payload.claims.sub dto)
  | .complete publicId dto => currentUser user fun payload =>
      inVideos cfg (.completeUpload payload.claims.sub publicId dto)
  | .getForPlayback publicId => do
      let result ← (Videos.playbackHandler cfg.videos.uuid publicId
        user).within videosView .videos
      return .playback result
  | .download publicId => do
      let redirect ← (Videos.downloadHandler cfg.videos.uuid publicId
        user).within videosView .videos
      return .redirect redirect

end Handlers

/-! ## The system -/

/-- A request to the API with its `authorization` header, a part sent to the
storage, the scheduler's sweep, or a job handed to a worker or closed by the
queue. -/
inductive Request
  | http (authorization : Option Auth.AuthHeader) (route : Route)
  | uploadPart (uploadId : Nat) (part : Videos.StoredPart)
  | sweep
  | deliver
  | closeJob (i : Nat)

/-- The guards in front of a route, and its handler. -/
def respond (cfg : BackendConfig) (authorization : Option Auth.AuthHeader)
    (route : Route) : BackendProg Reply := do
  let user ← (Auth.canActivate cfg.auth route.isPublic route.isOptional
    authorization).within authView .auth
  let moment ← Prog.now
  if moment.throttled then Prog.throw .throttled
  else handle cfg user route

def serve (cfg : BackendConfig) : Request → BackendProg Reply
  | .http authorization route => respond cfg authorization route
  | .uploadPart uploadId part => inVideos cfg (.uploadPart uploadId part)
  | .sweep => inVideos cfg .sweep
  | .deliver => inVideos cfg .deliver
  | .closeJob i => inVideos cfg (.closeJob i)

/-- The web token a request presents. -/
def Request.bearer : Request → Option Auth.Jwt
  | .http (some (.bearer (.jwt j))) _ => some j
  | _ => none

/-- The method of `AuthService` that a request gets to, when the guards let it
through. -/
def Request.auth (request : Request) : Option Auth.AuthRequest :=
  match request with
  | .http _ (.register dto) => some (.register dto)
  | .http _ (.confirmEmail token) => some (.confirm token)
  | .http _ (.resendConfirmation email) => some (.resendConfirmation email)
  | .http _ (.login dto) => some (.login dto)
  | .http _ (.refresh refreshToken) => some (.refresh refreshToken)
  | .http _ (.forgotPassword email) => some (.forgotPassword email)
  | .http _ (.resetPassword dto) => some (.resetPassword dto)
  | .http _ .logout => request.bearer.map fun j => .logout j.claims.sub
  | _ => none

/-- The request to the services of videos that it gets to. -/
def Request.videos (request : Request) : Option Videos.VideoRequest :=
  match request with
  | .http _ (.create dto) =>
      request.bearer.map fun j => .createDraft j.claims.sub dto
  | .http _ (.complete publicId dto) =>
      request.bearer.map fun j => .completeUpload j.claims.sub publicId dto
  | .uploadPart uploadId part => some (.uploadPart uploadId part)
  | .sweep => some .sweep
  | .deliver => some .deliver
  | .closeJob i => some (.closeJob i)
  | _ => none

/-- Random values do not collide. -/
def freshRandomness (request : Request) (op : BackendIface.Op) (s : Store) :
    Bool :=
  match op with
  | ⟨.auth, op⟩ =>
      request.auth.all fun r => Auth.freshRandomness r op s.auth
  | ⟨.videos, _⟩ => true

def backendSystem (cfg : BackendConfig) :
    System BackendIface Moment BackendError Store Request Reply where
  exec := Store.exec
  guard request _ op s := freshRandomness request op s
  body := serve cfg

abbrev BackendPolicy := Policy BackendIface Moment BackendError Store Request
  Reply

abbrev BackendLog := Log BackendIface Moment BackendError Store Request

abbrev BackendEntry := Entry BackendIface Moment BackendError Store Request

abbrev BackendThread := Thread BackendIface Moment BackendError Request Reply

abbrev BackendRun := Config BackendIface Moment BackendError Store Request
  Reply

/-- A call has returned the token to its client. -/
def HandedOut (threads : List BackendThread) (token : Auth.RawToken) : Prop :=
  ∃ th ∈ threads, ∃ pair, th.prog = .pure (.auth (.tokens pair)) ∧
    (pair.access_token = token ∨ pair.refresh_token = token)

/-- A call fails with an error of its part. -/
def failsWith : Part → BackendError → Bool
  | .auth, .auth _ => true
  | .videos, .videos _ => true
  | _, _ => false

/-- Any request at any time, and any call may fail; but who presents a web
token that is signed with the access secret was handed it. -/
def unforged (cfg : BackendConfig) : BackendPolicy where
  accepts c request := ∀ j, request.bearer = some j →
    j.secret = cfg.auth.jwtSecret → HandedOut c.threads (.jwt j)
  fault op e := failsWith op.1 e

end Videum.Backend
