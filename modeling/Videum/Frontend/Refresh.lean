import Mathlib.Logic.Function.Basic
import Videum.Async.Machine
import Videum.Auth.Store

/-!
# Sessions and token refresh of the web server

The session cookie of the Next.js server (`next-frontend/lib/auth/session.ts`)
and the helper that refreshes it when the backend answers 401
(`next-frontend/lib/auth/refresh.ts`).

* `cookies()` is the cookie store of the request being served.  It starts as
  the cookies the request came with, and what is set on it is sent with the
  response.
* `refreshPromise` is a variable of the module: the process has one, whoever
  is being served.  Its promise is named after the `withRefresh` call that
  made it.
* A promise is settled once its `finally` callback has run.  Whoever awaits
  it goes on at some time after that.

The fetchers answer whatever `World` says, and so does the backend.
-/

namespace Videum.Frontend

open Videum.Async
open Videum.Auth (RawToken Moment)

/-! ## Data -/

/-- `SessionData`.  A session that was never set has no field. -/
structure SessionData where
  accessToken : Option RawToken := none
  refreshToken : Option RawToken := none
  userId : Option String := none
  email : Option String := none
  channelSlug : Option String := none
  isLoggedIn : Bool := false
  deriving DecidableEq, Repr

/-- The session cookie in the store of a request, and whether the response
sets it. -/
structure CookieStore where
  session : Option SessionData := none
  changed : Bool := false
  deriving DecidableEq, Repr

/-- Why a promise was rejected. -/
inductive FetchError
  | network
  | json
  | fetcher (reason : String)
  deriving DecidableEq, Repr

structure Response where
  status : Nat
  contentType : Option String
  body : String
  deriving DecidableEq, Repr

/-- The body of a successful `POST /auth/refresh`. -/
structure RefreshBody where
  access_token : Option RawToken
  refresh_token : Option RawToken
  deriving DecidableEq, Repr

/-- The response to `POST /auth/refresh`; the body is `none` where
`res.json()` rejects. -/
structure RefreshResponse where
  status : Nat
  body : Option RefreshBody
  deriving DecidableEq, Repr

def RefreshResponse.ok (res : RefreshResponse) : Bool :=
  200 ≤ res.status && res.status ≤ 299

/-- A token that counts as true: it is there and not the empty text. -/
def truthy (token : Option RawToken) : Option RawToken :=
  token.filter (· ≠ .other "")

theorem truthy_eq_some {token : Option RawToken} {t : RawToken}
    (h : truthy token = some t) : token = some t :=
  (Option.filter_eq_some_iff.1 h).1

/-- The response of `withRefresh` when the refresh has failed. -/
def sessionExpired : Response where
  status := 401
  contentType := some "application/json"
  body := "\x7b\"statusCode\":401,\"error\":\"UNAUTHORIZED\"," ++
    "\"message\":\"Session expired\"\x7d"

/-! ## The process -/

/-- The web server, the cookie jar of a browser, and the backend `β`. -/
structure Process (β : Type) where
  refreshPromise : Option Nat := none
  /-- The outcome of the promise a call has made, once it is settled. -/
  settled : Nat → Option (Except FetchError Bool) := fun _ => none
  cookies : Nat → CookieStore := fun _ => {}
  jar : Option SessionData := none
  backend : β

/-- What answers the server: the fetchers of its calls, attempt by attempt,
and the backend.  `fresh` says when the random values of a moment are new. -/
structure World (β : Type) where
  fetcher : Nat → Nat → Except FetchError Response
  refresh : Moment → Option RawToken → β → Except FetchError RefreshResponse × β
  fresh : Moment → Option RawToken → β → Bool

instance decidableEqExcept {ε α : Type} [DecidableEq ε] [DecidableEq α] :
    DecidableEq (Except ε α)
  | .ok a, .ok b =>
      decidable_of_iff (a = b) ⟨congrArg _, Except.ok.inj⟩
  | .error e, .error e' =>
      decidable_of_iff (e = e') ⟨congrArg _, Except.error.inj⟩
  | .ok _, .error _ => .isFalse nofun
  | .error _, .ok _ => .isFalse nofun

inductive FrontOp
  | fetcher (call attempt : Nat)
  | refreshPromise (call : Nat)
  | promise (call : Nat)
  | settle (call : Nat) (outcome : Except FetchError Bool)
  | getSession (request : Nat)
  | save (request : Nat) (session : SessionData)
  | destroy (request : Nat)
  | postRefresh (refreshToken : Option RawToken)
  | send (request : Nat)
  | deliver (request : Nat)
  deriving DecidableEq

def FrontOp.Res : FrontOp → Type
  | .fetcher _ _ => Response
  | .refreshPromise _ => Option Nat
  | .promise _ => Bool
  | .getSession _ => SessionData
  | .postRefresh _ => RefreshResponse
  | _ => Unit

/-- The call that comes to `refreshPromise`. -/
def FrontOp.enters : FrontOp → Bool
  | .refreshPromise _ => true
  | _ => false

theorem FrontOp.of_enters {op : FrontOp} (h : op.enters = true) :
    ∃ call, op = .refreshPromise call := by
  cases op with
  | refreshPromise call => exact ⟨call, rfl⟩
  | _ => exact nomatch h

abbrev FrontIface : Iface := ⟨FrontOp, FrontOp.Res⟩

namespace Process

variable {β : Type}

def setCookies (s : Process β) (request : Nat) (store : CookieStore) :
    Process β :=
  { s with cookies := Function.update s.cookies request store }

@[simp] theorem setCookies_self (s : Process β) (request : Nat)
    (store : CookieStore) :
    (s.setCookies request store).cookies request = store :=
  Function.update_self _ _ _

theorem setCookies_ne (s : Process β) {request request' : Nat}
    (store : CookieStore) (h : request' ≠ request) :
    (s.setCookies request store).cookies request' = s.cookies request' :=
  Function.update_of_ne h _ _

/-- `if (!refreshPromise) refreshPromise = …`: the promise that was there, or
a new one of the call. -/
def enter (s : Process β) (call : Nat) : Option Nat × Process β :=
  match s.refreshPromise with
  | some other => (some other, s)
  | none =>
      (none, { s with
        refreshPromise := some call
        settled := Function.update s.settled call none })

@[simp] theorem enter_fst (s : Process β) (call : Nat) :
    (s.enter call).1 = s.refreshPromise := by
  unfold enter
  cases s.refreshPromise <;> rfl

/-- The `finally` callback, and the promise settled after it. -/
def settle (s : Process β) (call : Nat) (outcome : Except FetchError Bool) :
    Process β :=
  { s with
    refreshPromise := none
    settled := Function.update s.settled call (some outcome) }

/-- A response arrives at the browser. -/
def deliver (s : Process β) (request : Nat) : Process β :=
  if (s.cookies request).changed then
    { s with jar := (s.cookies request).session }
  else s

@[simp] theorem deliver_refreshPromise (s : Process β) (request : Nat) :
    (s.deliver request).refreshPromise = s.refreshPromise := by
  unfold deliver
  split <;> rfl

@[simp] theorem deliver_settled (s : Process β) (request : Nat) :
    (s.deliver request).settled = s.settled := by
  unfold deliver
  split <;> rfl

/-- One awaited call. -/
def exec (W : World β) (m : Moment) : (op : FrontOp) → Process β →
    Except FetchError op.Res × Process β
  | .fetcher call attempt, s => (W.fetcher call attempt, s)
  | .refreshPromise call, s => (.ok (s.enter call).1, (s.enter call).2)
  | .promise call, s => ((s.settled call).getD (.error .network), s)
  | .settle call outcome, s => (.ok (), s.settle call outcome)
  | .getSession request, s => (.ok ((s.cookies request).session.getD {}), s)
  | .save request session, s =>
      (.ok (), s.setCookies request ⟨some session, true⟩)
  | .destroy request, s => (.ok (), s.setCookies request ⟨none, true⟩)
  | .postRefresh refreshToken, s =>
      ((W.refresh m refreshToken s.backend).1,
        { s with backend := (W.refresh m refreshToken s.backend).2 })
  | .send request, s => (.ok (), s.setCookies request ⟨s.jar, false⟩)
  | .deliver request, s => (.ok (), s.deliver request)

/-- A promise is awaited until it is settled, and random values are new. -/
def guard (W : World β) (m : Moment) (op : FrontOp) (s : Process β) : Bool :=
  match op with
  | .promise call => (s.settled call).isSome
  | .postRefresh refreshToken => W.fresh m refreshToken s.backend
  | _ => true

end Process

abbrev FrontProg := Prog FrontIface Moment FetchError

/-- Await one call. -/
def await (op : FrontOp) : FrontProg op.Res := Prog.call (I := FrontIface) op

/-! ## `session.ts` -/

def getSession (request : Nat) : FrontProg SessionData :=
  await (.getSession request)

def setSession (request : Nat) (data : SessionData) : FrontProg Unit := do
  let _ ← getSession request
  await (.save request { data with isLoggedIn := true })

def destroySession (request : Nat) : FrontProg Unit := do
  let _ ← getSession request
  await (.destroy request)

/-! ## `refresh.ts` -/

/-- A `withRefresh` call, and the request it is made for. -/
structure Call where
  id : Nat
  request : Nat
  deriving DecidableEq, Repr

def tryRefresh (request : Nat) : FrontProg Bool := do
  let session ← getSession request
  let res : RefreshResponse ← await (.postRefresh session.refreshToken)
  if res.ok = false then do
    destroySession request
    return false
  else
    match res.body with
    | none => Prog.throw .json
    | some data =>
        match truthy data.access_token, truthy data.refresh_token with
        | some accessToken, some refreshToken => do
            setSession request
              { session with
                accessToken := some accessToken
                refreshToken := some refreshToken }
            return true
        | _, _ => do
            destroySession request
            return false

/-- How a promise ends. -/
def outcomeOf {α : Type} (p : FrontProg α) : FrontProg (Except FetchError α) :=
  Prog.tryCatch (p >>= fun a => return .ok a) fun e => return .error e

/-- The call that finds no promise makes one; it is settled when its refresh
has ended, in whichever way. -/
def refreshOnce (call : Call) : FrontProg Bool := do
  let promise? : Option Nat ← await (.refreshPromise call.id)
  match promise? with
  | some other => await (.promise other)
  | none => do
      let outcome ← outcomeOf (tryRefresh call.request)
      await (.settle call.id outcome)
      Prog.ofExcept outcome

def withRefresh (call : Call) : FrontProg Response := do
  let response : Response ← await (.fetcher call.id 0)
  if response.status ≠ 401 then return response
  else do
    let refreshed ← refreshOnce call
    if refreshed then await (.fetcher call.id 1)
    else return sessionExpired

/-! ## The server -/

section Server

variable {β : Type}

/-- A server process whose every thread runs `body` for a call. -/
def frontSystem (W : World β) (body : Call → FrontProg Response) :
    System FrontIface Moment FetchError (Process β) Call Response where
  exec := Process.exec W
  guard _ m op s := Process.guard W m op s
  body := body

/-- One whose every thread is a `withRefresh` call. -/
abbrev refreshSystem (W : World β) :
    System FrontIface Moment FetchError (Process β) Call Response :=
  frontSystem W withRefresh

abbrev FrontRun (β : Type) :=
  Config FrontIface Moment FetchError (Process β) Call Response

abbrev FrontLog (β : Type) := Log FrontIface Moment FetchError (Process β) Call

abbrev FrontEntry (β : Type) :=
  Entry FrontIface Moment FetchError (Process β) Call

abbrev FrontPolicy (β : Type) :=
  Policy FrontIface Moment FetchError (Process β) Call Response

/-- Any number of calls, each with a name of its own, at any time. -/
def anyCalls : FrontPolicy β where
  accepts c call := ∀ th ∈ c.threads, th.request.id ≠ call.id
  fault _ _ := false

instance (c : FrontRun β) (call : Call) :
    Decidable (anyCalls.accepts c call) :=
  inferInstanceAs (Decidable (∀ th ∈ c.threads, th.request.id ≠ call.id))

end Server

end Videum.Frontend
