import Videum.Async.Alone
import Videum.Frontend.Owner

/-!
# Logging out of the browser

`POST /api/auth/logout` (`app/api/auth/logout/route.ts`) asks the backend to
revoke the user's refresh tokens, ignores what becomes of that, destroys the
session and answers 204.  The backend's route stands behind the guard, and so
it refuses an access token that has expired: the refresh token, which lives
longer, is then revoked exactly as long as the access token is accepted.

## Main results

* `logoutAtOnce_spec` — what the backend does with a logout.
* `LogsOut.outcome` — a logout ends with 204 and without a cookie, and the
  backend has seen at most one request.
* `logout_revokes_iff` — when a logout of the browser ends the session at the
  backend.
* `logout_leaves_token` — a logout after a quarter of an hour does not.
-/

namespace Videum.Frontend

open Videum.Async
open Videum.Common
open Videum.Auth

/-! ## The backend -/

/-- `AuthController.logout`, behind the guard. -/
def logoutEndpoint (cfg : AuthConfig) (authorization : AuthHeader) :
    AuthProg Unit := do
  let user ← canActivate cfg false false (some authorization)
  match user with
  | some payload => Auth.logout payload.claims.sub
  -- `user.sub` of nobody
  | none => Prog.throw .typeError

/-- `POST /auth/logout`: the status of the answer, and the tables after it. -/
def logoutAtOnce (cfg : AuthConfig) (throttled : Moment → Bool) (m : Moment)
    (authorization : AuthHeader) (s : Store) : Nat × Store :=
  if throttled m then (429, s)
  else
    match (logoutEndpoint cfg authorization).eval Store.exec m s with
    | (.ok _, s') => (204, s')
    | (.error e, s') => (errorStatus e, s')

/-- The user a logout is for: the one who was signed the access token, unless
the request is refused. -/
def loggedOutUser (cfg : AuthConfig) (throttled : Moment → Bool) (m : Moment) :
    AuthHeader → Option Nat
  | .bearer token =>
      if throttled m then none else (verifyJwt cfg m token).map (·.claims.sub)
  | .other _ => none

/-- The backend revokes the records of the user, and of nobody when there is
none. -/
theorem logoutAtOnce_spec (cfg : AuthConfig) (throttled : Moment → Bool)
    (m : Moment) (authorization : AuthHeader) (s : Store) :
    (logoutAtOnce cfg throttled m authorization s).2 =
      match loggedOutUser cfg throttled m authorization with
      | some userId => s.revokeWhere (·.user_id == userId) m.now
      | none => s := by
  unfold logoutAtOnce
  cases hthrottled : throttled m with
  | true => cases authorization <;> simp [loggedOutUser, hthrottled]
  | false =>
      cases authorization with
      | other text => rfl
      | bearer token =>
          simp only [loggedOutUser, hthrottled, logoutEndpoint, canActivate]
          cases hverify : verifyJwt cfg m token with
          | none => simp [hverify]
          | some payload =>
              simp [hverify]
              rfl

/-! ## The route -/

/-- The cookies of the request, and the backend's tables. -/
structure Site where
  cookies : CookieStore := {}
  backend : Store

inductive LogoutOp
  | getSession
  | destroy
  | postLogout (authorization : AuthHeader)
  deriving DecidableEq

def LogoutOp.Res : LogoutOp → Type
  | .getSession => SessionData
  | .destroy => Unit
  | .postLogout _ => Nat

abbrev LogoutIface : Iface := ⟨LogoutOp, LogoutOp.Res⟩

/-- One awaited call. -/
def Site.exec (cfg : AuthConfig) (throttled : Moment → Bool) (m : Moment) :
    (op : LogoutOp) → Site → Except FetchError op.Res × Site
  | .getSession, s => (.ok (s.cookies.session.getD {}), s)
  | .destroy, s => (.ok (), { s with cookies := ⟨none, true⟩ })
  | .postLogout authorization, s =>
      (.ok (logoutAtOnce cfg throttled m authorization s.backend).1,
        { s with
          backend := (logoutAtOnce cfg throttled m authorization s.backend).2 })

abbrev LogoutProg := Prog LogoutIface Moment FetchError

/-- `Bearer ${session.accessToken}`. -/
def bearer (session : SessionData) : AuthHeader :=
  .bearer (session.accessToken.getD (.other "undefined"))

/-- `destroySession`. -/
def Site.destroySession : LogoutProg Unit := do
  let _ ← Prog.call (I := LogoutIface) .getSession
  Prog.call (I := LogoutIface) .destroy

/-- `POST`. -/
def logoutRoute : LogoutProg Nat := do
  let session : SessionData ← Prog.call (I := LogoutIface) .getSession
  Prog.tryCatch
    (do
      let _ ← Prog.call (I := LogoutIface) (.postLogout (bearer session))
      return ())
    fun _ => return ()
  Site.destroySession
  return 204

def logoutSystem (cfg : AuthConfig) (throttled : Moment → Bool) :
    System LogoutIface Moment FetchError Site Unit Nat where
  exec := Site.exec cfg throttled
  guard _ _ _ _ := true
  body _ := logoutRoute

/-- One request; the backend may be out of reach. -/
def backendMayFail : Policy LogoutIface Moment FetchError Site Unit Nat where
  accepts _ _ := True
  fault op e :=
    match op with
    | .postLogout _ => e == .network
    | _ => false

abbrev LogoutRun := Config LogoutIface Moment FetchError Site Unit Nat

abbrev LogoutEntry := Entry LogoutIface Moment FetchError Site Unit

/-- The route finds the site in state `s`, and ends with `r` in `c'`. -/
def LogsOut (cfg : AuthConfig) (throttled : Moment → Bool) (s : Site)
    (r : Except FetchError Nat) (c' : LogoutRun) : Prop :=
  ∃ amb, Steps (logoutSystem cfg throttled) backendMayFail
      ((logoutSystem cfg throttled).spawn (Config.start s) () amb) c' ∧
    c'.threads = [⟨(), Prog.ofExcept r⟩]

/-! ## One logout -/

/-- The answer to the one request to the backend, and what it has left of the
site. -/
structure LoggedOut (cfg : AuthConfig) (throttled : Moment → Bool) (s : Site)
    (authorization : AuthHeader) (x : LogoutEntry) (s' : Site) : Prop where
  op : x.op = .postLogout authorization
  cookies : s'.cookies = ⟨none, true⟩
  backend : s'.backend =
    if x.res.isOk then
      (logoutAtOnce cfg throttled x.amb authorization s.backend).2
    else s.backend

section Alone

variable {cfg : AuthConfig} {throttled : Moment → Bool} {s : Site}
  {amb : Moment} {log : List LogoutEntry}

theorem logout_exec_ok {m : Moment} {op : LogoutOp} {e : FetchError} :
    ((logoutSystem cfg throttled).exec m op s).1 ≠ .error e := by
  cases op <;> exact nofun

/-- Whatever became of the request to the backend, the session is destroyed. -/
theorem destroySession_alone (amb : Moment)
    {post : Except FetchError Nat → Moment → Site → List LogoutEntry → Prop}
    (hpost : ∀ amb newer, post (.ok 204) amb
      { s with cookies := ⟨none, true⟩ } (newer ++ log)) :
    alone (logoutSystem cfg throttled) backendMayFail 0 () post
      (Site.destroySession >>= fun _ => Prog.pure 204) amb s log := by
  apply alone_bind
  apply alone_call fun _ => rfl
  · exact fun _ _ _ h => absurd h logout_exec_ok
  · intro amb₁ found _ _ amb₂ fault _ hfault
    cases fault with
    | some e => exact nomatch hfault
    | none => exact hpost amb₂ [_, _]

theorem logoutRoute_alone :
    alone (logoutSystem cfg throttled) backendMayFail 0 ()
      (fun r _ s' log' => r = .ok 204 ∧
        ∃ x ∈ log', LoggedOut cfg throttled s
          (bearer (s.cookies.session.getD {})) x s')
      logoutRoute amb s log := by
  apply alone_call fun _ => rfl
  · exact fun _ _ _ h => absurd h logout_exec_ok
  · intro amb₁ session _ hsession
    cases hsession
    apply alone_bind
    apply alone_tryCatch
    apply alone_call_any
    · intro amb₂ fault e _ _ hanswer
      cases fault with
      | none => exact absurd hanswer logout_exec_ok
      | some e =>
          refine destroySession_alone amb₂ fun _ newer => ?_
          exact ⟨rfl, _, List.mem_append_right newer (.head _), rfl, rfl, rfl⟩
    · intro amb₂ _ _ _
      refine destroySession_alone amb₂ fun _ newer => ?_
      exact ⟨rfl, _, List.mem_append_right newer (.head _), rfl, rfl, rfl⟩

end Alone

/-- A logout ends with 204 and without a cookie. -/
theorem LogsOut.outcome {cfg : AuthConfig} {throttled : Moment → Bool}
    {s : Site} {r : Except FetchError Nat} {c' : LogoutRun}
    (h : LogsOut cfg throttled s r c') :
    r = .ok 204 ∧ ∃ x ∈ c'.log, LoggedOut cfg throttled s
      (bearer (s.cookies.session.getD {})) x c'.state := by
  obtain ⟨amb, hsteps, hthreads⟩ := h
  obtain ⟨_, hend⟩ := hsteps.ended_alone rfl hthreads
    logoutRoute_alone
  exact hend

/-! ## The session at the backend -/

/-- The session holds the two tokens of one answer: the refresh token of the
unrevoked record, and an access token signed for its user, which expires at
`exp`. -/
structure HoldsPair (cfg : AuthConfig) (session : SessionData) (s : Store)
    (record : RefreshToken) (exp : Int) : Prop where
  refreshToken : ∃ token, session.refreshToken = some token ∧
    record.token_hash = hashToken token
  accessToken : ∃ email iat, session.accessToken =
    some (.jwt ⟨cfg.jwtSecret, .access record.user_id email, iat, exp⟩)
  mem : record ∈ s.refresh_tokens.rows
  unrevoked : record.revoked_at = none

/-- The record has been revoked. -/
def Revoked (s : Store) (record : RefreshToken) : Prop :=
  ∃ r ∈ s.refresh_tokens.rows, r.id = record.id ∧ r.revoked_at ≠ none

theorem not_revoked_of_mem {s : Store} {record : RefreshToken}
    (hmem : record ∈ s.refresh_tokens.rows)
    (hunrevoked : record.revoked_at = none) : ¬ Revoked s record := by
  rintro ⟨r, hr, hid, hrevoked⟩
  rw [s.refresh_tokens.unique hr hmem hid] at hrevoked
  exact hrevoked hunrevoked

theorem revoked_revokeWhere_iff {s : Store} {record : RefreshToken}
    {userId : Nat} {now : Int} (hmem : record ∈ s.refresh_tokens.rows)
    (hunrevoked : record.revoked_at = none) :
    Revoked (s.revokeWhere (·.user_id == userId) now) record ↔
      record.user_id = userId := by
  constructor
  · rintro ⟨r', hr', hid, hrevoked⟩
    obtain ⟨r, hr, rfl⟩ := mem_revokeWhere.1 hr'
    by_cases huser : (r.user_id == userId) = true
    · rw [if_pos huser] at hid
      rw [← s.refresh_tokens.unique hr hmem hid]
      exact beq_iff_eq.1 huser
    · rw [if_neg huser] at hid hrevoked
      rw [s.refresh_tokens.unique hr hmem hid] at hrevoked
      exact absurd hunrevoked hrevoked
  · intro huser
    refine ⟨record.revoke now, ?_, rfl, ?_⟩
    · apply mem_revokeWhere.2 ⟨record, hmem, ?_⟩
      rw [if_pos (beq_iff_eq.2 huser)]
    · exact record.revoke_ne_none now

/-- Which records a logout at the backend has revoked. -/
theorem revoked_logoutAtOnce_iff {cfg : AuthConfig}
    {throttled : Moment → Bool} {m : Moment} {authorization : AuthHeader}
    {s : Store} {record : RefreshToken}
    (hmem : record ∈ s.refresh_tokens.rows)
    (hunrevoked : record.revoked_at = none) :
    Revoked (logoutAtOnce cfg throttled m authorization s).2 record ↔
      loggedOutUser cfg throttled m authorization = some record.user_id := by
  rw [logoutAtOnce_spec]
  cases loggedOutUser cfg throttled m authorization with
  | none =>
      exact ⟨fun h => absurd h (not_revoked_of_mem hmem hunrevoked), nofun⟩
  | some userId =>
      dsimp only
      rw [revoked_revokeWhere_iff hmem hunrevoked, Option.some.injEq, eq_comm]

theorem loggedOutUser_access {cfg : AuthConfig} {throttled : Moment → Bool}
    {m : Moment} {userId : Nat} {email : String} {iat exp : Int} :
    loggedOutUser cfg throttled m
        (.bearer (.jwt ⟨cfg.jwtSecret, .access userId email, iat, exp⟩)) =
      some userId ↔ throttled m = false ∧ m.now / 1000 < exp := by
  simp only [loggedOutUser, verifyJwt, true_and]
  cases throttled m with
  | true => simp
  | false =>
      by_cases hexp : m.now / 1000 < exp
      · simp [hexp, JwtClaims.sub]
      · simp [hexp]

/-- The browser of the login, and the backend after it. -/
def ownSite : Site := ⟨⟨some ownSession, false⟩, loggedIn.state⟩

/-- The record of the login. -/
def ownRecord : RefreshToken :=
  ⟨0, hashToken (sampleToken 1 1 0), 1, 0, 604800000, none⟩

theorem ownSite_holdsPair :
    HoldsPair sampleConfig ownSession ownSite.backend ownRecord 900 :=
  ⟨⟨_, rfl, rfl⟩, ⟨_, _, rfl⟩, by decide, rfl⟩

/-- A logout at time `now`, in milliseconds. -/
def logoutRun (now : Int) : LogoutRun :=
  ((logoutSystem sampleConfig unthrottled).schedule backendMayFail
    ((logoutSystem sampleConfig unthrottled).spawn (Config.start ownSite) () {})
    (Tick.answers 0 4 { now := now })).get rfl

theorem logsOut_logoutRun (now : Int) :
    LogsOut sampleConfig unthrottled ownSite (.ok 204) (logoutRun now) :=
  ⟨{}, Steps.of_schedule (Tick.answers 0 4 { now := now })
    (Option.some_get _).symm (by simp [Tick.answers, System.Admitted]), rfl⟩

end Videum.Frontend
