import Videum.Auth.Exchange
import Videum.Frontend.Calls

/-!
# One browser session

The requests of one browser go through `withRefresh`, and the backend answers
`POST /auth/refresh` with an atomic `AuthService.refresh`.  A request reads
the session cookie it arrived with; the browser keeps the cookie of the
response that arrives last.

A token that was exchanged is accepted for ten more seconds.  A request that
arrived with it may get its 401 later than that, and within that time the
backend hands the exchanged token back, so that it may end up in the cookie
jar again.  The session is safe as long as no exchanged token is presented
after the grace period.

## Main results

* `Honest.refresh` — an atomic refresh of a held token keeps `Honest`.
* `Honest.answered` — the tokens it is answered with are held again.
* `honest_kept` — every call that presents held tokens keeps `Honest`.
-/

namespace Videum.Frontend

open Videum.Async
open Videum.Common
open Videum.Auth

/-! ## The backend -/

/-- The status of a failed `POST /auth/refresh`. -/
def errorStatus : AuthError → Nat
  | .domain e => e.httpStatus
  | .unauthorized => 401
  | _ => 500

/-- `AuthController.refresh`: `RefreshTokenDto` refuses a missing or empty
token, and the throttler any request it finds one too many. -/
def refreshRoute (cfg : AuthConfig) (throttled : Moment → Bool) (m : Moment)
    (refreshToken : Option RawToken) (s : Store) :
    Except FetchError RefreshResponse × Store :=
  if throttled m then (.ok ⟨429, some ⟨none, none⟩⟩, s)
  else
    match truthy refreshToken with
    | none => (.ok ⟨400, some ⟨none, none⟩⟩, s)
    | some token =>
        match refreshAtOnce cfg m token s with
        | (.ok pair, s') =>
            (.ok ⟨200, some ⟨some pair.access_token,
              some pair.refresh_token⟩⟩, s')
        | (.error e, s') => (.ok ⟨errorStatus e, some ⟨none, none⟩⟩, s')

/-- The random values drawn for it are new. -/
def routeFresh (cfg : AuthConfig) (m : Moment)
    (refreshToken : Option RawToken) (s : Store) : Bool :=
  match truthy refreshToken with
  | none => true
  | some token => freshAtOnce cfg m token s

/-- The fetchers and the backend of one browser session. -/
def backendWorld (cfg : AuthConfig) (throttled : Moment → Bool)
    (fetcher : Nat → Nat → Except FetchError Response) : World Store where
  fetcher := fetcher
  refresh := refreshRoute cfg throttled
  fresh := routeFresh cfg

/-! ## The requests of the browser -/

/-- A request: it is sent with the cookie of the jar, and its response,
whatever it is, sets the cookies of its store. -/
def serveRequest (call : Call) : FrontProg Response := do
  await (.send call.request)
  let outcome ← outcomeOf (withRefresh call)
  await (.deliver call.request)
  Prog.ofExcept outcome

abbrev browserSystem (W : World Store) :
    System FrontIface Moment FetchError (Process Store) Call Response :=
  frontSystem W serveRequest

/-- Any number of requests at any time, each through one `withRefresh`. -/
def anyRequests : FrontPolicy Store where
  accepts c call := ∀ th ∈ c.threads,
    th.request.id ≠ call.id ∧ th.request.request ≠ call.request
  fault _ _ := false

instance (c : FrontRun Store) (call : Call) :
    Decidable (anyRequests.accepts c call) :=
  inferInstanceAs (Decidable (∀ th ∈ c.threads,
    th.request.id ≠ call.id ∧ th.request.request ≠ call.request))

/-! ## Exchanges -/

/-- The token `AuthService.refresh` is called with. -/
def FrontOp.reaches (throttled : Moment → Bool) (m : Moment) :
    FrontOp → Option RawToken
  | .postRefresh refreshToken =>
      if throttled m then none else truthy refreshToken
  | _ => none

/-- The answer `x` has exchanged the token: it was live before, and is revoked
after. -/
def exchanges (throttled : Moment → Bool) (x : FrontEntry Store)
    (token : RawToken) : Bool :=
  x.op.reaches throttled x.amb == some token &&
    x.before.backend.live token && x.after.backend.revoked token

/-- A token that an earlier request has exchanged is presented within the
grace period, or after it has expired. -/
def InTime (throttled : Moment → Bool) (x : FrontEntry Store)
    (older : FrontLog Store) : Prop :=
  ∀ token ∈ x.op.reaches throttled x.amb,
    x.before.backend.unexpired x.amb token = true → ∀ y ∈ older,
      exchanges throttled y token = true →
        x.amb.now ≤ y.amb.now + tokenReuseGracePeriodMs

instance (throttled : Moment → Bool) (x : FrontEntry Store)
    (older : FrontLog Store) : Decidable (InTime throttled x older) :=
  inferInstanceAs (Decidable (∀ token ∈ x.op.reaches throttled x.amb,
    x.before.backend.unexpired x.amb token = true → ∀ y ∈ older,
      exchanges throttled y token = true →
        x.amb.now ≤ y.amb.now + tokenReuseGracePeriodMs))

/-- The refresh of `x` ends in `TokenReuseDetectedException`. -/
def DetectsReuse (cfg : AuthConfig) (throttled : Moment → Bool)
    (x : FrontEntry Store) : Prop :=
  ∃ token ∈ x.op.reaches throttled x.amb,
    (refreshAtOnce cfg x.amb token x.before.backend).1 =
      .error (.domain .TokenReuseDetected)

/-! ## The invariant -/

/-- The token, if there is one, was not revoked in `b`. -/
def Held (b : Store) (refreshToken : Option RawToken) : Prop :=
  ∀ token ∈ refreshToken, b.revoked token = false

/-- So for the token of a session. -/
def HeldBy (b : Store) (session? : Option SessionData) : Prop :=
  ∀ session ∈ session?, Held b session.refreshToken

/-- What the grace period is there for, with the log of a run that started
from `b`: records are revoked by exchanges only, no family has died, and the
reuse exception was not thrown. -/
structure Safe (cfg : AuthConfig) (throttled : Moment → Bool) (b s : Store)
    (log : FrontLog Store) : Prop where
  exchanged : ∀ r ∈ s.refresh_tokens.rows, ∀ revokedAt,
    r.revoked_at = some revokedAt → b.revoked r.token_hash.raw = true ∨
      ∃ y ∈ log, exchanges throttled y r.token_hash.raw = true ∧
        y.amb.now = revokedAt
  alive : ∀ family, b.Alive family → s.Alive family
  undetected : ∀ x ∈ log, ¬ DetectsReuse cfg throttled x

/-- Every token the server or the browser holds was live at the start, or
handed out since; and the session is safe as long as exchanged tokens are
presented in time. -/
structure Honest (cfg : AuthConfig) (throttled : Moment → Bool) (b : Store)
    (s : Process Store) (log : FrontLog Store) : Prop where
  jar : HeldBy b s.jar
  cookies : ∀ request, HeldBy b (s.cookies request).session
  kept : ∀ token, b.revoked token = true → s.backend.revoked token = true
  safe : Throughout (InTime throttled) log →
    Safe cfg throttled b s.backend log

section Invariant

variable {cfg : AuthConfig} {throttled : Moment → Bool}
  {fetcher : Nat → Nat → Except FetchError Response} {b : Store}
  {s s' : Process Store} {log : FrontLog Store}

theorem held_none (b : Store) : Held b none := fun _ h => nomatch h

theorem HeldBy.getD {session? : Option SessionData} (h : HeldBy b session?) :
    Held b (session?.getD {}).refreshToken := by
  cases session? with
  | none => exact held_none b
  | some session => exact h session rfl

theorem HeldBy.some {session : SessionData}
    (h : Held b session.refreshToken) : HeldBy b (some session) := by
  rintro _ ⟨rfl⟩
  exact h

theorem HeldBy.none (b : Store) : HeldBy b none := fun _ h => nomatch h

/-- A call that does not reach the service. -/
theorem Honest.frame (h : Honest cfg throttled b s log)
    {x : FrontEntry Store} (hx : x.op.reaches throttled x.amb = none)
    (hjar : HeldBy b s'.jar)
    (hcookies : ∀ request, HeldBy b (s'.cookies request).session)
    (hbackend : s'.backend = s.backend) :
    Honest cfg throttled b s' (x :: log) where
  jar := hjar
  cookies := hcookies
  kept := by
    rw [hbackend]
    exact h.kept
  safe := by
    intro htimely
    have hsafe := h.safe htimely.2
    rw [hbackend]
    refine ⟨?_, hsafe.alive, ?_⟩
    · intro r hr revokedAt hrevoked
      apply (hsafe.exchanged r hr revokedAt hrevoked).imp_right
      rintro ⟨y, hy, hexchanges⟩
      exact ⟨y, .tail _ hy, hexchanges⟩
    · intro y hy
      rcases List.mem_cons.1 hy with rfl | hy
      · rintro ⟨token, htoken, _⟩
        rw [hx] at htoken
        exact nomatch htoken
      · exact hsafe.undetected y hy

/-- The atomic refresh of a token that is held. -/
theorem Honest.refresh (h : Honest cfg throttled b s log)
    {x : FrontEntry Store} {token : RawToken}
    (hx : x.op.reaches throttled x.amb = some token)
    (hbefore : x.before = s) (hafter : x.after = s')
    (hheld : b.revoked token = false)
    (hfresh : freshAtOnce cfg x.amb token s.backend = true)
    (hjar : s'.jar = s.jar) (hcookies : s'.cookies = s.cookies)
    (hbackend : s'.backend = (refreshAtOnce cfg x.amb token s.backend).2) :
    Honest cfg throttled b s' (x :: log) := by
  have houtcome := eval_refresh hfresh
  rw [← hbackend] at houtcome
  refine ⟨by rw [hjar]; exact h.jar, by rw [hcookies]; exact h.cookies, ?_, ?_⟩
  · exact fun token' hrevoked =>
      houtcome.revoked_kept (h.kept token' hrevoked)
  · rintro ⟨hintime, htimely⟩
    have hsafe := h.safe htimely
    have hundetected : (refreshAtOnce cfg x.amb token s.backend).1 ≠
        .error (.domain .TokenReuseDetected) := by
      intro hreuse
      obtain ⟨hunexpired, r, hr, hhash, revokedAt, hrevoked, hlate⟩ :=
        houtcome.reuse hreuse
      have hraw : r.token_hash.raw = token := congrArg TokenHash.raw hhash
      rcases hsafe.exchanged r hr revokedAt hrevoked with
        hstart | ⟨y, hy, hexchanges, hnow⟩
      · rw [hraw, hheld] at hstart
        exact nomatch hstart
      · rw [hraw] at hexchanges
        rw [← hbefore] at hunexpired
        have hgrace := hintime token hx hunexpired y hy hexchanges
        omega
    refine ⟨?_, fun family halive =>
      houtcome.alive hundetected (hsafe.alive family halive), ?_⟩
    · intro r hr revokedAt hrevoked
      rcases houtcome.revokes hundetected hr hrevoked with
        hold | ⟨hhash, hnow, hlive⟩
      · apply (hsafe.exchanged r hold revokedAt hrevoked).imp_right
        rintro ⟨y, hy, hexchanges⟩
        exact ⟨y, .tail _ hy, hexchanges⟩
      · have hraw : r.token_hash.raw = token := congrArg TokenHash.raw hhash
        refine .inr ⟨x, .head _, ?_, hnow.symm⟩
        have hrevoked' : s'.backend.revoked token = true :=
          Store.revoked_iff.2 ⟨r, hr, hraw, by rw [hrevoked]; exact nofun⟩
        simp only [exchanges, hx, hraw, hbefore, hafter, hlive, hrevoked',
          beq_self_eq_true, Bool.and_self]
    · intro y hy
      rcases List.mem_cons.1 hy with rfl | hy
      · rintro ⟨token', htoken', hreuse⟩
        rw [hx] at htoken'
        cases htoken'
        rw [hbefore] at hreuse
        exact hundetected hreuse
      · exact hsafe.undetected y hy

/-! ## What keeps it -/

/-- The tokens presented and those set in a cookie are held. -/
def Presents (b : Store) : FrontOp → Prop
  | .postRefresh refreshToken => Held b refreshToken
  | .save _ session => Held b session.refreshToken
  | _ => True

theorem reaches_eq_some {m : Moment} {refreshToken : Option RawToken}
    {token : RawToken} :
    (FrontOp.postRefresh refreshToken).reaches throttled m = some token ↔
      throttled m = false ∧ truthy refreshToken = some token := by
  show (if throttled m = true then none else truthy refreshToken) = _ ↔ _
  cases throttled m with
  | true => exact ⟨nofun, fun h => nomatch h.1⟩
  | false => exact ⟨fun h => ⟨rfl, h⟩, fun h => h.2⟩

/-- A request turned away by the throttler or by the check of its body. -/
theorem refreshRoute_unreached {m : Moment} {refreshToken : Option RawToken}
    (h : (FrontOp.postRefresh refreshToken).reaches throttled m = none)
    (s : Store) : ∃ status, refreshRoute cfg throttled m refreshToken s =
      (.ok ⟨status, some ⟨none, none⟩⟩, s) := by
  unfold refreshRoute
  cases hthrottled : throttled m with
  | true => exact ⟨429, rfl⟩
  | false =>
      cases htruthy : truthy refreshToken with
      | none => exact ⟨400, rfl⟩
      | some token =>
          rw [reaches_eq_some.2 ⟨hthrottled, htruthy⟩] at h
          exact nomatch h

/-- A request that reaches the service is answered with its pair of tokens,
or with none. -/
theorem refreshRoute_reached {m : Moment} {refreshToken : Option RawToken}
    {token : RawToken}
    (h : (FrontOp.postRefresh refreshToken).reaches throttled m = some token)
    (s : Store) :
    ∃ status data, refreshRoute cfg throttled m refreshToken s =
        (.ok ⟨status, some data⟩, (refreshAtOnce cfg m token s).2) ∧
      ∀ token' ∈ data.refresh_token, ∃ pair,
        (refreshAtOnce cfg m token s).1 = .ok pair ∧
          pair.refresh_token = token' := by
  obtain ⟨hthrottled, htruthy⟩ := reaches_eq_some.1 h
  unfold refreshRoute
  rw [hthrottled, htruthy, if_neg Bool.false_ne_true]
  dsimp only
  rcases refreshAtOnce cfg m token s with ⟨result, s'⟩
  cases result with
  | error e => exact ⟨errorStatus e, ⟨none, none⟩, rfl, nofun⟩
  | ok pair =>
      refine ⟨200, ⟨some pair.access_token, some pair.refresh_token⟩, rfl, ?_⟩
      rintro _ ⟨rfl⟩
      exact ⟨pair, rfl, rfl⟩

theorem fresh_of_reaches {m : Moment} {refreshToken : Option RawToken}
    {token : RawToken} {s : Store}
    (h : (FrontOp.postRefresh refreshToken).reaches throttled m = some token)
    (hfresh : routeFresh cfg m refreshToken s = true) :
    freshAtOnce cfg m token s = true := by
  unfold routeFresh at hfresh
  rw [(reaches_eq_some.1 h).2] at hfresh
  exact hfresh

/-- The tokens of an answer are held: the one presented comes back, or a new
one that no record has. -/
theorem Honest.answered (h : Honest cfg throttled b s log) {m : Moment}
    {refreshToken : Option RawToken} (hheld : Held b refreshToken)
    (hfresh : routeFresh cfg m refreshToken s.backend = true)
    {res : RefreshResponse}
    (hres : (refreshRoute cfg throttled m refreshToken s.backend).1 = .ok res) :
    ∀ data ∈ res.body, Held b data.refresh_token := by
  cases hreaches : (FrontOp.postRefresh refreshToken).reaches throttled m with
  | none =>
      obtain ⟨status, hroute⟩ := refreshRoute_unreached hreaches s.backend
      rw [hroute] at hres
      cases hres
      rintro _ ⟨rfl⟩
      exact held_none b
  | some token =>
      obtain ⟨status, data, hroute, hdata⟩ :=
        refreshRoute_reached hreaches s.backend
      rw [hroute] at hres
      cases hres
      rintro _ ⟨rfl⟩ token' htoken'
      obtain ⟨pair, hpair, rfl⟩ := hdata token' htoken'
      have houtcome := eval_refresh (fresh_of_reaches hreaches hfresh)
      rcases houtcome.handsBack hpair with heq | hnew
      · rw [heq]
        exact hheld token (truthy_eq_some (reaches_eq_some.1 hreaches).2)
      · cases hrevoked : b.revoked pair.refresh_token with
        | false => rfl
        | true =>
            obtain ⟨r, hr, hraw, _⟩ :=
              Store.revoked_iff.1 (h.kept pair.refresh_token hrevoked)
            exact absurd (congrArg TokenHash.mk hraw) (hnew r hr)

/-- A cookie is set to what a session may hold. -/
theorem heldBy_setCookies
    (h : ∀ request, HeldBy b (s.cookies request).session) (request : Nat)
    {store : CookieStore} (hstore : HeldBy b store.session) (request' : Nat) :
    HeldBy b ((s.setCookies request store).cookies request').session := by
  by_cases heq : request' = request
  · rw [heq, Process.setCookies_self]
    exact hstore
  · rw [Process.setCookies_ne s store heq]
    exact h request'

/-- Calls that present held tokens keep the invariant. -/
theorem honest_kept : KeptBy
    (browserSystem (backendWorld cfg throttled fetcher)) anyRequests
    (Honest cfg throttled b) fun _ _ _ op => Presents b op := by
  intro t call m op fault s log h hlaw hguard hfault
  cases fault with
  | some e => exact nomatch hfault
  | none =>
      cases op with
      | postRefresh refreshToken =>
          cases hreaches : (FrontOp.postRefresh refreshToken).reaches
            throttled m with
          | none =>
              obtain ⟨status, hroute⟩ :=
                refreshRoute_unreached hreaches s.backend
              exact h.frame hreaches h.jar h.cookies
                (congrArg Prod.snd hroute)
          | some token =>
              obtain ⟨status, data, hroute, _⟩ :=
                refreshRoute_reached hreaches s.backend
              have htruthy := (reaches_eq_some.1 hreaches).2
              exact h.refresh hreaches rfl rfl
                (hlaw token (truthy_eq_some htruthy))
                (fresh_of_reaches hreaches hguard) rfl rfl
                (congrArg Prod.snd hroute)
      | save request session =>
          exact h.frame rfl h.jar
            (heldBy_setCookies h.cookies request (.some hlaw)) rfl
      | destroy request =>
          exact h.frame rfl h.jar
            (heldBy_setCookies h.cookies request (.none b)) rfl
      | send request =>
          exact h.frame rfl h.jar
            (heldBy_setCookies h.cookies request h.jar) rfl
      | deliver request =>
          show Honest cfg throttled b (s.deliver request) _
          unfold Process.deliver
          split
          · exact h.frame rfl (h.cookies request) h.cookies rfl
          · exact h.frame rfl h.jar h.cookies rfl
      | refreshPromise call =>
          show Honest cfg throttled b (s.enter call).2 _
          unfold Process.enter
          split
          · exact h.frame rfl h.jar h.cookies rfl
          · exact h.frame rfl h.jar h.cookies rfl
      | _ => exact h.frame rfl h.jar h.cookies rfl

end Invariant

end Videum.Frontend
