import Videum.Common.Language

/-!
# The routes of the web server in front of the backend

`POST` of `app/api/auth/forgot-password/route.ts`, `login/route.ts` and
`signup/route.ts`.  Each passes its body on with `openapi-fetch`, takes what
the client has made of an error for the sign that something went wrong, and
answers with the status of the backend then.  A handler that throws is
answered with 500.

## Main results

* `passError_status` — how a route answers when the backend has failed.
* `failures_reported_iff` — when the three routes report a failure as it was.
-/

namespace Videum.Frontend

open Videum.Common

/-! ## The client -/

/-- What the backend has answered. -/
structure UpstreamResponse where
  status : Nat
  contentLength : Option String
  body : String

/-- `response.ok` of a status. -/
def isOk (status : Nat) : Bool := 200 ≤ status && status ≤ 299

/-- Why a handler throws. -/
inductive RouteError
  | syntaxError
  | typeError
  | rangeError
  deriving DecidableEq, Repr

/-- What `openapi-fetch` resolves to, next to the response; `none` is
`undefined`. -/
structure FetchResult where
  data : Option Json
  error : Option Json

section Routes

-- `JSON.parse`; a text that is no JSON has no value.
variable (parse : String → Option Json)

/-- `upstream.POST`, once the response is there. -/
def upstreamPost (upstream : UpstreamResponse) :
    Except RouteError FetchResult :=
  if upstream.status = 204 ∨ upstream.contentLength = some "0" then
    .ok ⟨none, none⟩
  else if isOk upstream.status then
    match parse upstream.body with
    | some value => .ok ⟨some value, none⟩
    | none => .error .syntaxError
  else
    .ok ⟨none, some ((parse upstream.body).getD (.string upstream.body))⟩

/-! ## The handlers -/

/-- The session `login` seals. -/
structure LoginSession where
  accessToken : Json
  refreshToken : Json
  userId : Json
  email : Json
  channelSlug : Json
  isLoggedIn : Bool

/-- What the browser gets: a status, a body, and the session that was sealed
into the cookie. -/
structure RouteReply where
  status : Nat
  body : Option Json
  session : Option LoginSession

/-- The statuses of a response that has no body. -/
def nullBodyStatuses : List Nat := [101, 103, 204, 205, 304]

/-- A response with a body may have this status. -/
def Constructible (status : Nat) : Prop :=
  200 ≤ status ∧ status ≤ 599 ∧ status ∉ nullBodyStatuses

instance (status : Nat) : Decidable (Constructible status) :=
  inferInstanceAs (Decidable (_ ∧ _ ∧ _))

/-- `NextResponse.json(value, { status })`. -/
def nextJson (value : Option Json) (status : Nat) :
    Except RouteError RouteReply :=
  match value with
  | none => .error .typeError
  | some value =>
      if status < 200 ∨ 599 < status then .error .rangeError
      else if status ∈ nullBodyStatuses then .error .typeError
      else .ok ⟨status, some value, none⟩

/-- The part the handlers have in common: an error that counts as true is
passed on with its status, and anything else is taken for a success. -/
def passError (upstream : UpstreamResponse)
    (succeed : Option Json → Except RouteError RouteReply) :
    Except RouteError RouteReply := do
  let result ← upstreamPost parse upstream
  match result.error.filter Json.isTruthy with
  | some error => nextJson (some error) upstream.status
  | none => succeed result.data

/-- `forgot-password`. -/
def forgotPassword (upstream : UpstreamResponse) :
    Except RouteError RouteReply :=
  passError parse upstream fun _ => .ok ⟨204, none, none⟩

/-- `signup`. -/
def signup (upstream : UpstreamResponse) : Except RouteError RouteReply :=
  passError parse upstream fun data => nextJson data 201

/-- `value.name`; of `undefined` and `null` it cannot be read. -/
def member (value : Option Json) (name : String) :
    Except RouteError (Option Json) :=
  match value with
  | none => .error .typeError
  | some .null => .error .typeError
  | some (.object fields) => .ok (fields.lookup name)
  | some _ => .ok none

/-- `value ?? ""`. -/
def orEmpty : Option Json → Json
  | none => .string ""
  | some .null => .string ""
  | some value => value

/-- `setSession`, where `fits` says whether the sealed cookie is short enough
to be saved. -/
def sealSession (fits : LoginSession → Bool) (session : LoginSession) :
    Except RouteError LoginSession :=
  if fits session then .ok session else .error .typeError

/-- `login`, for a request with `body`. -/
def login (fits : LoginSession → Bool) (body : Json)
    (upstream : UpstreamResponse) : Except RouteError RouteReply :=
  passError parse upstream fun tokens => do
    let accessToken ← member tokens "access_token"
    let refreshToken ← member tokens "refresh_token"
    let email ← member (some body) "email"
    let session ← sealSession fits
      { accessToken := orEmpty accessToken
        refreshToken := orEmpty refreshToken
        userId := .string ""
        email := orEmpty email
        channelSlug := .string ""
        isLoggedIn := true }
    return { status := 200, body := some (.object []), session := some session }

end Routes

/-- What is answered for a handler. -/
def respond : Except RouteError RouteReply → RouteReply
  | .ok reply => reply
  | .error _ => ⟨500, none, none⟩

/-! ## Failures -/

/-- The answer is a success only if the backend has succeeded, and has the
backend's status otherwise. -/
def Reports (upstream : UpstreamResponse) (reply : RouteReply) : Prop :=
  (isOk reply.status = true → isOk upstream.status = true) ∧
    (isOk upstream.status = false → reply.status = upstream.status)

section Failures

variable (parse : String → Option Json) {upstream : UpstreamResponse}
  {succeed : Option Json → Except RouteError RouteReply}

/-- What the client makes of the body of a failure. -/
def failureOf (upstream : UpstreamResponse) : Json :=
  (parse upstream.body).getD (.string upstream.body)

/-- The failure has a body that counts as true. -/
def HasError (upstream : UpstreamResponse) : Prop :=
  upstream.contentLength ≠ some "0" ∧
    (failureOf parse upstream).isTruthy = true

/-- The error the handlers look at: one that does not count as true is none. -/
def sentError (upstream : UpstreamResponse) : Option Json :=
  Option.filter Json.isTruthy
    (if upstream.contentLength = some "0" then none
      else some (failureOf parse upstream))

theorem upstreamPost_of_failed (hfailed : isOk upstream.status = false) :
    upstreamPost parse upstream = .ok ⟨none,
      if upstream.contentLength = some "0" then none
      else some (failureOf parse upstream)⟩ := by
  have hcontent : upstream.status ≠ 204 := by
    intro hstatus
    rw [hstatus] at hfailed
    exact nomatch hfailed
  unfold upstreamPost
  by_cases hempty : upstream.contentLength = some "0"
  · rw [if_pos (.inr hempty), if_pos hempty]
  · rw [if_neg (not_or.2 ⟨hcontent, hempty⟩), hfailed, if_neg nofun,
      if_neg hempty]
    rfl

/-- A failed call: the handler goes by the error it sees. -/
theorem passError_of_failed (hfailed : isOk upstream.status = false) :
    passError parse upstream succeed =
      (sentError parse upstream).elim (succeed none) fun error =>
        nextJson (some error) upstream.status := by
  unfold passError
  rw [upstreamPost_of_failed parse hfailed]
  show (match sentError parse upstream with
    | some error => nextJson (some error) upstream.status
    | none => succeed none) = _
  cases sentError parse upstream <;> rfl

/-- A failure whose body does not count as true is taken for a success
without data. -/
theorem passError_of_not_hasError (hfailed : isOk upstream.status = false)
    (herror : ¬ HasError parse upstream) :
    passError parse upstream succeed = succeed none := by
  have hnone : sentError parse upstream = none := by
    unfold sentError
    by_cases hempty : upstream.contentLength = some "0"
    · rw [if_pos hempty]
      rfl
    · rw [if_neg hempty, Option.filter_some,
        if_neg fun htruthy => herror ⟨hempty, htruthy⟩]
  rw [passError_of_failed parse hfailed, hnone]
  rfl

/-- Any other is passed on. -/
theorem passError_of_hasError (hfailed : isOk upstream.status = false)
    (herror : HasError parse upstream) :
    passError parse upstream succeed =
      nextJson (some (failureOf parse upstream)) upstream.status := by
  have hsome : sentError parse upstream =
      some (failureOf parse upstream) := by
    rw [sentError, if_neg herror.1, Option.filter_some, if_pos herror.2]
  rw [passError_of_failed parse hfailed, hsome]
  rfl

/-- A body is sent with a status that may have one, and 500 is answered in
place of the others. -/
theorem respond_nextJson (value : Json) (status : Nat) :
    respond (nextJson (some value) status) =
      if Constructible status then ⟨status, some value, none⟩
      else ⟨500, none, none⟩ := by
  unfold nextJson
  dsimp only
  by_cases hrange : status < 200 ∨ 599 < status
  · rw [if_pos hrange, if_neg fun h => by have := h.1; have := h.2.1; omega]
    rfl
  · rw [if_neg hrange]
    by_cases hnull : status ∈ nullBodyStatuses
    · rw [if_pos hnull, if_neg fun h => h.2.2 hnull]
      rfl
    · rw [if_neg hnull, if_pos ⟨by omega, by omega, hnull⟩]
      rfl

theorem reports_of_failed (hfailed : isOk upstream.status = false)
    (reply : RouteReply) :
    Reports upstream reply ↔ reply.status = upstream.status := by
  constructor
  · exact fun h => h.2 hfailed
  · exact fun h => ⟨fun hok => by rw [← h, hok], fun _ => h⟩

/-- A handler reports what the backend has succeeded in, errors it can pass
on, and failures it answers alike by itself. -/
theorem reports_passError_iff :
    Reports upstream (respond (passError parse upstream succeed)) ↔
      isOk upstream.status = true ∨
      HasError parse upstream ∧ Constructible upstream.status ∨
      ¬ HasError parse upstream ∧
        (respond (succeed none)).status = upstream.status := by
  cases hfailed : isOk upstream.status with
  | true =>
      have hreports : Reports upstream
          (respond (passError parse upstream succeed)) :=
        ⟨fun _ => hfailed, fun h => absurd (hfailed.symm.trans h) nofun⟩
      exact iff_of_true hreports (.inl rfl)
  | false =>
      rw [reports_of_failed hfailed, or_iff_right nofun]
      by_cases herror : HasError parse upstream
      · rw [passError_of_hasError parse hfailed herror, respond_nextJson,
          or_iff_left fun h => h.1 herror, and_iff_right herror]
        by_cases hstatus : Constructible upstream.status
        · rw [if_pos hstatus]
          exact iff_of_true rfl hstatus
        · rw [if_neg hstatus]
          refine iff_of_false ?_ hstatus
          intro h
          -- 500 may have a body
          rw [← h] at hstatus
          exact hstatus (by decide)
      · rw [passError_of_not_hasError parse hfailed herror,
          or_iff_right fun h => herror h.1, and_iff_right herror]

/-- So does one that would answer the failure with 500 whenever it has no
data. -/
theorem reports_passError_iff_of_throws {e : RouteError}
    (hthrows : succeed none = .error e) :
    Reports upstream (respond (passError parse upstream succeed)) ↔
      isOk upstream.status = true ∨ upstream.status = 500 ∨
        HasError parse upstream ∧ Constructible upstream.status := by
  rw [reports_passError_iff, hthrows]
  have hstatus : (respond (.error e)).status = 500 := rfl
  have hconstructible :
      upstream.status = 500 → Constructible upstream.status := by
    intro h
    rw [h]
    decide
  rw [hstatus, eq_comm]
  tauto

/-- A session is sealed only after a success of the backend. -/
theorem session_login {fits : LoginSession → Bool} {body : Json}
    (h : (respond (login parse fits body upstream)).session ≠ none) :
    isOk upstream.status = true := by
  cases hfailed : isOk upstream.status with
  | true => rfl
  | false =>
      exfalso
      apply h
      unfold login
      by_cases herror : HasError parse upstream
      · rw [passError_of_hasError parse hfailed herror, respond_nextJson]
        split <;> rfl
      · rw [passError_of_not_hasError parse hfailed herror]
        rfl

/--
**Failures of the backend.**  For every answer of the backend, whatever
`JSON.parse` makes of its body: `forgot-password` reports it exactly when it
is a success or has a body that counts as true and a status that may have
one; `login` and `signup` report a bare 500 besides.  `login` seals a session
only on a success.
-/
theorem failures_reported_iff (fits : LoginSession → Bool) (body : Json)
    (upstream : UpstreamResponse) :
    (Reports upstream (respond (forgotPassword parse upstream)) ↔
      isOk upstream.status = true ∨
        HasError parse upstream ∧ Constructible upstream.status) ∧
    (Reports upstream (respond (login parse fits body upstream)) ↔
      isOk upstream.status = true ∨ upstream.status = 500 ∨
        HasError parse upstream ∧ Constructible upstream.status) ∧
    (Reports upstream (respond (signup parse upstream)) ↔
      isOk upstream.status = true ∨ upstream.status = 500 ∨
        HasError parse upstream ∧ Constructible upstream.status) ∧
    ((respond (login parse fits body upstream)).session ≠ none →
      isOk upstream.status = true) := by
  refine ⟨?_, reports_passError_iff_of_throws parse rfl,
    reports_passError_iff_of_throws parse rfl, session_login parse⟩
  have hsuccess : (respond (.ok ⟨204, none, none⟩)).status = upstream.status →
      isOk upstream.status = true := by
    intro h
    rw [← h]
    rfl
  rw [forgotPassword, reports_passError_iff]
  tauto

end Failures

/-- The backend is gone, and what stands before it says so without a body. -/
def unavailable : UpstreamResponse where
  status := 503
  contentLength := some "0"
  body := ""

/-- `forgot-password` answers like for a mail that was sent, the other two
with a status of their own. -/
theorem failures_reported_broken :
    (∀ parse, (respond (forgotPassword parse unavailable)).status = 204) ∧
    (∀ parse fits body,
      (respond (login parse fits body unavailable)).status = 500) ∧
    (∀ parse, (respond (signup parse unavailable)).status = 500) ∧
    ¬ (∀ parse upstream,
      Reports upstream (respond (forgotPassword parse upstream))) ∧
    ¬ (∀ parse fits body upstream,
      Reports upstream (respond (login parse fits body upstream))) ∧
    ¬ ∀ parse upstream,
      Reports upstream (respond (signup parse upstream)) := by
  have hforgot : ∀ parse,
      (respond (forgotPassword parse unavailable)).status = 204 := fun _ => rfl
  have hlogin : ∀ parse fits body,
      (respond (login parse fits body unavailable)).status = 500 :=
    fun _ _ _ => rfl
  have hsignup : ∀ parse,
      (respond (signup parse unavailable)).status = 500 := fun _ => rfl
  refine ⟨hforgot, hlogin, hsignup, ?_, ?_, ?_⟩
  · intro hall
    have hstatus := (hall (fun _ => none) unavailable).2 rfl
    rw [hforgot] at hstatus
    exact nomatch hstatus
  · intro hall
    have hstatus :=
      (hall (fun _ => none) (fun _ => true) .null unavailable).2 rfl
    rw [hlogin] at hstatus
    exact nomatch hstatus
  · intro hall
    have hstatus := (hall (fun _ => none) unavailable).2 rfl
    rw [hsignup] at hstatus
    exact nomatch hstatus

end Videum.Frontend
