import Videum.Frontend.Calls

/-!
# Refreshes of different sessions

One server process refreshes the sessions of all users, and `refreshPromise`
is a variable of its module.  A `withRefresh` call that makes its own promise
does what it does alone: its response, the tokens it presents and the session
it leaves depend on its fetcher, on its session and on the backend's answer to
the token of that session.  A call that finds the promise of another session
presents nothing and takes over what became of the other refresh.

## Main results

* `eval_withRefresh` — what a call does alone.
* `outcome_alone_iff` — a call does what it does alone exactly when it does
  not find a promise of somebody else.
* `outcome_crossed` — a run in which the expired session of one user expires
  the session of another.
-/

namespace Videum.Frontend

open Videum.Async
open Videum.Auth (RawToken Moment)

/-! ## A call by itself -/

/-- What comes of a call: its response, the tokens presented to
`/auth/refresh` for it, and the session cookie it leaves. -/
structure Outcome where
  response : Except FetchError Response
  presented : List (Option RawToken)
  cookie : CookieStore
  deriving DecidableEq

/-- The token the session cookie holds. -/
def CookieStore.refreshToken (cookie : CookieStore) : Option RawToken :=
  (cookie.session.getD {}).refreshToken

/-- What a refresh makes of a session, given the backend's answer. -/
def refreshed (answer : Except FetchError RefreshResponse)
    (cookie : CookieStore) : Except FetchError Bool × CookieStore :=
  match answer with
  | .error e => (.error e, cookie)
  | .ok res =>
      if res.ok = false then (.ok false, ⟨none, true⟩)
      else
        match res.body with
        | none => (.error .json, cookie)
        | some data =>
            match truthy data.access_token, truthy data.refresh_token with
            | some accessToken, some refreshToken =>
                (.ok true, ⟨some { cookie.session.getD {} with
                  accessToken := some accessToken
                  refreshToken := some refreshToken
                  isLoggedIn := true }, true⟩)
            | _, _ => (.ok false, ⟨none, true⟩)

/-- What comes of a call whose session nobody else touches: it depends on
what its own fetcher answers, on the backend's answer to the token of its own
session, and on that session. -/
def outcomeAlone (fetched : Nat → Except FetchError Response)
    (answer : Except FetchError RefreshResponse) (cookie : CookieStore) :
    Outcome :=
  match fetched 0 with
  | .error e => ⟨.error e, [], cookie⟩
  | .ok response =>
      if response.status ≠ 401 then ⟨.ok response, [], cookie⟩
      else
        match refreshed answer cookie with
        | (.error e, cookie') => ⟨.error e, [cookie.refreshToken], cookie'⟩
        | (.ok true, cookie') => ⟨fetched 1, [cookie.refreshToken], cookie'⟩
        | (.ok false, cookie') =>
            ⟨.ok sessionExpired, [cookie.refreshToken], cookie'⟩

/-- What a call sees of the process: its cookie store, and what has been
presented for it. -/
structure Local where
  cookie : CookieStore
  presented : List (Option RawToken)

/-- One awaited call, as the `withRefresh` call sees it that finds no promise
and whose session is its own. -/
def Local.step (fetcher : Nat → Nat → Except FetchError Response)
    (answer : Option RawToken → Except FetchError RefreshResponse) :
    (op : FrontOp) → Local → Except FetchError op.Res × Local
  | .fetcher call attempt, v => (fetcher call attempt, v)
  | .refreshPromise _, v => (.ok none, v)
  | .promise _, v => (.error .network, v)
  | .settle _ _, v => (.ok (), v)
  | .getSession _, v => (.ok (v.cookie.session.getD {}), v)
  | .save _ session, v => (.ok (), { v with cookie := ⟨some session, true⟩ })
  | .destroy _, v => (.ok (), { v with cookie := ⟨none, true⟩ })
  | .postRefresh refreshToken, v =>
      (answer refreshToken,
        { v with presented := refreshToken :: v.presented })
  | .send _, v => (.ok (), v)
  | .deliver _, v => (.ok (), v)

section Alone

variable {fetcher : Nat → Nat → Except FetchError Response}
  {answer : Option RawToken → Except FetchError RefreshResponse}
  {m : Moment} {υ : Type}

/-- Run a program by itself, against the small state. -/
def runAlone {α : Type}
    (step : (op : FrontOp) → υ → Except FetchError op.Res × υ) (m : Moment)
    (p : FrontProg α) (v : υ) : Except FetchError α × υ :=
  p.eval (fun _ => step) m v

theorem runAlone_ok {α δ : Type}
    {step : (op : FrontOp) → υ → Except FetchError op.Res × υ}
    {p : FrontProg α} {v v' : υ} {a : α}
    (h : runAlone step m p v = (.ok a, v')) (f : α → FrontProg δ) :
    runAlone step m (p >>= f) v = runAlone step m (f a) v' := by
  unfold runAlone at h ⊢
  rw [Prog.eval_bind, h]

theorem runAlone_error {α δ : Type}
    {step : (op : FrontOp) → υ → Except FetchError op.Res × υ}
    {p : FrontProg α} {v v' : υ} {e : FetchError}
    (h : runAlone step m p v = (.error e, v')) (f : α → FrontProg δ) :
    runAlone step m (p >>= f) v = (.error e, v') := by
  unfold runAlone at h ⊢
  rw [Prog.eval_bind, h]

/-- How a promise ends does not depend on who awaits it. -/
theorem eval_outcomeOf {α : Type}
    (step : (op : FrontOp) → υ → Except FetchError op.Res × υ)
    (p : FrontProg α) (v : υ) :
    runAlone step m (outcomeOf p) v =
      (.ok (runAlone step m p v).1, (runAlone step m p v).2) := by
  induction p generalizing v with
  | pure a => rfl
  | throw e => rfl
  | ask k ih => exact ih m v
  | await op k ih => exact ih _ _

/-- A refresh by itself. -/
theorem eval_tryRefresh (request : Nat) (cookie : CookieStore)
    (presented : List (Option RawToken)) :
    runAlone (Local.step fetcher answer) m (tryRefresh request)
        ⟨cookie, presented⟩ =
      ((refreshed (answer cookie.refreshToken) cookie).1,
        ⟨(refreshed (answer cookie.refreshToken) cookie).2,
          cookie.refreshToken :: presented⟩) := by
  show runAlone (Local.step fetcher answer) m
    (Prog.ofExcept (answer cookie.refreshToken) >>= _)
    ⟨cookie, cookie.refreshToken :: presented⟩ = _
  cases hanswer : answer cookie.refreshToken with
  | error e => rfl
  | ok res =>
      rw [Prog.ofExcept_ok_bind]
      unfold refreshed
      dsimp only
      split
      · rfl
      · cases res.body with
        | none => rfl
        | some data =>
            dsimp only
            cases truthy data.access_token with
            | none => rfl
            | some accessToken =>
                cases truthy data.refresh_token with
                | none => rfl
                | some refreshToken => rfl

theorem eval_refreshOnce (call : Call) (cookie : CookieStore)
    (presented : List (Option RawToken)) :
    runAlone (Local.step fetcher answer) m (refreshOnce call)
        ⟨cookie, presented⟩ =
      ((refreshed (answer cookie.refreshToken) cookie).1,
        ⟨(refreshed (answer cookie.refreshToken) cookie).2,
          cookie.refreshToken :: presented⟩) := by
  have houtcome := eval_outcomeOf (m := m) (Local.step fetcher answer)
    (tryRefresh call.request) ⟨cookie, presented⟩
  rw [eval_tryRefresh] at houtcome
  show runAlone (Local.step fetcher answer) m
    (outcomeOf (tryRefresh call.request) >>= _) ⟨cookie, presented⟩ = _
  apply (runAlone_ok houtcome _).trans
  cases (refreshed (answer cookie.refreshToken) cookie).1 <;> rfl

/-- **A call by itself** ends as `outcomeAlone` says. -/
theorem eval_withRefresh (call : Call) (cookie : CookieStore) :
    runAlone (Local.step fetcher answer) m (withRefresh call) ⟨cookie, []⟩ =
      let outcome := outcomeAlone (fetcher call.id)
        (answer cookie.refreshToken) cookie
      (outcome.response, ⟨outcome.cookie, outcome.presented⟩) := by
  show runAlone (Local.step fetcher answer) m
    (Prog.ofExcept (fetcher call.id 0) >>= _) ⟨cookie, []⟩ = _
  unfold outcomeAlone
  cases hfetched : fetcher call.id 0 with
  | error e => rfl
  | ok response =>
      rw [Prog.ofExcept_ok_bind]
      dsimp only
      split
      · rfl
      · have honce : runAlone (Local.step fetcher answer) m
            (refreshOnce call) ⟨cookie, []⟩ = _ :=
          eval_refreshOnce call cookie []
        rcases hrefreshed : refreshed (answer cookie.refreshToken) cookie with
          ⟨outcome, cookie'⟩
        rw [hrefreshed] at honce
        cases outcome with
        | error e => exact runAlone_error honce _
        | ok done =>
            apply (runAlone_ok honce _).trans
            cases done with
            | false => rfl
            | true =>
                show runAlone (Local.step fetcher answer) m
                  (Prog.ofExcept (fetcher call.id 1)) _ = _
                cases fetcher call.id 1 <;> rfl

end Alone

/-! ## A call among others -/

/-- The tokens presented by thread `t`. -/
def presentedBy {β : Type} (t : Nat) (log : FrontLog β) :
    List (Option RawToken) :=
  (own t log).filterMap (·.op.presents)

/-- A backend that answers by the token presented. -/
def oracle (fetcher : Nat → Nat → Except FetchError Response)
    (answer : Option RawToken → Except FetchError RefreshResponse) :
    World Unit where
  fetcher := fetcher
  refresh _ refreshToken s := (answer refreshToken, s)
  fresh _ _ _ := true

/-- What thread `t`, serving `call`, sees of the process. -/
def Sees (t : Nat) (call : Call) (s : Process Unit) (log : FrontLog Unit)
    (v : Local) : Prop :=
  s.cookies call.request = v.cookie ∧ presentedBy t log = v.presented

/-- A call comes to `refreshPromise` when no other refresh is in flight. -/
def OwnPromise {β : Type} (t : Nat) (log : FrontLog β) : Prop :=
  ∀ x ∈ log, x.tid = t → x.op.enters = true → x.before.refreshPromise = none

instance {β : Type} (t : Nat) (log : FrontLog β) :
    Decidable (OwnPromise t log) :=
  inferInstanceAs (Decidable (∀ x ∈ log, x.tid = t → x.op.enters = true →
    x.before.refreshPromise = none))

/-- A call for one request leaves the cookies of the others alone. -/
theorem exec_cookies_ne {β : Type} {W : World β} {m : Moment} {op : FrontOp}
    {s : Process β} {call : Call} (hop : op.madeFor call) {request : Nat}
    (hne : call.request ≠ request) :
    (Process.exec W m op s).2.cookies request = s.cookies request := by
  cases op with
  | refreshPromise id =>
      show (s.enter id).2.cookies request = _
      unfold Process.enter
      cases s.refreshPromise <;> rfl
  | save r session =>
      exact Process.setCookies_ne s _ (by rw [hop.symm] at hne; exact hne.symm)
  | destroy r =>
      exact Process.setCookies_ne s _ (by rw [hop.symm] at hne; exact hne.symm)
  | send r => exact hop.elim
  | deliver r => exact hop.elim
  | _ => rfl

section Runs

variable {fetcher : Nat → Nat → Except FetchError Response}
  {answer : Option RawToken → Except FetchError RefreshResponse}

/-- The call acts on what it sees as it does by itself. -/
theorem exec_own {t : Nat} {call : Call} {m : Moment} {op : FrontOp}
    {s : Process Unit} {log : FrontLog Unit} {v : Local}
    (hop : op.madeFor call)
    (hpromise : op.enters = true → s.refreshPromise = none)
    (hjoin : ∀ other, op ≠ .promise other) (hsees : Sees t call s log v)
    {x : FrontEntry Unit} (hx : x.op = op) (htid : x.tid = t) :
    (Process.exec (oracle fetcher answer) m op s).1 =
        (Local.step fetcher answer op v).1 ∧
      Sees t call (Process.exec (oracle fetcher answer) m op s).2 (x :: log)
        (Local.step fetcher answer op v).2 := by
  obtain ⟨hcookie, hpresented⟩ := hsees
  have hown : own t (x :: log) = x :: own t log := own_cons htid
  have hkeeps : op.presents = none → presentedBy t (x :: log) = v.presented := by
    intro hnone
    rw [presentedBy, hown, List.filterMap_cons_none (by rw [hx, hnone])]
    exact hpresented
  cases op with
  | fetcher id attempt => exact ⟨rfl, hcookie, hkeeps rfl⟩
  | refreshPromise id =>
      have hnone := hpromise rfl
      refine ⟨?_, ?_, hkeeps rfl⟩
      · show Except.ok (s.enter id).1 = _
        rw [Process.enter_fst, hnone]
        rfl
      · show (s.enter id).2.cookies call.request = _
        unfold Process.enter
        rw [hnone]
        exact hcookie
  | promise other => exact absurd rfl (hjoin other)
  | settle id outcome => exact ⟨rfl, hcookie, hkeeps rfl⟩
  | getSession request =>
      cases hop
      refine ⟨?_, hcookie, hkeeps rfl⟩
      show Except.ok ((s.cookies call.request).session.getD {}) = _
      rw [hcookie]
      rfl
  | save request session =>
      cases hop
      exact ⟨rfl, Process.setCookies_self s _ _, hkeeps rfl⟩
  | destroy request =>
      cases hop
      exact ⟨rfl, Process.setCookies_self s _ _, hkeeps rfl⟩
  | postRefresh refreshToken =>
      refine ⟨rfl, hcookie, ?_⟩
      rw [presentedBy, hown, List.filterMap_cons_some (by rw [hx]; rfl)]
      exact congrArg (refreshToken :: ·) hpresented
  | send request => exact hop.elim
  | deliver request => exact hop.elim

variable {cookies : Nat → CookieStore} {c : FrontRun Unit}

/-- A call that makes its own promise, and whose request no other call
serves, is isolated. -/
theorem isolated_of_ownPromise
    (h : Reachable (refreshSystem (oracle fetcher answer)) anyCalls
      { cookies := cookies, backend := () } c)
    {t : Nat} {call : Call} {p : FrontProg Response}
    (hth : c.threads[t]? = some ⟨call, p⟩)
    (hsession : ∀ u th, c.threads[u]? = some th →
      th.request.request = call.request → u = t)
    (hown : OwnPromise t c.log) :
    Isolated t (Sees t call) (Local.step fetcher answer) c.log := by
  have hP : ∀ (op : FrontOp) (e : FetchError),
      (anyCalls (β := Unit)).fault op e = false := fun _ _ => rfl
  have hlaw := (Reachable.follows
    (fun t call amb => withRefresh_follows _ _ t call amb) h).1
  constructor
  · intro x older hs htid v hsees
    have hx : x ∈ c.log := hs.subset (.head _)
    obtain ⟨_, hafter⟩ := h.entry_exec hP hx
    obtain ⟨th, hth', hrequest⟩ := h.logOwned x hx
    have hne : x.request.request ≠ call.request := by
      intro heq
      rw [← hrequest] at heq
      exact htid (hsession x.tid th hth' heq)
    constructor
    · rw [hafter]
      exact (exec_cookies_ne (h.issued withRefresh_issues hx) hne).trans
        hsees.1
    · rw [presentedBy, own_cons_ne htid]
      exact hsees.2
  · intro x older hs htid v hsees
    have hx : x ∈ c.log := hs.subset (.head _)
    obtain ⟨hres, hafter⟩ := h.entry_exec hP hx
    have hcall : x.request = call := by
      rw [← htid] at hth
      exact h.logOwned.request_of_thread hx hth
    have hmade : x.op.madeFor call := by
      rw [← hcall]
      exact h.issued withRefresh_issues hx
    have hjoin : ∀ other, x.op ≠ .promise other := by
      intro other hop
      have hpermitted := hlaw x older hs
      rw [hop] at hpermitted
      obtain ⟨y, hy, hfound⟩ := hpermitted
      have hy' : y ∈ c.log :=
        hs.subset (.tail _ (mem_own.1 hy).1)
      obtain ⟨⟨id, hid⟩, hbefore⟩ := found_eq hP h hy' hfound
      have hnone := hown y hy' ((mem_own.1 hy).2.trans htid) (by rw [hid]; rfl)
      rw [hnone] at hbefore
      exact nomatch hbefore
    rw [hres, hafter]
    exact exec_own hmade (hown x hx htid) hjoin hsees rfl htid

/-- A call that comes after a 401 presents the token of its session. -/
theorem presented_of_unauthorized {fetched : Nat → Except FetchError Response}
    {response : Response} (hfetched : fetched 0 = .ok response)
    (h401 : response.status = 401)
    (answered : Except FetchError RefreshResponse) (cookie : CookieStore) :
    (outcomeAlone fetched answered cookie).presented =
      [cookie.refreshToken] := by
  unfold outcomeAlone
  rw [hfetched]
  dsimp only
  rw [if_neg (not_not.2 h401)]
  rcases refreshed answered cookie with ⟨outcome, cookie'⟩
  cases outcome with
  | error e => rfl
  | ok done => cases done <;> rfl

/-- **Refreshes cross sessions exactly when they overlap.**  A call does what
it does alone if and only if it does not come, after a 401, while another
refresh of the process is in flight. -/
theorem outcome_alone_iff (fetcher : Nat → Nat → Except FetchError Response)
    (answer : Option RawToken → Except FetchError RefreshResponse)
    (cookies : Nat → CookieStore) {c : FrontRun Unit}
    (h : Reachable (refreshSystem (oracle fetcher answer)) anyCalls
      { cookies := cookies, backend := () } c)
    {t : Nat} {call : Call} {r : Except FetchError Response}
    (hth : c.threads[t]? = some ⟨call, Prog.ofExcept r⟩)
    (hsession : ∀ u th, c.threads[u]? = some th →
      th.request.request = call.request → u = t) :
    (⟨r, presentedBy t c.log, c.state.cookies call.request⟩ : Outcome) =
        outcomeAlone (fetcher call.id)
          (answer (cookies call.request).refreshToken)
          (cookies call.request) ↔
      OwnPromise t c.log := by
  have hP : ∀ (op : FrontOp) (e : FetchError),
      (anyCalls (β := Unit)).fault op e = false := fun _ _ => rfl
  constructor
  · intro heq x hx htid henters
    by_contra hflight
    obtain ⟨id, hop⟩ := FrontOp.of_enters henters
    have hcall : x.request = call := by
      rw [← htid] at hth
      exact h.logOwned.request_of_thread hx hth
    have hlaw := (Reachable.follows
      (fun t call amb => withRefresh_follows _ _ t call amb) h).1
    have hpermitted := hlaw.at_mem hx
    rw [hop, hcall] at hpermitted
    obtain ⟨_, _, ⟨response, hfetched, h401⟩, _⟩ := hpermitted
    have hone : (outcomeAlone (fetcher call.id)
        (answer (cookies call.request).refreshToken)
        (cookies call.request)).presented = _ :=
      presented_of_unauthorized hfetched h401 _ _
    have hnothing : presentedBy t c.log = [] := by
      rw [presentedBy, List.filterMap_eq_nil_iff]
      intro y hy
      obtain ⟨hy, hytid⟩ := mem_own.1 hy
      cases hpost : y.op with
      | postRefresh refreshToken =>
          obtain ⟨z, hz, hztid, hfound⟩ := found_of_postRefresh h hy hpost
          have hx' := found_of_op hP h hx hop
          have hzx : z = x := by
            apply found_unique h hz hx
            · rw [hztid, hytid, htid]
            · rw [hfound]
              exact nofun
            · rw [hx']
              exact nofun
          rw [hzx, hx'] at hfound
          exact absurd (Option.some.inj hfound) hflight
      | _ => rfl
    rw [← heq, hnothing] at hone
    exact nomatch hone
  · intro hown
    have hiso := isolated_of_ownPromise h hth hsession hown
    have hsees : Sees t call { cookies := cookies, backend := () } []
        ⟨cookies call.request, []⟩ := ⟨rfl, rfl⟩
    obtain ⟨v, ⟨hcookie, hpresented⟩, heval⟩ :=
      h.ends_alone withRefresh_timeless hsees hiso hth {}
    have halone : (r, v) = _ := heval.symm.trans
      (eval_withRefresh call (cookies call.request))
    obtain ⟨hr, hv⟩ := Prod.mk.inj halone
    rw [hcookie, hpresented, hr, hv]

end Runs

/-! ## Two users

The access tokens of both users have expired.  The refresh token of the first
is no longer valid, that of the second is. -/

def firstUser : Call := ⟨0, 0⟩

def secondUser : Call := ⟨1, 1⟩

def expiredAccess (_ attempt : Nat) : Except FetchError Response :=
  if attempt = 0 then .ok ⟨401, none, ""⟩ else .ok ⟨200, none, "page"⟩

def secondIsValid (token : Option RawToken) :
    Except FetchError RefreshResponse :=
  if token = some (.hex 1) then
    .ok ⟨200, some ⟨some (.hex 2), some (.hex 3)⟩⟩
  else .ok ⟨401, none⟩

def twoSessions (request : Nat) : CookieStore :=
  ⟨some { refreshToken := some (.hex request), isLoggedIn := true }, false⟩

def anyMoment : Moment := {}

/-- The second call gets its 401 while the first one refreshes. -/
def overlapping : List (Tick Moment FetchError Call) :=
  Tick.serve firstUser 0 2 anyMoment ++ Tick.serve secondUser 1 2 anyMoment ++
    Tick.answers 0 5 anyMoment ++ Tick.answers 1 1 anyMoment

def overlappingRun : FrontRun Unit :=
  ((refreshSystem (oracle expiredAccess secondIsValid)).schedule anyCalls
    (Config.start { cookies := twoSessions, backend := () })
    overlapping).get (by decide)

theorem reachable_overlappingRun :
    Reachable (refreshSystem (oracle expiredAccess secondIsValid)) anyCalls
      { cookies := twoSessions, backend := () } overlappingRun :=
  Reachable.of_schedule overlapping (by decide) (by decide)

theorem sessions_of_overlappingRun {t : Nat} {call : Call}
    {p : FrontProg Response}
    (hth : overlappingRun.threads[t]? = some ⟨call, p⟩) (u : Nat)
    (th : Thread FrontIface Moment FetchError Call Response)
    (hu : overlappingRun.threads[u]? = some th)
    (hrequest : th.request.request = call.request) : u = t := by
  have hrequests : ∀ (i : Nat)
      (th : Thread FrontIface Moment FetchError Call Response),
      overlappingRun.threads[i]? = some th → th.request.request = i := by
    intro i th hi
    match i with
    | 0 => cases hi; rfl
    | 1 => cases hi; rfl
    | i + 2 => exact nomatch hi
  rw [← hrequests u th hu, hrequest, hrequests t ⟨call, p⟩ hth]

/-- The first call makes its own promise, and does what it does alone. -/
theorem outcome_alone_first :
    (⟨.ok sessionExpired, presentedBy 0 overlappingRun.log,
        overlappingRun.state.cookies 0⟩ : Outcome) =
      outcomeAlone (expiredAccess 0) (.ok ⟨401, none⟩) (twoSessions 0) :=
  have hended : overlappingRun.threads[0]? =
      some ⟨firstUser, Prog.ofExcept (.ok sessionExpired)⟩ := rfl
  (outcome_alone_iff expiredAccess secondIsValid twoSessions
    reachable_overlappingRun hended
    (sessions_of_overlappingRun rfl)).2 (by decide)

/-- The second user has a valid refresh token, and is signed out by the
refresh of the first. -/
theorem outcome_crossed :
    ¬ ∀ (fetcher : Nat → Nat → Except FetchError Response)
      (answer : Option RawToken → Except FetchError RefreshResponse)
      (cookies : Nat → CookieStore) (c : FrontRun Unit),
      Reachable (refreshSystem (oracle fetcher answer)) anyCalls
        { cookies := cookies, backend := () } c →
      ∀ (t : Nat) (call : Call) (r : Except FetchError Response),
        c.threads[t]? = some ⟨call, Prog.ofExcept r⟩ →
        (∀ u th, c.threads[u]? = some th →
          th.request.request = call.request → u = t) →
        (⟨r, presentedBy t c.log, c.state.cookies call.request⟩ : Outcome) =
          outcomeAlone (fetcher call.id)
            (answer (cookies call.request).refreshToken)
            (cookies call.request) := by
  intro h
  have hsame := h expiredAccess secondIsValid twoSessions overlappingRun
    reachable_overlappingRun 1 secondUser (.ok sessionExpired) rfl
    (sessions_of_overlappingRun rfl)
  have hexpired : Except.ok sessionExpired =
      (outcomeAlone (expiredAccess 1) (secondIsValid (some (.hex 1)))
        (twoSessions 1)).response := congrArg Outcome.response hsame
  exact absurd hexpired (by decide)

end Videum.Frontend
