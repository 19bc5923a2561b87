import Videum.Async.Isolation
import Videum.Async.Traces
import Videum.Frontend.Refresh

/-!
# What a `withRefresh` call does

Each call works on its own request only, and never looks at the clock.  It
comes to `refreshPromise` once, after a 401; it presents a token when it has
found no promise there, and awaits the promise it has found otherwise.

## Main results

* `afterAnswer_cases` — a refresh goes on in one of three ways after the answer
  of the backend.
* `withRefresh_issues`, `withRefresh_timeless` — the calls of a call.
* `withRefresh_follows` — when it makes them.
* `found_unique` — it comes to `refreshPromise` once.
* `found_of_postRefresh` — and presents a token only if nothing was there.
-/

namespace Videum.Frontend

open Videum.Async
open Videum.Auth (RawToken Moment)

/-! ## The two halves of a refresh -/

/-- What a response says of the refresh: refused, not JSON, or a body with or
without both tokens. -/
def RefreshResponse.outcome (res : RefreshResponse) : Except FetchError Bool :=
  if res.ok then
    match res.body with
    | none => .error .json
    | some data => .ok ((truthy data.access_token).isSome &&
        (truthy data.refresh_token).isSome)
  else .ok false

/-- What a refresh does with the answer of the backend. -/
def afterAnswer (request : Nat) (session : SessionData)
    (res : RefreshResponse) : FrontProg Bool :=
  if res.ok = false then do
    destroySession request
    return false
  else
    match res.body with
    | none => Prog.throw .json
    | some data =>
        match truthy data.access_token, truthy data.refresh_token with
        | some accessToken, some refreshToken => do
            setSession request
              { session with
                accessToken := some accessToken
                refreshToken := some refreshToken }
            return true
        | _, _ => do
            destroySession request
            return false

theorem tryRefresh_eq (request : Nat) :
    tryRefresh request = getSession request >>= fun session =>
      await (.postRefresh session.refreshToken) >>=
        fun res : RefreshResponse => afterAnswer request session res := rfl

/-- The refresh goes on in one of three ways, and each ends as the response
says. -/
theorem afterAnswer_cases {C : FrontProg Bool → Except FetchError Bool → Prop}
    {request : Nat} {session : SessionData} {res : RefreshResponse}
    (hdestroy : C (destroySession request >>= fun _ => return false) (.ok false))
    (hthrow : C (Prog.throw .json) (.error .json))
    (hsave : ∀ data accessToken refreshToken, res.body = some data →
      truthy data.access_token = some accessToken →
      truthy data.refresh_token = some refreshToken →
        C (setSession request
            { session with
              accessToken := some accessToken
              refreshToken := some refreshToken } >>= fun _ => return true)
          (.ok true)) :
    C (afterAnswer request session res) res.outcome := by
  unfold afterAnswer RefreshResponse.outcome
  cases res.ok with
  | false => exact hdestroy
  | true =>
      simp only [reduceIte, Bool.true_eq_false]
      cases hbody : res.body with
      | none => exact hthrow
      | some data =>
          dsimp only
          cases haccess : truthy data.access_token with
          | none => exact hdestroy
          | some accessToken =>
              cases hrefresh : truthy data.refresh_token with
              | none => exact hdestroy
              | some refreshToken =>
                  exact hsave data accessToken refreshToken hbody haccess
                    hrefresh

/-! ## The calls of a call -/

/-- The calls `withRefresh` makes for `call`. -/
def FrontOp.madeFor (call : Call) : FrontOp → Prop
  | .fetcher id _ | .refreshPromise id | .settle id _ => id = call.id
  | .getSession request | .save request _ | .destroy request =>
      request = call.request
  | .promise _ | .postRefresh _ => True
  | .send _ | .deliver _ => False

theorem tryRefresh_issues {Q : FrontOp → Prop} {request : Nat}
    (hget : Q (.getSession request))
    (hpost : ∀ refreshToken, Q (.postRefresh refreshToken))
    (hsave : ∀ session, Q (.save request session))
    (hdestroy : Q (.destroy request)) :
    (tryRefresh request).Issues Q := by
  have hdestroySession : (destroySession request).Issues Q :=
    .bind (.call hget) fun _ => .call hdestroy
  rw [tryRefresh_eq]
  apply Prog.Issues.bind (.call hget)
  intro session
  apply Prog.Issues.bind (.call (hpost _))
  intro res
  apply afterAnswer_cases (C := fun p _ => p.Issues Q)
  · exact hdestroySession.bind fun _ => trivial
  · trivial
  · intro data accessToken refreshToken _ _ _
    refine Prog.Issues.bind ?_ fun _ => trivial
    exact .bind (.call hget) fun _ => .call (hsave _)

theorem issues_outcomeOf {α : Type} {Q : FrontOp → Prop} {p : FrontProg α}
    (hp : p.Issues Q) : (outcomeOf p).Issues Q :=
  Prog.Issues.tryCatch (hp.bind fun _ => Prog.atCalls_pure _)
    fun _ => Prog.atCalls_pure _

theorem issues_ofExcept {α : Type} {Q : FrontOp → Prop}
    (r : Except FetchError α) : (Prog.ofExcept r : FrontProg α).Issues Q := by
  cases r <;> trivial

theorem withRefresh_issues (call : Call) :
    (withRefresh call).Issues (FrontOp.madeFor call) := by
  apply Prog.Issues.bind (.call (by exact rfl))
  intro (response : Response)
  split
  · trivial
  · refine Prog.Issues.bind ?_ fun refreshed => ?_
    · apply Prog.Issues.bind (.call (by exact rfl))
      intro promise?
      cases promise? with
      | some other => exact .call (by trivial)
      | none =>
          have hrefresh : (tryRefresh call.request).Issues
              (FrontOp.madeFor call) :=
            tryRefresh_issues rfl (fun _ => trivial) (fun _ => rfl) rfl
          refine (issues_outcomeOf hrefresh).bind fun outcome => ?_
          exact .bind (.call rfl) fun _ => issues_ofExcept outcome
    · cases refreshed with
      | true => exact .call rfl
      | false => trivial

theorem timeless_outcomeOf {α : Type} {p : FrontProg α} (hp : p.Timeless) :
    (outcomeOf p).Timeless := by
  apply Prog.Timeless.tryCatch (hp.bind ?_) ?_
  · exact fun _ => trivial
  · exact fun _ => trivial

theorem tryRefresh_timeless (request : Nat) : (tryRefresh request).Timeless := by
  have hdestroySession : (destroySession request).Timeless :=
    (Prog.timeless_call _).bind fun _ => Prog.timeless_call _
  rw [tryRefresh_eq]
  apply (Prog.timeless_call _).bind
  intro session
  apply (Prog.timeless_call _).bind
  intro res
  apply afterAnswer_cases (C := fun p _ => p.Timeless)
  · exact hdestroySession.bind fun _ => trivial
  · trivial
  · intro data accessToken refreshToken _ _ _
    refine Prog.Timeless.bind ?_ fun _ => trivial
    exact (Prog.timeless_call _).bind fun _ => Prog.timeless_call _

theorem withRefresh_timeless (call : Call) : (withRefresh call).Timeless := by
  apply (Prog.timeless_call _).bind
  intro (response : Response)
  split
  · trivial
  · refine Prog.Timeless.bind ?_ fun refreshed => ?_
    · apply (Prog.timeless_call _).bind
      intro promise?
      cases promise? with
      | some other => exact Prog.timeless_call _
      | none =>
          apply (timeless_outcomeOf (tryRefresh_timeless _)).bind
          intro outcome
          exact (Prog.timeless_call _).bind fun _ =>
            Prog.timeless_ofExcept outcome
    · cases refreshed with
      | true => exact Prog.timeless_call _
      | false => trivial

/-! ## Who makes a promise -/

/-- The token a call presents. -/
def FrontOp.presents : FrontOp → Option (Option RawToken)
  | .postRefresh refreshToken => some refreshToken
  | _ => none

/-- What a call has found in `refreshPromise`. -/
def FrontOp.found : (op : FrontOp) → Except FetchError op.Res →
    Option (Option Nat)
  | .refreshPromise _, .ok promise? => some promise?
  | _, _ => none

/-- The calls that belong to a refresh of its own. -/
def FrontOp.refreshes : FrontOp → Prop
  | .refreshPromise _ | .promise _ => False
  | _ => True

section Laws

variable {β : Type}

/-- What a call may do after the answers it has had: it comes to
`refreshPromise` once, after a 401, and presents a token only when it has
found no promise there. -/
def Permitted (W : World β) (call : Call) (mine : FrontLog β) :
    FrontOp → Prop
  | .refreshPromise _ =>
      (∃ response, W.fetcher call.id 0 = .ok response ∧
        response.status = 401) ∧ ∀ x ∈ mine, x.op.found x.res = none
  | .promise other => ∃ x ∈ mine, x.op.found x.res = some (some other)
  | .postRefresh _ => ∃ x ∈ mine, x.op.found x.res = some none
  | _ => True

theorem refreshOnce_follows {W : World β} {P : FrontPolicy β} {t : Nat}
    {call : Call} {response : Response}
    (hfetched : W.fetcher call.id 0 = .ok response)
    (h401 : response.status = 401) {amb : Moment} {mine : FrontLog β}
    (hmine : ∀ x ∈ mine, x.op.found x.res = none) :
    follows (refreshSystem W) P (Permitted W call) t call (fun _ _ => True)
      (refreshOnce call) amb mine := by
  apply follows_call ⟨⟨response, hfetched, h401⟩, hmine⟩
    (fun _ _ _ _ _ _ => trivial)
  intro amb s promise? _ hexec
  have hfound : (refreshSystem W).entry t call amb
      (.refreshPromise call.id) none s ∈
        (refreshSystem W).entry t call amb (.refreshPromise call.id) none s ::
          mine ∧
      FrontOp.found (.refreshPromise call.id)
        ((refreshSystem W).exec amb (.refreshPromise call.id) s).1 =
          some promise? := by
    refine ⟨.head _, ?_⟩
    rw [hexec]
    rfl
  cases promise? with
  | some other =>
      have hjoins : (await (.promise other)).Issues
          (· = FrontOp.promise other) := .call rfl
      refine follows_of_issues hjoins ?_
      rintro newer op rfl
      exact ⟨_, List.mem_append_right newer hfound.1, hfound.2⟩
  | none =>
      have hrefresh : (tryRefresh call.request).Issues FrontOp.refreshes :=
        tryRefresh_issues trivial (fun _ => trivial) (fun _ => trivial)
          trivial
      apply follows_of_issues (Q := FrontOp.refreshes)
      · refine (issues_outcomeOf hrefresh).bind fun outcome => ?_
        exact .bind (.call trivial) fun _ => issues_ofExcept outcome
      · intro newer op hop
        cases op with
        | refreshPromise id => exact hop.elim
        | promise id => exact hop.elim
        | postRefresh token =>
            exact ⟨_, List.mem_append_right newer hfound.1, hfound.2⟩
        | _ => trivial

theorem withRefresh_follows (W : World β) (P : FrontPolicy β) (t : Nat)
    (call : Call) (amb : Moment) :
    follows (refreshSystem W) P (Permitted W call) t call (fun _ _ => True)
      (withRefresh call) amb [] := by
  apply follows_call (by trivial) (fun _ _ _ _ _ _ => trivial)
  intro amb s (response : Response) _ hfetched
  split
  · trivial
  · next hstatus =>
      apply follows_bind
      apply follows_mono ?_ (refreshOnce_follows hfetched
        (not_not.1 hstatus) ?_)
      · intro r mine _
        cases r with
        | error e => trivial
        | ok refreshed =>
            intro amb'
            cases refreshed with
            | false => trivial
            | true =>
                have hretry : (await (.fetcher call.id 1)).Issues
                    (· = FrontOp.fetcher call.id 1) := .call rfl
                refine follows_of_issues hretry ?_
                rintro newer op rfl
                trivial
      · intro x hx
        rw [List.mem_singleton.1 hx]
        rfl

/-- A call that came to `refreshPromise` found what was there. -/
theorem found_eq {W : World β} {P : FrontPolicy β}
    (hP : ∀ op e, P.fault op e = false) {s₀ : Process β} {c : FrontRun β}
    (h : Reachable (refreshSystem W) P s₀ c) {x : FrontEntry β}
    (hx : x ∈ c.log) {promise? : Option Nat}
    (hfound : x.op.found x.res = some promise?) :
    (∃ id, x.op = .refreshPromise id) ∧
      x.before.refreshPromise = promise? := by
  obtain ⟨hres, _⟩ := h.entry_exec hP hx
  obtain ⟨t, call, m, op, s, res, s'⟩ := x
  dsimp only at hfound hres ⊢
  cases op with
  | refreshPromise id =>
      rw [hres] at hfound
      rw [← Process.enter_fst s id]
      exact ⟨⟨id, rfl⟩, Option.some.inj hfound⟩
  | _ => exact nomatch hfound

theorem found_of_op {W : World β} {P : FrontPolicy β}
    (hP : ∀ op e, P.fault op e = false) {s₀ : Process β} {c : FrontRun β}
    (h : Reachable (refreshSystem W) P s₀ c) {x : FrontEntry β}
    (hx : x ∈ c.log) {id : Nat} (hop : x.op = .refreshPromise id) :
    x.op.found x.res = some x.before.refreshPromise := by
  obtain ⟨hres, _⟩ := h.entry_exec hP hx
  obtain ⟨t, call, m, op, s, res, s'⟩ := x
  subst hop
  rw [hres, ← Process.enter_fst s id]
  rfl

/-- A call comes to `refreshPromise` once. -/
theorem found_unique {W : World β} {P : FrontPolicy β} {s₀ : Process β}
    {c : FrontRun β} (h : Reachable (refreshSystem W) P s₀ c)
    {x y : FrontEntry β} (hx : x ∈ c.log) (hy : y ∈ c.log)
    (htid : x.tid = y.tid) (hfx : x.op.found x.res ≠ none)
    (hfy : y.op.found y.res ≠ none) : x = y := by
  have hlaw := (Reachable.follows
    (fun t call amb => withRefresh_follows W P t call amb) h).1
  have hfirst : ∀ (a b : FrontEntry β) (older : FrontLog β),
      (a :: older) <:+ c.log → b ∈ older → b.tid = a.tid →
      a.op.found a.res ≠ none → b.op.found b.res = none := by
    intro a b older hs hb hba hfa
    have hpermitted := hlaw a older hs
    have hown : b ∈ own a.tid older := mem_own.2 ⟨hb, hba⟩
    obtain ⟨t, call, m, op, s, res, s'⟩ := a
    cases op with
    | refreshPromise id => exact hpermitted.2 b hown
    | _ => exact absurd rfl hfa
  rcases older_or_newer hx hy with heq | ⟨older, hs, hmem⟩ | ⟨older, hs, hmem⟩
  · exact heq
  · exact absurd (hfirst x y older hs hmem htid.symm hfx) hfy
  · exact absurd (hfirst y x older hs hmem htid hfy) hfx

/-- A call that presents a token has found no promise. -/
theorem found_of_postRefresh {W : World β} {P : FrontPolicy β}
    {s₀ : Process β} {c : FrontRun β}
    (h : Reachable (refreshSystem W) P s₀ c) {x : FrontEntry β}
    (hx : x ∈ c.log) {refreshToken : Option RawToken}
    (hop : x.op = .postRefresh refreshToken) :
    ∃ y ∈ c.log, y.tid = x.tid ∧ y.op.found y.res = some none := by
  have hlaw := (Reachable.follows
    (fun t call amb => withRefresh_follows W P t call amb) h).1
  obtain ⟨older, hs, hpermitted⟩ := hlaw.at_mem hx
  rw [hop] at hpermitted
  obtain ⟨y, hy, hfound⟩ := hpermitted
  exact ⟨y, hs.subset (.tail _ (mem_own.1 hy).1), (mem_own.1 hy).2, hfound⟩

end Laws

end Videum.Frontend
