import Videum.Frontend.Calls

/-!
# One refresh at a time

`refreshPromise` is one variable of the process, set by the call that finds it
empty and cleared in a `finally` callback.  A refresh is in flight from the
answer that found nothing there until its promise is settled.  This module
follows it over every interleaving of any number of calls: there is one at
most, the variable names it, and whoever has joined it sees its outcome.

## Main results

* `withRefresh_traced` — what a call has done when it has ended.
* `flights_of_reachable` — `refreshPromise` and the promises are what the
  answers so far say.
* `single_flight` — refreshes never overlap, and nobody waits in vain.
-/

namespace Videum.Frontend

open Videum.Async
open Videum.Auth (RawToken Moment)

/-! ## Reading the answers -/

namespace FrontOp

/-- The promise a call settles, and its outcome. -/
def settles : FrontOp → Option (Nat × Except FetchError Bool)
  | .settle id outcome => some (id, outcome)
  | _ => none

/-- The refresh a call has joined: the one it has found, or its own. -/
def joins : (op : FrontOp) → Except FetchError op.Res → Option Nat
  | .refreshPromise id, .ok promise? => some (promise?.getD id)
  | _, _ => none

/-- The promise a call has awaited, and the outcome it has seen. -/
def awaited : (op : FrontOp) → Except FetchError op.Res →
    Option (Nat × Except FetchError Bool)
  | .promise id, r => some (id, r)
  | _, _ => none

/-- The fetcher is run. -/
def fetches : FrontOp → Bool
  | .fetcher _ _ => true
  | _ => false

/-- The calls of `tryRefresh`. -/
def ofRefresh : FrontOp → Prop
  | .getSession _ | .postRefresh _ | .save _ _ | .destroy _ => True
  | _ => False

/-- The calls of a refresh in flight: those of `tryRefresh`, and its
`finally` callback. -/
def inFlight : FrontOp → Prop
  | .getSession _ | .postRefresh _ | .save _ _ | .destroy _ | .settle _ _ =>
      True
  | _ => False

/-- What becomes of the refresh after the answer of the backend. -/
def outcome : (op : FrontOp) → Except FetchError op.Res →
    Option (Except FetchError Bool)
  | .postRefresh _, .ok res => some (RefreshResponse.outcome res)
  | .postRefresh _, .error e => some (.error e)
  | _, _ => none

theorem found_of_promise {op : FrontOp} {res : Except FetchError op.Res}
    {other : Nat} (h : op = .promise other) : op.found res = none := by
  subst h
  rfl

theorem found_of_fetcher {op : FrontOp} {res : Except FetchError op.Res}
    {id attempt : Nat} (h : op = .fetcher id attempt) : op.found res = none := by
  subst h
  rfl

theorem found_of_settle {op : FrontOp} {res : Except FetchError op.Res}
    {id : Nat} {outcome : Except FetchError Bool}
    (h : op = .settle id outcome) : op.found res = none := by
  subst h
  rfl

theorem presents_of_found {op : FrontOp} {res : Except FetchError op.Res}
    {promise? : Option Nat} (h : op.found res = some promise?) :
    op.presents = none := by
  cases op with
  | postRefresh refreshToken => cases h
  | _ => rfl

theorem ofRefresh.settles {op : FrontOp} (h : op.ofRefresh) :
    op.settles = none := by
  cases op <;> first | rfl | exact h.elim

theorem ofRefresh.fetches {op : FrontOp} (h : op.ofRefresh) :
    op.fetches = false := by
  cases op <;> first | rfl | exact h.elim

end FrontOp

section Answers

variable {β : Type}

/-- How often the fetcher has been run. -/
def fetchCount (mine : FrontLog β) : Nat :=
  mine.countP fun x => x.op.fetches

theorem fetchCount_cons {x : FrontEntry β} {mine : FrontLog β}
    (h : x.op.fetches = true) : fetchCount (x :: mine) = fetchCount mine + 1 := by
  simp [fetchCount, h]

theorem fetchCount_cons_ne {x : FrontEntry β} {mine : FrontLog β}
    (h : x.op.fetches = false) : fetchCount (x :: mine) = fetchCount mine := by
  simp [fetchCount, h]

/-- The thread has made a promise, and has not settled it. -/
def Refreshing (mine : FrontLog β) : Prop :=
  (∃ x ∈ mine, x.op.found x.res = some none) ∧
    ∀ x ∈ mine, x.op.settles = none

theorem Refreshing.cons {mine : FrontLog β} (h : Refreshing mine)
    {x : FrontEntry β} (hx : x.op.settles = none) : Refreshing (x :: mine) := by
  obtain ⟨⟨y, hy, hmade⟩, hopen⟩ := h
  refine ⟨⟨y, .tail _ hy, hmade⟩, ?_⟩
  intro z hz
  rcases List.mem_cons.1 hz with rfl | hz
  · exact hx
  · exact hopen z hz

theorem Refreshing.of_cons {mine : FrontLog β} {x : FrontEntry β}
    (h : Refreshing (x :: mine)) (hx : x.op.found x.res ≠ some none) :
    Refreshing mine := by
  obtain ⟨⟨y, hy, hmade⟩, hopen⟩ := h
  rcases List.mem_cons.1 hy with rfl | hy
  · exact absurd hmade hx
  · exact ⟨⟨y, hy, hmade⟩, fun z hz => hopen z (.tail _ hz)⟩

/-- A call that has not come to `refreshPromise` yet has done nothing of a
refresh. -/
def Unjoined (mine : FrontLog β) : Prop :=
  ∀ x ∈ mine, x.op.found x.res = none ∧ x.op.settles = none ∧
    x.op.presents = none

theorem Unjoined.not_refreshing {mine : FrontLog β} (h : Unjoined mine) :
    ¬ Refreshing mine := by
  rintro ⟨⟨x, hx, hmade⟩, _⟩
  exact nomatch (h x hx).1.symm.trans hmade

/-- What a call may do after the answers it has had: it comes to
`refreshPromise` once, awaits the promise it has found there, and where it has
made one it presents one token and settles its promise. -/
def Ordered (call : Call) (mine : FrontLog β) : FrontOp → Prop
  | .fetcher _ _ => ¬ Refreshing mine
  | .refreshPromise id => id = call.id ∧ Unjoined mine
  | .promise other => ¬ Refreshing mine ∧
      ∃ x ∈ mine, x.op.found x.res = some (some other)
  | .settle id outcome => id = call.id ∧ Refreshing mine ∧
      ∃ x ∈ mine, x.op.outcome x.res = some outcome
  | .postRefresh _ => Refreshing mine ∧ ∀ x ∈ mine, x.op.presents = none
  | .send _ | .deliver _ => ¬ Refreshing mine
  | _ => Refreshing mine

/-- The answers of a call that refreshes. -/
structure Flying (call : Call) (mine : FrontLog β) : Prop where
  refreshing : Refreshing mine
  joins : ∃ x ∈ mine, x.op.joins x.res = some call.id
  once : fetchCount mine = 1

theorem Flying.cons {call : Call} {mine : FrontLog β} (h : Flying call mine)
    {x : FrontEntry β} (hx : x.op.ofRefresh) : Flying call (x :: mine) := by
  obtain ⟨y, hy, hjoins⟩ := h.joins
  constructor
  · exact h.refreshing.cons hx.settles
  · exact ⟨y, .tail _ hy, hjoins⟩
  · rw [fetchCount_cons_ne hx.fetches]
    exact h.once

/-- The answers of a call that has joined the refresh `id`, and seen it end in
`outcome`. -/
structure Joined (mine : FrontLog β) (id : Nat)
    (outcome : Except FetchError Bool) : Prop where
  joins : ∃ x ∈ mine, x.op.joins x.res = some id
  saw : ∃ x ∈ mine, x.op.settles = some (id, outcome) ∨
    x.op.awaited x.res = some (id, outcome)
  ended : ¬ Refreshing mine

theorem Joined.cons {mine : FrontLog β} {id : Nat}
    {outcome : Except FetchError Bool} (h : Joined mine id outcome)
    {x : FrontEntry β} (hx : x.op.found x.res = none) :
    Joined (x :: mine) id outcome := by
  obtain ⟨y, hy, hjoins⟩ := h.joins
  obtain ⟨z, hz, hsaw⟩ := h.saw
  refine ⟨⟨y, .tail _ hy, hjoins⟩, ⟨z, .tail _ hz, hsaw⟩, ?_⟩
  intro hopen
  refine h.ended (hopen.of_cons ?_)
  rw [hx]
  exact nofun

/-- What is returned after the refresh. -/
def afterRefresh (W : World β) (call : Call) :
    Except FetchError Bool → Except FetchError Response
  | .ok true => W.fetcher call.id 1
  | .ok false => .ok sessionExpired
  | .error e => .error e

/-- What a call has done when it has ended, by its own answers. -/
inductive CallTrace (W : World β) (call : Call) :
    Except FetchError Response → FrontLog β → Prop
  | first {mine}
      (hfirst : ∀ response, W.fetcher call.id 0 = .ok response →
        response.status ≠ 401)
      (hcount : fetchCount mine = 1)
      (hmine : ¬ Refreshing mine) :
      CallTrace W call (W.fetcher call.id 0) mine
  | joined {response id outcome mine}
      (hfirst : W.fetcher call.id 0 = .ok response)
      (h401 : response.status = 401)
      (hjoined : Joined mine id outcome)
      (hcount : fetchCount mine = if outcome = .ok true then 2 else 1) :
      CallTrace W call (afterRefresh W call outcome) mine

theorem CallTrace.ended {W : World β} {call : Call}
    {r : Except FetchError Response} {mine : FrontLog β}
    (h : CallTrace W call r mine) : ¬ Refreshing mine := by
  cases h with
  | first _ _ hmine => exact hmine
  | joined _ _ hjoined _ => exact hjoined.ended

end Answers

section Traces

variable {β : Type} {W : World β} {body : Call → FrontProg Response}
  {P : FrontPolicy β} {t : Nat} {call : Call} {amb : Moment}
  {mine : FrontLog β}

/-- The refresh ends in some way, and `outcomeOf` always returns. -/
theorem outcomeOf_follows {α : Type} {G : FrontLog β → FrontOp → Prop}
    {J : Except FetchError α → FrontLog β → Prop} {p : FrontProg α}
    (hp : follows (frontSystem W body) P G t call J p amb mine) :
    follows (frontSystem W body) P G t call
      (fun r mine => ∃ outcome, r = .ok outcome ∧ J outcome mine)
      (outcomeOf p) amb mine := by
  apply follows_tryCatch
  apply follows_bind
  apply follows_mono ?_ hp
  intro r mine' hJ
  cases r with
  | ok a => exact fun _ => ⟨_, rfl, hJ⟩
  | error e => exact fun _ => ⟨_, rfl, hJ⟩

theorem Ordered.of_ofRefresh {op : FrontOp} (hop : op.ofRefresh)
    (hpresents : op.presents = none) (h : Refreshing mine) :
    Ordered call mine op := by
  cases op <;> first | exact h | exact hop.elim | cases hpresents

/-- The refresh has ended as the answer of the backend says, and its call is
still to settle the promise. -/
def Refreshed (call : Call) (r : Except FetchError Bool) (mine : FrontLog β) :
    Prop :=
  Flying call mine ∧ ∃ x ∈ mine, x.op.outcome x.res = some r

/-- The session is written or destroyed after the answer `x`. -/
theorem session_traced (hP : ∀ op e, P.fault op e = false) {request : Nat}
    (op : FrontOp) (hop : op.ofRefresh) (hpresents : op.presents = none)
    (hexec : ∀ m s, ∃ v, ((frontSystem W body).exec m op s).1 = .ok v)
    (h : Flying call mine) {x : FrontEntry β} (hx : x ∈ mine) {refreshed : Bool}
    (houtcome : x.op.outcome x.res = some (.ok refreshed)) :
    follows (frontSystem W body) P (Ordered call) t call (Refreshed call)
      ((getSession request >>= fun _ => await op) >>= fun _ => return refreshed)
      amb mine := by
  have hget : (FrontOp.getSession request).ofRefresh := trivial
  rw [Prog.bind_assoc]
  refine follows_exec (I := FrontIface) (.getSession request)
    (Ordered.of_ofRefresh hget rfl h.refreshing) (hP _) ?_
  rintro m s _ rfl
  have hread := h.cons (x := (frontSystem W body).entry t call m
    (.getSession request) none s) hget
  refine follows_exec (I := FrontIface) op
    (Ordered.of_ofRefresh hop hpresents hread.refreshing) (hP op) ?_
  intro m' s' r hr
  obtain ⟨v, hv⟩ := hexec m' s'
  cases hv.symm.trans hr
  exact ⟨hread.cons hop, x, .tail _ (.tail _ hx), houtcome⟩

/-- The refresh ends as the answer of the backend says. -/
theorem tryRefresh_traced (hP : ∀ op e, P.fault op e = false)
    (h : Flying call mine) (hnew : ∀ x ∈ mine, x.op.presents = none) :
    follows (frontSystem W body) P (Ordered call) t call (Refreshed call)
      (tryRefresh call.request) amb mine := by
  have hget : (FrontOp.getSession call.request).ofRefresh := trivial
  rw [tryRefresh_eq]
  refine follows_exec (I := FrontIface) (.getSession call.request)
    (Ordered.of_ofRefresh hget rfl h.refreshing) (hP _) ?_
  rintro m s (_ | session) hexec
  · exact nomatch hexec
  have hread := h.cons (x := (frontSystem W body).entry t call m
    (.getSession call.request) none s) hget
  have hpost : (FrontOp.postRefresh session.refreshToken).ofRefresh := trivial
  refine follows_exec (I := FrontIface) (.postRefresh session.refreshToken)
    ⟨hread.refreshing, List.forall_mem_cons.2 ⟨rfl, hnew⟩⟩ (hP _) ?_
  intro m' s' (answer : Except FetchError RefreshResponse) hexec'
  generalize hx : (frontSystem W body).entry t call m'
    (.postRefresh session.refreshToken) none s' = x
  have hop : x.op.ofRefresh := by
    rw [← hx]
    exact hpost
  have houtcome : x.op.outcome x.res =
      FrontOp.outcome (.postRefresh session.refreshToken) answer := by
    rw [← hx, ← hexec']
    rfl
  have hanswered := hread.cons hop
  have hmem : x ∈ x :: (frontSystem W body).entry t call m
    (.getSession call.request) none s :: mine := .head _
  cases answer with
  | error e => exact ⟨hanswered, x, hmem, houtcome⟩
  | ok res =>
      change x.op.outcome x.res = some (RefreshResponse.outcome res) at houtcome
      revert houtcome
      apply afterAnswer_cases (C := fun p r => x.op.outcome x.res = some r →
        follows (frontSystem W body) P (Ordered call) t call (Refreshed call) p m'
          (x :: (frontSystem W body).entry t call m (.getSession call.request) none
            s :: mine))
      · exact session_traced hP (.destroy call.request) trivial rfl
          (fun _ _ => ⟨(), rfl⟩) hanswered hmem
      · exact fun houtcome => ⟨hanswered, x, hmem, houtcome⟩
      · intro _ _ _ _ _ _
        exact session_traced hP (.save call.request _) trivial rfl
          (fun _ _ => ⟨(), rfl⟩) hanswered hmem

/-- A call that awaits the promise it has found. -/
theorem join_traced (hP : ∀ op e, P.fault op e = false) {x : FrontEntry β}
    {other : Nat} (hfound : x.op.found x.res = some (some other))
    (hjoins : x.op.joins x.res = some other) (hopen : ¬ Refreshing (x :: mine))
    (hcount : fetchCount (x :: mine) = 1) :
    follows (frontSystem W body) P (Ordered call) t call
      (fun r mine' => ∃ id, Joined mine' id r ∧ fetchCount mine' = 1)
      (await (.promise other)) amb (x :: mine) := by
  refine follows_exec_last (I := FrontIface) (.promise other)
    ⟨hopen, x, .head _, hfound⟩ (hP _) ?_
  intro m s r hexec
  generalize hy : (frontSystem W body).entry t call m (.promise other) none s = y
  have hop : y.op = .promise other := by
    rw [← hy]
    rfl
  have hsaw : y.op.awaited y.res = some (other, r) := by
    rw [← hy, ← hexec]
    rfl
  refine ⟨other, ⟨⟨x, .tail _ (.head _), hjoins⟩, ⟨y, .head _, .inr hsaw⟩, ?_⟩,
    ?_⟩
  · intro hstill
    refine hopen (hstill.of_cons ?_)
    rw [FrontOp.found_of_promise hop]
    exact nofun
  · have hnot : y.op.fetches = false := by
      rw [hop]
      rfl
    rw [fetchCount_cons_ne hnot]
    exact hcount

/-- A call that refreshes, and settles the promise it has made. -/
theorem make_traced (hP : ∀ op e, P.fault op e = false)
    (h : Flying call mine) (hnew : ∀ x ∈ mine, x.op.presents = none) :
    follows (frontSystem W body) P (Ordered call) t call
      (fun r mine' => ∃ id, Joined mine' id r ∧ fetchCount mine' = 1)
      (outcomeOf (tryRefresh call.request) >>= fun outcome =>
        await (.settle call.id outcome) >>= fun _ => Prog.ofExcept outcome)
      amb mine := by
  apply follows_bind
  apply follows_mono ?_ (outcomeOf_follows (tryRefresh_traced hP h hnew))
  rintro _ mine' ⟨outcome, rfl, hflying, hanswer⟩ m₁
  refine follows_exec (I := FrontIface) (.settle call.id outcome)
    ⟨rfl, hflying.refreshing, hanswer⟩ (hP _) ?_
  rintro m s _ rfl
  have hsettles : ((frontSystem W body).entry t call m (.settle call.id outcome)
    none s).op.settles = some (call.id, outcome) := rfl
  have hjoined : Joined ((frontSystem W body).entry t call m
      (.settle call.id outcome) none s :: mine') call.id outcome := by
    obtain ⟨y, hy, hjoins⟩ := hflying.joins
    refine ⟨⟨y, .tail _ hy, hjoins⟩, ⟨_, .head _, .inl hsettles⟩, ?_⟩
    exact fun hopen => nomatch hsettles.symm.trans (hopen.2 _ (.head _))
  cases outcome with
  | ok refreshed => exact ⟨call.id, hjoined, hflying.once⟩
  | error e => exact ⟨call.id, hjoined, hflying.once⟩

/-- The outcome of the refresh that was joined is the outcome for the call. -/
theorem refreshOnce_traced (hP : ∀ op e, P.fault op e = false)
    (hmine : Unjoined mine) (hcount : fetchCount mine = 1) :
    follows (frontSystem W body) P (Ordered call) t call
      (fun r mine' => ∃ id, Joined mine' id r ∧ fetchCount mine' = 1)
      (refreshOnce call) amb mine := by
  refine follows_exec (I := FrontIface) (.refreshPromise call.id)
    ⟨rfl, hmine⟩ (hP _) ?_
  rintro m s (_ | promise?) hexec
  · exact nomatch hexec
  generalize hx : (frontSystem W body).entry t call m (.refreshPromise call.id)
    none s = x
  have hfound : x.op.found x.res =
      FrontOp.found (.refreshPromise call.id) (.ok promise?) := by
    rw [← hx, ← hexec]
    rfl
  have hjoins : x.op.joins x.res =
      FrontOp.joins (.refreshPromise call.id) (.ok promise?) := by
    rw [← hx, ← hexec]
    rfl
  have hquiet : x.op.settles = none ∧ fetchCount (x :: mine) = 1 ∧
      x.op.presents = none := by
    rw [← hx]
    exact ⟨rfl, hcount, rfl⟩
  cases promise? with
  | some other =>
      refine join_traced hP hfound hjoins ?_ hquiet.2.1
      rintro ⟨⟨z, hz, hmade⟩, _⟩
      rcases List.mem_cons.1 hz with rfl | hz
      · exact nomatch hfound.symm.trans hmade
      · exact nomatch (hmine z hz).1.symm.trans hmade
  | none =>
      refine make_traced hP ⟨⟨⟨x, .head _, hfound⟩, ?_⟩, ⟨x, .head _, hjoins⟩,
        hquiet.2.1⟩ ?_
      · exact List.forall_mem_cons.2
          ⟨hquiet.1, fun z hz => (hmine z hz).2.1⟩
      · exact List.forall_mem_cons.2
          ⟨hquiet.2.2, fun z hz => (hmine z hz).2.2⟩

/-- The second run of the fetcher. -/
theorem retry_traced (hP : ∀ op e, P.fault op e = false) {id : Nat}
    {response : Response} (hfirst : W.fetcher call.id 0 = .ok response)
    (h401 : response.status = 401) (hjoined : Joined mine id (.ok true))
    (hcount : fetchCount mine = 1) :
    follows (frontSystem W body) P (Ordered call) t call (CallTrace W call)
      (await (.fetcher call.id 1)) amb mine := by
  refine follows_exec_last (I := FrontIface) (.fetcher call.id 1) hjoined.ended
    (hP _) ?_
  rintro m s _ rfl
  refine .joined hfirst h401 (hjoined.cons rfl) ?_
  rw [if_pos rfl, fetchCount_cons rfl, hcount]

/-- What a call has done when it has ended, and what it may do until then. -/
theorem withRefresh_traced (hP : ∀ op e, P.fault op e = false)
    (hmine : Unjoined mine) (hcount : fetchCount mine = 0) :
    follows (frontSystem W body) P (Ordered call) t call (CallTrace W call)
      (withRefresh call) amb mine := by
  refine follows_exec (I := FrontIface) (.fetcher call.id 0)
    hmine.not_refreshing (hP _) ?_
  intro m s (r : Except FetchError Response) hexec
  have hfetched : W.fetcher call.id 0 = r := hexec
  generalize hx : (frontSystem W body).entry t call m (.fetcher call.id 0) none s
    = x
  have hop : x.op = .fetcher call.id 0 := by
    rw [← hx]
    rfl
  have hone : fetchCount (x :: mine) = 1 := by
    rw [fetchCount_cons (by rw [hop]; rfl), hcount]
  have hunjoined : Unjoined (x :: mine) := by
    refine List.forall_mem_cons.2 ⟨?_, hmine⟩
    refine ⟨FrontOp.found_of_fetcher hop, ?_, ?_⟩
    · rw [hop]
      rfl
    · rw [hop]
      rfl
  have honly : (∀ response, r = .ok response → response.status ≠ 401) →
      CallTrace W call r (x :: mine) := by
    intro hfirst
    rw [← hfetched] at hfirst ⊢
    exact .first hfirst hone hunjoined.not_refreshing
  cases r with
  | error e => exact honly nofun
  | ok response =>
      show follows _ _ _ _ _ _ (if response.status ≠ 401 then _ else _) _ _
      split
      · next hstatus =>
          apply honly
          rintro response' heq
          cases heq
          exact hstatus
      · next hstatus =>
          have h401 : response.status = 401 := not_not.1 hstatus
          apply follows_bind
          apply follows_mono ?_ (refreshOnce_traced hP hunjoined hone)
          rintro r mine' ⟨id, hjoined, hcount⟩
          cases r with
          | error e => exact .joined hfetched h401 hjoined hcount
          | ok refreshed =>
              intro m'
              cases refreshed with
              | true => exact retry_traced hP hfetched h401 hjoined hcount
              | false => exact .joined hfetched h401 hjoined hcount

end Traces

/-! ## The promises -/

section Flights

variable {β : Type}

/-- The answer `x` has found no promise, so that its call has made one, and the
call has not settled it. -/
def InFlight (log : FrontLog β) (x : FrontEntry β) : Prop :=
  x ∈ log ∧ x.op.found x.res = some none ∧
    ∀ y ∈ log, y.tid = x.tid → y.op.settles = none

/-- `refreshPromise` and the promises are what the answers say. -/
structure Flights (s : Process β) (log : FrontLog β) : Prop where
  one : ∀ x y, InFlight log x → InFlight log y → x = y
  promise : ∀ id, s.refreshPromise = some id ↔
    ∃ x, InFlight log x ∧ x.request.id = id
  settled : ∀ id outcome, s.settled id = some outcome ↔
    ∃ x ∈ log, x.op.settles = some (id, outcome)

variable {s s' : Process β} {log : FrontLog β} {e : FrontEntry β}

theorem inFlight_cons {x : FrontEntry β} (hsettles : e.op.settles = none) :
    InFlight (e :: log) x ↔ InFlight log x ∨ x = e ∧
      e.op.found e.res = some none ∧
        ∀ y ∈ log, y.tid = e.tid → y.op.settles = none := by
  constructor
  · rintro ⟨hx, hmade, hopen⟩
    have hopen' : ∀ y ∈ log, y.tid = x.tid → y.op.settles = none :=
      fun y hy => hopen y (.tail _ hy)
    rcases List.mem_cons.1 hx with rfl | hx
    · exact .inr ⟨rfl, hmade, hopen'⟩
    · exact .inl ⟨hx, hmade, hopen'⟩
  · rintro (⟨hx, hmade, hopen⟩ | ⟨rfl, hmade, hopen⟩)
    · refine ⟨.tail _ hx, hmade, ?_⟩
      intro y hy htid
      rcases List.mem_cons.1 hy with rfl | hy
      · exact hsettles
      · exact hopen y hy htid
    · refine ⟨.head _, hmade, ?_⟩
      intro y hy htid
      rcases List.mem_cons.1 hy with rfl | hy
      · exact hsettles
      · exact hopen y hy htid

/-- A list of answers that settles nothing new. -/
theorem settles_cons (hsettles : e.op.settles = none)
    {promise : Nat × Except FetchError Bool} :
    (∃ x ∈ e :: log, x.op.settles = some promise) ↔
      ∃ x ∈ log, x.op.settles = some promise := by
  constructor
  · rintro ⟨x, hx, hsome⟩
    rcases List.mem_cons.1 hx with rfl | hx
    · exact nomatch hsettles.symm.trans hsome
    · exact ⟨x, hx, hsome⟩
  · rintro ⟨x, hx, hsome⟩
    exact ⟨x, .tail _ hx, hsome⟩

theorem Flights.start {cookies : Nat → CookieStore} {jar : Option SessionData}
    {backend : β} :
    Flights { cookies := cookies, jar := jar, backend := backend } [] := by
  constructor
  · rintro x _ ⟨hx, _⟩ _
    exact nomatch hx
  · intro id
    constructor
    · exact nofun
    · rintro ⟨x, ⟨hx, _⟩, _⟩
      exact nomatch hx
  · intro id outcome
    constructor
    · exact nofun
    · rintro ⟨x, hx, _⟩
      exact nomatch hx

/-- An answer that neither makes nor settles a promise. -/
theorem Flights.quiet (h : Flights s log)
    (hfound : e.op.found e.res ≠ some none) (hsettles : e.op.settles = none)
    (hpromise : s'.refreshPromise = s.refreshPromise)
    (hsettled : s'.settled = s.settled) : Flights s' (e :: log) := by
  have hiff : ∀ x, InFlight (e :: log) x ↔ InFlight log x := by
    intro x
    rw [inFlight_cons hsettles, or_iff_left]
    exact fun hmade => hfound hmade.2.1
  constructor
  · intro x y hx hy
    exact h.one x y ((hiff x).1 hx) ((hiff y).1 hy)
  · intro id
    rw [hpromise, h.promise]
    simp only [hiff]
  · intro id outcome
    rw [hsettled, h.settled, settles_cons hsettles]

/-- A call that has found no promise makes one. -/
theorem Flights.made (h : Flights s log) (hnone : s.refreshPromise = none)
    (hfound : e.op.found e.res = some none) (hsettles : e.op.settles = none)
    (hopen : ∀ y ∈ log, y.tid = e.tid → y.op.settles = none)
    (hnew : ∀ y ∈ log, ∀ outcome,
      y.op.settles ≠ some (e.request.id, outcome)) :
    Flights (s.enter e.request.id).2 (e :: log) := by
  have hempty : ∀ x, ¬ InFlight log x := by
    intro x hx
    have hsome := (h.promise x.request.id).2 ⟨x, hx, rfl⟩
    exact nomatch hnone.symm.trans hsome
  have hiff : ∀ x, InFlight (e :: log) x ↔ x = e := by
    intro x
    rw [inFlight_cons hsettles, or_iff_right (hempty x)]
    exact ⟨fun hmade => hmade.1, fun heq => ⟨heq, hfound, hopen⟩⟩
  have henter : (s.enter e.request.id).2 = { s with
      refreshPromise := some e.request.id
      settled := Function.update s.settled e.request.id none } := by
    rw [Process.enter, hnone]
  rw [henter]
  constructor
  · intro x y hx hy
    rw [(hiff x).1 hx, (hiff y).1 hy]
  · intro id
    simp only [hiff, exists_eq_left, Option.some.injEq]
  · intro id outcome
    rw [settles_cons hsettles]
    show Function.update s.settled e.request.id none id = _ ↔ _
    by_cases hid : id = e.request.id
    · subst hid
      rw [Function.update_self]
      constructor
      · exact nofun
      · rintro ⟨y, hy, hold⟩
        exact absurd hold (hnew y hy outcome)
    · rw [Function.update_of_ne hid, h.settled]

/-- A call settles the promise it has made. -/
theorem Flights.settle (h : Flights s log) {outcome : Except FetchError Bool}
    (hop : e.op = .settle e.request.id outcome)
    {z : FrontEntry β} (hz : InFlight log z) (htid : z.tid = e.tid)
    (hnew : ∀ y ∈ log, ∀ outcome,
      y.op.settles ≠ some (e.request.id, outcome)) :
    Flights (s.settle e.request.id outcome) (e :: log) := by
  have hsettles : e.op.settles = some (e.request.id, outcome) := by
    rw [hop]
    rfl
  have hempty : ∀ x, ¬ InFlight (e :: log) x := by
    rintro x ⟨hx, hmade, hopen⟩
    rcases List.mem_cons.1 hx with rfl | hx
    · rw [FrontOp.found_of_settle hop] at hmade
      exact nomatch hmade
    · have heq : x = z :=
        h.one x z ⟨hx, hmade, fun y hy => hopen y (.tail _ hy)⟩ hz
      subst heq
      exact nomatch hsettles.symm.trans (hopen e (.head _) htid.symm)
  constructor
  · exact fun x _ hx => absurd hx (hempty x)
  · intro id
    constructor
    · exact nofun
    · rintro ⟨x, hx, _⟩
      exact absurd hx (hempty x)
  · intro id outcome'
    show Function.update s.settled e.request.id (some outcome) id = _ ↔ _
    by_cases hid : id = e.request.id
    · subst hid
      rw [Function.update_self]
      constructor
      · rintro heq
        cases heq
        exact ⟨e, .head _, hsettles⟩
      · rintro ⟨y, hy, hsome⟩
        rcases List.mem_cons.1 hy with rfl | hy
        · cases hsettles.symm.trans hsome
          rfl
        · exact absurd hsome (hnew y hy outcome')
    · rw [Function.update_of_ne hid, h.settled]
      constructor
      · rintro ⟨y, hy, hsome⟩
        exact ⟨y, .tail _ hy, hsome⟩
      · rintro ⟨y, hy, hsome⟩
        rcases List.mem_cons.1 hy with rfl | hy
        · cases hsettles.symm.trans hsome
          exact absurd rfl hid
        · exact ⟨y, hy, hsome⟩

end Flights

theorem refreshing_iff {β : Type} {t : Nat} {log : FrontLog β} :
    Refreshing (own t log) ↔ ∃ x, InFlight log x ∧ x.tid = t := by
  constructor
  · rintro ⟨⟨x, hx, hmade⟩, hopen⟩
    obtain ⟨hmem, rfl⟩ := mem_own.1 hx
    exact ⟨x, ⟨hmem, hmade, fun y hy htid => hopen y (mem_own.2 ⟨hy, htid⟩)⟩,
      rfl⟩
  · rintro ⟨x, ⟨hx, hmade, hopen⟩, rfl⟩
    exact ⟨⟨x, mem_own.2 ⟨hx, rfl⟩, hmade⟩,
      fun y hy => hopen y (mem_own.1 hy).1 (mem_own.1 hy).2⟩

/-- The threads of a server go about refreshes as calls do: no awaited call
fails by itself, each thread has a name of its own, and it does what `Ordered`
says. -/
structure Orderly {β : Type} (W : World β) (body : Call → FrontProg Response)
    (P : FrontPolicy β) : Prop where
  faultless : ∀ op e, P.fault op e = false
  named : ∀ c call, P.accepts c call →
    ∀ th ∈ c.threads, th.request.id ≠ call.id
  ordered : ∀ t call amb,
    follows (frontSystem W body) P (Ordered call) t call (fun _ _ => True)
      (body call) amb []

/-- A call that presents a token is refreshing, and presents its first. -/
theorem ordered_of_presents {β : Type} {call : Call} {mine : FrontLog β}
    {op : FrontOp} (h : Ordered call mine op)
    (hpresents : op.presents.isSome = true) :
    Refreshing mine ∧ ∀ x ∈ mine, x.op.presents = none := by
  cases op with
  | postRefresh refreshToken => exact h
  | _ => cases hpresents

section Orderly

variable {β : Type} {W : World β} {body : Call → FrontProg Response}
  {P : FrontPolicy β} {s₀ : Process β} {c : FrontRun β}

/-- Every answer came to a call that `Ordered` allows. -/
theorem Orderly.obeyed (ho : Orderly W body P)
    (h : Reachable (frontSystem W body) P s₀ c) :
    Obeyed (fun log t call op => Ordered call (own t log) op) c.log :=
  (Reachable.follows ho.ordered h).1

/-- A call settles the promise it has made, as the backend has answered. -/
theorem settles_own (ho : Orderly W body P)
    (h : Reachable (frontSystem W body) P s₀ c) {x : FrontEntry β}
    (hx : x ∈ c.log) {id : Nat} {outcome : Except FetchError Bool}
    (hsettles : x.op.settles = some (id, outcome)) :
    x.request.id = id ∧ ∃ y ∈ c.log, y.tid = x.tid ∧
      y.op.outcome y.res = some outcome := by
  obtain ⟨older, hs, hlaw⟩ := (ho.obeyed h).at_mem hx
  generalize hop : x.op = op at hsettles hlaw
  cases op with
  | settle id' outcome' =>
      cases hsettles
      obtain ⟨hid, _, y, hy, houtcome⟩ := hlaw
      exact ⟨hid.symm, y, hs.subset (.tail _ (mem_own.1 hy).1),
        (mem_own.1 hy).2, houtcome⟩
  | _ => exact nomatch hsettles

/-- Calls with one name are one call. -/
theorem thread_of_id (ho : Orderly W body P)
    (h : Reachable (frontSystem W body) P s₀ c) {t t' : Nat}
    {th th' : Thread FrontIface Moment FetchError Call Response}
    (hth : c.threads[t]? = some th) (hth' : c.threads[t']? = some th')
    (hid : th.request.id = th'.request.id) : t = t' :=
  Reachable.key_unique Call.id ho.named h hth hth' hid

/-- A call that has settled nothing has its promise open. -/
theorem unsettled (ho : Orderly W body P)
    (h : Reachable (frontSystem W body) P s₀ c) {t : Nat}
    {th : Thread FrontIface Moment FetchError Call Response}
    (hth : c.threads[t]? = some th)
    (hopen : ∀ y ∈ own t c.log, y.op.settles = none) :
    ∀ y ∈ c.log, ∀ outcome, y.op.settles ≠ some (th.request.id, outcome) := by
  intro y hy outcome hsettles
  obtain ⟨th', hth', hrequest⟩ := h.logOwned y hy
  have hid : th'.request.id = th.request.id := by
    rw [hrequest]
    exact (settles_own ho h hy hsettles).1
  have htid : y.tid = t := thread_of_id ho h hth' hth hid
  exact nomatch (hopen y (mem_own.2 ⟨hy, htid⟩)).symm.trans hsettles

/-- `refreshPromise` and the promises are what the answers so far say. -/
theorem flights_of_reachable (ho : Orderly W body P)
    {cookies : Nat → CookieStore} {jar : Option SessionData} {backend : β}
    (h : Reachable (frontSystem W body) P
      { cookies := cookies, jar := jar, backend := backend } c) :
    Flights c.state c.log := by
  induction h with
  | refl => exact .start
  | @tail b c hb hstep ih =>
      cases hstep with
      | spawn call amb _ => exact ih
      | @perform u call op k amb fault hthread _ hfault =>
          have hnone : fault = none :=
            Policy.fault_eq_none (ho.faultless op) hfault
          subst hnone
          obtain ⟨_, hlaw, _⟩ :=
            (Reachable.follows ho.ordered hb).2 u _ hthread
          cases op with
          | refreshPromise id =>
              obtain ⟨hid, hfirst⟩ := hlaw
              change id = call.id at hid
              subst hid
              have hopen : ∀ y ∈ own u b.log, y.op.settles = none :=
                fun y hy => (hfirst y hy).2.1
              cases hpromise : b.state.refreshPromise with
              | some other =>
                  have henter : b.state.enter call.id = (some other, b.state) := by
                    rw [Process.enter, hpromise]
                  refine ih.quiet ?_ rfl
                    (congrArg (fun r => r.2.refreshPromise) henter)
                    (congrArg (fun r => r.2.settled) henter)
                  show some (b.state.enter call.id).1 ≠ some none
                  rw [henter]
                  exact nofun
              | none =>
                  refine ih.made (e := (frontSystem W body).entry u call amb
                    (.refreshPromise call.id) none b.state) hpromise ?_ rfl
                    (fun y hy htid => hopen y (mem_own.2 ⟨hy, htid⟩))
                    (unsettled ho hb hthread hopen)
                  show some (b.state.enter call.id).1 = some none
                  rw [Process.enter_fst, hpromise]
          | settle id outcome =>
              obtain ⟨hid, hopen, _⟩ := hlaw
              change id = call.id at hid
              subst hid
              obtain ⟨z, hz, htid⟩ := refreshing_iff.1 hopen
              exact ih.settle (e := (frontSystem W body).entry u call amb
                (.settle call.id outcome) none b.state) rfl hz htid
                (unsettled ho hb hthread hopen.2)
          | deliver request =>
              refine ih.quiet nofun rfl ?_ ?_
              · exact Process.deliver_refreshPromise b.state request
              · exact Process.deliver_settled b.state request
          | _ => exact ih.quiet nofun rfl rfl rfl

/-- A token is presented by a call that has made a promise, and nobody else
has presented one since. -/
theorem presented_before (ho : Orderly W body P) {cookies : Nat → CookieStore}
    {jar : Option SessionData} {backend : β}
    (h : Reachable (frontSystem W body) P
      { cookies := cookies, jar := jar, backend := backend } c)
    {x y : FrontEntry β} {older : FrontLog β} (hx : (x :: older) <:+ c.log)
    (hxpresents : x.op.presents.isSome = true) (hy : y ∈ older)
    (hypresents : y.op.presents.isSome = true) :
    ∃ e older', (e :: older') <:+ older ∧ e.tid = x.tid ∧
      e.op.found e.res = some none ∧ y ∈ older' := by
  obtain ⟨⟨⟨e, he, hmade⟩, hopen⟩, hfirst⟩ :=
    ordered_of_presents (ho.obeyed h x older hx) hxpresents
  obtain ⟨hmem, htid⟩ := mem_own.1 he
  rcases older_or_newer hmem hy with heq | ⟨o, hs, hyo⟩ | ⟨o, hs, heo⟩
  · rw [← heq, FrontOp.presents_of_found hmade] at hypresents
    cases hypresents
  · exact ⟨e, o, hs, htid, hmade, hyo⟩
  · -- both are in flight when `y` presents its token
    have hsuffix : (y :: o) <:+ c.log :=
      hs.trans ((List.suffix_cons x older).trans hx)
    obtain ⟨hrefreshing, _⟩ :=
      ordered_of_presents (ho.obeyed h y o hsuffix) hypresents
    obtain ⟨z, hz, hztid⟩ := refreshing_iff.1 hrefreshing
    obtain ⟨b, _, _, hb, rfl, _, _⟩ := h.split_at hsuffix
    have hin : InFlight b.log e := by
      refine ⟨heo, hmade, fun w hw hwtid => ?_⟩
      exact hopen w (mem_own.2 ⟨hs.subset (.tail _ hw), hwtid.trans htid⟩)
    have hsame := (flights_of_reachable ho hb).one z e hz hin
    have hown : y ∈ own x.tid older := by
      rw [mem_own, ← htid, ← hsame, hztid]
      exact ⟨hy, rfl⟩
    rw [hfirst y hown] at hypresents
    cases hypresents

end Orderly

section Run

variable {β : Type} {W : World β} {s₀ : Process β} {c : FrontRun β}

theorem unjoined_nil : Unjoined (β := β) [] := List.forall_mem_nil _

/-- Each call does what it may, and has done so far. -/
theorem traced (h : Reachable (refreshSystem W) anyCalls s₀ c) :
    Obeyed (fun log t call op => Ordered call (own t log) op) c.log ∧
      ∀ t th, c.threads[t]? = some th → ∃ amb,
        follows (refreshSystem W) anyCalls (Ordered th.request) t th.request
          (CallTrace W th.request) th.prog amb (own t c.log) :=
  Reachable.follows
    (fun _ _ _ => withRefresh_traced (fun _ _ => rfl) unjoined_nil rfl) h

theorem orderly_withRefresh (W : World β) : Orderly W withRefresh anyCalls where
  faultless _ _ := rfl
  named _ _ haccepts := haccepts
  ordered _ _ _ := follows_mono (fun _ _ _ => trivial)
    (withRefresh_traced (fun _ _ => rfl) unjoined_nil rfl)

/-- A call that has seen the outcome of a promise has seen one that was
settled. -/
theorem settles_of_awaited {cookies : Nat → CookieStore}
    {jar : Option SessionData} {backend : β}
    (h : Reachable (refreshSystem W) anyCalls
      { cookies := cookies, jar := jar, backend := backend } c)
    {x : FrontEntry β} (hx : x ∈ c.log) {id : Nat}
    {outcome : Except FetchError Bool}
    (hsaw : x.op.awaited x.res = some (id, outcome)) :
    ∃ y ∈ c.log, y.op.settles = some (id, outcome) := by
  obtain ⟨b, _, _, hb, _, hguard, _, heq, hs⟩ := h.entry_config hx
  have hres := (h.entry_exec (fun _ _ => rfl) hx).1
  have hbefore : x.before = b.state := congrArg Entry.before heq
  rw [hbefore] at hres
  obtain ⟨t, call, m, op, s, res, s'⟩ := x
  cases op with
  | promise other =>
      dsimp only at hguard hres hsaw
      obtain ⟨outcome', hsome⟩ := Option.isSome_iff_exists.1 hguard
      have houtcome : res = outcome' := by
        rw [hres]
        show (b.state.settled other).getD (.error .network) = outcome'
        rw [hsome]
        rfl
      cases hsaw
      rw [← houtcome] at hsome
      have hflights := flights_of_reachable (orderly_withRefresh W) hb
      obtain ⟨y, hy, hsettles⟩ := (hflights.settled id outcome).1 hsome
      exact ⟨y, hs.subset (.tail _ hy), hsettles⟩
  | _ => exact nomatch hsaw

/-- Whoever has found a promise has found one that is in flight, or settled by
now. -/
theorem settled_or_inFlight {cookies : Nat → CookieStore}
    {jar : Option SessionData} {backend : β}
    (h : Reachable (refreshSystem W) anyCalls
      { cookies := cookies, jar := jar, backend := backend } c)
    {x : FrontEntry β} (hx : x ∈ c.log) {other : Nat}
    (hfound : x.op.found x.res = some (some other)) :
    (c.state.settled other).isSome = true ∨
      ∃ z, InFlight c.log z ∧ z.request.id = other := by
  obtain ⟨b, _, _, hb, _, _, _, heq, hs⟩ := h.entry_config hx
  have hbefore : x.before = b.state := congrArg Entry.before heq
  have hpromise := (found_eq (fun _ _ => rfl) h hx hfound).2
  rw [hbefore] at hpromise
  have hflights := flights_of_reachable (orderly_withRefresh W) hb
  obtain ⟨z, hz, hid⟩ := (hflights.promise other).1 hpromise
  have hmem : z ∈ c.log := hs.subset (.tail _ hz.1)
  by_cases hopen : ∀ y ∈ c.log, y.tid = z.tid → y.op.settles = none
  · exact .inr ⟨z, ⟨hmem, hz.2.1, hopen⟩, hid⟩
  · simp only [not_forall] at hopen
    obtain ⟨y, hy, htid, hsettles⟩ := hopen
    obtain ⟨⟨id, outcome⟩, hsome⟩ := Option.ne_none_iff_exists'.1 hsettles
    have hown := (settles_own (orderly_withRefresh W) h hy hsome).1
    rw [h.logOwned.request_eq hy hmem htid, hid] at hown
    subst hown
    have hends := flights_of_reachable (orderly_withRefresh W) h
    have hsettled := (hends.settled other outcome).2 ⟨y, hy, hsome⟩
    rw [hsettled]
    exact .inl rfl

/-- A call that awaits no promise can be answered, if random values can come up
new. -/
theorem guard_of_fresh
    (hfresh : ∀ token backend, ∃ m, W.fresh m token backend = true)
    (s : Process β) {op : FrontOp} (hop : ∀ other, op ≠ .promise other) :
    ∃ m, Process.guard W m op s = true := by
  cases op with
  | promise other => exact absurd rfl (hop other)
  | postRefresh token => exact hfresh token s.backend
  | _ => exact ⟨{ now := 0 }, rfl⟩

/-! ## Single flight -/

/-- Thread `t` refreshes for `call`: it is inside of `tryRefresh`, or about to
run the callback that clears `refreshPromise`. -/
def RefreshInFlight (c : FrontRun β) (t : Nat) (call : Call) : Prop :=
  ∃ op k, c.threads[t]? = some ⟨call, .await op k⟩ ∧ op.inFlight

/-- What a call that has ended has done. -/
theorem traced_ended (h : Reachable (refreshSystem W) anyCalls s₀ c) {t : Nat}
    {call : Call} {r : Except FetchError Response}
    (hth : c.threads[t]? = some ⟨call, Prog.ofExcept r⟩) :
    CallTrace W call r (own t c.log) :=
  Reachable.follows_result
    (fun _ _ _ => withRefresh_traced (fun _ _ => rfl) unjoined_nil rfl) h hth

/-- A thread is inside of a refresh while its promise is open. -/
theorem refreshInFlight_iff (h : Reachable (refreshSystem W) anyCalls s₀ c)
    {t : Nat} {call : Call} :
    RefreshInFlight c t call ↔
      ∃ x, InFlight c.log x ∧ x.tid = t ∧ x.request = call := by
  constructor
  · rintro ⟨op, k, hth, hop⟩
    obtain ⟨_, hlaw, _⟩ := (traced h).2 t _ hth
    have hopen : Refreshing (own t c.log) := by
      cases op with
      | settle id outcome => exact hlaw.2.1
      | fetcher id attempt => exact hop.elim
      | refreshPromise id => exact hop.elim
      | promise id => exact hop.elim
      | send request => exact hop.elim
      | deliver request => exact hop.elim
      | postRefresh refreshToken => exact hlaw.1
      | _ => exact hlaw
    obtain ⟨x, hx, rfl⟩ := refreshing_iff.1 hopen
    exact ⟨x, hx, rfl, h.logOwned.request_of_thread hx.1 hth⟩
  · rintro ⟨x, hx, rfl, rfl⟩
    have hopen : Refreshing (own x.tid c.log) := refreshing_iff.2 ⟨x, hx, rfl⟩
    obtain ⟨th, hth, hrequest⟩ := h.logOwned x hx.1
    obtain ⟨call, prog⟩ := th
    change call = x.request at hrequest
    subst hrequest
    obtain ⟨op, k, rfl⟩ : ∃ op k, prog = .await op k := by
      rcases h.thread_cases hth with ⟨response, rfl⟩ | ⟨e, rfl⟩ | hwaits
      · exact absurd hopen (traced_ended h (r := .ok response) hth).ended
      · exact absurd hopen (traced_ended h (r := .error e) hth).ended
      · exact hwaits
    obtain ⟨_, hlaw, _⟩ := (traced h).2 x.tid _ hth
    refine ⟨op, k, hth, ?_⟩
    cases op with
    | fetcher id attempt => exact hlaw hopen
    | refreshPromise id =>
        have hmade := hx.2.1
        rw [(hlaw.2 x (mem_own.2 ⟨hx.1, rfl⟩)).1] at hmade
        exact nomatch hmade
    | promise id => exact hlaw.1 hopen
    | send request => exact hlaw hopen
    | deliver request => exact hlaw hopen
    | _ => trivial

section Start

variable {cookies : Nat → CookieStore} {jar : Option SessionData} {backend : β}

theorem refreshPromise_iff
    (h : Reachable (refreshSystem W) anyCalls
      { cookies := cookies, jar := jar, backend := backend } c) (id : Nat) :
    c.state.refreshPromise = some id ↔
      ∃ t call, RefreshInFlight c t call ∧ call.id = id := by
  have hflights := flights_of_reachable (orderly_withRefresh W) h
  simp only [hflights.promise, refreshInFlight_iff h]
  constructor
  · rintro ⟨x, hx, hid⟩
    exact ⟨x.tid, x.request, ⟨x, hx, rfl, rfl⟩, hid⟩
  · rintro ⟨_, _, ⟨x, hx, rfl, rfl⟩, hid⟩
    exact ⟨x, hx, hid⟩

/-- Whoever waits for a promise has found it. -/
theorem settled_or_refreshing
    (h : Reachable (refreshSystem W) anyCalls
      { cookies := cookies, jar := jar, backend := backend } c) {t : Nat}
    {call : Call} {other : Nat}
    {k : Except FetchError Bool → FrontProg Response}
    (hth : c.threads[t]? = some ⟨call, .await (.promise other) k⟩) :
    (c.state.settled other).isSome = true ∨
      ∃ u maker, RefreshInFlight c u maker ∧ maker.id = other := by
  obtain ⟨_, ⟨_, x, hx, hfound⟩, _⟩ := (traced h).2 t _ hth
  rcases settled_or_inFlight h (mem_own.1 hx).1 hfound with hsettled | ⟨z, hz, hid⟩
  · exact .inl hsettled
  · exact .inr ⟨z.tid, z.request,
      (refreshInFlight_iff h).2 ⟨z, hz, rfl, rfl⟩, hid⟩

/-- A refresh in flight waits for no promise, and so nobody waits in a
circle. -/
theorem some_call_moves
    (h : Reachable (refreshSystem W) anyCalls
      { cookies := cookies, jar := jar, backend := backend } c)
    (hfresh : ∀ token backend, ∃ m, W.fresh m token backend = true)
    (hbusy : c.idle = false) :
    ∃ (t : Nat) (call : Call) (op : FrontOp) (k : _) (m : Moment),
      c.threads[t]? = some ⟨call, .await op k⟩ ∧
        (refreshSystem W).guard call m op c.state = true := by
  obtain ⟨t, call, op, k, hth⟩ := h.waiting hbusy
  by_cases hop : ∃ other, op = .promise other
  · obtain ⟨other, rfl⟩ := hop
    rcases settled_or_refreshing h hth with hsettled | ⟨u, maker, hin, _⟩
    · exact ⟨t, call, .promise other, k, { now := 0 }, hth, hsettled⟩
    · obtain ⟨op', k', hth', hop'⟩ := hin
      have hnot : ∀ other', op' ≠ .promise other' := by
        rintro other' rfl
        exact hop'
      obtain ⟨m, hguard⟩ := guard_of_fresh hfresh c.state hnot
      exact ⟨u, maker, op', k', m, hth', hguard⟩
  · have hnot : ∀ other, op ≠ .promise other := fun other heq =>
      hop ⟨other, heq⟩
    obtain ⟨m, hguard⟩ := guard_of_fresh hfresh c.state hnot
    exact ⟨t, call, op, k, m, hth, hguard⟩

end Start

/-- How a call has ended: with what its fetcher has answered at once, or after
the refresh it has joined. -/
def Ended (W : World β) (log : FrontLog β) (t : Nat) (call : Call)
    (r : Except FetchError Response) : Prop :=
  (∀ response, W.fetcher call.id 0 = .ok response → response.status ≠ 401) ∧
      r = W.fetcher call.id 0 ∧ fetchCount (own t log) = 1 ∨
    ∃ response id outcome, W.fetcher call.id 0 = .ok response ∧
      response.status = 401 ∧ (∃ x ∈ own t log, x.op.joins x.res = some id) ∧
      (∃ x ∈ log, x.op.settles = some (id, outcome)) ∧
      r = afterRefresh W call outcome ∧
      fetchCount (own t log) = if outcome = .ok true then 2 else 1

/-- Refreshes never overlap, and nobody waits in vain. -/
structure SingleFlight (W : World β) (c : FrontRun β) : Prop where
  /-- There is one refresh in flight at most. -/
  one : ∀ t call t' call', RefreshInFlight c t call →
    RefreshInFlight c t' call' → t = t'
  /-- `refreshPromise` is what is in flight. -/
  promise : ∀ id, c.state.refreshPromise = some id ↔
    ∃ t call, RefreshInFlight c t call ∧ call.id = id
  /-- Whoever waits for a refresh waits for one that is in flight, or has
  ended. -/
  waits : ∀ (t : Nat) (call : Call) (other : Nat) k,
    c.threads[t]? = some ⟨call, .await (.promise other) k⟩ →
      (c.state.settled other).isSome = true ∨
        ∃ u maker, RefreshInFlight c u maker ∧ maker.id = other
  /-- Some call can go on, where random values can come up new. -/
  moves : (∀ token backend, ∃ m, W.fresh m token backend = true) →
    c.idle = false →
      ∃ (t : Nat) (call : Call) (op : FrontOp) (k : _) (m : Moment),
      c.threads[t]? = some ⟨call, .await op k⟩ ∧
        (refreshSystem W).guard call m op c.state = true
  /-- A refresh has one outcome, and it is what the backend has answered its
  call. -/
  outcome : ∀ x ∈ c.log, ∀ id outcome, x.op.settles = some (id, outcome) →
    x.request.id = id ∧
    (∃ y ∈ c.log, y.tid = x.tid ∧ y.op.outcome y.res = some outcome) ∧
    ∀ x' ∈ c.log, ∀ outcome', x'.op.settles = some (id, outcome') →
      outcome' = outcome
  /-- Whoever has joined a refresh has seen its outcome. -/
  seen : ∀ x ∈ c.log, ∀ id outcome, x.op.awaited x.res = some (id, outcome) →
    ∃ y ∈ c.log, y.op.settles = some (id, outcome)
  /-- Every call that has ended has ended as it should. -/
  ended : ∀ t call r, c.threads[t]? = some ⟨call, Prog.ofExcept r⟩ →
    Ended W c.log t call r

/--
**One refresh at a time.**  Over every interleaving of any number of
`withRefresh` calls, whatever their fetchers and the backend answer: refreshes
never overlap, `refreshPromise` is set exactly while one is in flight, whoever
has joined one sees how it ends, and each call runs its fetcher again exactly
when the refresh it has joined says so.
-/
theorem single_flight {cookies : Nat → CookieStore} {jar : Option SessionData}
    {backend : β}
    (h : Reachable (refreshSystem W) anyCalls
      { cookies := cookies, jar := jar, backend := backend } c) :
    SingleFlight W c := by
  have hflights := flights_of_reachable (orderly_withRefresh W) h
  constructor
  · intro t call t' call' hin hin'
    obtain ⟨x, hx, rfl, _⟩ := (refreshInFlight_iff h).1 hin
    obtain ⟨y, hy, rfl, _⟩ := (refreshInFlight_iff h).1 hin'
    rw [hflights.one x y hx hy]
  · exact refreshPromise_iff h
  · intro t call other k hth
    exact settled_or_refreshing h hth
  · exact some_call_moves h
  · intro x hx id outcome hsettles
    obtain ⟨hid, hanswer⟩ := settles_own (orderly_withRefresh W) h hx hsettles
    refine ⟨hid, hanswer, ?_⟩
    intro x' hx' outcome' hsettles'
    have hsome := (hflights.settled id outcome).2 ⟨x, hx, hsettles⟩
    have hsome' := (hflights.settled id outcome').2 ⟨x', hx', hsettles'⟩
    exact Option.some.inj (hsome'.symm.trans hsome)
  · intro x hx id outcome hsaw
    exact settles_of_awaited h hx hsaw
  · intro t call r hth
    cases traced_ended h hth with
    | first hfirst hcount _ => exact .inl ⟨hfirst, rfl, hcount⟩
    | @joined response id outcome _ hfirst h401 hjoined hcount =>
        refine .inr ⟨response, id, outcome, hfirst, h401, hjoined.joins, ?_, rfl,
          hcount⟩
        obtain ⟨x, hx, hsettles | hsaw⟩ := hjoined.saw
        · exact ⟨x, (mem_own.1 hx).1, hsettles⟩
        · exact settles_of_awaited h (mem_own.1 hx).1 hsaw

end Run

/-! ## A refresh that throws -/

/-- Access tokens have expired, and the backend cannot be reached. -/
def unreachableBackend : World Unit where
  fetcher _ _ := .ok ⟨401, none, ""⟩
  refresh _ _ s := (.error .network, s)
  fresh _ _ _ := true

/-- The second call joins the refresh of the first, which throws.  The third
comes after it, and refreshes again. -/
def brokenRefresh : List (Tick Moment FetchError Call) :=
  Tick.serve ⟨0, 0⟩ 0 2 { now := 0 } ++ Tick.serve ⟨1, 1⟩ 1 2 { now := 0 } ++
    Tick.answers 0 3 { now := 0 } ++ Tick.answers 1 1 { now := 0 } ++
      Tick.serve ⟨2, 2⟩ 2 2 { now := 0 }

def brokenRun : FrontRun Unit :=
  ((refreshSystem unreachableBackend).schedule anyCalls
    (Config.start { backend := () }) brokenRefresh).get (by decide)

theorem single_flight_of_brokenRun :
    brokenRun.state.refreshPromise = some 2 ∧
      SingleFlight unreachableBackend brokenRun := by
  have hreach : Reachable (refreshSystem unreachableBackend) anyCalls
      { backend := () } brokenRun :=
    Reachable.of_schedule brokenRefresh (by decide) (by decide)
  exact ⟨by decide, single_flight hreach⟩

end Videum.Frontend
