import Videum.Auth.Grace
import Videum.Frontend.Browser
import Videum.Frontend.SingleFlight

/-!
# The owner of a session and the reuse exception

Whether the browser that owns a session can end in
`TokenReuseDetectedException` with its own tokens, and so revoke its own
family.  A request refreshes with the token of the cookie it was sent with.
Where nobody has presented that token when its 401 is handled, the single
flight of `refreshOnce` keeps it unspent until the request presents it;
otherwise the request has to be there within the grace period.

## Main results

* `honest_of_reachable` — the tokens of the session were live at its start, or
  handed out since.
* `inTime_of_punctual` — a punctual refresh presents no token too late.
* `owner_never_reuses` — when all refreshes are punctual, none ends in the
  reuse exception and every family stays alive.
* `owner_reuses` — a run in which the owner revokes the own family.
-/

namespace Videum.Frontend

open Videum.Async
open Videum.Common
open Videum.Auth

/-! ## The programs -/

section Programs

variable {cfg : AuthConfig} {throttled : Moment → Bool}
  {fetcher : Nat → Nat → Except FetchError Response} {b : Store} {t : Nat}
  {call : Call} {amb : Moment} {log : FrontLog Store}

/-- The program presents and keeps held tokens only. -/
abbrev honest (cfg : AuthConfig) (throttled : Moment → Bool)
    (fetcher : Nat → Nat → Except FetchError Response) (b : Store) (t : Nat)
    (call : Call) {α : Type} (p : FrontProg α) (amb : Moment)
    (log : FrontLog Store) : Prop :=
  wpLaw (browserSystem (backendWorld cfg throttled fetcher)) anyRequests
    (Honest cfg throttled b) (fun _ _ _ op => Presents b op) t call
    (fun _ _ _ => True) p amb log

/-- A program that presents nothing, and sets held tokens only. -/
theorem honest_of_issues {α : Type} {p : FrontProg α}
    (hp : p.Issues (Presents b)) :
    honest cfg throttled fetcher b t call p amb log :=
  wpLaw_of_issues honest_kept (fun _ _ _ => trivial)
    (hp.mono fun _ hop _ => hop)

theorem honest_bind {α β : Type} {p : FrontProg α} {f : α → FrontProg β}
    (hp : honest cfg throttled fetcher b t call p amb log)
    (hf : ∀ a amb log, honest cfg throttled fetcher b t call (f a) amb log) :
    honest cfg throttled fetcher b t call (p >>= f) amb log := by
  apply wp_bind
  apply wp_mono ?_ hp
  intro r amb' log' _
  cases r with
  | ok a => exact hf a amb' log'
  | error e => trivial

theorem honest_outcomeOf {α : Type} {p : FrontProg α}
    (hp : honest cfg throttled fetcher b t call p amb log) :
    honest cfg throttled fetcher b t call (outcomeOf p) amb log := by
  apply wp_tryCatch
  apply wp_mono ?_ (honest_bind hp ?_)
  · intro r amb' log' _
    cases r <;> trivial
  · exact fun _ _ _ => trivial

/-- The answer to the presented token is held, and so is what the session is
set to. -/
theorem tryRefresh_honest (request : Nat) :
    honest cfg throttled fetcher b t call (tryRefresh request) amb log := by
  have herror : ∀ (e : FetchError) (amb : Moment) (log : FrontLog Store),
      True := fun _ _ _ => trivial
  have hdestroySession : (destroySession request).Issues (Presents b) :=
    .bind (.call trivial) fun _ => .call trivial
  rw [tryRefresh_eq]
  apply wpLaw_call honest_kept herror
  · exact fun _ _ => trivial
  · intro log₁ s₁ amb₁ session _ h₁ _ hsession
    have hheld : Held b session.refreshToken := by
      cases hsession
      exact (h₁.cookies request).getD
    apply wpLaw_call honest_kept herror
    · exact fun _ _ => hheld
    · intro log₂ s₂ amb₂ (res : RefreshResponse) _ h₂ hfresh hres
      have hanswered := h₂.answered hheld hfresh hres
      apply honest_of_issues
      apply afterAnswer_cases (C := fun p _ => p.Issues (Presents b))
      · exact hdestroySession.bind fun _ => trivial
      · trivial
      · intro data accessToken refreshToken hbody _ hrefresh
        refine Prog.Issues.bind ?_ fun _ => trivial
        refine .bind (.call trivial) fun _ => .call ?_
        show Held b (some _)
        rw [← truthy_eq_some hrefresh]
        exact hanswered data hbody

theorem refreshOnce_honest :
    honest cfg throttled fetcher b t call (refreshOnce call) amb log := by
  refine honest_bind (honest_of_issues (.call trivial)) ?_
  intro promise? amb₁ log₁
  cases promise? with
  | some other => exact honest_of_issues (.call trivial)
  | none =>
      refine honest_bind (honest_outcomeOf (tryRefresh_honest _)) ?_
      intro outcome amb₂ log₂
      apply honest_of_issues
      exact .bind (.call trivial) fun _ => issues_ofExcept outcome

theorem withRefresh_honest :
    honest cfg throttled fetcher b t call (withRefresh call) amb log := by
  refine honest_bind (honest_of_issues (.call trivial)) ?_
  intro (response : Response) amb₁ log₁
  split
  · trivial
  · refine honest_bind refreshOnce_honest ?_
    intro refreshed amb₂ log₂
    cases refreshed with
    | true => exact honest_of_issues (.call trivial)
    | false => trivial

theorem serveRequest_honest :
    honest cfg throttled fetcher b t call (serveRequest call) amb log := by
  refine honest_bind (honest_of_issues (.call trivial)) ?_
  intro _ amb₁ log₁
  refine honest_bind (honest_outcomeOf withRefresh_honest) ?_
  intro outcome amb₂ log₂
  apply honest_of_issues
  exact .bind (.call trivial) fun _ => issues_ofExcept outcome

/-- A request of the browser makes promises as its `withRefresh` call does. -/
theorem orderly_serveRequest (W : World Store) :
    Orderly W serveRequest anyRequests where
  faultless _ _ := rfl
  named _ _ haccepts th hth := (haccepts th hth).1
  ordered t call amb := by
    refine follows_exec (I := FrontIface) (.send call.request)
      unjoined_nil.not_refreshing (fun _ => rfl) ?_
    rintro m s _ rfl
    have hsent : Unjoined [(browserSystem W).entry t call m
        (.send call.request) none s] :=
      List.forall_mem_singleton.2 ⟨rfl, rfl, rfl⟩
    show follows (browserSystem W) anyRequests (Ordered call) t call
      (fun _ _ => True) (outcomeOf (withRefresh call) >>= _) m _
    apply follows_bind
    apply follows_mono ?_
      (outcomeOf_follows (withRefresh_traced (fun _ _ => rfl) hsent rfl))
    rintro _ mine ⟨outcome, rfl, htrace⟩ m₁
    refine follows_exec (I := FrontIface) (.deliver call.request) htrace.ended
      (fun _ => rfl) ?_
    rintro m₂ s₂ _ rfl
    cases outcome <;> trivial

end Programs

/-! ## Refreshes that come in time -/

/-- No refresh has reached the service with the token. -/
def Unspent (throttled : Moment → Bool) (token : RawToken)
    (log : FrontLog Store) : Prop :=
  ∀ y ∈ log, y.op.reaches throttled y.amb ≠ some token

instance (throttled : Moment → Bool) (token : RawToken)
    (log : FrontLog Store) : Decidable (Unspent throttled token log) :=
  inferInstanceAs (Decidable (∀ y ∈ log, _ ≠ _))

/-- Where `e` is the answer at which thread `t`, after its 401, finds no
refresh in flight, the token is unspent. -/
def BeginsUnspent (throttled : Moment → Bool) (token : RawToken) (t : Nat)
    (before : FrontLog Store) (e : FrontEntry Store) : Prop :=
  e.tid = t → e.op.found e.res = some none → Unspent throttled token before

instance (throttled : Moment → Bool) (token : RawToken) (t : Nat)
    (before : FrontLog Store) (e : FrontEntry Store) :
    Decidable (BeginsUnspent throttled token t before e) :=
  inferInstanceAs (Decidable (_ → _ → _))

/-- The refresh `x` presents a token that was unspent when its request found
no refresh in flight, or that has expired; or it is there within the grace
period of those that have presented the token before. -/
def Punctual (throttled : Moment → Bool) (older : FrontLog Store)
    (x : FrontEntry Store) : Prop :=
  ∀ token ∈ x.op.reaches throttled x.amb,
    x.before.backend.unexpired x.amb token = true →
      AtEach (BeginsUnspent throttled token x.tid) older ∨
        ∀ y ∈ older, y.op.reaches throttled y.amb = some token →
          x.amb.now ≤ y.amb.now + tokenReuseGracePeriodMs

instance (throttled : Moment → Bool) (older : FrontLog Store)
    (x : FrontEntry Store) : Decidable (Punctual throttled older x) :=
  inferInstanceAs (Decidable (∀ token ∈ x.op.reaches throttled x.amb,
    x.before.backend.unexpired x.amb token = true →
      AtEach (BeginsUnspent throttled token x.tid) older ∨
        ∀ y ∈ older, y.op.reaches throttled y.amb = some token →
          x.amb.now ≤ y.amb.now + tokenReuseGracePeriodMs))

theorem presents_of_reaches {throttled : Moment → Bool} {m : Moment}
    {op : FrontOp} {token : RawToken}
    (h : op.reaches throttled m = some token) :
    op.presents.isSome = true := by
  cases op with
  | postRefresh refreshToken => rfl
  | _ => cases h

/-- A punctual refresh presents no token that was exchanged too long ago. -/
theorem inTime_of_punctual {cfg : AuthConfig} {throttled : Moment → Bool}
    {fetcher : Nat → Nat → Except FetchError Response} {b : Store}
    {session : SessionData} {c : FrontRun Store}
    (h : Reachable (browserSystem (backendWorld cfg throttled fetcher))
      anyRequests { jar := some session, backend := b } c)
    {x : FrontEntry Store} {older : FrontLog Store}
    (hx : (x :: older) <:+ c.log) (hpunctual : Punctual throttled older x) :
    InTime throttled x older := by
  intro token htoken hunexpired y hy hexchanges
  have hreaches : y.op.reaches throttled y.amb = some token := by
    simp only [exchanges, Bool.and_eq_true, beq_iff_eq] at hexchanges
    exact hexchanges.1.1
  rcases hpunctual token htoken hunexpired with hunspent | hgrace
  · obtain ⟨e, before, hs, htid, hmade, hmem⟩ :=
      presented_before (orderly_serveRequest _) h hx
        (presents_of_reaches htoken) hy (presents_of_reaches hreaches)
    exact absurd hreaches (hunspent e before hs htid hmade y hmem)
  · exact hgrace y hy hreaches

/-! ## The runs -/

section Runs

variable {cfg : AuthConfig} {throttled : Moment → Bool}
  {fetcher : Nat → Nat → Except FetchError Response} {b : Store}
  {session : SessionData} {c : FrontRun Store}

/-- A session that is logged in, and nothing under way. -/
theorem honest_start (hlive : Held b session.refreshToken) :
    Honest cfg throttled b { jar := some session, backend := b } [] where
  jar := .some hlive
  cookies _ := .none b
  kept _ h := h
  safe _ := by
    refine ⟨?_, fun _ h => h, fun _ hx => absurd hx List.not_mem_nil⟩
    intro r hr revokedAt hrevoked
    refine .inl (Store.revoked_iff.2 ⟨r, hr, rfl, ?_⟩)
    rw [hrevoked]
    exact nofun

theorem honest_of_reachable (hlive : Held b session.refreshToken)
    (h : Reachable (browserSystem (backendWorld cfg throttled fetcher))
      anyRequests { jar := some session, backend := b } c) :
    Honest cfg throttled b c.state c.log :=
  (h.lawful (honest_start hlive) fun _ _ _ _ _ _ => serveRequest_honest).1

/--
**The owner of a session and theft detection.**  In every run of one browser
session, whatever overlaps and whatever the delays: when all refreshes are
punctual, none ends in the reuse exception and no family dies.
-/
theorem owner_never_reuses (cfg : AuthConfig) (throttled : Moment → Bool)
    (fetcher : Nat → Nat → Except FetchError Response)
    (hlive : Held b session.refreshToken)
    (h : Reachable (browserSystem (backendWorld cfg throttled fetcher))
      anyRequests { jar := some session, backend := b } c)
    (hpunctual : AtEach (Punctual throttled) c.log) :
    (∀ x ∈ c.log, ¬ DetectsReuse cfg throttled x) ∧
      ∀ family, b.Alive family → c.state.backend.Alive family := by
  have htimely : Throughout (InTime throttled) c.log :=
    throughout_of_suffix fun x older hx =>
      inTime_of_punctual h hx (hpunctual x older hx)
  have hsafe := (honest_of_reachable hlive h).safe htimely
  exact ⟨hsafe.undetected, hsafe.alive⟩

end Runs

/-! ## One owner

The access tokens of the session have expired.  Two requests overlap: the
first one exchanges the token, the second presents it again five seconds
later and gets it back.  A third request, sent half an hour after, presents
it once more. -/

/-- The session of the login. -/
def ownSession : SessionData where
  accessToken := some (.jwt ⟨"secret", .access 0 sampleEmail, 0, 900⟩)
  refreshToken := some (sampleToken 1 1 0)
  userId := some "0"
  email := some sampleEmail
  isLoggedIn := true

/-- Every request gets its 401 first. -/
def accessExpired (_ attempt : Nat) : Except FetchError Response :=
  if attempt = 0 then .ok ⟨401, none, ""⟩ else .ok ⟨200, none, "page"⟩

def unthrottled (_ : Moment) : Bool := false

/-- The backend after the login, with its browser. -/
abbrev ownSystem : System FrontIface Moment FetchError (Process Store) Call
    Response :=
  browserSystem (backendWorld sampleConfig unthrottled accessExpired)

def ownProcess : Process Store :=
  { jar := some ownSession, backend := loggedIn.state }

def atTime (now : Int) (jti : Nat) : Moment := { now := now, jti := jti }

/-- Two requests sent together, answered one after the other. -/
def twoRequests : List (Tick Moment FetchError Call) :=
  Tick.serve ⟨0, 0⟩ 0 1 (atTime 900000 2) ++
    Tick.serve ⟨1, 1⟩ 1 1 (atTime 900000 2) ++
      Tick.answers 0 9 (atTime 900000 2) ++
        Tick.answers 1 9 (atTime 905000 3)

/-- And the next one, after the access token has expired again. -/
def threeRequests : List (Tick Moment FetchError Call) :=
  twoRequests ++ Tick.serve ⟨2, 2⟩ 2 5 (atTime 1810000 4)

def twoRequestsRun : FrontRun Store :=
  (ownSystem.schedule anyRequests (Config.start ownProcess) twoRequests).get
    (by decide)

def threeRequestsRun : FrontRun Store :=
  (ownSystem.schedule anyRequests (Config.start ownProcess) threeRequests).get
    (by decide)

theorem owner_never_reuses_of_twoRequests :
    (∀ x ∈ twoRequestsRun.log, ¬ DetectsReuse sampleConfig unthrottled x) ∧
      ∀ family, loggedIn.state.Alive family →
        twoRequestsRun.state.backend.Alive family :=
  owner_never_reuses sampleConfig unthrottled accessExpired
    (by rintro token ⟨rfl⟩; decide)
    (Reachable.of_schedule twoRequests (by decide) (by decide)) (by decide)

/-- The owner presents the token that was handed back, and revokes the own
family. -/
theorem owner_reuses :
    ¬ ∀ (cfg : AuthConfig) (throttled : Moment → Bool)
      (fetcher : Nat → Nat → Except FetchError Response) (b : Store)
      (session : SessionData) (c : FrontRun Store),
      Held b session.refreshToken →
      Reachable (browserSystem (backendWorld cfg throttled fetcher))
        anyRequests { jar := some session, backend := b } c →
      (∀ x ∈ c.log, ¬ DetectsReuse cfg throttled x) ∧
        ∀ family, b.Alive family → c.state.backend.Alive family := by
  intro h
  obtain ⟨hnever, _⟩ := h sampleConfig unthrottled accessExpired
    loggedIn.state ownSession threeRequestsRun
    (by rintro token ⟨rfl⟩; decide)
    (Reachable.of_schedule threeRequests (by decide) (by decide))
  refine hnever (threeRequestsRun.log.head (by decide)) (List.head_mem _) ?_
  exact ⟨sampleToken 1 1 0, by decide, by decide⟩

end Videum.Frontend
