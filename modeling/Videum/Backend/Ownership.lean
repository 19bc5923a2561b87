import Videum.Auth.References
import Videum.Backend.Parts
import Videum.Videos.Columns

/-!
# Whose videos there are

A video is registered by the user whose web token the request presents.  Web
tokens are handed out to users who have signed in, and a user who has signed in
was mailed a token whose row still references the user.  The reference that
`videos.owner_id` makes is therefore never dangling, with or without a foreign
key: the key has nothing to refuse.

## Main results

* `signedIn_of_presents` — who presents a web token has signed in.
* `separate_of_reachable` — the foreign key changes no run.
-/

namespace Videum.Backend

open Videum.Async
open Videum.Common

/-! ## Who gets to a handler -/

/-- The route is for users only. -/
def Request.needsUser : Request → Bool
  | .http _ route => !route.isPublic && !route.isOptional
  | _ => false

/-- The request presents a web token that is signed with the access secret. -/
def Presents (cfg : BackendConfig) (request : Request) (j : Auth.Jwt) : Prop :=
  request.bearer = some j ∧ j.secret = cfg.auth.jwtSecret

variable {cfg : BackendConfig}

/-- The guard of a route for users attaches one. -/
theorem user_of_attached {m : Auth.Moment}
    {authorization : Option Auth.AuthHeader} {route : Route}
    {user : Option Auth.Jwt}
    (hneeds : (Request.http authorization route).needsUser = true)
    (h : attached cfg.auth m authorization route = .ok user) :
    ∃ j, user = some j := by
  obtain ⟨hpublic, hoptional⟩ := (Bool.and_eq_true _ _).mp hneeds
  rw [Bool.not_eq_true'] at hpublic hoptional
  unfold attached at h
  rw [hpublic, hoptional, if_neg Bool.false_ne_true,
    if_neg Bool.false_ne_true] at h
  split at h
  · split at h
    · cases h
      exact ⟨_, rfl⟩
    · cases h
  · cases h

/-- A request for users that waits for an answer presents a web token. -/
theorem presents_of_resume {request : Request} {m : Moment}
    (hneeds : request.needsUser = true)
    (hrunning : ((serve cfg request).resume m).running = true) :
    ∃ j, Presents cfg request j := by
  cases request with
  | http authorization route =>
      change ((respond cfg authorization route).resume m).running = true
        at hrunning
      rw [resume_respond] at hrunning
      cases hattached : attached cfg.auth m.auth authorization route with
      | error e =>
          rw [hattached] at hrunning
          exact nomatch hrunning
      | ok user =>
          obtain ⟨j, rfl⟩ := user_of_attached hneeds hattached
          exact ⟨j, bearer_of_attached hattached⟩
  | _ => exact nomatch hneeds

section Runs

variable {P : BackendPolicy} {s₀ : Store} {c c' : BackendRun}

theorem presents_of_running (h : Reachable (separateSystem cfg) P s₀ c)
    {t : Nat} {th : BackendThread} (hth : c.threads[t]? = some th)
    (hneeds : th.request.needsUser = true)
    (hrunning : th.prog.running = true) : ∃ j, Presents cfg th.request j := by
  revert hneeds hrunning
  apply Reachable.thread_induct (Q := fun th => th.request.needsUser = true →
    th.prog.running = true → ∃ j, Presents cfg th.request j) ?_ ?_ h hth
  · exact fun _ _ _ _ hneeds hrunning => presents_of_resume hneeds hrunning
  · exact fun _ _ _ _ _ hpresents hneeds _ => hpresents hneeds rfl

/-- What is handed out stays so. -/
theorem HandedOut.step (hstep : Step (separateSystem cfg) P c c')
    {token : Auth.RawToken} (h : HandedOut c.threads token) :
    HandedOut c'.threads token := by
  obtain ⟨th, hth, pair, hreply, htoken⟩ := h
  obtain ⟨t, ht⟩ := List.getElem?_of_mem hth
  have hended : th.prog.running = false := by
    rw [hreply]
    rfl
  exact ⟨th, List.mem_of_getElem? (hstep.ended_stable ht hended), pair, hreply,
    htoken⟩

/-- The web token a request presents was handed out before. -/
theorem handedOut_of_presents
    (h : Reachable (separateSystem cfg) (unforged cfg) s₀ c) {t : Nat}
    {th : BackendThread} (hth : c.threads[t]? = some th) {j : Auth.Jwt}
    (hpresents : Presents cfg th.request j) :
    HandedOut c.threads (.jwt j) := by
  induction h generalizing t th with
  | refl => exact nomatch hth
  | @tail b c hb hstep ih =>
      apply HandedOut.step hstep
      cases hstep with
      | spawn request m haccept =>
          rcases System.thread_of_spawn hth with hold | ⟨_, rfl⟩
          · exact ih hold hpresents
          · exact haccept j hpresents.1 hpresents.2
      | perform m fault hthread _ _ =>
          rcases System.thread_of_perform hthread hth with ⟨_, hold⟩ | ⟨_, rfl⟩
          · exact ih hold hpresents
          · exact ih hthread hpresents

/-! ## Who has signed in -/

/-- The calls of `AuthService` in a run of the backend. -/
def authLog (cfg : BackendConfig) (log : BackendLog) : Auth.AuthLog :=
  (authPart cfg).log log

theorem auth_of_reachable
    (h : Reachable (separateSystem cfg) (unforged cfg) {} c) :
    ∃ a : Auth.AuthRun, Reachable (Auth.authSystem cfg.auth) Auth.anyRun {} a ∧
      (authPart cfg).Projects c a ∧ a.state = c.state.auth ∧
      a.log = authLog cfg c.log := by
  obtain ⟨a, ha, hproj⟩ := h.part (authPart cfg)
  exact ⟨a, ha, hproj, hproj.state, hproj.log⟩

/-- What the backend has handed out its part has. -/
theorem handedOut_auth {a : Auth.AuthRun} (hproj : (authPart cfg).Projects c a)
    {token : Auth.RawToken} (h : HandedOut c.threads token) :
    Auth.HandedOut a.threads token := by
  obtain ⟨th, hth, pair, hreply, htoken⟩ := h
  obtain ⟨t, ht⟩ := List.getElem?_of_mem hth
  rcases hproj.threads t th ht with ⟨u, hu, hshows⟩ | ⟨_, huntil⟩
  · obtain ⟨reply, hprog, heq⟩ :=
      (authPart cfg).lift_eq_pure (hshows.prog.symm.trans hreply)
    cases heq
    exact ⟨u, List.mem_of_getElem? hu, pair, hprog, htoken⟩
  · rw [hreply] at huntil
    exact absurd rfl (huntil _)

/-- Who presents a web token has signed in. -/
theorem signedIn_of_presents
    (h : Reachable (separateSystem cfg) (unforged cfg) {} c)
    (hunguessed : Auth.Unguessed (authLog cfg c.log)) {t : Nat}
    {th : BackendThread} (hth : c.threads[t]? = some th) {j : Auth.Jwt}
    (hpresents : Presents cfg th.request j) :
    Auth.SignedIn (authLog cfg c.log) j.claims.sub := by
  obtain ⟨a, ha, hproj, _, hlog⟩ := auth_of_reachable h
  have hhanded := handedOut_auth hproj (handedOut_of_presents h hth hpresents)
  rw [← hlog] at hunguessed ⊢
  exact Auth.signedIn_of_handedOut rfl rfl rfl ha hunguessed hhanded

/-- Who has signed in is a user, and referenced. -/
theorem user_of_signedIn (h : Reachable (separateSystem cfg) (unforged cfg) {} c)
    {userId : Nat} (hsigned : Auth.SignedIn (authLog cfg c.log) userId) :
    c.state.auth.hasUser userId ∧ c.state.auth.referenced userId = true := by
  obtain ⟨a, ha, _, hstate, hlog⟩ := auth_of_reachable h
  have hdistinct : ({} : Auth.Store).verification_tokens.Distinct
      Auth.VerificationToken.token_hash := Auth.distinct_of_empty rfl
  rw [← hlog] at hsigned
  obtain ⟨_, _, older, mid, row, hy, hx, _, _, w, before, hw, hby⟩ := hsigned
  obtain ⟨_, r, u, _, _, hfound, _, _, rfl, _⟩ := hby
  have hwlog : w ∈ a.log :=
    hy.subset (.tail _ (hx.subset (.tail _ (hw.subset (.head _)))))
  obtain ⟨r', hr', hlater⟩ := (Auth.tokens_of_reachable hdistinct ha).1.1.known w
    hwlog r (Auth.AuthOp.knownToken_of_found hfound)
  have howners : Auth.TokenOwners a.state :=
    Auth.tokenOwners_of_reachable hdistinct (fun r hr => nomatch hr) ha
  rw [← hlater.user_id, ← hstate]
  exact ⟨howners r' hr', Auth.referenced_of_token hr'⟩

/-! ## In whose name a row is written -/

/-- A request in a user's name presents a web token of the user. -/
theorem bearer_of_caller {request : Request} {d : Videos.VideoRequest}
    {userId : Nat} (htarget : request.videos = some d)
    (hcaller : d.caller = some userId) :
    request.needsUser = true ∧
      ∃ j, request.bearer = some j ∧ j.claims.sub = userId := by
  cases request with
  | http authorization route =>
      cases route with
      | create dto =>
          obtain ⟨j, hj, rfl⟩ := Option.map_eq_some_iff.1 htarget
          exact ⟨rfl, j, hj, Option.some.inj hcaller⟩
      | complete publicId dto =>
          obtain ⟨j, hj, rfl⟩ := Option.map_eq_some_iff.1 htarget
          exact ⟨rfl, j, hj, Option.some.inj hcaller⟩
      | _ => exact nomatch htarget
  | _ =>
      cases htarget
      exact nomatch hcaller

/-- While it is served, it does so rightly. -/
theorem presents_of_caller (h : Reachable (separateSystem cfg) P s₀ c) {t : Nat}
    {request : Request} {op : BackendIface.Op}
    {k : Except BackendError (BackendIface.Res op) → BackendProg Reply}
    (hthread : c.threads[t]? = some ⟨request, .await op k⟩)
    {d : Videos.VideoRequest} {userId : Nat}
    (htarget : request.videos = some d) (hcaller : d.caller = some userId) :
    ∃ j, Presents cfg request j ∧ j.claims.sub = userId := by
  obtain ⟨hneeds, j, hbearer, hsub⟩ := bearer_of_caller htarget hcaller
  obtain ⟨j', hpresents⟩ := presents_of_running h hthread hneeds rfl
  have heq : j' = j := Option.some.inj (hpresents.1.symm.trans hbearer)
  exact ⟨j', hpresents, by rw [heq, hsub]⟩

/-- A call of the videos is as the service makes it, or a lookup. -/
theorem writesOwn_of_thread
    (h : Reachable (separateSystem cfg) (unforged cfg) s₀ c) {t : Nat}
    {request : Request} {op : Videos.VideoOp}
    {k : Except BackendError op.Res → BackendProg Reply}
    (hthread : c.threads[t]? = some ⟨request, .await ⟨.videos, op⟩ k⟩) :
    (∃ d, request.videos = some d ∧ Videos.WritesOwn d op) ∨
      LooksUp ⟨.videos, op⟩ := by
  obtain ⟨v, hv, hproj⟩ := h.part (videosPart cfg)
  rcases hproj.threads t _ hthread with ⟨u, hu, hshows⟩ | ⟨hop, _⟩
  · obtain ⟨d, p⟩ := u
    obtain ⟨htarget, hprog⟩ := hshows
    have hissues := hv.atCalls (Videos.serve_writesOwn cfg.videos) hu
    cases p with
    | pure a => exact nomatch hprog
    | throw e => exact nomatch hprog
    | ask k₁ => exact nomatch hprog
    | await op₁ k₁ =>
        cases hprog
        exact .inl ⟨d, htarget, hissues.1⟩
  · exact .inr (hop.resolve_left nofun).2

/-! ## The owners -/

theorem authLog_suffix {old new : BackendLog} (h : old <:+ new) :
    authLog cfg old <:+ authLog cfg new :=
  List.IsSuffix.filterMap _ h

theorem unguessed_suffix {old new : BackendLog}
    (hunguessed : Auth.Unguessed (authLog cfg new)) (h : old <:+ new) :
    Auth.Unguessed (authLog cfg old) :=
  Throughout.suffix hunguessed (authLog_suffix h)

theorem signedIn_of_caller
    (h : Reachable (separateSystem cfg) (unforged cfg) {} c)
    (hunguessed : Auth.Unguessed (authLog cfg c.log)) {t : Nat}
    {request : Request} {op : BackendIface.Op}
    {k : Except BackendError (BackendIface.Res op) → BackendProg Reply}
    (hthread : c.threads[t]? = some ⟨request, .await op k⟩)
    {d : Videos.VideoRequest} {userId : Nat}
    (htarget : request.videos = some d) (hcaller : d.caller = some userId) :
    Auth.SignedIn (authLog cfg c.log) userId := by
  obtain ⟨j, hpresents, rfl⟩ := presents_of_caller h hthread htarget hcaller
  exact signedIn_of_presents h hunguessed hthread hpresents

/-- Every video is of somebody who has signed in. -/
theorem owners_signedIn
    (h : Reachable (separateSystem cfg) (unforged cfg) {} c)
    (hunguessed : Auth.Unguessed (authLog cfg c.log)) :
    ∀ r ∈ c.state.videos.videos,
      Auth.SignedIn (authLog cfg c.log) r.owner_id := by
  induction h with
  | refl => exact fun r hr => nomatch hr
  | @tail b b' hb hstep ih =>
      intro r' hr'
      cases hstep with
      | spawn request m _ => exact ih hunguessed r' hr'
      | @perform t request op k m fault hthread _ _ =>
          have hs : b.log <:+
              ((separateSystem cfg).perform b t request m op k fault).log :=
            List.suffix_cons _ _
          have hunguessed_b := unguessed_suffix hunguessed hs
          have hold : r' ∈ b.state.videos.videos →
              Auth.SignedIn (authLog cfg ((separateSystem cfg).perform b t
                request m op k fault).log) r'.owner_id :=
            fun hr => (ih hunguessed_b r' hr).mono (authLog_suffix hs)
          cases fault with
          | some e => exact hold hr'
          | none =>
              obtain ⟨i, op⟩ := op
              cases i with
              | auth => exact hold hr'
              | videos =>
                  rcases writesOwn_of_thread hb hthread with
                    ⟨d, htarget, hop⟩ | hlooks
                  · rcases Videos.owner_exec hop r' hr' with
                      ⟨r, hr, howner⟩ | hcaller
                    · rw [← howner]
                      exact (ih hunguessed_b r hr).mono (authLog_suffix hs)
                    · exact (signedIn_of_caller hb hunguessed_b hthread htarget
                        hcaller).mono (authLog_suffix hs)
                  · cases op with
                    | findVideoByPublicId publicId => exact hold hr'
                    | _ => exact hlooks.elim

/-! ## The foreign key -/

/-- The key refuses nothing that is not refused without it. -/
theorem exec_of_reachable
    (h : Reachable (separateSystem cfg) (unforged cfg) {} c)
    (hunguessed : Auth.Unguessed (authLog cfg c.log)) {t : Nat}
    {request : Request} {op : BackendIface.Op}
    {k : Except BackendError (BackendIface.Res op) → BackendProg Reply}
    (hthread : c.threads[t]? = some ⟨request, .await op k⟩) (m : Moment) :
    Store.exec m op c.state = Store.execApart m op c.state := by
  unfold Store.exec
  split
  · next hrefused =>
      obtain ⟨i, op⟩ := op
      cases i with
      | auth =>
          cases op with
          | deleteUser id =>
              obtain ⟨r, hr, howner⟩ := List.any_eq_true.1 hrefused
              rw [beq_iff_eq] at howner
              obtain ⟨_, href⟩ :=
                user_of_signedIn h (owners_signedIn h hunguessed r hr)
              rw [howner] at href
              simp only [Store.execApart, Auth.Store.exec,
                Auth.Store.deleteUser, href, if_true]
              rfl
          | _ => cases hrefused
      | videos =>
          cases op with
          | insertVideo v =>
              obtain ⟨d, htarget, hcaller⟩ :=
                (writesOwn_of_thread h hthread).resolve_right id
              obtain ⟨huser, _⟩ := user_of_signedIn h
                (signedIn_of_caller h hunguessed hthread htarget hcaller)
              obtain ⟨u, hu⟩ := Auth.Store.hasUser_iff.1 huser
              change (c.state.auth.userById v.owner_id).isNone = true
                at hrefused
              rw [hu] at hrefused
              cases hrefused
          | _ => cases hrefused
  · rfl

/-- The foreign key changes no run. -/
theorem separate_of_reachable
    (h : Reachable (backendSystem cfg) (unforged cfg) {} c)
    (hunguessed : Auth.Unguessed (authLog cfg c.log)) :
    Reachable (separateSystem cfg) (unforged cfg) {} c := by
  have hshort : ∀ x log, Auth.Unguessed (authLog cfg (x :: log)) →
      Auth.Unguessed (authLog cfg log) :=
    fun x log hlog => unguessed_suffix hlog (List.suffix_cons x log)
  apply h.of_agrees (S := separateSystem cfg)
    (Φ := fun log => Auth.Unguessed (authLog cfg log))
    hunguessed hshort rfl (fun _ _ _ _ hguard => hguard)
  intro b t request m op k hb hlog hthread
  exact exec_of_reachable hb hlog hthread m

/-- What a request to the API asks of the videos it asks in a user's name. -/
theorem caller_of_http {authorization : Option Auth.AuthHeader} {route : Route}
    {d : Videos.VideoRequest}
    (h : (Request.http authorization route).videos = some d) :
    ∃ userId, d.caller = some userId := by
  cases route with
  | create dto =>
      obtain ⟨j, _, rfl⟩ := Option.map_eq_some_iff.1 h
      exact ⟨_, rfl⟩
  | complete publicId dto =>
      obtain ⟨j, _, rfl⟩ := Option.map_eq_some_iff.1 h
      exact ⟨_, rfl⟩
  | _ => exact nomatch h

/-- A row that an answer to a request to the API adds or changes is its
caller's. -/
theorem caller_of_written
    (h : Reachable (separateSystem cfg) (unforged cfg) s₀ c) {t : Nat}
    {authorization : Option Auth.AuthHeader} {route : Route}
    {op : BackendIface.Op}
    {k : Except BackendError (BackendIface.Res op) → BackendProg Reply}
    (hthread : c.threads[t]? = some ⟨.http authorization route, .await op k⟩)
    {m : Moment} {fault : Option BackendError} {r : Videos.Video}
    (hr : r ∈ ((separateSystem cfg).answer m op fault
      c.state).2.videos.videos)
    (hnew : r ∉ c.state.videos.videos) :
    ∃ d, (Request.http authorization route).videos = some d ∧
      d.caller = some r.owner_id := by
  cases fault with
  | some e => exact absurd hr hnew
  | none =>
      obtain ⟨i, op⟩ := op
      cases i with
      | auth => exact absurd hr hnew
      | videos =>
          rcases writesOwn_of_thread h hthread with ⟨d, htarget, hop⟩ | hlooks
          · obtain ⟨userId, hcaller⟩ := caller_of_http htarget
            have howner := (Videos.rows_of_caller hcaller hop r hr).resolve_left
              hnew
            exact ⟨d, htarget, by rw [howner, hcaller]⟩
          · cases op with
            | findVideoByPublicId publicId => exact absurd hr hnew
            | _ => exact hlooks.elim

/-! ## The whole backend -/

/-- **The backend is its two parts.**  Over every interleaving of all requests
to the API, sweeps and jobs, whatever fails, where nobody guesses a token or
forges a web token: what the backend does to the tables of `AuthService` is a
run of `authSystem`, and what it does to the videos a run of `videoSystem`,
with the same calls and replies; and the foreign key of `videos.owner_id`
changes no answer. -/
theorem backend_of_parts
    (h : Reachable (backendSystem cfg) (unforged cfg) {} c)
    (hunguessed : Auth.Unguessed (authLog cfg c.log)) :
    (∃ a, Reachable (Auth.authSystem cfg.auth) Auth.anyRun {} a ∧
      (authPart cfg).Projects c a) ∧
    (∃ v, Reachable (Videos.videoSystem cfg.videos) Videos.anyRun {} v ∧
      (videosPart cfg).Projects c v) ∧
    ∀ x ∈ c.log, Store.exec x.amb x.op x.before =
      Store.execApart x.amb x.op x.before := by
  have hseparate := separate_of_reachable h hunguessed
  refine ⟨hseparate.part (authPart cfg), hseparate.part (videosPart cfg), ?_⟩
  intro x hx
  obtain ⟨older, hs⟩ := older_of_mem hx
  obtain ⟨b, fault, k, hb, hlog, hat, _⟩ := hseparate.split_at hs
  have hunguessed_b : Auth.Unguessed (authLog cfg b.log) := by
    rw [hlog]
    exact unguessed_suffix hunguessed ((List.suffix_cons x older).trans hs)
  rw [hat.before_eq]
  exact exec_of_reachable hb hunguessed_b hat.thread x.amb

/-- **Every video is somebody's.**  In every such run the owner of every video
is a user in the table who has signed in, after confirming the address with a
token that was mailed to it. -/
theorem videos_owned (h : Reachable (backendSystem cfg) (unforged cfg) {} c)
    (hunguessed : Auth.Unguessed (authLog cfg c.log)) {r : Videos.Video}
    (hr : r ∈ c.state.videos.videos) :
    (∃ u ∈ c.state.auth.users.rows, u.id = r.owner_id) ∧
      Auth.SignedIn (authLog cfg c.log) r.owner_id := by
  have hseparate := separate_of_reachable h hunguessed
  have hsigned := owners_signedIn hseparate hunguessed r hr
  exact ⟨(user_of_signedIn hseparate hsigned).1, hsigned⟩

/-- **Only the owner writes.**  In every such run, a row that an answer to a
request to the API adds or changes is of the user whose web token the request
presents; the token was handed out, to a user who has signed in. -/
theorem written_by_owner (h : Reachable (backendSystem cfg) (unforged cfg) {} c)
    (hunguessed : Auth.Unguessed (authLog cfg c.log)) {x : BackendEntry}
    (hx : x ∈ c.log) {authorization : Option Auth.AuthHeader} {route : Route}
    (hrequest : x.request = .http authorization route) {r : Videos.Video}
    (hr : r ∈ x.after.videos.videos) (hnew : r ∉ x.before.videos.videos) :
    ∃ j, Presents cfg x.request j ∧ j.claims.sub = r.owner_id ∧
      HandedOut c.threads (.jwt j) ∧
      Auth.SignedIn (authLog cfg c.log) j.claims.sub := by
  have hseparate := separate_of_reachable h hunguessed
  obtain ⟨b, fault, k, hb, hthread, _, _, heq, _⟩ := hseparate.entry_config hx
  rw [heq] at hr hnew
  rw [hrequest] at hthread hr
  obtain ⟨d, htarget, hcaller⟩ := caller_of_written hb hthread hr hnew
  obtain ⟨j, hpresents, hsub⟩ := presents_of_caller hb hthread htarget hcaller
  obtain ⟨th, hth, hsame⟩ := hseparate.logOwned x hx
  rw [← hrequest, ← hsame] at hpresents
  rw [← hsame]
  exact ⟨j, hpresents, hsub, handedOut_of_presents hseparate hth hpresents,
    signedIn_of_presents hseparate hunguessed hth hpresents⟩

end Runs

/-! ## A user's first video -/

def sampleBackend : BackendConfig where
  auth := Auth.sampleConfig
  videos := { partSize_pos := Videos.defaultPartSize_pos }

/-- A moment in which nobody is throttled. -/
def momentAt (m : Auth.Moment) : Moment where
  auth := m
  videos := { now := m.now, publicId := "v" }
  one_clock := rfl

theorem length_register : 8 ≤ "correctpassword".length ∧
    "correctpassword".length ≤ 128 := by decide

theorem length_login : 1 ≤ "correctpassword".length := by decide

/-- A user registers, confirms the address and signs in. -/
def signingIn : List (Tick Moment BackendError Request) :=
  Tick.serve (.http none (.register
      ⟨Auth.sampleEmail, "correctpassword", length_register⟩)) 0 7
      (momentAt { bytes := 7 }) ++
    Tick.serve (.http none (.confirmEmail (.hex 7))) 1 3
      (momentAt { now := 1000 }) ++
    Tick.serve (.http none (.login
      ⟨Auth.sampleEmail, "correctpassword", length_login⟩)) 2 3
      (momentAt { now := 2000, family := 1, jti := 1 })

def signedInUser : BackendRun :=
  ((backendSystem sampleBackend).schedule (unforged sampleBackend)
    (Config.start {}) signingIn).get (by decide)

/-- The user presents the access token and drafts a video. -/
def creatingVideo : Request :=
  .http (some (.bearer (.jwt Auth.sampleAccessToken)))
    (.create Videos.sampleDraft)

def ownedVideo : BackendRun :=
  ((backendSystem sampleBackend).schedule (unforged sampleBackend) signedInUser
    (Tick.serve creatingVideo 3 3 (momentAt { now := 3000 }))).get (by decide)

/-- Who presents no web token is let in. -/
theorem accepts_of_anonymous {cfg : BackendConfig} {c : BackendRun}
    (route : Route) : (unforged cfg).accepts c (.http none route) :=
  fun _ hbearer => nomatch hbearer

theorem reachable_signedInUser :
    Reachable (backendSystem sampleBackend) (unforged sampleBackend) {}
      signedInUser := by
  apply Reachable.of_schedule
  apply System.admitted_of_forall
  intro c request amb hmem
  simp only [signingIn, Tick.serve, Tick.answers, List.cons_append,
    List.mem_cons, List.mem_append, List.mem_replicate, Tick.spawn.injEq,
    reduceCtorEq, and_false, false_or, or_false] at hmem
  rcases hmem with ⟨rfl, _⟩ | ⟨rfl, _⟩ | ⟨rfl, _⟩
  · exact accepts_of_anonymous _
  · exact accepts_of_anonymous _
  · exact accepts_of_anonymous _

theorem reachable_ownedVideo :
    Reachable (backendSystem sampleBackend) (unforged sampleBackend) {}
      ownedVideo := by
  apply reachable_signedInUser.steps
  apply Steps.of_schedule _ (Option.some_get _).symm
  refine ⟨?_, fun c _ => System.admitted_of_forall _ ?_ c⟩
  · rintro j ⟨⟩ _
    exact ⟨⟨_, .pure (.auth (.tokens ⟨.jwt Auth.sampleAccessToken,
      Auth.sampleToken 1 1 2000⟩))⟩, .tail _ (.tail _ (.head _)), _, rfl,
      .inl rfl⟩
  · intro c request amb hmem
    exact nomatch (List.mem_replicate.1 hmem).2

theorem backend_of_parts_of_ownedVideo :
    (∃ a, Reachable (Auth.authSystem sampleBackend.auth) Auth.anyRun {} a ∧
      (authPart sampleBackend).Projects ownedVideo a) ∧
    (∃ v, Reachable (Videos.videoSystem sampleBackend.videos) Videos.anyRun {}
      v ∧ (videosPart sampleBackend).Projects ownedVideo v) ∧
    ∀ x ∈ ownedVideo.log, Store.exec x.amb x.op x.before =
      Store.execApart x.amb x.op x.before :=
  backend_of_parts reachable_ownedVideo (by decide)

theorem videos_owned_of_ownedVideo :
    ∃ r ∈ ownedVideo.state.videos.videos,
      (∃ u ∈ ownedVideo.state.auth.users.rows, u.id = r.owner_id) ∧
        Auth.SignedIn (authLog sampleBackend ownedVideo.log) r.owner_id := by
  have hr := List.head_mem (l := ownedVideo.state.videos.videos) (by decide)
  exact ⟨_, hr, videos_owned reachable_ownedVideo (by decide) hr⟩

theorem written_by_owner_of_ownedVideo :
    ∃ x ∈ ownedVideo.log, ∃ r ∈ x.after.videos.videos,
      ∃ j, Presents sampleBackend x.request j ∧ j.claims.sub = r.owner_id ∧
        HandedOut ownedVideo.threads (.jwt j) ∧
        Auth.SignedIn (authLog sampleBackend ownedVideo.log) j.claims.sub := by
  have hx := List.head_mem (l := ownedVideo.log) (by decide)
  have hr := List.head_mem
    (l := (ownedVideo.log.head (by decide)).after.videos.videos) (by decide)
  exact ⟨_, hx, _, hr, written_by_owner reachable_ownedVideo (by decide) hx rfl
    hr (by decide)⟩

end Videum.Backend
