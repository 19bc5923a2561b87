import Videum.Async.Traces
import Videum.Auth.Consumption
import Videum.Auth.Registration

/-!
# A new link and the old ones

`forgotPassword` and `resendConfirmation` mark the user's unused tokens used
and then insert a new one, in two statements.  Two such calls may both have
done the first before either does the second, and then both their tokens can
be used.  This module says when a new link kills the old ones, over every
interleaving and whatever fails.

## Main results

* `serve_follows` — a token is stored directly after its own call has
  invalidated those before it, unless a `register` stores it.
* `unused_since` — so a token that is still unused was stored in between.
* `links_superseded` — when no token is stored in between, older links are
  refused, and one token at most is unused.
* `oldLink_accepted` — two forgotten passwords at once leave two links.
-/

namespace Videum.Auth

open Videum.Async
open Videum.Common

/-! ## What is stored after what -/

/-- The call has marked the tokens of this user and type used. -/
def invalidates (userId : Nat) (type : VerificationTokenType) (x : AuthEntry) :
    Prop :=
  x.res.isOk = true ∧
    ∃ usedAt, x.op = .invalidateVerificationTokens userId type usedAt

/-- A call that is no `register` stores a token directly after it has
invalidated the tokens of the same user and type. -/
def Reissuing (request : AuthRequest) (mine : AuthLog) : AuthOp → Prop
  | .insertVerificationToken v => request.registers = false →
      ∃ y rest, mine = y :: rest ∧ invalidates v.user_id v.type y
  | _ => True

/-- The token was stored by another call after this one had last been
answered. -/
def PairInterrupted (x : AuthEntry) (older : AuthLog) : Prop :=
  ∃ v ∈ x.op.addedToken x.res, ∃ y ∈ since x.tid older,
    ∃ w ∈ y.op.addedToken y.res, w.user_id = v.user_id ∧ w.type = v.type

instance (x : AuthEntry) (older : AuthLog) :
    Decidable (PairInterrupted x older) :=
  inferInstanceAs (Decidable (∃ v ∈ x.op.addedToken x.res,
    ∃ y ∈ since x.tid older, ∃ w ∈ y.op.addedToken y.res,
      w.user_id = v.user_id ∧ w.type = v.type))

/-- Between the two statements of a call nobody else stores a token of the
same user and type. -/
abbrev PairsInTurn (log : AuthLog) : Prop :=
  Throughout (fun x older => ¬ PairInterrupted x older) log

section Follow

variable {cfg : AuthConfig} {P : AuthPolicy} {t : Nat} {request : AuthRequest}

theorem mailToken_follows {user : UserEntity} {channel? : Option Channel}
    {type : VerificationTokenType} {expirationHours : Int}
    {send : String → String → RawToken → AuthProg Unit}
    (hsend : ∀ email name token,
      (send email name token).Issues fun op : AuthOp =>
        ∃ mail, op = .sendMail mail)
    {amb : Moment} {mine : AuthLog} :
    follows (authSystem cfg) P (Reissuing request) t request
      (fun _ _ => True)
      (mailToken user channel? type expirationHours send) amb mine := by
  show follows (authSystem cfg) P (Reissuing request) t request
    (fun _ _ => True) (await (.invalidateVerificationTokens user.id type
      amb.now) >>= _) amb mine
  apply follows_call trivial
  · exact fun _ _ _ _ _ _ => trivial
  · intro amb₁ s₁ _ _ hexec₁
    rw [createVerificationToken_bind, follows]
    apply follows_call
    · exact fun _ => ⟨_, mine, rfl, rfl, amb.now, rfl⟩
    · exact fun _ _ _ _ _ _ => trivial
    · intro amb₂ s₂ _ _ _
      cases channel? with
      | none => trivial
      | some channel =>
          apply follows_of_issues (hsend _ _ _)
          rintro newer op ⟨mail, rfl⟩
          trivial

/-- Whatever is served, tokens are stored as `Reissuing` says. -/
theorem serve_follows (t : Nat) (request : AuthRequest) (amb : Moment) :
    follows (authSystem cfg) P (Reissuing request) t request
      (fun _ _ => True) (serve cfg request) amb [] := by
  have hother : (∀ v, request.MayCall (.insertVerificationToken v) →
      request.registers = true) →
      follows (authSystem cfg) P (Reissuing request) t request
        (fun _ _ => True) (serve cfg request) amb [] := by
    intro hmay
    apply follows_of_issues (serve_mayCall cfg request)
    intro newer op hop
    cases op with
    | insertVerificationToken v =>
        intro hrequest
        rw [hmay v hop] at hrequest
        exact nomatch hrequest
    | _ => trivial
  cases request with
  | forgotPassword email =>
      have hforgot : follows (authSystem cfg) P
          (Reissuing (.forgotPassword email)) t (.forgotPassword email)
          (fun _ _ => True) (forgotPassword cfg email) amb [] := by
        apply follows_call trivial
        · exact fun _ _ _ _ _ _ => trivial
        · intro amb₁ s found _ _
          cases found with
          | none => trivial
          | some found =>
              apply mailToken_follows
              intro email name token
              exact Prog.Issues.call ⟨_, rfl⟩
      exact follows_map hforgot (fun _ _ _ => trivial) fun _ _ _ => trivial
  | resendConfirmation email =>
      have hresend : follows (authSystem cfg) P
          (Reissuing (.resendConfirmation email)) t (.resendConfirmation email)
          (fun _ _ => True) (resendConfirmation cfg email) amb [] := by
        apply follows_call trivial
        · exact fun _ _ _ _ _ _ => trivial
        · intro amb₁ s found _ _
          cases found with
          | none => trivial
          | some found =>
              obtain ⟨user, channel?⟩ := found
              dsimp only
              split
              · trivial
              · apply mailToken_follows
                intro email name token
                exact Prog.Issues.call ⟨_, rfl⟩
      exact follows_map hresend (fun _ _ _ => trivial) fun _ _ _ => trivial
  | register dto => exact hother fun _ _ => rfl
  | _ => exact hother fun _ h => h.elim

end Follow

/-! ## What is left unused -/

/-- The token may still be used. -/
def IsUnused (userId : Nat) (type : VerificationTokenType)
    (r : VerificationToken) : Prop :=
  r.user_id = userId ∧ r.type = type ∧ r.used_at = none

instance (userId : Nat) (type : VerificationTokenType)
    (r : VerificationToken) : Decidable (IsUnused userId type r) :=
  inferInstanceAs (Decidable (_ ∧ _ ∧ _))

theorem IsUnused.of_later {userId : Nat} {type : VerificationTokenType}
    {r r' : VerificationToken} (h : IsUnused userId type r')
    (hlater : r.Later r') : IsUnused userId type r :=
  ⟨hlater.user_id.symm.trans h.1, hlater.type.symm.trans h.2.1,
    hlater.unused h.2.2⟩

/-- At most one token of the user and type may still be used. -/
def OneUnused (s : Store) (userId : Nat) (type : VerificationTokenType) :
    Prop :=
  ∀ a ∈ s.verification_tokens.rows, IsUnused userId type a →
    ∀ b ∈ s.verification_tokens.rows, IsUnused userId type b → a = b

instance (s : Store) (userId : Nat) (type : VerificationTokenType) :
    Decidable (OneUnused s userId type) :=
  inferInstanceAs (Decidable (∀ a ∈ s.verification_tokens.rows,
    IsUnused userId type a → ∀ b ∈ s.verification_tokens.rows,
      IsUnused userId type b → a = b))

theorem not_unused_of_invalidate {s : Store} {userId : Nat}
    {type : VerificationTokenType} {usedAt : Int} {r : VerificationToken}
    (hr : r ∈ (s.invalidateVerificationTokens userId type
      usedAt).verification_tokens.rows) : ¬ IsUnused userId type r := by
  obtain ⟨r₀, _, rfl⟩ := List.mem_map.1 hr
  intro hunused
  obtain ⟨huser, htype, _⟩ := hunused.of_later (.ite _ usedAt r₀)
  have hnone := hunused.2.2
  rw [if_pos ⟨huser, htype⟩] at hnone
  cases hused : r₀.used_at with
  | none => simp [VerificationToken.use, hused] at hnone
  | some usedAt₀ => simp [VerificationToken.use, hused] at hnone

section Runs

variable {cfg : AuthConfig} {P : AuthPolicy} {s₀ : Store} {c c' : AuthRun}

/-- A token that is still unused when a call stores its own was stored after
that call had invalidated those before. -/
theorem unused_since
    (hstart : s₀.verification_tokens.Distinct VerificationToken.token_hash)
    (h : Reachable (authSystem cfg) P s₀ c) {x : AuthEntry} {older : AuthLog}
    (hx : (x :: older) <:+ c.log) {v : NewVerificationToken}
    (hv : x.op.addedToken x.res = some v)
    (hrequest : x.request.registers = false) {r : VerificationToken}
    (hr : r ∈ x.before.verification_tokens.rows)
    (hunused : IsUnused v.user_id v.type r) :
    ∃ y ∈ since x.tid older, ∃ w, y.op.addedToken y.res = some w ∧
      r.IssuedAs w := by
  have hlaw := (h.follows serve_follows).1 x older hx
  rw [AuthOp.eq_of_addedToken hv] at hlaw
  obtain ⟨y, rest, hown, hok, usedAt, hop⟩ := hlaw hrequest
  obtain ⟨oldest, hlog⟩ := log_eq_since hown
  -- the configuration the call had been answered in
  obtain ⟨b, fault, k, hb, rfl, hat, _⟩ := h.split_at hx
  have hy : (y :: oldest) <:+ b.log := ⟨since x.tid b.log, hlog.symm⟩
  obtain ⟨a, fault', k', ha, rfl, hat', hab⟩ := hb.split_at hy
  rw [hat.before_eq] at hr
  obtain ⟨_, newer, hnewer, horigin⟩ :=
    tokens_steps hstart (ha.tail hat'.step) hab
  rw [hat'.log_eq] at hnewer
  have hsince : newer = since x.tid b.log :=
    List.append_cancel_right (hnewer.symm.trans hlog)
  rw [← hsince]
  rcases horigin r hr with ⟨r₀, hr₀, hlater⟩ | hissued
  · have hylog : y ∈ c.log := hx.subset (.tail _ (hy.subset (.head _)))
    rw [hat'.state_eq, (h.entry_exec_of_ok hylog hok).2, hop] at hr₀
    exact absurd (hunused.of_later hlater) (not_unused_of_invalidate hr₀)
  · exact hissued

/-- Thread `t` has found no unused token, and it has not returned. -/
def Unaccepted (c : AuthRun) (t : Nat) : Prop :=
  (∀ y ∈ own t c.log, y.op.foundToken y.res = none) ∧
    ∀ th reply, c.threads[t]? = some th → th.prog ≠ .pure reply

/-- A call does not find a token that was used before it arrived. -/
theorem unaccepted_of_used
    (hstart : s₀.verification_tokens.Distinct VerificationToken.token_hash)
    (h : Reachable (authSystem cfg) P s₀ c)
    (hsteps : Steps (authSystem cfg) P c c') {t : Nat} {th : AuthThread}
    (ht : c.threads.length ≤ t) (hth : c'.threads[t]? = some th)
    {r : VerificationToken} (hr : r ∈ c.state.verification_tokens.rows)
    (hused : r.used_at ≠ none)
    (hpresents : th.request.consumed.map hashToken = some r.token_hash) :
    Unaccepted c' t := by
  have hc' := h.steps hsteps
  have hunread : ∀ y ∈ own t c'.log, y.op.foundToken y.res = none := by
    intro y hy
    obtain ⟨hylog, rfl⟩ := mem_own.1 hy
    rw [Option.eq_none_iff_forall_ne_some]
    rintro ⟨r', u⟩ hfound
    obtain ⟨raw, hconsumes, hhash, hunused, hmem, _⟩ :=
      foundToken_before hstart hc' hylog hfound
    obtain ⟨older, hs⟩ := older_of_mem hylog
    rcases Steps.split_at hsteps hs with hold | ⟨b, fault, k, hb, _, hat, _⟩
    · have hlt := h.logOwned.tid_lt (hold.subset (.head _))
      omega
    · obtain ⟨r'', hr'', hlater⟩ := (tokens_steps hstart h hb).1 r hr
      rw [hat.before_eq] at hmem
      have hdigest : r.token_hash = hashToken raw := by
        rw [← hc'.logOwned.request_of_thread hylog hth] at hpresents
        unfold AuthRequest.consumed at hpresents
        rw [hconsumes] at hpresents
        exact (Option.some.inj hpresents).symm
      have heq : r'' = r' := by
        apply (tokens_of_reachable hstart (h.steps hb)).1.1.hashes r'' hr'' r'
          hmem
        rw [hlater.token_hash, hdigest, hhash]
      rw [← heq] at hunused
      exact hused (hlater.unused hunused)
  refine ⟨hunread, ?_⟩
  intro th' reply hth' hreturned
  rw [hth] at hth'
  cases hth'
  obtain ⟨_, mine, hothers, hpost⟩ :=
    ((tokens_of_reachable hstart hc').2 t th hth).returned hreturned
  have hconsumes : th.request.consumes ≠ none := by
    intro hnone
    unfold AuthRequest.consumed at hpresents
    rw [hnone] at hpresents
    exact nomatch hpresents
  obtain ⟨⟨y, hy, r', u, hread⟩, _⟩ := hpost rfl hconsumes
  rw [← hothers.own_eq] at hy
  have hnone := hunread y hy
  rw [hread.found] at hnone
  exact nomatch hnone

/-- No call that starts after `c` accepts a token stored before the one that
the answer `x` has added. -/
def Supersedes (c c' : AuthRun) (x : AuthEntry) : Prop :=
  ∀ v, x.op.addedToken x.res = some v →
    ∀ r ∈ x.before.verification_tokens.rows, r.user_id = v.user_id →
      r.type = v.type → ∀ (t : Nat) (th : AuthThread),
        c.threads.length ≤ t → c'.threads[t]? = some th →
        th.request.consumed.map hashToken = some r.token_hash →
          Unaccepted c' t

/-- When no token is stored in between, those there before are used. -/
theorem used_of_inTurn
    (hstart : s₀.verification_tokens.Distinct VerificationToken.token_hash)
    (h : Reachable (authSystem cfg) P s₀ c) {x : AuthEntry} {older : AuthLog}
    (hx : (x :: older) <:+ c.log) (hturn : ¬ PairInterrupted x older)
    {v : NewVerificationToken} (hv : x.op.addedToken x.res = some v)
    (hrequest : x.request.registers = false) {r : VerificationToken}
    (hr : r ∈ x.before.verification_tokens.rows) :
    ¬ IsUnused v.user_id v.type r := by
  intro hunused
  obtain ⟨y, hy, w, hw, hissued⟩ :=
    unused_since hstart h hx hv hrequest hr hunused
  exact hturn ⟨v, hv, y, hy, w, hw, hissued.user_id.symm.trans hunused.1,
    hissued.type.symm.trans hunused.2.1⟩

/-- The answer has added a token of the user and type. -/
def Stores (userId : Nat) (type : VerificationTokenType) (x : AuthEntry) :
    Prop :=
  ∃ v ∈ x.op.addedToken x.res, v.user_id = userId ∧ v.type = type

instance (userId : Nat) (type : VerificationTokenType) (x : AuthEntry) :
    Decidable (Stores userId type x) :=
  inferInstanceAs (Decidable (∃ v ∈ x.op.addedToken x.res,
    v.user_id = userId ∧ v.type = type))

theorem not_stores_of_error {userId : Nat} {type : VerificationTokenType}
    {x : AuthEntry} {e : AuthError} (h : x.res = .error e) :
    ¬ Stores userId type x := by
  rintro ⟨v, hv, _⟩
  rw [h, AuthOp.addedToken_error] at hv
  exact nomatch hv

/-- One answer, given that a token is only added when none is unused. -/
theorem OneUnused.answer {userId : Nat} {type : VerificationTokenType}
    {m : Moment} {op : AuthOp} {s : Store} {t : Nat} {request : AuthRequest}
    (hages : Table.Ages VerificationToken.Later
      ((op.addedToken (Store.exec m op s).1).map s.newVerificationToken)
      s.verification_tokens (Store.exec m op s).2.verification_tokens)
    (hadded : Stores userId type ((authSystem cfg).entry t request m op none s)
      → ∀ r ∈ s.verification_tokens.rows, ¬ IsUnused userId type r)
    (hother : ¬ Stores userId type
      ((authSystem cfg).entry t request m op none s) →
        OneUnused s userId type) :
    OneUnused (Store.exec m op s).2 userId type := by
  intro a ha hunused a' ha' hunused'
  have hnew : ∀ r, IsUnused userId type r →
      (op.addedToken (Store.exec m op s).1).map s.newVerificationToken = some r →
        Stores userId type ((authSystem cfg).entry t request m op none s) := by
    intro r hr hsome
    obtain ⟨v, hv, rfl⟩ := Option.map_eq_some_iff.1 hsome
    exact ⟨v, hv, hr.1, hr.2.1⟩
  rcases hages.origin a ha with ⟨r, hr, hlater⟩ | hsome
  · have hold := hunused.of_later hlater
    have hnot : ¬ Stores userId type
        ((authSystem cfg).entry t request m op none s) :=
      fun hstores => hadded hstores r hr hold
    rcases hages.origin a' ha' with ⟨r', hr', hlater'⟩ | hsome'
    · have heq := hother hnot r hr hold r' hr' (hunused'.of_later hlater')
      subst heq
      exact (Store.exec m op s).2.verification_tokens.unique ha ha'
        (hlater.id.trans hlater'.id.symm)
    · exact absurd (hnew a' hunused' hsome') hnot
  · rcases hages.origin a' ha' with ⟨r', hr', hlater'⟩ | hsome'
    · exact absurd (hunused'.of_later hlater')
        (hadded (hnew a hunused hsome) r' hr')
    · exact Option.some.inj (hsome.symm.trans hsome')

/-- When no token is stored in between, one at most is unused: from the start
on, or from the first that is stored. -/
theorem oneUnused_of_reachable
    (hstart : s₀.verification_tokens.Distinct VerificationToken.token_hash)
    (h : Reachable (authSystem cfg) P s₀ c) (userId : Nat)
    (type : VerificationTokenType) :
    PairsInTurn c.log →
    (∀ x ∈ c.log, Stores userId type x → x.request.registers = false) →
    OneUnused s₀ userId type ∨ (∃ x ∈ c.log, Stores userId type x) →
      OneUnused c.state userId type := by
  apply h.answers (fun (s : Store) (log : AuthLog) => PairsInTurn log →
    (∀ x ∈ log, Stores userId type x → x.request.registers = false) →
    OneUnused s₀ userId type ∨ (∃ x ∈ log, Stores userId type x) →
      OneUnused s userId type)
  · rintro - - (hone | ⟨x, hx, _⟩)
    · exact hone
    · exact nomatch hx
  · intro b b' t request m op fault hb hb' hinv _ hlog hturns hreissued hone
    have hlaw : Consuming b.log t request op :=
      (tokens_of_reachable hstart hb').1.2.newest hlog
    have hsuffix : ((authSystem cfg).entry t request m op fault b.state ::
        b.log) <:+ b'.log := ⟨[], hlog.symm⟩
    rw [hlog] at hturns hreissued hone
    have hold : ¬ Stores userId type
        ((authSystem cfg).entry t request m op fault b.state) →
          OneUnused b.state userId type := by
      intro hnot
      apply hinv hturns.2 fun x hx => hreissued x (.tail _ hx)
      apply hone.imp_right
      rintro ⟨x, hx, hstores⟩
      rcases List.mem_cons.1 hx with rfl | hx
      · exact absurd hstores hnot
      · exact ⟨x, hx, hstores⟩
    cases fault with
    | some e => exact hold (not_stores_of_error rfl)
    | none =>
        apply OneUnused.answer
          (tokens_exec m op (hlaw.ages (tokens_of_reachable hstart hb).1.1))
          ?_ hold
        intro hstores r hr
        have hrequest := hreissued _ (.head _) hstores
        obtain ⟨v, hv, rfl, rfl⟩ := hstores
        exact used_of_inTurn hstart hb' hsuffix hturns.1 hv hrequest hr

/--
**A new link kills the old ones.**  In every run in which no token is stored
between the two statements of a call for the same user and type, whatever
else happens and fails: once a `forgotPassword` or a `resendConfirmation` has
stored its token, none stored before it is accepted by a call that starts
later; and one token of the user and type at most is unused.
-/
theorem links_superseded
    (hstart : s₀.verification_tokens.Distinct VerificationToken.token_hash)
    (h : Reachable (authSystem cfg) anyRun s₀ c)
    (hturns : PairsInTurn c.log) :
    (∀ c', Steps (authSystem cfg) anyRun c c' →
      ∀ x ∈ c.log, x.request.registers = false → Supersedes c c' x) ∧
    ∀ userId type,
      (∀ x ∈ c.log, Stores userId type x → x.request.registers = false) →
      OneUnused s₀ userId type ∨ (∃ x ∈ c.log, Stores userId type x) →
        OneUnused c.state userId type := by
  constructor
  · intro c' hsteps x hx hrequest v hv r hr huser htype t th ht hth hpresents
    obtain ⟨older, hs⟩ := older_of_mem hx
    have hused : r.used_at ≠ none := fun hnone =>
      used_of_inTurn hstart h hs (hturns.suffix hs).1 hv hrequest hr
        ⟨huser, htype, hnone⟩
    obtain ⟨b, fault, k, hb, _, hat, hbc⟩ := h.split_at hs
    rw [hat.before_eq] at hr
    obtain ⟨r', hr', hlater⟩ :=
      (tokens_steps hstart hb (.head hat.step hbc)).1 r hr
    apply unaccepted_of_used hstart h hsteps ht hth hr'
    · exact fun hnone => hused (hlater.unused hnone)
    · rw [hlater.token_hash]
      exact hpresents
  · exact fun userId type hreissued hone =>
      oneUnused_of_reachable hstart h userId type hturns hreissued hone

end Runs

/-- Two reset links are mailed, one after the other. -/
def reissued : AuthRun :=
  authRun anyRun channelStore
    (Tick.serve (.forgotPassword sampleEmail) 0 4 { bytes := 7 } ++
      Tick.serve (.forgotPassword sampleEmail) 1 4 { bytes := 8 })
    (by decide)

/-- Then the first is followed. -/
def firstLinkFollowed : AuthRun :=
  authRunFrom anyRun reissued
    (Tick.serve (resetRequest "new password" (by decide)) 2 1 { now := 1000 })
    (by decide)

theorem links_superseded_of_reissued :
    Unaccepted firstLinkFollowed 2 ∧
      OneUnused reissued.state 0 .PASSWORD_RESET := by
  have hreachable : Reachable (authSystem sampleConfig) anyRun channelStore
      reissued :=
    reachable_authRun _ _ (admitted_of_accepts (fun _ _ => trivial) _ _)
  obtain ⟨hlinks, hone⟩ := links_superseded (by decide) hreachable (by decide)
  constructor
  · have hsteps : Steps (authSystem sampleConfig) anyRun reissued
        firstLinkFollowed :=
      steps_authRunFrom _ _ (admitted_of_accepts (fun _ _ => trivial) _ _)
    -- the answer that has added the second token, and the first token
    obtain ⟨x, hx, v, hv, hrequest, r, hr, huser, htype, hhash⟩ :
        ∃ x ∈ reissued.log, ∃ v, x.op.addedToken x.res = some v ∧
          x.request.registers = false ∧
          ∃ r ∈ x.before.verification_tokens.rows, r.user_id = v.user_id ∧
            r.type = v.type ∧ hashToken (.hex 7) = r.token_hash := by
      refine ⟨_, .tail _ (.head _), _, rfl, rfl, _, .head _, rfl, rfl, rfl⟩
    exact hlinks _ hsteps x hx hrequest v hv r hr huser htype 2
      ⟨resetRequest "new password" (by decide), .throw (.domain .InvalidToken)⟩
      (by decide) (by rfl) (congrArg some hhash)
  · apply hone
    · decide
    · exact .inl (by decide)

/-- Two calls at once: both invalidate before either stores its token. -/
def twoLinks : AuthRun :=
  authRun anyRun channelStore
    (Tick.serve (.forgotPassword sampleEmail) 0 2 { bytes := 7 } ++
      Tick.serve (.forgotPassword sampleEmail) 1 2 { bytes := 8 } ++
      Tick.answers 0 2 { now := 0 } ++ Tick.answers 1 2 { now := 0 })
    (by decide)

/-- Then the older link is followed. -/
def olderLinkFollowed : AuthRun :=
  authRunFrom anyRun twoLinks
    (Tick.serve (resetRequest "new password" (by decide)) 2 5 { now := 1000 })
    (by decide)

/-- Both calls have returned and leave two unused tokens, and the one that was
stored first still resets the password. -/
theorem oldLink_accepted :
    Reachable (authSystem sampleConfig) anyRun channelStore twoLinks ∧
    Steps (authSystem sampleConfig) anyRun twoLinks olderLinkFollowed ∧
    twoLinks.threads[1]? = some ⟨.forgotPassword sampleEmail, .pure .done⟩ ∧
    twoLinks.idle = true ∧ ¬ OneUnused twoLinks.state 0 .PASSWORD_RESET ∧
    (∃ x ∈ twoLinks.log, x.tid = 1 ∧ ¬ Supersedes twoLinks olderLinkFollowed x) ∧
    olderLinkFollowed.threads[2]? =
      some ⟨resetRequest "new password" (by decide), .pure .done⟩ := by
  refine ⟨?_, ?_, by rfl, by decide, by decide, ?_, by rfl⟩
  · exact reachable_authRun _ _ (admitted_of_accepts (fun _ _ => trivial) _ _)
  · exact steps_authRunFrom _ _ (admitted_of_accepts (fun _ _ => trivial) _ _)
  · refine ⟨_, .tail _ (.head _), by rfl, ?_⟩
    intro hsupersedes
    have hunaccepted := hsupersedes _ rfl _ (.head _) rfl rfl 2
      ⟨resetRequest "new password" (by decide), .pure .done⟩ (by decide)
      (by rfl) rfl
    exact hunaccepted.2 _ .done (by rfl) rfl

end Videum.Auth
