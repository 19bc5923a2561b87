import Videum.Auth.Consumption
import Videum.Auth.Ledger

/-!
# Which verification tokens are accepted

A `confirm` or a `resetPassword` accepts a token exactly when the ledger of
`Videum.Auth.Ledger` has it outstanding and it has not expired.

## Main results

* `redeem_alone` — what consuming a token returns, and the tables it leaves.
* `ledger_of_reachable` — an idle process has its ledger in order.
* `acceptance_exact` — when a token is accepted, when it has expired, when it
  is invalid, and that a rejected one changes nothing.
-/

namespace Videum.Auth

open Videum.Async
open Videum.Common

/-- The call looks a verification token up. -/
def AuthOp.LooksTokenUp (op : AuthOp) : Prop :=
  ∃ h type, op = .findVerificationToken h type

/-- Thread `t` has looked a verification token up at time `now`. -/
def TokenLookedUpAt (log : AuthLog) (t : Nat) (now : Int) : Prop :=
  ∃ x ∈ own t log, x.op.LooksTokenUp ∧ x.amb.now = now

/-- What a call that presents a token, and looks it up at moment `m` in state
`s`, returns, and the state it leaves. -/
inductive RedeemOutcome (rawToken : RawToken) (type : VerificationTokenType)
    (m : Moment) (s : Store) : Except AuthError Unit → Store → Prop
  | unknown
      (hfind : s.findVerificationToken (hashToken rawToken) type = none) :
      RedeemOutcome rawToken type m s (.error (.domain .InvalidToken)) s
  | expired {r : VerificationToken} {user : UserEntity}
      (hfind : s.findVerificationToken (hashToken rawToken) type
        = some (r, user))
      (hexpired : r.expires_at < m.now) :
      RedeemOutcome rawToken type m s (.error (.domain .TokenExpired)) s
  | accepted {r : VerificationToken} {user : UserEntity} {s' : Store}
      (hfind : s.findVerificationToken (hashToken rawToken) type
        = some (r, user))
      (hunexpired : ¬ r.expires_at < m.now) :
      RedeemOutcome rawToken type m s (.ok ()) s'

/-- The ledger when a call that presents a token ends, before the call is
counted. -/
def Uncounted (threads : List AuthThread) (rawToken : RawToken)
    (type : VerificationTokenType) (s : Store) (log : AuthLog) :
    Except AuthError Unit → Prop
  | .ok _ =>
      LedgerBut (·.token_hash = hashToken rawToken) threads s log ∧
        ∃ r ∈ s.verification_tokens.rows,
          r.token_hash = hashToken rawToken ∧ r.type = type
  | .error _ => Ledger threads s log

/-- What a call that presents a token ends in, when it runs alone. -/
def RedeemPost (threads : List AuthThread) (t : Nat) (rawToken : RawToken)
    (type : VerificationTokenType) (s : Store)
    (result : Except AuthError Unit) (_ : Moment) (s' : Store)
    (log : AuthLog) : Prop :=
  ∃ x, Sole AuthOp.LooksTokenUp t x log ∧
    RedeemOutcome rawToken type x.amb s result s' ∧
    Uncounted threads rawToken type s' log result

/-! ## Redeeming -/

section Redeeming

variable {cfg : AuthConfig} {threads : List AuthThread} {s : Store}
  {log : AuthLog} {t : Nat} {request : AuthRequest} {amb : Moment}
  {rawToken : RawToken} {type : VerificationTokenType}

/-- The rule for looking a token up and checking its expiry. -/
theorem consume_alone {f : VerificationToken × UserEntity → AuthProg Unit}
    (hown : own t log = []) (h : Ledger threads s log)
    (hf : ∀ x log' r user, Sole AuthOp.LooksTokenUp t x log' →
      Ledger threads s log' →
      s.findVerificationToken (hashToken rawToken) type = some (r, user) →
      ¬ r.expires_at < x.amb.now →
      alone (authSystem cfg) mailMayFail t request
        (RedeemPost threads t rawToken type s)
        (f ({ r with used_at := some x.amb.now }, user)) x.amb s log') :
    alone (authSystem cfg) mailMayFail t request
      (RedeemPost threads t rawToken type s)
      (consumeVerificationToken rawToken type >>= f) amb s log := by
  unfold consumeVerificationToken
  rw [Prog.bind_assoc]
  apply alone_call (fun _ => rfl)
  · exact fun _ _ _ h => nomatch h
  · intro amb' found _ hexec
    have hfind : s.findVerificationToken (hashToken rawToken) type = found :=
      Except.ok.inj hexec
    have hledger : Ledger threads s ((authSystem cfg).entry t request amb'
        (.findVerificationToken (hashToken rawToken) type) none s :: log) :=
      h.other (.findVerificationToken (hashToken rawToken) type) rfl none
    have hlooked : Sole AuthOp.LooksTokenUp t ((authSystem cfg).entry t
        request amb' (.findVerificationToken (hashToken rawToken) type) none s)
        ((authSystem cfg).entry t request amb'
          (.findVerificationToken (hashToken rawToken) type) none s :: log) :=
      .first hown rfl ⟨_, _, rfl⟩
    cases found with
    | none => exact ⟨_, hlooked, .unknown hfind, hledger⟩
    | some found =>
        obtain ⟨r, user⟩ := found
        show alone (authSystem cfg) mailMayFail t request
          (RedeemPost threads t rawToken type s)
          ((if r.expires_at < amb'.now then
              Prog.throw (.domain .TokenExpired)
            else Prog.pure ({ r with used_at := some amb'.now }, user)) >>= f)
          amb' s _
        split
        · next hexpired =>
            exact ⟨_, hlooked, .expired hfind hexpired, hledger⟩
        · next hunexpired =>
            exact hf _ _ r user hlooked hledger hfind hunexpired

/-- The rule for writing the token back with its user. -/
theorem writeBack_alone {x : AuthEntry} {r : VerificationToken}
    {w : UserEntity} {usedAt : Int}
    {post : Except AuthError Unit → Moment → Store → AuthLog → Prop}
    (hlooked : Sole AuthOp.LooksTokenUp t x log) (h : Ledger threads s log)
    (hr : r ∈ s.verification_tokens.rows)
    (hpost : ∀ amb s' log', Sole AuthOp.LooksTokenUp t x log' →
      LedgerBut (·.token_hash = r.token_hash) threads s' log' →
      (∃ r' ∈ s'.verification_tokens.rows, r'.token_hash = r.token_hash ∧
        r'.type = r.type) → post (.ok ()) amb s' log') :
    alone (authSystem cfg) mailMayFail t request post
      (Prog.promiseAll Moment.swapped
        (.saveVerificationToken { r with used_at := some usedAt })
        (.saveUser w)) amb s log := by
  have hrow : { r with used_at := some usedAt } ∈
      (s.saveVerificationToken { r with
        used_at := some usedAt }).verification_tokens.rows :=
    Table.mem_save.2 (.inr ⟨rfl, r, hr, rfl⟩)
  apply alone_promiseAll
  · apply alone_settle (by rintro op (rfl | rfl) e <;> rfl)
    intro amb₁ amb₂ _ _ result hresult
    rw [hresult.2 ⟨rfl, rfl⟩]
    have hsaved : LedgerBut (·.token_hash = r.token_hash) threads
        (s.saveVerificationToken { r with used_at := some usedAt })
        ((authSystem cfg).entry t request amb₁ (.saveVerificationToken
          { r with used_at := some usedAt }) none s :: log) := h.save hr
    apply hpost
    · exact (hlooked.cons (by rfl) (by rintro ⟨_, _, ⟨⟩⟩)).cons (by rfl)
        (by rintro ⟨_, _, ⟨⟩⟩)
    · exact hsaved.other (.saveUser w) rfl none
    · exact ⟨_, hrow, rfl, rfl⟩
  · apply alone_settle (by rintro op (rfl | rfl) e <;> rfl)
    intro amb₁ amb₂ _ _ result hresult
    rw [hresult.2 ⟨rfl, rfl⟩]
    have hsaved : Ledger threads (s.saveUser w) ((authSystem cfg).entry t
        request amb₁ (.saveUser w) none s :: log) :=
      h.other (.saveUser w) rfl none
    apply hpost
    · exact (hlooked.cons (by rfl) (by rintro ⟨_, _, ⟨⟩⟩)).cons (by rfl)
        (by rintro ⟨_, _, ⟨⟩⟩)
    · exact LedgerBut.save hsaved hr
    · exact ⟨_, hrow, rfl, rfl⟩

theorem confirm_alone (hown : own t log = []) (h : Ledger threads s log) :
    alone (authSystem cfg) mailMayFail t request
      (RedeemPost threads t rawToken .EMAIL_CONFIRMATION s)
      (confirm rawToken) amb s log := by
  apply consume_alone hown h
  intro x log₁ r user hlooked h₁ hfind hunexpired
  obtain ⟨hr, hhash, htype, _⟩ := of_findVerificationToken hfind
  apply writeBack_alone hlooked h₁ hr
  intro amb₂ s₂ log₂ hlooked₂ h₂ hrow
  rw [hhash] at h₂ hrow
  rw [htype] at hrow
  exact ⟨x, hlooked₂, .accepted hfind hunexpired, h₂, hrow⟩

theorem resetPassword_alone {newPassword : String} (hown : own t log = [])
    (h : Ledger threads s log) :
    alone (authSystem cfg) mailMayFail t request
      (RedeemPost threads t rawToken .PASSWORD_RESET s)
      (resetPassword rawToken newPassword) amb s log := by
  apply consume_alone hown h
  intro x log₁ r user hlooked h₁ hfind hunexpired
  obtain ⟨hr, hhash, htype, _⟩ := of_findVerificationToken hfind
  apply alone_call (fun _ => rfl)
  · exact fun _ _ _ h => nomatch h
  · intro amb₂ hash _ _
    have h₂ : Ledger threads s ((authSystem cfg).entry t request amb₂
        (.hashPassword newPassword) none s :: log₁) :=
      h₁.other (.hashPassword newPassword) rfl none
    apply alone_bind
    apply writeBack_alone
      (hlooked.cons (by rfl) (by rintro ⟨_, _, ⟨⟩⟩)) h₂ hr
    intro amb₃ s₃ log₃ hlooked₃ h₃ hrow
    show alone (authSystem cfg) mailMayFail t request _
      (await (.revokeUser user.id amb₃.now)) amb₃ s₃ log₃
    rw [← Prog.bind_pure (await (.revokeUser user.id amb₃.now))]
    apply alone_call (fun _ => rfl)
    · exact fun _ _ _ h => nomatch h
    · intro amb₄ _ _ _
      rw [hhash] at h₃ hrow
      rw [htype] at hrow
      refine ⟨x, hlooked₃.cons (by rfl) (by rintro ⟨_, _, ⟨⟩⟩),
        .accepted hfind hunexpired, ?_, hrow⟩
      exact h₃.other (.revokeUser user.id amb₃.now) rfl none

/-- Whatever a call that presents a token has come to, the ledger is in order
once the call is counted. -/
theorem Uncounted.ledger {result : Except AuthError Unit}
    (h : Uncounted threads rawToken type s log result)
    (hconsumes : request.consumes = some (rawToken, type)) :
    Ledger (threads ++ [⟨request, Prog.ofExcept
      (result.map fun _ => AuthReply.done)⟩]) s log := by
  cases result with
  | error e => exact LedgerBut.ended h (.inr rfl)
  | ok u =>
      obtain ⟨hledger, r, hr, hhash, htype⟩ := h
      apply hledger.redeem hr hhash
      · rw [htype]
        exact hconsumes
      · rfl

/-- What consuming a token returns, and the tables it leaves. -/
theorem redeem_alone (hconsumes : request.consumes = some (rawToken, type))
    (hown : own t log = []) (h : Ledger threads s log) :
    alone (authSystem cfg) mailMayFail t request
      (fun r amb s' log => ∃ result : Except AuthError Unit,
        r = result.map (fun _ => AuthReply.done) ∧
        RedeemPost threads t rawToken type s result amb s' log)
      (serve cfg request) amb s log := by
  cases request with
  | confirm token =>
      cases hconsumes
      exact alone_map (confirm_alone hown h)
        (fun _ _ _ _ hpost => ⟨.ok (), rfl, hpost⟩)
        fun e _ _ _ hpost => ⟨.error e, rfl, hpost⟩
  | resetPassword dto =>
      cases hconsumes
      exact alone_map (resetPassword_alone hown h)
        (fun _ _ _ _ hpost => ⟨.ok (), rfl, hpost⟩)
        fun e _ _ _ hpost => ⟨.error e, rfl, hpost⟩
  | _ => exact nomatch hconsumes

/-- Every request keeps the ledger. -/
theorem serve_ledger (hown : own t log = []) (h : Ledger threads s log) :
    alone (authSystem cfg) mailMayFail t request
      (fun r _ s log => Ledger (threads ++ [⟨request, Prog.ofExcept r⟩]) s log)
      (serve cfg request) amb s log := by
  cases hconsumes : request.consumes with
  | none =>
      apply alone_mono ?_ (serve_keeps hconsumes h)
      exact fun _ _ _ _ h' => LedgerBut.ended h' (.inl hconsumes)
  | some presented =>
      obtain ⟨rawToken, type⟩ := presented
      apply alone_mono ?_ (redeem_alone hconsumes hown h)
      rintro r _ s' log' ⟨result, rfl, _, _, _, huncounted⟩
      exact huncounted.ledger hconsumes

end Redeeming

/-! ## Acceptance -/

section Runs

variable {cfg : AuthConfig} {s₀ : Store} {c c' : AuthRun}
  {request : AuthRequest} {rawToken : RawToken}
  {type : VerificationTokenType}

/-- The token was issued with this type to some user, is the last that was,
expires at `expiresAt`, and has not been redeemed. -/
def Outstanding (c : AuthRun) (rawToken : RawToken)
    (type : VerificationTokenType) (expiresAt : Int) : Prop :=
  (∃ userId v, lastIssued c.log type userId = some v ∧
    v.token_hash = hashToken rawToken ∧ v.expires_at = expiresAt) ∧
  ¬ Redeemed c.threads rawToken type

/-- An idle process has its ledger in order. -/
theorem ledger_of_reachable (hstart : s₀.verification_tokens.rows = [])
    (h : Reachable (authSystem cfg) mailMayFail s₀ c) (hidle : c.idle = true) :
    Ledger c.threads c.state c.log := by
  have hempty : ∀ r, r ∉ s₀.verification_tokens.rows := by
    intro r hr
    rw [hstart] at hr
    exact nomatch hr
  refine Reachable.serial (J := fun c => Ledger c.threads c.state c.log)
    (fun _ _ haccept => haccept) ?_ ?_ h hidle
  · constructor
    · exact fun r hr => absurd hr (hempty r)
    · exact fun r hr => absurd hr (hempty r)
    · exact fun x hx => nomatch hx
    · rintro raw type ⟨th, hth, _⟩
      exact nomatch hth
    · exact fun r hr => absurd hr (hempty r)
    · exact fun r hr => absurd hr (hempty r)
  · intro b request amb hb _ hledger
    apply serve_ledger ?_ hledger
    exact hb.own_arriving

/-- A lookup finds the unused row of a digest, and its user. -/
theorem findVerificationToken_of_mem {threads : List AuthThread} {s : Store}
    {log : AuthLog} (h : Ledger threads s log) {r : VerificationToken}
    (hr : r ∈ s.verification_tokens.rows) (hunused : r.used_at = none) :
    ∃ user, s.findVerificationToken r.token_hash r.type = some (r, user) := by
  have hfind : (s.verification_tokens.rows.find? fun x =>
      x.token_hash == r.token_hash && x.type == r.type && x.used_at.isNone)
        = some r := by
    apply find?_of_unique hr
    · rw [hunused, beq_self_eq_true, beq_self_eq_true]
      rfl
    · intro x hx hp
      simp only [Bool.and_eq_true, beq_iff_eq] at hp
      exact h.hashes x hx r hr hp.1.1
  obtain ⟨u, hu⟩ := Store.hasUser_iff.1 (h.owners r hr)
  refine ⟨u.entity, ?_⟩
  simp only [Store.findVerificationToken, hfind, Option.bind_some, hu,
    Option.map_some]

/-- The outstanding tokens are those a lookup finds. -/
theorem outstanding_iff (h : Ledger c.threads c.state c.log)
    {expiresAt : Int} :
    Outstanding c rawToken type expiresAt ↔
      ∃ r user, c.state.findVerificationToken (hashToken rawToken) type
        = some (r, user) ∧ r.expires_at = expiresAt := by
  constructor
  · rintro ⟨⟨userId, v, hlast, hhash, rfl⟩, hredeemed⟩
    obtain ⟨⟨x, hx, hadded⟩, htype, huser⟩ := lastIssued_spec hlast
    obtain ⟨r, hr, hissued⟩ := h.issued x hx v hadded
    have hrhash := hissued.token_hash.trans hhash
    have hrtype := hissued.type.trans htype
    have hunused : r.used_at = none := by
      apply (h.unused r hr id).2
      constructor
      · refine ⟨v, ?_, hissued.token_hash.symm⟩
        rw [hrtype, hissued.user_id, huser]
        exact hlast
      · rw [hrhash, hrtype]
        exact hredeemed
    obtain ⟨user, hfind⟩ := findVerificationToken_of_mem h hr hunused
    rw [hrhash, hrtype] at hfind
    exact ⟨r, user, hfind, hissued.expires_at⟩
  · rintro ⟨r, user, hfind, rfl⟩
    obtain ⟨hr, hhash, htype, hunused, _⟩ := of_findVerificationToken hfind
    obtain ⟨⟨v, hlast, hv⟩, hredeemed⟩ := (h.unused r hr id).1 hunused
    obtain ⟨⟨x, hx, hadded⟩, _⟩ := lastIssued_spec hlast
    obtain ⟨r', hr', hissued⟩ := h.issued x hx v hadded
    have heq := h.hashes r' hr' r hr (hissued.token_hash.trans hv)
    subst heq
    rw [hhash, htype] at hredeemed
    rw [htype] at hlast
    exact ⟨⟨_, v, hlast, hv.trans hhash, hissued.expires_at.symm⟩, hredeemed⟩

theorem tokenLookedUpAt_iff {t : Nat} {x : AuthEntry} {log : AuthLog}
    (h : Sole AuthOp.LooksTokenUp t x log) {now : Int} :
    TokenLookedUpAt log t now ↔ x.amb.now = now := by
  constructor
  · rintro ⟨y, hy, hlookup, hnow⟩
    rw [← h.only y hy hlookup]
    exact hnow
  · exact fun hnow => ⟨x, h.mem, h.kind, hnow⟩

/--
**Which tokens are accepted.**  Requests are served one after another, from a
process without verification tokens, and mails may fail.  A call that presents
a token and looks it up at time `now` returns exactly when the token is
outstanding and does not expire before `now`; it throws `TokenExpired` exactly
when the token is outstanding and does; it throws `InvalidToken` exactly when
the token is not outstanding; it throws nothing else, and a call that throws
changes no table.
-/
theorem acceptance_exact (hstart : s₀.verification_tokens.rows = [])
    (h : Reachable (authSystem cfg) mailMayFail s₀ c) (hidle : c.idle = true)
    (hconsumes : request.consumes = some (rawToken, type))
    {r : Except AuthError AuthReply}
    (hserved : Served cfg mailMayFail c request r c') {now : Int}
    (hnow : TokenLookedUpAt c'.log c.threads.length now) :
    (r.isOk = true ↔
      ∃ expiresAt, Outstanding c rawToken type expiresAt ∧ now ≤ expiresAt) ∧
    (r = .error (.domain .TokenExpired) ↔
      ∃ expiresAt, Outstanding c rawToken type expiresAt ∧ expiresAt < now) ∧
    (r = .error (.domain .InvalidToken) ↔
      ¬ ∃ expiresAt, Outstanding c rawToken type expiresAt) ∧
    ∀ e, r = .error e →
      (e = .domain .TokenExpired ∨ e = .domain .InvalidToken) ∧
        c'.state = c.state := by
  have hledger := ledger_of_reachable hstart h hidle
  have hown : own c.threads.length c.log = [] :=
    h.own_arriving
  obtain ⟨_, result, rfl, x, hlooked, houtcome, _⟩ := hserved.result hidle
    fun _ => redeem_alone hconsumes hown hledger
  have hat : x.amb.now = now := (tokenLookedUpAt_iff hlooked).1 hnow
  have hfound : ∀ {record : VerificationToken} {user : UserEntity},
      c.state.findVerificationToken (hashToken rawToken) type
        = some (record, user) →
      ∀ expiresAt, Outstanding c rawToken type expiresAt ↔
        record.expires_at = expiresAt := by
    intro record user hfind expiresAt
    rw [outstanding_iff hledger]
    constructor
    · rintro ⟨record', user', hfind', hexpires⟩
      cases hfind.symm.trans hfind'
      exact hexpires
    · exact fun hexpires => ⟨record, user, hfind, hexpires⟩
  generalize c'.state = s' at houtcome ⊢
  cases houtcome with
  | unknown hfind =>
      have hnone : ¬ ∃ expiresAt, Outstanding c rawToken type expiresAt := by
        rintro ⟨expiresAt, houtstanding⟩
        obtain ⟨_, _, hfind', _⟩ := (outstanding_iff hledger).1 houtstanding
        exact nomatch hfind.symm.trans hfind'
      refine ⟨⟨nofun, ?_⟩, ⟨nofun, ?_⟩, ⟨fun _ => hnone, fun _ => rfl⟩, ?_⟩
      · rintro ⟨expiresAt, houtstanding, _⟩
        exact absurd ⟨expiresAt, houtstanding⟩ hnone
      · rintro ⟨expiresAt, houtstanding, _⟩
        exact absurd ⟨expiresAt, houtstanding⟩ hnone
      · rintro e ⟨⟩
        exact ⟨.inr rfl, rfl⟩
  | @expired record user hfind hexpired =>
      have houtstanding := (hfound hfind record.expires_at).2 rfl
      rw [hat] at hexpired
      refine ⟨⟨nofun, ?_⟩, ⟨fun _ => ?_, fun _ => rfl⟩, ⟨nofun, ?_⟩, ?_⟩
      · rintro ⟨expiresAt, hout, hle⟩
        have heq := (hfound hfind expiresAt).1 hout
        omega
      · exact ⟨record.expires_at, houtstanding, hexpired⟩
      · exact fun hnone => absurd ⟨_, houtstanding⟩ hnone
      · rintro e ⟨⟩
        exact ⟨.inl rfl, rfl⟩
  | @accepted record user _ hfind hunexpired =>
      have houtstanding := (hfound hfind record.expires_at).2 rfl
      rw [hat] at hunexpired
      refine ⟨⟨fun _ => ?_, fun _ => rfl⟩, ⟨nofun, ?_⟩, ⟨nofun, ?_⟩, nofun⟩
      · exact ⟨record.expires_at, houtstanding, by omega⟩
      · rintro ⟨expiresAt, hout, hlt⟩
        have heq := (hfound hfind expiresAt).1 hout
        omega
      · exact fun hnone => absurd ⟨_, houtstanding⟩ hnone

end Runs

/-- Two reset tokens are mailed; the second replaces the first. -/
def supersededOnce : AuthRun :=
  authRun mailMayFail channelStore
    (Tick.serve (.forgotPassword sampleEmail) 0 4 { bytes := 6 } ++
      Tick.serve (.forgotPassword sampleEmail) 1 4 { now := 500, bytes := 7 })
    (by decide)

/-- The second is presented. -/
def resetAfterwards : AuthRun :=
  authRunFrom mailMayFail
    ((authSystem sampleConfig).spawn supersededOnce
      (resetRequest "first password" firstPassword_length) { now := 1000 })
    (Tick.answers 2 5 { now := 1000 }) (by decide)

theorem acceptance_exact_of_resetAfterwards :
    (∃ expiresAt, Outstanding supersededOnce (.hex 7) .PASSWORD_RESET expiresAt
      ∧ 1000 ≤ expiresAt) ∧
    ¬ ∃ expiresAt, Outstanding supersededOnce (.hex 7) .PASSWORD_RESET expiresAt
      ∧ expiresAt < 1000 := by
  have hreach : Reachable (authSystem sampleConfig) mailMayFail channelStore
      supersededOnce := reachable_authRun _ (by decide) (by decide)
  have hserved : Served sampleConfig mailMayFail supersededOnce
      (resetRequest "first password" firstPassword_length) (.ok .done)
      resetAfterwards :=
    ⟨_, steps_authRunFrom _ (by decide) (by decide), by rfl⟩
  have hlooked : ∃ x ∈ own 2 resetAfterwards.log, x.op.LooksTokenUp ∧
      x.amb.now = 1000 :=
    ⟨_, List.mem_of_getLast? (by rfl), ⟨_, _, rfl⟩, rfl⟩
  obtain ⟨hok, hexpired, _, _⟩ := acceptance_exact (by rfl) hreach (by decide)
    (by rfl) hserved hlooked
  exact ⟨hok.1 rfl, fun h => nomatch hexpired.2 h⟩

end Videum.Auth
