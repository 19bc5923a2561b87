import Videum.Auth.Compensation
import Videum.Auth.Ledger

/-!
# What an outsider learns about an address

Two runs of one request, on tables that differ only in whether an address is
registered.  A login with a wrong password ends alike in both.  `forgotPassword`
and `resendConfirmation` write and send a mail for a registered address only,
and hand on the error of the mailer: they end alike exactly when it delivers.

## Main results

* `mailToken_outcome` — what is left to go wrong when a token is mailed.
* `no_enumeration_iff` — when the two runs end alike.
* `address_revealed` — a mail that fails tells the address apart.
-/

namespace Videum.Auth

open Videum.Async
open Videum.Common

/-! ## Statements -/

/-- In `s₁` the address is registered, to a user with a channel, and `s₂` is
`s₁` without that user and all that belongs to it. -/
structure OnlyRegistered (email : String) (user : User) (s₁ s₂ : Store) :
    Prop where
  registered : s₁.userByEmail email = some user
  channel : (s₁.channelOf user.id).isSome = true
  unregistered : s₂.userByEmail email = none
  users : s₂.users.rows = s₁.users.rows.filter (·.id != user.id)
  channels : s₂.channels.rows = s₁.channels.rows.filter (·.user_id != user.id)
  verification_tokens : s₂.verification_tokens.rows =
    s₁.verification_tokens.rows.filter (·.user_id != user.id)
  refresh_tokens : s₂.refresh_tokens.rows =
    s₁.refresh_tokens.rows.filter (·.user_id != user.id)

/-- Each run of the request on the first tables ends like each run on the
second, when `delivers` holds of its answers, and only then. -/
def AlikeWhen (cfg : AuthConfig) (request : AuthRequest) (s₁ s₂ : Store)
    (delivers : AuthLog → Prop) : Prop :=
  ∀ r₁ c₁ r₂ c₂, Served cfg mailMayFail (Config.start s₁) request r₁ c₁ →
    Served cfg mailMayFail (Config.start s₂) request r₂ c₂ →
      (r₁ = r₂ ↔ delivers c₁.log)

/-- No mail has failed. -/
def MailsDelivered (log : AuthLog) : Prop :=
  failed AuthOp.sendsMail log = false

instance (log : AuthLog) : Decidable (MailsDelivered log) :=
  inferInstanceAs (Decidable (_ = _))

/-! ## One run -/

section Alone

variable {cfg : AuthConfig} {t : Nat} {request : AuthRequest} {s : Store}
  {amb : Moment} {log : AuthLog}

/-- The end of a request that may mail a token: it returns, unless the mail
has failed. -/
def MailPost (r : Except AuthError Unit) (_ : Moment) (_ : Store)
    (log : AuthLog) : Prop :=
  r = .ok () ∧ MailsDelivered log ∨
  (∃ e, r = .error e) ∧ ¬ MailsDelivered log

theorem MailsDelivered.cons (h : MailsDelivered log) {x : AuthEntry}
    (hx : x.op.sendsMail = true → x.res.isOk = true) :
    MailsDelivered (x :: log) :=
  failed_cons_of_isOk hx h

theorem MailsDelivered.cons_quiet (h : MailsDelivered log) {x : AuthEntry}
    (hx : x.op.sendsMail = false) : MailsDelivered (x :: log) :=
  h.cons fun hop => absurd (hx.symm.trans hop) Bool.false_ne_true

theorem not_mailsDelivered {x : AuthEntry} (hop : x.op.sendsMail = true)
    (hres : x.res.isOk = false) : ¬ MailsDelivered (x :: log) :=
  fun h => nomatch (failed_cons_self log hop hres).symm.trans h

/-- Sending the mail is all that may go wrong. -/
theorem sendMail_outcome (mail : Mail) (hlog : MailsDelivered log) :
    alone (authSystem cfg) mailMayFail t request MailPost
      (await (.sendMail mail)) amb s log := by
  rw [← Prog.bind_pure (await (.sendMail mail))]
  apply alone_call_any
  · intro amb' fault e _ _ hanswer
    exact .inr ⟨⟨e, rfl⟩, not_mailsDelivered rfl (isOk_of_error hanswer)⟩
  · intro amb' _ _ _
    exact .inl ⟨rfl, hlog.cons fun _ => rfl⟩

theorem mailToken_outcome {user : UserEntity} {channel : Channel}
    {type : VerificationTokenType} {hours : Int}
    {send : String → String → RawToken → AuthProg Unit}
    (huser : s.hasUser user.id) (hlog : MailsDelivered log)
    (hsend : ∀ email name token, ∃ mail,
      send email name token = await (.sendMail mail)) :
    alone (authSystem cfg) mailMayFail t request MailPost
      (mailToken user (some channel) type hours send) amb s log := by
  show alone (authSystem cfg) mailMayFail t request MailPost
    (await (.invalidateVerificationTokens user.id type amb.now) >>= fun _ =>
      createVerificationToken user.id type hours >>= fun rawToken =>
        send user.email channel.name rawToken) amb s log
  apply alone_call (fun _ => rfl)
  · rintro _ _ _ ⟨⟩
  · intro amb₁ _ _ _
    have hlog₁ : MailsDelivered ((authSystem cfg).entry t request amb₁
        (.invalidateVerificationTokens user.id type amb.now) none s :: log) :=
      hlog.cons_quiet rfl
    have huser₁ : (s.invalidateVerificationTokens user.id type
        amb.now).hasUser user.id := huser
    rw [createVerificationToken_bind, alone]
    apply alone_call (fun _ => rfl)
    · intro amb₂ e _ hexec
      obtain ⟨u, hu⟩ := Store.hasUser_iff.1 huser₁
      have hok := Store.insertVerificationToken_ok
        (v := issuedColumns user.id type hours amb₁) hu
      cases hok.symm.trans hexec
    · intro amb₂ _ _ _
      obtain ⟨mail, hmail⟩ := hsend user.email channel.name (.hex amb₁.bytes)
      show alone (authSystem cfg) mailMayFail t request MailPost
        (send user.email channel.name (.hex amb₁.bytes)) amb₂ _ _
      rw [hmail]
      exact sendMail_outcome mail (hlog₁.cons_quiet rfl)

variable {email : String} {user : User}

theorem hasUser_of_email (h : s.userByEmail email = some user) :
    s.hasUser user.id :=
  ⟨user, List.mem_of_find?_eq_some h, rfl⟩

/-- What the look-up with the channel answers for a registered address. -/
theorem found_of_registered (h : s.userByEmail email = some user)
    (hchannel : (s.channelOf user.id).isSome = true) :
    ∃ channel, (s.userByEmail email).map
      (fun u => (u.entity, s.channelOf u.id)) =
        some (user.entity, some channel) := by
  obtain ⟨channel, hchannel⟩ := Option.isSome_iff_exists.1 hchannel
  refine ⟨channel, ?_⟩
  rw [h, Option.map_some, hchannel]

theorem forgotPassword_registered (h : s.userByEmail email = some user)
    (hchannel : (s.channelOf user.id).isSome = true)
    (hlog : MailsDelivered log) :
    alone (authSystem cfg) mailMayFail t request MailPost
      (forgotPassword cfg email) amb s log := by
  obtain ⟨channel, hfound⟩ := found_of_registered h hchannel
  apply alone_call (fun _ => rfl)
  · exact fun _ _ _ hexec => nomatch hexec
  · intro amb₁ found _ hexec
    have heq : found = some (user.entity, some channel) :=
      (Except.ok.inj hexec).symm.trans hfound
    subst heq
    exact mailToken_outcome (hasUser_of_email h) (hlog.cons_quiet rfl)
      fun _ _ _ => ⟨_, rfl⟩

theorem resendConfirmation_registered (h : s.userByEmail email = some user)
    (hchannel : (s.channelOf user.id).isSome = true)
    (hlog : MailsDelivered log) :
    alone (authSystem cfg) mailMayFail t request MailPost
      (resendConfirmation cfg email) amb s log := by
  obtain ⟨channel, hfound⟩ := found_of_registered h hchannel
  apply alone_call (fun _ => rfl)
  · exact fun _ _ _ hexec => nomatch hexec
  · intro amb₁ found _ hexec
    have heq : found = some (user.entity, some channel) :=
      (Except.ok.inj hexec).symm.trans hfound
    subst heq
    have hlog₁ : MailsDelivered ((authSystem cfg).entry t request amb₁
        (.findUserByEmailWithChannel email) none s :: log) := hlog.cons_quiet rfl
    show alone (authSystem cfg) mailMayFail t request MailPost
      (if user.is_confirmed = true then Prog.pure () else
        mailToken user.entity (some channel) .EMAIL_CONFIRMATION
          cfg.confirmationTokenExpirationHours (sendConfirmationEmail cfg))
      amb₁ s _
    split
    · exact .inl ⟨rfl, hlog₁⟩
    · exact mailToken_outcome (hasUser_of_email h) hlog₁
        fun _ _ _ => ⟨_, rfl⟩

/-- Nothing is sent to an address that is not registered. -/
theorem unregistered_outcome (h : s.userByEmail email = none)
    {f : Option (UserEntity × Option Channel) → AuthProg Unit}
    (hf : f none = Prog.pure ()) :
    alone (authSystem cfg) mailMayFail t request
      (fun r _ _ _ => r = .ok ())
      (await (.findUserByEmailWithChannel email) >>= f) amb s log := by
  apply alone_call (fun _ => rfl)
  · exact fun _ _ _ hexec => nomatch hexec
  · intro amb₁ found _ hexec
    have heq : found = none := by
      have hfound := (Except.ok.inj hexec).symm
      rw [h] at hfound
      exact hfound
    subst heq
    show alone (authSystem cfg) mailMayFail t request _
      (f (none : Option (UserEntity × Option Channel))) amb₁ s _
    rw [hf]
    exact rfl

/-- A wrong password and an unknown address end alike. -/
theorem login_refused {dto : LoginDto}
    (h : ∀ u, s.userByEmail dto.email = some u →
      u.password.password ≠ dto.password) :
    alone (authSystem cfg) mailMayFail t request
      (fun r _ _ _ => r = .error (.domain .InvalidCredentials))
      (login cfg dto) amb s log := by
  apply alone_call (fun _ => rfl)
  · exact fun _ _ _ hexec => nomatch hexec
  · intro amb₁ found _ hexec
    have hfound : (s.userByEmail dto.email).map User.entityWithPassword =
      found := Except.ok.inj hexec
    subst hfound
    cases huser : s.userByEmail dto.email with
    | none => exact rfl
    | some u =>
        apply alone_call (fun _ => rfl)
        · exact fun _ _ _ hexec => nomatch hexec
        · intro amb₂ valid _ hexec
          have hvalid : (u.password.password == dto.password) = valid :=
            Except.ok.inj hexec
          rw [beq_false_of_ne (h u huser)] at hvalid
          subst hvalid
          exact rfl

end Alone

/-! ## Two runs -/

section Runs

variable {cfg : AuthConfig} {email : String} {user : User} {s₁ s₂ : Store}

/-- A request that may mail a token for a registered address, and that does
nothing for another. -/
theorem alikeWhen_delivered {request : AuthRequest} {p : AuthProg Unit}
    (hserve : serve cfg request = p >>= fun _ => Prog.pure .done)
    (h₁ : ∀ amb, alone (authSystem cfg) mailMayFail 0 request MailPost p amb s₁
      [])
    (h₂ : ∀ amb, alone (authSystem cfg) mailMayFail 0 request
      (fun r _ _ _ => r = .ok ()) p amb s₂ []) :
    AlikeWhen cfg request s₁ s₂ MailsDelivered := by
  intro r₁ c₁ r₂ c₂ hserved₁ hserved₂
  have halone₁ : ∀ amb, alone (authSystem cfg) mailMayFail 0 request
      (fun r _ _ log => r = .ok .done ↔ MailsDelivered log) (serve cfg request)
      amb s₁ [] := by
    intro amb
    rw [hserve]
    apply alone_map (h₁ amb)
    · rintro _ _ _ log (⟨_, hlog⟩ | ⟨⟨e, he⟩, _⟩)
      · exact ⟨fun _ => hlog, fun _ => rfl⟩
      · exact nomatch he
    · rintro e _ _ log (⟨hok, _⟩ | ⟨_, hlog⟩)
      · exact nomatch hok
      · exact ⟨nofun, fun h => absurd h hlog⟩
  have halone₂ : ∀ amb, alone (authSystem cfg) mailMayFail 0 request
      (fun r _ _ _ => r = .ok .done) (serve cfg request) amb s₂ [] := by
    intro amb
    rw [hserve]
    apply alone_map (h₂ amb)
    · exact fun _ _ _ _ _ => rfl
    · exact fun _ _ _ _ hok => nomatch hok
  obtain ⟨_, hend₁⟩ := hserved₁.result rfl halone₁
  obtain ⟨_, rfl⟩ := hserved₂.result rfl halone₂
  exact hend₁

/--
**No account enumeration.**  On tables that differ only in whether an address
is registered, and however the mail transport behaves: `forgotPassword` and
`resendConfirmation` end alike exactly when it delivers what they send to a
registered address, and a login with a wrong password always does.
-/
theorem no_enumeration_iff (cfg : AuthConfig)
    (h : OnlyRegistered email user s₁ s₂) :
    AlikeWhen cfg (.forgotPassword email) s₁ s₂ MailsDelivered ∧
    AlikeWhen cfg (.resendConfirmation email) s₁ s₂ MailsDelivered ∧
    ∀ dto : LoginDto, dto.email = email →
      dto.password ≠ user.password.password →
        AlikeWhen cfg (.login dto) s₁ s₂ fun _ => True := by
  have hempty : MailsDelivered [] := rfl
  refine ⟨?_, ?_, ?_⟩
  · apply alikeWhen_delivered rfl
    · exact fun _ => forgotPassword_registered h.registered h.channel hempty
    · exact fun _ => unregistered_outcome h.unregistered rfl
  · apply alikeWhen_delivered rfl
    · exact fun _ => resendConfirmation_registered h.registered h.channel hempty
    · exact fun _ => unregistered_outcome h.unregistered rfl
  · intro dto hemail hpassword r₁ c₁ r₂ c₂ hserved₁ hserved₂
    have hrefused : ∀ s : Store, (∀ u, s.userByEmail dto.email = some u →
        u.password.password ≠ dto.password) → ∀ amb,
        alone (authSystem cfg) mailMayFail 0 (.login dto)
          (fun r _ _ _ => r = .error (.domain .InvalidCredentials))
          (serve cfg (.login dto)) amb s [] := by
      intro s hs amb
      apply alone_map (login_refused hs)
      · exact fun _ _ _ _ hok => nomatch hok
      · rintro _ _ _ _ ⟨⟩
        rfl
    have h₁ := hrefused s₁ (by
      intro u hu
      rw [hemail, h.registered] at hu
      cases hu
      exact hpassword.symm)
    have h₂ := hrefused s₂ (by
      intro u hu
      rw [hemail, h.unregistered] at hu
      exact nomatch hu)
    obtain ⟨_, rfl⟩ := hserved₁.result rfl h₁
    obtain ⟨_, rfl⟩ := hserved₂.result rfl h₂
    exact ⟨fun _ => trivial, fun _ => rfl⟩

end Runs

/-- The sample user with its channel. -/
def knownStore : Store where
  users := ({} : Table User User.id).insert sampleUser id_sampleUser
  channels := ({} : Table Channel Channel.id).insert sampleChannel
    id_sampleChannel

theorem onlyRegistered_sample :
    OnlyRegistered sampleEmail sampleUser knownStore {} :=
  ⟨by decide, by decide, rfl, by decide, by decide, rfl, rfl⟩

/-- A reset is asked for, and the mailer is down. -/
def forgottenKnown : AuthRun :=
  authRunFrom mailMayFail
    ((authSystem sampleConfig).spawn (Config.start knownStore)
      (.forgotPassword sampleEmail) {})
    (Tick.answers 0 3 { now := 0 } ++ [.perform 0 { now := 0 } (some .mail)])
    (by decide)

/-- The same, where nobody knows the address. -/
def forgottenUnknown : AuthRun :=
  authRunFrom mailMayFail
    ((authSystem sampleConfig).spawn (Config.start {})
      (.forgotPassword sampleEmail) {}) (Tick.answers 0 1 { now := 0 })
    (by decide)

/-- The reset for the sample user ends like one that was never asked for,
as long as its mail arrives. -/
theorem alike_sample :
    AlikeWhen sampleConfig (.forgotPassword sampleEmail) knownStore {}
      MailsDelivered ∧
    AlikeWhen sampleConfig (.login ⟨sampleEmail, "guess", by decide⟩) knownStore
      {} fun _ => True := by
  obtain ⟨hforgot, _, hlogin⟩ :=
    no_enumeration_iff sampleConfig onlyRegistered_sample
  exact ⟨hforgot, hlogin ⟨sampleEmail, "guess", by decide⟩ rfl (by decide)⟩

/-- A mail that fails tells who is registered. -/
theorem address_revealed :
    OnlyRegistered sampleEmail sampleUser knownStore {} ∧
    Served sampleConfig mailMayFail (Config.start knownStore)
      (.forgotPassword sampleEmail) (.error .mail) forgottenKnown ∧
    Served sampleConfig mailMayFail (Config.start {})
      (.forgotPassword sampleEmail) (.ok .done) forgottenUnknown ∧
    ¬ AlikeWhen sampleConfig (.forgotPassword sampleEmail) knownStore {}
      fun _ => True := by
  have hknown : Served sampleConfig mailMayFail (Config.start knownStore)
      (.forgotPassword sampleEmail) (.error .mail) forgottenKnown :=
    ⟨_, steps_authRunFrom _ (by decide) (by decide), by rfl⟩
  have hunknown : Served sampleConfig mailMayFail (Config.start {})
      (.forgotPassword sampleEmail) (.ok .done) forgottenUnknown :=
    ⟨_, steps_authRunFrom _ (by decide) (by decide), by rfl⟩
  refine ⟨onlyRegistered_sample, hknown, hunknown, ?_⟩
  intro halike
  have heq := (halike _ _ _ _ hknown hunknown).2 trivial
  exact nomatch heq

end Videum.Auth
