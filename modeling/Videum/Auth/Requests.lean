import Videum.Async.Calls
import Videum.Auth.Service

/-!
# Which request calls what

`MayCall` lists the calls each request may make, with what their arguments
are bound to.  The proofs about runs use it for all the requests they are not
about.  The parts that several programs share are stated here once.

## Main results

* `createVerificationToken_bind` — a token is one call, whatever follows.
* `refresh_issues_of` — the calls of `refresh`, for any property of them.
* `serve_mayCall` — every program keeps to its list.
-/

namespace Videum.Auth

open Videum.Async

/-- The calls a request may make. -/
def AuthRequest.MayCall : AuthRequest → AuthOp → Prop
  | .register _, .findUserByEmail _ => True
  | .register _, .hashPassword _ => True
  | .register _, .insertUser _ _ => True
  | .register _, .deleteUser _ => True
  | .register _, .findChannelByNickname _ _ => True
  | .register _, .insertChannel _ _ _ => True
  | .register _, .insertVerificationToken v => v.type = .EMAIL_CONFIRMATION
  | .register _, .sendMail _ => True
  | .login _, .findUserByEmail _ => True
  | .login _, .verifyPassword _ _ => True
  | .login _, .insertRefreshToken r => r.revoked_at = none
  | .confirm token, .findVerificationToken h type =>
      h = hashToken token ∧ type = .EMAIL_CONFIRMATION
  | .confirm _, .saveVerificationToken v => v.used_at ≠ none
  | .confirm _, .saveUser u => u.is_confirmed = true
  | .resendConfirmation _, .findUserByEmailWithChannel _ => True
  | .resendConfirmation _, .invalidateVerificationTokens _ type _ =>
      type = .EMAIL_CONFIRMATION
  | .resendConfirmation _, .insertVerificationToken v =>
      v.type = .EMAIL_CONFIRMATION
  | .resendConfirmation _, .sendMail _ => True
  | .refresh rawToken, .findRefreshToken h => h = hashToken rawToken
  | .refresh _, .findActiveInFamily _ => True
  | .refresh _, .revokeFamily _ _ => True
  | .refresh _, .saveRefreshToken r => r.revoked_at ≠ none
  | .refresh _, .insertRefreshToken r => r.revoked_at = none
  | .forgotPassword _, .findUserByEmailWithChannel _ => True
  | .forgotPassword _, .invalidateVerificationTokens _ type _ =>
      type = .PASSWORD_RESET
  | .forgotPassword _, .insertVerificationToken v => v.type = .PASSWORD_RESET
  | .forgotPassword _, .sendMail _ => True
  | .resetPassword dto, .findVerificationToken h type =>
      h = hashToken dto.token ∧ type = .PASSWORD_RESET
  | .resetPassword _, .hashPassword _ => True
  | .resetPassword _, .saveVerificationToken v => v.used_at ≠ none
  | .resetPassword _, .saveUser u => u.password ≠ none
  | .resetPassword _, .revokeUser _ _ => True
  | .logout userId, .revokeUser u _ => u = userId
  | _, _ => False

section Rules

variable {α β : Type} {Q : AuthOp → Prop} {op : AuthOp}

theorem issues_ofExcept (r : Except AuthError α) :
    (Prog.ofExcept r : AuthProg α).Issues Q := by
  cases r <;> trivial

theorem issues_call_bind {f : op.Res → AuthProg β} (h : Q op)
    (hf : ∀ v, (f v).Issues Q) : (await op >>= f).Issues Q :=
  Prog.Issues.bind (Prog.Issues.call h) hf

theorem issues_now_bind {f : Moment → AuthProg β}
    (hf : ∀ moment, (f moment).Issues Q) : (Prog.now >>= f).Issues Q :=
  hf

theorem issues_settle {first second : AuthOp} (h₁ : Q first)
    (h₂ : Q second) :
    (Prog.settle first second : AuthProg Unit).Issues Q := by
  refine ⟨h₁, fun r₁ => ⟨h₂, fun r₂ => ?_⟩⟩
  cases r₁ <;> cases r₂ <;> trivial

theorem issues_promiseAll {first second : AuthOp} (h₁ : Q first)
    (h₂ : Q second) :
    (Prog.promiseAll Moment.swapped first second : AuthProg Unit).Issues Q := by
  intro moment
  dsimp only
  split
  · exact issues_settle h₂ h₁
  · exact issues_settle h₁ h₂

theorem issues_generateAccessToken (cfg : AuthConfig) (userId : Nat)
    (email : String) : (generateAccessToken cfg userId email).Issues Q :=
  fun _ => issues_ofExcept _

theorem issues_generateRefreshToken (cfg : AuthConfig)
    (userId family : Nat) :
    (generateRefreshToken cfg userId family).Issues Q :=
  fun _ => issues_ofExcept _

end Rules

/-! ## Parts of the programs -/

section Parts

/-- The columns of the token `createVerificationToken` makes at `moment`. -/
def issuedColumns (userId : Nat) (type : VerificationTokenType)
    (expirationHours : Int) (moment : Moment) : NewVerificationToken where
  token_hash := hashToken (.hex moment.bytes)
  type := type
  user_id := userId
  expires_at := moment.now + expirationHours * 60 * 60 * 1000

theorem createVerificationToken_bind {β : Type} (userId : Nat)
    (type : VerificationTokenType) (expirationHours : Int)
    (f : RawToken → AuthProg β) :
    createVerificationToken userId type expirationHours >>= f =
      .ask fun moment => await (.insertVerificationToken
        (issuedColumns userId type expirationHours moment)) >>= fun _ =>
          f (.hex moment.bytes) := by
  apply congrArg Prog.ask
  funext moment
  exact Prog.bind_assoc (await (.insertVerificationToken
    (issuedColumns userId type expirationHours moment)))
    (fun _ => Prog.pure (.hex moment.bytes)) f

/-- What `mailToken` does with the token it has made. -/
def mailTo (user : UserEntity) (channel? : Option Channel)
    (send : String → String → RawToken → AuthProg Unit)
    (rawToken : RawToken) : AuthProg Unit :=
  match channel? with
  | none => Prog.throw .typeError
  | some channel => send user.email channel.name rawToken

/-- What `refresh` does with a record that has not expired. -/
def refreshUnexpired (cfg : AuthConfig) (rawToken : RawToken)
    (record : RefreshToken) (user : UserEntity) (moment : Moment) :
    AuthProg TokenPair :=
  match record.revoked_at with
  | some revokedAt => reuse cfg rawToken record user moment revokedAt
  | none => rotate cfg record user moment

variable {cfg : AuthConfig} {rawToken : RawToken} {record : RefreshToken}
  {user : UserEntity} {moment : Moment}

theorem refreshUnexpired_revoked {revokedAt : Int}
    (h : record.revoked_at = some revokedAt) :
    refreshUnexpired cfg rawToken record user moment =
      reuse cfg rawToken record user moment revokedAt := by
  rw [refreshUnexpired, h]

theorem refreshUnexpired_unrevoked (h : record.revoked_at = none) :
    refreshUnexpired cfg rawToken record user moment =
      rotate cfg record user moment := by
  rw [refreshUnexpired, h]

end Parts

section Programs

variable (cfg : AuthConfig)

theorem tryNicknames_issues {Q : AuthOp → Prop} {userId : Nat}
    {baseNickname : String}
    (hfind : ∀ aborted nickname, Q (.findChannelByNickname aborted nickname))
    (hinsert : ∀ nickname, Q (.insertChannel baseNickname nickname userId))
    (attempts : Nat) (aborted : Bool) (nickname : String) :
    (tryNicknames userId baseNickname attempts aborted nickname).Issues Q := by
  induction attempts generalizing aborted nickname with
  | zero => trivial
  | succ attempts ih =>
      apply issues_call_bind (hfind aborted nickname)
      intro existing
      cases existing with
      | some channel => exact fun moment => ih aborted _
      | none =>
          have hblock : (await (.insertChannel baseNickname nickname userId)
              >>= fun channel => (Prog.pure (some channel) :
                AuthProg (Option Channel))).Issues Q :=
            issues_call_bind (hinsert nickname) fun _ => trivial
          have hhandler : ∀ err : AuthError,
              (if err = .uniqueNickname then Prog.pure none
                else Prog.throw err : AuthProg (Option Channel)).Issues Q := by
            intro err
            split <;> trivial
          apply (hblock.tryCatch hhandler).bind
          intro saved
          cases saved with
          | some channel => trivial
          | none => exact fun moment => ih true _

theorem createUserWithChannel_issues {Q : AuthOp → Prop} {email : String}
    {password : PasswordHash} (hinsert : Q (.insertUser email password))
    (hdelete : ∀ id, Q (.deleteUser id))
    (hfind : ∀ aborted nickname, Q (.findChannelByNickname aborted nickname))
    (hchannel : ∀ name nickname userId,
      Q (.insertChannel name nickname userId)) :
    (createUserWithChannel email password).Issues Q := by
  apply issues_call_bind hinsert
  intro savedUser
  apply Prog.Issues.tryCatch
  · apply Prog.Issues.bind
    · exact fun moment => tryNicknames_issues hfind
        (fun nickname => hchannel _ nickname _) _ _ _
    · exact fun _ => trivial
  · exact fun err => issues_call_bind (hdelete _) fun _ => trivial

/-- What `register` does once its user has a channel. -/
theorem confirmation_issues {Q : AuthOp → Prop} (user : UserEntity)
    (channel : Channel)
    (hinsert : ∀ v : NewVerificationToken, v.type = .EMAIL_CONFIRMATION →
      Q (.insertVerificationToken v))
    (hmail : ∀ mail, Q (.sendMail mail)) :
    (createVerificationToken user.id .EMAIL_CONFIRMATION
        cfg.confirmationTokenExpirationHours >>= fun rawToken =>
      sendConfirmationEmail cfg user.email channel.name rawToken >>= fun _ =>
        (Prog.pure (user.id, user.email) :
          AuthProg (Nat × String))).Issues Q := by
  apply Prog.Issues.bind
  · exact fun moment => issues_call_bind (hinsert _ rfl) fun _ => trivial
  · exact fun rawToken => issues_call_bind (hmail _) fun _ => trivial

theorem register_issues (dto : RegisterDto) :
    (register cfg dto).Issues (AuthRequest.register dto).MayCall := by
  apply issues_call_bind trivial
  intro existing
  cases existing with
  | some user => trivial
  | none =>
      apply issues_call_bind trivial
      intro hashedPassword
      have huser : (createUserWithChannel dto.email hashedPassword).Issues
          (AuthRequest.register dto).MayCall :=
        createUserWithChannel_issues trivial (fun _ => trivial)
          (fun _ _ => trivial) fun _ _ _ => trivial
      apply huser.bind
      rintro ⟨user, channel⟩
      exact confirmation_issues cfg user channel (fun _ h => h) fun _ => trivial

theorem login_issues (dto : LoginDto) :
    (login cfg dto).Issues (AuthRequest.login dto).MayCall := by
  apply issues_call_bind trivial
  intro user?
  cases user? with
  | none => trivial
  | some user =>
      dsimp only
      cases user.password with
      | none => trivial
      | some hash =>
          apply issues_call_bind trivial
          intro isPasswordValid
          split
          · trivial
          · split
            · trivial
            · apply issues_now_bind
              intro moment
              apply (issues_generateRefreshToken cfg _ _).bind
              intro refreshToken
              apply issues_call_bind (by exact rfl)
              intro _
              exact (issues_generateAccessToken cfg _ _).bind fun _ => trivial

/-- What both callers of `consumeVerificationToken` share: afterwards the
record is marked used. -/
theorem consumeVerificationToken_bind_issues {β : Type} {Q : AuthOp → Prop}
    {token : RawToken} {type : VerificationTokenType}
    {f : VerificationToken × UserEntity → AuthProg β}
    (hfind : Q (.findVerificationToken (hashToken token) type))
    (hf : ∀ record user, record.used_at ≠ none → (f (record, user)).Issues Q) :
    (consumeVerificationToken token type >>= f).Issues Q := by
  unfold consumeVerificationToken
  rw [Prog.bind_assoc]
  apply issues_call_bind hfind
  intro record?
  cases record? with
  | none => trivial
  | some found =>
      obtain ⟨record, user⟩ := found
      intro moment
      show Prog.Issues Q ((if record.expires_at < moment.now then
        Prog.throw (.domain .TokenExpired)
        else Prog.pure ({ record with used_at := some moment.now }, user)) >>= f)
      split
      · trivial
      · exact hf _ _ (Option.some_ne_none _)

theorem confirm_issues (token : RawToken) :
    (confirm token).Issues (AuthRequest.confirm token).MayCall := by
  apply consumeVerificationToken_bind_issues ⟨rfl, rfl⟩
  intro record user hused
  exact issues_promiseAll hused rfl

theorem mailToken_issues {Q : AuthOp → Prop} {user : UserEntity}
    {channel? : Option Channel} {type : VerificationTokenType}
    {expirationHours : Int} {send : String → String → RawToken → AuthProg Unit}
    (hinvalidate : ∀ at', Q (.invalidateVerificationTokens user.id type at'))
    (hinsert : ∀ v : NewVerificationToken, v.type = type →
      Q (.insertVerificationToken v))
    (hsend : ∀ email name token, (send email name token).Issues Q) :
    (mailToken user channel? type expirationHours send).Issues Q := by
  have hinvalid : (invalidateActiveVerificationTokens user.id type).Issues Q :=
    issues_now_bind fun moment => Prog.Issues.call (hinvalidate moment.now)
  apply hinvalid.bind
  intro _
  have hcreate : (createVerificationToken user.id type
      expirationHours).Issues Q :=
    fun moment => issues_call_bind (hinsert _ rfl) fun _ => trivial
  apply hcreate.bind
  intro rawToken
  cases channel? with
  | none => trivial
  | some channel => exact hsend _ _ _

theorem resendConfirmation_issues (email : String) :
    (resendConfirmation cfg email).Issues
      (AuthRequest.resendConfirmation email).MayCall := by
  apply issues_call_bind trivial
  intro found
  cases found with
  | none => trivial
  | some found =>
      obtain ⟨user, channel?⟩ := found
      dsimp only
      split
      · trivial
      · apply mailToken_issues
        · exact fun _ => rfl
        · exact fun v hv => hv
        · exact fun _ _ _ => Prog.Issues.call trivial

theorem forgotPassword_issues (email : String) :
    (forgotPassword cfg email).Issues
      (AuthRequest.forgotPassword email).MayCall := by
  apply issues_call_bind trivial
  intro found
  cases found with
  | none => trivial
  | some found =>
      apply mailToken_issues
      · exact fun _ => rfl
      · exact fun v hv => hv
      · exact fun _ _ _ => Prog.Issues.call trivial

theorem reuse_issues {Q : AuthOp → Prop} {rawToken : RawToken}
    {record : RefreshToken} {user : UserEntity} {moment : Moment}
    {revokedAt : Int} (hfind : ∀ family, Q (.findActiveInFamily family))
    (hrevoke : ∀ family now, Q (.revokeFamily family now)) :
    (reuse cfg rawToken record user moment revokedAt).Issues Q := by
  dsimp only [reuse]
  split
  · apply issues_call_bind (hfind record.family)
    intro activeInFamily
    cases activeInFamily with
    | none => trivial
    | some active =>
        exact (issues_generateAccessToken cfg _ _).bind fun _ => trivial
  · exact issues_call_bind (hrevoke record.family moment.now) fun _ => trivial

/-- The calls of `refresh`; the record it inserts belongs to a token it has
signed. -/
theorem refresh_issues_of {Q : AuthOp → Prop} {rawToken : RawToken}
    (hfind : Q (.findRefreshToken (hashToken rawToken)))
    (hactive : ∀ family, Q (.findActiveInFamily family))
    (hrevoke : ∀ family now, Q (.revokeFamily family now))
    (hsave : ∀ (record : RefreshToken) now,
      Q (.saveRefreshToken { record with revoked_at := some now }))
    (hinsert : ∀ (record : RefreshToken) m newRefreshToken expiresAt,
      sign cfg m cfg.jwtRefreshSecret cfg.jwtRefreshExpiration
        (.refresh record.user_id record.family m.jti) = .ok newRefreshToken →
      Q (.insertRefreshToken ⟨hashToken newRefreshToken, record.family,
        record.user_id, expiresAt, none⟩)) :
    (refresh cfg rawToken).Issues Q := by
  apply issues_call_bind hfind
  intro record?
  cases record? with
  | none => trivial
  | some found =>
      obtain ⟨record, user⟩ := found
      apply issues_now_bind
      intro moment
      split
      · trivial
      · cases record.revoked_at with
        | none =>
            intro m
            show (Prog.ofExcept (sign cfg m cfg.jwtRefreshSecret
              cfg.jwtRefreshExpiration
              (.refresh record.user_id record.family m.jti)) >>= _).Issues _
            cases hsign : sign cfg m cfg.jwtRefreshSecret
                cfg.jwtRefreshExpiration
                (.refresh record.user_id record.family m.jti) with
            | error e => trivial
            | ok newRefreshToken =>
                rw [Prog.ofExcept_ok_bind]
                apply Prog.Issues.bind
                · exact issues_promiseAll (hsave record moment.now)
                    (hinsert record m newRefreshToken _ hsign)
                · exact fun _ =>
                    (issues_generateAccessToken cfg _ _).bind fun _ => trivial
        | some revokedAt => exact reuse_issues cfg hactive hrevoke

theorem refresh_issues (rawToken : RawToken) :
    (refresh cfg rawToken).Issues (AuthRequest.refresh rawToken).MayCall := by
  apply refresh_issues_of cfg
  · rfl
  · exact fun _ => trivial
  · exact fun _ _ => trivial
  · exact fun _ _ => Option.some_ne_none _
  · exact fun _ _ _ _ _ => rfl

theorem resetPassword_issues (dto : ResetPasswordDto) :
    (resetPassword dto.token dto.new_password).Issues
      (AuthRequest.resetPassword dto).MayCall := by
  apply consumeVerificationToken_bind_issues ⟨rfl, rfl⟩
  intro record user hused
  apply issues_call_bind trivial
  intro hash
  apply Prog.Issues.bind
  · exact issues_promiseAll hused (Option.some_ne_none _)
  · exact fun _ => issues_now_bind fun moment => Prog.Issues.call trivial

theorem canActivate_issues {Q : AuthOp → Prop} (isPublic isOptional : Bool)
    (authorization : Option AuthHeader) :
    (canActivate cfg isPublic isOptional authorization).Issues Q := by
  have hdenied : (if isOptional then Prog.pure none
      else Prog.throw .unauthorized : AuthProg (Option Jwt)).Issues Q := by
    split <;> trivial
  unfold canActivate
  split
  · trivial
  · split
    · apply issues_now_bind
      intro moment
      split
      · trivial
      · exact hdenied
    · exact hdenied

/-- Every program keeps to the calls of its request. -/
theorem serve_mayCall (request : AuthRequest) :
    (serve cfg request).Issues request.MayCall := by
  cases request with
  | register dto => exact (register_issues cfg dto).bind fun _ => trivial
  | login dto => exact (login_issues cfg dto).bind fun _ => trivial
  | confirm token => exact (confirm_issues token).bind fun _ => trivial
  | resendConfirmation email =>
      exact (resendConfirmation_issues cfg email).bind fun _ => trivial
  | refresh rawToken => exact (refresh_issues cfg rawToken).bind fun _ => trivial
  | forgotPassword email =>
      exact (forgotPassword_issues cfg email).bind fun _ => trivial
  | resetPassword dto => exact (resetPassword_issues dto).bind fun _ => trivial
  | logout userId =>
      have hlogout : (logout userId).Issues (AuthRequest.logout userId).MayCall :=
        issues_now_bind fun moment => Prog.Issues.call (by exact rfl)
      exact hlogout.bind fun _ => trivial
  | activate isPublic isOptional authorization =>
      exact (canActivate_issues cfg isPublic isOptional authorization).bind
        fun _ => trivial

end Programs

end Videum.Auth
