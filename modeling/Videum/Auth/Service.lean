import Videum.Auth.Store

/-!
# Registering, signing in and staying signed in

`AuthService` (`auth/auth.service.ts`) with the parts of `UsersService`,
`ChannelsService` and `MailService` it uses, and the global guard
(`auth/guards/jwt-auth.guard.ts`).  Each is a program over the calls of
`Videum.Auth.Store`; `authSystem` puts them on one machine.

What is random is random for the machine too, but never twice the same: a
digest is only inserted into a token table that does not hold it, and a login
opens a family no record has (`authSystem`'s guard).
-/

namespace Videum.Auth

open Videum.Async
open Videum.Common

abbrev AuthProg (α : Type) := Prog AuthIface Moment AuthError α

/-- Await a call to the database, the mailer or argon2. -/
abbrev await (op : AuthOp) : AuthProg op.Res := Prog.call (I := AuthIface) op

/-! ## Configuration and requests -/

/-- `auth.config.ts`, and `ms`, the library that reads the durations for
`jsonwebtoken`. -/
structure AuthConfig where
  jwtSecret : String
  jwtRefreshSecret : String
  jwtAccessExpiration : String := "15m"
  jwtRefreshExpiration : String := "7d"
  confirmationTokenExpirationHours : Int := 1
  passwordResetTokenExpirationHours : Int := 1
  appUrl : String := "http://localhost:3000"
  ms : String → Option Int

/-- `TOKEN_REUSE_GRACE_PERIOD_MS`. -/
def tokenReuseGracePeriodMs : Int := 10000

/-- `RegisterDto`, as the validation pipe lets it through. -/
structure RegisterDto where
  email : String
  password : String
  password_length : 8 ≤ validatedLength password ∧
    validatedLength password ≤ 128
  deriving DecidableEq

/-- `LoginDto`. -/
structure LoginDto where
  email : String
  password : String
  password_length : 1 ≤ password.length
  deriving DecidableEq

/-- `ResetPasswordDto`. -/
structure ResetPasswordDto where
  token : RawToken
  new_password : String
  password_length : 8 ≤ validatedLength new_password ∧
    validatedLength new_password ≤ 128
  deriving DecidableEq

structure TokenPair where
  access_token : RawToken
  refresh_token : RawToken
  deriving DecidableEq, Repr

/-! ## Channels -/

/-- What one character of an e-mail prefix leaves of itself after
`toLowerCase()` and `replace(/[^a-z0-9_]/g, '')`.  The Kelvin sign and the
dotted capital I are the characters outside ASCII with an ASCII letter in
their lower case. -/
def nicknameChar (c : Char) : Option Char :=
  if c = '\u212a' then some 'k'
  else if c = '\u0130' then some 'i'
  else if c.isLower ∨ c.isDigit ∨ c = '_' then some c
  else if c.isUpper then some c.toLower
  else none

/-- `MAX_BASE_LENGTH`: 50 less the suffix `_xxx`. -/
def maxBaseLength : Nat := 46

def hexDigit (d : Fin 16) : Char :=
  if d.val < 10 then Char.ofNat ('0'.toNat + d.val)
  else Char.ofNat ('a'.toNat + (d.val - 10))

def randomHex (moment : Moment) (length : Nat) : String :=
  String.ofList ((List.range length).map fun i =>
    hexDigit (moment.hexDigits i))

def sanitizeNickname (moment : Moment) (emailPrefix : String) : String :=
  let sanitized := String.ofList
    ((emailPrefix.toList.filterMap nicknameChar).take maxBaseLength)
  if sanitized = "" then "user_" ++ randomHex moment 8 else sanitized

def appendRandomSuffix (moment : Moment) (nickname : String) : String :=
  String.ofList (nickname.toList.take maxBaseLength) ++ "_" ++
    randomHex moment 3

/-- `email.split('@')[0]`. -/
def emailPrefix (email : String) : String :=
  String.ofList (email.toList.takeWhile (· != '@'))

/-- `MAX_RETRIES`. -/
def maxRetries : Nat := 5

/-- The loop of `createChannel`, with `attempts` turns left.  After a unique
violation the transaction is aborted, and the next query in it fails. -/
def tryNicknames (userId : Nat) (baseNickname : String) :
    (attempts : Nat) → (aborted : Bool) → (nickname : String) →
      AuthProg Channel
  | 0, _, _ => Prog.throw .nicknameConflict
  | attempts + 1, aborted, nickname => do
      let existing ← await (.findChannelByNickname aborted nickname)
      match existing with
      | some _ =>
          let moment ← Prog.now
          tryNicknames userId baseNickname attempts aborted
            (appendRandomSuffix moment baseNickname)
      | none =>
          let saved ← Prog.tryCatch
            (do
              let channel ←
                await (.insertChannel baseNickname nickname userId)
              return some channel)
            fun err =>
              if err = .uniqueNickname then Prog.pure none else Prog.throw err
          match saved with
          | some channel => return channel
          | none =>
              let moment ← Prog.now
              tryNicknames userId baseNickname attempts true
                (appendRandomSuffix moment baseNickname)

/-- `ChannelsService.createChannel`. -/
def createChannel (userId : Nat) (email : String) : AuthProg Channel := do
  let moment ← Prog.now
  let baseNickname := sanitizeNickname moment (emailPrefix email)
  tryNicknames userId baseNickname (maxRetries + 1) false baseNickname

/-! ## Users -/

/-- `UsersService.createUserWithChannel`: a user without a channel is
deleted again. -/
def createUserWithChannel (email : String) (hashedPassword : PasswordHash) :
    AuthProg (UserEntity × Channel) := do
  let savedUser ← await (.insertUser email hashedPassword)
  Prog.tryCatch
    (do
      let channel ← createChannel savedUser.id email
      return (savedUser, channel))
    fun err => do
      await (.deleteUser savedUser.id)
      Prog.throw err

/-! ## Mails -/

def sendConfirmationEmail (cfg : AuthConfig) (email name : String)
    (token : RawToken) : AuthProg Unit :=
  await (.sendMail
    { «to» := email
      subject := "Confirm your email — StreamTube"
      template := "confirmation"
      name := name
      link := ⟨cfg.appUrl, "/auth/confirm-email", token⟩ })

def sendPasswordResetEmail (cfg : AuthConfig) (email name : String)
    (token : RawToken) : AuthProg Unit :=
  await (.sendMail
    { «to» := email
      subject := "Reset your password — StreamTube"
      template := "password-reset"
      name := name
      link := ⟨cfg.appUrl, "/auth/reset-password", token⟩ })

/-! ## Web tokens -/

/-- Milliseconds of the units `s`, `m`, `h` and `d`. -/
def unitMs (c : Char) : Int :=
  if c = 's' then 1000
  else if c = 'm' then 60000
  else if c = 'h' then 3600000
  else if c = 'd' then 86400000
  else 0

def parseDigits (digits : List Char) : Int :=
  digits.foldl (fun n c => 10 * n + ((c.toNat - '0'.toNat : Nat) : Int)) 0

/-- `jwtExpirationToMs`: what does not match `^(\d+)([smhd])$` counts as
0. -/
def jwtExpirationToMs (exp : String) : Int :=
  match exp.toList.reverse with
  | [] => 0
  | unit :: digits =>
      if digits ≠ [] ∧ digits.all Char.isDigit then
        parseDigits digits.reverse * unitMs unit
      else 0

/-- `jsonwebtoken`'s `sign`: `expiresIn` has to be a duration. -/
def sign (cfg : AuthConfig) (moment : Moment) (secret expiresIn : String)
    (claims : JwtClaims) : Except AuthError RawToken :=
  match cfg.ms expiresIn with
  | none => .error .jwt
  | some lifetime =>
      .ok (.jwt ⟨secret, claims, moment.now / 1000,
        moment.now / 1000 + lifetime / 1000⟩)

def generateAccessToken (cfg : AuthConfig) (userId : Nat) (email : String) :
    AuthProg RawToken := do
  let moment ← Prog.now
  Prog.ofExcept
    (sign cfg moment cfg.jwtSecret cfg.jwtAccessExpiration
      (.access userId email))

def generateRefreshToken (cfg : AuthConfig) (userId family : Nat) :
    AuthProg RawToken := do
  let moment ← Prog.now
  Prog.ofExcept
    (sign cfg moment cfg.jwtRefreshSecret cfg.jwtRefreshExpiration
      (.refresh userId family moment.jti))

def hashToken (raw : RawToken) : TokenHash := ⟨raw⟩

/-! ## Verification tokens -/

def createVerificationToken (userId : Nat) (type : VerificationTokenType)
    (expirationHours : Int) : AuthProg RawToken := do
  let moment ← Prog.now
  let rawToken := RawToken.hex moment.bytes
  await (.insertVerificationToken
    { token_hash := hashToken rawToken
      type := type
      user_id := userId
      expires_at := moment.now + expirationHours * 60 * 60 * 1000 })
  return rawToken

def invalidateActiveVerificationTokens (userId : Nat)
    (type : VerificationTokenType) : AuthProg Unit := do
  let moment ← Prog.now
  await (.invalidateVerificationTokens userId type moment.now)

/-- The record is marked used in memory; the caller saves it. -/
def consumeVerificationToken (token : RawToken)
    (type : VerificationTokenType) :
    AuthProg (VerificationToken × UserEntity) := do
  let record? ← await (.findVerificationToken (hashToken token) type)
  match record? with
  | none => Prog.throw (.domain .InvalidToken)
  | some (record, user) =>
      let moment ← Prog.now
      if record.expires_at < moment.now then
        Prog.throw (.domain .TokenExpired)
      else return ({ record with used_at := some moment.now }, user)

/-! ## `AuthService` -/

def register (cfg : AuthConfig) (dto : RegisterDto) :
    AuthProg (Nat × String) := do
  let existing ← await (.findUserByEmail dto.email)
  match existing with
  | some _ => Prog.throw (.domain .EmailAlreadyExists)
  | none =>
      let hashedPassword ← await (.hashPassword dto.password)
      let (user, channel) ← createUserWithChannel dto.email hashedPassword
      let rawToken ← createVerificationToken user.id .EMAIL_CONFIRMATION
        cfg.confirmationTokenExpirationHours
      sendConfirmationEmail cfg user.email channel.name rawToken
      return (user.id, user.email)

/-- `login` once the password is right and the address confirmed: open a new
family with one record. -/
def openSession (cfg : AuthConfig) (user : UserEntity) :
    AuthProg TokenPair := do
  let moment ← Prog.now
  let refreshToken ← generateRefreshToken cfg user.id moment.family
  await (.insertRefreshToken
    { token_hash := hashToken refreshToken
      family := moment.family
      user_id := user.id
      expires_at := moment.now + jwtExpirationToMs cfg.jwtRefreshExpiration
      revoked_at := none })
  let accessToken ← generateAccessToken cfg user.id user.email
  return ⟨accessToken, refreshToken⟩

def login (cfg : AuthConfig) (dto : LoginDto) : AuthProg TokenPair := do
  let user? ← await (.findUserByEmail dto.email)
  match user? with
  | none => Prog.throw (.domain .InvalidCredentials)
  | some user =>
      match user.password with
      -- the query selects the column
      | none => Prog.throw .typeError
      | some hash =>
          let isPasswordValid : Bool ← await (.verifyPassword hash dto.password)
          if isPasswordValid = false then
            Prog.throw (.domain .InvalidCredentials)
          else if user.is_confirmed = false then
            Prog.throw (.domain .EmailNotConfirmed)
          else openSession cfg user

def confirm (token : RawToken) : AuthProg Unit := do
  let (record, user) ← consumeVerificationToken token .EMAIL_CONFIRMATION
  Prog.promiseAll Moment.swapped
    (.saveVerificationToken record)
    (.saveUser { user with is_confirmed := true })

/-- The end of `resendConfirmation` and `forgotPassword`: a new token, mailed
by `send`.  A user without a channel has no `channel.name`. -/
def mailToken (user : UserEntity) (channel? : Option Channel)
    (type : VerificationTokenType) (expirationHours : Int)
    (send : String → String → RawToken → AuthProg Unit) : AuthProg Unit := do
  invalidateActiveVerificationTokens user.id type
  let rawToken ← createVerificationToken user.id type expirationHours
  match channel? with
  | none => Prog.throw .typeError
  | some channel => send user.email channel.name rawToken

def resendConfirmation (cfg : AuthConfig) (email : String) :
    AuthProg Unit := do
  let found ← await (.findUserByEmailWithChannel email)
  match found with
  | none => return ()
  | some (user, channel?) =>
      if user.is_confirmed then return ()
      else
        mailToken user channel? .EMAIL_CONFIRMATION
          cfg.confirmationTokenExpirationHours (sendConfirmationEmail cfg)

def forgotPassword (cfg : AuthConfig) (email : String) : AuthProg Unit := do
  let found ← await (.findUserByEmailWithChannel email)
  match found with
  | none => return ()
  | some (user, channel?) =>
      mailToken user channel? .PASSWORD_RESET
        cfg.passwordResetTokenExpirationHours (sendPasswordResetEmail cfg)

/-- `refresh` on a record that is already revoked: within the grace period
the same token is handed back, after it the family is revoked. -/
def reuse (cfg : AuthConfig) (rawToken : RawToken) (record : RefreshToken)
    (user : UserEntity) (moment : Moment) (revokedAt : Int) :
    AuthProg TokenPair :=
  if moment.now - revokedAt ≤ tokenReuseGracePeriodMs then do
    let activeInFamily ← await (.findActiveInFamily record.family)
    match activeInFamily with
    | none => Prog.throw (.domain .InvalidToken)
    | some _ =>
        let accessToken ← generateAccessToken cfg record.user_id user.email
        return ⟨accessToken, rawToken⟩
  else do
    await (.revokeFamily record.family moment.now)
    Prog.throw (.domain .TokenReuseDetected)

/-- `refresh` on a live record: revoke it and insert its successor. -/
def rotate (cfg : AuthConfig) (record : RefreshToken) (user : UserEntity)
    (moment : Moment) : AuthProg TokenPair := do
  let newRefreshToken ←
    generateRefreshToken cfg record.user_id record.family
  Prog.promiseAll Moment.swapped
    (.saveRefreshToken { record with revoked_at := some moment.now })
    (.insertRefreshToken
      { token_hash := hashToken newRefreshToken
        family := record.family
        user_id := record.user_id
        expires_at :=
          moment.now + jwtExpirationToMs cfg.jwtRefreshExpiration
        revoked_at := none })
  let accessToken ← generateAccessToken cfg record.user_id user.email
  return ⟨accessToken, newRefreshToken⟩

def refresh (cfg : AuthConfig) (rawToken : RawToken) :
    AuthProg TokenPair := do
  let record? ← await (.findRefreshToken (hashToken rawToken))
  match record? with
  | none => Prog.throw (.domain .InvalidToken)
  | some (record, user) =>
      let moment ← Prog.now
      if record.expires_at < moment.now then
        Prog.throw (.domain .TokenExpired)
      else
        match record.revoked_at with
        | some revokedAt => reuse cfg rawToken record user moment revokedAt
        | none => rotate cfg record user moment

def logout (userId : Nat) : AuthProg Unit := do
  let moment ← Prog.now
  await (.revokeUser userId moment.now)

def resetPassword (token : RawToken) (newPassword : String) :
    AuthProg Unit := do
  let (record, user) ← consumeVerificationToken token .PASSWORD_RESET
  let hash ← await (.hashPassword newPassword)
  Prog.promiseAll Moment.swapped
    (.saveVerificationToken record)
    (.saveUser { user with password := some hash })
  logout user.id

/-! ## `JwtAuthGuard` -/

/-- The `authorization` header of a request. -/
inductive AuthHeader
  | bearer (token : RawToken)
  | other (text : String)
  deriving DecidableEq, Repr

/-- `jwtService.verifyAsync`: the signature is checked with the access
secret, the expiry against the clock in seconds. -/
def verifyJwt (cfg : AuthConfig) (moment : Moment) : RawToken → Option Jwt
  | .jwt j =>
      if j.secret = cfg.jwtSecret ∧ moment.now / 1000 < j.exp then some j
      else none
  | _ => none

/-- `canActivate`: what the guard attaches as `request.user` when it lets a
request through. -/
def canActivate (cfg : AuthConfig) (isPublic isOptional : Bool)
    (authorization : Option AuthHeader) : AuthProg (Option Jwt) :=
  if isPublic then return none
  else
    match authorization with
    | some (.bearer token) => do
        let moment ← Prog.now
        match verifyJwt cfg moment token with
        | some payload => return some payload
        | none =>
            if isOptional then return none else Prog.throw .unauthorized
    | _ => if isOptional then return none else Prog.throw .unauthorized

/-! ## The system -/

inductive AuthRequest
  | register (dto : RegisterDto)
  | login (dto : LoginDto)
  | confirm (token : RawToken)
  | resendConfirmation (email : String)
  | refresh (rawToken : RawToken)
  | forgotPassword (email : String)
  | resetPassword (dto : ResetPasswordDto)
  | logout (userId : Nat)
  | activate (isPublic isOptional : Bool) (authorization : Option AuthHeader)
  deriving DecidableEq

inductive AuthReply
  | registered (id : Nat) (email : String)
  | tokens (pair : TokenPair)
  | activated (user : Option Jwt)
  | done

/-- The program serving a request of the auth controller, and the guard in
front of every route. -/
def serve (cfg : AuthConfig) : AuthRequest → AuthProg AuthReply
  | .register dto => do
      let (id, email) ← register cfg dto
      return .registered id email
  | .login dto => do
      let pair ← login cfg dto
      return .tokens pair
  | .confirm token => do
      confirm token
      return .done
  | .resendConfirmation email => do
      resendConfirmation cfg email
      return .done
  | .refresh rawToken => do
      let pair ← refresh cfg rawToken
      return .tokens pair
  | .forgotPassword email => do
      forgotPassword cfg email
      return .done
  | .resetPassword dto => do
      resetPassword dto.token dto.new_password
      return .done
  | .logout userId => do
      logout userId
      return .done
  | .activate isPublic isOptional authorization => do
      let user ← canActivate cfg isPublic isOptional authorization
      return .activated user

/-- The digest is new in `refresh_tokens`. -/
def Store.freshRefreshHash (s : Store) (h : TokenHash) : Bool :=
  s.refresh_tokens.rows.all (·.token_hash != h)

def Store.freshFamily (s : Store) (family : Nat) : Bool :=
  s.refresh_tokens.rows.all (·.family != family)

/-- The digest is new in `verification_tokens`. -/
def Store.freshVerificationHash (s : Store) (h : TokenHash) : Bool :=
  s.verification_tokens.rows.all (·.token_hash != h)

/-- Random values do not collide: not the digests of new tokens, and not the
families logins open. -/
def freshRandomness (request : AuthRequest) (op : AuthOp) (s : Store) :
    Bool :=
  match op with
  | .insertVerificationToken v => s.freshVerificationHash v.token_hash
  | .insertRefreshToken r =>
      match request with
      | .login _ => s.freshRefreshHash r.token_hash && s.freshFamily r.family
      | _ => s.freshRefreshHash r.token_hash
  | _ => true

def authSystem (cfg : AuthConfig) :
    System AuthIface Moment AuthError Store AuthRequest AuthReply where
  exec := Store.exec
  guard request _ op s := freshRandomness request op s
  body := serve cfg

abbrev AuthPolicy := Policy AuthIface Moment AuthError Store AuthRequest
  AuthReply

/-- Any request at any time; nothing fails. -/
def anyOrder : AuthPolicy where
  accepts _ _ := True
  fault _ _ := false

/-- Any request at any time, and any call may fail. -/
def anyRun : AuthPolicy where
  accepts _ _ := True
  fault _ _ := true

abbrev AuthLog := Log AuthIface Moment AuthError Store AuthRequest

abbrev AuthEntry := Entry AuthIface Moment AuthError Store AuthRequest

abbrev AuthRun := Config AuthIface Moment AuthError Store AuthRequest
  AuthReply

abbrev AuthThread := Thread AuthIface Moment AuthError AuthRequest AuthReply

abbrev AuthTick := Tick Moment AuthError AuthRequest

/-! ## Concrete runs -/

/-- The defaults, with the durations `ms` reads out of them. -/
def sampleConfig : AuthConfig where
  jwtSecret := "secret"
  jwtRefreshSecret := "refresh-secret"
  ms expiresIn :=
    if expiresIn = "15m" then some 900000
    else if expiresIn = "7d" then some 604800000
    else none

def sampleEmail : String := "user@example.com"

def sampleUser : User := ⟨0, sampleEmail, ⟨"correctpassword", 0⟩, true⟩

theorem id_sampleUser : sampleUser.id = 0 := rfl

def sampleChannel : Channel := ⟨0, "user", "user", 0⟩

theorem id_sampleChannel : sampleChannel.id = 0 := rfl

/-- One confirmed user, and nothing else. -/
def sampleStore : Store where
  users := ({} : Table User User.id).insert sampleUser id_sampleUser

def sampleRegister : AuthRequest :=
  .register ⟨sampleEmail, "correctpassword", by decide⟩

def sampleLogin : AuthRequest :=
  .login ⟨sampleEmail, "correctpassword", by decide⟩

/-- The refresh token `sampleConfig` signs for the sample user. -/
def sampleToken (family jti : Nat) (now : Int) : RawToken :=
  .jwt ⟨"refresh-secret", .refresh 0 family jti, now / 1000,
    now / 1000 + 604800⟩

/-- Where a concrete schedule takes the process. -/
def authRun (P : AuthPolicy) (s₀ : Store) (xs : List AuthTick)
    (h : ((authSystem sampleConfig).schedule P (Config.start s₀) xs).isSome
      = true) : AuthRun :=
  ((authSystem sampleConfig).schedule P (Config.start s₀) xs).get h

theorem reachable_authRun {P : AuthPolicy} {s₀ : Store} (xs : List AuthTick)
    (h : ((authSystem sampleConfig).schedule P (Config.start s₀) xs).isSome
      = true)
    (hok : (authSystem sampleConfig).Admitted P (Config.start s₀) xs) :
    Reachable (authSystem sampleConfig) P s₀ (authRun P s₀ xs h) :=
  Reachable.of_schedule xs h hok

theorem admitted_of_accepts {P : AuthPolicy}
    (hP : ∀ c request, P.accepts c request) (xs : List AuthTick)
    (c : AuthRun) : (authSystem sampleConfig).Admitted P c xs :=
  System.admitted_of_forall xs (fun c request _ _ => hP c request) c

/-- Where a concrete schedule takes the process from `c` on. -/
def authRunFrom (P : AuthPolicy) (c : AuthRun) (xs : List AuthTick)
    (h : ((authSystem sampleConfig).schedule P c xs).isSome = true) : AuthRun :=
  ((authSystem sampleConfig).schedule P c xs).get h

theorem steps_authRunFrom {P : AuthPolicy} {c : AuthRun} (xs : List AuthTick)
    (h : ((authSystem sampleConfig).schedule P c xs).isSome = true)
    (hok : (authSystem sampleConfig).Admitted P c xs) :
    Steps (authSystem sampleConfig) P c (authRunFrom P c xs h) :=
  Steps.of_schedule xs (Option.some_get h).symm hok

end Videum.Auth
