import Videum.Async.Machine
import Videum.Common.Exceptions
import Videum.Common.Table

/-!
# The tables behind authentication

`users`, `channels`, `verification_tokens` and `refresh_tokens`
(`users/entities`, `channels/entities`, `auth/entities`), with the calls
`AuthService`, `UsersService` and `ChannelsService` make on them, the mailer
and `argon2`.  Every call is one atomic step on the shared `Store`.

* `save(entity)` on a loaded entity writes its loaded columns.  The column
  `users.password` is loaded only on request (`select: false`).
* The rows of the token tables and of `channels` reference their user, and
  the database refuses to insert one without its user and to delete a user
  that is referenced.  A join with the user therefore finds one.
* A token is stored as its SHA-256 digest.  `TokenHash` keeps what was
  digested, so different tokens have different digests; a password hash keeps
  password and salt for the same reason.
* The web token and the random token are kept as what they say, not as
  text: nobody can make a `Jwt` without naming the secret that signs it.
-/

namespace Videum.Auth

open Videum.Async
open Videum.Common

/-! ## Tokens and hashes -/

/-- The payloads `AuthService` signs. -/
inductive JwtClaims
  | access (sub : Nat) (email : String)
  | refresh (sub family jti : Nat)
  deriving DecidableEq, Repr

namespace JwtClaims

def sub : JwtClaims → Nat
  | access sub _ => sub
  | refresh sub _ _ => sub

end JwtClaims

/-- A signed JSON web token; `iat` and `exp` count seconds. -/
structure Jwt where
  secret : String
  claims : JwtClaims
  iat : Int
  exp : Int
  deriving DecidableEq, Repr

/-- What a client can present as a token: 32 random bytes in hex, a web
token, or any other text. -/
inductive RawToken
  | hex (bytes : Nat)
  | jwt (j : Jwt)
  | other (text : String)
  deriving DecidableEq, Repr

/-- The SHA-256 digest of a token. -/
structure TokenHash where
  raw : RawToken
  deriving DecidableEq, Repr

/-- An argon2 hash. -/
structure PasswordHash where
  password : String
  salt : Nat
  deriving DecidableEq, Repr

/-! ## Rows and entities -/

inductive VerificationTokenType
  | EMAIL_CONFIRMATION
  | PASSWORD_RESET
  deriving DecidableEq, Repr

/-- `users` row. -/
structure User where
  id : Nat
  email : String
  password : PasswordHash
  is_confirmed : Bool
  deriving DecidableEq, Repr

/-- A loaded user; `password` is `none` where the column was not selected. -/
structure UserEntity where
  id : Nat
  email : String
  password : Option PasswordHash
  is_confirmed : Bool
  deriving DecidableEq, Repr

/-- `channels` row. -/
structure Channel where
  id : Nat
  name : String
  nickname : String
  user_id : Nat
  deriving DecidableEq, Repr

/-- `verification_tokens` row.  Dates are milliseconds since the epoch. -/
structure VerificationToken where
  id : Nat
  token_hash : TokenHash
  type : VerificationTokenType
  user_id : Nat
  expires_at : Int
  used_at : Option Int
  deriving DecidableEq, Repr

/-- The columns set on a new `verification_tokens` row. -/
structure NewVerificationToken where
  token_hash : TokenHash
  type : VerificationTokenType
  user_id : Nat
  expires_at : Int
  deriving DecidableEq, Repr

/-- `refresh_tokens` row. -/
structure RefreshToken where
  id : Nat
  token_hash : TokenHash
  family : Nat
  user_id : Nat
  expires_at : Int
  revoked_at : Option Int
  deriving DecidableEq, Repr

/-- The columns set on a new `refresh_tokens` row. -/
structure NewRefreshToken where
  token_hash : TokenHash
  family : Nat
  user_id : Nat
  expires_at : Int
  revoked_at : Option Int
  deriving DecidableEq, Repr

/-- The user without the unselected column. -/
def User.entity (u : User) : UserEntity := ⟨u.id, u.email, none, u.is_confirmed⟩

def User.entityWithPassword (u : User) : UserEntity :=
  ⟨u.id, u.email, some u.password, u.is_confirmed⟩

/-- The columns a save of `u` writes on the row of that user. -/
def UserEntity.write (u : UserEntity) (row : User) : User :=
  if row.id = u.id then
    ⟨row.id, u.email, u.password.getD row.password, u.is_confirmed⟩
  else row

theorem UserEntity.write_id (u : UserEntity) (row : User) :
    (u.write row).id = row.id := by
  unfold UserEntity.write
  split <;> rfl

/-- `used_at` of the row, set at `usedAt` unless it has a value. -/
def VerificationToken.use (usedAt : Int) (r : VerificationToken) :
    VerificationToken :=
  { r with used_at := r.used_at.or (some usedAt) }

/-- `revoked_at` of the record, set at `revokedAt` unless it has a value. -/
def RefreshToken.revoke (revokedAt : Int) (r : RefreshToken) : RefreshToken :=
  { r with revoked_at := r.revoked_at.or (some revokedAt) }

/-- A link in a mail: `<appUrl><path>?token=<token>`. -/
structure MailLink where
  appUrl : String
  path : String
  token : RawToken
  deriving DecidableEq, Repr

structure Mail where
  «to» : String
  subject : String
  template : String
  name : String
  link : MailLink
  deriving DecidableEq, Repr

structure Store where
  users : Table User User.id := {}
  channels : Table Channel Channel.id := {}
  verification_tokens :
    Table VerificationToken VerificationToken.id := {}
  refresh_tokens : Table RefreshToken RefreshToken.id := {}

def zeroDigits (_ : Nat) : Fin 16 := 0

/-- What the outside world decides at one moment: the clock, the next
`randomBytes(32)`, the next two random UUIDs, the next salt and the next hex
digits, and in which order the two calls of a `Promise.all` arrive. -/
structure Moment where
  now : Int := 0
  bytes : Nat := 0
  family : Nat := 0
  jti : Nat := 0
  salt : Nat := 0
  hexDigits : Nat → Fin 16 := zeroDigits
  swapped : Bool := false

/-- `uniqueNickname` is the unique violation on `channels.nickname`,
`database` any other failed query. -/
inductive AuthError
  | domain (e : DomainException)
  | unauthorized
  | database
  | uniqueNickname
  | nicknameConflict
  | typeError
  | jwt
  | mail
  | argon2
  deriving DecidableEq, Repr

/-! ## Awaited calls -/

inductive AuthOp
  | findUserByEmail (email : String)
  | findUserByEmailWithChannel (email : String)
  | insertUser (email : String) (password : PasswordHash)
  | saveUser (user : UserEntity)
  | deleteUser (id : Nat)
  | findChannelByNickname (aborted : Bool) (nickname : String)
  | insertChannel (name nickname : String) (userId : Nat)
  | findVerificationToken (tokenHash : TokenHash)
      (type : VerificationTokenType)
  | insertVerificationToken (v : NewVerificationToken)
  | saveVerificationToken (v : VerificationToken)
  | invalidateVerificationTokens (userId : Nat)
      (type : VerificationTokenType) (usedAt : Int)
  | findRefreshToken (tokenHash : TokenHash)
  | findActiveInFamily (family : Nat)
  | insertRefreshToken (r : NewRefreshToken)
  | saveRefreshToken (r : RefreshToken)
  | revokeFamily (family : Nat) (revokedAt : Int)
  | revokeUser (userId : Nat) (revokedAt : Int)
  | sendMail (mail : Mail)
  | hashPassword (password : String)
  | verifyPassword (hash : PasswordHash) (password : String)
  deriving DecidableEq

def AuthOp.Res : AuthOp → Type
  | .findUserByEmail _ => Option UserEntity
  | .findUserByEmailWithChannel _ => Option (UserEntity × Option Channel)
  | .insertUser _ _ => UserEntity
  | .findChannelByNickname _ _ => Option Channel
  | .insertChannel _ _ _ => Channel
  | .findVerificationToken _ _ => Option (VerificationToken × UserEntity)
  | .findRefreshToken _ => Option (RefreshToken × UserEntity)
  | .findActiveInFamily _ => Option RefreshToken
  | .hashPassword _ => PasswordHash
  | .verifyPassword _ _ => Bool
  | _ => Unit

abbrev AuthIface : Iface := ⟨AuthOp, AuthOp.Res⟩

namespace Store

def userById (s : Store) (id : Nat) : Option User :=
  s.users.rows.find? (·.id == id)

def userByEmail (s : Store) (email : String) : Option User :=
  s.users.rows.find? (·.email == email)

def channelOf (s : Store) (userId : Nat) : Option Channel :=
  s.channels.rows.find? (·.user_id == userId)

/-- Some row references the user. -/
def referenced (s : Store) (id : Nat) : Bool :=
  s.channels.rows.any (·.user_id == id) ||
  s.verification_tokens.rows.any (·.user_id == id) ||
  s.refresh_tokens.rows.any (·.user_id == id)

/-- `users.email` is unique, and `is_confirmed` defaults to false. -/
def insertUser (s : Store) (email : String) (password : PasswordHash) :
    Except AuthError UserEntity × Store :=
  match s.userByEmail email with
  | some _ => (.error .database, s)
  | none =>
      (.ok ⟨s.users.nextId, email, some password, false⟩,
        { s with
          users := s.users.insert
            ⟨s.users.nextId, email, password, false⟩ rfl })

/-- It touches the users only. -/
theorem insertUser_only (s : Store) (email : String) (password : PasswordHash) :
    (s.insertUser email password).2 =
      { s with users := (s.insertUser email password).2.users } := by
  unfold insertUser
  split <;> rfl

def saveUser (s : Store) (u : UserEntity) : Store :=
  { s with
    users := s.users.update u.write u.write_id }

def deleteUser (s : Store) (id : Nat) : Except AuthError Unit × Store :=
  if s.referenced id then (.error .database, s)
  else (.ok (), { s with users := s.users.delete (·.id == id) })

theorem deleteUser_only (s : Store) (id : Nat) :
    (s.deleteUser id).2 = { s with users := (s.deleteUser id).2.users } := by
  unfold deleteUser
  split <;> rfl

/-- Inside the transaction that adds a channel; after a failed statement the
transaction answers no more queries. -/
def findChannelByNickname (s : Store) (aborted : Bool) (nickname : String) :
    Except AuthError (Option Channel) :=
  if aborted then .error .database
  else .ok (s.channels.rows.find? (·.nickname == nickname))

/-- `nickname` and `user_id` are unique, names have at most 50 characters,
and the user must exist. -/
def insertChannel (s : Store) (name nickname : String) (userId : Nat) :
    Except AuthError Channel × Store :=
  if name.length > 50 ∨ nickname.length > 50 then (.error .database, s)
  else if s.channels.rows.any (·.nickname == nickname) then
    (.error .uniqueNickname, s)
  else if s.channels.rows.any (·.user_id == userId) ∨
      (s.userById userId).isNone then (.error .database, s)
  else
    (.ok ⟨s.channels.nextId, name, nickname, userId⟩,
      { s with
        channels := s.channels.insert
          ⟨s.channels.nextId, name, nickname, userId⟩ rfl })

theorem insertChannel_only (s : Store) (name nickname : String)
    (userId : Nat) :
    (s.insertChannel name nickname userId).2 =
      { s with channels := (s.insertChannel name nickname userId).2.channels } := by
  unfold insertChannel
  split
  · rfl
  · split
    · rfl
    · split <;> rfl

/-- The unused token with this digest and type, with its user. -/
def findVerificationToken (s : Store) (tokenHash : TokenHash)
    (type : VerificationTokenType) :
    Option (VerificationToken × UserEntity) :=
  (s.verification_tokens.rows.find? fun r =>
    r.token_hash == tokenHash && r.type == type && r.used_at.isNone).bind
      fun r => (s.userById r.user_id).map fun u => (r, u.entity)

/-- The row inserted for `v`; `used_at` has no value yet. -/
def newVerificationToken (s : Store) (v : NewVerificationToken) :
    VerificationToken :=
  ⟨s.verification_tokens.nextId, v.token_hash, v.type, v.user_id,
    v.expires_at, none⟩

theorem newVerificationToken_id (s : Store) (v : NewVerificationToken) :
    (s.newVerificationToken v).id = s.verification_tokens.nextId := rfl

def insertVerificationToken (s : Store) (v : NewVerificationToken) :
    Except AuthError Unit × Store :=
  match s.userById v.user_id with
  | none => (.error .database, s)
  | some _ =>
      (.ok (), { s with
        verification_tokens :=
          s.verification_tokens.insert (s.newVerificationToken v)
            (s.newVerificationToken_id v) })

theorem insertVerificationToken_ok {s : Store} {v : NewVerificationToken}
    {u : User} (h : s.userById v.user_id = some u) :
    (s.insertVerificationToken v).1 = .ok () := by
  rw [insertVerificationToken, h]

theorem insertVerificationToken_only (s : Store) (v : NewVerificationToken) :
    (s.insertVerificationToken v).2 =
      { s with
        verification_tokens :=
          (s.insertVerificationToken v).2.verification_tokens } := by
  unfold insertVerificationToken
  split <;> rfl

def saveVerificationToken (s : Store) (v : VerificationToken) : Store :=
  { s with verification_tokens := s.verification_tokens.save v }

def invalidateVerificationTokens (s : Store) (userId : Nat)
    (type : VerificationTokenType) (usedAt : Int) : Store :=
  { s with
    verification_tokens := s.verification_tokens.update
      (fun r =>
        if r.user_id = userId ∧ r.type = type then
          r.use usedAt
        else r)
      (by intro r; split <;> rfl) }

/-- The record with this digest, with its user. -/
def findRefreshToken (s : Store) (tokenHash : TokenHash) :
    Option (RefreshToken × UserEntity) :=
  (s.refresh_tokens.rows.find? (·.token_hash == tokenHash)).bind fun r =>
    (s.userById r.user_id).map fun u => (r, u.entity)

def findActiveInFamily (s : Store) (family : Nat) : Option RefreshToken :=
  s.refresh_tokens.rows.find? fun r =>
    r.family == family && r.revoked_at.isNone

def newRefreshToken (s : Store) (r : NewRefreshToken) : RefreshToken :=
  ⟨s.refresh_tokens.nextId, r.token_hash, r.family, r.user_id,
    r.expires_at, r.revoked_at⟩

theorem newRefreshToken_id (s : Store) (r : NewRefreshToken) :
    (s.newRefreshToken r).id = s.refresh_tokens.nextId := rfl

def insertRefreshToken (s : Store) (r : NewRefreshToken) :
    Except AuthError Unit × Store :=
  match s.userById r.user_id with
  | none => (.error .database, s)
  | some _ =>
      (.ok (), { s with
        refresh_tokens :=
          s.refresh_tokens.insert (s.newRefreshToken r)
            (s.newRefreshToken_id r) })

theorem insertRefreshToken_ok {s : Store} {r : NewRefreshToken} {u : User}
    (h : s.userById r.user_id = some u) :
    (s.insertRefreshToken r).1 = .ok () := by
  rw [insertRefreshToken, h]

theorem insertRefreshToken_only (s : Store) (r : NewRefreshToken) :
    (s.insertRefreshToken r).2 =
      { s with refresh_tokens := (s.insertRefreshToken r).2.refresh_tokens } := by
  unfold insertRefreshToken
  split <;> rfl

def saveRefreshToken (s : Store) (r : RefreshToken) : Store :=
  { s with refresh_tokens := s.refresh_tokens.save r }

/-- `UPDATE refresh_tokens SET revoked_at = … WHERE p AND revoked_at IS
NULL`. -/
def revokeWhere (s : Store) (p : RefreshToken → Bool) (revokedAt : Int) :
    Store :=
  { s with
    refresh_tokens := s.refresh_tokens.update
      (fun r => if p r then r.revoke revokedAt else r)
      (by intro r; split <;> rfl) }

/-- The answer to a call, and the tables after it. -/
def exec (m : Moment) :
    (op : AuthOp) → Store → Except AuthError op.Res × Store
  | .findUserByEmail email, s =>
      (.ok ((s.userByEmail email).map User.entityWithPassword), s)
  | .findUserByEmailWithChannel email, s =>
      (.ok ((s.userByEmail email).map fun u =>
        (u.entity, s.channelOf u.id)), s)
  | .insertUser email password, s => s.insertUser email password
  | .saveUser u, s => (.ok (), s.saveUser u)
  | .deleteUser id, s => s.deleteUser id
  | .findChannelByNickname aborted nickname, s =>
      (s.findChannelByNickname aborted nickname, s)
  | .insertChannel name nickname userId, s =>
      s.insertChannel name nickname userId
  | .findVerificationToken tokenHash type, s =>
      (.ok (s.findVerificationToken tokenHash type), s)
  | .insertVerificationToken v, s => s.insertVerificationToken v
  | .saveVerificationToken v, s => (.ok (), s.saveVerificationToken v)
  | .invalidateVerificationTokens userId type usedAt, s =>
      (.ok (), s.invalidateVerificationTokens userId type usedAt)
  | .findRefreshToken tokenHash, s => (.ok (s.findRefreshToken tokenHash), s)
  | .findActiveInFamily family, s => (.ok (s.findActiveInFamily family), s)
  | .insertRefreshToken r, s => s.insertRefreshToken r
  | .saveRefreshToken r, s => (.ok (), s.saveRefreshToken r)
  | .revokeFamily family revokedAt, s =>
      (.ok (), s.revokeWhere (·.family == family) revokedAt)
  | .revokeUser userId revokedAt, s =>
      (.ok (), s.revokeWhere (·.user_id == userId) revokedAt)
  | .sendMail _, s => (.ok (), s)
  | .hashPassword password, s => (.ok ⟨password, m.salt⟩, s)
  | .verifyPassword hash password, s => (.ok (hash.password == password), s)

end Store

end Videum.Auth
