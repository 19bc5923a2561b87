import Videum.Backend.Service
import Videum.Relational.Writes
import Videum.Schema.Migrations

/-!
# The stores as rows

The rows of the stores are written out under the migrated schema, and the
calls that add or remove one as the statements the repositories send.

## Main results

* `Encoding.Represents` — the rows obey the schema and stand for the stores.
* `Encoding.Represents.admits_user` — a foreign key asks what `userById` asks.
-/

namespace Videum.Schema

open Videum.Relational
open Videum.Common

/-! ## How the stores are written out -/

/-- The texts of what the stores keep as numbers and digests. -/
structure Encoding where
  uuid : Nat → String
  uuid_injective : Function.Injective uuid
  digest : Auth.TokenHash → String
  hash : Auth.PasswordHash → String
  uploadId : Nat → String
  uploadId_length : ∀ n, (uploadId n).length ≤ 255

def typeLabel : Auth.VerificationTokenType → String
  | .EMAIL_CONFIRMATION => "email_confirmation"
  | .PASSWORD_RESET => "password_reset"

def statusLabel : Videos.VideoStatus → String
  | .uploading => "uploading"
  | .processing => "processing"
  | .ready => "ready"
  | .failed => "failed"

/-- A nullable column. -/
def nullable {α : Type} (value : α → Value) : Option α → Value
  | some a => value a
  | none => .null

namespace Encoding

variable (E : Encoding)

def user (u : Auth.User) : Row := [
  ("id", .uuid (E.uuid u.id)),
  ("email", .text u.email),
  ("password", .text (E.hash u.password)),
  ("is_confirmed", .bool u.is_confirmed)]

def channel (c : Auth.Channel) : Row := [
  ("id", .uuid (E.uuid c.id)),
  ("name", .text c.name),
  ("nickname", .text c.nickname),
  ("user_id", .uuid (E.uuid c.user_id))]

def verificationToken (v : Auth.VerificationToken) : Row := [
  ("id", .uuid (E.uuid v.id)),
  ("token_hash", .text (E.digest v.token_hash)),
  ("type", .text (typeLabel v.type)),
  ("user_id", .uuid (E.uuid v.user_id)),
  ("expires_at", .time v.expires_at),
  ("used_at", nullable .time v.used_at)]

def refreshToken (r : Auth.RefreshToken) : Row := [
  ("id", .uuid (E.uuid r.id)),
  ("token_hash", .text (E.digest r.token_hash)),
  ("family", .uuid (E.uuid r.family)),
  ("user_id", .uuid (E.uuid r.user_id)),
  ("expires_at", .time r.expires_at),
  ("revoked_at", nullable .time r.revoked_at)]

def video (v : Videos.Video) : Row := [
  ("id", .uuid (E.uuid v.id)),
  ("public_id", .uuid v.public_id),
  ("owner_id", .uuid (E.uuid v.owner_id)),
  ("title", .text v.title),
  ("original_filename", .text v.original_filename),
  ("storage_key", .text v.storage_key),
  ("upload_id", nullable (fun n => .text (E.uploadId n)) v.upload_id),
  ("size_bytes", .int v.size_bytes),
  ("content_type", .text v.content_type),
  ("status", .text (statusLabel v.status)),
  ("duration_seconds", nullable .int v.duration_seconds),
  ("thumbnail_key", nullable .text v.thumbnail_key),
  ("created_at", .time v.created_at)]

/-- The rows obey the schema, and stand for those of the stores. -/
structure Represents (s : Backend.Store) (rows : Rows) : Prop where
  integral : (database rows).Integral
  users : Shows E.user rows.users s.auth.users.rows
  channels : Shows E.channel rows.channels s.auth.channels.rows
  verification_tokens : Shows E.verificationToken rows.verification_tokens
    s.auth.verification_tokens.rows
  refresh_tokens : Shows E.refreshToken rows.refresh_tokens
    s.auth.refresh_tokens.rows
  videos : Shows E.video rows.videos s.videos.videos
  videos_lt : ∀ v ∈ s.videos.videos, v.id < s.videos.nextVideoId

/-! ## The statements of the repositories -/

def newUser (email : String) (password : Auth.PasswordHash) : Row := [
  ("email", .text email),
  ("password", .text (E.hash password))]

def newChannel (name nickname : String) (userId : Nat) : Row := [
  ("name", .text name),
  ("nickname", .text nickname),
  ("user_id", .uuid (E.uuid userId))]

def newVerificationToken (v : Auth.NewVerificationToken) : Row := [
  ("token_hash", .text (E.digest v.token_hash)),
  ("type", .text (typeLabel v.type)),
  ("user_id", .uuid (E.uuid v.user_id)),
  ("expires_at", .time v.expires_at)]

def newRefreshToken (r : Auth.NewRefreshToken) : Row := [
  ("token_hash", .text (E.digest r.token_hash)),
  ("family", .uuid (E.uuid r.family)),
  ("user_id", .uuid (E.uuid r.user_id)),
  ("expires_at", .time r.expires_at),
  ("revoked_at", nullable .time r.revoked_at)]

def newVideo (v : Videos.NewVideo) : Row := [
  ("public_id", .uuid v.public_id),
  ("owner_id", .uuid (E.uuid v.owner_id)),
  ("title", .text v.title),
  ("original_filename", .text v.original_filename),
  ("storage_key", .text v.storage_key),
  ("upload_id", nullable (fun n => .text (E.uploadId n)) v.upload_id),
  ("size_bytes", .int v.size_bytes),
  ("content_type", .text v.content_type),
  ("status", .text (statusLabel v.status))]

/-- The statement a call sends, when it adds or removes a row.  The database
generates the primary key and the dates. -/
def statement (s : Backend.Store) (now : Int) :
    Backend.BackendIface.Op → Option Statement
  | ⟨.auth, .insertUser email password⟩ =>
      some (.insert "users" (E.newUser email password)
        (E.uuid s.auth.users.nextId) now)
  | ⟨.auth, .deleteUser id⟩ =>
      some (.delete "users" fun r => r.get "id" == .uuid (E.uuid id))
  | ⟨.auth, .insertChannel name nickname userId⟩ =>
      some (.insert "channels" (E.newChannel name nickname userId)
        (E.uuid s.auth.channels.nextId) now)
  | ⟨.auth, .insertVerificationToken v⟩ =>
      some (.insert "verification_tokens" (E.newVerificationToken v)
        (E.uuid s.auth.verification_tokens.nextId) now)
  | ⟨.auth, .insertRefreshToken r⟩ =>
      some (.insert "refresh_tokens" (E.newRefreshToken r)
        (E.uuid s.auth.refresh_tokens.nextId) now)
  | ⟨.videos, .insertVideo v⟩ =>
      some (.insert "videos" (E.newVideo v) (E.uuid s.videos.nextVideoId) now)
  | _ => none

end Encoding

/-! ## What the tables compare -/

variable {E : Encoding} {s : Backend.Store} {rows : Rows}

theorem database_names : (database rows).tableNames.Nodup := by
  have h : (database rows).tableNames = migrated.tableNames := rfl
  rw [h]
  decide

theorem database_refers {v : Value} :
    (database rows).Refers "users" "id" v ↔
      v = .null ∨ v ∈ rows.users.map fun r => r.get "id" := by
  simp [Database.Refers, database, withConstraint, channels, users,
    verificationTokens, refreshTokens, videos]

theorem Encoding.Represents.user_ids (h : E.Represents s rows) :
    rows.users.map (fun r => r.get "id") =
      s.auth.users.rows.map fun u => .uuid (E.uuid u.id) :=
  h.users.map_get fun u => by simp [Encoding.user]

/-- A foreign key asks whether the user is there. -/
theorem Encoding.Represents.refers_user (h : E.Represents s rows) {id : Nat} :
    (database rows).Refers "users" "id" (.uuid (E.uuid id)) ↔
      (s.auth.userById id).isSome = true := by
  rw [database_refers, h.user_ids, Auth.Store.userById, List.find?_isSome]
  simp only [reduceCtorEq, false_or, List.mem_map, Value.uuid.injEq,
    E.uuid_injective.eq_iff, beq_iff_eq]

/-- The primary key of a new row is new. -/
theorem uuid_fresh {α : Type} {key : α → Nat} {xs : List α} {next : Nat}
    (h : ∀ x ∈ xs, key x < next) :
    Value.uuid (E.uuid next) ∉
      xs.map fun x => Value.uuid (E.uuid (key x)) := by
  intro hmem
  obtain ⟨x, hx, heq⟩ := List.mem_map.1 hmem
  have hkey := E.uuid_injective (Value.uuid.inj heq)
  exact Nat.ne_of_lt (h x hx) hkey

theorem text_free {α : Type} {xs : List α} {f : α → String} {text : String} :
    Value.text text ∉ xs.map (fun x => Value.text (f x)) ↔
      xs.any (fun x => f x == text) = false := by
  simp

theorem uuid_free {α : Type} {xs : List α} {f : α → Nat} {n : Nat} :
    Value.uuid (E.uuid n) ∉ xs.map (fun x => Value.uuid (E.uuid (f x))) ↔
      xs.any (fun x => f x == n) = false := by
  simp [E.uuid_injective.eq_iff]

/-- The foreign key of a table that is not the one referred to. -/
theorem Encoding.Represents.admits_user (h : E.Represents s rows) {id : Nat}
    {t : Relational.Table} {new : Row} {column : String}
    (ht : "users" ≠ t.name) (hnew : new.get column = .uuid (E.uuid id)) :
    (database rows).Admits t new (.foreignKey column "users" "id") ↔
      (s.auth.userById id).isSome = true := by
  rw [Database.admits_foreignKey, hnew, h.refers_user]
  exact or_iff_left fun hself => ht hself.1

end Videum.Schema
