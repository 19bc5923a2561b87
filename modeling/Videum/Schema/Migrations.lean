import Videum.Relational.Migrations

/-!
# The migrations of the database

The scripts of `database/migrations`, which `npm run migration:run` and
`npm run migration:revert` execute.  Neither the API nor the worker changes
the schema themselves (`synchronize: false`).

## Main results

* `deployed` — no command ever fails, whatever rows are there, and after a
  run the database has the schema `migrated`.
* `run_undone` — a run that is undone leaves no trace.
-/

namespace Videum.Schema

open Videum.Relational

/-! ## Columns that all tables have -/

/-- `uuid NOT NULL DEFAULT uuid_generate_v4()` -/
def idColumn : Column := ⟨"id", .uuid, true, some .uuidGenerateV4⟩

/-- `TIMESTAMP NOT NULL DEFAULT now()` -/
def createdAt : Column := ⟨"created_at", .timestamp, true, some .now⟩

def updatedAt : Column := ⟨"updated_at", .timestamp, true, some .now⟩

/-- `NOT NULL`, without a default -/
def required (name : String) (type : ColumnType) : Column :=
  ⟨name, type, true, none⟩

def optional (name : String) (type : ColumnType) : Column :=
  ⟨name, type, false, none⟩

/-- `REFERENCES "users"("id") ON DELETE NO ACTION ON UPDATE NO ACTION` -/
def referencesUser (name column : String) : Constraint :=
  ⟨name, .foreignKey column "users" "id"⟩

/-! ## `1775687773260-CreateUsersAndChannels.ts` -/

def channels : TableDef where
  name := "channels"
  columns := [
    idColumn,
    required "name" (.varchar (some 50)),
    required "nickname" (.varchar (some 50)),
    optional "description" .text,
    required "user_id" .uuid,
    createdAt,
    updatedAt]
  constraints := [
    ⟨"UQ_a221f571edb63f68938f1bdd969", .unique ["nickname"]⟩,
    ⟨"UQ_23dc7937150c9567d37869313ce", .unique ["user_id"]⟩,
    ⟨"REL_23dc7937150c9567d37869313c", .unique ["user_id"]⟩,
    ⟨"PK_bc603823f3f741359c2339389f9", .primaryKey ["id"]⟩]

/-- The second unique constraint on `user_id` is dropped. -/
theorem channels_created : channels.created.constraints = [
    ⟨"UQ_a221f571edb63f68938f1bdd969", .unique ["nickname"]⟩,
    ⟨"UQ_23dc7937150c9567d37869313ce", .unique ["user_id"]⟩,
    ⟨"PK_bc603823f3f741359c2339389f9", .primaryKey ["id"]⟩] := by
  decide +kernel

def channelsUser : Constraint :=
  referencesUser "FK_23dc7937150c9567d37869313ce" "user_id"

def users : TableDef where
  name := "users"
  columns := [
    idColumn,
    required "email" (.varchar none),
    required "password" (.varchar none),
    ⟨"is_confirmed", .boolean, true, some (.value (.bool false))⟩,
    createdAt,
    updatedAt]
  constraints := [
    ⟨"UQ_97672ac88f789774dd47f7c8be3", .unique ["email"]⟩,
    ⟨"PK_a3ffb1c0c8416b9fc6f907b7433", .primaryKey ["id"]⟩]

def createUsersAndChannels : Migration where
  name := "CreateUsersAndChannels1775687773260"
  up := [
    .createTable channels,
    .createTable users,
    .addConstraint "channels" channelsUser]
  down := [
    .dropConstraint "channels" "FK_23dc7937150c9567d37869313ce",
    .dropTable "users",
    .dropTable "channels"]
  undoes := rfl
  selfContained := by decide

/-! ## `1777579850478-CreateAuthTokens.ts` -/

def verificationTokens : TableDef where
  name := "verification_tokens"
  columns := [
    idColumn,
    required "token_hash" (.varchar none),
    required "type" (.enum "verification_tokens_type_enum"),
    required "user_id" .uuid,
    required "expires_at" .timestamp,
    optional "used_at" .timestamp,
    createdAt]
  constraints := [⟨"PK_f2d4d7a2aa57ef199e61567db22", .primaryKey ["id"]⟩]

def verificationTokensUser : Constraint :=
  referencesUser "FK_31d2079dc4079b80517d31cf4f2" "user_id"

def refreshTokens : TableDef where
  name := "refresh_tokens"
  columns := [
    idColumn,
    required "token_hash" (.varchar none),
    required "family" .uuid,
    required "user_id" .uuid,
    required "expires_at" .timestamp,
    optional "revoked_at" .timestamp,
    createdAt]
  constraints := [⟨"PK_7d8bee0204106019488c4c50ffa", .primaryKey ["id"]⟩]

def refreshTokensUser : Constraint :=
  referencesUser "FK_3ddc983c5f7bcf132fd8732c3f4" "user_id"

def createAuthTokens : Migration where
  name := "CreateAuthTokens1777579850478"
  up := [
    .createType "verification_tokens_type_enum"
      ["email_confirmation", "password_reset"],
    .createTable verificationTokens,
    .createIndex ⟨"IDX_19d8484a0754cd015ca11302a5", "verification_tokens",
      ["token_hash"]⟩,
    .createTable refreshTokens,
    .createIndex ⟨"IDX_a7838d2ba25be1342091b6695f", "refresh_tokens",
      ["token_hash"]⟩,
    .createIndex ⟨"IDX_46561d7f0169611662bbc8f542", "refresh_tokens",
      ["family", "revoked_at"]⟩,
    .addConstraint "verification_tokens" verificationTokensUser,
    .addConstraint "refresh_tokens" refreshTokensUser]
  down := [
    .dropConstraint "refresh_tokens" "FK_3ddc983c5f7bcf132fd8732c3f4",
    .dropConstraint "verification_tokens" "FK_31d2079dc4079b80517d31cf4f2",
    .dropIndex "IDX_46561d7f0169611662bbc8f542",
    .dropIndex "IDX_a7838d2ba25be1342091b6695f",
    .dropTable "refresh_tokens",
    .dropIndex "IDX_19d8484a0754cd015ca11302a5",
    .dropTable "verification_tokens",
    .dropType "verification_tokens_type_enum"]
  undoes := rfl
  selfContained := by decide

/-! ## `1783629270547-CreateVideos.ts` -/

def videos : TableDef where
  name := "videos"
  columns := [
    idColumn,
    required "public_id" .uuid,
    required "owner_id" .uuid,
    required "title" (.varchar (some 255)),
    required "original_filename" (.varchar (some 255)),
    required "storage_key" (.varchar (some 512)),
    optional "upload_id" (.varchar (some 255)),
    required "size_bytes" .bigint,
    required "content_type" (.varchar (some 127)),
    ⟨"status", .enum "videos_status_enum", true,
      some (.value (.text "uploading"))⟩,
    optional "duration_seconds" .integer,
    optional "thumbnail_key" (.varchar (some 512)),
    createdAt,
    updatedAt]
  constraints := [
    ⟨"UQ_39a1f0fe7991162aace659078ec", .unique ["public_id"]⟩,
    ⟨"UQ_6ce3c9805943abd5b2950847b64", .unique ["storage_key"]⟩,
    ⟨"PK_e4c86c0cf95aff16e9fb8220f6b", .primaryKey ["id"]⟩]

def videosOwner : Constraint :=
  referencesUser "FK_b89ed5035c8cb525f39f7f8b6b9" "owner_id"

def createVideos : Migration where
  name := "CreateVideos1783629270547"
  up := [
    .createType "videos_status_enum"
      ["uploading", "processing", "ready", "failed"],
    .createTable videos,
    .createIndex ⟨"IDX_fa92ce74fa6331a7ad7743dea5", "videos",
      ["status", "created_at"]⟩,
    .addConstraint "videos" videosOwner]
  down := [
    .dropConstraint "videos" "FK_b89ed5035c8cb525f39f7f8b6b9",
    .dropIndex "IDX_fa92ce74fa6331a7ad7743dea5",
    .dropTable "videos",
    .dropType "videos_status_enum"]
  undoes := rfl
  selfContained := by decide

/-! ## All of them -/

def withConstraint (t : TableDef) (c : Constraint) : TableDef :=
  { t with constraints := t.constraints ++ [c] }

/-- The rows of the tables. -/
structure Rows where
  channels : List Row := []
  users : List Row := []
  verification_tokens : List Row := []
  refresh_tokens : List Row := []
  videos : List Row := []

/-- The database with these rows, when all migrations are executed. -/
def database (rows : Rows) : Database where
  types := [
    ⟨"verification_tokens_type_enum", ["email_confirmation", "password_reset"]⟩,
    ⟨"videos_status_enum", ["uploading", "processing", "ready", "failed"]⟩]
  tables := [
    ⟨withConstraint channels.created channelsUser, rows.channels⟩,
    ⟨users, rows.users⟩,
    ⟨withConstraint verificationTokens verificationTokensUser,
      rows.verification_tokens⟩,
    ⟨withConstraint refreshTokens refreshTokensUser, rows.refresh_tokens⟩,
    ⟨withConstraint videos videosOwner, rows.videos⟩]
  indexes := [
    ⟨"IDX_19d8484a0754cd015ca11302a5", "verification_tokens", ["token_hash"]⟩,
    ⟨"IDX_a7838d2ba25be1342091b6695f", "refresh_tokens", ["token_hash"]⟩,
    ⟨"IDX_46561d7f0169611662bbc8f542", "refresh_tokens",
      ["family", "revoked_at"]⟩,
    ⟨"IDX_fa92ce74fa6331a7ad7743dea5", "videos", ["status", "created_at"]⟩]

/-- The schema when all migrations are executed. -/
def migrated : Database := database {}

theorem execAll_migrations :
    execAll ([createUsersAndChannels, createAuthTokens,
      createVideos].flatMap Migration.up) {} = some migrated := by
  decide +kernel

def migrations : History where
  migrations := [createUsersAndChannels, createAuthTokens, createVideos]
  names := by decide
  runs := by rw [execAll_migrations]; rfl

/-! ## Deployments -/

/-- Migrations are run and undone and rows are written in any order.  No
command fails, the schema is that of the migrations executed, and the rows
obey it; after a run it is `migrated`. -/
theorem deployed (commands : List Command) :
    (∃ d, migrations.deploy commands = some d ∧
      migrations.Kept (migrations.countAll commands) d) ∧
    ∃ d, migrations.deploy (commands ++ [.runPending]) = some d ∧
      d.database.schema = migrated ∧ d.database.Integral := by
  constructor
  · exact migrations.deploy_kept commands
  · obtain ⟨d, hd, hkept⟩ :=
      migrations.deploy_kept (commands ++ [.runPending])
    have hcount : migrations.countAll (commands ++ [.runPending]) = 3 :=
      List.foldl_concat ..
    have hschema := hkept.schema
    rw [hcount] at hschema
    have hall := execAll_migrations.symm.trans hschema
    exact ⟨d, hd, (Option.some.inj hall).symm, hkept.integral⟩

/-- A run followed by as many reverts is as if neither had been, for every
row of every table. -/
theorem run_undone (commands : List Command) :
    migrations.deploy (commands ++ .runPending ::
      List.replicate (3 - migrations.countAll commands) .undoLast) =
      migrations.deploy commands :=
  migrations.deploy_undone commands

end Videum.Schema
