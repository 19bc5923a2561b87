import Videum.Schema.Encoding

/-!
# What the tables accept

One statement after another: the conditions under which the migrated schema
lets a row in, or lets a user go, told in the words of the stores.

## Main results

* `insertUser_iff`, `insertChannel_iff`, `insertVerificationToken_iff`,
  `insertRefreshToken_iff`, `insertVideo_iff` — insertions.
* `deleteUser_iff`, `unreferenced_iff` — the deletion of a user.
-/

namespace Videum.Schema

open Videum.Relational
open Videum.Common

variable {E : Encoding} {s : Backend.Store} {rows : Rows}

/-! ## Insertions -/

/-- An insertion into a table of the schema, where the values that are given
have columns. -/
theorem insert_database {t : Relational.Table} {given : Row}
    (hi : (database rows).Integral) (ht : t ∈ (database rows).tables)
    (hnames : t.columnNames.Nodup)
    (hgiven : given.map Prod.fst ⊆ t.columnNames) {generated : String}
    {now : Int} (hplain : (Statement.insert t.name given generated now).Plain
      (database rows)) (D' : Database) :
    (Statement.insert t.name given generated now).exec (database rows) =
        some D' ↔
      ((∀ c ∈ t.columns,
          (database rows).accepts c.type (c.value given generated now) = true ∧
          (c.notNull = true → c.value given generated now ≠ .null)) ∧
        ∀ c ∈ t.constraints, (database rows).Admits t
          (t.columns.map fun c => (c.name, c.value given generated now))
          c.rule) ∧
      D' = (database rows).onTable t.name fun t =>
        { t with rows := t.rows ++ [t.newRow given generated now] } := by
  have hkeeps := hplain.keeps t ht rfl
  rw [insert_iff hi database_names ht, Database.fits_newRow hnames hkeeps,
    hkeeps.newRow_eq]
  exact and_congr_left fun _ => and_iff_right hgiven

theorem insertUser_iff (h : E.Represents s rows) {email : String}
    {password : Auth.PasswordHash} {now : Int}
    (hplain : (Statement.insert "users" (E.newUser email password)
      (E.uuid s.auth.users.nextId) now).Plain (database rows))
    {D' : Database} :
    (Statement.insert "users" (E.newUser email password)
        (E.uuid s.auth.users.nextId) now).exec (database rows) = some D' ↔
      s.auth.userByEmail email = none ∧
      D' = database { rows with users := rows.users ++
        [users.newRow (E.newUser email password) (E.uuid s.auth.users.nextId)
          now] } := by
  have hemails : rows.users.map (fun r => r.get "email") =
      s.auth.users.rows.map fun u => .text u.email :=
    h.users.map_get fun u => by simp [Encoding.user]
  have hgiven : (E.newUser email password).map Prod.fst ⊆
      users.columnNames := by
    show ["email", "password"] ⊆ users.columnNames
    decide
  have hinsert := insert_database (t := ⟨users, rows.users⟩)
    h.integral (.tail _ (.head _)) (show users.columnNames.Nodup by decide)
    hgiven hplain D'
  refine hinsert.trans (and_congr ?_ Iff.rfl)
  obtain ⟨hvalues, hid, hnow⟩ := hplain.insert
  have hemail : isText email = true := hvalues _ (.head _)
  have hpassword : isText (E.hash password) = true :=
    hvalues _ (.tail _ (.head _))
  have hfits : ∀ c ∈ users.columns, (database rows).accepts c.type
        (c.value (E.newUser email password) (E.uuid s.auth.users.nextId) now) =
          true ∧
      (c.notNull = true → c.value (E.newUser email password)
        (E.uuid s.auth.users.nextId) now ≠ .null) := by
    simp [users, idColumn, required, createdAt, updatedAt, Column.value,
      List.lookup_cons, Encoding.newUser, hemail, hpassword, hid, hnow]
  refine (and_iff_right hfits).trans ?_
  simp only [users, List.forall_mem_cons, List.not_mem_nil, false_imp_iff,
    implies_true, and_true]
  rw [Database.admits_unique_single (by exact Value.text_ne_null),
    Database.admits_primaryKey_single (by exact Value.uuid_ne_null),
    hemails, h.user_ids]
  refine (and_iff_left (uuid_fresh s.auth.users.keys_lt)).trans ?_
  change Value.text email ∉ _ ↔ _
  rw [text_free, Auth.Store.userByEmail, List.find?_eq_none, List.any_eq_false]

theorem insertChannel_iff (h : E.Represents s rows) {name nickname : String}
    {userId : Nat} {now : Int}
    (hplain : (Statement.insert "channels" (E.newChannel name nickname userId)
      (E.uuid s.auth.channels.nextId) now).Plain (database rows))
    {D' : Database} :
    (Statement.insert "channels" (E.newChannel name nickname userId)
        (E.uuid s.auth.channels.nextId) now).exec (database rows) = some D' ↔
      ((name.length ≤ 50 ∧ nickname.length ≤ 50) ∧
        (s.auth.channels.rows.any (·.nickname == nickname) = false ∧
          s.auth.channels.rows.any (·.user_id == userId) = false) ∧
        (s.auth.userById userId).isSome = true) ∧
      D' = database { rows with channels := rows.channels ++
        [channels.newRow (E.newChannel name nickname userId)
          (E.uuid s.auth.channels.nextId) now] } := by
  have hids : rows.channels.map (fun r => r.get "id") =
      s.auth.channels.rows.map fun c => .uuid (E.uuid c.id) :=
    h.channels.map_get fun c => by simp [Encoding.channel]
  have hnicknames : rows.channels.map (fun r => r.get "nickname") =
      s.auth.channels.rows.map fun c => .text c.nickname :=
    h.channels.map_get fun c => by simp [Encoding.channel]
  have husers : rows.channels.map (fun r => r.get "user_id") =
      s.auth.channels.rows.map fun c => .uuid (E.uuid c.user_id) :=
    h.channels.map_get fun c => by simp [Encoding.channel]
  have hgiven : (E.newChannel name nickname userId).map Prod.fst ⊆
      channels.columnNames := by
    show ["name", "nickname", "user_id"] ⊆ channels.columnNames
    decide
  have hinsert := insert_database
    (t := ⟨withConstraint channels.created channelsUser, rows.channels⟩)
    h.integral (.head _) (show channels.columnNames.Nodup by decide)
    hgiven hplain D'
  refine hinsert.trans (and_congr (and_congr ?_ ?_) Iff.rfl)
  · obtain ⟨hvalues, hid, hnow⟩ := hplain.insert
    have hname : isText name = true := hvalues _ (.head _)
    have hnickname : isText nickname = true := hvalues _ (.tail _ (.head _))
    have huser : isUuid (E.uuid userId) = true :=
      hvalues _ (.tail _ (.tail _ (.head _)))
    simp [withConstraint, channels, idColumn, required, optional, createdAt,
      updatedAt, Column.value, List.lookup_cons, Encoding.newChannel, hname,
      hnickname, huser, hid, hnow]
  · simp only [withConstraint, channels_created, channelsUser, referencesUser,
      List.cons_append, List.nil_append, List.forall_mem_cons,
      List.not_mem_nil, false_imp_iff, implies_true, and_true]
    rw [Database.admits_unique_single (by exact Value.text_ne_null),
      Database.admits_unique_single (by exact Value.uuid_ne_null),
      Database.admits_primaryKey_single (by exact Value.uuid_ne_null),
      h.admits_user (show "users" ≠ "channels" by decide) rfl, hids,
      hnicknames, husers]
    change Value.text nickname ∉ _ ∧ Value.uuid (E.uuid userId) ∉ _ ∧
      Value.uuid (E.uuid _) ∉ _ ∧ _ ↔ _
    rw [text_free, uuid_free, and_assoc]
    have hfresh := uuid_fresh (E := E) s.auth.channels.keys_lt
    exact and_congr_right fun _ => and_congr_right fun _ =>
      and_iff_right hfresh

theorem insertVerificationToken_iff (h : E.Represents s rows)
    {v : Auth.NewVerificationToken} {now : Int}
    (hplain : (Statement.insert "verification_tokens"
      (E.newVerificationToken v) (E.uuid s.auth.verification_tokens.nextId)
      now).Plain (database rows)) {D' : Database} :
    (Statement.insert "verification_tokens" (E.newVerificationToken v)
        (E.uuid s.auth.verification_tokens.nextId) now).exec (database rows) =
        some D' ↔
      (s.auth.userById v.user_id).isSome = true ∧
      D' = database { rows with
        verification_tokens := rows.verification_tokens ++
          [verificationTokens.newRow (E.newVerificationToken v)
            (E.uuid s.auth.verification_tokens.nextId) now] } := by
  have hids : rows.verification_tokens.map (fun r => r.get "id") =
      s.auth.verification_tokens.rows.map fun v => .uuid (E.uuid v.id) :=
    h.verification_tokens.map_get fun v => by simp [Encoding.verificationToken]
  have hgiven : (E.newVerificationToken v).map Prod.fst ⊆
      verificationTokens.columnNames := by
    show ["token_hash", "type", "user_id", "expires_at"] ⊆
      verificationTokens.columnNames
    decide
  have hinsert := insert_database
    (t := ⟨withConstraint verificationTokens verificationTokensUser,
      rows.verification_tokens⟩)
    h.integral (.tail _ (.tail _ (.head _)))
    (show verificationTokens.columnNames.Nodup by decide)
    hgiven hplain D'
  have htype : (database rows).accepts (.enum "verification_tokens_type_enum")
      (.text (typeLabel v.type)) = true := by
    cases v.type <;> rfl
  refine hinsert.trans (and_congr ?_ Iff.rfl)
  refine (and_iff_right ?_).trans ?_
  · obtain ⟨hvalues, hid, hnow⟩ := hplain.insert
    have hhash : isText (E.digest v.token_hash) = true := hvalues _ (.head _)
    have huser : isUuid (E.uuid v.user_id) = true :=
      hvalues _ (.tail _ (.tail _ (.head _)))
    have hexpires : isTimestamp v.expires_at = true :=
      hvalues _ (.tail _ (.tail _ (.tail _ (.head _))))
    simp [withConstraint, verificationTokens, idColumn, required, optional,
      createdAt, Column.value, List.lookup_cons, Encoding.newVerificationToken,
      htype, hhash, huser, hexpires, hid, hnow]
  · simp only [withConstraint, verificationTokens, verificationTokensUser,
      referencesUser, List.cons_append, List.nil_append, List.forall_mem_cons,
      List.not_mem_nil, false_imp_iff, implies_true, and_true]
    rw [Database.admits_primaryKey_single (by exact Value.uuid_ne_null),
      h.admits_user (show "users" ≠ "verification_tokens" by decide) rfl, hids]
    exact and_iff_right (uuid_fresh s.auth.verification_tokens.keys_lt)

theorem insertRefreshToken_iff (h : E.Represents s rows)
    {r : Auth.NewRefreshToken} {now : Int}
    (hplain : (Statement.insert "refresh_tokens" (E.newRefreshToken r)
      (E.uuid s.auth.refresh_tokens.nextId) now).Plain (database rows))
    {D' : Database} :
    (Statement.insert "refresh_tokens" (E.newRefreshToken r)
        (E.uuid s.auth.refresh_tokens.nextId) now).exec (database rows) =
        some D' ↔
      (s.auth.userById r.user_id).isSome = true ∧
      D' = database { rows with refresh_tokens := rows.refresh_tokens ++
        [refreshTokens.newRow (E.newRefreshToken r)
          (E.uuid s.auth.refresh_tokens.nextId) now] } := by
  have hids : rows.refresh_tokens.map (fun r => r.get "id") =
      s.auth.refresh_tokens.rows.map fun r => .uuid (E.uuid r.id) :=
    h.refresh_tokens.map_get fun r => by simp [Encoding.refreshToken]
  have hgiven : (E.newRefreshToken r).map Prod.fst ⊆
      refreshTokens.columnNames := by
    show ["token_hash", "family", "user_id", "expires_at", "revoked_at"] ⊆
      refreshTokens.columnNames
    decide
  have hinsert := insert_database
    (t := ⟨withConstraint refreshTokens refreshTokensUser,
      rows.refresh_tokens⟩)
    h.integral (.tail _ (.tail _ (.tail _ (.head _))))
    (show refreshTokens.columnNames.Nodup by decide)
    hgiven hplain D'
  refine hinsert.trans (and_congr ?_ Iff.rfl)
  refine (and_iff_right ?_).trans ?_
  · obtain ⟨hvalues, hid, hnow⟩ := hplain.insert
    have hhash : isText (E.digest r.token_hash) = true := hvalues _ (.head _)
    have hfamily : isUuid (E.uuid r.family) = true :=
      hvalues _ (.tail _ (.head _))
    have huser : isUuid (E.uuid r.user_id) = true :=
      hvalues _ (.tail _ (.tail _ (.head _)))
    have hexpires : isTimestamp r.expires_at = true :=
      hvalues _ (.tail _ (.tail _ (.tail _ (.head _))))
    have hrevoked : (database rows).accepts .timestamp
        (nullable .time r.revoked_at) = true := by
      have hvalid := hvalues (nullable .time r.revoked_at)
        (.tail _ (.tail _ (.tail _ (.tail _ (.head _)))))
      cases hrevoked : r.revoked_at with
      | none => rfl
      | some t =>
          rw [hrevoked] at hvalid
          exact hvalid
    simp [withConstraint, refreshTokens, idColumn, required, optional,
      createdAt, Column.value, List.lookup_cons, Encoding.newRefreshToken,
      hhash, hfamily, huser, hexpires, hrevoked, hid, hnow]
  · simp only [withConstraint, refreshTokens, refreshTokensUser,
      referencesUser, List.cons_append, List.nil_append, List.forall_mem_cons,
      List.not_mem_nil, false_imp_iff, implies_true, and_true]
    rw [Database.admits_primaryKey_single (by exact Value.uuid_ne_null),
      h.admits_user (show "users" ≠ "refresh_tokens" by decide) rfl, hids]
    exact and_iff_right (uuid_fresh s.auth.refresh_tokens.keys_lt)

/-- A new video fits its columns when its texts are short enough. -/
theorem newVideo_fits {v : Videos.NewVideo} {generated : String} {now : Int}
    (hplain : (Statement.insert "videos" (E.newVideo v) generated now).Plain
      (database rows)) :
    (∀ c ∈ videos.columns, (database rows).accepts c.type
        (c.value (E.newVideo v) generated now) = true ∧
      (c.notNull = true → c.value (E.newVideo v) generated now ≠ .null)) ↔
      v.title.length ≤ 255 ∧ v.original_filename.length ≤ 255 ∧
        v.storage_key.length ≤ 512 ∧ v.content_type.length ≤ 127 := by
  obtain ⟨hvalues, hid, hnow⟩ := hplain.insert
  simp only [Encoding.newVideo, List.map_cons, List.map_nil,
    List.forall_mem_cons, List.not_mem_nil, false_imp_iff, implies_true,
    and_true, Value.isValid, Bool.and_eq_true, decide_eq_true_eq] at hvalues
  obtain ⟨hpublic, howner, htitle, hfilename, hkey, hupload, hsize, htype,
    -⟩ := hvalues
  have hstatus : (database rows).accepts (.enum "videos_status_enum")
      (.text (statusLabel v.status)) = true := by
    cases v.status <;> rfl
  have hupload : (database rows).accepts (.varchar (some 255))
      (nullable (fun n => .text (E.uploadId n)) v.upload_id) = true := by
    cases hid : v.upload_id with
    | none => rfl
    | some n =>
        rw [hid] at hupload
        exact Database.accepts_varchar_limit.2 ⟨hupload, E.uploadId_length n⟩
  simp [videos, idColumn, required, optional, createdAt, updatedAt,
    Column.value, List.lookup_cons, Encoding.newVideo, hpublic, howner, htitle,
    hfilename, hkey, hupload, hsize, htype, hstatus, hid, hnow]

theorem insertVideo_iff (h : E.Represents s rows) {v : Videos.NewVideo}
    {now : Int} (hplain : (Statement.insert "videos" (E.newVideo v)
      (E.uuid s.videos.nextVideoId) now).Plain (database rows))
    {D' : Database} :
    (Statement.insert "videos" (E.newVideo v)
        (E.uuid s.videos.nextVideoId) now).exec (database rows) = some D' ↔
      (s.videos.insertable v = true ∧
        (s.auth.userById v.owner_id).isSome = true) ∧
      D' = database { rows with videos := rows.videos ++
        [videos.newRow (E.newVideo v) (E.uuid s.videos.nextVideoId) now] } := by
  have hids : rows.videos.map (fun r => r.get "id") =
      s.videos.videos.map fun v => .uuid (E.uuid v.id) :=
    h.videos.map_get fun v => by simp [Encoding.video]
  have hpublic : rows.videos.map (fun r => r.get "public_id") =
      s.videos.videos.map fun v => .uuid v.public_id :=
    h.videos.map_get fun v => by simp [Encoding.video]
  have hkeys : rows.videos.map (fun r => r.get "storage_key") =
      s.videos.videos.map fun v => .text v.storage_key :=
    h.videos.map_get fun v => by simp [Encoding.video]
  have hgiven : (E.newVideo v).map Prod.fst ⊆ videos.columnNames := by
    show ["public_id", "owner_id", "title", "original_filename",
      "storage_key", "upload_id", "size_bytes", "content_type", "status"] ⊆
      videos.columnNames
    decide
  have hinsert := insert_database
    (t := ⟨withConstraint videos videosOwner, rows.videos⟩)
    h.integral (.tail _ (.tail _ (.tail _ (.tail _ (.head _)))))
    (show videos.columnNames.Nodup by decide)
    hgiven hplain D'
  have hadmits : (∀ c ∈ (withConstraint videos videosOwner).constraints,
      (database rows).Admits ⟨withConstraint videos videosOwner, rows.videos⟩
        (videos.columns.map fun c =>
          (c.name, c.value (E.newVideo v) (E.uuid s.videos.nextVideoId) now))
        c.rule) ↔
      (s.videos.videos.any (·.public_id == v.public_id) = false ∧
        s.videos.videos.any (·.storage_key == v.storage_key) = false) ∧
      (s.auth.userById v.owner_id).isSome = true := by
    simp only [withConstraint, videos, videosOwner, referencesUser,
      List.cons_append, List.nil_append, List.forall_mem_cons,
      List.not_mem_nil, false_imp_iff, implies_true, and_true]
    rw [Database.admits_unique_single (by exact Value.uuid_ne_null),
      Database.admits_unique_single (by exact Value.text_ne_null),
      Database.admits_primaryKey_single (by exact Value.uuid_ne_null),
      h.admits_user (show "users" ≠ "videos" by decide) rfl, hids, hpublic,
      hkeys]
    change Value.uuid v.public_id ∉ _ ∧ Value.text v.storage_key ∉ _ ∧
      Value.uuid (E.uuid _) ∉ _ ∧ _ ↔ _
    have hpublicIds : Value.uuid v.public_id ∉
        s.videos.videos.map (fun v => Value.uuid v.public_id) ↔
        s.videos.videos.any (·.public_id == v.public_id) = false := by
      simp
    have hfresh := uuid_fresh (E := E) h.videos_lt
    rw [hpublicIds, text_free, and_assoc]
    exact and_congr_right fun _ => and_congr_right fun _ =>
      and_iff_right hfresh
  have hinsertable : s.videos.insertable v = true ↔
      (v.title.length ≤ 255 ∧ v.original_filename.length ≤ 255 ∧
        v.storage_key.length ≤ 512 ∧ v.content_type.length ≤ 127) ∧
      s.videos.videos.any (·.public_id == v.public_id) = false ∧
        s.videos.videos.any (·.storage_key == v.storage_key) = false := by
    simp only [Videos.Store.insertable, Bool.and_eq_true, decide_eq_true_eq,
      List.all_eq_true, bne_iff_ne, List.any_eq_false, beq_iff_eq,
      forall_and, and_assoc]
  refine hinsert.trans (and_congr ?_ Iff.rfl)
  rw [hinsertable, and_assoc]
  exact and_congr (newVideo_fits hplain) hadmits

/-! ## The deletion of a user -/

/-- The columns that refer to a user. -/
def references (rows : Rows) : List (List Row × String) := [
  (rows.channels, "user_id"),
  (rows.verification_tokens, "user_id"),
  (rows.refresh_tokens, "user_id"),
  (rows.videos, "owner_id")]

theorem mem_references {t : Relational.Table} {c : Constraint}
    {column refColumn : String} (ht : t ∈ (database rows).tables)
    (hc : c ∈ t.constraints)
    (hrule : c.rule = .foreignKey column "users" refColumn) :
    refColumn = "id" ∧ (t.rows, column) ∈ references rows := by
  simp only [database, List.mem_cons, List.not_mem_nil, or_false] at ht
  rcases ht with rfl | rfl | rfl | rfl | rfl <;>
    simp only [withConstraint, channels_created, users, verificationTokens,
      refreshTokens, videos, List.cons_append, List.nil_append, List.mem_cons,
      List.not_mem_nil, or_false] at hc <;>
    rcases hc with rfl | rfl | rfl | rfl <;> cases hrule <;>
    simp [references]

theorem of_mem_references {x : List Row × String} (hx : x ∈ references rows) :
    ∃ t ∈ (database rows).tables, t.rows = x.1 ∧ t.name ≠ "users" ∧
      ∃ c ∈ t.constraints, c.rule = .foreignKey x.2 "users" "id" := by
  simp only [references, List.mem_cons, List.not_mem_nil, or_false] at hx
  rcases hx with rfl | rfl | rfl | rfl
  · exact ⟨_, .head _, rfl, show "channels" ≠ "users" by decide,
      channelsUser, List.mem_append_right _ (.head _), rfl⟩
  · exact ⟨_, .tail _ (.tail _ (.head _)), rfl,
      show "verification_tokens" ≠ "users" by decide,
      verificationTokensUser, List.mem_append_right _ (.head _), rfl⟩
  · exact ⟨_, .tail _ (.tail _ (.tail _ (.head _))), rfl,
      show "refresh_tokens" ≠ "users" by decide,
      refreshTokensUser, List.mem_append_right _ (.head _), rfl⟩
  · exact ⟨_, .tail _ (.tail _ (.tail _ (.tail _ (.head _)))), rfl,
      show "videos" ≠ "users" by decide,
      videosOwner, List.mem_append_right _ (.head _), rfl⟩

/-- What refers to a user does so after a deletion, unless it was this
one. -/
theorem still_refers {v : Value} {text : String}
    (h : (database rows).Refers "users" "id" v) :
    (v = .null ∨ ∃ t ∈ (database rows).tables, t.name = "users" ∧
      ∃ r ∈ t.rows, r.get "id" = v ∧ (r.get "id" == .uuid text) = false) ↔
      v ≠ .uuid text := by
  constructor
  · rintro (rfl | ⟨t, _, _, r, _, rfl, hne⟩)
    · intro h
      cases h
    · exact beq_eq_false_iff_ne.1 hne
  · intro hne
    rcases h with hnull | ⟨t, ht, hname, r, hr, rfl⟩
    · exact .inl hnull
    · exact .inr ⟨t, ht, hname, r, hr, rfl, beq_eq_false_iff_ne.2 hne⟩

theorem deleteUser_iff (hi : (database rows).Integral) {text : String}
    {D' : Database} :
    (Statement.delete "users" fun r => r.get "id" == .uuid text).exec
        (database rows) = some D' ↔
      (∀ x ∈ references rows, ∀ r ∈ x.1, r.get x.2 ≠ .uuid text) ∧
      D' = database { rows with
        users := rows.users.filter fun r => !(r.get "id" == .uuid text) } := by
  rw [delete_iff hi]
  refine and_congr ?_ Iff.rfl
  have hthere : "users" ∈ (database rows).tableNames := by
    show "users" ∈ migrated.tableNames
    decide
  rw [and_iff_right hthere]
  constructor
  · intro h x hx r hr
    obtain ⟨t, ht, hrows, hname, c, hc, hrule⟩ := of_mem_references hx
    rw [← hrows] at hr
    have hsat := hi.rules t ht c hc
    rw [hrule] at hsat
    exact (still_refers (hsat r hr)).1
      (h t ht c hc _ _ hrule r hr fun heq => absurd heq hname)
  · intro h t ht c hc column refColumn hrule r hr _
    obtain ⟨rfl, hmem⟩ := mem_references ht hc hrule
    have hsat := hi.rules t ht c hc
    rw [hrule] at hsat
    exact (still_refers (hsat r hr)).2 (h _ hmem r hr)

theorem column_free {α : Type} {xs : List α} {f : α → Nat} {n : Nat}
    {column : Row → Value} {rs : List Row}
    (h : rs.map column = xs.map fun x => .uuid (E.uuid (f x))) :
    (∀ r ∈ rs, column r ≠ .uuid (E.uuid n)) ↔
      xs.any (fun x => f x == n) = false := by
  rw [← uuid_free (E := E), ← h, List.mem_map]
  simp only [not_exists, not_and, ne_eq]

/-- No row refers to the user, as `deleteUser` asks for it. -/
theorem unreferenced_iff (h : E.Represents s rows) {id : Nat} :
    (∀ x ∈ references rows, ∀ r ∈ x.1, r.get x.2 ≠ .uuid (E.uuid id)) ↔
      s.auth.referenced id = false ∧
        s.videos.videos.any (·.owner_id == id) = false := by
  have hchannels : rows.channels.map (fun r => r.get "user_id") =
      s.auth.channels.rows.map fun c => .uuid (E.uuid c.user_id) :=
    h.channels.map_get fun c => by simp [Encoding.channel]
  have hverification :
      rows.verification_tokens.map (fun r => r.get "user_id") =
      s.auth.verification_tokens.rows.map fun v => .uuid (E.uuid v.user_id) :=
    h.verification_tokens.map_get fun v => by simp [Encoding.verificationToken]
  have hrefresh : rows.refresh_tokens.map (fun r => r.get "user_id") =
      s.auth.refresh_tokens.rows.map fun r => .uuid (E.uuid r.user_id) :=
    h.refresh_tokens.map_get fun r => by simp [Encoding.refreshToken]
  have hvideos : rows.videos.map (fun r => r.get "owner_id") =
      s.videos.videos.map fun v => .uuid (E.uuid v.owner_id) :=
    h.videos.map_get fun v => by simp [Encoding.video]
  simp only [references, List.forall_mem_cons, List.not_mem_nil,
    false_imp_iff, implies_true, and_true]
  rw [column_free hchannels, column_free hverification, column_free hrefresh,
    column_free hvideos, Auth.Store.referenced, Bool.or_eq_false_iff,
    Bool.or_eq_false_iff, and_assoc, and_assoc]

end Videum.Schema
