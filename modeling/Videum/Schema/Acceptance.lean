import Videum.Schema.Insertions

/-!
# What the database accepts

The stores of the backend answer for the constraints of the tables themselves:
they refuse a second user of an email address, a channel without its user and
so on.  The database accepts a statement exactly when the store accepts the
call, and its rows stand for the stores afterwards, too.  What the stores do
not look at is left to `Statement.Plain`: the values that are sent exist in
PostgreSQL, and no text is cut.

The calls that only change rows which are already there are left out.

## Main results

* `accepted_iff` — the stores refuse what the migrations make the database
  refuse.
-/

namespace Videum.Schema

open Videum.Relational
open Videum.Common

variable {E : Encoding} {s : Backend.Store} {rows : Rows}

/-! ## The calls -/

/-- The database accepts the statement exactly when the call is answered, and
the rows stand for the stores afterwards; otherwise nothing changes. -/
def Encoding.Agrees (E : Encoding) (s : Backend.Store) {α : Type}
    (answer : Except Backend.BackendError α × Backend.Store)
    (result : Option Database) : Prop :=
  answer.1.isOk = result.isSome ∧ (result = none → answer.2 = s) ∧
    ∀ D', result = some D' →
      ∃ rows', D' = database rows' ∧ E.Represents answer.2 rows'

theorem agrees_of_iff {st : Statement} {accepted : Prop} {rows' : Rows}
    {α : Type} {answer : Except Backend.BackendError α × Backend.Store}
    (hwrite : st.isWrite = true)
    (hiff : ∀ {D'}, st.exec (database rows) = some D' ↔
      accepted ∧ D' = database rows')
    (hok : accepted → answer.1.isOk = true ∧
      ((database rows').Integral → E.Represents answer.2 rows'))
    (hrefused : ¬ accepted → answer.1.isOk = false ∧ answer.2 = s) :
    E.Agrees s answer (st.exec (database rows)) := by
  by_cases haccepted : accepted
  · have hexec := hiff.2 ⟨haccepted, rfl⟩
    obtain ⟨hanswer, hrepresents⟩ := hok haccepted
    rw [hexec]
    refine ⟨hanswer, (fun h => by cases h), ?_⟩
    intro D' hD'
    cases hD'
    exact ⟨rows', rfl, hrepresents (exec_write hwrite hexec).2⟩
  · have hexec : st.exec (database rows) = none := by
      cases hexec : st.exec (database rows) with
      | none => rfl
      | some D' => exact absurd (hiff.1 hexec).1 haccepted
    obtain ⟨hanswer, hsame⟩ := hrefused haccepted
    rw [hexec]
    exact ⟨hanswer, fun _ => hsame, fun D' h => by cases h⟩

/-- A call of `AuthService` that the foreign key of the videos lets pass. -/
theorem agrees_of_auth {op : Auth.AuthOp} {m : Backend.Moment}
    {st : Statement} {accepted : Prop} {rows' : Rows}
    (hrefuses : s.refuses ⟨.auth, op⟩ = false) (hwrite : st.isWrite = true)
    (hiff : ∀ {D'}, st.exec (database rows) = some D' ↔
      accepted ∧ D' = database rows')
    (hok : accepted → (Auth.Store.exec m.auth op s.auth).1.isOk = true ∧
      ((database rows').Integral → E.Represents
        { s with auth := (Auth.Store.exec m.auth op s.auth).2 } rows'))
    (hrefused : ¬ accepted →
      (Auth.Store.exec m.auth op s.auth).1.isOk = false ∧
        (Auth.Store.exec m.auth op s.auth).2 = s.auth) :
    E.Agrees s (Backend.Store.exec m ⟨.auth, op⟩ s)
      (st.exec (database rows)) := by
  have hexec : Backend.Store.exec m ⟨.auth, op⟩ s =
      (Backend.authView.answer (Auth.Store.exec m.auth op s.auth).1,
        { s with auth := (Auth.Store.exec m.auth op s.auth).2 }) := by
    rw [Backend.Store.exec, hrefuses]
    rfl
  have hisOk : (Backend.authView.answer
      (Auth.Store.exec m.auth op s.auth).1).isOk =
      (Auth.Store.exec m.auth op s.auth).1.isOk := by
    cases (Auth.Store.exec m.auth op s.auth).1 <;> rfl
  rw [hexec]
  refine agrees_of_iff hwrite hiff ?_ ?_
  · intro haccepted
    obtain ⟨hanswer, hrepresents⟩ := hok haccepted
    exact ⟨hisOk.trans hanswer, hrepresents⟩
  · intro haccepted
    obtain ⟨hanswer, hsame⟩ := hrefused haccepted
    exact ⟨hisOk.trans hanswer,
      congrArg (fun auth => { s with auth := auth }) hsame⟩

theorem insertUser_agrees (h : E.Represents s rows) (m : Backend.Moment)
    {email : String} {password : Auth.PasswordHash} {now : Int}
    (hplain : (Statement.insert "users" (E.newUser email password)
      (E.uuid s.auth.users.nextId) now).Plain (database rows)) :
    E.Agrees s (Backend.Store.exec m ⟨.auth, .insertUser email password⟩ s)
      ((Statement.insert "users" (E.newUser email password)
        (E.uuid s.auth.users.nextId) now).exec (database rows)) := by
  refine agrees_of_auth rfl rfl (insertUser_iff h hplain) ?_ ?_
  · intro hfind
    have hexec : Auth.Store.exec m.auth (.insertUser email password) s.auth =
        s.auth.insertUser email password := rfl
    rw [hexec, Auth.Store.insertUser, hfind]
    have hhas : (users.newRow (E.newUser email password)
        (E.uuid s.auth.users.nextId) now).Has
        (E.user ⟨s.auth.users.nextId, email, password, false⟩) := by
      intro v hv
      simp only [Encoding.user, List.mem_cons, List.not_mem_nil,
        or_false] at hv
      rcases hv with rfl | rfl | rfl | rfl <;> rfl
    exact ⟨rfl, fun hi => ⟨hi, h.users.concat hhas, h.channels,
      h.verification_tokens, h.refresh_tokens, h.videos, h.videos_lt⟩⟩
  · intro hfind
    obtain ⟨u, hu⟩ := Option.ne_none_iff_exists'.1 hfind
    have hexec : Auth.Store.exec m.auth (.insertUser email password) s.auth =
        s.auth.insertUser email password := rfl
    rw [hexec, Auth.Store.insertUser, hu]
    exact ⟨rfl, rfl⟩

/-- What the table of channels accepts, as `insertChannel` asks for it. -/
theorem insertChannel_ok {a : Auth.Store} {name nickname : String}
    {userId : Nat}
    (h : (name.length ≤ 50 ∧ nickname.length ≤ 50) ∧
      (a.channels.rows.any (·.nickname == nickname) = false ∧
        a.channels.rows.any (·.user_id == userId) = false) ∧
      (a.userById userId).isSome = true) :
    a.insertChannel name nickname userId =
      (.ok ⟨a.channels.nextId, name, nickname, userId⟩,
        { a with
          channels := a.channels.insert
            ⟨a.channels.nextId, name, nickname, userId⟩ rfl }) := by
  obtain ⟨⟨hname, hlength⟩, ⟨hnickname, huser⟩, hthere⟩ := h
  have hlengths : ¬ (name.length > 50 ∨ nickname.length > 50) := by omega
  rw [Auth.Store.insertChannel, if_neg hlengths, hnickname, huser,
    Option.isNone_eq_false_iff.2 hthere]
  rfl

theorem insertChannel_refused {a : Auth.Store} {name nickname : String}
    {userId : Nat}
    (h : ¬ ((name.length ≤ 50 ∧ nickname.length ≤ 50) ∧
      (a.channels.rows.any (·.nickname == nickname) = false ∧
        a.channels.rows.any (·.user_id == userId) = false) ∧
      (a.userById userId).isSome = true)) :
    (a.insertChannel name nickname userId).1.isOk = false ∧
      (a.insertChannel name nickname userId).2 = a := by
  unfold Auth.Store.insertChannel
  split_ifs with hlengths hnickname huser
  · exact ⟨rfl, rfl⟩
  · exact ⟨rfl, rfl⟩
  · exact ⟨rfl, rfl⟩
  · refine absurd ⟨by omega, ⟨Bool.eq_false_iff.2 hnickname, ?_⟩, ?_⟩ h
    · exact Bool.eq_false_iff.2 fun hany => huser (.inl hany)
    · rw [← Option.isNone_eq_false_iff]
      exact Bool.eq_false_iff.2 fun hnone => huser (.inr hnone)

theorem insertChannel_agrees (h : E.Represents s rows) (m : Backend.Moment)
    {name nickname : String} {userId : Nat} {now : Int}
    (hplain : (Statement.insert "channels" (E.newChannel name nickname userId)
      (E.uuid s.auth.channels.nextId) now).Plain (database rows)) :
    E.Agrees s
      (Backend.Store.exec m ⟨.auth, .insertChannel name nickname userId⟩ s)
      ((Statement.insert "channels" (E.newChannel name nickname userId)
        (E.uuid s.auth.channels.nextId) now).exec (database rows)) := by
  have hexec : Auth.Store.exec m.auth (.insertChannel name nickname userId)
      s.auth = s.auth.insertChannel name nickname userId := rfl
  refine agrees_of_auth rfl rfl (insertChannel_iff h hplain) ?_ ?_
  · intro haccepted
    rw [hexec, insertChannel_ok haccepted]
    have hhas : (channels.newRow (E.newChannel name nickname userId)
        (E.uuid s.auth.channels.nextId) now).Has
        (E.channel ⟨s.auth.channels.nextId, name, nickname, userId⟩) := by
      intro v hv
      have hkeeps : channels.Keeps (E.newChannel name nickname userId)
          (E.uuid s.auth.channels.nextId) now :=
        hplain.keeps _ (.head _) rfl
      rw [hkeeps.newRow_eq]
      simp only [Encoding.channel, List.mem_cons, List.not_mem_nil,
        or_false] at hv
      rcases hv with rfl | rfl | rfl | rfl <;> rfl
    exact ⟨rfl, fun hi => ⟨hi, h.users, h.channels.concat hhas,
      h.verification_tokens, h.refresh_tokens, h.videos, h.videos_lt⟩⟩
  · intro hrefused
    rw [hexec]
    exact insertChannel_refused hrefused

theorem insertVerificationToken_agrees (h : E.Represents s rows)
    (m : Backend.Moment) {v : Auth.NewVerificationToken} {now : Int}
    (hplain : (Statement.insert "verification_tokens"
      (E.newVerificationToken v) (E.uuid s.auth.verification_tokens.nextId)
      now).Plain (database rows)) :
    E.Agrees s (Backend.Store.exec m ⟨.auth, .insertVerificationToken v⟩ s)
      ((Statement.insert "verification_tokens" (E.newVerificationToken v)
        (E.uuid s.auth.verification_tokens.nextId) now).exec
          (database rows)) := by
  have hexec : Auth.Store.exec m.auth (.insertVerificationToken v) s.auth =
      s.auth.insertVerificationToken v := rfl
  refine agrees_of_auth rfl rfl (insertVerificationToken_iff h hplain) ?_ ?_
  · intro hthere
    obtain ⟨u, hu⟩ := Option.isSome_iff_exists.1 hthere
    rw [hexec, Auth.Store.insertVerificationToken, hu]
    have hhas : (verificationTokens.newRow (E.newVerificationToken v)
        (E.uuid s.auth.verification_tokens.nextId) now).Has
        (E.verificationToken (s.auth.newVerificationToken v)) := by
      intro x hx
      simp only [Encoding.verificationToken, List.mem_cons, List.not_mem_nil,
        or_false] at hx
      rcases hx with rfl | rfl | rfl | rfl | rfl | rfl <;> rfl
    exact ⟨rfl, fun hi => ⟨hi, h.users, h.channels,
      h.verification_tokens.concat hhas, h.refresh_tokens, h.videos,
      h.videos_lt⟩⟩
  · intro hnone
    rw [hexec, Auth.Store.insertVerificationToken,
      Option.not_isSome_iff_eq_none.1 hnone]
    exact ⟨rfl, rfl⟩

theorem insertRefreshToken_agrees (h : E.Represents s rows)
    (m : Backend.Moment) {r : Auth.NewRefreshToken} {now : Int}
    (hplain : (Statement.insert "refresh_tokens" (E.newRefreshToken r)
      (E.uuid s.auth.refresh_tokens.nextId) now).Plain (database rows)) :
    E.Agrees s (Backend.Store.exec m ⟨.auth, .insertRefreshToken r⟩ s)
      ((Statement.insert "refresh_tokens" (E.newRefreshToken r)
        (E.uuid s.auth.refresh_tokens.nextId) now).exec (database rows)) := by
  have hexec : Auth.Store.exec m.auth (.insertRefreshToken r) s.auth =
      s.auth.insertRefreshToken r := rfl
  refine agrees_of_auth rfl rfl (insertRefreshToken_iff h hplain) ?_ ?_
  · intro hthere
    obtain ⟨u, hu⟩ := Option.isSome_iff_exists.1 hthere
    rw [hexec, Auth.Store.insertRefreshToken, hu]
    have hhas : (refreshTokens.newRow (E.newRefreshToken r)
        (E.uuid s.auth.refresh_tokens.nextId) now).Has
        (E.refreshToken (s.auth.newRefreshToken r)) := by
      intro x hx
      simp only [Encoding.refreshToken, List.mem_cons, List.not_mem_nil,
        or_false] at hx
      rcases hx with rfl | rfl | rfl | rfl | rfl | rfl <;> rfl
    exact ⟨rfl, fun hi => ⟨hi, h.users, h.channels, h.verification_tokens,
      h.refresh_tokens.concat hhas, h.videos, h.videos_lt⟩⟩
  · intro hnone
    rw [hexec, Auth.Store.insertRefreshToken,
      Option.not_isSome_iff_eq_none.1 hnone]
    exact ⟨rfl, rfl⟩

theorem deleteUser_agrees (h : E.Represents s rows) (m : Backend.Moment)
    (id : Nat) :
    E.Agrees s (Backend.Store.exec m ⟨.auth, .deleteUser id⟩ s)
      ((Statement.delete "users" fun r =>
        r.get "id" == .uuid (E.uuid id)).exec (database rows)) := by
  cases howns : s.videos.videos.any (·.owner_id == id) with
  | true =>
      have hexec : Backend.Store.exec m ⟨.auth, .deleteUser id⟩ s =
          (.error (.auth .database), s) := by
        rw [Backend.Store.exec]
        exact if_pos howns
      refine agrees_of_iff rfl (deleteUser_iff h.integral) ?_ ?_
      · intro hfree
        have hnone := ((unreferenced_iff h).1 hfree).2
        rw [howns] at hnone
        cases hnone
      · intro _
        rw [hexec]
        exact ⟨rfl, rfl⟩
  | false =>
      have hexec : Auth.Store.exec m.auth (.deleteUser id) s.auth =
          s.auth.deleteUser id := rfl
      refine agrees_of_auth howns rfl (deleteUser_iff h.integral) ?_ ?_
      · intro hfree
        have hnone := ((unreferenced_iff h).1 hfree).1
        rw [hexec, Auth.Store.deleteUser, hnone]
        have hstay : ∀ (r : Row) (u : Auth.User), r.Has (E.user u) →
            (!(r.get "id" == .uuid (E.uuid id))) = !(u.id == id) := by
          intro r u hhas
          have hid : r.get "id" = .uuid (E.uuid u.id) := hhas _ (.head _)
          rw [hid, Bool.eq_iff_iff]
          simp [E.uuid_injective.eq_iff]
        exact ⟨rfl, fun hi => ⟨hi, h.users.filter hstay, h.channels,
          h.verification_tokens, h.refresh_tokens, h.videos, h.videos_lt⟩⟩
      · intro hreferenced
        have hsome : s.auth.referenced id = true := by
          rw [← Bool.not_eq_false]
          exact fun hnone => hreferenced ((unreferenced_iff h).2 ⟨hnone, howns⟩)
        rw [hexec, Auth.Store.deleteUser, hsome]
        exact ⟨rfl, rfl⟩

theorem insertVideo_agrees (h : E.Represents s rows) (m : Backend.Moment)
    {v : Videos.NewVideo}
    (hplain : (Statement.insert "videos" (E.newVideo v)
      (E.uuid s.videos.nextVideoId) m.auth.now).Plain (database rows)) :
    E.Agrees s (Backend.Store.exec m ⟨.videos, .insertVideo v⟩ s)
      ((Statement.insert "videos" (E.newVideo v)
        (E.uuid s.videos.nextVideoId) m.auth.now).exec (database rows)) := by
  apply agrees_of_iff rfl (insertVideo_iff h hplain)
  · rintro ⟨hinsertable, hthere⟩
    have hexec : Backend.Store.exec m ⟨.videos, .insertVideo v⟩ s =
        (.ok (s.videos.newRow m.videos v), { s with
          videos := { s.videos with
            videos := s.videos.videos ++ [s.videos.newRow m.videos v]
            nextVideoId := s.videos.nextVideoId + 1 } }) := by
      have hrefuses : s.refuses ⟨.videos, .insertVideo v⟩ = false :=
        Option.isNone_eq_false_iff.2 hthere
      have hinsert : s.videos.insertVideo m.videos v = _ :=
        if_pos hinsertable
      rw [Backend.Store.exec, hrefuses]
      show (Backend.videosView.answer (s.videos.insertVideo m.videos v).1,
        { s with videos := (s.videos.insertVideo m.videos v).2 }) = _
      rw [hinsert]
      rfl
    rw [hexec]
    have hhas : (videos.newRow (E.newVideo v) (E.uuid s.videos.nextVideoId)
        m.auth.now).Has (E.video (s.videos.newRow m.videos v)) := by
      intro x hx
      have hkeeps : videos.Keeps (E.newVideo v) (E.uuid s.videos.nextVideoId)
          m.auth.now :=
        hplain.keeps _ (.tail _ (.tail _ (.tail _ (.tail _ (.head _))))) rfl
      rw [hkeeps.newRow_eq]
      simp only [Encoding.video, List.mem_cons, List.not_mem_nil,
        or_false] at hx
      rcases hx with rfl | rfl | rfl | rfl | rfl | rfl | rfl | rfl | rfl |
        rfl | rfl | rfl | rfl
      all_goals first | rfl | exact congrArg Value.time m.one_clock.symm
    refine ⟨rfl, fun hi => ⟨hi, h.users, h.channels, h.verification_tokens,
      h.refresh_tokens, h.videos.concat hhas, ?_⟩⟩
    intro x hx
    rcases List.mem_append.1 hx with hx | hx
    · exact Nat.lt_succ_of_lt (h.videos_lt x hx)
    · rw [List.mem_singleton.1 hx]
      exact Nat.lt_succ_self _
  · intro hrefused
    cases hthere : s.auth.userById v.owner_id with
    | none =>
        have hrefuses : s.refuses ⟨.videos, .insertVideo v⟩ = true := by
          show (s.auth.userById v.owner_id).isNone = true
          rw [hthere]
          rfl
        rw [Backend.Store.exec, if_pos hrefuses]
        exact ⟨rfl, rfl⟩
    | some u =>
        have hinsertable : s.videos.insertable v = false := by
          rw [← Bool.not_eq_true]
          intro hinsertable
          exact hrefused ⟨hinsertable, Option.isSome_iff_exists.2 ⟨u, hthere⟩⟩
        have hrefuses : s.refuses ⟨.videos, .insertVideo v⟩ = false := by
          show (s.auth.userById v.owner_id).isNone = false
          rw [hthere]
          rfl
        have hinsert : s.videos.insertVideo m.videos v =
            (.error .database, s.videos) :=
          if_neg (Bool.eq_false_iff.1 hinsertable)
        have hexec : Backend.Store.exec m ⟨.videos, .insertVideo v⟩ s =
            (.error (.videos .database), s) := by
          rw [Backend.Store.exec, hrefuses]
          show (Backend.videosView.answer (s.videos.insertVideo m.videos v).1,
            { s with videos := (s.videos.insertVideo m.videos v).2 }) = _
          rw [hinsert]
          rfl
        rw [hexec]
        exact ⟨rfl, rfl⟩

/-- From any state of the backend and any rows that stand for it, the database
of the migrated schema accepts what the stores accept, and nothing else, when
the values that are sent exist and no text is cut. -/
theorem accepted_iff (h : E.Represents s rows) (m : Backend.Moment)
    {op : Backend.BackendIface.Op} {st : Statement}
    (hst : E.statement s m.auth.now op = some st)
    (hplain : st.Plain (database rows)) :
    E.Agrees s (Backend.Store.exec m op s) (st.exec (database rows)) := by
  obtain ⟨part, op⟩ := op
  cases part with
  | auth =>
      cases op with
      | insertUser email password =>
          cases hst
          exact insertUser_agrees h m hplain
      | deleteUser id =>
          cases hst
          exact deleteUser_agrees h m id
      | insertChannel name nickname userId =>
          cases hst
          exact insertChannel_agrees h m hplain
      | insertVerificationToken v =>
          cases hst
          exact insertVerificationToken_agrees h m hplain
      | insertRefreshToken r =>
          cases hst
          exact insertRefreshToken_agrees h m hplain
      | _ => cases hst
  | videos =>
      cases op with
      | insertVideo v =>
          cases hst
          exact insertVideo_agrees h m hplain
      | _ => cases hst

/-! ## A user uploads a video -/

/-- The ids below ten have UUIDs. -/
def plainEncoding : Encoding where
  uuid n := "0190b6c4-0000-7000-8000-00000000000" ++ Nat.repr n
  uuid_injective := by
    intro a b h
    have htext := congrArg String.toList h
    rw [String.toList_append, String.toList_append] at htext
    have hdigits := List.append_cancel_left htext
    rw [Nat.toList_repr, Nat.toList_repr] at hdigits
    simpa using congrArg (fun ds => Nat.ofDigitChars 10 ds 0) hdigits
  digest _ := ""
  hash h := h.password
  uploadId _ := ""
  uploadId_length := fun _ => by decide

example : ∀ n < 10, isUuid (plainEncoding.uuid n) = true := by decide +kernel

def ana : Auth.User := ⟨0, "ana@example.com", ⟨"secret123", 7⟩, true⟩

def anaStore : Backend.Store where
  auth := { users := Common.Table.insert {} ana rfl }

def anaRows : Rows where
  users := [users.newRow [
    ("email", .text ana.email),
    ("password", .text "secret123"),
    ("is_confirmed", .bool true)] (plainEncoding.uuid 0) 0]

def anaVideo : Videos.NewVideo where
  public_id := "0190b6c4-5d2e-7a41-9f03-6b1e2c8d4a70"
  owner_id := 0
  title := "Intro"
  original_filename := "intro.mp4"
  storage_key := "videos/0190b6c4-5d2e-7a41-9f03-6b1e2c8d4a70/original"
  upload_id := none
  size_bytes := 1024
  content_type := "video/mp4"
  status := .uploading

def anaMoment : Backend.Moment where
  auth := {}
  videos := {}
  one_clock := rfl

theorem anaRows_represent : plainEncoding.Represents anaStore anaRows where
  integral := by decide +kernel
  users := .cons (by decide +kernel) .nil
  channels := .nil
  verification_tokens := .nil
  refresh_tokens := .nil
  videos := .nil
  videos_lt := fun _ h => by cases h

/-- The statement that creates her video. -/
def anaInsert : Statement :=
  .insert "videos" (plainEncoding.newVideo anaVideo) (plainEncoding.uuid 0) 0

theorem anaInsert_plain : anaInsert.Plain (database anaRows) where
  values := by decide +kernel
  keeps := by
    show ∀ t ∈ (database anaRows).tables, t.name = "videos" →
      t.Keeps (plainEncoding.newVideo anaVideo) (plainEncoding.uuid 0) 0
    decide +kernel

theorem accepted_iff_anaVideo :
    (Backend.Store.exec anaMoment ⟨.videos, .insertVideo anaVideo⟩
      anaStore).1.isOk = true ∧
    plainEncoding.Agrees anaStore
      (Backend.Store.exec anaMoment ⟨.videos, .insertVideo anaVideo⟩ anaStore)
      (anaInsert.exec (database anaRows)) :=
  ⟨by decide +kernel,
    accepted_iff anaRows_represent anaMoment rfl anaInsert_plain⟩

end Videum.Schema
