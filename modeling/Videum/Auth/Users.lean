import Videum.Auth.Tokens

/-!
# Users over a run

`confirm` and `resetPassword` write a whole user back that they read some
calls before.  This module says what that cannot change: the primary key and
the address of a user, and that an address is confirmed without somebody
writing it so.  It also says that a verification token that was issued stays
in its table.

## Main results

* `users_origin` — where the users after a call come from.
* `addresses_of_reachable` — all answers about a user show one address.
* `issued_of_reachable` — an issued token stays in the table.
-/

namespace Videum.Auth

open Videum.Async
open Videum.Common

/-- The user an answer has shown. -/
def AuthOp.seenUser : (op : AuthOp) → Except AuthError op.Res →
    Option UserEntity
  | .findUserByEmail _, .ok user? => user?
  | .findUserByEmailWithChannel _, .ok found => found.map Prod.fst
  | .insertUser _ _, .ok user => some user
  | .findVerificationToken _ _, .ok found => found.map Prod.snd
  | _, _ => none

/-- The calls that write `users`. -/
def AuthOp.writesUsers : AuthOp → Bool
  | .insertUser _ _ => true
  | .saveUser _ => true
  | .deleteUser _ => true
  | _ => false

theorem AuthOp.seenUser_error (op : AuthOp) (e : AuthError) :
    op.seenUser (.error e) = none := by
  cases op <;> rfl

theorem AuthOp.seenUser_of_found {op : AuthOp}
    {res : Except AuthError op.Res} {pair : VerificationToken × UserEntity}
    (h : op.foundToken res = some pair) : op.seenUser res = some pair.2 := by
  obtain ⟨tokenHash, type, rfl⟩ := AuthOp.eq_of_foundToken h
  cases res with
  | ok found =>
      have hfound : found = some pair := h
      rw [hfound]
      rfl
  | error e => exact nomatch h

/-! ## What one call does to the users -/

theorem users_exec (m : Moment) {op : AuthOp} (s : Store)
    (h : op.writesUsers = false) : (Store.exec m op s).2.users = s.users := by
  cases op with
  | insertUser email password => exact nomatch h
  | saveUser u => exact nomatch h
  | deleteUser id => exact nomatch h
  | insertChannel name nickname userId =>
      rw [Store.exec, Store.insertChannel_only]
  | insertVerificationToken v =>
      rw [Store.exec, Store.insertVerificationToken_only]
  | insertRefreshToken r =>
      rw [Store.exec, Store.insertRefreshToken_only]
  | _ => rfl

/-- A user that is inserted is new, unconfirmed, and keyed by the next
primary key. -/
theorem insertUser_cases (s : Store) (email : String)
    (password : PasswordHash) :
    s.insertUser email password = (.error .database, s) ∨
    s.insertUser email password =
      (.ok ⟨s.users.nextId, email, some password, false⟩,
        { s with
          users := s.users.insert
            ⟨s.users.nextId, email, password, false⟩ rfl }) := by
  unfold Store.insertUser
  cases s.userByEmail email with
  | some v => exact .inl rfl
  | none => exact .inr rfl

/-- Primary keys are not handed out again. -/
theorem nextId_exec (m : Moment) (op : AuthOp) (s : Store) :
    s.users.nextId ≤ (Store.exec m op s).2.users.nextId := by
  cases op with
  | insertUser email password =>
      show s.users.nextId ≤ (s.insertUser email password).2.users.nextId
      rcases insertUser_cases s email password with h | h
      · exact Nat.le_of_eq (by rw [h])
      · rw [h]
        exact Nat.le_succ _
  | saveUser w => exact Nat.le_refl _
  | deleteUser id =>
      simp only [Store.exec, Store.deleteUser]
      split <;> exact Nat.le_refl _
  | _ =>
      exact Nat.le_of_eq (by rw [users_exec m s (by rfl)])

/-- A user that was not there has been inserted, and is not confirmed; one
that was keeps its address, and is confirmed only by a save that says so. -/
theorem users_origin {m : Moment} {op : AuthOp} {s : Store}
    (haddress : ∀ w, op = .saveUser w →
      ∀ row ∈ s.users.rows, row.id = w.id → row.email = w.email)
    {row' : User} (h : row' ∈ (Store.exec m op s).2.users.rows) :
    (∃ row ∈ s.users.rows, row'.id = row.id ∧ row'.email = row.email ∧
      (row'.is_confirmed = true → row.is_confirmed = true ∨
        ∃ w, op = .saveUser w ∧ w.id = row.id ∧ w.is_confirmed = true)) ∨
    (∃ u, op.seenUser (Store.exec m op s).1 = some u ∧
      u.id = s.users.nextId ∧ row'.id = u.id ∧ row'.email = u.email ∧
      row'.is_confirmed = false) := by
  have hold : row' ∈ s.users.rows → ∃ row ∈ s.users.rows, row'.id = row.id ∧
      row'.email = row.email ∧ (row'.is_confirmed = true →
        row.is_confirmed = true ∨
          ∃ w, op = .saveUser w ∧ w.id = row.id ∧ w.is_confirmed = true) :=
    fun hmem => ⟨row', hmem, rfl, rfl, .inl⟩
  cases op with
  | insertUser email password =>
      change row' ∈ (s.insertUser email password).2.users.rows at h
      show _ ∨ ∃ u, (AuthOp.insertUser email password).seenUser
        (s.insertUser email password).1 = some u ∧ _
      rcases insertUser_cases s email password with heq | heq
      · rw [heq] at h
        exact .inl (hold h)
      · rw [heq] at h ⊢
        rcases (Table.mem_insert (h := rfl)).1 h with h | rfl
        · exact .inl (hold h)
        · exact .inr ⟨_, rfl, rfl, rfl, rfl, rfl⟩
  | saveUser w =>
      obtain ⟨row, hrow, rfl⟩ := List.mem_map.1 h
      left
      refine ⟨row, hrow, w.write_id row, ?_⟩
      unfold UserEntity.write
      split
      · next hid =>
          exact ⟨(haddress w rfl row hrow hid).symm,
            fun hconfirmed => .inr ⟨w, rfl, hid.symm, hconfirmed⟩⟩
      · exact ⟨rfl, .inl⟩
  | deleteUser id =>
      simp only [Store.exec, Store.deleteUser] at h
      split at h
      · exact .inl (hold h)
      · exact .inl (hold (Table.mem_delete.1 h).1)
  | _ =>
      rw [users_exec m s (by rfl)] at h
      exact .inl (hold h)

/-- An answer shows a user that is there, or that it has just added. -/
theorem seenUser_exec {m : Moment} {op : AuthOp} {s : Store} {u : UserEntity}
    (h : op.seenUser (Store.exec m op s).1 = some u) :
    (∃ row ∈ s.users.rows, row.id = u.id ∧ row.email = u.email ∧
      row.is_confirmed = u.is_confirmed) ∨
    u.id = s.users.nextId ∧
      (Store.exec m op s).2.users.nextId = s.users.nextId + 1 ∧
      u.is_confirmed = false := by
  cases op with
  | findUserByEmail email =>
      obtain ⟨row, hrow, rfl⟩ := Option.map_eq_some_iff.1 h
      exact .inl ⟨row, List.mem_of_find?_eq_some hrow, rfl, rfl, rfl⟩
  | findUserByEmailWithChannel email =>
      obtain ⟨pair, hpair, rfl⟩ := Option.map_eq_some_iff.1 h
      obtain ⟨row, hrow, rfl⟩ := Option.map_eq_some_iff.1 hpair
      exact .inl ⟨row, List.mem_of_find?_eq_some hrow, rfl, rfl, rfl⟩
  | insertUser email password =>
      right
      change (AuthOp.insertUser email password).seenUser
        (s.insertUser email password).1 = some u at h
      show u.id = s.users.nextId ∧
        (s.insertUser email password).2.users.nextId = s.users.nextId + 1 ∧
        u.is_confirmed = false
      rcases insertUser_cases s email password with heq | heq
      · rw [heq] at h
        exact nomatch h
      · rw [heq] at h ⊢
        cases h
        exact ⟨rfl, rfl, rfl⟩
  | findVerificationToken tokenHash type =>
      left
      obtain ⟨⟨r, u'⟩, hfind, rfl⟩ := Option.map_eq_some_iff.1 h
      obtain ⟨_, _, _, _, row, hrow, rfl⟩ := of_findVerificationToken hfind
      exact ⟨row, List.mem_of_find?_eq_some hrow, rfl, rfl, rfl⟩
  | _ => exact nomatch h

/-! ## Addresses -/

/-- All answers about a user show one address, the one the user has. -/
structure Addresses (s : Store) (log : AuthLog) : Prop where
  known : ∀ x ∈ log, ∀ u, x.op.seenUser x.res = some u →
    u.id < s.users.nextId ∧
      ∀ row ∈ s.users.rows, row.id = u.id → row.email = u.email
  agree : ∀ x ∈ log, ∀ y ∈ log, ∀ u v, x.op.seenUser x.res = some u →
    y.op.seenUser y.res = some v → u.id = v.id → u.email = v.email

/-- The user a consumer makes of the one it has read. -/
theorem AuthRequest.Stores.same {request : AuthRequest} {u w : UserEntity}
    (h : request.Stores u w) : w.id = u.id ∧ w.email = u.email := by
  cases request with
  | confirm token =>
      rw [show w = { u with is_confirmed := true } from h]
      exact ⟨rfl, rfl⟩
  | resetPassword dto =>
      obtain ⟨hash, rfl⟩ := h
      exact ⟨rfl, rfl⟩
  | _ => exact h.elim

section Answers

variable {cfg : AuthConfig} {P : AuthPolicy} {t : Nat}
  {request : AuthRequest} {m : Moment} {op : AuthOp} {s : Store}
  {log : AuthLog}

/-- A save writes the address the user has. -/
theorem Addresses.saved (hinv : Addresses s log) {w : UserEntity}
    (hlaw : Consuming log t request (.saveUser w)) :
    ∀ row ∈ s.users.rows, row.id = w.id → row.email = w.email := by
  obtain ⟨⟨x, hx, r, u, hread, hstores⟩, _⟩ := hlaw
  obtain ⟨hid, hemail⟩ := hstores.same
  have hknown := (hinv.known x (mem_own.1 hx).1 u
    (AuthOp.seenUser_of_found hread.found)).2
  intro row hrow hrowid
  rw [hemail]
  exact hknown row hrow (hrowid.trans hid)

/-- An answer about a user shows the address the user has after the call. -/
theorem Addresses.shown (hinv : Addresses s log)
    (hlaw : Consuming log t request op) {u : UserEntity}
    (hu : op.seenUser (Store.exec m op s).1 = some u) :
    u.id < (Store.exec m op s).2.users.nextId ∧
      ∀ row' ∈ (Store.exec m op s).2.users.rows, row'.id = u.id →
        row'.email = u.email := by
  have hnextId := nextId_exec m op s
  have haddress : ∀ w, op = .saveUser w →
      ∀ row ∈ s.users.rows, row.id = w.id → row.email = w.email := by
    rintro w rfl
    exact hinv.saved hlaw
  rcases seenUser_exec hu with
    ⟨row, hrow, hrowid, hemail, _⟩ | ⟨hnew, hnext, _⟩
  · have hlt := s.users.keys_lt row hrow
    refine ⟨by omega, ?_⟩
    intro row' hrow' hid
    rcases users_origin haddress hrow' with
      ⟨row₀, hrow₀, hid₀, hemail₀, _⟩ | ⟨v, _, hv, hid₀, _⟩
    · have heq := s.users.unique hrow₀ hrow
        (hid₀.symm.trans (hid.trans hrowid.symm))
      rw [hemail₀, heq, hemail]
    · omega
  · refine ⟨by omega, ?_⟩
    intro row' hrow' hid
    rcases users_origin haddress hrow' with
      ⟨row₀, hrow₀, hid₀, _, _⟩ | ⟨v, hv, _, _, hemail, _⟩
    · have hlt := s.users.keys_lt row₀ hrow₀
      omega
    · cases hu.symm.trans hv
      exact hemail

/-- What was shown about a user stays true. -/
theorem Addresses.kept (hinv : Addresses s log)
    (hlaw : Consuming log t request op) {x : AuthEntry} (hx : x ∈ log)
    {u : UserEntity} (hu : x.op.seenUser x.res = some u) :
    u.id < (Store.exec m op s).2.users.nextId ∧
      ∀ row' ∈ (Store.exec m op s).2.users.rows, row'.id = u.id →
        row'.email = u.email := by
  have hnextId := nextId_exec m op s
  obtain ⟨hlt, hrows⟩ := hinv.known x hx u hu
  refine ⟨by omega, ?_⟩
  intro row' hrow' hid
  have horigin := users_origin (by
    rintro w rfl
    exact hinv.saved hlaw) hrow'
  rcases horigin with ⟨row₀, hrow₀, hid₀, hemail₀, _⟩ | ⟨v, _, hv, hid₀, _⟩
  · rw [hemail₀]
    exact hrows row₀ hrow₀ (hid₀.symm.trans hid)
  · omega

/-- An answer about a user agrees with the answers before it. -/
theorem Addresses.again (hinv : Addresses s log) {u v : UserEntity}
    (hu : op.seenUser (Store.exec m op s).1 = some u) {y : AuthEntry}
    (hy : y ∈ log) (hv : y.op.seenUser y.res = some v) (hid : u.id = v.id) :
    u.email = v.email := by
  obtain ⟨hlt, hrows⟩ := hinv.known y hy v hv
  rcases seenUser_exec hu with ⟨row, hrow, hrowid, hemail, _⟩ | ⟨hnew, _⟩
  · rw [← hemail]
    exact hrows row hrow (hrowid.trans hid)
  · omega

/-- A call that obeys the law keeps the addresses. -/
theorem Addresses.answer (hinv : Addresses s log)
    (hlaw : Consuming log t request op) (fault : Option AuthError) :
    Addresses ((authSystem cfg).answer m op fault s).2
      ((authSystem cfg).entry t request m op fault s :: log) := by
  cases fault with
  | some e =>
      have hnone : ∀ u, op.seenUser (.error e) ≠ some u := by
        intro u hu
        exact nomatch (AuthOp.seenUser_error op e).symm.trans hu
      constructor
      · intro x hx u hu
        rcases List.mem_cons.1 hx with rfl | hx
        · exact absurd hu (hnone u)
        · exact hinv.known x hx u hu
      · intro x hx y hy u v hu hv
        rcases List.mem_cons.1 hx with rfl | hx
        · exact absurd hu (hnone u)
        · rcases List.mem_cons.1 hy with rfl | hy
          · exact absurd hv (hnone v)
          · exact hinv.agree x hx y hy u v hu hv
  | none =>
      constructor
      · intro x hx u hu
        rcases List.mem_cons.1 hx with rfl | hx
        · exact hinv.shown hlaw hu
        · exact hinv.kept hlaw hx hu
      · intro x hx y hy u v hu hv hid
        rcases List.mem_cons.1 hx with rfl | hx
        · rcases List.mem_cons.1 hy with rfl | hy
          · cases hu.symm.trans hv
            rfl
          · exact hinv.again hu hy hv hid
        · rcases List.mem_cons.1 hy with rfl | hy
          · exact (hinv.again hv hx hu hid.symm).symm
          · exact hinv.agree x hx y hy u v hu hv hid

end Answers

section Runs

variable {cfg : AuthConfig} {P : AuthPolicy} {s₀ : Store} {c : AuthRun}

theorem addresses_of_reachable
    (hstart : s₀.verification_tokens.Distinct VerificationToken.token_hash)
    (h : Reachable (authSystem cfg) P s₀ c) : Addresses c.state c.log := by
  apply h.answers Addresses
  · constructor
    · exact fun x hx => nomatch hx
    · exact fun x hx => nomatch hx
  · intro b b' t request m op fault _ hb' hinv _ hlog
    have hlaw := (tokens_of_reachable hstart hb').1.2.newest hlog
    rw [hlog]
    exact hinv.answer hlaw fault

/-! ## Issued tokens -/

/-- The token a call has added is there. -/
theorem mem_of_addedToken {m : Moment} {op : AuthOp} {s : Store}
    {v : NewVerificationToken}
    (h : op.addedToken (Store.exec m op s).1 = some v) :
    s.newVerificationToken v ∈
      (Store.exec m op s).2.verification_tokens.rows := by
  have hop := AuthOp.eq_of_addedToken h
  subst hop
  cases hu : s.userById v.user_id with
  | none =>
      simp only [Store.exec, Store.insertVerificationToken, hu] at h
      cases h
  | some u =>
      simp only [Store.exec, Store.insertVerificationToken, hu]
      exact (Table.mem_insert (h := rfl)).2 (.inr rfl)

/-- A token that was issued stays in the table. -/
theorem issued_of_reachable
    (hstart : s₀.verification_tokens.Distinct VerificationToken.token_hash)
    (h : Reachable (authSystem cfg) P s₀ c) :
    ∀ x ∈ c.log, ∀ v, x.op.addedToken x.res = some v →
      ∃ r ∈ c.state.verification_tokens.rows, r.IssuedAs v := by
  intro x hx v hv
  obtain ⟨older, hs⟩ := older_of_mem hx
  obtain ⟨b, fault, k, hb, _, hat, hbc⟩ := h.split_at hs
  obtain ⟨hres, hafter⟩ :=
    h.entry_exec_of_ok hx (AuthOp.isOk_of_addedToken hv)
  rw [hres] at hv
  have hr := mem_of_addedToken hv
  have hstate : (Store.exec x.amb x.op x.before).2 = _ :=
    hafter.symm.trans hat.state_eq.symm
  rw [hstate] at hr
  obtain ⟨r', hr', hlater⟩ :=
    (tokens_steps hstart (hb.tail hat.step) hbc).1 _ hr
  have hissued : (x.before.newVerificationToken v).IssuedAs v :=
    ⟨rfl, rfl, rfl, rfl⟩
  exact ⟨r', hr', hissued.later hlater⟩

/-- A token of the table has been issued, where none was there before. -/
theorem origin_of_reachable (hstart : s₀.verification_tokens.rows = [])
    (h : Reachable (authSystem cfg) P s₀ c) :
    ∀ r ∈ c.state.verification_tokens.rows, ∃ x ∈ c.log, ∃ v,
      x.op.addedToken x.res = some v ∧ r.IssuedAs v := by
  have hdistinct : s₀.verification_tokens.Distinct
      VerificationToken.token_hash := by
    intro a ha
    rw [hstart] at ha
    exact nomatch ha
  obtain ⟨_, newer, hnewer, horigin⟩ :=
    tokens_steps hdistinct Relation.ReflTransGen.refl h
  have hlog : c.log = newer := hnewer.trans (List.append_nil newer)
  rw [hlog]
  intro r hr
  rcases horigin r hr with ⟨r₀, hr₀, _⟩ | hissued
  · rw [show (Config.start s₀ : AuthRun).state = s₀ from rfl, hstart] at hr₀
    exact nomatch hr₀
  · exact hissued

end Runs

end Videum.Auth
