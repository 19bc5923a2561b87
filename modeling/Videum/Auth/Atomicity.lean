import Videum.Auth.Confirmation
import Videum.Auth.Grace

/-!
# All or nothing

`confirm`, `resetPassword` and `refresh` each make two or three writes, in a
`Promise.all` and after it, and not in one transaction.  When one of them
fails the others may have taken effect.  This module says exactly when a call
that nobody interrupts leaves all of its writes or none, whichever of them
fail.

## Main results

* `writes_alone`, `replaced_alone` — two writes of which either may fail.
* `confirm_all_or_nothing`, `reset_all_or_nothing`, `refresh_all_or_nothing` —
  when each call is all or nothing.
* `all_or_nothing_iff` — the three together.
* `reset_torn` — a reset that throws and has set the password.
-/

namespace Videum.Auth

open Videum.Async
open Videum.Common

/-! ## Statements -/

/-- One request after another; any write to the tables may fail. -/
def writesMayFail : AuthPolicy where
  accepts c _ := c.idle = true
  fault op _ := op.writesUsers || op.writesTokens || op.writesRecords

instance (c : AuthRun) (request : AuthRequest) :
    Decidable (writesMayFail.accepts c request) :=
  inferInstanceAs (Decidable (c.idle = true))

namespace AuthOp

/-- The call that revokes all records of a user. -/
def revokesUser : AuthOp → Bool
  | revokeUser _ _ => true
  | _ => false

/-- The call that revokes a family. -/
def revokesFamily : AuthOp → Bool
  | revokeFamily _ _ => true
  | _ => false

end AuthOp

/-- A call of the kind `p` has failed. -/
def failed (p : AuthOp → Bool) (log : AuthLog) : Bool :=
  log.any fun x => p x.op && !x.res.isOk

/-- A call of the kind `p` has succeeded. -/
def succeeded (p : AuthOp → Bool) (log : AuthLog) : Bool :=
  log.any fun x => p x.op && x.res.isOk

/-- The three tables hold the rows they held. -/
structure Untouched (s s' : Store) : Prop where
  users : s'.users.rows = s.users.rows
  verification_tokens :
    s'.verification_tokens.rows = s.verification_tokens.rows
  refresh_tokens : s'.refresh_tokens.rows = s.refresh_tokens.rows

/-- The call has returned and all its row changes are made, or it has thrown
and no row has changed. -/
def AllOrNothing (done : Store → Store → Prop) (s s' : Store)
    (r : Except AuthError AuthReply) : Prop :=
  r.isOk = true ∧ done s s' ∨ r.isOk = false ∧ Untouched s s'

/-- The row changes of a `confirm`. -/
def ConfirmDone (token : RawToken) (s s' : Store) : Prop :=
  ∃ r u usedAt,
    s.findVerificationToken (hashToken token) .EMAIL_CONFIRMATION =
      some (r, u) ∧
    s'.verification_tokens.rows = (s.saveVerificationToken
      { r with used_at := some usedAt }).verification_tokens.rows ∧
    s'.users.rows =
      (s.saveUser { u with is_confirmed := true }).users.rows ∧
    s'.refresh_tokens.rows = s.refresh_tokens.rows

/-- The row changes of a `resetPassword`. -/
def ResetDone (dto : ResetPasswordDto) (s s' : Store) : Prop :=
  ∃ r u usedAt salt revokedAt,
    s.findVerificationToken (hashToken dto.token) .PASSWORD_RESET =
      some (r, u) ∧
    s'.verification_tokens.rows = (s.saveVerificationToken
      { r with used_at := some usedAt }).verification_tokens.rows ∧
    s'.users.rows = (s.saveUser
      { u with password := some ⟨dto.new_password, salt⟩ }).users.rows ∧
    s'.refresh_tokens.rows =
      (s.revokeWhere (·.user_id == u.id) revokedAt).refresh_tokens.rows

/-- The row changes of a `refresh`: a live record is revoked and has got a
successor; for one that is already revoked there is nothing to do. -/
def RefreshDone (cfg : AuthConfig) (rawToken : RawToken) (s s' : Store) :
    Prop :=
  ∃ record u, s.findRefreshToken (hashToken rawToken) = some (record, u) ∧
    s'.verification_tokens.rows = s.verification_tokens.rows ∧
    (record.revoked_at = none →
      ∃ m newToken, Rotated cfg m record newToken s s') ∧
    (record.revoked_at ≠ none → Untouched s s')

/-- The write of the token fails only together with the write of the user,
unless that one would change nothing. -/
structure ConfirmIntact (token : RawToken) (s : Store) (log : AuthLog) :
    Prop where
  user : failed AuthOp.savesUser log = true →
    failed AuthOp.savesToken log = true
  token : failed AuthOp.savesToken log = true →
    failed AuthOp.savesUser log = true ∨
    ∃ r u, s.findVerificationToken (hashToken token) .EMAIL_CONFIRMATION =
      some (r, u) ∧ u.is_confirmed = true

/-- The same for a reset, where the write of the user changes nothing when
the new hash is the old one, and where the revocation must not fail. -/
structure ResetIntact (dto : ResetPasswordDto) (s : Store) (log : AuthLog) :
    Prop where
  user : failed AuthOp.savesUser log = true →
    failed AuthOp.savesToken log = true
  token : failed AuthOp.savesToken log = true →
    failed AuthOp.savesUser log = true ∨
    ∃ r u row, s.findVerificationToken (hashToken dto.token) .PASSWORD_RESET =
      some (r, u) ∧ s.userById r.user_id = some row ∧
      ∃ x ∈ log, x.op.hashesPassword = true ∧
        row.password = ⟨dto.new_password, x.amb.salt⟩
  revocation : failed AuthOp.revokesUser log = false

/-- Both writes of the rotation fail or neither does, and then an access
token can be signed; and no family is revoked that has an active record. -/
structure RefreshIntact (cfg : AuthConfig) (rawToken : RawToken) (s : Store)
    (log : AuthLog) : Prop where
  both : failed AuthOp.savesRecord log = failed AuthOp.insertsRecord log
  signed : succeeded AuthOp.savesRecord log = true →
    (cfg.ms cfg.jwtAccessExpiration).isSome = true
  reuse : succeeded AuthOp.revokesFamily log = true →
    ∃ record u, s.findRefreshToken (hashToken rawToken) = some (record, u) ∧
      s.findActiveInFamily record.family = none

theorem Untouched.refl (s : Store) : Untouched s s := ⟨rfl, rfl, rfl⟩

/-- A call that throws before it has written anything. -/
theorem AllOrNothing.of_throw (done : Store → Store → Prop) (s : Store)
    (e : AuthError) : AllOrNothing done s s (.error e) :=
  .inr ⟨rfl, .refl s⟩

/-- A call that has thrown is to have changed no row. -/
theorem AllOrNothing.error_iff {done : Store → Store → Prop} {s s' : Store}
    {e : AuthError} : AllOrNothing done s s' (.error e) ↔ Untouched s s' :=
  ⟨fun h => (h.resolve_left fun hok => nomatch hok.1).2, fun h => .inr ⟨rfl, h⟩⟩

theorem failed_cons (p : AuthOp → Bool) (x : AuthEntry) (log : AuthLog) :
    failed p (x :: log) = (p x.op && !x.res.isOk || failed p log) := rfl

/-- An answer of another kind, or one that is no failure, adds none. -/
theorem failed_cons_of_isOk {p : AuthOp → Bool} {x : AuthEntry} {log : AuthLog}
    (hx : p x.op = true → x.res.isOk = true) (h : failed p log = false) :
    failed p (x :: log) = false := by
  rw [failed_cons, h, Bool.or_false]
  cases hop : p x.op with
  | false => rfl
  | true => rw [hx hop]; rfl

theorem failed_cons_self {p : AuthOp → Bool} {x : AuthEntry} (log : AuthLog)
    (hop : p x.op = true) (hres : x.res.isOk = false) :
    failed p (x :: log) = true := by
  rw [failed_cons, hop, hres]
  rfl

/-! ## When a write changes nothing -/

/-- A save changes nothing exactly when the row is what it writes. -/
theorem save_rows_eq_iff {ρ : Type} {key : ρ → Nat} {t : Table ρ key}
    {v row : ρ} (hrow : row ∈ t.rows) (hkey : key v = key row) :
    (t.save v).rows = t.rows ↔ v = row := by
  constructor
  · intro heq
    have hv : v ∈ (t.save v).rows :=
      Table.mem_save.2 (.inr ⟨rfl, row, hrow, hkey.symm⟩)
    rw [heq] at hv
    exact t.unique hv hrow hkey
  · rintro rfl
    have hid : ∀ x ∈ t.rows, (if key x = key v then v else x) = x := by
      intro x hx
      split
      · next h => exact t.unique hrow hx h.symm
      · rfl
    exact (List.map_congr_left hid).trans (List.map_id' _)

theorem saveUser_rows_eq_iff {s : Store} {w : UserEntity} {row : User}
    (hrow : row ∈ s.users.rows) (hid : w.id = row.id) :
    (s.saveUser w).users.rows = s.users.rows ↔ w.write row = row := by
  constructor
  · intro heq
    have hmem : w.write row ∈ (s.saveUser w).users.rows :=
      List.mem_map.2 ⟨row, hrow, rfl⟩
    rw [heq] at hmem
    exact s.users.unique hmem hrow (w.write_id row)
  · intro hsame
    have hall : ∀ x ∈ s.users.rows, w.write x = x := by
      intro x hx
      by_cases h : x.id = w.id
      · rw [s.users.unique hx hrow (h.trans hid), hsame]
      · unfold UserEntity.write
        rw [if_neg h]
    exact (List.map_congr_left hall).trans (List.map_id' _)

/-! ## The two writes of a consumer -/

/-- What `Promise.all` has made of the writes of `v` and `w`: that of the
token has failed if `token` says so, that of the user if `user` does. -/
structure Written (v : VerificationToken) (w : UserEntity)
    (token user : Bool) (s : Store) (log : AuthLog) (s' : Store)
    (log' : AuthLog) : Prop where
  verification_tokens : s'.verification_tokens.rows =
    if token then s.verification_tokens.rows
    else (s.saveVerificationToken v).verification_tokens.rows
  users : s'.users.rows =
    if user then s.users.rows else (s.saveUser w).users.rows
  refresh_tokens : s'.refresh_tokens = s.refresh_tokens
  token_failed : failed AuthOp.savesToken log' =
    (token || failed AuthOp.savesToken log)
  user_failed : failed AuthOp.savesUser log' =
    (user || failed AuthOp.savesUser log)
  revocation : failed AuthOp.revokesUser log' = failed AuthOp.revokesUser log
  hashes : ∀ x, x ∈ log' ∧ x.op.hashesPassword = true ↔
    x ∈ log ∧ x.op.hashesPassword = true

section Alone

variable {cfg : AuthConfig} {P : AuthPolicy} {t : Nat} {request : AuthRequest}
  {s : Store} {amb : Moment} {log : AuthLog}

theorem hashes_cons_iff {x y : AuthEntry} (hy : y.op.hashesPassword = false) :
    x ∈ y :: log ∧ x.op.hashesPassword = true ↔
      x ∈ log ∧ x.op.hashesPassword = true := by
  constructor
  · rintro ⟨hx, hhash⟩
    rcases List.mem_cons.1 hx with rfl | hx
    · exact nomatch hy.symm.trans hhash
    · exact ⟨hx, hhash⟩
  · exact fun h => ⟨.tail _ h.1, h.2⟩

/-- A write that the database would make fails only on purpose. -/
theorem answer_isOk (cfg : AuthConfig) {m : Moment} {op : AuthOp}
    (h : (Store.exec m op s).1.isOk = true) (fault : Option AuthError) :
    ((authSystem cfg).answer m op fault s).1.isOk = !fault.isSome := by
  cases fault with
  | none => exact h
  | some e => rfl

/-- The two writes of a consumer, where either may fail. -/
theorem writes_alone {v : VerificationToken} {w : UserEntity}
    {post : Except AuthError Unit → Moment → Store → AuthLog → Prop}
    (hpost : ∀ token user r amb' s' log', Written v w token user s log s' log' →
      (r = .ok () ↔ token = false ∧ user = false) → post r amb' s' log') :
    alone (authSystem cfg) P t request post
      (Prog.promiseAll Moment.swapped (.saveVerificationToken v) (.saveUser w))
      amb s log := by
  have hhashes : ∀ {x y z : AuthEntry}, y.op.hashesPassword = false →
      z.op.hashesPassword = false → (x ∈ y :: z :: log ∧
        x.op.hashesPassword = true ↔ x ∈ log ∧ x.op.hashesPassword = true) :=
    fun hy hz => (hashes_cons_iff hy).trans (hashes_cons_iff hz)
  apply alone_promiseAll
  · apply alone_settle_any
    intro amb₁ amb₂ fault₁ fault₂ _ _ _ _ r hr
    apply hpost fault₁.isSome fault₂.isSome
    · cases fault₁ <;> cases fault₂ <;>
        exact ⟨rfl, rfl, rfl, rfl, rfl, rfl, fun x => hhashes rfl rfl⟩
    · rw [hr, answer_isOk cfg rfl, answer_isOk cfg rfl, Bool.not_eq_true',
        Bool.not_eq_true']
  · apply alone_settle_any
    intro amb₁ amb₂ fault₁ fault₂ _ _ _ _ r hr
    apply hpost fault₂.isSome fault₁.isSome
    · cases fault₁ <;> cases fault₂ <;>
        exact ⟨rfl, rfl, rfl, rfl, rfl, rfl, fun x => hhashes rfl rfl⟩
    · rw [hr, answer_isOk cfg rfl, answer_isOk cfg rfl, Bool.not_eq_true',
        Bool.not_eq_true']
      exact and_comm

/-- The lookup and the check of a consumer. -/
theorem consuming_alone {token : RawToken} {type : VerificationTokenType}
    (hP : ∀ h type e, P.fault (.findVerificationToken h type) e = false)
    {post : Except AuthError (VerificationToken × UserEntity) → Moment →
      Store → AuthLog → Prop}
    (hthrow : ∀ x e amb', x.op = .findVerificationToken (hashToken token) type →
      post (.error e) amb' s (x :: log))
    (hfound : ∀ x r u m,
      x.op = .findVerificationToken (hashToken token) type →
      s.findVerificationToken (hashToken token) type = some (r, u) →
      post (.ok ({ r with used_at := some m.now }, u)) m s (x :: log)) :
    alone (authSystem cfg) P t request post
      (consumeVerificationToken token type) amb s log := by
  apply alone_call (hP _ _)
  · exact fun _ _ _ h => nomatch h
  · intro amb' found _ hexec
    have hfind : s.findVerificationToken (hashToken token) type = found :=
      Except.ok.inj hexec
    cases found with
    | none => exact hthrow _ _ amb' rfl
    | some pair =>
        obtain ⟨r, u⟩ := pair
        show alone (authSystem cfg) P t request post
          (if r.expires_at < amb'.now then
            Prog.throw (.domain .TokenExpired)
            else Prog.pure ({ r with used_at := some amb'.now }, u)) amb' s _
        split
        · exact hthrow _ _ amb' rfl
        · exact hfound _ r u amb' rfl hfind

end Alone

section Torn

variable {tokenHash : TokenHash} {type : VerificationTokenType}
  {r : VerificationToken} {u w : UserEntity} {row : User} {usedAt : Int}
  {token user : Bool} {s s' : Store} {log log' : AuthLog}

/-- After a failure the tables are as they were exactly when the token was
not written, and the user not written or not changed. -/
theorem Written.untouched_iff
    (h : Written { r with used_at := some usedAt } w token user s log s' log')
    (hfind : s.findVerificationToken tokenHash type = some (r, u))
    (hrow : s.userById r.user_id = some row) (hid : w.id = row.id) :
    Untouched s s' ↔ token = true ∧ (user = true ∨ w.write row = row) := by
  obtain ⟨hr, _, _, hunused, _⟩ := of_findVerificationToken hfind
  have hmem : row ∈ s.users.rows := List.mem_of_find?_eq_some hrow
  have htoken : s'.verification_tokens.rows = s.verification_tokens.rows ↔
      token = true := by
    rw [h.verification_tokens]
    cases token with
    | true => exact ⟨fun _ => rfl, fun _ => rfl⟩
    | false =>
        refine ⟨fun heq => ?_, nofun⟩
        have hsame : { r with used_at := some usedAt } = r :=
          (save_rows_eq_iff (t := s.verification_tokens) hr (by rfl)).1 heq
        have hused := congrArg VerificationToken.used_at hsame
        exact nomatch hused.trans hunused
  have huser : s'.users.rows = s.users.rows ↔
      user = true ∨ w.write row = row := by
    rw [h.users]
    cases user with
    | true => exact ⟨fun _ => .inl rfl, fun _ => rfl⟩
    | false =>
        exact (saveUser_rows_eq_iff hmem hid).trans
          ⟨.inr, fun h => h.resolve_left nofun⟩
  constructor
  · exact fun hsame => ⟨htoken.1 hsame.verification_tokens, huser.1 hsame.users⟩
  · exact fun hall => ⟨huser.2 hall.2, htoken.2 hall.1,
      congrArg Table.rows h.refresh_tokens⟩

/-- When one of the writes fails, nothing has changed exactly when the other
fails too, or would change nothing if it is that of the user. -/
theorem torn_iff {same : Prop} (h : ¬ (token = false ∧ user = false)) :
    token = true ∧ (user = true ∨ same) ↔
      (user = true → token = true) ∧ (token = true → user = true ∨ same) := by
  constructor
  · exact fun hall => ⟨fun _ => hall.1, fun _ => hall.2⟩
  · rintro ⟨huser, htoken⟩
    have ht : token = true := by
      cases hu : user with
      | true => exact huser hu
      | false => cases token with
        | true => rfl
        | false => exact absurd ⟨rfl, hu⟩ h
    exact ⟨ht, htoken ht⟩

end Torn

/-! ## `confirm` -/

/-- Confirming changes nothing on the row of a user who is confirmed. -/
theorem write_confirmed_iff (row : User) :
    UserEntity.write { row.entity with is_confirmed := true } row = row ↔
      row.is_confirmed = true := by
  have hwrite : UserEntity.write { row.entity with is_confirmed := true } row
      = { row with is_confirmed := true } := if_pos rfl
  rw [hwrite]
  constructor
  · exact fun h => (congrArg User.is_confirmed h).symm
  · intro h
    cases row
    cases h
    rfl

theorem ConfirmIntact.of_unfailed {token : RawToken} {s : Store}
    {log : AuthLog} (huser : failed AuthOp.savesUser log = false)
    (htoken : failed AuthOp.savesToken log = false) :
    ConfirmIntact token s log where
  user h := nomatch huser.symm.trans h
  token h := nomatch htoken.symm.trans h

theorem failed_lookup {p : AuthOp → Bool} {x : AuthEntry} (hp : p x.op = false) :
    failed p [x] = false :=
  failed_cons_of_isOk (fun h => nomatch hp.symm.trans h) rfl

theorem confirm_all_or_nothing {cfg : AuthConfig} {token : RawToken} {s : Store}
    {amb : Moment} :
    alone (authSystem cfg) writesMayFail 0 (.confirm token)
      (fun r _ s' log => AllOrNothing (ConfirmDone token) s s' r ↔
        ConfirmIntact token s log)
      (serve cfg (.confirm token)) amb s [] := by
  apply alone_bind
  apply alone_bind
  apply consuming_alone (fun _ _ _ => rfl)
  · intro x e amb' hx
    have huser : failed AuthOp.savesUser [x] = false :=
      failed_lookup (by rw [hx]; rfl)
    have htoken : failed AuthOp.savesToken [x] = false :=
      failed_lookup (by rw [hx]; rfl)
    exact ⟨fun _ => .of_unfailed huser htoken, fun _ => .of_throw _ s e⟩
  · intro x r u m hx hfind
    obtain ⟨_, _, _, _, row, hrow, hu⟩ := of_findVerificationToken hfind
    subst hu
    apply writes_alone
    intro tokenFails userFails result amb' s' log' hwritten hresult
    have huntouched := hwritten.untouched_iff hfind hrow rfl
    rw [write_confirmed_iff] at huntouched
    have htoken := hwritten.token_failed
    have huser := hwritten.user_failed
    rw [failed_lookup (by rw [hx]; rfl), Bool.or_false] at htoken huser
    cases result with
    | ok _ =>
        obtain ⟨rfl, rfl⟩ := hresult.1 rfl
        refine ⟨fun _ => .of_unfailed huser htoken, fun _ => .inl ⟨rfl, ?_⟩⟩
        exact ⟨r, _, m.now, hfind, hwritten.verification_tokens,
          hwritten.users, congrArg Table.rows hwritten.refresh_tokens⟩
    | error e =>
        have hfailed : ¬ (tokenFails = false ∧ userFails = false) :=
          fun h => nomatch hresult.2 h
        rw [torn_iff hfailed, ← htoken, ← huser] at huntouched
        refine (AllOrNothing.error_iff.trans huntouched).trans ?_
        constructor
        · rintro ⟨hu, ht⟩
          refine ⟨hu, fun h => (ht h).imp_right ?_⟩
          exact fun hconfirmed => ⟨r, _, hfind, hconfirmed⟩
        · intro hintact
          refine ⟨hintact.user, fun h => ?_⟩
          apply (hintact.token h).imp_right
          rintro ⟨r', u', hfind', hconfirmed⟩
          cases hfind.symm.trans hfind'
          exact hconfirmed

/-! ## `resetPassword` -/

theorem ResetIntact.of_unfailed {dto : ResetPasswordDto} {s : Store}
    {log : AuthLog} (huser : failed AuthOp.savesUser log = false)
    (htoken : failed AuthOp.savesToken log = false)
    (hrevocation : failed AuthOp.revokesUser log = false) :
    ResetIntact dto s log where
  user h := nomatch huser.symm.trans h
  token h := nomatch htoken.symm.trans h
  revocation := hrevocation

/-- Setting a hash changes nothing on the row that has it. -/
theorem write_password_iff (row : User) (hash : PasswordHash) :
    UserEntity.write { row.entity with password := some hash } row = row ↔
      row.password = hash := by
  have hwrite : UserEntity.write { row.entity with password := some hash } row
      = { row with password := hash } := if_pos rfl
  rw [hwrite]
  constructor
  · exact fun h => (congrArg User.password h).symm
  · rintro rfl
    rfl

section Reset

variable {cfg : AuthConfig} {dto : ResetPasswordDto} {s : Store}

/-- The end of a reset: the sessions of the user are revoked. -/
theorem logout_all_or_nothing {r : VerificationToken} {row : User} {m : Moment}
    {salt : Nat} {s' : Store} {amb : Moment} {log log' : AuthLog}
    (hfind : s.findVerificationToken (hashToken dto.token) .PASSWORD_RESET =
      some (r, row.entity))
    (hrow : s.userById r.user_id = some row)
    (hwritten : Written { r with used_at := some m.now }
      { row.entity with password := some ⟨dto.new_password, salt⟩ } false false
      s log s' log')
    (huser : failed AuthOp.savesUser log' = false)
    (htoken : failed AuthOp.savesToken log' = false)
    (hrevocation : failed AuthOp.revokesUser log' = false) :
    alone (authSystem cfg) writesMayFail 0 (.resetPassword dto)
      (fun r _ s' log => AllOrNothing (ResetDone dto) s s'
        (r.map fun _ => AuthReply.done) ↔ ResetIntact dto s log)
      (logout row.id) amb s' log' := by
  have huntouched := hwritten.untouched_iff hfind hrow rfl
  intro amb' fault _ _
  cases fault with
  | none =>
      refine ⟨fun _ => .of_unfailed huser htoken hrevocation, fun _ => ?_⟩
      refine .inl ⟨rfl, r, row.entity, m.now, salt, amb.now, hfind,
        hwritten.verification_tokens, hwritten.users, ?_⟩
      show (s'.revokeWhere (·.user_id == row.id) amb.now).refresh_tokens.rows = _
      unfold Store.revokeWhere
      rw [hwritten.refresh_tokens]
      rfl
  | some e =>
      refine (AllOrNothing.error_iff.trans huntouched).trans ?_
      constructor
      · exact fun hsame => nomatch hsame.1
      · exact fun hintact => nomatch hintact.revocation

theorem reset_all_or_nothing {amb : Moment} :
    alone (authSystem cfg) writesMayFail 0 (.resetPassword dto)
      (fun r _ s' log => AllOrNothing (ResetDone dto) s s' r ↔
        ResetIntact dto s log)
      (serve cfg (.resetPassword dto)) amb s [] := by
  suffices h : alone (authSystem cfg) writesMayFail 0 (.resetPassword dto)
      (fun r _ s' log => AllOrNothing (ResetDone dto) s s'
        (r.map fun _ => AuthReply.done) ↔ ResetIntact dto s log)
      (resetPassword dto.token dto.new_password) amb s [] from
    alone_map h (fun _ _ _ _ hpost => hpost) (fun _ _ _ _ hpost => hpost)
  apply alone_bind
  apply consuming_alone (fun _ _ _ => rfl)
  · intro x e amb' hx
    have huser : failed AuthOp.savesUser [x] = false :=
      failed_lookup (by rw [hx]; rfl)
    have htoken : failed AuthOp.savesToken [x] = false :=
      failed_lookup (by rw [hx]; rfl)
    have hrevocation : failed AuthOp.revokesUser [x] = false :=
      failed_lookup (by rw [hx]; rfl)
    exact ⟨fun _ => .of_unfailed huser htoken hrevocation,
      fun _ => .of_throw _ s e⟩
  · intro x r u m hx hfind
    obtain ⟨_, _, _, _, row, hrow, hu⟩ := of_findVerificationToken hfind
    subst hu
    apply alone_call (fun _ => rfl)
    · exact fun _ _ _ h => nomatch h
    · intro amb₁ hash _ hexec
      have hhash : hash = ⟨dto.new_password, amb₁.salt⟩ :=
        (Except.ok.inj hexec).symm
      subst hhash
      apply alone_bind
      apply writes_alone
      intro tokenFails userFails result amb' s' log' hwritten hresult
      have huntouched := hwritten.untouched_iff hfind hrow rfl
      rw [write_password_iff] at huntouched
      have hlog : ∀ p : AuthOp → Bool,
          p (.findVerificationToken (hashToken dto.token) .PASSWORD_RESET)
            = false → p (.hashPassword dto.new_password) = false →
          failed p ((authSystem cfg).entry 0 (.resetPassword dto) amb₁
            (.hashPassword dto.new_password) none s :: [x]) = false := by
        intro p hlookup hhash
        apply failed_cons_of_isOk
        · exact fun hop => nomatch hhash.symm.trans hop
        · exact failed_lookup (by rw [hx, hlookup])
      have htoken := hwritten.token_failed
      have huser := hwritten.user_failed
      have hrevocation := hwritten.revocation
      rw [hlog _ rfl rfl] at hrevocation
      rw [hlog _ rfl rfl, Bool.or_false] at htoken huser
      cases result with
      | ok _ =>
          obtain ⟨rfl, rfl⟩ := hresult.1 rfl
          exact logout_all_or_nothing hfind hrow hwritten huser htoken
            hrevocation
      | error e =>
          have hfailed : ¬ (tokenFails = false ∧ userFails = false) :=
            fun h => nomatch hresult.2 h
          rw [torn_iff hfailed, ← htoken, ← huser] at huntouched
          refine (AllOrNothing.error_iff.trans huntouched).trans ?_
          constructor
          · rintro ⟨hu, ht⟩
            refine ⟨hu, fun h => (ht h).imp_right fun hpassword => ?_,
              hrevocation⟩
            obtain ⟨hmem, hhashes⟩ := (hwritten.hashes _).2 ⟨.head _, rfl⟩
            exact ⟨r, row.entity, row, hfind, hrow, _, hmem, hhashes, hpassword⟩
          · intro hintact
            refine ⟨hintact.user, fun h => ?_⟩
            apply (hintact.token h).imp_right
            rintro ⟨r', u', row', hfind', hrow', y, hy, hyhash, hpassword⟩
            cases hfind.symm.trans hfind'
            cases hrow.symm.trans hrow'
            obtain ⟨hyold, _⟩ := (hwritten.hashes y).1 ⟨hy, hyhash⟩
            rcases List.mem_cons.1 hyold with rfl | hyx
            · exact hpassword
            · rw [List.mem_singleton.1 hyx, hx] at hyhash
              exact nomatch hyhash

end Reset

/-! ## `refresh` -/

/-- Revoking a family changes nothing exactly when it has no active record. -/
theorem revokeFamily_rows_eq_iff {s : Store} {family : Nat} {at' : Int} :
    (s.revokeWhere (·.family == family) at').refresh_tokens.rows =
      s.refresh_tokens.rows ↔ s.findActiveInFamily family = none := by
  constructor
  · intro heq
    apply List.find?_eq_none.2
    intro r hr hactive
    rw [Bool.and_eq_true, Option.isNone_iff_eq_none] at hactive
    have hmem : r.revoke at' ∈ s.refresh_tokens.rows := by
      rw [← heq]
      exact mem_revokeWhere.2 ⟨r, hr, if_pos hactive.1⟩
    have hsame := s.refresh_tokens.unique hmem hr rfl
    apply RefreshToken.revoke_ne_none at' r
    rw [hsame]
    exact hactive.2
  · intro hnone
    have hid : ∀ r ∈ s.refresh_tokens.rows,
        (if r.family == family then r.revoke at' else r) = r := by
      intro r hr
      split
      · next hfamily =>
          cases hrevoked : r.revoked_at with
          | none =>
              have hinactive := List.find?_eq_none.1 hnone r hr
              rw [hfamily, hrevoked] at hinactive
              exact absurd rfl hinactive
          | some at₀ =>
              unfold RefreshToken.revoke
              rw [hrevoked, Option.some_or, ← hrevoked]
      · rfl
    exact (List.map_congr_left hid).trans (List.map_id' _)

theorem any_eq_false_of_unissued {log : AuthLog} {p : AuthOp → Bool}
    (q : AuthEntry → Bool) (h : ∀ x ∈ log, p x.op = false) :
    (log.any fun x => p x.op && q x) = false := by
  apply List.any_eq_false.2
  intro x hx hpx
  rw [h x hx] at hpx
  exact nomatch hpx

/-- Where no rotation was begun, only a revoked family can be torn. -/
theorem RefreshIntact.iff_of_no_rotation {cfg : AuthConfig}
    {rawToken : RawToken} {s : Store} {log : AuthLog}
    (hsaves : ∀ x ∈ log, x.op.savesRecord = false)
    (hinserts : ∀ x ∈ log, x.op.insertsRecord = false) :
    RefreshIntact cfg rawToken s log ↔
      (succeeded AuthOp.revokesFamily log = true →
        ∃ record u, s.findRefreshToken (hashToken rawToken) = some (record, u) ∧
          s.findActiveInFamily record.family = none) := by
  have hboth : failed AuthOp.savesRecord log = failed AuthOp.insertsRecord log :=
    (any_eq_false_of_unissued _ hsaves).trans
      (any_eq_false_of_unissued _ hinserts).symm
  have hnone : succeeded AuthOp.savesRecord log = false :=
    any_eq_false_of_unissued _ hsaves
  exact ⟨fun h => h.reuse,
    fun h => ⟨hboth, fun hs => (nomatch hnone.symm.trans hs), h⟩⟩

/-- A call that has written no record. -/
theorem RefreshIntact.of_quiet {cfg : AuthConfig} {rawToken : RawToken}
    {s : Store} {log : AuthLog} (h : ∀ x ∈ log, x.op.writesRecords = false) :
    RefreshIntact cfg rawToken s log := by
  have hkind : ∀ p : AuthOp → Bool,
      (∀ op, op.writesRecords = false → p op = false) →
      ∀ x ∈ log, p x.op = false :=
    fun p hp x hx => hp x.op (h x hx)
  have hsaves := hkind AuthOp.savesRecord (by
    intro op hop
    cases op <;> first | rfl | exact nomatch hop)
  have hinserts := hkind AuthOp.insertsRecord (by
    intro op hop
    cases op <;> first | rfl | exact nomatch hop)
  have hrevokes := hkind AuthOp.revokesFamily (by
    intro op hop
    cases op <;> first | rfl | exact nomatch hop)
  rw [RefreshIntact.iff_of_no_rotation hsaves hinserts]
  have hnone : succeeded AuthOp.revokesFamily log = false :=
    any_eq_false_of_unissued _ hrevokes
  exact fun hs => nomatch hnone.symm.trans hs

/-- What a rotation has made of the tables, where the write of the record has
failed if the first flag says so, and the insertion if the second does. -/
inductive Replaced (cfg : AuthConfig) (m : Moment) (record : RefreshToken)
    (newToken : RawToken) (s : Store) : Bool → Bool → Store → Prop
  | both {s' : Store} (hrotated : Rotated cfg m record newToken s s')
      (htokens : s'.verification_tokens = s.verification_tokens) :
      Replaced cfg m record newToken s false false s'
  | saved : Replaced cfg m record newToken s false true
      (s.saveRefreshToken { record with revoked_at := some m.now })
  | inserted : Replaced cfg m record newToken s true false
      (s.insertRefreshToken (successorColumns cfg m record newToken)).2
  | neither : Replaced cfg m record newToken s true true s

section Refresh

variable {cfg : AuthConfig} {P : AuthPolicy} {t : Nat} {request : AuthRequest}
  {rawToken : RawToken} {m : Moment} {record : RefreshToken}
  {user : UserEntity} {newToken : RawToken} {s s' : Store} {amb : Moment}
  {log : AuthLog}

/-- After a rotation the tables are as they were exactly when both writes
have failed. -/
theorem Replaced.untouched_iff {saveFails insertFails : Bool} {v : User}
    (h : Replaced cfg m record newToken s saveFails insertFails s')
    (hr : record ∈ s.refresh_tokens.rows) (hlive : record.revoked_at = none)
    (hv : s.userById record.user_id = some v) :
    Untouched s s' ↔ saveFails = true ∧ insertFails = true := by
  have hrevoked : { record with revoked_at := some m.now } ∉
      s.refresh_tokens.rows := by
    intro hmem
    have hsame := s.refresh_tokens.unique hmem hr rfl
    have heq := congrArg RefreshToken.revoked_at hsame
    exact nomatch heq.trans hlive
  cases h with
  | both hrotated _ =>
      refine ⟨fun hsame => ?_, nofun⟩
      obtain ⟨_, hrows⟩ := hrotated.rows
      have hmem := (hrows _).2 (.inr (.inl rfl))
      rw [hsame.refresh_tokens] at hmem
      exact absurd hmem hrevoked
  | saved =>
      refine ⟨fun hsame => ?_, nofun⟩
      have hmem : { record with revoked_at := some m.now } ∈ (s.saveRefreshToken
          { record with revoked_at := some m.now }).refresh_tokens.rows :=
        Table.mem_save.2 (.inr ⟨rfl, record, hr, rfl⟩)
      rw [hsame.refresh_tokens] at hmem
      exact absurd hmem hrevoked
  | inserted =>
      refine ⟨fun hsame => ?_, nofun⟩
      have hmem : s.newRefreshToken (successorColumns cfg m record newToken) ∈
          (s.insertRefreshToken (successorColumns cfg m record newToken)
            ).2.refresh_tokens.rows :=
        mem_insertRefreshToken.2 (.inr ⟨successor_ok rfl hv, rfl⟩)
      rw [hsame.refresh_tokens] at hmem
      exact absurd (s.refresh_tokens.keys_lt _ hmem) (Nat.lt_irrefl _)
  | neither => exact ⟨fun _ => ⟨rfl, rfl⟩, fun _ => .refl s⟩

/-- The two writes of a rotation, where either may fail. -/
theorem replaced_alone {v : User} (hr : record ∈ s.refresh_tokens.rows)
    (hv : s.userById record.user_id = some v)
    {post : Except AuthError Unit → Moment → Store → AuthLog → Prop}
    (hpost : ∀ saveFails insertFails r amb' s' log',
      Replaced cfg m record newToken s saveFails insertFails s' →
      failed AuthOp.savesRecord log' =
        (saveFails || failed AuthOp.savesRecord log) →
      failed AuthOp.insertsRecord log' =
        (insertFails || failed AuthOp.insertsRecord log) →
      succeeded AuthOp.savesRecord log' =
        (!saveFails || succeeded AuthOp.savesRecord log) →
      succeeded AuthOp.revokesFamily log' =
        succeeded AuthOp.revokesFamily log →
      (r = .ok () ↔ saveFails = false ∧ insertFails = false) →
      post r amb' s' log') :
    alone (authSystem cfg) P t request post
      (Prog.promiseAll Moment.swapped
        (.saveRefreshToken { record with revoked_at := some m.now })
        (.insertRefreshToken (successorColumns cfg m record newToken)))
      amb s log := by
  have hsame : ∀ s' : Store,
      (s'.insertRefreshToken (successorColumns cfg m record newToken)
        ).2.verification_tokens = s'.verification_tokens := by
    intro s'
    unfold Store.insertRefreshToken
    split <;> rfl
  apply alone_promiseAll
  · apply alone_settle_any
    intro amb₁ amb₂ fault₁ fault₂ _ _ _ _ r hr'
    have husers : ((authSystem cfg).answer amb₁ (.saveRefreshToken
        { record with revoked_at := some m.now }) fault₁ s).2.users =
          s.users := by
      cases fault₁ <;> rfl
    have hexec : (Store.exec amb₂ (.insertRefreshToken
        (successorColumns cfg m record newToken))
        ((authSystem cfg).answer amb₁ (.saveRefreshToken
          { record with revoked_at := some m.now }) fault₁ s).2).1.isOk = true :=
      successor_isOk husers hv
    have hinsert := answer_isOk cfg hexec fault₂
    apply hpost fault₁.isSome fault₂.isSome
    · cases fault₁ with
      | none => cases fault₂ with
        | none => exact .both (rotated_of_save_insert hr hv) (hsame _)
        | some e => exact .saved
      | some e₁ => cases fault₂ with
        | none => exact .inserted
        | some e => exact .neither
    · cases fault₁ <;> rfl
    · show (!((authSystem cfg).answer amb₂ (.insertRefreshToken
        (successorColumns cfg m record newToken)) fault₂ _).1.isOk ||
          (false || failed AuthOp.insertsRecord log)) = _
      rw [hinsert, Bool.not_not, Bool.false_or]
    · cases fault₁ <;> rfl
    · rfl
    · rw [hr', hinsert, answer_isOk cfg rfl, Bool.not_eq_true', Bool.not_eq_true']
  · apply alone_settle_any
    intro amb₁ amb₂ fault₁ fault₂ _ _ _ _ r hr'
    have hexec : (Store.exec amb₁ (.insertRefreshToken
        (successorColumns cfg m record newToken)) s).1.isOk = true :=
      successor_isOk rfl hv
    have hinsert := answer_isOk cfg hexec fault₁
    apply hpost fault₂.isSome fault₁.isSome
    · cases fault₁ with
      | none => cases fault₂ with
        | none => exact .both (rotated_of_insert_save hr hv) (hsame s)
        | some e => exact .inserted
      | some e₁ => cases fault₂ with
        | none => exact .saved
        | some e => exact .neither
    · cases fault₂ <;> rfl
    · show (false || (!((authSystem cfg).answer amb₁ (.insertRefreshToken
        (successorColumns cfg m record newToken)) fault₁ s).1.isOk ||
          failed AuthOp.insertsRecord log)) = _
      rw [hinsert, Bool.not_not, Bool.false_or]
    · cases fault₂ <;> rfl
    · rfl
    · rw [hr', hinsert, answer_isOk cfg rfl, Bool.not_eq_true', Bool.not_eq_true']
      exact and_comm

/-- Signing the access token is the end of both successful paths. -/
theorem signed_alone {userId : Nat} {email : String} {refreshToken : RawToken}
    {post : Except AuthError TokenPair → Moment → Store → AuthLog → Prop}
    (hok : ∀ pair amb', (cfg.ms cfg.jwtAccessExpiration).isSome = true →
      post (.ok pair) amb' s' log)
    (herror : ∀ e amb', (cfg.ms cfg.jwtAccessExpiration).isSome = false →
      post (.error e) amb' s' log) :
    alone (authSystem cfg) P t request post
      (generateAccessToken cfg userId email >>= fun accessToken =>
        Prog.pure ⟨accessToken, refreshToken⟩) amb s' log := by
  show alone (authSystem cfg) P t request post
    (Prog.ofExcept (sign cfg amb cfg.jwtSecret cfg.jwtAccessExpiration
      (.access userId email)) >>= fun accessToken =>
        Prog.pure ⟨accessToken, refreshToken⟩) amb s' log
  have hsigned := sign_isOk cfg amb cfg.jwtSecret cfg.jwtAccessExpiration
    (.access userId email)
  cases hsign : sign cfg amb cfg.jwtSecret cfg.jwtAccessExpiration
      (.access userId email) with
  | error e =>
      rw [hsign] at hsigned
      exact herror e amb hsigned.symm
  | ok accessToken =>
      rw [hsign] at hsigned
      exact hok ⟨accessToken, refreshToken⟩ amb hsigned.symm

/-- What `refresh` ends in. -/
def RefreshEnd (cfg : AuthConfig) (rawToken : RawToken) (s : Store)
    (r : Except AuthError TokenPair) (_ : Moment) (s' : Store)
    (log : AuthLog) : Prop :=
  AllOrNothing (RefreshDone cfg rawToken) s s' (r.map AuthReply.tokens) ↔
    RefreshIntact cfg rawToken s log

theorem RefreshEnd.of_throw {e : AuthError}
    (h : ∀ x ∈ log, x.op.writesRecords = false) :
    RefreshEnd cfg rawToken s (.error e) amb s log :=
  ⟨fun _ => .of_quiet h, fun _ => .of_throw _ s e⟩

theorem reuse_end {x : AuthEntry} {revokedAt : Int}
    (hx : x.op = .findRefreshToken (hashToken rawToken))
    (hfind : s.findRefreshToken (hashToken rawToken) = some (record, user))
    (hrevoked : record.revoked_at = some revokedAt) :
    alone (authSystem cfg) writesMayFail 0 (.refresh rawToken)
      (RefreshEnd cfg rawToken s) (reuse cfg rawToken record user m revokedAt)
      amb s [x] := by
  have hquiet : ∀ y ∈ [x], y.op.writesRecords = false := by
    intro y hy
    rw [List.mem_singleton.1 hy, hx]
    rfl
  unfold reuse
  split
  · apply alone_call (fun _ => rfl)
    · exact fun _ _ _ h => nomatch h
    · intro amb' active? _ _
      have hquiet' : ∀ y ∈ (authSystem cfg).entry 0 (.refresh rawToken) amb'
          (.findActiveInFamily record.family) none s :: [x],
          y.op.writesRecords = false := by
        intro y hy
        rcases List.mem_cons.1 hy with rfl | hy
        · rfl
        · exact hquiet y hy
      cases active? with
      | none => exact .of_throw hquiet'
      | some active =>
          apply signed_alone
          · intro pair amb'' _
            refine ⟨fun _ => .of_quiet hquiet', fun _ => .inl ⟨rfl, ?_⟩⟩
            exact ⟨record, user, hfind, rfl,
              fun hlive => (nomatch hlive.symm.trans hrevoked),
              fun _ => .refl s⟩
          · exact fun e amb'' _ => .of_throw hquiet'
  · intro amb' fault _ _
    have hentries : ∀ p : AuthOp → Bool,
        p (.revokeFamily record.family m.now) = false →
        p (.findRefreshToken (hashToken rawToken)) = false →
        ∀ y ∈ (authSystem cfg).entry 0 (.refresh rawToken) amb'
          (.revokeFamily record.family m.now) fault s :: [x],
          p y.op = false := by
      intro p hrevoke hlookup y hy
      rcases List.mem_cons.1 hy with rfl | hy
      · exact hrevoke
      · rw [List.mem_singleton.1 hy, hx]
        exact hlookup
    have hintact : RefreshIntact cfg rawToken s _ ↔ _ :=
      RefreshIntact.iff_of_no_rotation (hentries AuthOp.savesRecord rfl rfl)
        (hentries AuthOp.insertsRecord rfl rfl)
    have holder : succeeded AuthOp.revokesFamily [x] = false := by
      apply any_eq_false_of_unissued
      intro y hy
      rw [List.mem_singleton.1 hy, hx]
      rfl
    cases fault with
    | some e =>
        refine ⟨fun _ => hintact.2 fun hs => ?_, fun _ => .of_throw _ s e⟩
        exact nomatch holder.symm.trans hs
    | none =>
        refine AllOrNothing.error_iff.trans (Iff.trans ?_ hintact.symm)
        constructor
        · intro hsame _
          exact ⟨record, user, hfind,
            revokeFamily_rows_eq_iff.1 hsame.refresh_tokens⟩
        · intro hreuse
          obtain ⟨record', u', hfind', hnone⟩ := hreuse rfl
          cases hfind.symm.trans hfind'
          exact ⟨rfl, rfl, revokeFamily_rows_eq_iff.2 hnone⟩

theorem rotate_end {x : AuthEntry}
    (hx : x.op = .findRefreshToken (hashToken rawToken))
    (hfind : s.findRefreshToken (hashToken rawToken) = some (record, user))
    (hlive : record.revoked_at = none) :
    alone (authSystem cfg) writesMayFail 0 (.refresh rawToken)
      (RefreshEnd cfg rawToken s) (rotate cfg record user m) m s [x] := by
  obtain ⟨hr, _, v, hv, _⟩ := of_findRefreshToken hfind
  have hlog : ∀ (p : AuthOp → Bool) (q : AuthEntry → Bool),
      p (.findRefreshToken (hashToken rawToken)) = false →
      ([x].any fun y => p y.op && q y) = false := by
    intro p q hp
    apply any_eq_false_of_unissued
    intro y hy
    rw [List.mem_singleton.1 hy, hx]
    exact hp
  show alone (authSystem cfg) writesMayFail 0 (.refresh rawToken)
    (RefreshEnd cfg rawToken s)
    (Prog.ofExcept (sign cfg m cfg.jwtRefreshSecret cfg.jwtRefreshExpiration
      (.refresh record.user_id record.family m.jti)) >>= _) m s [x]
  cases sign cfg m cfg.jwtRefreshSecret cfg.jwtRefreshExpiration
      (.refresh record.user_id record.family m.jti) with
  | error e =>
      apply RefreshEnd.of_throw
      intro y hy
      rw [List.mem_singleton.1 hy, hx]
      rfl
  | ok newToken =>
      rw [Prog.ofExcept_ok_bind]
      apply alone_bind
      apply replaced_alone hr hv
      intro saveFails insertFails result amb' s' log' hreplaced hsave hinsert
        hsaved hfamily hresult
      have huntouched := hreplaced.untouched_iff hr hlive hv
      have hnone₁ : failed AuthOp.savesRecord [x] = false := hlog _ _ rfl
      have hnone₂ : failed AuthOp.insertsRecord [x] = false := hlog _ _ rfl
      have hnone₃ : succeeded AuthOp.savesRecord [x] = false := hlog _ _ rfl
      have hnone₄ : succeeded AuthOp.revokesFamily [x] = false := hlog _ _ rfl
      rw [hnone₁, Bool.or_false] at hsave
      rw [hnone₂, Bool.or_false] at hinsert
      rw [hnone₃, Bool.or_false] at hsaved
      rw [hnone₄] at hfamily
      have hintact : RefreshIntact cfg rawToken s log' ↔
          saveFails = insertFails ∧ (saveFails = false →
            (cfg.ms cfg.jwtAccessExpiration).isSome = true) := by
        constructor
        · intro h
          refine ⟨by rw [← hsave, ← hinsert, h.both], fun hok => h.signed ?_⟩
          rw [hsaved, hok]
          rfl
        · rintro ⟨hboth, hsigned⟩
          refine ⟨by rw [hsave, hinsert, hboth], fun hs => hsigned ?_,
            fun hs => nomatch hfamily.symm.trans hs⟩
          rw [hsaved, Bool.not_eq_true'] at hs
          exact hs
      have hthrown : ∀ e, AllOrNothing (RefreshDone cfg rawToken) s s'
          (.error e) ↔ saveFails = true ∧ insertFails = true :=
        fun _ => AllOrNothing.error_iff.trans huntouched
      cases result with
      | error e =>
          have hfailed : ¬ (saveFails = false ∧ insertFails = false) :=
            fun h => nomatch hresult.2 h
          refine (hthrown e).trans (Iff.trans ?_ hintact.symm)
          cases saveFails with
          | true => exact ⟨fun h => ⟨h.2.symm, nofun⟩, fun h => ⟨rfl, h.1.symm⟩⟩
          | false =>
              refine ⟨nofun, fun h => absurd ⟨rfl, h.1.symm⟩ hfailed⟩
      | ok _ =>
          obtain ⟨rfl, rfl⟩ := hresult.1 rfl
          have hrotated : Rotated cfg m record newToken s s' ∧
              s'.verification_tokens = s.verification_tokens := by
            cases hreplaced with
            | both hrotated htokens => exact ⟨hrotated, htokens⟩
          apply signed_alone
          · intro pair amb'' hsigned
            refine ⟨fun _ => hintact.2 ⟨rfl, fun _ => hsigned⟩,
              fun _ => .inl ⟨rfl, ?_⟩⟩
            exact ⟨record, user, hfind, congrArg Table.rows hrotated.2,
              fun _ => ⟨m, newToken, hrotated.1⟩, fun h => absurd hlive h⟩
          · intro e amb'' hunsigned
            refine (hthrown e).trans (Iff.trans ⟨nofun, fun h => ?_⟩
              hintact.symm)
            exact nomatch hunsigned.symm.trans (h.2 rfl)

theorem refresh_all_or_nothing {amb : Moment} :
    alone (authSystem cfg) writesMayFail 0 (.refresh rawToken)
      (fun r _ s' log => AllOrNothing (RefreshDone cfg rawToken) s s' r ↔
        RefreshIntact cfg rawToken s log)
      (serve cfg (.refresh rawToken)) amb s [] := by
  suffices h : alone (authSystem cfg) writesMayFail 0 (.refresh rawToken)
      (RefreshEnd cfg rawToken s) (refresh cfg rawToken) amb s [] from
    alone_map h (fun _ _ _ _ hpost => hpost) (fun _ _ _ _ hpost => hpost)
  apply alone_call (fun _ => rfl)
  · rintro _ _ _ ⟨⟩
  · intro amb' found _ hexec
    have hfind : s.findRefreshToken (hashToken rawToken) = found :=
      Except.ok.inj hexec
    have hquiet : ∀ y ∈ [(authSystem cfg).entry 0 (.refresh rawToken) amb'
        (.findRefreshToken (hashToken rawToken)) none s],
        y.op.writesRecords = false := by
      intro y hy
      rw [List.mem_singleton.1 hy]
      rfl
    cases found with
    | none => exact .of_throw hquiet
    | some pair =>
        obtain ⟨record, user⟩ := pair
        show alone (authSystem cfg) writesMayFail 0 (.refresh rawToken)
          (RefreshEnd cfg rawToken s)
          (if record.expires_at < amb'.now then
            Prog.throw (.domain .TokenExpired)
            else refreshUnexpired cfg rawToken record user amb') amb' s _
        split
        · exact RefreshEnd.of_throw hquiet
        · cases hrevoked : record.revoked_at with
          | some revokedAt =>
              rw [refreshUnexpired_revoked hrevoked]
              exact reuse_end rfl hfind hrevoked
          | none =>
              rw [refreshUnexpired_unrevoked hrevoked]
              exact rotate_end rfl hfind hrevoked

end Refresh

/-! ## The three calls -/

/--
**All or nothing.**  From any tables, and whichever writes fail, a `confirm`,
`resetPassword` or `refresh` that nobody interrupts either returns with all
of its row changes made or throws and changes no row, exactly when its writes
fail together, as `ConfirmIntact`, `ResetIntact` and `RefreshIntact` say.
-/
theorem all_or_nothing_iff (cfg : AuthConfig) (s : Store)
    (r : Except AuthError AuthReply) (c : AuthRun) :
    (∀ token, Served cfg writesMayFail (Config.start s) (.confirm token) r c →
      (AllOrNothing (ConfirmDone token) s c.state r ↔
        ConfirmIntact token s c.log)) ∧
    (∀ dto, Served cfg writesMayFail (Config.start s) (.resetPassword dto) r c →
      (AllOrNothing (ResetDone dto) s c.state r ↔ ResetIntact dto s c.log)) ∧
    (∀ rawToken,
      Served cfg writesMayFail (Config.start s) (.refresh rawToken) r c →
      (AllOrNothing (RefreshDone cfg rawToken) s c.state r ↔
        RefreshIntact cfg rawToken s c.log)) := by
  refine ⟨fun token hserved => ?_, fun dto hserved => ?_,
    fun rawToken hserved => ?_⟩
  · obtain ⟨_, h⟩ := hserved.result rfl fun _ => confirm_all_or_nothing
    exact h
  · obtain ⟨_, h⟩ := hserved.result rfl fun _ => reset_all_or_nothing
    exact h
  · obtain ⟨_, h⟩ := hserved.result rfl fun _ => refresh_all_or_nothing
    exact h

/-- The sample user has asked for a new password. -/
def forgottenStore : Store :=
  (sampleStore.insertVerificationToken
    ⟨hashToken (.hex 7), .PASSWORD_RESET, 0, 3600000⟩).2

def sampleReset : ResetPasswordDto := ⟨.hex 7, "anotherpassword", by decide⟩

/-- A reset in which both writes fail. -/
def failedReset : AuthRun :=
  authRunFrom writesMayFail
    ((authSystem sampleConfig).spawn (Config.start forgottenStore)
      (.resetPassword sampleReset) {})
    (Tick.answers 0 2 { now := 1000 } ++
      [.perform 0 { now := 1000 } (some .database),
        .perform 0 { now := 1000 } (some .database)]) (by decide)

theorem all_or_nothing_of_failedReset :
    Served sampleConfig writesMayFail (Config.start forgottenStore)
      (.resetPassword sampleReset) (.error .database) failedReset ∧
    AllOrNothing (ResetDone sampleReset) forgottenStore failedReset.state
      (.error .database) := by
  have hserved : Served sampleConfig writesMayFail (Config.start forgottenStore)
      (.resetPassword sampleReset) (.error .database) failedReset :=
    ⟨_, steps_authRunFrom _ (by decide) (by decide), by rfl⟩
  refine ⟨hserved, ?_⟩
  apply ((all_or_nothing_iff _ _ _ _).2.1 _ hserved).2
  exact ⟨by decide, fun _ => .inl (by decide), by decide⟩

/-- A reset in which the write of the token fails. -/
def tornReset : AuthRun :=
  authRunFrom writesMayFail
    ((authSystem sampleConfig).spawn (Config.start forgottenStore)
      (.resetPassword sampleReset) {})
    (Tick.answers 0 2 { now := 1000, salt := 1 } ++
      [.perform 0 { now := 1000 } (some .database),
        .perform 0 { now := 1000 } none]) (by decide)

/-- The reset throws, and the password is set. -/
theorem reset_torn :
    Served sampleConfig writesMayFail (Config.start forgottenStore)
      (.resetPassword sampleReset) (.error .database) tornReset ∧
    (tornReset.log.filter fun x => !x.res.isOk).length = 1 ∧
    ¬ AllOrNothing (ResetDone sampleReset) forgottenStore tornReset.state
      (.error .database) ∧
    tornReset.state.users.rows =
      [{ sampleUser with password := ⟨"anotherpassword", 1⟩ }] := by
  refine ⟨?_, by decide, ?_, by decide⟩
  · exact ⟨_, steps_authRunFrom _ (by decide) (by decide), by rfl⟩
  · rw [AllOrNothing.error_iff]
    intro hsame
    have hchanged : tornReset.state.users.rows ≠ forgottenStore.users.rows := by
      decide
    exact hchanged hsame.users

end Videum.Auth
