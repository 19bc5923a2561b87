import Videum.Async.Logic
import Videum.Auth.Requests

/-!
# Refresh-token records over a run

A record is read, kept in memory and written back revoked, and its successor
is inserted by a second call; in between other requests are answered.  This
module says what survives that: which columns of a record never change, and
what a `refresh` must have read before each of its writes.

## Main results

* `records_exec` — what one call does to the records.
* `Records.answer` — a call that obeys `Orderly` keeps the invariant.
* `records_of_reachable` — every run has it, obeys that law, and every
  `refresh` ends as `Refreshing` says.
-/

namespace Videum.Auth

open Videum.Async
open Videum.Common

/-! ## Records and answers -/

/-- `r'` is the record `r` some writes later. -/
structure RefreshToken.Later (r r' : RefreshToken) : Prop where
  id : r'.id = r.id
  token_hash : r'.token_hash = r.token_hash
  family : r'.family = r.family
  user_id : r'.user_id = r.user_id
  expires_at : r'.expires_at = r.expires_at
  revoked : r'.revoked_at = none → r.revoked_at = none

namespace RefreshToken.Later

theorem refl (r : RefreshToken) : r.Later r :=
  ⟨rfl, rfl, rfl, rfl, rfl, fun h => h⟩

theorem trans {a b c : RefreshToken} (h₁ : a.Later b) (h₂ : b.Later c) :
    a.Later c where
  id := h₂.id.trans h₁.id
  token_hash := h₂.token_hash.trans h₁.token_hash
  family := h₂.family.trans h₁.family
  user_id := h₂.user_id.trans h₁.user_id
  expires_at := h₂.expires_at.trans h₁.expires_at
  revoked := fun h => h₁.revoked (h₂.revoked h)

theorem revoke (at' : Int) (r : RefreshToken) : r.Later (r.revoke at') where
  id := rfl
  token_hash := rfl
  family := rfl
  user_id := rfl
  expires_at := rfl
  revoked := by
    intro h
    cases hr : r.revoked_at with
    | none => rfl
    | some at₀ =>
        simp only [RefreshToken.revoke, hr, Option.some_or] at h
        exact nomatch h

end RefreshToken.Later

theorem RefreshToken.revoke_ne_none (at' : Int) (r : RefreshToken) :
    (r.revoke at').revoked_at ≠ none := by
  cases hr : r.revoked_at with
  | none => simp [RefreshToken.revoke, hr]
  | some at₀ => simp [RefreshToken.revoke, hr]

namespace AuthOp

/-- The calls that write `refresh_tokens`. -/
def writesRecords : AuthOp → Bool
  | insertRefreshToken _ => true
  | saveRefreshToken _ => true
  | revokeFamily _ _ => true
  | revokeUser _ _ => true
  | _ => false

/-- The call that adds a record. -/
def insertsRecord : AuthOp → Bool
  | insertRefreshToken _ => true
  | _ => false

/-- The call that writes a record back. -/
def savesRecord : AuthOp → Bool
  | saveRefreshToken _ => true
  | _ => false

/-- The record a lookup by digest has found. -/
def foundRecord : (op : AuthOp) → Except AuthError op.Res →
    Option RefreshToken
  | findRefreshToken _, .ok (some (r, _)) => some r
  | _, _ => none

/-- The record an answer has shown or written. -/
def knownRecord : (op : AuthOp) → Except AuthError op.Res →
    Option RefreshToken
  | findRefreshToken _, .ok (some (r, _)) => some r
  | saveRefreshToken r, .ok _ => some r
  | _, _ => none

/-- The columns of the record an answer has added. -/
def addedRecord : (op : AuthOp) → Except AuthError op.Res →
    Option NewRefreshToken
  | insertRefreshToken r, .ok _ => some r
  | _, _ => none

/-- The active record of a family an answer has shown. -/
def activeRecord : (op : AuthOp) → Except AuthError op.Res →
    Option RefreshToken
  | findActiveInFamily _, .ok r => r
  | _, _ => none

theorem knownRecord_of_found {op : AuthOp} {res : Except AuthError op.Res}
    {r : RefreshToken} (h : op.foundRecord res = some r) :
    op.knownRecord res = some r := by
  cases op with
  | findRefreshToken tokenHash =>
      cases res with
      | ok found =>
          cases found with
          | none => exact nomatch h
          | some pair => exact h
      | error e => exact nomatch h
  | _ => exact nomatch h

end AuthOp

/-! ## What one call does to the records -/

theorem refresh_tokens_exec (m : Moment) {op : AuthOp} (s : Store)
    (h : op.writesRecords = false) :
    (Store.exec m op s).2.refresh_tokens = s.refresh_tokens := by
  cases op with
  | insertRefreshToken r => exact nomatch h
  | saveRefreshToken r => exact nomatch h
  | revokeFamily family at' => exact nomatch h
  | revokeUser userId at' => exact nomatch h
  | insertUser email password =>
      rw [Store.exec, Store.insertUser_only]
  | deleteUser id => rw [Store.exec, Store.deleteUser_only]
  | insertChannel name nickname userId =>
      rw [Store.exec, Store.insertChannel_only]
  | insertVerificationToken v =>
      rw [Store.exec, Store.insertVerificationToken_only]
  | _ => rfl

/-- The rows after an insertion: at most one more, as asked for. -/
theorem mem_insertRefreshToken {s : Store} {n : NewRefreshToken}
    {r : RefreshToken} :
    r ∈ (s.insertRefreshToken n).2.refresh_tokens.rows ↔
      r ∈ s.refresh_tokens.rows ∨
        (s.insertRefreshToken n).1 = .ok () ∧ r = s.newRefreshToken n := by
  cases hu : s.userById n.user_id with
  | none => simp [Store.insertRefreshToken, hu]
  | some u => simp [Store.insertRefreshToken, hu]

theorem mem_revokeWhere {s : Store} {p : RefreshToken → Bool} {at' : Int}
    {r' : RefreshToken} :
    r' ∈ (s.revokeWhere p at').refresh_tokens.rows ↔
      ∃ r ∈ s.refresh_tokens.rows, (if p r then r.revoke at' else r) = r' := by
  simp only [Store.revokeWhere, Table.mem_update]

/-- An `UPDATE` ages the records it selects. -/
theorem RefreshToken.Later.ite (p : Prop) [Decidable p] (at' : Int)
    (r : RefreshToken) : r.Later (if p then r.revoke at' else r) := by
  split
  · exact .revoke at' r
  · exact .refl r

/-- What a save may write without undoing anything. -/
def Store.Ages (s : Store) (v : RefreshToken) : Prop :=
  ∀ r ∈ s.refresh_tokens.rows, r.id = v.id → r.Later v

/-- The call does not write an entity back that undoes something. -/
def AuthOp.Ages (op : AuthOp) (s : Store) : Prop :=
  ∀ v, op = .saveRefreshToken v → s.Ages v

/-- No call loses a record. -/
theorem records_kept (m : Moment) {op : AuthOp} {s : Store} (h : op.Ages s)
    {r : RefreshToken} (hr : r ∈ s.refresh_tokens.rows) :
    ∃ r' ∈ (Store.exec m op s).2.refresh_tokens.rows, r.Later r' := by
  cases op with
  | insertRefreshToken n =>
      exact ⟨r, mem_insertRefreshToken.2 (.inl hr), .refl r⟩
  | saveRefreshToken v =>
      by_cases hid : r.id = v.id
      · exact ⟨v, Table.mem_save.2 (.inr ⟨rfl, r, hr, hid⟩),
          h v rfl r hr hid⟩
      · exact ⟨r, Table.mem_save.2 (.inl ⟨hr, hid⟩), .refl r⟩
  | revokeFamily family at' =>
      exact ⟨_, mem_revokeWhere.2 ⟨r, hr, rfl⟩, .ite _ at' r⟩
  | revokeUser userId at' =>
      exact ⟨_, mem_revokeWhere.2 ⟨r, hr, rfl⟩, .ite _ at' r⟩
  | _ =>
      rw [refresh_tokens_exec m s (by rfl)]
      exact ⟨r, hr, .refl r⟩

/-- A record comes from one before the call, or the call has added it. -/
theorem records_exec {m : Moment} {op : AuthOp} {s : Store} (h : op.Ages s)
    {r' : RefreshToken}
    (hr' : r' ∈ (Store.exec m op s).2.refresh_tokens.rows) :
    (∃ r ∈ s.refresh_tokens.rows, r.Later r') ∨
      ∃ n, op.addedRecord (Store.exec m op s).1 = some n ∧
        r' = s.newRefreshToken n := by
  cases op with
  | insertRefreshToken n =>
      rcases mem_insertRefreshToken.1 hr' with hold | ⟨hok, hnew⟩
      · exact .inl ⟨r', hold, .refl r'⟩
      · right
        refine ⟨n, ?_, hnew⟩
        show (AuthOp.insertRefreshToken n).addedRecord
          (s.insertRefreshToken n).1 = some n
        rw [hok]
        rfl
  | saveRefreshToken v =>
      left
      rcases Table.mem_save.1 hr' with ⟨hold, _⟩ | ⟨rfl, r, hr, hid⟩
      · exact ⟨r', hold, .refl r'⟩
      · exact ⟨r, hr, h r' rfl r hr hid⟩
  | revokeFamily family at' =>
      left
      obtain ⟨r, hr, rfl⟩ := mem_revokeWhere.1 hr'
      exact ⟨r, hr, .ite _ at' r⟩
  | revokeUser userId at' =>
      left
      obtain ⟨r, hr, rfl⟩ := mem_revokeWhere.1 hr'
      exact ⟨r, hr, .ite _ at' r⟩
  | _ =>
      rw [refresh_tokens_exec m s (by rfl)] at hr'
      exact .inl ⟨r', hr', .refl r'⟩

/-! ## The law and the invariant -/

/-- The call has read the record `r` live: neither revoked nor expired. -/
structure ReadLive (x : AuthEntry) (r : RefreshToken) : Prop where
  found : x.op.foundRecord x.res = some r
  unrevoked : r.revoked_at = none
  unexpired : ¬ r.expires_at < x.amb.now

/-- What a call on the records must have behind it in its own thread: a
lookup is the first call of a `refresh`; a `refresh` writes back the record
it has read live, revoked, and inserts one successor of it. -/
def Orderly (log : AuthLog) (t : Nat) (request : AuthRequest) :
    AuthOp → Prop
  | .findRefreshToken h =>
      (∃ rawToken, request = .refresh rawToken ∧ h = hashToken rawToken) ∧
        own t log = []
  | .saveRefreshToken v =>
      (∃ rawToken, request = .refresh rawToken) ∧
        ∃ x ∈ own t log, ∃ r, ReadLive x r ∧
          v = { r with revoked_at := some x.amb.now }
  | .insertRefreshToken n =>
      n.revoked_at = none ∧
        ((∃ dto, request = .login dto) ∨
          (∃ rawToken, request = .refresh rawToken) ∧
          (∃ x ∈ own t log, ∃ r, ReadLive x r ∧ n.family = r.family ∧
            n.user_id = r.user_id) ∧
          ∀ y ∈ own t log, y.op.insertsRecord = false)
  | _ => True

/-- Digests are distinct, a family belongs to one user, and what was read or
written about a record is still true of it, up to its revocation. -/
structure Records (s : Store) (log : AuthLog) : Prop where
  hashes : ∀ r ∈ s.refresh_tokens.rows, ∀ r' ∈ s.refresh_tokens.rows,
    r.token_hash = r'.token_hash → r = r'
  owners : ∀ r ∈ s.refresh_tokens.rows, ∀ r' ∈ s.refresh_tokens.rows,
    r.family = r'.family → r.user_id = r'.user_id
  known : ∀ x ∈ log, ∀ r, x.op.knownRecord x.res = some r →
    ∃ r' ∈ s.refresh_tokens.rows, r.Later r'

theorem records_start {s : Store} (h : s.refresh_tokens.rows = []) :
    Records s [] := by
  have hnone : ∀ r, r ∉ s.refresh_tokens.rows := by
    intro r hr
    rw [h] at hr
    exact nomatch hr
  exact ⟨fun r hr => absurd hr (hnone r), fun r hr => absurd hr (hnone r),
    fun x hx => nomatch hx⟩

theorem Orderly.ages {s : Store} {log : AuthLog} {t : Nat}
    {request : AuthRequest} {op : AuthOp} (hinv : Records s log)
    (hlaw : Orderly log t request op) : op.Ages s := by
  rintro v rfl r hr hid
  obtain ⟨_, x, hx, r₀, hread, rfl⟩ := hlaw
  obtain ⟨r', hr', hlater⟩ := hinv.known x (mem_own.1 hx).1 r₀
    (AuthOp.knownRecord_of_found hread.found)
  have heq : r = r' := s.refresh_tokens.unique hr hr'
    (hid.trans hlater.id.symm)
  subst heq
  exact ⟨hlater.id.symm, hlater.token_hash.symm, hlater.family.symm,
    hlater.user_id.symm, hlater.expires_at.symm, fun h => nomatch h⟩

/-- The record a call shows or writes is there after the call. -/
theorem knownRecord_exec {m : Moment} {op : AuthOp} {s : Store}
    (h : op.Ages s) (hrow : ∀ v, op = .saveRefreshToken v →
      ∃ r ∈ s.refresh_tokens.rows, r.id = v.id) {r : RefreshToken}
    (hr : op.knownRecord (Store.exec m op s).1 = some r) :
    r ∈ (Store.exec m op s).2.refresh_tokens.rows := by
  cases op with
  | findRefreshToken tokenHash =>
      have hfind : (s.findRefreshToken tokenHash).map Prod.fst = some r := by
        cases hfound : s.findRefreshToken tokenHash with
        | none =>
            simp only [Store.exec, hfound, AuthOp.knownRecord] at hr
            exact nomatch hr
        | some found =>
            simp only [Store.exec, hfound, AuthOp.knownRecord] at hr
            exact hr
      obtain ⟨found, hfound, heq⟩ := Option.map_eq_some_iff.1 hfind
      obtain ⟨r₀, hr₀, hpair⟩ := Option.bind_eq_some_iff.1 hfound
      obtain ⟨u, _, rfl⟩ := Option.map_eq_some_iff.1 hpair
      subst heq
      exact List.mem_of_find?_eq_some hr₀
  | saveRefreshToken v =>
      cases hr
      obtain ⟨r₀, hr₀, hid⟩ := hrow r rfl
      exact Table.mem_save.2 (.inr ⟨rfl, r₀, hr₀, hid⟩)
  | _ => exact nomatch hr

theorem AuthOp.eq_of_added {op : AuthOp} {res : Except AuthError op.Res}
    {n : NewRefreshToken} (h : op.addedRecord res = some n) :
    op = .insertRefreshToken n := by
  cases op with
  | insertRefreshToken n' =>
      cases res with
      | ok v => exact congrArg _ (Option.some.inj h)
      | error e => exact nomatch h
  | _ => exact nomatch h

theorem AuthOp.knownRecord_error (op : AuthOp) (e : AuthError) :
    op.knownRecord (.error e) = none := by
  cases op <;> rfl

/-- The digest of an added record is new. -/
theorem fresh_hash {request : AuthRequest} {n : NewRefreshToken} {s : Store}
    (h : freshRandomness request (.insertRefreshToken n) s = true)
    {r : RefreshToken} (hr : r ∈ s.refresh_tokens.rows) :
    r.token_hash ≠ n.token_hash := by
  have hfresh : s.freshRefreshHash n.token_hash = true := by
    cases request with
    | login dto => exact (Bool.and_eq_true_iff.1 h).1
    | _ => exact h
  have hne := List.all_eq_true.1 hfresh r hr
  simpa only [bne_iff_ne] using hne

/-- The family a login opens is new. -/
theorem fresh_family {dto : LoginDto} {n : NewRefreshToken} {s : Store}
    (h : freshRandomness (.login dto) (.insertRefreshToken n) s = true)
    {r : RefreshToken} (hr : r ∈ s.refresh_tokens.rows) :
    r.family ≠ n.family := by
  have hne := List.all_eq_true.1 (Bool.and_eq_true_iff.1 h).2 r hr
  simpa only [bne_iff_ne] using hne

section Law

variable {cfg : AuthConfig} {P : AuthPolicy} {t : Nat}
  {request : AuthRequest} {m : Moment} {op : AuthOp} {s : Store}
  {log : AuthLog}

/-- Digests stay distinct. -/
theorem Records.hashes_exec (hinv : Records s log) (hages : op.Ages s)
    (hguard : freshRandomness request op s = true) :
    ∀ r ∈ (Store.exec m op s).2.refresh_tokens.rows,
      ∀ r' ∈ (Store.exec m op s).2.refresh_tokens.rows,
        r.token_hash = r'.token_hash → r = r' := by
  have hnew : ∀ a ∈ s.refresh_tokens.rows, ∀ a' : RefreshToken, a.Later a' →
      ∀ n, op.addedRecord (Store.exec m op s).1 = some n →
        a'.token_hash ≠ n.token_hash := by
    intro a ha a' hlater n hn
    have hop := AuthOp.eq_of_added hn
    rw [hop] at hguard
    rw [hlater.token_hash]
    exact fresh_hash hguard ha
  intro a' ha' b' hb' hhash
  rcases records_exec hages ha' with ⟨a, ha, hla⟩ | ⟨n, hn, hna⟩
  · rcases records_exec hages hb' with ⟨b, hb, hlb⟩ | ⟨n, hn, hnb⟩
    · have heq := hinv.hashes a ha b hb
        (hla.token_hash.symm.trans (hhash.trans hlb.token_hash))
      subst heq
      exact Table.unique _ ha' hb' (hla.id.trans hlb.id.symm)
    · rw [hnb] at hhash
      exact absurd hhash (hnew a ha a' hla n hn)
  · rcases records_exec hages hb' with ⟨b, hb, hlb⟩ | ⟨n', hn', hnb⟩
    · rw [hna] at hhash
      exact absurd hhash.symm (hnew b hb b' hlb n hn)
    · rw [hn] at hn'
      cases hn'
      rw [hna, hnb]

/-- A family stays with its user. -/
theorem Records.owners_exec (hinv : Records s log) (hages : op.Ages s)
    (hlaw : Orderly log t request op)
    (hguard : freshRandomness request op s = true) :
    ∀ r ∈ (Store.exec m op s).2.refresh_tokens.rows,
      ∀ r' ∈ (Store.exec m op s).2.refresh_tokens.rows,
        r.family = r'.family → r.user_id = r'.user_id := by
  have hnew : ∀ a ∈ s.refresh_tokens.rows, ∀ n,
      op.addedRecord (Store.exec m op s).1 = some n →
        a.family = n.family → a.user_id = n.user_id := by
    intro a ha n hn hfamily
    have hop := AuthOp.eq_of_added hn
    subst hop
    obtain ⟨_, ⟨dto, rfl⟩ | ⟨_, ⟨w, hw, r, hread, hnf, hnu⟩, _⟩⟩ := hlaw
    · exact absurd hfamily (fresh_family hguard ha)
    · obtain ⟨r', hr', hlater⟩ := hinv.known w (mem_own.1 hw).1 r
        (AuthOp.knownRecord_of_found hread.found)
      have howner := hinv.owners a ha r' hr'
        (hfamily.trans (hnf.trans hlater.family.symm))
      rw [howner, hnu, hlater.user_id]
  intro a' ha' b' hb' hfamily
  rcases records_exec hages ha' with ⟨a, ha, hla⟩ | ⟨n, hn, hna⟩
  · rw [hla.family] at hfamily
    rw [hla.user_id]
    rcases records_exec hages hb' with ⟨b, hb, hlb⟩ | ⟨n, hn, hnb⟩
    · rw [hlb.family] at hfamily
      rw [hlb.user_id]
      exact hinv.owners a ha b hb hfamily
    · rw [hnb] at hfamily ⊢
      exact hnew a ha n hn hfamily
  · rw [hna] at hfamily ⊢
    rcases records_exec hages hb' with ⟨b, hb, hlb⟩ | ⟨n', hn', hnb⟩
    · rw [hlb.family] at hfamily
      rw [hlb.user_id]
      exact (hnew b hb n hn hfamily.symm).symm
    · rw [hn] at hn'
      cases hn'
      rw [hnb]

/-- A call that obeys the law keeps the invariant. -/
theorem Records.answer (hinv : Records s log)
    (hlaw : Orderly log t request op)
    (hguard : freshRandomness request op s = true)
    (fault : Option AuthError) :
    Records ((authSystem cfg).answer m op fault s).2
      ((authSystem cfg).entry t request m op fault s :: log) := by
  have hages := hlaw.ages hinv
  cases fault with
  | some e =>
      refine ⟨hinv.hashes, hinv.owners, ?_⟩
      intro x hx r hr
      rcases List.mem_cons.1 hx with rfl | hx
      · have hnone := AuthOp.knownRecord_error op e
        exact nomatch hnone.symm.trans hr
      · exact hinv.known x hx r hr
  | none =>
      refine ⟨hinv.hashes_exec hages hguard,
        hinv.owners_exec hages hlaw hguard, ?_⟩
      intro x hx r hr
      rcases List.mem_cons.1 hx with rfl | hx
      · refine ⟨r, knownRecord_exec hages ?_ hr, .refl r⟩
        rintro v rfl
        obtain ⟨_, y, hy, r₀, hread, rfl⟩ := hlaw
        obtain ⟨r', hr', hlater⟩ := hinv.known y (mem_own.1 hy).1 r₀
          (AuthOp.knownRecord_of_found hread.found)
        exact ⟨r', hr', hlater.id⟩
      · obtain ⟨r', hr', hlater⟩ := hinv.known x hx r hr
        obtain ⟨r'', hr'', hlater'⟩ := records_kept m hages hr'
        exact ⟨r'', hr'', hlater.trans hlater'⟩

theorem records_kept_by (cfg : AuthConfig) (P : AuthPolicy) :
    KeptBy (authSystem cfg) P Records Orderly :=
  fun _ _ _ _ fault _ _ hinv hlaw hguard _ => hinv.answer hlaw hguard fault

end Law

/-! ## How a `refresh` ends -/

/-- The user a web token names. -/
def RawToken.sub : RawToken → Option Nat
  | .jwt j => some j.claims.sub
  | _ => none

theorem sign_sub {cfg : AuthConfig} {moment : Moment}
    {secret expiresIn : String} {claims : JwtClaims} {token : RawToken}
    (h : sign cfg moment secret expiresIn claims = .ok token) :
    token.sub = some claims.sub := by
  unfold sign at h
  split at h
  · exact nomatch h
  · cases h
    rfl

/-- A thread that has inserted a record has also written one back. -/
def Stored (log : AuthLog) (t : Nat) : Prop :=
  ∀ y ∈ own t log, y.op.insertsRecord = true →
    ∃ z ∈ own t log, z.op.savesRecord = true

/-- Why a `refresh` has returned `pair`: it has read the record of the
presented token live, or an active record of its family. -/
def Accepted (log : AuthLog) (t : Nat) (rawToken : RawToken)
    (pair : TokenPair) : Prop :=
  ∃ x ∈ own t log, ∃ r, x.op = .findRefreshToken (hashToken rawToken) ∧
    x.op.foundRecord x.res = some r ∧
    pair.access_token.sub = some r.user_id ∧
    (ReadLive x r ∧ pair.refresh_token.sub = some r.user_id ∨
      pair.refresh_token = rawToken ∧ ∃ y ∈ own t log,
        y.op = .findActiveInFamily r.family ∧
          (y.op.activeRecord y.res).isSome = true)

/-- How a `refresh` ends. -/
structure Refreshing (t : Nat) (rawToken : RawToken)
    (result : Except AuthError TokenPair) (log : AuthLog) : Prop where
  stored : Stored log t
  accepted : ∀ pair, result = .ok pair → Accepted log t rawToken pair

theorem stored_of_none {log : AuthLog} {t : Nat}
    (h : ∀ y ∈ own t log, y.op.insertsRecord = false) : Stored log t := by
  intro y hy hinsert
  rw [h y hy] at hinsert
  exact nomatch hinsert

/-- A failed `refresh` that has inserted nothing. -/
theorem refreshing_error {t : Nat} {rawToken : RawToken} {e : AuthError}
    {log : AuthLog} (h : ∀ y ∈ own t log, y.op.insertsRecord = false) :
    Refreshing t rawToken (.error e) log :=
  ⟨stored_of_none h, nofun⟩

section Refresh

variable {cfg : AuthConfig} {P : AuthPolicy} {t : Nat} {rawToken : RawToken}

/-- Verified so far: the thread has looked the record up, and `x` is the
answer. -/
structure LookedUp (t : Nat) (rawToken : RawToken) (x : AuthEntry)
    (record : RefreshToken) (log : AuthLog) : Prop where
  own : own t log = [x]
  op : x.op = .findRefreshToken (hashToken rawToken)
  found : x.op.foundRecord x.res = some record

theorem LookedUp.inserts {x : AuthEntry} {record : RefreshToken}
    {log : AuthLog} (h : LookedUp t rawToken x record log) :
    ∀ y ∈ Videum.Async.own t log, y.op.insertsRecord = false := by
  intro y hy
  rw [h.own, List.mem_singleton] at hy
  rw [hy, h.op]
  rfl

theorem LookedUp.others {x : AuthEntry} {record : RefreshToken}
    {log log' : AuthLog} (h : LookedUp t rawToken x record log)
    (hothers : Others t log log') : LookedUp t rawToken x record log' :=
  ⟨hothers.own_eq.trans h.own, h.op, h.found⟩

/-- The end of both successful paths. -/
theorem accessToken_wp {userId : Nat} {email : String}
    {refreshToken : RawToken} {amb : Moment} {log : AuthLog}
    (hstored : Stored log t)
    (haccepted : ∀ accessToken : RawToken, accessToken.sub = some userId →
      Accepted log t rawToken ⟨accessToken, refreshToken⟩) :
    wpLaw (authSystem cfg) P Records Orderly t (.refresh rawToken)
      (fun result _ log => Refreshing t rawToken result log)
      (generateAccessToken cfg userId email >>= fun accessToken =>
        Prog.pure ⟨accessToken, refreshToken⟩) amb log := by
  show wpLaw (authSystem cfg) P Records Orderly t (.refresh rawToken)
    (fun result _ log => Refreshing t rawToken result log)
    (Prog.ofExcept (sign cfg amb cfg.jwtSecret cfg.jwtAccessExpiration
      (.access userId email)) >>= fun accessToken =>
        Prog.pure ⟨accessToken, refreshToken⟩) amb log
  cases hsign : sign cfg amb cfg.jwtSecret cfg.jwtAccessExpiration
      (.access userId email) with
  | error e => exact ⟨hstored, nofun⟩
  | ok accessToken =>
      refine ⟨hstored, ?_⟩
      rintro pair ⟨⟩
      exact haccepted accessToken (sign_sub hsign)

/-- One more answer does not add a record, unless it is an insertion. -/
theorem LookedUp.inserts_cons {x y : AuthEntry} {record : RefreshToken}
    {log log' : AuthLog} (h : LookedUp t rawToken x record log)
    (hothers : Others t log log') (hy : y.tid = t)
    (hop : y.op.insertsRecord = false) :
    ∀ z ∈ Videum.Async.own t (y :: log'), z.op.insertsRecord = false := by
  intro z hz
  rw [own_cons hy] at hz
  rcases List.mem_cons.1 hz with rfl | hz
  · exact hop
  · exact (h.others hothers).inserts z hz

theorem reuse_wp {x : AuthEntry} {record : RefreshToken} {user : UserEntity}
    {moment amb : Moment} {revokedAt : Int} {log : AuthLog}
    (hlooked : LookedUp t rawToken x record log) :
    wpLaw (authSystem cfg) P Records Orderly t (.refresh rawToken)
      (fun result _ log => Refreshing t rawToken result log)
      (reuse cfg rawToken record user moment revokedAt) amb log := by
  have hkept := records_kept_by cfg P
  unfold reuse
  split
  · apply wpLaw_step hkept
    · exact fun _ _ => trivial
    · intro log' s amb' fault e hothers _
      exact refreshing_error (hlooked.inserts_cons hothers rfl rfl)
    · intro log' s amb' fault active? hothers _ _ hanswer
      have hnone := hlooked.inserts_cons hothers (y := (authSystem cfg).entry t
        (.refresh rawToken) amb' (.findActiveInFamily record.family) fault s)
        rfl rfl
      cases active? with
      | none => exact refreshing_error hnone
      | some active =>
          apply accessToken_wp (stored_of_none hnone)
          intro accessToken hsub
          have hown := own_entry (authSystem cfg) t (.refresh rawToken) amb'
            (.findActiveInFamily record.family) fault s log'
          rw [(hlooked.others hothers).own] at hown
          have hactive : ((AuthOp.findActiveInFamily record.family).activeRecord
              ((authSystem cfg).answer amb' (.findActiveInFamily record.family)
                fault s).1).isSome = true := by
            rw [hanswer]
            rfl
          refine ⟨x, ?_, record, hlooked.op, hlooked.found, hsub, .inr
            ⟨rfl, (authSystem cfg).entry t (.refresh rawToken) amb'
              (.findActiveInFamily record.family) fault s, ?_, rfl, hactive⟩⟩
          · rw [hown]
            exact .tail _ (.head _)
          · rw [hown]
            exact .head _
  · apply wpLaw_step hkept
    · exact fun _ _ => trivial
    · intro log' s amb' fault e hothers _
      exact refreshing_error (hlooked.inserts_cons hothers rfl rfl)
    · intro log' s amb' fault v hothers _ _ _
      exact refreshing_error (hlooked.inserts_cons hothers rfl rfl)

/-- The two writes of a rotation, in either order. -/
theorem rotate_writes_wp {x : AuthEntry} {record : RefreshToken}
    {n : NewRefreshToken} {amb : Moment} {log : AuthLog}
    {post : Except AuthError Unit → Moment → AuthLog → Prop}
    (hlooked : LookedUp t rawToken x record log) (hread : ReadLive x record)
    (hnew : n.revoked_at = none ∧ n.family = record.family ∧
      n.user_id = record.user_id)
    (hpost : ∀ r amb log, x ∈ own t log → Stored log t → post r amb log) :
    wpLaw (authSystem cfg) P Records Orderly t (.refresh rawToken) post
      (Prog.promiseAll Moment.swapped
        (.saveRefreshToken { record with revoked_at := some x.amb.now })
        (.insertRefreshToken n)) amb log := by
  have hkept := records_kept_by cfg P
  have hsave : ∀ log', x ∈ own t log' → Orderly log' t (.refresh rawToken)
      (.saveRefreshToken { record with revoked_at := some x.amb.now }) :=
    fun log' hx => ⟨⟨rawToken, rfl⟩, x, hx, record, hread, rfl⟩
  have hinsert : ∀ log', x ∈ own t log' →
      (∀ y ∈ own t log', y.op.insertsRecord = false) →
      Orderly log' t (.refresh rawToken) (.insertRefreshToken n) :=
    fun log' hx hnone => ⟨hnew.1, .inr ⟨⟨rawToken, rfl⟩,
      ⟨x, hx, record, hread, hnew.2.1, hnew.2.2⟩, hnone⟩⟩
  have hlook := hlooked.own
  apply wpLaw_promiseAll hkept
  · rintro op (rfl | rfl) log' hown
    · apply hsave
      rw [hown, hlook]
      exact .head _
    · rw [hlook] at hown
      have hlooked' : LookedUp t rawToken x record log' :=
        ⟨hown, hlooked.op, hlooked.found⟩
      apply hinsert _ ?_ hlooked'.inserts
      rw [hown]
      exact .head _
  · rintro op y (⟨rfl, hy⟩ | ⟨rfl, hy⟩) log' hown
    · apply hsave
      rw [hown, hlook]
      exact .tail _ (.head _)
    · apply hinsert
      · rw [hown, hlook]
        exact .tail _ (.head _)
      · intro z hz
        rw [hown] at hz
        rcases List.mem_cons.1 hz with rfl | hz
        · rw [hy]
          rfl
        · exact hlooked.inserts z hz
  · intro r amb' log' y z hown hboth _
    apply hpost
    · rw [hown, hlook]
      exact .tail _ (.tail _ (.head _))
    · intro _ _ _
      rw [hown]
      rcases hboth with ⟨hz, _⟩ | ⟨_, hy⟩
      · exact ⟨z, .head _, by rw [hz]; rfl⟩
      · exact ⟨y, .tail _ (.head _), by rw [hy]; rfl⟩

theorem rotate_wp {x : AuthEntry} {record : RefreshToken} {user : UserEntity}
    {amb : Moment} {log : AuthLog} (hlooked : LookedUp t rawToken x record log)
    (hread : ReadLive x record) (hamb : x.amb = amb) :
    wpLaw (authSystem cfg) P Records Orderly t (.refresh rawToken)
      (fun result _ log => Refreshing t rawToken result log)
      (rotate cfg record user amb) amb log := by
  subst hamb
  show wpLaw (authSystem cfg) P Records Orderly t (.refresh rawToken)
    (fun result _ log => Refreshing t rawToken result log)
    (Prog.ofExcept (sign cfg x.amb cfg.jwtRefreshSecret
      cfg.jwtRefreshExpiration
      (.refresh record.user_id record.family x.amb.jti)) >>= _) x.amb log
  cases hsign : sign cfg x.amb cfg.jwtRefreshSecret cfg.jwtRefreshExpiration
      (.refresh record.user_id record.family x.amb.jti) with
  | error e => exact refreshing_error hlooked.inserts
  | ok newRefreshToken =>
      rw [Prog.ofExcept_ok_bind]
      apply wp_bind
      apply rotate_writes_wp hlooked hread ⟨rfl, rfl, rfl⟩
      intro r amb log hx hstored
      cases r with
      | error e => exact ⟨hstored, nofun⟩
      | ok v =>
          apply accessToken_wp hstored
          intro accessToken hsub
          exact ⟨x, hx, record, hlooked.op, hlooked.found, hsub,
            .inl ⟨hread, sign_sub hsign⟩⟩

/-- What is known about a `refresh` when it ends. -/
theorem refresh_wp {amb : Moment} {log : AuthLog} (hown : own t log = []) :
    wpLaw (authSystem cfg) P Records Orderly t (.refresh rawToken)
      (fun result _ log => Refreshing t rawToken result log)
      (refresh cfg rawToken) amb log := by
  have hfirst : ∀ (log' : AuthLog) (x : AuthEntry), Others t log log' →
      x.tid = t → x.op = .findRefreshToken (hashToken rawToken) →
      own t (x :: log') = [x] ∧
        ∀ y ∈ own t (x :: log'), y.op.insertsRecord = false := by
    intro log' x hothers hx hop
    have hown' : own t (x :: log') = [x] := by
      rw [own_cons hx, hothers.own_eq, hown]
    refine ⟨hown', ?_⟩
    intro y hy
    rw [hown', List.mem_singleton] at hy
    rw [hy, hop]
    rfl
  apply wpLaw_step (records_kept_by cfg P)
  · intro log' hothers
    exact ⟨⟨rawToken, rfl, rfl⟩, hothers.own_eq.trans hown⟩
  · intro log' s amb' fault e hothers _
    exact refreshing_error (hfirst log' _ hothers rfl rfl).2
  · intro log' s amb' fault record? hothers _ _ hanswer
    obtain ⟨hown', hnone⟩ := hfirst log' ((authSystem cfg).entry t
      (.refresh rawToken) amb' (.findRefreshToken (hashToken rawToken)) fault s)
      hothers rfl rfl
    cases record? with
    | none => exact refreshing_error hnone
    | some pair =>
        obtain ⟨record, user⟩ := pair
        have hfound : (AuthOp.findRefreshToken
            (hashToken rawToken)).foundRecord ((authSystem cfg).answer amb'
              (.findRefreshToken (hashToken rawToken)) fault s).1
            = some record := by
          rw [hanswer]
          rfl
        have hlooked : LookedUp t rawToken ((authSystem cfg).entry t
            (.refresh rawToken) amb' (.findRefreshToken (hashToken rawToken))
              fault s) record _ := ⟨hown', rfl, hfound⟩
        show wpLaw (authSystem cfg) P Records Orderly t (.refresh rawToken)
          (fun result _ log => Refreshing t rawToken result log)
          (if record.expires_at < amb'.now then
            Prog.throw (.domain .TokenExpired)
            else refreshUnexpired cfg rawToken record user amb') amb' _
        split
        · exact refreshing_error hnone
        · next hexpired =>
            cases hrevoked : record.revoked_at with
            | some revokedAt =>
                rw [refreshUnexpired_revoked hrevoked]
                exact reuse_wp hlooked
            | none =>
                rw [refreshUnexpired_unrevoked hrevoked]
                exact rotate_wp hlooked ⟨hfound, hrevoked, hexpired⟩ rfl

end Refresh

/-! ## Runs -/

/-- What is known about a thread when it ends. -/
def RecordsPost (t : Nat) (request : AuthRequest)
    (result : Except AuthError AuthReply) (_ : Moment) (log : AuthLog) :
    Prop :=
  ∀ rawToken, request = .refresh rawToken →
    Stored log t ∧ ∀ reply, result = .ok reply →
      ∃ pair, reply = .tokens pair ∧ Accepted log t rawToken pair

/-- The requests other than `refresh` obey the law at any time. -/
theorem orderly_of_mayCall {request : AuthRequest}
    (hrequest : ∀ rawToken, request ≠ .refresh rawToken) {op : AuthOp}
    (h : request.MayCall op) (log : AuthLog) (t : Nat) :
    Orderly log t request op := by
  cases request with
  | refresh rawToken => exact absurd rfl (hrequest rawToken)
  | login dto =>
      cases op with
      | insertRefreshToken n => exact ⟨h, .inl ⟨dto, rfl⟩⟩
      | _ => trivial
  | _ => cases op <;> trivial

theorem records_wp (cfg : AuthConfig) (P : AuthPolicy) (t : Nat)
    (request : AuthRequest) (amb : Moment) (log : AuthLog)
    (hown : own t log = []) :
    wpLaw (authSystem cfg) P Records Orderly t request
      (RecordsPost t request) (serve cfg request) amb log := by
  by_cases hrefresh : ∃ rawToken, request = .refresh rawToken
  · obtain ⟨rawToken, rfl⟩ := hrefresh
    apply wp_bind
    apply wp_mono ?_ (refresh_wp hown)
    intro result amb' log' hresult
    cases result with
    | error e =>
        rintro raw ⟨⟩
        exact ⟨hresult.stored, nofun⟩
    | ok pair =>
        rintro raw ⟨⟩
        refine ⟨hresult.stored, ?_⟩
        rintro reply ⟨⟩
        exact ⟨pair, rfl, hresult.accepted pair rfl⟩
  · have hother : ∀ rawToken, request ≠ .refresh rawToken :=
      fun rawToken heq => hrefresh ⟨rawToken, heq⟩
    have hissues : (serve cfg request).Issues fun op =>
        ∀ log, Orderly log t request op :=
      (serve_mayCall cfg request).mono fun op hop log =>
        orderly_of_mayCall hother hop log t
    apply wpLaw_of_issues (records_kept_by cfg P) ?_ hissues
    exact fun _ _ _ raw heq => absurd heq (hother raw)

/-- Every run has the invariant and obeys the law, and every `refresh` that
has ended is accounted for. -/
theorem records_of_reachable {cfg : AuthConfig} {P : AuthPolicy} {s₀ : Store}
    {c : AuthRun} (hstart : s₀.refresh_tokens.rows = [])
    (h : Reachable (authSystem cfg) P s₀ c) :
    Lawful Records Orderly c.state c.log ∧
      ∀ t th, c.threads[t]? = some th →
        ThreadSafe (authSystem cfg) P (Lawful Records Orderly) RecordsPost t
          th c.log := by
  apply h.lawful_threads (records_start hstart)
  intro c request amb hc _ _
  apply records_wp
  exact hc.own_arriving

/-! ## Reading a lawful log -/

theorem AuthOp.eq_of_found {op : AuthOp} {res : Except AuthError op.Res}
    {r : RefreshToken} (h : op.foundRecord res = some r) :
    ∃ tokenHash, op = .findRefreshToken tokenHash := by
  cases op with
  | findRefreshToken tokenHash => exact ⟨tokenHash, rfl⟩
  | _ => exact nomatch h

/-- What a lookup has found was in the table, under the digest. -/
theorem mem_of_found {s : Store} {m : Moment} {tokenHash : TokenHash}
    {r : RefreshToken} (h : (AuthOp.findRefreshToken tokenHash).foundRecord
      (Store.exec m (.findRefreshToken tokenHash) s).1 = some r) :
    r ∈ s.refresh_tokens.rows ∧ r.token_hash = tokenHash := by
  have hfind : ∃ u, s.findRefreshToken tokenHash = some (r, u) := by
    cases hfound : s.findRefreshToken tokenHash with
    | none =>
        simp only [Store.exec, hfound, AuthOp.foundRecord] at h
        exact nomatch h
    | some found =>
        simp only [Store.exec, hfound, AuthOp.foundRecord,
          Option.some.injEq] at h
        exact ⟨found.2, by rw [← h]⟩
  obtain ⟨u, hu⟩ := hfind
  obtain ⟨r₀, hr₀, hpair⟩ := Option.bind_eq_some_iff.1 hu
  obtain ⟨u₀, _, heq⟩ := Option.map_eq_some_iff.1 hpair
  cases heq
  have hhash := List.find?_some hr₀
  exact ⟨List.mem_of_find?_eq_some hr₀, by simpa only [beq_iff_eq] using hhash⟩

section Log

variable {log : AuthLog} {x y : AuthEntry} {r r' : RefreshToken}

/-- Only a `refresh` looks records up, for the token it presents. -/
theorem lookup_request (h : Obeyed Orderly log) (hx : x ∈ log)
    (hr : x.op.foundRecord x.res = some r) :
    ∃ rawToken, x.request = .refresh rawToken ∧
      x.op = .findRefreshToken (hashToken rawToken) := by
  obtain ⟨tokenHash, hop⟩ := AuthOp.eq_of_found hr
  obtain ⟨older, _, hlaw⟩ := h.at_mem hx
  rw [hop] at hlaw
  obtain ⟨⟨rawToken, hrequest, rfl⟩, _⟩ := hlaw
  exact ⟨rawToken, hrequest, hop⟩

/-- A thread looks a record up once. -/
theorem lookup_unique (h : Obeyed Orderly log) (hx : x ∈ log) (hy : y ∈ log)
    (htid : x.tid = y.tid) (hr : x.op.foundRecord x.res = some r)
    (hr' : y.op.foundRecord y.res = some r') : x = y := by
  apply first_unique
    (p := fun z : AuthEntry => ∃ q, z.op.foundRecord z.res = some q) ?_ hx hy
    htid ⟨r, hr⟩ ⟨r', hr'⟩
  rintro a older hs ⟨q, hq⟩
  obtain ⟨tokenHash, hop⟩ := AuthOp.eq_of_found hq
  have hlaw := h a older hs
  rw [hop] at hlaw
  exact hlaw.2

/-- A record written back is the one its thread has read live. -/
theorem saved_of_read (h : Obeyed Orderly log) (hx : x ∈ log)
    {v : RefreshToken} (hop : x.op = .saveRefreshToken v)
    (hy : y ∈ log) (htid : y.tid = x.tid) (hr : ReadLive y r) :
    v = { r with revoked_at := some y.amb.now } := by
  obtain ⟨older, hs, hlaw⟩ := h.at_mem hx
  rw [hop] at hlaw
  obtain ⟨_, w, hw, r₀, hread, hv⟩ := hlaw
  obtain ⟨hwmem, hwtid⟩ := mem_own.1 hw
  have hwlog : w ∈ log := hs.subset (.tail _ hwmem)
  have heq := lookup_unique h hwlog hy (hwtid.trans htid.symm) hread.found
    hr.found
  subst heq
  have hrr : r₀ = r := Option.some.inj (hread.found.symm.trans hr.found)
  rw [hv, hrr]

end Log

theorem AuthOp.isOk_of_found {op : AuthOp} {res : Except AuthError op.Res}
    {r : RefreshToken} (h : op.foundRecord res = some r) :
    res.isOk = true := by
  cases res with
  | ok v => rfl
  | error e => cases op <;> exact nomatch h

/-- A lookup has found a record of the table, under its digest. -/
theorem found_before {cfg : AuthConfig} {P : AuthPolicy} {s₀ : Store}
    {c : AuthRun} (h : Reachable (authSystem cfg) P s₀ c) {x : AuthEntry}
    (hx : x ∈ c.log) {r : RefreshToken}
    (hr : x.op.foundRecord x.res = some r) {tokenHash : TokenHash}
    (hop : x.op = .findRefreshToken tokenHash) :
    r ∈ x.before.refresh_tokens.rows ∧ r.token_hash = tokenHash := by
  have hres := (h.entry_exec_of_ok hx (AuthOp.isOk_of_found hr)).1
  rw [hres] at hr
  revert hr
  rw [hop]
  exact mem_of_found (m := x.amb)

/-- An active record that was shown is an unrevoked one of the family. -/
theorem active_before {cfg : AuthConfig} {P : AuthPolicy} {s₀ : Store}
    {c : AuthRun} (h : Reachable (authSystem cfg) P s₀ c) {x : AuthEntry}
    (hx : x ∈ c.log) {family : Nat} (hop : x.op = .findActiveInFamily family)
    (hactive : (x.op.activeRecord x.res).isSome = true) :
    ∃ r ∈ x.before.refresh_tokens.rows, r.family = family ∧
      r.revoked_at = none := by
  have hok : x.res.isOk = true := by
    cases hres : x.res with
    | ok v => rfl
    | error e =>
        rw [hres, hop] at hactive
        exact nomatch hactive
  rw [(h.entry_exec_of_ok hx hok).1] at hactive
  revert hactive
  rw [hop]
  intro hactive
  obtain ⟨r, hr⟩ := Option.isSome_iff_exists.1 hactive
  have hfind : x.before.findActiveInFamily family = some r := hr
  have hp := List.find?_some hfind
  simp only [Bool.and_eq_true, beq_iff_eq, Option.isNone_iff_eq_none] at hp
  exact ⟨r, List.mem_of_find?_eq_some hfind, hp.1, hp.2⟩

end Videum.Auth
