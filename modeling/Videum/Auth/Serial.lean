import Videum.Async.Alone
import Videum.Auth.Records
import Videum.Auth.Users

/-!
# One request after another

Where a request arrives only after the last one has ended, a `refresh` acts
on the tables as a whole: its outcome is a relation between the state it
finds and the state it leaves.

## Main results

* `recordOwners_of_reachable` — a refresh-token record has its user.
* `refresh_outcome` — what a `refresh` that nobody interrupts returns, and
  what it makes of the tables.
-/

namespace Videum.Auth

open Videum.Async
open Videum.Common

/-- One request after another; nothing fails. -/
def oneAtATime : AuthPolicy where
  accepts c _ := c.idle = true
  fault _ _ := false

instance (c : AuthRun) (request : AuthRequest) :
    Decidable (oneAtATime.accepts c request) :=
  inferInstanceAs (Decidable (c.idle = true))

/-- `c'` is `c` after one more request was served, with result `r`. -/
def Served (cfg : AuthConfig) (P : AuthPolicy) (c : AuthRun)
    (request : AuthRequest) (r : Except AuthError AuthReply) (c' : AuthRun) :
    Prop :=
  ∃ amb, Steps (authSystem cfg) P ((authSystem cfg).spawn c request amb) c' ∧
    c'.threads = c.threads ++ [⟨request, Prog.ofExcept r⟩]

/-- The call looks a refresh-token record up. -/
def AuthOp.LooksUp (op : AuthOp) : Prop :=
  ∃ h, op = .findRefreshToken h

/-- Thread `t` has looked a record up at time `now`. -/
def LookedUpAt (log : AuthLog) (t : Nat) (now : Int) : Prop :=
  ∃ x ∈ own t log, x.op.LooksUp ∧ x.amb.now = now

theorem Served.idle {cfg : AuthConfig} {P : AuthPolicy} {c c' : AuthRun}
    {request : AuthRequest} {r : Except AuthError AuthReply}
    (h : Served cfg P c request r c') (hidle : c.idle = true) :
    c'.idle = true := by
  obtain ⟨_, _, hthreads⟩ := h
  rw [Config.idle_iff, hthreads]
  intro th hth
  rcases List.mem_append.1 hth with hth | hth
  · exact Config.idle_iff.1 hidle th hth
  · rw [List.mem_singleton.1 hth]
    exact Prog.ofExcept_running r

theorem Served.reachable {cfg : AuthConfig} {P : AuthPolicy} {s₀ : Store}
    {c c' : AuthRun} {request : AuthRequest}
    {r : Except AuthError AuthReply} (h : Served cfg P c request r c')
    (haccept : P.accepts c request) (hc : Reachable (authSystem cfg) P s₀ c) :
    Reachable (authSystem cfg) P s₀ c' := by
  obtain ⟨amb, hsteps, _⟩ := h
  have hspawn : Reachable (authSystem cfg) P s₀
      ((authSystem cfg).spawn c request amb) :=
    hc.tail (.spawn request amb haccept)
  exact hspawn.steps hsteps

/-- The result of a call served alone is as promised. -/
theorem Served.result {cfg : AuthConfig} {P : AuthPolicy} {c c' : AuthRun}
    {request : AuthRequest} {r : Except AuthError AuthReply}
    {post : Except AuthError AuthReply → Moment → Store → AuthLog → Prop}
    (h : Served cfg P c request r c') (hidle : c.idle = true)
    (halone : ∀ amb, alone (authSystem cfg) P c.threads.length request post
      (serve cfg request) amb c.state c.log) :
    ∃ amb, post r amb c'.state c'.log := by
  obtain ⟨amb, hsteps, hthreads⟩ := h
  exact hsteps.ended_alone hidle hthreads (halone amb)

/-! ## Records have their users -/

/-- A user with this primary key exists. -/
def Store.hasUser (s : Store) (id : Nat) : Prop :=
  ∃ u ∈ s.users.rows, u.id = id

theorem Store.hasUser_iff {s : Store} {id : Nat} :
    s.hasUser id ↔ ∃ u, s.userById id = some u := by
  constructor
  · rintro ⟨u, hu, hid⟩
    cases hfind : s.userById id with
    | some v => exact ⟨v, rfl⟩
    | none =>
        have hnone := List.find?_eq_none.1 hfind u hu
        rw [hid] at hnone
        exact absurd (beq_self_eq_true id) hnone
  · rintro ⟨u, hu⟩
    have hid := List.find?_some hu
    exact ⟨u, List.mem_of_find?_eq_some hu, by simpa only [beq_iff_eq] using hid⟩

/-- A user that is referenced is not deleted. -/
theorem hasUser_exec {m : Moment} {op : AuthOp} {s : Store} {id : Nat}
    (h : s.hasUser id) (href : s.referenced id = true) :
    (Store.exec m op s).2.hasUser id := by
  obtain ⟨u, hu, hid⟩ := h
  cases op with
  | insertUser email password =>
      cases hemail : s.userByEmail email with
      | some v =>
          simp only [Store.exec, Store.insertUser, hemail]
          exact ⟨u, hu, hid⟩
      | none =>
          simp only [Store.exec, Store.insertUser, hemail]
          exact ⟨u, (Table.mem_insert (h := rfl)).2 (.inl hu), hid⟩
  | saveUser w =>
      exact ⟨w.write u, List.mem_map.2 ⟨u, hu, rfl⟩,
        (w.write_id u).trans hid⟩
  | deleteUser id' =>
      by_cases hdelete : s.referenced id' = true
      · simp only [Store.exec, Store.deleteUser, hdelete, if_true]
        exact ⟨u, hu, hid⟩
      · have hne : id ≠ id' := by
          rintro rfl
          exact hdelete href
        simp only [Store.exec, Store.deleteUser, if_neg hdelete]
        refine ⟨u, Table.mem_delete.2 ⟨hu, ?_⟩, hid⟩
        rw [hid]
        exact beq_false_of_ne hne
  | _ =>
      refine ⟨u, ?_, hid⟩
      rw [users_exec m s (by rfl)]
      exact hu

/-- Every record has its user. -/
def RecordOwners (s : Store) : Prop :=
  ∀ r ∈ s.refresh_tokens.rows, s.hasUser r.user_id

theorem referenced_of_record {s : Store} {r : RefreshToken}
    (hr : r ∈ s.refresh_tokens.rows) : s.referenced r.user_id = true := by
  have hany : s.refresh_tokens.rows.any (·.user_id == r.user_id) = true :=
    List.any_eq_true.2 ⟨r, hr, beq_self_eq_true r.user_id⟩
  unfold Store.referenced
  rw [hany, Bool.or_true]

theorem referenced_of_token {s : Store} {r : VerificationToken}
    (hr : r ∈ s.verification_tokens.rows) : s.referenced r.user_id = true := by
  have hany : s.verification_tokens.rows.any (·.user_id == r.user_id) = true :=
    List.any_eq_true.2 ⟨r, hr, beq_self_eq_true r.user_id⟩
  unfold Store.referenced
  rw [hany, Bool.or_true, Bool.true_or]

theorem RecordOwners.exec {m : Moment} {op : AuthOp} {s : Store}
    (h : RecordOwners s) (hages : op.Ages s) :
    RecordOwners (Store.exec m op s).2 := by
  intro r' hr'
  rcases records_exec hages hr' with ⟨r, hr, hlater⟩ | ⟨n, hn, hnew⟩
  · rw [hlater.user_id]
    exact hasUser_exec (h r hr) (referenced_of_record hr)
  · have hop := AuthOp.eq_of_added hn
    subst hop
    cases hu : s.userById n.user_id with
    | none =>
        simp only [Store.exec, Store.insertRefreshToken, hu,
          AuthOp.addedRecord] at hn
        cases hn
    | some u =>
        simp only [Store.exec, Store.insertRefreshToken, hu, hnew]
        exact Store.hasUser_iff.2 ⟨u, hu⟩

theorem recordOwners_of_reachable {cfg : AuthConfig} {P : AuthPolicy}
    {s₀ : Store} {c : AuthRun} (hstart : s₀.refresh_tokens.rows = [])
    (h : Reachable (authSystem cfg) P s₀ c) : RecordOwners c.state := by
  induction h with
  | refl =>
      intro r hr
      have hnone : r ∈ s₀.refresh_tokens.rows := hr
      rw [hstart] at hnone
      exact nomatch hnone
  | @tail b b' hb hstep ih =>
      have hnext : Reachable (authSystem cfg) P s₀ b' :=
        Relation.ReflTransGen.tail hb hstep
      cases hstep with
      | spawn request amb _ => exact ih
      | @perform t request op k amb fault hthread hguard hfault =>
          cases fault with
          | some e => exact ih
          | none =>
              have hlaw : Orderly b.log t request op :=
                (records_of_reachable hstart hnext).1.2 _ _
                  (List.suffix_refl _)
              exact ih.exec (hlaw.ages (records_of_reachable hstart hb).1.1)

/-- A lookup finds the record of a digest, and its user. -/
theorem findRefreshToken_of_mem {s : Store}
    (hhashes : ∀ r ∈ s.refresh_tokens.rows, ∀ r' ∈ s.refresh_tokens.rows,
      r.token_hash = r'.token_hash → r = r')
    (howners : RecordOwners s) {r : RefreshToken}
    (hr : r ∈ s.refresh_tokens.rows) {h : TokenHash} (hh : r.token_hash = h) :
    ∃ u : User, s.findRefreshToken h = some (r, u.entity) := by
  have hfind : s.refresh_tokens.rows.find? (·.token_hash == h) = some r := by
    apply find?_of_unique hr
    · rw [hh]
      exact beq_self_eq_true h
    · intro x hx hxh
      rw [beq_iff_eq] at hxh
      exact hhashes x hx r hr (hxh.trans hh.symm)
  obtain ⟨u, hu⟩ := Store.hasUser_iff.1 (howners r hr)
  refine ⟨u, ?_⟩
  simp only [Store.findRefreshToken, hfind, Option.bind_some, hu,
    Option.map_some]

/-- What a lookup finds. -/
theorem of_findRefreshToken {s : Store} {h : TokenHash} {r : RefreshToken}
    {u : UserEntity} (hfind : s.findRefreshToken h = some (r, u)) :
    r ∈ s.refresh_tokens.rows ∧ r.token_hash = h ∧
      ∃ v, s.userById r.user_id = some v ∧ u = v.entity := by
  obtain ⟨r₀, hr₀, hpair⟩ := Option.bind_eq_some_iff.1 hfind
  obtain ⟨v, hv, heq⟩ := Option.map_eq_some_iff.1 hpair
  cases heq
  have hhash := List.find?_some hr₀
  exact ⟨List.mem_of_find?_eq_some hr₀, by simpa only [beq_iff_eq] using hhash,
    v, hv, rfl⟩

/-! ## Signing -/

/-- Whether a token can be signed depends on the configuration only. -/
theorem sign_isOk (cfg : AuthConfig) (m : Moment) (secret expiresIn : String)
    (claims : JwtClaims) :
    (sign cfg m secret expiresIn claims).isOk = (cfg.ms expiresIn).isSome := by
  unfold sign
  cases cfg.ms expiresIn <;> rfl

theorem isOk_map {α β : Type} {f : α → β} (r : Except AuthError α) :
    (r.map f).isOk = r.isOk := by
  cases r <;> rfl

/-- A pair that was returned has the refresh token it was made with. -/
theorem of_signed_pair {cfg : AuthConfig} {m : Moment} {secret expiresIn : String}
    {claims : JwtClaims} {refreshToken : RawToken} {pair : TokenPair}
    (h : (sign cfg m secret expiresIn claims).map (TokenPair.mk · refreshToken)
      = .ok pair) :
    pair.refresh_token = refreshToken ∧ (cfg.ms expiresIn).isSome = true := by
  have hok := sign_isOk cfg m secret expiresIn claims
  cases hsign : sign cfg m secret expiresIn claims with
  | error e =>
      rw [hsign] at h
      exact nomatch h
  | ok a =>
      rw [hsign] at h hok
      cases h
      exact ⟨rfl, hok.symm⟩

/-- A token that cannot be signed is an error of its own kind. -/
theorem sign_error {cfg : AuthConfig} {m : Moment}
    {secret expiresIn : String} {claims : JwtClaims} {e : AuthError}
    (h : sign cfg m secret expiresIn claims = .error e) : e = .jwt := by
  unfold sign at h
  split at h
  · exact (Except.error.inj h).symm
  · exact nomatch h

theorem of_unsigned_pair {cfg : AuthConfig} {m : Moment}
    {secret expiresIn : String} {claims : JwtClaims} {refreshToken : RawToken}
    {e : AuthError}
    (h : (sign cfg m secret expiresIn claims).map (TokenPair.mk · refreshToken)
      = .error e) : e = .jwt := by
  cases hsign : sign cfg m secret expiresIn claims with
  | error e' =>
      rw [hsign] at h
      cases h
      exact sign_error hsign
  | ok a =>
      rw [hsign] at h
      exact nomatch h

/-! ## The outcome of a `refresh` -/

/-- The record a rotation at moment `m` adds. -/
def successorOf (cfg : AuthConfig) (m : Moment) (record : RefreshToken)
    (newToken : RawToken) (id : Nat) : RefreshToken where
  id := id
  token_hash := hashToken newToken
  family := record.family
  user_id := record.user_id
  expires_at := m.now + jwtExpirationToMs cfg.jwtRefreshExpiration
  revoked_at := none

/-- `s'` is `s` after the rotation of `record`. -/
structure Rotated (cfg : AuthConfig) (m : Moment) (record : RefreshToken)
    (newToken : RawToken) (s s' : Store) : Prop where
  users : s'.users = s.users
  rows : ∃ id, ∀ q, q ∈ s'.refresh_tokens.rows ↔
    q ∈ s.refresh_tokens.rows ∧ q.id ≠ record.id ∨
      q = { record with revoked_at := some m.now } ∨
      q = successorOf cfg m record newToken id

/-- What a `refresh` that looks its record up at moment `m` in state `s`
returns, and the state it leaves. -/
inductive RefreshOutcome (cfg : AuthConfig) (rawToken : RawToken) (m : Moment)
    (s : Store) : Except AuthError TokenPair → Store → Prop
  | unknown (hfind : s.findRefreshToken (hashToken rawToken) = none) :
      RefreshOutcome cfg rawToken m s (.error (.domain .InvalidToken)) s
  | expired {record : RefreshToken} {user : UserEntity}
      (hfind : s.findRefreshToken (hashToken rawToken) = some (record, user))
      (hexpired : record.expires_at < m.now) :
      RefreshOutcome cfg rawToken m s (.error (.domain .TokenExpired)) s
  | orphaned {record : RefreshToken} {user : UserEntity} {revokedAt : Int}
      (hfind : s.findRefreshToken (hashToken rawToken) = some (record, user))
      (hunexpired : ¬ record.expires_at < m.now)
      (hrevoked : record.revoked_at = some revokedAt)
      (hgrace : m.now - revokedAt ≤ tokenReuseGracePeriodMs)
      (hnone : s.findActiveInFamily record.family = none) :
      RefreshOutcome cfg rawToken m s (.error (.domain .InvalidToken)) s
  | graced {record active : RefreshToken} {user : UserEntity}
      {revokedAt : Int} (m' : Moment)
      (hfind : s.findRefreshToken (hashToken rawToken) = some (record, user))
      (hunexpired : ¬ record.expires_at < m.now)
      (hrevoked : record.revoked_at = some revokedAt)
      (hgrace : m.now - revokedAt ≤ tokenReuseGracePeriodMs)
      (hactive : s.findActiveInFamily record.family = some active) :
      RefreshOutcome cfg rawToken m s
        ((sign cfg m' cfg.jwtSecret cfg.jwtAccessExpiration
          (.access record.user_id user.email)).map fun a => ⟨a, rawToken⟩) s
  | reused {record : RefreshToken} {user : UserEntity} {revokedAt : Int}
      (hfind : s.findRefreshToken (hashToken rawToken) = some (record, user))
      (hunexpired : ¬ record.expires_at < m.now)
      (hrevoked : record.revoked_at = some revokedAt)
      (hreuse : tokenReuseGracePeriodMs < m.now - revokedAt) :
      RefreshOutcome cfg rawToken m s (.error (.domain .TokenReuseDetected))
        (s.revokeWhere (·.family == record.family) m.now)
  | unsigned {record : RefreshToken} {user : UserEntity} {e : AuthError}
      (hfind : s.findRefreshToken (hashToken rawToken) = some (record, user))
      (hunexpired : ¬ record.expires_at < m.now)
      (hunrevoked : record.revoked_at = none)
      (hsign : sign cfg m cfg.jwtRefreshSecret cfg.jwtRefreshExpiration
        (.refresh record.user_id record.family m.jti) = .error e) :
      RefreshOutcome cfg rawToken m s (.error e) s
  | rotated {record : RefreshToken} {user : UserEntity} {newToken : RawToken}
      {s' : Store} (m' : Moment)
      (hfind : s.findRefreshToken (hashToken rawToken) = some (record, user))
      (hunexpired : ¬ record.expires_at < m.now)
      (hunrevoked : record.revoked_at = none)
      (hsign : sign cfg m cfg.jwtRefreshSecret cfg.jwtRefreshExpiration
        (.refresh record.user_id record.family m.jti) = .ok newToken)
      (hfresh : ∀ r ∈ s.refresh_tokens.rows,
        r.token_hash ≠ hashToken newToken)
      (hrotated : Rotated cfg m record newToken s s') :
      RefreshOutcome cfg rawToken m s
        ((sign cfg m' cfg.jwtSecret cfg.jwtAccessExpiration
          (.access record.user_id user.email)).map fun a => ⟨a, newToken⟩) s'

section Outcome

variable {cfg : AuthConfig} {P : AuthPolicy} {t : Nat} {rawToken : RawToken}
  {s : Store} {m : Moment} {record : RefreshToken} {user : UserEntity}
  {newToken : RawToken}

/-- The columns `rotate` inserts. -/
def successorColumns (cfg : AuthConfig) (m : Moment) (record : RefreshToken)
    (newToken : RawToken) : NewRefreshToken where
  token_hash := hashToken newToken
  family := record.family
  user_id := record.user_id
  expires_at := m.now + jwtExpirationToMs cfg.jwtRefreshExpiration
  revoked_at := none

/-- The successor is accepted as long as the users are the same. -/
theorem successor_ok {v : User} {s' : Store} (husers : s'.users = s.users)
    (hv : s.userById record.user_id = some v) :
    (s'.insertRefreshToken (successorColumns cfg m record newToken)).1
      = .ok () := by
  apply Store.insertRefreshToken_ok (u := v)
  unfold Store.userById
  rw [husers]
  exact hv

theorem successor_isOk {v : User} {s' : Store} (husers : s'.users = s.users)
    (hv : s.userById record.user_id = some v) :
    (s'.insertRefreshToken (successorColumns cfg m record newToken)).1.isOk
      = true := by
  rw [successor_ok husers hv]
  rfl

/-- The record is written back, then its successor inserted. -/
theorem rotated_of_save_insert {v : User} (hr : record ∈ s.refresh_tokens.rows)
    (hu : s.userById record.user_id = some v) :
    Rotated cfg m record newToken s
      ((s.saveRefreshToken { record with revoked_at := some m.now })
        |>.insertRefreshToken (successorColumns cfg m record newToken)).2 := by
  have hu' : (s.saveRefreshToken { record with revoked_at := some m.now }
      ).userById (successorColumns cfg m record newToken).user_id = some v := hu
  refine ⟨?_, s.refresh_tokens.nextId, ?_⟩
  · simp only [Store.insertRefreshToken, hu']
    rfl
  · intro q
    rw [mem_insertRefreshToken]
    have hok : ((s.saveRefreshToken { record with revoked_at := some m.now }
        ).insertRefreshToken (successorColumns cfg m record newToken)).1
        = .ok () := successor_ok rfl hu
    have hnew : (s.saveRefreshToken { record with revoked_at := some m.now }
        ).newRefreshToken (successorColumns cfg m record newToken) =
        successorOf cfg m record newToken s.refresh_tokens.nextId := rfl
    rw [hnew]
    have hsaved : q ∈ (s.saveRefreshToken
        { record with revoked_at := some m.now }).refresh_tokens.rows ↔ _ :=
      Table.mem_save
    rw [hsaved]
    constructor
    · rintro ((⟨hq, hid⟩ | ⟨rfl, _⟩) | ⟨_, rfl⟩)
      · exact .inl ⟨hq, hid⟩
      · exact .inr (.inl rfl)
      · exact .inr (.inr rfl)
    · rintro (⟨hq, hid⟩ | rfl | rfl)
      · exact .inl (.inl ⟨hq, hid⟩)
      · exact .inl (.inr ⟨rfl, record, hr, rfl⟩)
      · exact .inr ⟨hok, rfl⟩

/-- The successor is inserted, then the record written back. -/
theorem rotated_of_insert_save {v : User} (hr : record ∈ s.refresh_tokens.rows)
    (hu : s.userById record.user_id = some v) :
    Rotated cfg m record newToken s
      ((s.insertRefreshToken (successorColumns cfg m record newToken)).2
        |>.saveRefreshToken { record with revoked_at := some m.now }) := by
  have hu' : s.userById (successorColumns cfg m record newToken).user_id
      = some v := hu
  have hlt := s.refresh_tokens.keys_lt record hr
  refine ⟨?_, s.refresh_tokens.nextId, ?_⟩
  · simp only [Store.insertRefreshToken, hu']
    rfl
  · intro q
    have hok : (s.insertRefreshToken (successorColumns cfg m record newToken)).1
        = .ok () := successor_ok rfl hu
    have hnew : s.newRefreshToken (successorColumns cfg m record newToken) =
        successorOf cfg m record newToken s.refresh_tokens.nextId := rfl
    have hsaved : q ∈ ((s.insertRefreshToken
        (successorColumns cfg m record newToken)).2.saveRefreshToken
          { record with revoked_at := some m.now }).refresh_tokens.rows ↔ _ :=
      Table.mem_save
    rw [hsaved, mem_insertRefreshToken, hnew]
    constructor
    · rintro (⟨hq | ⟨_, rfl⟩, hid⟩ | ⟨rfl, _⟩)
      · exact .inl ⟨hq, hid⟩
      · exact .inr (.inr rfl)
      · exact .inr (.inl rfl)
    · rintro (⟨hq, hid⟩ | rfl | rfl)
      · exact .inl ⟨.inl hq, hid⟩
      · exact .inr ⟨rfl, record, mem_insertRefreshToken.2 (.inl hr), rfl⟩
      · refine .inl ⟨.inr ⟨hok, rfl⟩, ?_⟩
        show s.refresh_tokens.nextId ≠ record.id
        omega

theorem lookedUpAt_iff {x : AuthEntry} {log : AuthLog}
    (h : Sole AuthOp.LooksUp t x log) {now : Int} :
    LookedUpAt log t now ↔ x.amb.now = now := by
  constructor
  · rintro ⟨y, hy, hlookup, hnow⟩
    rw [← h.only y hy hlookup]
    exact hnow
  · exact fun hnow => ⟨x, h.mem, h.kind, hnow⟩

/-- What a `refresh` that runs alone ends in. -/
def RefreshPost (cfg : AuthConfig) (t : Nat) (rawToken : RawToken) (s : Store)
    (result : Except AuthError TokenPair) (_ : Moment) (s' : Store)
    (log : AuthLog) : Prop :=
  ∃ x, Sole AuthOp.LooksUp t x log ∧
    RefreshOutcome cfg rawToken x.amb s result s'

/-- The end of both successful paths. -/
theorem accessToken_alone {userId : Nat} {email : String}
    {refreshToken : RawToken} {s s' : Store} {amb : Moment} {log : AuthLog}
    (h : ∀ m', RefreshPost cfg t rawToken s
      ((sign cfg m' cfg.jwtSecret cfg.jwtAccessExpiration
        (.access userId email)).map fun a => ⟨a, refreshToken⟩) m' s' log) :
    alone (authSystem cfg) oneAtATime t (.refresh rawToken)
      (RefreshPost cfg t rawToken s)
      (generateAccessToken cfg userId email >>= fun accessToken =>
        Prog.pure ⟨accessToken, refreshToken⟩) amb s' log := by
  have hend := h amb
  show alone (authSystem cfg) oneAtATime t (.refresh rawToken)
    (RefreshPost cfg t rawToken s)
    (Prog.ofExcept (sign cfg amb cfg.jwtSecret cfg.jwtAccessExpiration
      (.access userId email)) >>= fun accessToken =>
        Prog.pure ⟨accessToken, refreshToken⟩) amb s' log
  cases hsign : sign cfg amb cfg.jwtSecret cfg.jwtAccessExpiration
      (.access userId email) with
  | error e =>
      rw [hsign] at hend
      exact hend
  | ok accessToken =>
      rw [hsign] at hend
      exact hend

theorem reuse_alone {x : AuthEntry} {revokedAt : Int} {log : AuthLog}
    (hlooked : Sole AuthOp.LooksUp t x log)
    (hfind : s.findRefreshToken (hashToken rawToken) = some (record, user))
    (hunexpired : ¬ record.expires_at < x.amb.now)
    (hrevoked : record.revoked_at = some revokedAt) :
    alone (authSystem cfg) oneAtATime t (.refresh rawToken)
      (RefreshPost cfg t rawToken s)
      (reuse cfg rawToken record user x.amb revokedAt) x.amb s log := by
  unfold reuse
  split
  · next hgrace =>
      apply alone_call (fun _ => rfl)
      · exact fun _ _ _ h => nomatch h
      · intro amb active? _ hexec
        have hactive : s.findActiveInFamily record.family = active? :=
          Except.ok.inj hexec
        have hlooked' := hlooked.cons (y := (authSystem cfg).entry t
          (.refresh rawToken) amb (.findActiveInFamily record.family) none s)
          rfl (by rintro ⟨_, ⟨⟩⟩)
        cases active? with
        | none =>
            exact ⟨x, hlooked', .orphaned hfind hunexpired hrevoked hgrace
              hactive⟩
        | some active =>
            apply accessToken_alone
            intro m'
            exact ⟨x, hlooked', .graced m' hfind hunexpired hrevoked hgrace
              hactive⟩
  · next hreuse =>
      apply alone_call (fun _ => rfl)
      · exact fun _ _ _ h => nomatch h
      · intro amb _ _ _
        refine ⟨x, hlooked.cons rfl (by rintro ⟨_, ⟨⟩⟩),
          .reused hfind hunexpired hrevoked ?_⟩
        omega

theorem rotate_alone {x : AuthEntry} {log : AuthLog}
    (hlooked : Sole AuthOp.LooksUp t x log)
    (hfind : s.findRefreshToken (hashToken rawToken) = some (record, user))
    (hunexpired : ¬ record.expires_at < x.amb.now)
    (hunrevoked : record.revoked_at = none) :
    alone (authSystem cfg) oneAtATime t (.refresh rawToken)
      (RefreshPost cfg t rawToken s) (rotate cfg record user x.amb) x.amb s
      log := by
  obtain ⟨hr, _, v, hv, _⟩ := of_findRefreshToken hfind
  show alone (authSystem cfg) oneAtATime t (.refresh rawToken)
    (RefreshPost cfg t rawToken s)
    (Prog.ofExcept (sign cfg x.amb cfg.jwtRefreshSecret
      cfg.jwtRefreshExpiration
      (.refresh record.user_id record.family x.amb.jti)) >>= _) x.amb s log
  cases hsign : sign cfg x.amb cfg.jwtRefreshSecret cfg.jwtRefreshExpiration
      (.refresh record.user_id record.family x.amb.jti) with
  | error e => exact ⟨x, hlooked, .unsigned hfind hunexpired hunrevoked hsign⟩
  | ok newToken =>
      rw [Prog.ofExcept_ok_bind]
      apply alone_bind
      have hend : ∀ s' log', Sole AuthOp.LooksUp t x log' →
          (∀ r ∈ s.refresh_tokens.rows, r.token_hash ≠ hashToken newToken) →
          Rotated cfg x.amb record newToken s s' → ∀ amb,
          alone (authSystem cfg) oneAtATime t (.refresh rawToken)
            (RefreshPost cfg t rawToken s)
            (generateAccessToken cfg record.user_id user.email >>= fun a =>
              Prog.pure ⟨a, newToken⟩) amb s' log' := by
        intro s' log' hlooked' hfresh hrotated amb
        apply accessToken_alone
        intro m'
        exact ⟨x, hlooked', .rotated m' hfind hunexpired hunrevoked hsign
          hfresh hrotated⟩
      have hsaved : ∀ r ∈ s.refresh_tokens.rows, ∃ r' ∈ (s.saveRefreshToken
          { record with revoked_at := some x.amb.now }).refresh_tokens.rows,
          r'.token_hash = r.token_hash := by
        intro r hmem
        by_cases hid : r.id = record.id
        · have heq : r = record := s.refresh_tokens.unique hmem hr hid
          subst heq
          exact ⟨_, Table.mem_save.2 (.inr ⟨rfl, r, hmem, rfl⟩), rfl⟩
        · exact ⟨r, Table.mem_save.2 (.inl ⟨hmem, hid⟩), rfl⟩
      apply alone_promiseAll
      · apply alone_settle fun _ _ _ => rfl
        intro amb amb' _ hguard r hr'
        have hok : ((s.saveRefreshToken { record with
            revoked_at := some x.amb.now }).insertRefreshToken
              (successorColumns cfg x.amb record newToken)).1.isOk = true :=
          successor_isOk rfl hv
        rw [hr'.2 ⟨rfl, hok⟩]
        apply hend
        · exact (hlooked.cons (by rfl) (by rintro ⟨_, ⟨⟩⟩)).cons (by rfl)
            (by rintro ⟨_, ⟨⟩⟩)
        · intro r' hmem
          obtain ⟨r'', hr'', hhash⟩ := hsaved r' hmem
          have hfresh : freshRandomness (.refresh rawToken)
            (.insertRefreshToken (successorColumns cfg x.amb record newToken))
            (s.saveRefreshToken { record with
              revoked_at := some x.amb.now }) = true := hguard
          rw [← hhash]
          exact fresh_hash hfresh hr''
        · exact rotated_of_save_insert hr hv
      · apply alone_settle fun _ _ _ => rfl
        intro amb amb' hguard _ r hr'
        have hok : (s.insertRefreshToken
            (successorColumns cfg x.amb record newToken)).1.isOk = true :=
          successor_isOk rfl hv
        rw [hr'.2 ⟨hok, rfl⟩]
        apply hend
        · exact (hlooked.cons (by rfl) (by rintro ⟨_, ⟨⟩⟩)).cons (by rfl)
            (by rintro ⟨_, ⟨⟩⟩)
        · have hfresh : freshRandomness (.refresh rawToken)
            (.insertRefreshToken (successorColumns cfg x.amb record newToken))
            s = true := hguard
          exact fun r' hmem => fresh_hash hfresh hmem
        · exact rotated_of_insert_save hr hv

theorem refresh_alone {amb : Moment} {log : AuthLog} (hown : own t log = []) :
    alone (authSystem cfg) oneAtATime t (.refresh rawToken)
      (RefreshPost cfg t rawToken s) (refresh cfg rawToken) amb s log := by
  apply alone_call (fun _ => rfl)
  · rintro _ _ _ ⟨⟩
  · intro amb' found _ hexec
    have hfind : s.findRefreshToken (hashToken rawToken) = found :=
      Except.ok.inj hexec
    have hlooked : Sole AuthOp.LooksUp t ((authSystem cfg).entry t
        (.refresh rawToken) amb' (.findRefreshToken (hashToken rawToken)) none s)
        ((authSystem cfg).entry t (.refresh rawToken) amb'
          (.findRefreshToken (hashToken rawToken)) none s :: log) :=
      .first hown rfl ⟨_, rfl⟩
    cases found with
    | none => exact ⟨_, hlooked, .unknown hfind⟩
    | some pair =>
        obtain ⟨record, user⟩ := pair
        show alone (authSystem cfg) oneAtATime t (.refresh rawToken)
          (RefreshPost cfg t rawToken s)
          (if record.expires_at < amb'.now then
            Prog.throw (.domain .TokenExpired)
            else refreshUnexpired cfg rawToken record user amb') amb' s _
        split
        · next hexpired => exact ⟨_, hlooked, .expired hfind hexpired⟩
        · next hunexpired =>
            cases hrevoked : record.revoked_at with
            | some revokedAt =>
                rw [refreshUnexpired_revoked hrevoked]
                exact reuse_alone hlooked hfind hunexpired hrevoked
            | none =>
                rw [refreshUnexpired_unrevoked hrevoked]
                exact rotate_alone hlooked hfind hunexpired hrevoked

end Outcome

/-- What a `refresh` returns when it is served alone, and the state it
leaves, with the moment at which it looked its record up. -/
theorem refresh_outcome {cfg : AuthConfig} {s₀ : Store} {c c' : AuthRun}
    {rawToken : RawToken} {r : Except AuthError AuthReply}
    (h : Reachable (authSystem cfg) oneAtATime s₀ c) (hidle : c.idle = true)
    (hserved : Served cfg oneAtATime c (.refresh rawToken) r c') :
    ∃ x result, Sole AuthOp.LooksUp c.threads.length x c'.log ∧
      r = result.map AuthReply.tokens ∧
      RefreshOutcome cfg rawToken x.amb c.state result c'.state := by
  have hown : own c.threads.length c.log = [] :=
    h.own_arriving
  have halone : ∀ amb, alone (authSystem cfg) oneAtATime c.threads.length
      (.refresh rawToken) (fun r amb s' log => ∃ result,
        r = result.map AuthReply.tokens ∧
        RefreshPost cfg c.threads.length rawToken c.state result amb s' log)
      (serve cfg (.refresh rawToken)) amb c.state c.log := by
    intro amb
    apply alone_map (refresh_alone hown)
    · exact fun pair _ _ _ hpost => ⟨.ok pair, rfl, hpost⟩
    · exact fun e _ _ _ hpost => ⟨.error e, rfl, hpost⟩
  obtain ⟨_, result, hmap, x, hlooked, houtcome⟩ := hserved.result hidle halone
  exact ⟨x, result, hlooked, hmap, houtcome⟩

end Videum.Auth
