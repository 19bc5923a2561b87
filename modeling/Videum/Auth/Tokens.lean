import Videum.Async.Logic
import Videum.Auth.Requests

/-!
# Verification tokens over a run

Consuming a token takes three awaited calls: it is looked up unused, marked
used in memory, and written back next to the user it is about.  This module
says what survives what other requests do in between, and what a `confirm` or
a `resetPassword` must have read before each of its writes.

## Main results

* `tokens_exec` — what one call does to the tokens.
* `Tokens.answer` — a call that obeys `Consuming` keeps the invariant.
* `tokens_of_reachable` — every run has it, obeys that law, and a call that
  has consumed a token had all its answers.
* `tokens_steps` — what becomes of the tokens over a stretch of a run.
-/

namespace Videum.Auth

open Videum.Async
open Videum.Common

/-! ## Tokens and answers -/

/-- `r'` is the token `r` some writes later. -/
structure VerificationToken.Later (r r' : VerificationToken) : Prop where
  id : r'.id = r.id
  token_hash : r'.token_hash = r.token_hash
  type : r'.type = r.type
  user_id : r'.user_id = r.user_id
  expires_at : r'.expires_at = r.expires_at
  unused : r'.used_at = none → r.used_at = none

namespace VerificationToken.Later

theorem refl (r : VerificationToken) : r.Later r :=
  ⟨rfl, rfl, rfl, rfl, rfl, fun h => h⟩

theorem trans {a b c : VerificationToken} (h₁ : a.Later b) (h₂ : b.Later c) :
    a.Later c where
  id := h₂.id.trans h₁.id
  token_hash := h₂.token_hash.trans h₁.token_hash
  type := h₂.type.trans h₁.type
  user_id := h₂.user_id.trans h₁.user_id
  expires_at := h₂.expires_at.trans h₁.expires_at
  unused := fun h => h₁.unused (h₂.unused h)

theorem use (usedAt : Int) (r : VerificationToken) :
    r.Later (r.use usedAt) where
  id := rfl
  token_hash := rfl
  type := rfl
  user_id := rfl
  expires_at := rfl
  unused := by
    intro h
    cases hr : r.used_at with
    | none => rfl
    | some at₀ =>
        simp only [VerificationToken.use, hr, Option.some_or] at h
        exact nomatch h

/-- An `UPDATE` ages the tokens it selects. -/
theorem ite (p : Prop) [Decidable p] (usedAt : Int) (r : VerificationToken) :
    r.Later (if p then r.use usedAt else r) := by
  split
  · exact .use usedAt r
  · exact .refl r

end VerificationToken.Later

/-- `r` is the row of the token issued as `v`. -/
structure VerificationToken.IssuedAs (r : VerificationToken)
    (v : NewVerificationToken) : Prop where
  token_hash : r.token_hash = v.token_hash
  type : r.type = v.type
  user_id : r.user_id = v.user_id
  expires_at : r.expires_at = v.expires_at

theorem VerificationToken.IssuedAs.later {r r' : VerificationToken}
    {v : NewVerificationToken} (h : r.IssuedAs v) (hlater : r.Later r') :
    r'.IssuedAs v :=
  ⟨hlater.token_hash.trans h.token_hash, hlater.type.trans h.type,
    hlater.user_id.trans h.user_id, hlater.expires_at.trans h.expires_at⟩

/-- The token a request is there to consume. -/
def AuthRequest.consumes :
    AuthRequest → Option (RawToken × VerificationTokenType)
  | .confirm token => some (token, .EMAIL_CONFIRMATION)
  | .resetPassword dto => some (dto.token, .PASSWORD_RESET)
  | _ => none

namespace AuthOp

/-- The calls that write `verification_tokens`. -/
def writesTokens : AuthOp → Bool
  | insertVerificationToken _ => true
  | saveVerificationToken _ => true
  | invalidateVerificationTokens _ _ _ => true
  | _ => false

/-- The call that writes a token back. -/
def savesToken : AuthOp → Bool
  | saveVerificationToken _ => true
  | _ => false

/-- The call that writes a user. -/
def savesUser : AuthOp → Bool
  | saveUser _ => true
  | _ => false

/-- The call to `argon2.hash`. -/
def hashesPassword : AuthOp → Bool
  | hashPassword _ => true
  | _ => false

/-- The unused token a lookup has found, with its user. -/
def foundToken : (op : AuthOp) → Except AuthError op.Res →
    Option (VerificationToken × UserEntity)
  | findVerificationToken _ _, .ok found => found
  | _, _ => none

/-- The token an answer has shown or written. -/
def knownToken : (op : AuthOp) → Except AuthError op.Res →
    Option VerificationToken
  | findVerificationToken _ _, .ok found => found.map Prod.fst
  | saveVerificationToken r, .ok _ => some r
  | _, _ => none

/-- The columns of the token an answer has added. -/
def addedToken : (op : AuthOp) → Except AuthError op.Res →
    Option NewVerificationToken
  | insertVerificationToken v, .ok _ => some v
  | _, _ => none

theorem eq_of_foundToken {op : AuthOp} {res : Except AuthError op.Res}
    {pair : VerificationToken × UserEntity}
    (h : op.foundToken res = some pair) :
    ∃ tokenHash type, op = .findVerificationToken tokenHash type := by
  cases op with
  | findVerificationToken tokenHash type => exact ⟨tokenHash, type, rfl⟩
  | _ => exact nomatch h

theorem isOk_of_foundToken {op : AuthOp} {res : Except AuthError op.Res}
    {pair : VerificationToken × UserEntity}
    (h : op.foundToken res = some pair) : res.isOk = true := by
  cases res with
  | ok v => rfl
  | error e => cases op <;> exact nomatch h

theorem knownToken_of_found {op : AuthOp} {res : Except AuthError op.Res}
    {pair : VerificationToken × UserEntity}
    (h : op.foundToken res = some pair) :
    op.knownToken res = some pair.1 := by
  obtain ⟨tokenHash, type, rfl⟩ := eq_of_foundToken h
  cases res with
  | ok found =>
      have hfound : found = some pair := h
      rw [hfound]
      rfl
  | error e => exact nomatch h

theorem knownToken_error (op : AuthOp) (e : AuthError) :
    op.knownToken (.error e) = none := by
  cases op <;> rfl

theorem addedToken_error (op : AuthOp) (e : AuthError) :
    op.addedToken (.error e) = none := by
  cases op <;> rfl

theorem isOk_of_addedToken {op : AuthOp} {res : Except AuthError op.Res}
    {v : NewVerificationToken} (h : op.addedToken res = some v) :
    res.isOk = true := by
  cases res with
  | ok _ => rfl
  | error e =>
      rw [addedToken_error] at h
      exact nomatch h

theorem eq_of_addedToken {op : AuthOp} {res : Except AuthError op.Res}
    {v : NewVerificationToken} (h : op.addedToken res = some v) :
    op = .insertVerificationToken v := by
  cases op with
  | insertVerificationToken v' =>
      cases res with
      | ok _ => exact congrArg _ (Option.some.inj h)
      | error e => exact nomatch h
  | _ => exact nomatch h

end AuthOp

/-! ## What one call does to the tokens -/

theorem verification_tokens_exec (m : Moment) {op : AuthOp} (s : Store)
    (h : op.writesTokens = false) :
    (Store.exec m op s).2.verification_tokens = s.verification_tokens := by
  cases op with
  | insertVerificationToken v => exact nomatch h
  | saveVerificationToken v => exact nomatch h
  | invalidateVerificationTokens userId type usedAt => exact nomatch h
  | insertUser email password =>
      rw [Store.exec, Store.insertUser_only]
  | deleteUser id => rw [Store.exec, Store.deleteUser_only]
  | insertChannel name nickname userId =>
      rw [Store.exec, Store.insertChannel_only]
  | insertRefreshToken r =>
      rw [Store.exec, Store.insertRefreshToken_only]
  | _ => rfl

/-- The call does not write a token back that undoes something. -/
def AuthOp.AgesTokens (op : AuthOp) (s : Store) : Prop :=
  ∀ v, op = .saveVerificationToken v →
    ∀ r ∈ s.verification_tokens.rows, r.id = v.id → r.Later v

theorem AuthOp.agesTokens_insert {s : Store} (v : NewVerificationToken) :
    (AuthOp.insertVerificationToken v).AgesTokens s :=
  nofun

theorem AuthOp.agesTokens_invalidate {s : Store} (userId : Nat)
    (type : VerificationTokenType) (usedAt : Int) :
    (AuthOp.invalidateVerificationTokens userId type usedAt).AgesTokens s :=
  nofun

/-- Tokens only age. -/
theorem tokens_exec (m : Moment) (op : AuthOp) {s : Store}
    (h : op.AgesTokens s) :
    Table.Ages VerificationToken.Later
      ((op.addedToken (Store.exec m op s).1).map s.newVerificationToken)
      s.verification_tokens (Store.exec m op s).2.verification_tokens := by
  cases op with
  | insertVerificationToken v =>
      cases hu : s.userById v.user_id with
      | none =>
          simp only [Store.exec, Store.insertVerificationToken, hu]
          exact .refl .refl
      | some u =>
          simp only [Store.exec, Store.insertVerificationToken, hu]
          exact .insert .refl _ _
  | saveVerificationToken v =>
      exact .save .refl (h v rfl)
  | invalidateVerificationTokens userId type usedAt =>
      exact .update (fun r => (VerificationToken.Later.ite _ usedAt r).id)
        fun r _ => .ite _ usedAt r
  | _ =>
      rw [verification_tokens_exec m s (by rfl)]
      exact .refl .refl

/-- What a lookup finds is an unused row under the digest, with its user. -/
theorem of_findVerificationToken {s : Store} {tokenHash : TokenHash}
    {type : VerificationTokenType} {r : VerificationToken} {u : UserEntity}
    (hfind : s.findVerificationToken tokenHash type = some (r, u)) :
    r ∈ s.verification_tokens.rows ∧ r.token_hash = tokenHash ∧
      r.type = type ∧ r.used_at = none ∧
      ∃ row, s.userById r.user_id = some row ∧ u = row.entity := by
  obtain ⟨r₀, hr₀, hpair⟩ := Option.bind_eq_some_iff.1 hfind
  obtain ⟨row, hrow, heq⟩ := Option.map_eq_some_iff.1 hpair
  cases heq
  have hp := List.find?_some hr₀
  simp only [Bool.and_eq_true, beq_iff_eq, Option.isNone_iff_eq_none] at hp
  exact ⟨List.mem_of_find?_eq_some hr₀, hp.1.1, hp.1.2, hp.2, row, hrow, rfl⟩

theorem mem_of_foundToken {s : Store} {m : Moment} {tokenHash : TokenHash}
    {type : VerificationTokenType} {r : VerificationToken} {u : UserEntity}
    (h : (AuthOp.findVerificationToken tokenHash type).foundToken
      (Store.exec m (.findVerificationToken tokenHash type) s).1
        = some (r, u)) :
    r ∈ s.verification_tokens.rows ∧ r.token_hash = tokenHash ∧
      r.type = type ∧ r.used_at = none ∧
      ∃ row, s.userById r.user_id = some row ∧ u = row.entity :=
  of_findVerificationToken h

/-! ## The law and the invariant -/

/-- The call has read the token `r` of the user `u`, unused and unexpired. -/
structure ReadUnused (x : AuthEntry) (r : VerificationToken) (u : UserEntity) :
    Prop where
  found : x.op.foundToken x.res = some (r, u)
  unexpired : ¬ r.expires_at < x.amb.now

/-- What the request makes of the user of the token it consumes. -/
def AuthRequest.Stores : AuthRequest → UserEntity → UserEntity → Prop
  | .confirm _, u, w => w = { u with is_confirmed := true }
  | .resetPassword _, u, w => ∃ hash, w = { u with password := some hash }
  | _, _, _ => False

/-- What a call on a token must have behind it in its own thread: a lookup
is the first call of a `confirm` or a `resetPassword`, which then writes back
the token it has read, used, and writes the user of that token once. -/
def Consuming (log : AuthLog) (t : Nat) (request : AuthRequest) :
    AuthOp → Prop
  | .findVerificationToken h type =>
      (∃ rawToken, request.consumes = some (rawToken, type) ∧
        h = hashToken rawToken) ∧ own t log = []
  | .saveVerificationToken v =>
      ∃ x ∈ own t log, ∃ r u, ReadUnused x r u ∧
        v = { r with used_at := some x.amb.now }
  | .hashPassword _ =>
      request.consumes ≠ none → ∀ y ∈ own t log, y.op.savesUser = false
  | .saveUser w =>
      (∃ x ∈ own t log, ∃ r u, ReadUnused x r u ∧ request.Stores u w) ∧
        ∀ y ∈ own t log, y.op.savesUser = false ∧
          (y.op.hashesPassword = true → y.res.isOk = true)
  | _ => True

/-- Digests are distinct, and what was read or written about a token is still
true of it, up to its use. -/
structure Tokens (s : Store) (log : AuthLog) : Prop where
  hashes : s.verification_tokens.Distinct VerificationToken.token_hash
  known : ∀ x ∈ log, ∀ r, x.op.knownToken x.res = some r →
    ∃ r' ∈ s.verification_tokens.rows, r.Later r'

theorem Consuming.ages {s : Store} {log : AuthLog} {t : Nat}
    {request : AuthRequest} {op : AuthOp} (hinv : Tokens s log)
    (hlaw : Consuming log t request op) : op.AgesTokens s := by
  rintro v rfl r hr hid
  obtain ⟨x, hx, r₀, u, hread, rfl⟩ := hlaw
  obtain ⟨r', hr', hlater⟩ := hinv.known x (mem_own.1 hx).1 r₀
    (AuthOp.knownToken_of_found hread.found)
  have heq : r = r' := s.verification_tokens.unique hr hr'
    (hid.trans hlater.id.symm)
  subst heq
  exact ⟨hlater.id.symm, hlater.token_hash.symm, hlater.type.symm,
    hlater.user_id.symm, hlater.expires_at.symm, fun h => nomatch h⟩

/-- The token a call shows or writes is there after the call. -/
theorem knownToken_exec {m : Moment} {op : AuthOp} {s : Store}
    (hrow : ∀ v, op = .saveVerificationToken v →
      ∃ r ∈ s.verification_tokens.rows, r.id = v.id) {r : VerificationToken}
    (hr : op.knownToken (Store.exec m op s).1 = some r) :
    r ∈ (Store.exec m op s).2.verification_tokens.rows := by
  cases op with
  | findVerificationToken tokenHash type =>
      obtain ⟨⟨r', u⟩, hfound, rfl⟩ := Option.map_eq_some_iff.1 hr
      exact (mem_of_foundToken (m := m) hfound).1
  | saveVerificationToken v =>
      cases hr
      obtain ⟨r₀, hr₀, hid⟩ := hrow r rfl
      exact Table.mem_save.2 (.inr ⟨rfl, r₀, hr₀, hid⟩)
  | _ => exact nomatch hr

section Law

variable {cfg : AuthConfig} {P : AuthPolicy} {t : Nat}
  {request : AuthRequest} {m : Moment} {op : AuthOp} {s : Store}
  {log : AuthLog}

/-- The digest of an added token is new. -/
theorem fresh_tokenHash {v : NewVerificationToken}
    (h : freshRandomness request (.insertVerificationToken v) s = true)
    {r : VerificationToken} (hr : r ∈ s.verification_tokens.rows) :
    r.token_hash ≠ v.token_hash := by
  have hfresh : s.freshVerificationHash v.token_hash = true := by
    cases request <;> exact h
  have hne := List.all_eq_true.1 hfresh r hr
  simpa only [bne_iff_ne] using hne

/-- A call that obeys the law keeps the invariant. -/
theorem Tokens.answer (hinv : Tokens s log)
    (hlaw : Consuming log t request op)
    (hguard : freshRandomness request op s = true)
    (fault : Option AuthError) :
    Tokens ((authSystem cfg).answer m op fault s).2
      ((authSystem cfg).entry t request m op fault s :: log) := by
  have hages := tokens_exec m op (hlaw.ages hinv)
  cases fault with
  | some e =>
      refine ⟨hinv.hashes, ?_⟩
      intro x hx r hr
      rcases List.mem_cons.1 hx with rfl | hx
      · have hnone := AuthOp.knownToken_error op e
        exact nomatch hnone.symm.trans hr
      · exact hinv.known x hx r hr
  | none =>
      constructor
      · apply hages.distinct (fun a b h => h.id) (fun a b h => h.token_hash)
          hinv.hashes
        intro n hn r hr
        obtain ⟨v, hv, rfl⟩ := Option.map_eq_some_iff.1 hn
        rw [AuthOp.eq_of_addedToken hv] at hguard
        exact fresh_tokenHash hguard hr
      · intro x hx r hr
        rcases List.mem_cons.1 hx with rfl | hx
        · refine ⟨r, knownToken_exec ?_ hr, .refl r⟩
          rintro v rfl
          obtain ⟨y, hy, r₀, u, hread, rfl⟩ := hlaw
          obtain ⟨r', hr', hlater⟩ := hinv.known y (mem_own.1 hy).1 r₀
            (AuthOp.knownToken_of_found hread.found)
          exact ⟨r', hr', hlater.id⟩
        · obtain ⟨r', hr', hlater⟩ := hinv.known x hx r hr
          obtain ⟨r'', hr'', hlater'⟩ := hages.kept r' hr'
          exact ⟨r'', hr'', hlater.trans hlater'⟩

theorem tokens_kept_by (cfg : AuthConfig) (P : AuthPolicy) :
    KeptBy (authSystem cfg) P Tokens Consuming :=
  fun _ _ _ _ fault _ _ hinv hlaw hguard _ => hinv.answer hlaw hguard fault

end Law

/-! ## How a consumer ends -/

/-- Thread `t` has read a token unused, and none of its calls failed. -/
def Consumed (t : Nat) (log : AuthLog) : Prop :=
  (∃ x ∈ own t log, ∃ r u, ReadUnused x r u) ∧
    ∀ y ∈ own t log, y.res.isOk = true

theorem Consumed.cons {t : Nat} {old new : AuthLog} (h : Consumed t old)
    {x : AuthEntry} (hown : own t new = x :: own t old)
    (hok : x.res.isOk = true) : Consumed t new := by
  obtain ⟨⟨y, hy, hread⟩, hall⟩ := h
  unfold Consumed
  rw [hown]
  refine ⟨⟨y, .tail _ hy, hread⟩, ?_⟩
  intro z hz
  rcases List.mem_cons.1 hz with rfl | hz
  · exact hok
  · exact hall z hz

section Consume

variable {cfg : AuthConfig} {P : AuthPolicy} {t : Nat}
  {request : AuthRequest} {α : Type}
  {post : Except AuthError α → Moment → AuthLog → Prop}

/-- The start of both consumers, where nothing is promised to a token that is
not accepted. -/
theorem consume_wp {token : RawToken} {type : VerificationTokenType}
    {f : VerificationToken × UserEntity → AuthProg α} {amb : Moment}
    {log : AuthLog} (hrequest : request.consumes = some (token, type))
    (hown : own t log = []) (herror : ∀ e amb log, post (.error e) amb log)
    (hf : ∀ x r u log', own t log' = [x] → ReadUnused x r u →
      wpLaw (authSystem cfg) P Tokens Consuming t request post
        (f ({ r with used_at := some x.amb.now }, u)) x.amb log') :
    wpLaw (authSystem cfg) P Tokens Consuming t request post
      (consumeVerificationToken token type >>= f) amb log := by
  unfold consumeVerificationToken
  rw [Prog.bind_assoc]
  apply wpLaw_call (tokens_kept_by cfg P) herror
  · intro log' hothers
    exact ⟨⟨token, hrequest, rfl⟩, hothers.own_eq.trans hown⟩
  · intro log' s amb' record? hothers _ _ hexec
    cases record? with
    | none => exact herror _ amb' _
    | some found =>
        obtain ⟨record, user⟩ := found
        show wpLaw (authSystem cfg) P Tokens Consuming t request post
          ((if record.expires_at < amb'.now then
            Prog.throw (.domain .TokenExpired)
            else Prog.pure ({ record with used_at := some amb'.now }, user))
            >>= f) amb' _
        split
        · exact herror _ amb' _
        · next hexpired =>
            apply hf ((authSystem cfg).entry t request amb'
              (.findVerificationToken (hashToken token) type) none s)
            · rw [own_cons (by rfl), hothers.own_eq, hown]
            · refine ⟨?_, hexpired⟩
              show (AuthOp.findVerificationToken (hashToken token)
                type).foundToken (Store.exec amb'
                  (.findVerificationToken (hashToken token) type) s).1 = _
              have hexec' : (Store.exec amb'
                  (.findVerificationToken (hashToken token) type) s).1
                  = .ok (some (record, user)) := hexec
              rw [hexec']
              rfl

/-- The two writes that consume a token, in either order. -/
theorem consume_writes_wp {x : AuthEntry} {r : VerificationToken}
    {u w : UserEntity} {post : Except AuthError Unit → Moment → AuthLog → Prop}
    {amb : Moment} {log : AuthLog} (hx : x ∈ own t log)
    (hread : ReadUnused x r u) (hstores : request.Stores u w)
    (hmine : ∀ y ∈ own t log, y.op.savesUser = false ∧ y.res.isOk = true)
    (hpost : ∀ result amb log, (result = .ok () → Consumed t log) →
      post result amb log) :
    wpLaw (authSystem cfg) P Tokens Consuming t request post
      (Prog.promiseAll Moment.swapped
        (.saveVerificationToken { r with used_at := some x.amb.now })
        (.saveUser w)) amb log := by
  have hconsumed : Consumed t log :=
    ⟨⟨x, hx, r, u, hread⟩, fun y hy => (hmine y hy).2⟩
  have hsave : ∀ log', x ∈ own t log' → Consuming log' t request
      (.saveVerificationToken { r with used_at := some x.amb.now }) :=
    fun log' hx => ⟨x, hx, r, u, hread, rfl⟩
  have huser : ∀ log', x ∈ own t log' →
      (∀ y ∈ own t log', y.op.savesUser = false ∧
        (y.op.hashesPassword = true → y.res.isOk = true)) →
      Consuming log' t request (.saveUser w) :=
    fun log' hx hall => ⟨⟨x, hx, r, u, hread, hstores⟩, hall⟩
  apply wpLaw_promiseAll (tokens_kept_by cfg P)
  · rintro op (rfl | rfl) log' hown
    · apply hsave
      rw [hown]
      exact hx
    · apply huser
      · rw [hown]
        exact hx
      · intro y hy
        rw [hown] at hy
        exact ⟨(hmine y hy).1, fun _ => (hmine y hy).2⟩
  · rintro op y (⟨rfl, hy⟩ | ⟨rfl, hy⟩) log' hown
    · apply hsave
      rw [hown]
      exact .tail _ hx
    · apply huser
      · rw [hown]
        exact .tail _ hx
      · intro z hz
        rw [hown] at hz
        rcases List.mem_cons.1 hz with rfl | hz
        · constructor
          · rw [hy]
            rfl
          · intro hhash
            rw [hy] at hhash
            exact nomatch hhash
        · exact ⟨(hmine z hz).1, fun _ => (hmine z hz).2⟩
  · intro result amb' log' y z hown _ hok
    apply hpost
    intro hresult
    obtain ⟨hy, hz⟩ := hok hresult
    unfold Consumed
    rw [hown]
    refine ⟨⟨x, .tail _ (.tail _ hx), r, u, hread⟩, ?_⟩
    intro a ha
    rcases List.mem_cons.1 ha with rfl | ha
    · exact hz
    · rcases List.mem_cons.1 ha with rfl | ha
      · exact hy
      · exact hconsumed.2 a ha

theorem confirm_wp {token : RawToken} {amb : Moment} {log : AuthLog}
    (hown : own t log = []) :
    wpLaw (authSystem cfg) P Tokens Consuming t (.confirm token)
      (fun result _ log => result.isOk = true → Consumed t log)
      (confirm token) amb log := by
  apply consume_wp (by exact rfl) hown
  · exact fun _ _ _ h => nomatch h
  · intro x r u log' hmine hread
    apply consume_writes_wp (x := x) (u := u) ?_ hread (by exact rfl)
    · intro y hy
      rw [hmine, List.mem_singleton] at hy
      obtain ⟨_, _, hop⟩ := AuthOp.eq_of_foundToken hread.found
      refine ⟨?_, ?_⟩
      · rw [hy, hop]
        rfl
      · rw [hy]
        exact AuthOp.isOk_of_foundToken hread.found
    · intro result _ _ h hok
      cases result with
      | ok v => exact h rfl
      | error e => exact nomatch hok
    · rw [hmine]
      exact .head _

theorem resetPassword_consumes {dto : ResetPasswordDto} {amb : Moment}
    {log : AuthLog} (hown : own t log = []) :
    wpLaw (authSystem cfg) P Tokens Consuming t (.resetPassword dto)
      (fun result _ log => result.isOk = true → Consumed t log)
      (resetPassword dto.token dto.new_password) amb log := by
  have hkept := tokens_kept_by cfg P
  have herror : ∀ e amb log, (fun result (_ : Moment) log =>
      (result : Except AuthError Unit).isOk = true → Consumed t log)
      (.error e) amb log := fun _ _ _ h => nomatch h
  apply consume_wp (by exact rfl) hown herror
  intro x r u log₁ hmine₁ hread
  have hmine : ∀ y ∈ own t log₁, y.op.savesUser = false ∧
      y.res.isOk = true := by
    intro y hy
    rw [hmine₁, List.mem_singleton] at hy
    obtain ⟨_, _, hop⟩ := AuthOp.eq_of_foundToken hread.found
    rw [hy]
    refine ⟨?_, AuthOp.isOk_of_foundToken hread.found⟩
    rw [hop]
    rfl
  apply wpLaw_call hkept herror
  · intro log' hothers _ y hy
    rw [hothers.own_eq] at hy
    exact (hmine y hy).1
  · intro log₂ s amb₂ hash hothers _ _ hexec
    have hown₂ := own_entry (authSystem cfg) t (.resetPassword dto) amb₂
      (.hashPassword dto.new_password) none s log₂
    rw [hothers.own_eq] at hown₂
    apply wp_bind
    apply consume_writes_wp (x := x) (u := u) ?_ hread (by exact ⟨hash, rfl⟩)
    · intro y hy
      rw [hown₂] at hy
      rcases List.mem_cons.1 hy with rfl | hy
      · exact ⟨rfl, rfl⟩
      · exact hmine y hy
    · intro result amb₃ log₃ hconsumed
      cases result with
      | error e => exact herror e amb₃ log₃
      | ok v =>
          show wpLaw (authSystem cfg) P Tokens Consuming t (.resetPassword dto)
            _ (Prog.await (.revokeUser u.id amb₃.now) Prog.ofExcept) amb₃ log₃
          apply wpLaw_await hkept
          · exact fun _ _ => trivial
          · intro log₄ s' amb₄ fault hothers' _ _ _
            cases fault with
            | some e => exact herror e amb₄ _
            | none =>
                intro _
                apply (hconsumed rfl).cons (x := (authSystem cfg).entry t
                  (.resetPassword dto) amb₄ (.revokeUser u.id amb₃.now) none s')
                · rw [own_cons (by rfl), hothers'.own_eq]
                · rfl
    · rw [hown₂, hmine₁]
      exact .tail _ (.head _)

end Consume

/-! ## Runs -/

/-- A call that has returned has consumed the token it was there to
consume. -/
def ConsumePost (t : Nat) (request : AuthRequest)
    (result : Except AuthError AuthReply) (_ : Moment) (log : AuthLog) :
    Prop :=
  result.isOk = true → request.consumes ≠ none → Consumed t log

/-- The other requests obey the law at any time. -/
theorem consuming_of_mayCall {request : AuthRequest}
    (hrequest : request.consumes = none) {op : AuthOp}
    (h : request.MayCall op) (log : AuthLog) (t : Nat) :
    Consuming log t request op := by
  have hhash : ∀ password, Consuming log t request (.hashPassword password) :=
    fun _ hconsumes => absurd hrequest hconsumes
  cases request with
  | confirm token => exact nomatch hrequest
  | resetPassword dto => exact nomatch hrequest
  | _ =>
      cases op with
      | hashPassword password => exact hhash password
      | _ => trivial

theorem tokens_wp (cfg : AuthConfig) (P : AuthPolicy) (t : Nat)
    (request : AuthRequest) (amb : Moment) (log : AuthLog)
    (hown : own t log = []) :
    wpLaw (authSystem cfg) P Tokens Consuming t request
      (ConsumePost t request) (serve cfg request) amb log := by
  have hother : request.consumes = none →
      wpLaw (authSystem cfg) P Tokens Consuming t request
        (ConsumePost t request) (serve cfg request) amb log := by
    intro hnone
    apply wpLaw_of_issues (tokens_kept_by cfg P)
    · exact fun _ _ _ _ hconsumes => absurd hnone hconsumes
    · exact (serve_mayCall cfg request).mono fun op hop log =>
        consuming_of_mayCall hnone hop log t
  cases request with
  | confirm token =>
      apply wp_map (confirm_wp hown)
      · exact fun _ _ _ h _ _ => h rfl
      · exact fun _ _ _ _ h => nomatch h
  | resetPassword dto =>
      apply wp_map (resetPassword_consumes hown)
      · exact fun _ _ _ h _ _ => h rfl
      · exact fun _ _ _ _ h => nomatch h
  | _ => exact hother rfl

/-- Every run has the invariant and obeys the law, and every call that has
returned is accounted for. -/
theorem tokens_of_reachable {cfg : AuthConfig} {P : AuthPolicy} {s₀ : Store}
    {c : AuthRun}
    (hstart : s₀.verification_tokens.Distinct VerificationToken.token_hash)
    (h : Reachable (authSystem cfg) P s₀ c) :
    Lawful Tokens Consuming c.state c.log ∧
      ∀ t th, c.threads[t]? = some th →
        ThreadSafe (authSystem cfg) P (Lawful Tokens Consuming) ConsumePost t
          th c.log := by
  apply h.lawful_threads ⟨hstart, fun x hx => nomatch hx⟩
  intro c request amb hc _ _
  apply tokens_wp
  exact hc.own_arriving

/-- A token that was found is a row under the digest of the token its request
presents. -/
theorem foundToken_before {cfg : AuthConfig} {P : AuthPolicy} {s₀ : Store}
    {c : AuthRun}
    (hstart : s₀.verification_tokens.Distinct VerificationToken.token_hash)
    (h : Reachable (authSystem cfg) P s₀ c) {x : AuthEntry}
    (hx : x ∈ c.log) {r : VerificationToken} {u : UserEntity}
    (hfound : x.op.foundToken x.res = some (r, u)) :
    ∃ rawToken, x.request.consumes = some (rawToken, r.type) ∧
      r.token_hash = hashToken rawToken ∧ r.used_at = none ∧
      r ∈ x.before.verification_tokens.rows ∧ u.id = r.user_id := by
  obtain ⟨tokenHash, type, hop⟩ := AuthOp.eq_of_foundToken hfound
  obtain ⟨older, hs, hlaw⟩ := (tokens_of_reachable hstart h).1.2.at_mem hx
  rw [(h.entry_exec_of_ok hx (AuthOp.isOk_of_foundToken hfound)).1] at hfound
  rw [hop] at hlaw
  revert hfound
  rw [hop]
  intro hfound
  obtain ⟨⟨rawToken, hconsumes, hhash⟩, _⟩ := hlaw
  obtain ⟨hmem, hdigest, htype, hunused, row, hrow, rfl⟩ :=
    mem_of_foundToken (m := x.amb) hfound
  have hid : row.id = r.user_id := by
    have hp := List.find?_some hrow
    simpa only [beq_iff_eq] using hp
  refine ⟨rawToken, ?_, hdigest.trans hhash, hunused, hmem, hid⟩
  rw [htype]
  exact hconsumes

/-- The same of a token that was read unused. -/
theorem readUnused_before {cfg : AuthConfig} {P : AuthPolicy} {s₀ : Store}
    {c : AuthRun}
    (hstart : s₀.verification_tokens.Distinct VerificationToken.token_hash)
    (h : Reachable (authSystem cfg) P s₀ c) {x : AuthEntry}
    (hx : x ∈ c.log) {r : VerificationToken} {u : UserEntity}
    (hread : ReadUnused x r u) :
    ∃ rawToken, x.request.consumes = some (rawToken, r.type) ∧
      r.token_hash = hashToken rawToken ∧ r.used_at = none ∧
      r ∈ x.before.verification_tokens.rows ∧ u.id = r.user_id :=
  foundToken_before hstart h hx hread.found

/-- Over a stretch of a run no token is lost, and each one there at its end
was there before or has been added on the way. -/
theorem tokens_steps {cfg : AuthConfig} {P : AuthPolicy} {s₀ : Store}
    {c c' : AuthRun}
    (hstart : s₀.verification_tokens.Distinct VerificationToken.token_hash)
    (h : Reachable (authSystem cfg) P s₀ c)
    (hsteps : Steps (authSystem cfg) P c c') :
    (∀ r ∈ c.state.verification_tokens.rows,
      ∃ r' ∈ c'.state.verification_tokens.rows, r.Later r') ∧
    ∃ newer : AuthLog, c'.log = newer ++ c.log ∧
      ∀ r' ∈ c'.state.verification_tokens.rows,
        (∃ r ∈ c.state.verification_tokens.rows, r.Later r') ∨
        ∃ x ∈ newer, ∃ v, x.op.addedToken x.res = some v ∧ r'.IssuedAs v := by
  induction hsteps with
  | refl =>
      refine ⟨fun r hr => ⟨r, hr, .refl r⟩, [], rfl, ?_⟩
      exact fun r hr => .inl ⟨r, hr, .refl r⟩
  | @tail b b' hprefix hstep ih =>
      obtain ⟨hkept, newer, hlog, horigin⟩ := ih
      have hb := h.steps hprefix
      have hb' : Reachable (authSystem cfg) P s₀ b' := hb.tail hstep
      cases hstep with
      | spawn request amb _ => exact ⟨hkept, newer, hlog, horigin⟩
      | @perform t request op k amb fault hthread hguard hfault =>
          have hlaw : Consuming b.log t request op :=
            (tokens_of_reachable hstart hb').1.2 _ _ (List.suffix_refl _)
          have hages := tokens_exec amb op
            (hlaw.ages (tokens_of_reachable hstart hb).1.1)
          have hold : ∀ r ∈ b.state.verification_tokens.rows,
              ∀ r' : VerificationToken, r.Later r' →
              (∃ r₀ ∈ c.state.verification_tokens.rows, r₀.Later r') ∨
              ∃ x ∈ (authSystem cfg).entry t request amb op fault b.state ::
                newer, ∃ v, x.op.addedToken x.res = some v ∧
                  r'.IssuedAs v := by
            intro r hr r' hlater
            rcases horigin r hr with ⟨r₀, hr₀, hlater₀⟩ | ⟨x, hx, v, hv, hissued⟩
            · exact .inl ⟨r₀, hr₀, hlater₀.trans hlater⟩
            · exact .inr ⟨x, .tail _ hx, v, hv, hissued.later hlater⟩
          refine ⟨?_, (authSystem cfg).entry t request amb op fault b.state ::
            newer, congrArg (_ :: ·) hlog, ?_⟩
          · intro r hr
            obtain ⟨r', hr', hlater⟩ := hkept r hr
            cases fault with
            | some e => exact ⟨r', hr', hlater⟩
            | none =>
                obtain ⟨r'', hr'', hlater'⟩ := hages.kept r' hr'
                exact ⟨r'', hr'', hlater.trans hlater'⟩
          · intro r' hr'
            cases fault with
            | some e => exact hold r' hr' r' (.refl r')
            | none =>
                rcases hages.origin r' hr' with ⟨r, hr, hlater⟩ | hadded
                · exact hold r hr r' hlater
                · obtain ⟨v, hv, rfl⟩ := Option.map_eq_some_iff.1 hadded
                  exact .inr ⟨_, .head _, v, hv, rfl, rfl, rfl, rfl⟩

end Videum.Auth
