import Videum.Auth.Serial
import Videum.Auth.Users

/-!
# The ledger of verification tokens

Whether a token is accepted is decided by one column, `used_at`, that three
operations write: consuming the token, and issuing a later one of its type to
its user, which invalidates it first.  Where requests are served one after
another this adds up to a ledger: an unused row is the last token of its type
issued to its user, and has not been redeemed.

## Main results

* `LedgerBut.invalidate`, `LedgerBut.insert`, `LedgerBut.save`,
  `LedgerBut.redeem` — how each call moves the ledger on.
* `serve_keeps` — a request that consumes no token keeps it.
-/

namespace Videum.Auth

open Videum.Async
open Videum.Common

/-- One request after another; only mails may fail. -/
def mailMayFail : AuthPolicy where
  accepts c _ := c.idle = true
  fault op _ :=
    match op with
    | .sendMail _ => true
    | _ => false

instance (c : AuthRun) (request : AuthRequest) :
    Decidable (mailMayFail.accepts c request) :=
  inferInstanceAs (Decidable (c.idle = true))

/-! ## What the ledger says -/

/-- The token of this type issued to the user last. -/
def lastIssued (log : AuthLog) (type : VerificationTokenType) (userId : Nat) :
    Option NewVerificationToken :=
  log.findSome? fun x => (x.op.addedToken x.res).filter fun v =>
    decide (v.type = type) && decide (v.user_id = userId)

/-- A call of one of the threads has redeemed the token. -/
def Redeemed (threads : List AuthThread) (rawToken : RawToken)
    (type : VerificationTokenType) : Prop :=
  ∃ th ∈ threads, th.request.consumes = some (rawToken, type) ∧
    th.prog.returned = true

instance (threads : List AuthThread) (rawToken : RawToken)
    (type : VerificationTokenType) :
    Decidable (Redeemed threads rawToken type) :=
  inferInstanceAs (Decidable (∃ th ∈ threads,
    th.request.consumes = some (rawToken, type) ∧ th.prog.returned = true))

theorem lastIssued_cons_none {x : AuthEntry} {log : AuthLog}
    (h : x.op.addedToken x.res = none) (type : VerificationTokenType)
    (userId : Nat) :
    lastIssued (x :: log) type userId = lastIssued log type userId := by
  unfold lastIssued
  rw [List.findSome?_cons, h]
  rfl

theorem lastIssued_cons_self {x : AuthEntry} {log : AuthLog}
    {v : NewVerificationToken} (h : x.op.addedToken x.res = some v) :
    lastIssued (x :: log) v.type v.user_id = some v := by
  have hself : (x.op.addedToken x.res).filter (fun w =>
      decide (w.type = v.type) && decide (w.user_id = v.user_id)) = some v := by
    rw [h, Option.filter_some, if_pos]
    simp only [decide_true, Bool.and_self]
  unfold lastIssued
  rw [List.findSome?_cons, hself]

theorem lastIssued_cons_ne {x : AuthEntry} {log : AuthLog}
    {v : NewVerificationToken} (h : x.op.addedToken x.res = some v)
    {type : VerificationTokenType} {userId : Nat}
    (hne : ¬ (v.type = type ∧ v.user_id = userId)) :
    lastIssued (x :: log) type userId = lastIssued log type userId := by
  have hother : (x.op.addedToken x.res).filter (fun w =>
      decide (w.type = type) && decide (w.user_id = userId)) = none := by
    rw [h, Option.filter_some, if_neg]
    simpa only [Bool.and_eq_true, decide_eq_true_eq] using hne
  unfold lastIssued
  rw [List.findSome?_cons, hother]

/-- The last token was issued, with this type, to this user. -/
theorem lastIssued_spec {log : AuthLog} {type : VerificationTokenType}
    {userId : Nat} {v : NewVerificationToken}
    (h : lastIssued log type userId = some v) :
    (∃ x ∈ log, x.op.addedToken x.res = some v) ∧ v.type = type ∧
      v.user_id = userId := by
  obtain ⟨x, hx, hfilter⟩ := List.exists_of_findSome?_eq_some h
  obtain ⟨hadded, hmatch⟩ := Option.filter_eq_some_iff.1 hfilter
  simp only [Bool.and_eq_true, decide_eq_true_eq] at hmatch
  exact ⟨⟨x, hx, hadded⟩, hmatch⟩

/-- The row is that of the token of its type issued to its user last. -/
def Current (log : AuthLog) (r : VerificationToken) : Prop :=
  ∃ v, lastIssued log r.type r.user_id = some v ∧ v.token_hash = r.token_hash

/-- The ledger is in order, but for the rows in `q`, which are used. -/
structure LedgerBut (q : VerificationToken → Prop)
    (threads : List AuthThread) (s : Store) (log : AuthLog) : Prop where
  hashes : s.verification_tokens.Distinct VerificationToken.token_hash
  owners : ∀ r ∈ s.verification_tokens.rows, s.hasUser r.user_id
  issued : ∀ x ∈ log, ∀ v, x.op.addedToken x.res = some v →
    ∃ r ∈ s.verification_tokens.rows, r.IssuedAs v
  redeemed : ∀ rawToken type, Redeemed threads rawToken type →
    ∃ r ∈ s.verification_tokens.rows, r.token_hash = hashToken rawToken
  unused : ∀ r ∈ s.verification_tokens.rows, ¬ q r →
    (r.used_at = none ↔
      Current log r ∧ ¬ Redeemed threads r.token_hash.raw r.type)
  spent : ∀ r ∈ s.verification_tokens.rows, q r → r.used_at ≠ none

/-- The ledger is in order. -/
abbrev Ledger (threads : List AuthThread) (s : Store) (log : AuthLog) : Prop :=
  LedgerBut (fun _ => False) threads s log

/-- The rows a new token of this type for this user replaces. -/
def Superseded (type : VerificationTokenType) (userId : Nat)
    (r : VerificationToken) : Prop :=
  r.type = type ∧ r.user_id = userId

/-! ## How calls move the ledger on -/

theorem addedToken_of_not_writes {op : AuthOp} (h : op.writesTokens = false)
    (res : Except AuthError op.Res) : op.addedToken res = none := by
  cases op with
  | insertVerificationToken v => exact nomatch h
  | _ => rfl

section Moves

variable {cfg : AuthConfig} {q : VerificationToken → Prop}
  {threads : List AuthThread} {s : Store} {log : AuthLog} {t : Nat}
  {request : AuthRequest} {m : Moment}

/-- An entry that issues nothing leaves what the log says. -/
theorem current_cons {x : AuthEntry} (h : x.op.addedToken x.res = none)
    (r : VerificationToken) : Current (x :: log) r ↔ Current log r := by
  unfold Current
  rw [lastIssued_cons_none h]

/-- A call that does not write tokens keeps the ledger as it is. -/
theorem LedgerBut.other (h : LedgerBut q threads s log) (op : AuthOp)
    (hop : op.writesTokens = false) (fault : Option AuthError) :
    LedgerBut q threads ((authSystem cfg).answer m op fault s).2
      ((authSystem cfg).entry t request m op fault s :: log) := by
  have hnone := addedToken_of_not_writes hop
    ((authSystem cfg).answer m op fault s).1
  have hrows : ((authSystem cfg).answer m op fault s).2.verification_tokens =
      s.verification_tokens := by
    cases fault with
    | some e => rfl
    | none => exact verification_tokens_exec m s hop
  constructor
  · rw [hrows]
    exact h.hashes
  · intro r hr
    rw [hrows] at hr
    cases fault with
    | some e => exact h.owners r hr
    | none => exact hasUser_exec (h.owners r hr) (referenced_of_token hr)
  · intro x hx v hv
    rw [hrows]
    rcases List.mem_cons.1 hx with rfl | hx
    · exact nomatch hnone.symm.trans hv
    · exact h.issued x hx v hv
  · rw [hrows]
    exact h.redeemed
  · rw [hrows]
    intro r hr hq
    rw [current_cons (by exact hnone)]
    exact h.unused r hr hq
  · rw [hrows]
    exact h.spent

/-- Marking all tokens of a type for a user as used. -/
theorem LedgerBut.invalidate (h : Ledger threads s log)
    {type : VerificationTokenType} {userId : Nat} {usedAt : Int} :
    LedgerBut (Superseded type userId) threads
      (s.invalidateVerificationTokens userId type usedAt)
      ((authSystem cfg).entry t request m
        (.invalidateVerificationTokens userId type usedAt) none s :: log) := by
  have hmem : ∀ r', r' ∈ (s.invalidateVerificationTokens userId type
      usedAt).verification_tokens.rows ↔ ∃ r ∈ s.verification_tokens.rows,
        (if r.user_id = userId ∧ r.type = type then r.use usedAt else r)
          = r' := fun _ => List.mem_map
  have hages := tokens_exec (s := s) m
    (.invalidateVerificationTokens userId type usedAt)
    (AuthOp.agesTokens_invalidate userId type usedAt)
  constructor
  · exact hages.distinct (fun a b h => h.id) (fun a b h => h.token_hash)
      h.hashes nofun
  · intro r' hr'
    obtain ⟨r, hr, rfl⟩ := (hmem r').1 hr'
    rw [(VerificationToken.Later.ite _ usedAt r).user_id]
    exact h.owners r hr
  · intro x hx v hv
    rcases List.mem_cons.1 hx with rfl | hx
    · exact nomatch hv
    · obtain ⟨r, hr, hissued⟩ := h.issued x hx v hv
      obtain ⟨r', hr', hlater⟩ := hages.kept r hr
      exact ⟨r', hr', hissued.later hlater⟩
  · intro rawToken type' hredeemed
    obtain ⟨r, hr, hhash⟩ := h.redeemed rawToken type' hredeemed
    obtain ⟨r', hr', hlater⟩ := hages.kept r hr
    exact ⟨r', hr', hlater.token_hash.trans hhash⟩
  · intro r' hr' hq
    obtain ⟨r, hr, rfl⟩ := (hmem r').1 hr'
    by_cases hselected : r.user_id = userId ∧ r.type = type
    · rw [if_pos hselected] at hq
      exact absurd ⟨hselected.2, hselected.1⟩ hq
    · rw [if_neg hselected, current_cons (by rfl)]
      exact h.unused r hr id
  · intro r' hr' hq
    obtain ⟨r, hr, rfl⟩ := (hmem r').1 hr'
    have hlater := VerificationToken.Later.ite
      (r.user_id = userId ∧ r.type = type) usedAt r
    have hselected : r.user_id = userId ∧ r.type = type :=
      ⟨hlater.user_id.symm.trans hq.2, hlater.type.symm.trans hq.1⟩
    rw [if_pos hselected]
    cases hused : r.used_at with
    | none => simp [VerificationToken.use, hused]
    | some at₀ => simp [VerificationToken.use, hused]

/-- Issuing a token once the ones it replaces are used. -/
theorem LedgerBut.insert {v : NewVerificationToken}
    (h : LedgerBut (Superseded v.type v.user_id) threads s log)
    (huser : s.hasUser v.user_id)
    (hfresh : freshRandomness request (.insertVerificationToken v) s = true) :
    (s.insertVerificationToken v).1 = .ok () ∧
    Ledger threads (s.insertVerificationToken v).2
      ((authSystem cfg).entry t request m (.insertVerificationToken v) none s
        :: log) := by
  obtain ⟨u, hu⟩ := Store.hasUser_iff.1 huser
  have hok := Store.insertVerificationToken_ok hu
  have hmem : ∀ r, r ∈ (s.insertVerificationToken v).2.verification_tokens.rows
      ↔ r ∈ s.verification_tokens.rows ∨ r = s.newVerificationToken v := by
    intro r
    simp only [Store.insertVerificationToken, hu]
    exact Table.mem_insert
  have hadded : ((authSystem cfg).entry t request m (.insertVerificationToken v)
      none s).op.addedToken ((authSystem cfg).entry t request m
        (.insertVerificationToken v) none s).res = some v := by
    show (AuthOp.insertVerificationToken v).addedToken
      (s.insertVerificationToken v).1 = some v
    rw [hok]
    rfl
  have hages := tokens_exec (s := s) m (.insertVerificationToken v)
    (AuthOp.agesTokens_insert v)
  have husers : (s.insertVerificationToken v).2.users = s.users := by
    simp only [Store.insertVerificationToken, hu]
  refine ⟨hok, ?_, ?_, ?_, ?_, ?_, ?_⟩
  · apply hages.distinct (fun a b h => h.id) (fun a b h => h.token_hash)
      h.hashes
    intro n hn r hr
    obtain ⟨v', hv', rfl⟩ := Option.map_eq_some_iff.1 hn
    cases AuthOp.eq_of_addedToken hv'
    exact fresh_tokenHash hfresh hr
  · intro r hr
    unfold Store.hasUser
    rw [husers]
    rcases (hmem r).1 hr with hr | rfl
    · exact h.owners r hr
    · exact huser
  · intro x hx v' hv'
    rcases List.mem_cons.1 hx with rfl | hx
    · have heq : v' = v := Option.some.inj (hv'.symm.trans hadded)
      subst heq
      exact ⟨_, (hmem _).2 (.inr rfl), ⟨rfl, rfl, rfl, rfl⟩⟩
    · obtain ⟨r, hr, hissued⟩ := h.issued x hx v' hv'
      exact ⟨r, (hmem r).2 (.inl hr), hissued⟩
  · intro rawToken type hredeemed
    obtain ⟨r, hr, hhash⟩ := h.redeemed rawToken type hredeemed
    exact ⟨r, (hmem r).2 (.inl hr), hhash⟩
  · intro r hr _
    rcases (hmem r).1 hr with hold | rfl
    · by_cases hq : Superseded v.type v.user_id r
      · have hspent := h.spent r hold hq
        have hne := fresh_tokenHash hfresh hold
        refine ⟨fun hnone => absurd hnone hspent, ?_⟩
        rintro ⟨⟨v', hlast, hhash⟩, _⟩
        rw [hq.1, hq.2, lastIssued_cons_self hadded] at hlast
        cases hlast
        exact absurd hhash.symm hne
      · have hlast : lastIssued ((authSystem cfg).entry t request m
            (.insertVerificationToken v) none s :: log) r.type r.user_id =
            lastIssued log r.type r.user_id :=
          lastIssued_cons_ne hadded fun h' => hq ⟨h'.1.symm, h'.2.symm⟩
        unfold Current
        rw [hlast]
        exact h.unused r hold hq
    · refine ⟨fun _ => ⟨⟨v, lastIssued_cons_self hadded, rfl⟩, ?_⟩, fun _ => rfl⟩
      intro hredeemed
      obtain ⟨r, hr, hhash⟩ := h.redeemed _ _ hredeemed
      exact fresh_tokenHash hfresh hr hhash
  · exact fun _ _ hq => hq.elim

/-- A user without tokens has none that a new one replaces. -/
theorem LedgerBut.superseded (h : Ledger threads s log)
    {type : VerificationTokenType} {userId : Nat}
    (hnone : ∀ r ∈ s.verification_tokens.rows, r.user_id ≠ userId) :
    LedgerBut (Superseded type userId) threads s log where
  hashes := h.hashes
  owners := h.owners
  issued := h.issued
  redeemed := h.redeemed
  unused := fun r hr _ => h.unused r hr id
  spent := fun r hr hq => absurd hq.2 (hnone r hr)

/-- Writing a token back used. -/
theorem LedgerBut.save (h : Ledger threads s log) {r : VerificationToken}
    (hr : r ∈ s.verification_tokens.rows) {usedAt : Int} :
    LedgerBut (·.token_hash = r.token_hash) threads
      (s.saveVerificationToken { r with used_at := some usedAt })
      ((authSystem cfg).entry t request m
        (.saveVerificationToken { r with used_at := some usedAt }) none s
          :: log) := by
  have hmem : ∀ x, x ∈ (s.saveVerificationToken { r with
      used_at := some usedAt }).verification_tokens.rows ↔
      x ∈ s.verification_tokens.rows ∧ x.id ≠ r.id ∨
        x = { r with used_at := some usedAt } ∧
          ∃ y ∈ s.verification_tokens.rows, y.id = r.id :=
    fun _ => Table.mem_save
  have hlater : ∀ x ∈ s.verification_tokens.rows, x.id = r.id →
      x.Later { r with used_at := some usedAt } := by
    intro x hx hid
    have heq := s.verification_tokens.unique hx hr hid
    subst heq
    exact ⟨rfl, rfl, rfl, rfl, rfl, fun h => nomatch h⟩
  have hages := tokens_exec m (.saveVerificationToken
    { r with used_at := some usedAt }) (s := s) (by rintro v ⟨⟩; exact hlater)
  constructor
  · exact hages.distinct (fun a b h => h.id) (fun a b h => h.token_hash)
      h.hashes nofun
  · intro x hx
    rcases (hmem x).1 hx with ⟨hold, _⟩ | ⟨rfl, _⟩
    · exact h.owners x hold
    · exact h.owners r hr
  · intro x hx v hv
    rcases List.mem_cons.1 hx with rfl | hx
    · exact nomatch hv
    · obtain ⟨y, hy, hissued⟩ := h.issued x hx v hv
      obtain ⟨y', hy', hlater'⟩ := hages.kept y hy
      exact ⟨y', hy', hissued.later hlater'⟩
  · intro rawToken type hredeemed
    obtain ⟨y, hy, hhash⟩ := h.redeemed rawToken type hredeemed
    obtain ⟨y', hy', hlater'⟩ := hages.kept y hy
    exact ⟨y', hy', hlater'.token_hash.trans hhash⟩
  · intro x hx hne
    rw [current_cons (by rfl)]
    rcases (hmem x).1 hx with ⟨hold, _⟩ | ⟨rfl, _⟩
    · exact h.unused x hold id
    · exact absurd rfl hne
  · intro x hx hhash
    rcases (hmem x).1 hx with ⟨hold, hid⟩ | ⟨rfl, _⟩
    · have heq := h.hashes x hold r hr hhash
      exact absurd (congrArg VerificationToken.id heq) hid
    · exact Option.some_ne_none _

/-- A call that consumes nothing, or throws, redeems nothing. -/
theorem LedgerBut.ended (h : Ledger threads s log) {th : AuthThread}
    (hth : th.request.consumes = none ∨ th.prog.returned = false) :
    Ledger (threads ++ [th]) s log := by
  have hsame : ∀ rawToken type, Redeemed (threads ++ [th]) rawToken type ↔
      Redeemed threads rawToken type := by
    intro rawToken type
    constructor
    · rintro ⟨th', hth', hconsumes, hreturned⟩
      rcases List.mem_append.1 hth' with hth' | hth'
      · exact ⟨th', hth', hconsumes, hreturned⟩
      · rw [List.mem_singleton.1 hth'] at hconsumes hreturned
        rcases hth with hnone | hthrown
        · exact nomatch hnone.symm.trans hconsumes
        · exact nomatch hthrown.symm.trans hreturned
    · rintro ⟨th', hth', hrest⟩
      exact ⟨th', List.mem_append_left _ hth', hrest⟩
  refine ⟨h.hashes, h.owners, h.issued, ?_, ?_, fun _ _ hq => hq.elim⟩
  · intro rawToken type hredeemed
    exact h.redeemed rawToken type ((hsame rawToken type).1 hredeemed)
  · intro r hr hq
    rw [hsame]
    exact h.unused r hr hq

/-- The call that has written a token back redeems it when it returns. -/
theorem LedgerBut.redeem {rawToken : RawToken}
    (h : LedgerBut (·.token_hash = hashToken rawToken) threads s log)
    {th : AuthThread} {r : VerificationToken}
    (hr : r ∈ s.verification_tokens.rows)
    (hhash : r.token_hash = hashToken rawToken)
    (hconsumes : th.request.consumes = some (rawToken, r.type))
    (hreturned : th.prog.returned = true) :
    Ledger (threads ++ [th]) s log := by
  have hthis : Redeemed (threads ++ [th]) rawToken r.type :=
    ⟨th, List.mem_append_right _ (.head _), hconsumes, hreturned⟩
  have hothers : ∀ raw type, raw ≠ rawToken →
      (Redeemed (threads ++ [th]) raw type ↔ Redeemed threads raw type) := by
    intro raw type hne
    constructor
    · rintro ⟨th', hth', hconsumes', hreturned'⟩
      rcases List.mem_append.1 hth' with hth' | hth'
      · exact ⟨th', hth', hconsumes', hreturned'⟩
      · rw [List.mem_singleton.1 hth', hconsumes] at hconsumes'
        have heq := congrArg Prod.fst (Option.some.inj hconsumes')
        exact absurd heq.symm hne
    · rintro ⟨th', hth', hrest⟩
      exact ⟨th', List.mem_append_left _ hth', hrest⟩
  refine ⟨h.hashes, h.owners, h.issued, ?_, ?_, fun _ _ hq => hq.elim⟩
  · intro raw type hredeemed
    by_cases hraw : raw = rawToken
    · rw [hraw]
      exact ⟨r, hr, hhash⟩
    · exact h.redeemed raw type ((hothers raw type hraw).1 hredeemed)
  · intro x hx _
    by_cases hsame : x.token_hash = hashToken rawToken
    · have heq := h.hashes x hx r hr (hsame.trans hhash.symm)
      subst heq
      refine ⟨fun hnone => absurd hnone (h.spent x hx hsame), ?_⟩
      rintro ⟨_, hnot⟩
      rw [hhash] at hnot
      exact absurd hthis hnot
    · have hraw : x.token_hash.raw ≠ rawToken := by
        intro heq
        apply hsame
        rw [← heq]
        rfl
      rw [hothers _ _ hraw]
      exact h.unused x hx hsame

end Moves

/-! ## Requests that issue tokens -/

/-- A user that was inserted is there, under a new primary key. -/
theorem of_insertUser {s : Store} {email : String} {password : PasswordHash}
    {u : UserEntity} (h : (s.insertUser email password).1 = .ok u) :
    u.id = s.users.nextId ∧ (s.insertUser email password).2.hasUser u.id ∧
      (s.insertUser email password).2.verification_tokens =
        s.verification_tokens := by
  rcases insertUser_cases s email password with heq | heq
  · rw [heq] at h
    exact nomatch h
  · rw [heq] at h ⊢
    cases h
    exact ⟨rfl, ⟨_, (Table.mem_insert (h := rfl)).2 (.inr rfl), rfl⟩, rfl⟩

section Issuing

variable {cfg : AuthConfig} {q : VerificationToken → Prop}
  {threads : List AuthThread} {s : Store} {log : AuthLog} {t : Nat}
  {request : AuthRequest} {amb : Moment} {α : Type}
  {post : Except AuthError α → Moment → Store → AuthLog → Prop}

/-- The rule for a call that writes no tokens and cannot be made to fail. -/
theorem alone_other {op : AuthOp} {f : op.Res → AuthProg α}
    (h : LedgerBut q threads s log) (hop : op.writesTokens = false)
    (hP : ∀ e, mailMayFail.fault op e = false)
    (herror : ∀ e amb s' log', LedgerBut q threads s' log' →
      post (.error e) amb s' log')
    (hf : ∀ amb v, (Store.exec amb op s).1 = .ok v →
      LedgerBut q threads (Store.exec amb op s).2
        ((authSystem cfg).entry t request amb op none s :: log) →
      alone (authSystem cfg) mailMayFail t request post (f v) amb
        (Store.exec amb op s).2
        ((authSystem cfg).entry t request amb op none s :: log)) :
    alone (authSystem cfg) mailMayFail t request post (await op >>= f) amb s
      log := by
  apply alone_call hP
  · exact fun amb' e _ _ => herror e amb' _ _ (h.other op hop none)
  · exact fun amb' v _ hexec => hf amb' v hexec (h.other op hop none)

/-- A program that writes no tokens keeps the ledger. -/
theorem alone_keeps {p : AuthProg α} (h : LedgerBut q threads s log)
    (hp : p.Issues fun op : AuthOp => op.writesTokens = false) :
    alone (authSystem cfg) mailMayFail t request
      (fun _ _ s log => LedgerBut q threads s log) p amb s log :=
  alone_of_issues (fun _ op fault _ _ hop hledger _ _ =>
    hledger.other op hop fault) hp h

/-- The rule for issuing a token whose predecessors are used. -/
theorem createVerificationToken_alone {type : VerificationTokenType}
    {userId : Nat} {hours : Int} {f : RawToken → AuthProg α}
    (h : LedgerBut (Superseded type userId) threads s log)
    (huser : s.hasUser userId)
    (hf : ∀ rawToken amb s' log', Ledger threads s' log' →
      alone (authSystem cfg) mailMayFail t request post (f rawToken) amb s'
        log') :
    alone (authSystem cfg) mailMayFail t request post
      (createVerificationToken userId type hours >>= f) amb s log := by
  have hinsert : ∀ amb' : Moment, freshRandomness request
      (.insertVerificationToken (issuedColumns userId type hours amb)) s
        = true →
      (s.insertVerificationToken (issuedColumns userId type hours amb)).1
        = .ok () ∧
      Ledger threads
        (s.insertVerificationToken (issuedColumns userId type hours amb)).2
        ((authSystem cfg).entry t request amb' (.insertVerificationToken
          (issuedColumns userId type hours amb)) none s :: log) :=
    fun amb' hfresh => LedgerBut.insert h huser hfresh
  rw [createVerificationToken_bind, alone]
  apply alone_call (fun _ => rfl)
  · intro amb' e hguard herror
    have hok := (hinsert amb' hguard).1
    cases hok.symm.trans herror
  · intro amb' _ hguard _
    exact hf _ amb' _ _ (hinsert amb' hguard).2

/-- The rule for a registration's user and channel: the user is new. -/
theorem createUserWithChannel_alone {email : String} {password : PasswordHash}
    {f : UserEntity × Channel → AuthProg α} (h : Ledger threads s log)
    (herror : ∀ e amb s' log', Ledger threads s' log' →
      post (.error e) amb s' log')
    (hf : ∀ pair amb s' log', Ledger threads s' log' →
      s'.hasUser pair.1.id →
      (∀ r ∈ s'.verification_tokens.rows, r.user_id ≠ pair.1.id) →
      alone (authSystem cfg) mailMayFail t request post (f pair) amb s' log') :
    alone (authSystem cfg) mailMayFail t request post
      (createUserWithChannel email password >>= f) amb s log := by
  unfold createUserWithChannel
  rw [Prog.bind_assoc]
  apply alone_other h rfl (fun _ => rfl) herror
  intro amb₁ user hexec hledger
  obtain ⟨hid, huser, htokens⟩ := of_insertUser hexec
  have hnone : ∀ r ∈ (s.insertUser email password).2.verification_tokens.rows,
      r.user_id ≠ user.id := by
    intro r hr
    rw [htokens] at hr
    obtain ⟨v, hv, hvid⟩ := h.owners r hr
    have hlt := s.users.keys_lt v hv
    omega
  have hchannel : (createChannel user.id email).Issues fun op : AuthOp =>
      op.writesTokens = false ∧ op.writesUsers = false :=
    fun moment => tryNicknames_issues (fun _ _ => ⟨rfl, rfl⟩)
      (fun _ => ⟨rfl, rfl⟩) _ _ _
  apply alone_bind
  apply alone_tryCatch
  apply alone_map (alone_of_issues (J := fun s log => Ledger threads s log ∧
    s.hasUser user.id ∧ ∀ r ∈ s.verification_tokens.rows,
      r.user_id ≠ user.id) ?_ hchannel ⟨hledger, huser, hnone⟩)
  · rintro channel amb₂ s₂ log₂ ⟨hledger₂, huser₂, hnone₂⟩
    exact hf (user, channel) amb₂ s₂ log₂ hledger₂ huser₂ hnone₂
  · rintro e amb₂ s₂ log₂ ⟨hledger₂, _, _⟩
    apply alone_other hledger₂ rfl (fun _ => rfl)
    · exact fun e' amb₃ s₃ log₃ h₃ => herror e' amb₃ s₃ log₃ h₃
    · exact fun amb₃ _ _ h₃ => herror e amb₃ _ _ h₃
  · rintro amb₂ op fault s₂ log₂ ⟨hop, husers⟩ ⟨hledger₂, huser₂, hnone₂⟩ _ _
    refine ⟨hledger₂.other op hop fault, ?_, ?_⟩
    · cases fault with
      | some e => exact huser₂
      | none =>
          show (Store.exec amb₂ op s₂).2.hasUser user.id
          unfold Store.hasUser
          rw [users_exec amb₂ s₂ husers]
          exact huser₂
    · cases fault with
      | some e => exact hnone₂
      | none =>
          show ∀ r ∈ (Store.exec amb₂ op s₂).2.verification_tokens.rows, _
          rw [verification_tokens_exec amb₂ s₂ hop]
          exact hnone₂

theorem register_alone (dto : RegisterDto) (h : Ledger threads s log) :
    alone (authSystem cfg) mailMayFail t request
      (fun _ _ s log => Ledger threads s log) (register cfg dto) amb s log := by
  apply alone_other h rfl (fun _ => rfl) (fun _ _ _ _ h' => h')
  intro amb₁ existing _ h₁
  cases existing with
  | some user => exact h₁
  | none =>
      apply alone_other h₁ rfl (fun _ => rfl) (fun _ _ _ _ h' => h')
      intro amb₂ hashedPassword _ h₂
      apply createUserWithChannel_alone h₂ (fun _ _ _ _ h' => h')
      rintro ⟨user, channel⟩ amb₃ s₃ log₃ h₃ huser hnone
      apply createVerificationToken_alone (h₃.superseded hnone) huser
      intro rawToken amb₄ s₄ log₄ h₄
      apply alone_keeps h₄
      exact (Prog.Issues.call (by exact rfl)).bind fun _ => trivial

/-- The end of `resendConfirmation` and `forgotPassword`. -/
theorem mailToken_alone {user : UserEntity} {channel? : Option Channel}
    {type : VerificationTokenType} {hours : Int}
    {send : String → String → RawToken → AuthProg Unit}
    (h : Ledger threads s log) (huser : s.hasUser user.id)
    (hsend : ∀ email name token, (send email name token).Issues
      fun op : AuthOp => op.writesTokens = false) :
    alone (authSystem cfg) mailMayFail t request
      (fun _ _ s log => Ledger threads s log)
      (mailToken user channel? type hours send) amb s log := by
  show alone (authSystem cfg) mailMayFail t request _
    (await (.invalidateVerificationTokens user.id type amb.now) >>= fun _ =>
      createVerificationToken user.id type hours >>=
        mailTo user channel? send) amb s log
  apply alone_call (fun _ => rfl)
  · rintro _ _ _ ⟨⟩
  · intro amb₁ _ _ _
    apply createVerificationToken_alone h.invalidate huser
    intro rawToken amb₂ s₂ log₂ h₂
    cases channel? with
    | none => exact h₂
    | some channel => exact alone_keeps h₂ (hsend _ _ _)

/-- A user that was found is there. -/
theorem hasUser_of_found {email : String} {user : UserEntity}
    {channel? : Option Channel}
    (h : (Store.exec amb (.findUserByEmailWithChannel email) s).1
      = .ok (some (user, channel?))) : s.hasUser user.id := by
  have hfound : (s.userByEmail email).map (fun u =>
      (u.entity, s.channelOf u.id)) = some (user, channel?) :=
    Except.ok.inj h
  obtain ⟨u, hu, heq⟩ := Option.map_eq_some_iff.1 hfound
  cases heq
  exact ⟨u, List.mem_of_find?_eq_some hu, rfl⟩

theorem resendConfirmation_alone (email : String)
    (h : Ledger threads s log) :
    alone (authSystem cfg) mailMayFail t request
      (fun _ _ s log => Ledger threads s log) (resendConfirmation cfg email)
      amb s log := by
  apply alone_other h rfl (fun _ => rfl) (fun _ _ _ _ h' => h')
  intro amb₁ found hexec h₁
  have huser : ∀ user channel?, found = some (user, channel?) →
      (Store.exec amb₁ (.findUserByEmailWithChannel email) s).2.hasUser
        user.id :=
    fun user channel? hfound => hasUser_of_found (hfound ▸ hexec)
  cases found with
  | none => exact h₁
  | some found =>
      obtain ⟨user, channel?⟩ := found
      dsimp only
      split
      · exact h₁
      · exact mailToken_alone h₁ (huser user channel? rfl)
          fun _ _ _ => Prog.Issues.call (by exact rfl)

theorem forgotPassword_alone (email : String) (h : Ledger threads s log) :
    alone (authSystem cfg) mailMayFail t request
      (fun _ _ s log => Ledger threads s log) (forgotPassword cfg email)
      amb s log := by
  apply alone_other h rfl (fun _ => rfl) (fun _ _ _ _ h' => h')
  intro amb₁ found hexec h₁
  cases found with
  | none => exact h₁
  | some found =>
      obtain ⟨user, channel?⟩ := found
      exact mailToken_alone h₁ (hasUser_of_found hexec)
        fun _ _ _ => Prog.Issues.call (by exact rfl)

/-- Requests that consume no token keep the ledger. -/
theorem serve_keeps (hconsumes : request.consumes = none)
    (h : Ledger threads s log) :
    alone (authSystem cfg) mailMayFail t request
      (fun _ _ s log => Ledger threads s log) (serve cfg request) amb s
        log := by
  have hquiet : (∀ op, request.MayCall op → op.writesTokens = false) →
      alone (authSystem cfg) mailMayFail t request
        (fun _ _ s log => Ledger threads s log) (serve cfg request) amb s
          log :=
    fun hcalls => alone_keeps h ((serve_mayCall cfg request).mono hcalls)
  cases request with
  | confirm token => exact nomatch hconsumes
  | resetPassword dto => exact nomatch hconsumes
  | register dto =>
      exact alone_map (register_alone dto h) (fun _ _ _ _ h' => h')
        fun _ _ _ _ h' => h'
  | resendConfirmation email =>
      exact alone_map (resendConfirmation_alone email h)
        (fun _ _ _ _ h' => h') fun _ _ _ _ h' => h'
  | forgotPassword email =>
      exact alone_map (forgotPassword_alone email h)
        (fun _ _ _ _ h' => h') fun _ _ _ _ h' => h'
  | _ =>
      apply hquiet
      intro op hop
      cases op <;> first | rfl | exact hop.elim

end Issuing

end Videum.Auth
