import Videum.Auth.Consumption
import Videum.Auth.Registration
import Videum.Auth.Vouching

/-!
# Confirmed stays confirmed

`resetPassword` looks a user up, computes a password hash, and then saves the
whole user.  A `confirm` that saves the user in between is undone: the reset
writes back the flag it has read.  This module says that nothing else undoes
a confirmation.

## Main results

* `confirmed_since` — a user that was read unconfirmed and is confirmed now
  has been saved as confirmed in between.
* `confirmation_lasts_iff` — over every interleaving, confirmed users stay
  confirmed if and only if no save is stale.
* `confirmation_undone` — a `confirm` that returns and is undone.
-/

namespace Videum.Auth

open Videum.Async
open Videum.Common

/-! ## Stale saves -/

/-- The user a call has saved. -/
def AuthOp.savedUser : (op : AuthOp) → Except AuthError op.Res →
    Option UserEntity
  | .saveUser w, .ok _ => some w
  | _, _ => none

theorem AuthOp.eq_of_savedUser {op : AuthOp} {res : Except AuthError op.Res}
    {w : UserEntity} (h : op.savedUser res = some w) :
    op = .saveUser w ∧ res.isOk = true := by
  cases op with
  | saveUser w' =>
      cases res with
      | ok _ => exact ⟨congrArg _ (Option.some.inj h), rfl⟩
      | error e => exact nomatch h
  | _ => exact nomatch h

/-- The call has saved the user `id` as confirmed. -/
def confirms (id : Nat) (x : AuthEntry) : Bool :=
  (x.op.savedUser x.res).any fun w => w.id == id && w.is_confirmed

/-- The user `id` was saved as confirmed after thread `t` had got its first
answer, the lookup of its token. -/
def confirmedSince (t id : Nat) : AuthLog → Bool
  | [] => false
  | z :: older =>
      confirms id z && !(own t older).isEmpty || confirmedSince t id older

/-- The call saves a user as unconfirmed who was saved as confirmed since its
thread has looked the user up. -/
def isStale (x : AuthEntry) (older : AuthLog) : Bool :=
  (x.op.savedUser x.res).any fun w =>
    !w.is_confirmed && confirmedSince x.tid w.id older

/-- No save of the run is stale. -/
abbrev NoStaleSave (log : AuthLog) : Prop :=
  Throughout (fun x older => isStale x older = false) log

/-- Who is confirmed in `s` is there, and confirmed, in `s'`. -/
def StaysConfirmed (s s' : Store) : Prop :=
  ∀ u ∈ s.users.rows, u.is_confirmed = true →
    ∃ u' ∈ s'.users.rows, u'.id = u.id ∧ u'.is_confirmed = true

theorem StaysConfirmed.refl (s : Store) : StaysConfirmed s s :=
  fun u hu hconfirmed => ⟨u, hu, rfl, hconfirmed⟩

theorem StaysConfirmed.trans {a b c : Store} (h₁ : StaysConfirmed a b)
    (h₂ : StaysConfirmed b c) : StaysConfirmed a c := by
  intro u hu hconfirmed
  obtain ⟨u₁, hu₁, hid₁, hconfirmed₁⟩ := h₁ u hu hconfirmed
  obtain ⟨u₂, hu₂, hid₂, hconfirmed₂⟩ := h₂ u₁ hu₁ hconfirmed₁
  exact ⟨u₂, hu₂, hid₂.trans hid₁, hconfirmed₂⟩

theorem confirms_iff {id : Nat} {x : AuthEntry} :
    confirms id x = true ↔ ∃ w, x.op.savedUser x.res = some w ∧ w.id = id ∧
      w.is_confirmed = true := by
  unfold confirms
  rw [Option.any_eq_true]
  simp only [Bool.and_eq_true, beq_iff_eq]

theorem confirmedSince_iff {t id : Nat} {log : AuthLog} :
    confirmedSince t id log = true ↔ ∃ z older, (z :: older) <:+ log ∧
      confirms id z = true ∧ own t older ≠ [] := by
  induction log with
  | nil =>
      refine ⟨nofun, ?_⟩
      rintro ⟨z, older, hs, _⟩
      exact absurd (List.suffix_nil.1 hs) (List.cons_ne_nil z older)
  | cons x log ih =>
      unfold confirmedSince
      rw [Bool.or_eq_true, Bool.and_eq_true, Bool.not_eq_true',
        List.isEmpty_eq_false_iff, ih]
      constructor
      · rintro (⟨hconfirms, hown⟩ | ⟨z, older, hs, hrest⟩)
        · exact ⟨x, log, List.suffix_refl _, hconfirms, hown⟩
        · exact ⟨z, older, hs.trans (List.suffix_cons x log), hrest⟩
      · rintro ⟨z, older, hs, hconfirms, hown⟩
        rcases List.suffix_cons_iff.1 hs with heq | hs
        · cases heq
          exact .inl ⟨hconfirms, hown⟩
        · exact .inr ⟨z, older, hs, hconfirms, hown⟩

theorem isStale_iff {x : AuthEntry} {older : AuthLog} :
    isStale x older = true ↔ ∃ w, x.op.savedUser x.res = some w ∧
      w.is_confirmed = false ∧ confirmedSince x.tid w.id older = true := by
  unfold isStale
  rw [Option.any_eq_true]
  simp only [Bool.and_eq_true, Bool.not_eq_true']

/-! ## One call -/

/-- What a save leaves in the row of the user. -/
theorem flag_of_saved {s : Store} {w : UserEntity} {row : User}
    (h : row ∈ (s.saveUser w).users.rows) (hid : row.id = w.id) :
    row.is_confirmed = w.is_confirmed := by
  obtain ⟨old, hold, rfl⟩ := List.mem_map.1 h
  rw [w.write_id] at hid
  unfold UserEntity.write
  rw [if_pos hid]

/-- A call leaves the confirmed users confirmed, when it does not save one of
them as unconfirmed and does not delete one that nothing references. -/
theorem staysConfirmed_exec {m : Moment} {op : AuthOp} {s : Store}
    (hsave : ∀ w, op = .saveUser w → w.is_confirmed = false →
      ∀ u ∈ s.users.rows, u.id = w.id → u.is_confirmed = false)
    (hdelete : ∀ u ∈ s.users.rows, op = .deleteUser u.id →
      u.is_confirmed = true → s.referenced u.id = true) :
    StaysConfirmed s (Store.exec m op s).2 := by
  intro u hu hconfirmed
  have hkept : (Store.exec m op s).2.users = s.users →
      ∃ u' ∈ (Store.exec m op s).2.users.rows, u'.id = u.id ∧
        u'.is_confirmed = true := by
    intro heq
    rw [heq]
    exact ⟨u, hu, rfl, hconfirmed⟩
  cases op with
  | insertUser email password =>
      show ∃ u' ∈ (s.insertUser email password).2.users.rows, _
      rcases insertUser_cases s email password with heq | heq
      · rw [heq]
        exact ⟨u, hu, rfl, hconfirmed⟩
      · rw [heq]
        exact ⟨u, (Table.mem_insert (h := rfl)).2 (.inl hu), rfl, hconfirmed⟩
  | saveUser w =>
      refine ⟨w.write u, List.mem_map.2 ⟨u, hu, rfl⟩, w.write_id u, ?_⟩
      unfold UserEntity.write
      split
      · next hid =>
          by_contra hnot
          rw [Bool.not_eq_true] at hnot
          rw [hsave w rfl hnot u hu hid] at hconfirmed
          exact nomatch hconfirmed
      · exact hconfirmed
  | deleteUser id =>
      simp only [Store.exec, Store.deleteUser]
      split
      · exact ⟨u, hu, rfl, hconfirmed⟩
      · next hfree =>
          refine ⟨u, Table.mem_delete.2 ⟨hu, ?_⟩, rfl, hconfirmed⟩
          rw [beq_eq_false_iff_ne]
          rintro rfl
          exact hfree (hdelete u hu rfl hconfirmed)
  | _ => exact hkept (users_exec m s (by rfl))

/-! ## Runs -/

section Runs

variable {cfg : AuthConfig} {P : AuthPolicy} {s₀ : Store} {b c : AuthRun}

/-- A user that was unconfirmed and is confirmed now has been saved as
confirmed in between. -/
theorem confirmed_since
    (hstart : s₀.verification_tokens.Distinct VerificationToken.token_hash)
    (h : Reachable (authSystem cfg) P s₀ b)
    (hs : Steps (authSystem cfg) P b c) {id : Nat}
    (hnot : ∀ u ∈ b.state.users.rows, u.id = id → u.is_confirmed = false)
    {u : User} (hu : u ∈ c.state.users.rows) (hid : u.id = id)
    (hconfirmed : u.is_confirmed = true) :
    ∃ z older, (z :: older) <:+ c.log ∧ b.log <:+ older ∧
      confirms id z = true := by
  induction hs generalizing u with
  | refl =>
      rw [hnot u hu hid] at hconfirmed
      exact nomatch hconfirmed
  | @tail d d' hd hstep ih =>
      have hreach : Reachable (authSystem cfg) P s₀ d := h.steps hd
      have hnext : Reachable (authSystem cfg) P s₀ d' :=
        Relation.ReflTransGen.tail hreach hstep
      cases hstep with
      | spawn request amb _ => exact ih hu hid hconfirmed
      | @perform t request op k amb fault hthread hguard hfault =>
          have hlater : (∃ z older, (z :: older) <:+ d.log ∧ b.log <:+ older ∧
              confirms id z = true) → ∃ z older, (z :: older) <:+
                (authSystem cfg).entry t request amb op fault d.state :: d.log ∧
                b.log <:+ older ∧ confirms id z = true := by
            rintro ⟨z, older, hz, hrest⟩
            exact ⟨z, older, hz.trans (List.suffix_cons _ _), hrest⟩
          cases fault with
          | some e => exact hlater (ih hu hid hconfirmed)
          | none =>
              have hlaw : Consuming d.log t request op :=
                (tokens_of_reachable hstart hnext).1.2.newest rfl
              have horigin := users_origin (by
                rintro w rfl
                exact (addresses_of_reachable hstart hreach).saved hlaw) hu
              rcases horigin with
                ⟨row, hrow, hrowid, _, hfrom⟩ | ⟨_, _, _, _, _, hnew⟩
              · rcases hfrom hconfirmed with hold | ⟨w, rfl, hwid, hw⟩
                · exact hlater (ih hrow (hrowid.symm.trans hid) hold)
                · refine ⟨_, d.log, List.suffix_refl _, Steps.log_suffix hd, ?_⟩
                  exact confirms_iff.2
                    ⟨w, rfl, hwid.trans (hrowid.symm.trans hid), hw⟩
              · rw [hnew] at hconfirmed
                exact nomatch hconfirmed

/-- A save of an unconfirmed user that is not stale finds the user
unconfirmed. -/
theorem unconfirmed_of_saved
    (hstart : s₀.verification_tokens.Distinct VerificationToken.token_hash)
    (h : Reachable (authSystem cfg) P s₀ c) {t : Nat} {request : AuthRequest}
    {w : UserEntity} (hlaw : Consuming c.log t request (.saveUser w))
    (hw : w.is_confirmed = false)
    (hfresh : confirmedSince t w.id c.log = false) :
    ∀ u ∈ c.state.users.rows, u.id = w.id → u.is_confirmed = false := by
  intro u hu hid
  by_contra hconfirmed
  rw [Bool.not_eq_false] at hconfirmed
  obtain ⟨⟨x, hx, r, v, hread, hstores⟩, _⟩ := hlaw
  obtain ⟨hxlog, hxtid⟩ := mem_own.1 hx
  -- the reset has read the user unconfirmed
  have hv : v.is_confirmed = false := by
    cases request with
    | confirm token =>
        rw [show w = { v with is_confirmed := true } from hstores] at hw
        exact nomatch hw
    | resetPassword dto =>
        obtain ⟨hash, rfl⟩ := hstores
        exact hw
    | _ => exact hstores.elim
  obtain ⟨older, hsuffix⟩ := older_of_mem hxlog
  obtain ⟨a, fault, k, ha, rfl, hat, hsteps⟩ := h.split_at hsuffix
  obtain ⟨tokenHash, type, hop⟩ := AuthOp.eq_of_foundToken hread.found
  have hseen := AuthOp.seenUser_of_found hread.found
  have hexec := h.entry_exec_of_ok hxlog (AuthOp.isOk_of_foundToken hread.found)
  rw [hexec.1] at hseen
  have hbefore : x.before = a.state := hat.before_eq
  have hunconfirmed : ∀ row ∈ a.state.users.rows, row.id = w.id →
      row.is_confirmed = false := by
    intro row hrow hrowid
    rcases seenUser_exec hseen with ⟨row₀, hrow₀, hid₀, _, hflag⟩ | ⟨hnew, _, _⟩
    · rw [hbefore] at hrow₀
      have heq := a.state.users.unique hrow hrow₀
        (hrowid.trans (hstores.same.1.trans hid₀.symm))
      rw [heq, hflag, hv]
    · have hlt := a.state.users.keys_lt row hrow
      rw [hrowid, hstores.same.1, hnew, hbefore] at hlt
      exact absurd hlt (Nat.lt_irrefl _)
  have hreach : Reachable (authSystem cfg) P s₀ ((authSystem cfg).perform a
      x.tid x.request x.amb x.op k fault) :=
    Relation.ReflTransGen.tail ha hat.step
  have hafter : ((authSystem cfg).perform a x.tid x.request x.amb x.op k
      fault).state.users = a.state.users := by
    show ((authSystem cfg).answer x.amb x.op fault a.state).2.users = _
    cases fault with
    | some e => rfl
    | none => exact users_exec x.amb a.state (by rw [hop]; rfl)
  obtain ⟨z, mid, hz, hmid, hconfirms⟩ := confirmed_since hstart hreach hsteps
    (by rw [hafter]; exact hunconfirmed) hu hid hconfirmed
  have hsince : confirmedSince t w.id c.log = true := by
    apply confirmedSince_iff.2
    refine ⟨z, mid, hz, hconfirms, ?_⟩
    have hmem : (authSystem cfg).entry x.tid x.request x.amb x.op fault a.state
        ∈ own t mid := mem_own.2 ⟨hmid.subset (.head _), hxtid⟩
    exact List.ne_nil_of_mem hmem
  rw [hfresh] at hsince
  exact nomatch hsince

/-- A call that neither saves a user stale nor fails keeps the confirmed users
confirmed. -/
theorem staysConfirmed_step
    (hstart : s₀.verification_tokens.Distinct VerificationToken.token_hash)
    (h : Reachable (authSystem cfg) P s₀ b) {t : Nat} {request : AuthRequest}
    {op : AuthOp} (m : Moment) (hlaw : Consuming b.log t request op)
    (hregister : Registering b.log t request op)
    (hfresh : ∀ w, op = .saveUser w → w.is_confirmed = false →
      confirmedSince t w.id b.log = false) :
    StaysConfirmed b.state (Store.exec m op b.state).2 := by
  apply staysConfirmed_exec
  · rintro w rfl hw
    exact unconfirmed_of_saved hstart h hlaw hw (hfresh w rfl hw)
  · rintro u hu rfl hconfirmed
    obtain ⟨x, hx, hadded⟩ := hregister
    have hnew := (added_range h).2 u.id ⟨x, (mem_own.1 hx).1, hadded⟩
    exact referenced_of_confirmed hstart h hu hconfirmed hnew.1

/-- Without stale saves the confirmed users stay confirmed. -/
theorem staysConfirmed_of_noStaleSave
    (hstart : s₀.verification_tokens.Distinct VerificationToken.token_hash)
    (h : Reachable (authSystem cfg) P s₀ b)
    (hs : Steps (authSystem cfg) P b c) (hfresh : NoStaleSave c.log) :
    StaysConfirmed b.state c.state := by
  induction hs with
  | refl => exact .refl _
  | @tail d d' hd hstep ih =>
      have hreach : Reachable (authSystem cfg) P s₀ d := h.steps hd
      have hnext : Reachable (authSystem cfg) P s₀ d' :=
        Relation.ReflTransGen.tail hreach hstep
      cases hstep with
      | spawn request amb _ => exact ih hfresh
      | @perform t request op k amb fault hthread hguard hfault =>
          have hprefix := ih hfresh.2
          cases fault with
          | some e => exact hprefix
          | none =>
              have hlaw : Consuming d.log t request op :=
                (tokens_of_reachable hstart hnext).1.2.newest rfl
              have hregister : Registering d.log t request op :=
                (registrations_of_reachable hnext).1.newest rfl
              apply hprefix.trans
              apply staysConfirmed_step hstart hreach amb hlaw hregister
              rintro w rfl hw
              by_contra hsince
              rw [Bool.not_eq_false] at hsince
              have hstale : isStale ((authSystem cfg).entry t request amb
                  (.saveUser w) none d.state) d.log = true :=
                isStale_iff.2 ⟨w, rfl, hw, hsince⟩
              rw [hfresh.1] at hstale
              exact nomatch hstale

/-- A save writes the flag into the row of the user, which is there. -/
theorem row_of_saved
    (hstart : s₀.verification_tokens.Distinct VerificationToken.token_hash)
    (howners : TokenOwners s₀) (h : Reachable (authSystem cfg) P s₀ c)
    {x : AuthEntry} {older : AuthLog} (hx : (x :: older) <:+ c.log)
    {w : UserEntity} (hsaved : x.op.savedUser x.res = some w) :
    ∃ b : AuthRun, Reachable (authSystem cfg) P s₀ b ∧
      Steps (authSystem cfg) P b c ∧ b.log = x :: older ∧
      (∃ u ∈ b.state.users.rows, u.id = w.id ∧
        u.is_confirmed = w.is_confirmed) ∧
      ∀ u ∈ b.state.users.rows, u.id = w.id →
        u.is_confirmed = w.is_confirmed := by
  obtain ⟨hop, hok⟩ := AuthOp.eq_of_savedUser hsaved
  obtain ⟨a, fault, k, ha, rfl, hat, hsteps⟩ := h.split_at hx
  have hlaw := (tokens_of_reachable hstart h).1.2 x a.log hx
  rw [hop] at hlaw
  obtain ⟨r, hr, huser⟩ := token_of_lawful hstart ha hlaw
  obtain ⟨u, hu, hid⟩ := tokenOwners_of_reachable hstart howners ha r hr
  have hafter : ((authSystem cfg).perform a x.tid x.request x.amb x.op k
      fault).state = a.state.saveUser w := by
    cases fault with
    | some e =>
        rw [hat.eq] at hok
        exact nomatch hok
    | none =>
        show (Store.exec x.amb x.op a.state).2 = _
        rw [hop]
        rfl
  refine ⟨_, Relation.ReflTransGen.tail ha hat.step, hsteps, ?_, ?_, ?_⟩
  · exact hat.log_eq
  · rw [hafter]
    have hmem : w.write u ∈ (a.state.saveUser w).users.rows :=
      List.mem_map.2 ⟨u, hu, rfl⟩
    have hwid : (w.write u).id = w.id := by
      rw [w.write_id, hid, huser]
    exact ⟨w.write u, hmem, hwid, flag_of_saved hmem hwid⟩
  · rw [hafter]
    exact fun u hu hid => flag_of_saved hu hid

/-- A stale save undoes a confirmation. -/
theorem undone_of_isStale
    (hstart : s₀.verification_tokens.Distinct VerificationToken.token_hash)
    (howners : TokenOwners s₀) (h : Reachable (authSystem cfg) P s₀ c)
    {x : AuthEntry} {older : AuthLog} (hx : (x :: older) <:+ c.log)
    (hstale : isStale x older = true) :
    ∃ b b' : AuthRun, Reachable (authSystem cfg) P s₀ b ∧
      Steps (authSystem cfg) P b b' ∧ Steps (authSystem cfg) P b' c ∧
      ¬ StaysConfirmed b.state b'.state := by
  obtain ⟨w, hsaved, hw, hsince⟩ := isStale_iff.1 hstale
  obtain ⟨z, mid, hz, hconfirms, _⟩ := confirmedSince_iff.1 hsince
  obtain ⟨v, hvsaved, hvid, hv⟩ := confirms_iff.1 hconfirms
  obtain ⟨b', hb', hsteps', hlog', _, hflag⟩ :=
    row_of_saved hstart howners h hx hsaved
  have hz' : (z :: mid) <:+ b'.log := by
    rw [hlog']
    exact hz.trans (List.suffix_cons x older)
  obtain ⟨b, hb, hsteps, _, ⟨u, hu, hid, hconfirmed⟩, _⟩ :=
    row_of_saved hstart howners hb' hz' hvsaved
  refine ⟨b, b', hb, hsteps, hsteps', ?_⟩
  intro hstays
  obtain ⟨u', hu', hid', hconfirmed'⟩ := hstays u hu (hconfirmed.trans hv)
  rw [hflag u' hu' (hid'.trans (hid.trans hvid)), hw] at hconfirmed'
  exact nomatch hconfirmed'

/-! ## Confirming -/

/-- The user of the token is confirmed. -/
def ConfirmedOf (s : Store) (token : RawToken) : Prop :=
  ∃ r ∈ s.verification_tokens.rows, r.token_hash = hashToken token ∧
    ∃ u ∈ s.users.rows, u.id = r.user_id ∧ u.is_confirmed = true

/-- Thread `t` has saved a user as confirmed. -/
def HasConfirmed (t : Nat) (log : AuthLog) : Prop :=
  ∃ x ∈ own t log, ∃ w, x.op.savedUser x.res = some w ∧ w.is_confirmed = true

/-- A `confirm` that returns has saved a user as confirmed. -/
theorem confirm_saves {t : Nat} {request : AuthRequest} (token : RawToken)
    (amb : Moment) (log : AuthLog) :
    vouching cfg P t request
      (fun result _ log => result.isOk = true → HasConfirmed t log)
      (confirm token) amb log := by
  have herror : ∀ (e : AuthError) (amb : Moment) (log : AuthLog),
      (fun (result : Except AuthError Unit) (_ : Moment) log =>
        result.isOk = true → HasConfirmed t log) (.error e) amb log :=
    fun _ _ _ => nofun
  unfold confirm consumeVerificationToken
  rw [Prog.bind_assoc]
  apply quiet_call_wp rfl herror
  intro log₁ s₁ amb₁ record? _ _
  cases record? with
  | none => exact herror _ amb₁ _
  | some found =>
      obtain ⟨record, user⟩ := found
      show vouching cfg P t request _
        ((if record.expires_at < amb₁.now then
          Prog.throw (.domain .TokenExpired)
          else Prog.pure ({ record with used_at := some amb₁.now }, user))
          >>= _) amb₁ _
      split
      · exact herror _ amb₁ _
      · apply wpLaw_promiseAll (vouched_kept_by cfg P)
        · rintro op (rfl | rfl) log' _ <;> trivial
        · rintro op x (⟨rfl, _⟩ | ⟨rfl, _⟩) log' _ <;> trivial
        · intro r amb₂ log₂ x y hown hboth hok hreturned
          have hresult : r = .ok () := by
            cases r with
            | ok v => rfl
            | error e => exact nomatch hreturned
          obtain ⟨hx, hy⟩ := hok hresult
          have hsaved : ∀ z : AuthEntry, z ∈ own t log₂ →
              z.op = .saveUser { user with is_confirmed := true } →
              z.res.isOk = true → HasConfirmed t log₂ := by
            rintro ⟨tid, req, amb, op, before, res, after⟩ hz rfl hzok
            refine ⟨_, hz, { user with is_confirmed := true }, ?_, rfl⟩
            cases res with
            | ok v => rfl
            | error e => exact nomatch hzok
          rcases hboth with ⟨_, hop⟩ | ⟨hop, _⟩
          · apply hsaved x ?_ hop hx
            rw [hown]
            exact .tail _ (.head _)
          · apply hsaved y ?_ hop hy
            rw [hown]
            exact .head _

/-- So does every `confirm` of a run that has returned. -/
theorem hasConfirmed_of_returned (h : Reachable (authSystem cfg) P s₀ c)
    {t : Nat} {token : RawToken}
    (hth : c.threads[t]? = some ⟨.confirm token, .pure .done⟩) :
    HasConfirmed t c.log := by
  have hsafe : ∀ t th, c.threads[t]? = some th → ThreadSafe (authSystem cfg) P
      (Lawful (fun _ _ => True) Vouched)
      (fun t request result _ log => ∀ token, request = .confirm token →
        result.isOk = true → HasConfirmed t log) t th c.log := by
    apply (h.lawful_threads trivial ?_).2
    intro b request amb hb _ _
    have hown := hb.own_arriving
    cases request with
    | confirm token =>
        apply wp_map (confirm_saves token amb b.log)
        · exact fun _ _ _ hsaves _ _ _ => hsaves rfl
        · exact fun _ _ _ _ _ _ => nofun
    | _ =>
        apply wp_mono ?_ (vouched_wp cfg P _ _ amb b.log hown)
        exact fun _ _ _ _ _ => nofun
  obtain ⟨amb, mine, hothers, hpost⟩ := (hsafe t _ hth).returned rfl
  have hsaves := hpost token rfl rfl
  unfold HasConfirmed at hsaves ⊢
  rw [hothers.own_eq]
  exact hsaves

/-- Without stale saves, a `confirm` that has returned is not lost. -/
theorem confirmedOf_of_returned
    (hstart : s₀.verification_tokens.Distinct VerificationToken.token_hash)
    (howners : TokenOwners s₀) (h : Reachable (authSystem cfg) P s₀ c)
    (hfresh : NoStaleSave c.log) {t : Nat} {token : RawToken}
    (hth : c.threads[t]? = some ⟨.confirm token, .pure .done⟩) :
    ConfirmedOf c.state token := by
  obtain ⟨x, hx, w, hsaved, hw⟩ := hasConfirmed_of_returned h hth
  obtain ⟨hxlog, hxtid⟩ := mem_own.1 hx
  obtain ⟨hinv, hobeyed⟩ := (tokens_of_reachable hstart h).1
  obtain ⟨older, hs, hlaw⟩ := hobeyed.at_mem hxlog
  rw [(AuthOp.eq_of_savedUser hsaved).1] at hlaw
  obtain ⟨⟨y, hy, r, v, hread, hstores⟩, _⟩ := hlaw
  have hy' := own_mono ((List.suffix_cons x older).trans hs) hy
  obtain ⟨hylog, hytid⟩ := mem_own.1 hy'
  obtain ⟨raw, hconsumes, hhash, _, _, huser⟩ :=
    readUnused_before hstart h hylog hread
  have hrequest : y.request = .confirm token := by
    rw [← hxtid, ← hytid] at hth
    exact h.logOwned.request_of_thread hylog hth
  rw [hrequest] at hconsumes
  obtain ⟨heq, _⟩ := Prod.mk.inj (Option.some.inj hconsumes)
  subst heq
  obtain ⟨r', hr', hlater⟩ := hinv.known y hylog r
    (AuthOp.knownToken_of_found hread.found)
  obtain ⟨b, hb, hsteps, _, ⟨u, hu, hid, hconfirmed⟩, _⟩ :=
    row_of_saved hstart howners h hs hsaved
  obtain ⟨u', hu', hid', hconfirmed'⟩ := staysConfirmed_of_noStaleSave hstart hb
    hsteps hfresh u hu (hconfirmed.trans hw)
  refine ⟨r', hr', hlater.token_hash.trans hhash, u', hu', ?_, hconfirmed'⟩
  rw [hid', hid, hstores.same.1, huser, hlater.user_id]

/--
**When a confirmation lasts.**  Over every interleaving of all requests,
whatever fails: confirmed users stay confirmed from every state to every later
one, and no `confirm` that has returned is lost, if and only if no call saves a
user as unconfirmed who was saved as confirmed since it looked the user up.
-/
theorem confirmation_lasts_iff
    (hstart : s₀.verification_tokens.Distinct VerificationToken.token_hash)
    (howners : TokenOwners s₀) (h : Reachable (authSystem cfg) anyRun s₀ c) :
    ((∀ b b' : AuthRun, Reachable (authSystem cfg) anyRun s₀ b →
      Steps (authSystem cfg) anyRun b b' → Steps (authSystem cfg) anyRun b' c →
        StaysConfirmed b.state b'.state) ∧
      ∀ (t : Nat) (token : RawToken),
        c.threads[t]? = some ⟨.confirm token, .pure .done⟩ →
          ConfirmedOf c.state token) ↔ NoStaleSave c.log := by
  constructor
  · rintro ⟨hstays, _⟩
    apply throughout_of_suffix
    intro x older hx
    by_contra hstale
    rw [Bool.not_eq_false] at hstale
    obtain ⟨b, b', hb, hsteps, hsteps', hnot⟩ :=
      undone_of_isStale hstart howners h hx hstale
    exact hnot (hstays b b' hb hsteps hsteps')
  · intro hfresh
    constructor
    · intro b b' hb hsteps hsteps'
      exact staysConfirmed_of_noStaleSave hstart hb hsteps
        (hfresh.suffix (Steps.log_suffix hsteps'))
    · exact fun t token hth =>
        confirmedOf_of_returned hstart howners h hfresh hth

end Runs

def unconfirmedUser : User :=
  ⟨0, sampleEmail, ⟨"correctpassword", 0⟩, false⟩

/-- An unconfirmed user with a channel. -/
def unconfirmedStore : Store where
  users := ({} : Table User User.id).insert unconfirmedUser rfl
  channels := ({} : Table Channel Channel.id).insert sampleChannel
    id_sampleChannel

/-- The tokens for a confirmation and for a reset are mailed. -/
def bothMailed : List AuthTick :=
  Tick.serve (.resendConfirmation sampleEmail) 0 4 { bytes := 6 } ++
    Tick.serve (.forgotPassword sampleEmail) 1 4 { bytes := 7 }

/-- The address is confirmed, and then the password is reset. -/
def confirmedFirst : AuthRun :=
  authRun anyRun unconfirmedStore
    (bothMailed ++ Tick.serve (.confirm (.hex 6)) 2 3 { now := 1000 } ++
      Tick.serve (resetRequest "first password" firstPassword_length) 3 5
        { now := 2000 })
    (by decide)

theorem confirmation_lasts_of_confirmedFirst :
    confirmedFirst.threads[2]? = some ⟨.confirm (.hex 6), .pure .done⟩ ∧
    ConfirmedOf confirmedFirst.state (.hex 6) := by
  have hreach : Reachable (authSystem sampleConfig) anyRun unconfirmedStore
      confirmedFirst :=
    reachable_authRun _ (by decide)
      (admitted_of_accepts (fun _ _ => trivial) _ _)
  have hreturned : confirmedFirst.threads[2]? =
      some ⟨.confirm (.hex 6), .pure .done⟩ := by rfl
  have howners : TokenOwners unconfirmedStore := fun r hr => nomatch hr
  refine ⟨hreturned, ?_⟩
  exact ((confirmation_lasts_iff (by decide) howners hreach).2
    (by decide)).2 2 (.hex 6) hreturned

/-- The address is confirmed while a reset computes its hash. -/
def confirmedMeanwhile : AuthRun :=
  authRun anyRun unconfirmedStore
    (bothMailed ++
      Tick.serve (resetRequest "first password" firstPassword_length) 2 1
        { now := 1000 } ++
      Tick.serve (.confirm (.hex 6)) 3 3 { now := 1100 })
    (by decide)

/-- Then the reset saves the user it has looked up. -/
def savedBack : AuthRun :=
  authRunFrom anyRun confirmedMeanwhile (Tick.answers 2 4 { now := 1200 })
    (by decide)

/-- The `confirm` has returned, and its user is unconfirmed again. -/
theorem confirmation_undone :
    Reachable (authSystem sampleConfig) anyRun unconfirmedStore
      confirmedMeanwhile ∧
    confirmedMeanwhile.threads[3]? =
      some ⟨.confirm (.hex 6), .pure .done⟩ ∧
    confirmedMeanwhile.state.users.rows.map (·.is_confirmed) = [true] ∧
    Steps (authSystem sampleConfig) anyRun confirmedMeanwhile
      savedBack ∧
    savedBack.threads[2]? =
      some ⟨resetRequest "first password" firstPassword_length, .pure .done⟩ ∧
    savedBack.state.users.rows.map (·.is_confirmed) = [false] := by
  refine ⟨?_, by rfl, by decide, ?_, by rfl, by decide⟩
  · exact reachable_authRun _ _ (admitted_of_accepts (fun _ _ => trivial) _ _)
  · exact steps_authRunFrom _ _ (admitted_of_accepts (fun _ _ => trivial) _ _)

end Videum.Auth
