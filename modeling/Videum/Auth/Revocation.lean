import Videum.Auth.Rotation

/-!
# Signing out

A logout, and the end of a password reset, revoke every unrevoked record of
the user with one `UPDATE`.  A refresh that has read a record live before it
still inserts the successor after it, and so does a login that has checked
the password before it was changed.  This module says when a family is gone
for good, over every interleaving and whatever fails.

## Main results

* `Dead.steps` — a family all of whose records are revoked, and to which no
  call is about to add one, stays so.
* `revocation_final` — a family that is settled when the `UPDATE` runs never
  refreshes again.
* `revocation_overtaken` — a rotation in flight survives a logout.
-/

namespace Videum.Auth

open Videum.Async

/-! ## Dead families -/

/-- No rotation in the family is under way: whoever has read a record of it
live has inserted the successor. -/
def NoRotation (log : AuthLog) (family : Nat) : Prop :=
  ∀ y ∈ log, ∀ r ∈ liveRecord y, r.family = family →
    ∃ z ∈ own y.tid log, z.op.insertsRecord = true

instance (log : AuthLog) (family : Nat) : Decidable (NoRotation log family) :=
  inferInstanceAs (Decidable (∀ y ∈ log, ∀ r ∈ liveRecord y,
    r.family = family → ∃ z ∈ own y.tid log, z.op.insertsRecord = true))

/-- Nobody will add a record to the family: whoever has read a record of it
live has ended or has inserted the successor. -/
def Quiet (c : AuthRun) (family : Nat) : Prop :=
  ∀ y ∈ c.log, ∀ r ∈ liveRecord y, r.family = family →
    (∃ th, c.threads[y.tid]? = some th ∧ th.prog.running = false) ∨
      ∃ z ∈ own y.tid c.log, z.op.insertsRecord = true

/-- All records of the family are revoked, and nobody will add one. -/
structure Dead (c : AuthRun) (family : Nat) : Prop where
  opened : ∃ r ∈ c.state.refresh_tokens.rows, r.family = family
  revoked : ∀ r ∈ c.state.refresh_tokens.rows, r.family = family →
    r.revoked_at ≠ none
  quiet : Quiet c family

section Runs

variable {cfg : AuthConfig} {P : AuthPolicy} {s₀ : Store} {c c' : AuthRun}
  {family : Nat}

theorem Dead.step (hstart : s₀.refresh_tokens.rows = [])
    (h : Reachable (authSystem cfg) P s₀ c) (hdead : Dead c family)
    (hstep : Step (authSystem cfg) P c c') : Dead c' family := by
  have hnext : Reachable (authSystem cfg) P s₀ c' := h.tail hstep
  have hrecords : Records c.state c.log := (records_of_reachable hstart h).1.1
  have hobeyed : Obeyed Orderly c'.log := (records_of_reachable hstart hnext).1.2
  cases hstep with
  | spawn request amb _ =>
      refine ⟨hdead.opened, hdead.revoked, ?_⟩
      intro y hy r hr hfamily
      apply (hdead.quiet y hy r hr hfamily).imp_left
      rintro ⟨th, hth, hstopped⟩
      exact ⟨th, System.spawn_thread hth request amb, hstopped⟩
  | @perform t request op k amb fault hthread hguard hfault =>
      have hlaw : Orderly c.log t request op :=
        hobeyed _ _ (List.suffix_refl _)
      have hsuffix : c.log <:+ ((authSystem cfg).perform c t request amb op k
        fault).log := List.suffix_cons _ _
      have hquiet : Quiet ((authSystem cfg).perform c t request amb op k
          fault) family := by
        intro y hy r hr hfamily
        have hread := readLive_iff.2 hr
        rcases List.mem_cons.1 hy with rfl | hy
        · exfalso
          cases fault with
          | some e => exact nomatch AuthOp.isOk_of_found hread.found
          | none =>
              obtain ⟨tokenHash, hop⟩ := AuthOp.eq_of_found hread.found
              have hop' : op = .findRefreshToken tokenHash := hop
              subst hop'
              have hmem := (mem_of_found (m := amb) hread.found).1
              exact hdead.revoked r hmem hfamily hread.unrevoked
        · rcases hdead.quiet y hy r hr hfamily with
            ⟨th, hth, hstopped⟩ | ⟨z, hz, hinserts⟩
          · left
            refine ⟨th, System.perform_thread_ne hth ?_ .., hstopped⟩
            rintro rfl
            rw [hth] at hthread
            cases hthread
            exact nomatch hstopped
          · exact .inr ⟨z, own_mono hsuffix hz, hinserts⟩
      cases fault with
      | some e => exact ⟨hdead.opened, hdead.revoked, hquiet⟩
      | none =>
          have hages := hlaw.ages hrecords
          refine ⟨?_, ?_, hquiet⟩
          · obtain ⟨r, hr, hfamily⟩ := hdead.opened
            obtain ⟨r', hr', hlater⟩ := records_kept amb hages hr
            exact ⟨r', hr', hlater.family.trans hfamily⟩
          · intro r' hr' hfamily hnone
            rcases records_exec hages hr' with ⟨r, hr, hlater⟩ | ⟨n, hn, hnew⟩
            · exact hdead.revoked r hr (hlater.family.symm.trans hfamily)
                (hlater.revoked hnone)
            · -- nobody may insert: not a login, and no refresh any more
              have hop := AuthOp.eq_of_added hn
              subst hop
              have hnf : n.family = family := by
                rw [hnew] at hfamily
                exact hfamily
              obtain ⟨_, ⟨dto, rfl⟩ | ⟨_, ⟨w, hw, r, hread, hwf, _⟩, hfirst⟩⟩ :=
                hlaw
              · obtain ⟨r₀, hr₀, hf₀⟩ := hdead.opened
                have hfresh : freshRandomness (.login dto)
                  (.insertRefreshToken n) c.state = true := hguard
                exact fresh_family hfresh hr₀ (hf₀.trans hnf.symm)
              · obtain ⟨hwlog, hwtid⟩ := mem_own.1 hw
                rcases hdead.quiet w hwlog r (readLive_iff.1 hread)
                  (hwf.symm.trans hnf) with
                  ⟨th, hth, hstopped⟩ | ⟨z, hz, hinserts⟩
                · rw [hwtid, hthread] at hth
                  cases hth
                  exact nomatch hstopped
                · rw [hwtid] at hz
                  rw [hfirst z hz] at hinserts
                  exact nomatch hinserts

/-- A dead family stays dead. -/
theorem Dead.steps (hstart : s₀.refresh_tokens.rows = [])
    (h : Reachable (authSystem cfg) P s₀ c) (hdead : Dead c family)
    (hsteps : Steps (authSystem cfg) P c c') : Dead c' family := by
  induction hsteps with
  | refl => exact hdead
  | tail hprefix hstep ih => exact ih.step hstart (h.steps hprefix) hstep

/-- Records are never lost. -/
theorem records_steps (hstart : s₀.refresh_tokens.rows = [])
    (h : Reachable (authSystem cfg) P s₀ c)
    (hsteps : Steps (authSystem cfg) P c c') {r : RefreshToken}
    (hr : r ∈ c.state.refresh_tokens.rows) :
    ∃ r' ∈ c'.state.refresh_tokens.rows, r.Later r' := by
  induction hsteps with
  | refl => exact ⟨r, hr, .refl r⟩
  | @tail b b' hprefix hstep ih =>
      obtain ⟨r', hr', hlater⟩ := ih
      have hb := h.steps hprefix
      have hnext : Reachable (authSystem cfg) P s₀ b' := hb.tail hstep
      cases hstep with
      | spawn request amb _ => exact ⟨r', hr', hlater⟩
      | @perform t request op k amb fault hthread hguard hfault =>
          have hlaw : Orderly b.log t request op :=
            (records_of_reachable hstart hnext).1.2 _ _ (List.suffix_refl _)
          cases fault with
          | some e => exact ⟨r', hr', hlater⟩
          | none =>
              have hages := hlaw.ages (records_of_reachable hstart hb).1.1
              obtain ⟨r'', hr'', hlater'⟩ := records_kept amb hages hr'
              exact ⟨r'', hr'', hlater.trans hlater'⟩

/-- A refresh that starts once the family is dead does not return. -/
theorem Dead.rejects (hstart : s₀.refresh_tokens.rows = [])
    (h : Reachable (authSystem cfg) P s₀ c) (hdead : Dead c family)
    (hsteps : Steps (authSystem cfg) P c c') {t : Nat} {th : AuthThread}
    (ht : c.threads.length ≤ t) (hth : c'.threads[t]? = some th)
    {rawToken : RawToken} (hrequest : th.request = .refresh rawToken)
    {r : RefreshToken} (hr : r ∈ c'.state.refresh_tokens.rows)
    (hhash : r.token_hash = hashToken rawToken) (hfamily : r.family = family)
    (reply : AuthReply) : th.prog ≠ .pure reply := by
  intro hreturned
  have hnext := h.steps hsteps
  obtain ⟨⟨hrecords, hobeyed⟩, hthreads⟩ := records_of_reachable hstart hnext
  obtain ⟨amb, mine, hothers, hpost⟩ := (hthreads t th hth).returned hreturned
  obtain ⟨_, haccepted⟩ := hpost rawToken hrequest
  obtain ⟨pair, _, x, hx, r₀, hop, hfound, _, hlive⟩ := haccepted reply rfl
  -- every answer the thread got was given with the family dead
  have hconfig : ∀ y ∈ own t mine, ∃ b : AuthRun, Dead b family ∧
      y.before = b.state := by
    intro y hy
    rw [← hothers.own_eq] at hy
    obtain ⟨hylog, hytid⟩ := mem_own.1 hy
    rcases Steps.entry_config hsteps hylog with hold |
      ⟨b, fault, k, hb, _, _, _, heq, _⟩
    · have hlt := h.logOwned.tid_lt hold
      omega
    · refine ⟨b, hdead.steps hstart h hb, ?_⟩
      rw [heq]
      rfl
  have hmem : ∀ y ∈ own t mine, y ∈ c'.log :=
    fun y hy => hothers.mem (mem_own.1 hy).1
  have hbefore := found_before hnext (hmem x hx) hfound hop
  obtain ⟨r₁, hr₁, hlater⟩ := hrecords.known x (hmem x hx) r₀
    (AuthOp.knownRecord_of_found hfound)
  have heq : r₁ = r := by
    apply hrecords.hashes r₁ hr₁ r hr
    rw [hlater.token_hash, hbefore.2, hhash]
  have hfamily₀ : r₀.family = family := by
    rw [← hlater.family, heq]
    exact hfamily
  rcases hlive with ⟨hread, _⟩ | ⟨_, y, hy, hyop, hactive⟩
  · obtain ⟨b, hb, hstate⟩ := hconfig x hx
    apply hb.revoked r₀ ?_ hfamily₀ hread.unrevoked
    rw [← hstate]
    exact hbefore.1
  · obtain ⟨b, hb, hstate⟩ := hconfig y hy
    obtain ⟨r₂, hr₂, hf₂, hlive⟩ :=
      active_before hnext (hmem y hy) hyop hactive
    rw [hstate] at hr₂
    exact hb.revoked r₂ hr₂ (hf₂.trans hfamily₀) hlive

/-- The `UPDATE` of a logout kills the families of the user that are at
rest. -/
theorem dead_of_revokeUser (hstart : s₀.refresh_tokens.rows = [])
    (h : Reachable (authSystem cfg) P s₀ c) {t u : Nat} {at' : Int}
    {request : AuthRequest} {amb : Moment}
    {k : Except AuthError Unit → AuthProg AuthReply}
    (hopened : ∃ r ∈ c.state.refresh_tokens.rows, r.user_id = u ∧
      r.family = family)
    (hnoRotation : NoRotation c.log family) :
    Dead ((authSystem cfg).perform c t request amb (.revokeUser u at') k none)
      family := by
  have hrecords : Records c.state c.log := (records_of_reachable hstart h).1.1
  obtain ⟨r₀, hr₀, hu₀, hf₀⟩ := hopened
  refine ⟨?_, ?_, ?_⟩
  · have hages : (AuthOp.revokeUser u at').Ages c.state := nofun
    obtain ⟨r', hr', hlater⟩ := records_kept amb hages hr₀
    exact ⟨r', hr', hlater.family.trans hf₀⟩
  · intro r' hr' hfamily
    obtain ⟨r, hr, rfl⟩ := mem_revokeWhere.1 hr'
    have hsame : r.family = family := by
      rw [← hfamily]
      exact (RefreshToken.Later.ite _ at' r).family.symm
    have howner := hrecords.owners r hr r₀ hr₀ (hsame.trans hf₀.symm)
    have hselected : (r.user_id == u) = true := by
      rw [howner, hu₀]
      exact beq_self_eq_true u
    rw [if_pos hselected]
    exact r.revoke_ne_none at'
  · intro y hy r hr hfamily
    rcases List.mem_cons.1 hy with rfl | hy
    · exact nomatch (readLive_iff.2 hr).found
    · obtain ⟨z, hz, hinserts⟩ := hnoRotation y hy r hr hfamily
      exact .inr ⟨z, own_mono (List.suffix_cons _ _) hz, hinserts⟩

end Runs

/-! ## Calls that sign a user out -/

/-- The user whose records the call revokes. -/
def AuthOp.revokes : AuthOp → Option Nat
  | .revokeUser userId _ => some userId
  | _ => none

theorem AuthOp.eq_of_revokes {op : AuthOp} {u : Nat}
    (h : op.revokes = some u) : ∃ at', op = .revokeUser u at' := by
  cases op with
  | revokeUser userId at' => exact ⟨at', by rw [Option.some.inj h]⟩
  | _ => exact nomatch h

/-- Thread `t` has revoked the records of `u`. -/
def RevokedUser (log : AuthLog) (t u : Nat) : Prop :=
  ∃ x ∈ own t log, x.op.revokes = some u ∧ x.res.isOk = true

/-- The own answers `mine` store no user but `u`. -/
def SavesOnly (mine : AuthLog) (u : Nat) : Prop :=
  ∀ y ∈ mine, ∀ w, y.op = .saveUser w → w.id = u

theorem SavesOnly.cons {mine : AuthLog} {u : Nat} (h : SavesOnly mine u)
    {x : AuthEntry} (hx : ∀ w, x.op = .saveUser w → w.id = u) :
    SavesOnly (x :: mine) u := by
  intro y hy
  rcases List.mem_cons.1 hy with rfl | hy
  · exact hx
  · exact h y hy

/-- A call that returns has revoked the records: a logout those of its user,
a password reset those of the user it has stored. -/
def SignOutPost (t : Nat) (request : AuthRequest)
    (result : Except AuthError AuthReply) (_ : Moment) (log : AuthLog) :
    Prop :=
  result.isOk = true →
    (∀ u, request = .logout u → RevokedUser log t u) ∧
    ∀ dto, request = .resetPassword dto →
      ∃ u, RevokedUser log t u ∧ SavesOnly (own t log) u

/-- No invariant and no law: only what a thread itself has done. -/
abbrev ownOnly (cfg : AuthConfig) (P : AuthPolicy) {α : Type} (t : Nat)
    (request : AuthRequest)
    (post : Except AuthError α → Moment → AuthLog → Prop)
    (p : AuthProg α) (amb : Moment) (log : AuthLog) : Prop :=
  wpLaw (authSystem cfg) P (fun _ _ => True) (fun _ _ _ _ => True) t request
    post p amb log

theorem ownOnly_kept (cfg : AuthConfig) (P : AuthPolicy) :
    KeptBy (authSystem cfg) P (fun _ _ => True) (fun _ _ _ _ => True) :=
  fun _ _ _ _ _ _ _ _ _ _ _ => trivial

section Calls

variable {cfg : AuthConfig} {P : AuthPolicy} {t : Nat}
  {request : AuthRequest}

/-- A logout that returns has revoked the records of its user. -/
theorem logout_wp (u : Nat) {amb : Moment} {log : AuthLog}
    {post : Except AuthError Unit → Moment → AuthLog → Prop}
    (herror : ∀ e amb log, post (.error e) amb log)
    (hok : ∀ amb log' x, Others t log log' → x.tid = t →
      x.op.revokes = some u → x.res.isOk = true →
        post (.ok ()) amb (x :: log')) :
    ownOnly cfg P t request post (logout u) amb log := by
  show ownOnly cfg P t request post
    (Prog.await (.revokeUser u amb.now) Prog.ofExcept) amb log
  apply wpLaw_await (ownOnly_kept cfg P)
  · exact fun _ _ => trivial
  · intro log' s amb' fault hothers _ _ _
    cases fault with
    | some e => exact herror e amb' _
    | none => exact hok amb' log' _ hothers rfl rfl rfl

/-- A password reset that returns has revoked the records of the user it has
stored. -/
theorem resetPassword_wp (dto : ResetPasswordDto) {amb : Moment}
    {log : AuthLog} (hown : own t log = []) :
    ownOnly cfg P t request
      (fun result _ log => result.isOk = true →
        ∃ u, RevokedUser log t u ∧ SavesOnly (own t log) u)
      (resetPassword dto.token dto.new_password) amb log := by
  have hkept := ownOnly_kept cfg P
  have herror : ∀ e amb log, (fun result (_ : Moment) log =>
      (result : Except AuthError Unit).isOk = true →
        ∃ u, RevokedUser log t u ∧ SavesOnly (own t log) u)
      (.error e) amb log := fun _ _ _ h => nomatch h
  unfold resetPassword consumeVerificationToken
  rw [Prog.bind_assoc]
  apply wpLaw_call hkept herror (fun _ _ => trivial)
  intro log₁ s₁ amb₁ record? h₁ _ _ _
  cases record? with
  | none => exact herror _ amb₁ _
  | some found =>
      obtain ⟨record, user⟩ := found
      have hmine₁ : SavesOnly (own t ((authSystem cfg).entry t request amb₁
          (.findVerificationToken (hashToken dto.token) .PASSWORD_RESET) none s₁
            :: log₁)) user.id := by
        rw [own_cons (by rfl), h₁.own_eq, hown]
        intro y hy w hw
        rw [List.mem_singleton.1 hy] at hw
        exact nomatch hw
      show ownOnly cfg P t request _ ((if record.expires_at < amb₁.now then
        Prog.throw (.domain .TokenExpired)
        else Prog.pure ({ record with used_at := some amb₁.now }, user)) >>= _)
        amb₁ _
      split
      · exact herror _ amb₁ _
      · rw [Prog.pure_bind]
        apply wpLaw_call hkept herror (fun _ _ => trivial)
        intro log₂ s₂ amb₂ hash h₂ _ _ _
        have hmine₂ : SavesOnly (own t ((authSystem cfg).entry t request amb₂
            (.hashPassword dto.new_password) none s₂ :: log₂)) user.id := by
          rw [own_cons (by rfl), h₂.own_eq]
          exact hmine₁.cons nofun
        apply wp_bind
        apply wpLaw_promiseAll hkept (fun _ _ _ _ => trivial)
          (fun _ _ _ _ _ => trivial)
        intro r amb₃ log₃ x y hmine hboth _
        have hmine₃ : SavesOnly (own t log₃) user.id := by
          rw [hmine]
          have hstore : ∀ z : AuthEntry, z.op = .saveVerificationToken
              { record with used_at := some amb₁.now } ∨
              z.op = .saveUser { user with password := some hash } →
              ∀ w, z.op = .saveUser w → w.id = user.id := by
            rintro z (hz | hz) w hw
            · rw [hz] at hw
              exact nomatch hw
            · rw [hz] at hw
              cases hw
              rfl
          rcases hboth with ⟨hy, hx⟩ | ⟨hy, hx⟩
          · exact (hmine₂.cons (hstore x (.inr hx))).cons
              (hstore y (.inl hy))
          · exact (hmine₂.cons (hstore x (.inl hx))).cons
              (hstore y (.inr hy))
        cases r with
        | error e => exact herror _ amb₃ _
        | ok v =>
            apply logout_wp user.id herror
            intro amb₄ log₄ z h₄ htid hop hok _
            refine ⟨user.id, ⟨z, ?_, hop, hok⟩, ?_⟩
            · exact mem_own.2 ⟨.head _, htid⟩
            · rw [own_cons htid, h₄.own_eq]
              apply hmine₃.cons
              intro w hw
              rw [hw] at hop
              exact nomatch hop

/-- What every request has done when it returns. -/
theorem signOut_wp (cfg : AuthConfig) (P : AuthPolicy) (t : Nat)
    (request : AuthRequest) (amb : Moment) (log : AuthLog)
    (hown : own t log = []) :
    ownOnly cfg P t request (SignOutPost t request) (serve cfg request) amb
      log := by
  have hkept := ownOnly_kept cfg P
  have hother : (∀ u, request ≠ .logout u) →
      (∀ dto, request ≠ .resetPassword dto) →
      ownOnly cfg P t request (SignOutPost t request) (serve cfg request) amb
        log := by
    intro hlogout hreset
    apply wpLaw_of_issues hkept
    · exact fun r _ _ _ => ⟨fun u h => absurd h (hlogout u),
        fun dto h => absurd h (hreset dto)⟩
    · exact (serve_mayCall cfg request).mono fun _ _ _ => trivial
  cases request with
  | logout u =>
      apply wp_bind
      apply logout_wp u
      · exact fun e amb log h => nomatch h
      · intro amb' log' x hothers htid hop hok _
        refine ⟨?_, nofun⟩
        rintro u' ⟨⟩
        exact ⟨x, mem_own.2 ⟨.head _, htid⟩, hop, hok⟩
  | resetPassword dto =>
      apply wp_bind
      apply wp_mono ?_ (resetPassword_wp dto hown)
      intro r amb' log' hr
      cases r with
      | error e => exact fun h => nomatch h
      | ok v =>
          intro _
          refine ⟨nofun, ?_⟩
          rintro dto' ⟨⟩
          exact hr rfl
  | _ => exact hother nofun nofun

end Calls

/-- The call `request` of thread `t` is there to sign `u` out: a logout of
`u`, or a password reset that has stored `u`. -/
def SignsOut (c : AuthRun) (t : Nat) (request : AuthRequest) (u : Nat) :
    Prop :=
  request = .logout u ∨ (∃ dto, request = .resetPassword dto) ∧
    ∃ y ∈ own t c.log, ∃ w, y.op = .saveUser w ∧ w.id = u

theorem revokedUser_of_returned {cfg : AuthConfig} {P : AuthPolicy}
    {s₀ : Store} {c : AuthRun} (h : Reachable (authSystem cfg) P s₀ c)
    {t u : Nat} {request : AuthRequest} {reply : AuthReply}
    (hth : c.threads[t]? = some ⟨request, .pure reply⟩)
    (hsigns : SignsOut c t request u) : RevokedUser c.log t u := by
  have hthreads : ∀ t th, c.threads[t]? = some th →
      ThreadSafe (authSystem cfg) P
        (Lawful (fun _ _ => True) fun _ _ _ _ => True) SignOutPost t th
        c.log := by
    apply (h.lawful_threads trivial ?_).2
    intro c request amb hc _ _
    apply signOut_wp
    exact hc.own_arriving
  obtain ⟨amb, mine, hothers, hpost⟩ := (hthreads t _ hth).returned rfl
  obtain ⟨hlogout, hreset⟩ := hpost rfl
  have hmono : ∀ v, RevokedUser mine t v → RevokedUser c.log t v := by
    rintro v ⟨x, hx, hop, hok⟩
    exact ⟨x, own_mono hothers.suffix hx, hop, hok⟩
  rcases hsigns with hrequest | ⟨⟨dto, hrequest⟩, y, hy, w, hw, hu⟩
  · exact hmono u (hlogout u hrequest)
  · obtain ⟨v, hrevoked, hsaves⟩ := hreset dto hrequest
    rw [hothers.own_eq] at hy
    have hv : v = u := by rw [← hsaves y hy w hw, hu]
    rw [← hv]
    exact hmono v hrevoked

/-! ## Revocation is final -/

/-- The user has a record of the family. -/
def Owns (s : Store) (u family : Nat) : Prop :=
  ∃ r ∈ s.refresh_tokens.rows, r.user_id = u ∧ r.family = family

instance (s : Store) (u family : Nat) : Decidable (Owns s u family) :=
  inferInstanceAs (Decidable (∃ r ∈ s.refresh_tokens.rows,
    r.user_id = u ∧ r.family = family))

/-- When the `UPDATE` `x` runs, the family is there, from before the call or
from a login that has inserted its record, and no rotation in it is under
way. -/
def Settled (c₀ : AuthRun) (u family : Nat) (x : AuthEntry)
    (older : AuthLog) : Prop :=
  (Owns c₀.state u family ∨ Owns x.before u family) ∧
    NoRotation older family

instance (c₀ : AuthRun) (u family : Nat) (x : AuthEntry) (older : AuthLog) :
    Decidable (Settled c₀ u family x older) :=
  inferInstanceAs (Decidable (_ ∧ _))

/-- The family is settled when the call of thread `c₀.threads.length` revokes
the records of `u`. -/
abbrev SettledAtRevocation (c₀ c₁ : AuthRun) (u family : Nat) : Prop :=
  Throughout (fun (x : AuthEntry) older => x.tid = c₀.threads.length ∧
    x.op.revokes = some u → Settled c₀ u family x older) c₁.log

/-- The `UPDATE` of a call leaves a settled family dead. -/
theorem dead_of_signOut {cfg : AuthConfig} {s₀ : Store} {c₀ c₁ : AuthRun}
    (hstart : s₀.refresh_tokens.rows = [])
    (h₀ : Reachable (authSystem cfg) anyRun s₀ c₀) {request : AuthRequest}
    {amb : Moment} (hcall : Steps (authSystem cfg) anyRun
      ((authSystem cfg).spawn c₀ request amb) c₁) {u family : Nat}
    (hrevoked : RevokedUser c₁.log c₀.threads.length u)
    (hsettled : SettledAtRevocation c₀ c₁ u family) : Dead c₁ family := by
  have hspawn : Reachable (authSystem cfg) anyRun s₀
      ((authSystem cfg).spawn c₀ request amb) :=
    h₀.tail (.spawn request amb trivial)
  obtain ⟨x, hx, hop, hok⟩ := hrevoked
  obtain ⟨hxlog, htid⟩ := mem_own.1 hx
  obtain ⟨older, hsuffix⟩ := older_of_mem hxlog
  obtain ⟨hfamily, hnoRotation⟩ := (hsettled.suffix hsuffix).1 ⟨htid, hop⟩
  rcases Steps.split_at hcall hsuffix with hold |
    ⟨b, fault, k, hb, rfl, hat, hrest⟩
  · have hlt := h₀.logOwned.tid_lt (hold.subset (.head _))
    omega
  · have hbreach := hspawn.steps hb
    have howns : Owns b.state u family := by
      rcases hfamily with ⟨r, hr, hu, hf⟩ | hbefore
      · obtain ⟨r', hr', hlater⟩ := records_steps hstart hspawn hb hr
        exact ⟨r', hr', hlater.user_id.trans hu, hlater.family.trans hf⟩
      · rw [hat.eq] at hbefore
        exact hbefore
    have hnext : Reachable (authSystem cfg) anyRun s₀
        ((authSystem cfg).perform b x.tid x.request x.amb x.op k fault) :=
      hbreach.tail hat.step
    apply Dead.steps hstart hnext ?_ hrest
    obtain ⟨at', hop⟩ := AuthOp.eq_of_revokes hop
    cases fault with
    | some e =>
        rw [hat.eq] at hok
        exact nomatch hok
    | none =>
        obtain ⟨tid, request', amb', op, before, res, after⟩ := x
        cases hop
        exact dead_of_revokeUser hstart hbreach howns hnoRotation

/--
**Revocation is final.**  Over every interleaving, whatever fails: once a
call that signs `u` out has returned, a refresh that starts later with a
token of the family never returns, provided the family was settled when the
call's `UPDATE` ran.
-/
theorem revocation_final {cfg : AuthConfig} {s₀ : Store} {c₀ c₁ c : AuthRun}
    (hstart : s₀.refresh_tokens.rows = [])
    (h₀ : Reachable (authSystem cfg) anyRun s₀ c₀) {request : AuthRequest}
    {amb : Moment} (hcall : Steps (authSystem cfg) anyRun
      ((authSystem cfg).spawn c₀ request amb) c₁) {u : Nat}
    (hsigns : SignsOut c₁ c₀.threads.length request u) {reply : AuthReply}
    (hreturned : c₁.threads[c₀.threads.length]? =
      some ⟨request, .pure reply⟩) {family : Nat}
    (hsettled : SettledAtRevocation c₀ c₁ u family)
    (hlater : Steps (authSystem cfg) anyRun c₁ c) :
    ∀ t th rawToken, c₁.threads.length ≤ t → c.threads[t]? = some th →
      th.request = .refresh rawToken →
      (∃ r ∈ c.state.refresh_tokens.rows,
        r.token_hash = hashToken rawToken ∧ r.family = family) →
      ∀ reply, th.prog ≠ .pure reply := by
  have hspawn : Reachable (authSystem cfg) anyRun s₀
      ((authSystem cfg).spawn c₀ request amb) :=
    h₀.tail (.spawn request amb trivial)
  have h₁ := hspawn.steps hcall
  have hrevoked := revokedUser_of_returned h₁ hreturned hsigns
  have hdead := dead_of_signOut hstart h₀ hcall hrevoked hsettled
  intro t th rawToken ht hth hrequest hfamily
  obtain ⟨r, hr, hhash, hf⟩ := hfamily
  exact hdead.rejects hstart h₁ hlater ht hth hrequest hr hhash hf

/-- A login and a rotation. -/
def signedIn : AuthRun :=
  authRun anyRun sampleStore
    (Tick.serve sampleLogin 0 3 { family := 1, jti := 1 } ++
      Tick.serve (.refresh (sampleToken 1 1 0)) 1 3 { now := 1000, jti := 2 })
    (by decide)

/-- Then a logout that returns. -/
def signedOut : AuthRun :=
  authRunFrom anyRun
    ((authSystem sampleConfig).spawn signedIn (.logout 0) { now := 2000 })
    (Tick.answers 2 1 { now := 2000 }) (by decide)

/-- Then a refresh with the newest token. -/
def refreshedAfter : AuthRun :=
  authRunFrom anyRun signedOut
    (Tick.serve (.refresh (sampleToken 1 2 1000)) 3 2 { now := 3000 })
    (by decide)

theorem revocation_final_of_signedOut :
    ∃ th, refreshedAfter.threads[3]? = some th ∧ th.prog.running = false ∧
      ∀ reply, th.prog ≠ .pure reply := by
  have hth : refreshedAfter.threads[3]? =
      some (refreshedAfter.threads.get ⟨3, by decide⟩) :=
    List.getElem?_eq_getElem _
  have h₀ : Reachable (authSystem sampleConfig) anyRun sampleStore signedIn :=
    reachable_authRun _ _ (admitted_of_accepts (fun _ _ => trivial) _ _)
  have h₁ : Steps (authSystem sampleConfig) anyRun
      ((authSystem sampleConfig).spawn signedIn (.logout 0) { now := 2000 })
      signedOut :=
    steps_authRunFrom _ _ (admitted_of_accepts (fun _ _ => trivial) _ _)
  have h₂ : Steps (authSystem sampleConfig) anyRun signedOut refreshedAfter :=
    steps_authRunFrom _ _ (admitted_of_accepts (fun _ _ => trivial) _ _)
  have hreturned : signedOut.threads[signedIn.threads.length]? =
      some ⟨.logout 0, .pure .done⟩ := by rfl
  have hsettled : SettledAtRevocation signedIn signedOut 0 1 := by decide
  have hrejects := revocation_final (by decide) h₀ h₁ (.inl rfl) hreturned
    hsettled h₂ 3 _ (sampleToken 1 2 1000) (by decide) hth (by rfl) (by decide)
  exact ⟨_, hth, by decide, hrejects⟩

/-- A login, and a refresh that has looked its record up. -/
def refreshStarted : AuthRun :=
  authRun anyOrder sampleStore
    (Tick.serve sampleLogin 0 3 { family := 1, jti := 1 } ++
      Tick.serve (.refresh (sampleToken 1 1 0)) 1 1 { now := 1000, jti := 2 })
    (by decide)

/-- A logout returns in between. -/
def loggedOut : AuthRun :=
  authRunFrom anyOrder
    ((authSystem sampleConfig).spawn refreshStarted (.logout 0)
      { now := 2000 })
    (Tick.answers 2 1 { now := 2000 }) (by decide)

/-- The refresh inserts its successor, which is then refreshed. -/
def refreshedOn : AuthRun :=
  authRunFrom anyOrder loggedOut
    (Tick.answers 1 2 { now := 3000 } ++
      Tick.serve (.refresh (sampleToken 1 2 1000)) 3 3
        { now := 4000, jti := 3 })
    (by decide)

/-- Nothing fails, the family was there before the logout, and the refresh
that starts after it returns. -/
theorem revocation_overtaken :
    ¬ ∀ (c₀ c₁ c : AuthRun) (request : AuthRequest) (amb : Moment)
      (u family : Nat) (reply : AuthReply),
      Reachable (authSystem sampleConfig) anyOrder sampleStore c₀ →
      Steps (authSystem sampleConfig) anyOrder
        ((authSystem sampleConfig).spawn c₀ request amb) c₁ →
      SignsOut c₁ c₀.threads.length request u →
      c₁.threads[c₀.threads.length]? = some ⟨request, .pure reply⟩ →
      Owns c₀.state u family →
      Steps (authSystem sampleConfig) anyOrder c₁ c →
      ∀ t th rawToken, c₁.threads.length ≤ t → c.threads[t]? = some th →
        th.request = .refresh rawToken →
        (∃ r ∈ c.state.refresh_tokens.rows,
          r.token_hash = hashToken rawToken ∧ r.family = family) →
        ∀ reply, th.prog ≠ .pure reply := by
  intro h
  have hopen := admitted_of_accepts (P := anyOrder) (fun _ _ => trivial)
  have hthread : ∃ reply, refreshedOn.threads[3]? =
      some ⟨.refresh (sampleToken 1 2 1000), .pure reply⟩ := ⟨_, by rfl⟩
  obtain ⟨reply, hth⟩ := hthread
  exact h refreshStarted loggedOut refreshedOn (.logout 0) { now := 2000 } 0 1
    .done (reachable_authRun _ _ (hopen _ _))
    (steps_authRunFrom _ _ (hopen _ _)) (.inl rfl) (by rfl) (by decide)
    (steps_authRunFrom _ _ (hopen _ _)) 3 _ (sampleToken 1 2 1000) (by decide)
    hth rfl (by decide) reply rfl

end Videum.Auth
