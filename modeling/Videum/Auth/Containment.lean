import Videum.Auth.Revocation
import Videum.Auth.Serial

/-!
# Containing a stolen token

A token that is presented once more after its rotation, and after the grace
period, has been stolen, by whoever presents it or by whoever rotated it.
The family is revoked, and a family without an unrevoked record never gets
one again.

## Main results

* `reuse_detected` — such a presentation is rejected and revokes the family.
* `dead_of_idle` — a family of an idle process without an unrevoked record is
  dead.
* `family_untouched` — a refresh leaves the other families alone.
* `theft_contained` — the three together.
-/

namespace Videum.Auth

open Videum.Async
open Videum.Common

section Runs

variable {cfg : AuthConfig} {s₀ : Store} {c c' : AuthRun}
  {rawToken : RawToken} {r : Except AuthError AuthReply}

/-- Presenting a token after the grace period is rejected, and revokes every
record of the family. -/
theorem reuse_detected (hstart : s₀.refresh_tokens.rows = [])
    (h : Reachable (authSystem cfg) oneAtATime s₀ c) (hidle : c.idle = true)
    (hserved : Served cfg oneAtATime c (.refresh rawToken) r c') {now : Int}
    (hat : LookedUpAt c'.log c.threads.length now) {record : RefreshToken}
    (hr : record ∈ c.state.refresh_tokens.rows)
    (hhash : record.token_hash = hashToken rawToken)
    (hunexpired : now ≤ record.expires_at) {revokedAt : Int}
    (hrevoked : record.revoked_at = some revokedAt)
    (hreuse : 10000 < now - revokedAt) :
    r = .error (.domain .TokenReuseDetected) ∧
      ∀ q ∈ c'.state.refresh_tokens.rows, q.family = record.family →
        q.revoked_at ≠ none := by
  have hrecords : Records c.state c.log := (records_of_reachable hstart h).1.1
  obtain ⟨u, hfind⟩ := findRefreshToken_of_mem hrecords.hashes
    (recordOwners_of_reachable hstart h) hr hhash
  obtain ⟨x, result, hlooked, rfl, houtcome⟩ :=
    refresh_outcome h hidle hserved
  have hnow := (lookedUpAt_iff hlooked).1 hat
  have hgrace : ¬ x.amb.now - revokedAt ≤ tokenReuseGracePeriodMs := by
    unfold tokenReuseGracePeriodMs
    omega
  generalize c'.state = s' at houtcome ⊢
  cases houtcome with
  | unknown hfind' => exact nomatch hfind.symm.trans hfind'
  | expired hfind' hexpired =>
      cases hfind.symm.trans hfind'
      omega
  | orphaned hfind' _ hrevoked' hgrace' _ =>
      cases hfind.symm.trans hfind'
      cases hrevoked.symm.trans hrevoked'
      exact absurd hgrace' hgrace
  | graced m' hfind' _ hrevoked' hgrace' _ =>
      cases hfind.symm.trans hfind'
      cases hrevoked.symm.trans hrevoked'
      exact absurd hgrace' hgrace
  | unsigned hfind' _ hunrevoked _ =>
      cases hfind.symm.trans hfind'
      exact nomatch hrevoked.symm.trans hunrevoked
  | rotated m' hfind' _ hunrevoked _ _ _ =>
      cases hfind.symm.trans hfind'
      exact nomatch hrevoked.symm.trans hunrevoked
  | reused hfind' _ _ _ =>
      cases hfind.symm.trans hfind'
      refine ⟨rfl, ?_⟩
      intro q hq hfamily
      obtain ⟨q₀, _, rfl⟩ := mem_revokeWhere.1 hq
      have hselected : (q₀.family == record.family) = true := by
        rw [← hfamily, beq_iff_eq]
        exact (RefreshToken.Later.ite _ x.amb.now q₀).family.symm
      rw [if_pos hselected]
      exact q₀.revoke_ne_none x.amb.now

/-- Where nothing is running, a family without an unrevoked record is
dead. -/
theorem dead_of_idle {P : AuthPolicy}
    (h : Reachable (authSystem cfg) P s₀ c) (hidle : c.idle = true)
    {family : Nat} (hopened : ∃ r ∈ c.state.refresh_tokens.rows,
      r.family = family)
    (hrevoked : ∀ r ∈ c.state.refresh_tokens.rows, r.family = family →
      r.revoked_at ≠ none) : Dead c family := by
  refine ⟨hopened, hrevoked, ?_⟩
  intro y hy _ _ _
  obtain ⟨th, hth, _⟩ := h.logOwned y hy
  left
  exact ⟨th, hth, Config.idle_iff.1 hidle th (List.mem_of_getElem? hth)⟩

/-- A refresh neither adds, changes nor removes a record of another family
than that of the token presented. -/
theorem family_untouched
    (h : Reachable (authSystem cfg) oneAtATime s₀ c) (hidle : c.idle = true)
    (hserved : Served cfg oneAtATime c (.refresh rawToken) r c')
    {q : RefreshToken} (hother : ∀ record ∈ c.state.refresh_tokens.rows,
      record.token_hash = hashToken rawToken → q.family ≠ record.family) :
    q ∈ c'.state.refresh_tokens.rows ↔ q ∈ c.state.refresh_tokens.rows := by
  obtain ⟨x, result, _, _, houtcome⟩ := refresh_outcome h hidle hserved
  generalize c'.state = s' at houtcome ⊢
  cases houtcome with
  | unknown _ => exact Iff.rfl
  | expired _ _ => exact Iff.rfl
  | orphaned _ _ _ _ _ => exact Iff.rfl
  | graced _ _ _ _ _ _ => exact Iff.rfl
  | unsigned _ _ _ _ => exact Iff.rfl
  | @reused record user revokedAt hfind _ _ _ =>
      obtain ⟨hmem, hdigest, _⟩ := of_findRefreshToken hfind
      have hne := hother record hmem hdigest
      rw [mem_revokeWhere]
      constructor
      · rintro ⟨q₀, hq₀, rfl⟩
        have hfamily := (RefreshToken.Later.ite
          ((q₀.family == record.family) = true) x.amb.now q₀).family
        rw [hfamily] at hne
        rw [if_neg (by rw [beq_iff_eq]; exact hne)]
        exact hq₀
      · intro hq
        exact ⟨q, hq, if_neg (by rw [beq_iff_eq]; exact hne)⟩
  | @rotated record user newToken _ m' hfind _ _ _ _ hrotated =>
      obtain ⟨hmem, hdigest, _⟩ := of_findRefreshToken hfind
      have hne := hother record hmem hdigest
      obtain ⟨id, hrows⟩ := hrotated.rows
      rw [hrows]
      constructor
      · rintro (⟨hq, _⟩ | rfl | rfl)
        · exact hq
        · exact absurd rfl hne
        · exact absurd rfl hne
      · intro hq
        refine .inl ⟨hq, ?_⟩
        intro hid
        have heq := c.state.refresh_tokens.unique hq hmem hid
        exact hne (by rw [heq])

/--
**Theft containment.**  Requests are served one after another.  A token
presented unexpired but more than 10 000 ms after its record was revoked is
rejected as reused and its family left without an unrevoked record; a family
without one never refreshes again; and a refresh touches no other family.
-/
theorem theft_contained (hstart : s₀.refresh_tokens.rows = [])
    (h : Reachable (authSystem cfg) oneAtATime s₀ c) (hidle : c.idle = true) :
    (∀ rawToken r c' now record revokedAt,
      Served cfg oneAtATime c (.refresh rawToken) r c' →
      LookedUpAt c'.log c.threads.length now →
      record ∈ c.state.refresh_tokens.rows →
      record.token_hash = hashToken rawToken → now ≤ record.expires_at →
      record.revoked_at = some revokedAt → 10000 < now - revokedAt →
        r = .error (.domain .TokenReuseDetected) ∧
        ∀ q ∈ c'.state.refresh_tokens.rows, q.family = record.family →
          q.revoked_at ≠ none) ∧
    (∀ family, (∃ r ∈ c.state.refresh_tokens.rows, r.family = family) →
      (∀ r ∈ c.state.refresh_tokens.rows, r.family = family →
        r.revoked_at ≠ none) →
      ∀ c', Steps (authSystem cfg) oneAtATime c c' →
      ∀ t th rawToken, c.threads.length ≤ t → c'.threads[t]? = some th →
        th.request = .refresh rawToken →
        (∃ r ∈ c'.state.refresh_tokens.rows,
          r.token_hash = hashToken rawToken ∧ r.family = family) →
        ∀ reply, th.prog ≠ .pure reply) ∧
    ∀ rawToken r c', Served cfg oneAtATime c (.refresh rawToken) r c' →
      ∀ q : RefreshToken, (∀ record ∈ c.state.refresh_tokens.rows,
        record.token_hash = hashToken rawToken → q.family ≠ record.family) →
        (q ∈ c'.state.refresh_tokens.rows ↔
          q ∈ c.state.refresh_tokens.rows) := by
  refine ⟨?_, ?_, ?_⟩
  · intro rawToken r c' now record revokedAt hserved hat hr hhash hunexpired
      hrevoked hreuse
    exact reuse_detected hstart h hidle hserved hat hr hhash hunexpired
      hrevoked hreuse
  · intro family hopened hrevoked c' hsteps t th rawToken ht hth hrequest hrow
      reply
    obtain ⟨r, hr, hhash, hfamily⟩ := hrow
    exact (dead_of_idle h hidle hopened hrevoked).rejects hstart h hsteps ht
      hth hrequest hr hhash hfamily reply
  · intro rawToken r c' hserved q hother
    exact family_untouched h hidle hserved hother

end Runs

/-- A login and a rotation. -/
def rotatedOnce : AuthRun :=
  authRun oneAtATime sampleStore
    (Tick.serve sampleLogin 0 3 { family := 1, jti := 1 } ++
      Tick.serve (.refresh (sampleToken 1 1 0)) 1 3 { now := 1000, jti := 2 })
    (by decide)

/-- The old token is presented again, eleven seconds later. -/
def reusedOnce : AuthRun :=
  authRunFrom oneAtATime
    ((authSystem sampleConfig).spawn rotatedOnce
      (.refresh (sampleToken 1 1 0)) { now := 12000 })
    (Tick.answers 2 2 { now := 12000 }) (by decide)

theorem theft_contained_of_rotatedOnce :
    Served sampleConfig oneAtATime rotatedOnce (.refresh (sampleToken 1 1 0))
      (.error (.domain .TokenReuseDetected)) reusedOnce ∧
    ∀ q ∈ reusedOnce.state.refresh_tokens.rows, q.family = 1 →
      q.revoked_at ≠ none := by
  have hreach : Reachable (authSystem sampleConfig) oneAtATime sampleStore
      rotatedOnce := reachable_authRun _ (by decide) (by decide)
  have hserved : Served sampleConfig oneAtATime rotatedOnce
      (.refresh (sampleToken 1 1 0)) (.error (.domain .TokenReuseDetected))
      reusedOnce := ⟨_, steps_authRunFrom _ (by decide) (by decide), by rfl⟩
  have hlooked : LookedUpAt reusedOnce.log rotatedOnce.threads.length 12000 :=
    ⟨_, .tail _ (.head _), ⟨_, rfl⟩, rfl⟩
  have hrecord : (⟨0, hashToken (sampleToken 1 1 0), 1, 0, 604800000,
      some 1000⟩ : RefreshToken) ∈ rotatedOnce.state.refresh_tokens.rows := by
    decide
  obtain ⟨hreused, _, _⟩ := theft_contained (by decide) hreach (by decide)
  obtain ⟨_, hrevoked⟩ := hreused _ _ _ 12000 _ 1000 hserved hlooked hrecord
    rfl (by decide) rfl (by decide)
  exact ⟨hserved, hrevoked⟩

end Videum.Auth
