import Videum.Auth.Serial

/-!
# Exchanging a token in one step

`AuthService.refresh` executed atomically: what one call does to the records,
whoever called it.  A record is revoked by the exchange of its token, or by
the exception that finds a token presented after the grace period.

## Main results

* `eval_refresh` — the outcome of an atomic refresh.
* `RefreshOutcome.revokes` — who is revoked by it.
* `RefreshOutcome.alive` — a family keeps an active record.
* `RefreshOutcome.handsBack` — the token handed back.
-/

namespace Videum.Auth

open Videum.Async

/-- `AuthService.refresh`, executed atomically. -/
def refreshAtOnce (cfg : AuthConfig) (m : Moment) (rawToken : RawToken)
    (s : Store) : Except AuthError TokenPair × Store :=
  (refresh cfg rawToken).eval Store.exec m s

/-- The random values an atomic refresh draws are new. -/
def freshAtOnce (cfg : AuthConfig) (m : Moment) (rawToken : RawToken)
    (s : Store) : Bool :=
  (refresh cfg rawToken).admits (freshRandomness (.refresh rawToken))
    Store.exec m s

/-- The outcome of an atomic refresh. -/
theorem eval_refresh {cfg : AuthConfig} {m : Moment} {rawToken : RawToken}
    {s : Store} (hfresh : freshAtOnce cfg m rawToken s = true) :
    RefreshOutcome cfg rawToken m s (refreshAtOnce cfg m rawToken s).1
      (refreshAtOnce cfg m rawToken s).2 := by
  have halone : alone (authSystem cfg) oneAtATime 0 (.refresh rawToken)
      (RefreshPost cfg 0 rawToken s) (refresh cfg rawToken) m s [] :=
    refresh_alone rfl
  obtain ⟨newer, hnewer, x, hx, houtcome⟩ := alone_eval halone hfresh
  have hmem : x ∈ newer ++ [] := (mem_own.1 hx.mem).1
  rw [List.append_nil] at hmem
  rw [hnewer x hmem] at houtcome
  exact houtcome

/-! ## Live and revoked -/

/-- A record of the token is revoked. -/
def Store.revoked (s : Store) (token : RawToken) : Bool :=
  s.refresh_tokens.rows.any fun r =>
    r.token_hash == hashToken token && r.revoked_at.isSome

/-- The record found for the token is live. -/
def Store.live (s : Store) (token : RawToken) : Bool :=
  (s.findRefreshToken (hashToken token)).any (·.1.revoked_at.isNone)

/-- The record found for the token has not expired. -/
def Store.unexpired (s : Store) (m : Moment) (token : RawToken) : Bool :=
  (s.findRefreshToken (hashToken token)).any fun found =>
    !decide (found.1.expires_at < m.now)

/-- The family has an active record. -/
def Store.Alive (s : Store) (family : Nat) : Prop :=
  ∃ r ∈ s.refresh_tokens.rows, r.family = family ∧ r.revoked_at = none

theorem Store.revoked_iff {s : Store} {token : RawToken} :
    s.revoked token = true ↔ ∃ r ∈ s.refresh_tokens.rows,
      r.token_hash.raw = token ∧ r.revoked_at ≠ none := by
  unfold Store.revoked
  rw [List.any_eq_true]
  constructor
  · rintro ⟨r, hr, hboth⟩
    obtain ⟨hhash, hrevoked⟩ := Bool.and_eq_true_iff.1 hboth
    refine ⟨r, hr, ?_, Option.isSome_iff_ne_none.1 hrevoked⟩
    rw [beq_iff_eq.1 hhash]
    rfl
  · rintro ⟨r, hr, rfl, hrevoked⟩
    exact ⟨r, hr, Bool.and_eq_true_iff.2 ⟨beq_iff_eq.2 rfl,
      Option.isSome_iff_ne_none.2 hrevoked⟩⟩

section Outcome

variable {cfg : AuthConfig} {rawToken : RawToken} {m : Moment} {s s' : Store}
  {result : Except AuthError TokenPair}

/-- Without the reuse exception, a record is revoked by the exchange of its
token only. -/
theorem RefreshOutcome.revokes
    (h : RefreshOutcome cfg rawToken m s result s')
    (hresult : result ≠ .error (.domain .TokenReuseDetected))
    {r : RefreshToken} (hr : r ∈ s'.refresh_tokens.rows) {revokedAt : Int}
    (hrevoked : r.revoked_at = some revokedAt) :
    r ∈ s.refresh_tokens.rows ∨
      r.token_hash = hashToken rawToken ∧ revokedAt = m.now ∧
        s.live rawToken = true := by
  cases h with
  | reused => exact absurd rfl hresult
  | @rotated record user newToken s' m' hfind _ hlive _ _ hrotated =>
      obtain ⟨id, hrows⟩ := hrotated.rows
      rcases (hrows r).1 hr with ⟨hold, _⟩ | rfl | rfl
      · exact .inl hold
      · refine .inr ⟨(of_findRefreshToken hfind).2.1, ?_, ?_⟩
        · exact (Option.some.inj hrevoked).symm
        · rw [Store.live, hfind, Option.any_some, hlive]
          rfl
      · exact nomatch hrevoked
  | _ => exact .inl hr

/-- Revoked records stay. -/
theorem RefreshOutcome.revoked_kept
    (h : RefreshOutcome cfg rawToken m s result s') {token : RawToken}
    (hrevoked : s.revoked token = true) : s'.revoked token = true := by
  obtain ⟨r, hr, hraw, hr'⟩ := Store.revoked_iff.1 hrevoked
  cases h with
  | @reused record =>
      refine Store.revoked_iff.2 ⟨_, mem_revokeWhere.2 ⟨r, hr, rfl⟩, ?_, ?_⟩
      · rw [← hraw]
        exact congrArg TokenHash.raw (RefreshToken.Later.ite _ m.now r).token_hash
      · split
        · exact r.revoke_ne_none m.now
        · exact hr'
  | @rotated record user newToken s' m' hfind _ hlive _ _ hrotated =>
      obtain ⟨id, hrows⟩ := hrotated.rows
      apply Store.revoked_iff.2
      by_cases hid : r.id = record.id
      · have heq : r = record := s.refresh_tokens.unique hr
          (of_findRefreshToken hfind).1 hid
        rw [heq] at hr'
        exact absurd hlive hr'
      · exact ⟨r, (hrows r).2 (.inl ⟨hr, hid⟩), hraw, hr'⟩
  | _ => exact hrevoked

/-- Without the reuse exception, a family keeps an active record. -/
theorem RefreshOutcome.alive (h : RefreshOutcome cfg rawToken m s result s')
    (hresult : result ≠ .error (.domain .TokenReuseDetected)) {family : Nat}
    (halive : s.Alive family) : s'.Alive family := by
  obtain ⟨r, hr, hfamily, hactive⟩ := halive
  cases h with
  | reused => exact absurd rfl hresult
  | @rotated record user newToken s' m' hfind _ hlive _ _ hrotated =>
      obtain ⟨id, hrows⟩ := hrotated.rows
      by_cases hid : r.id = record.id
      · have heq : r = record := s.refresh_tokens.unique hr
          (of_findRefreshToken hfind).1 hid
        rw [heq] at hfamily
        exact ⟨_, (hrows _).2 (.inr (.inr rfl)), hfamily, rfl⟩
      · exact ⟨r, (hrows r).2 (.inl ⟨hr, hid⟩), hfamily, hactive⟩
  | _ => exact ⟨r, hr, hfamily, hactive⟩

/-- The token handed back is the one presented, or one no record has. -/
theorem RefreshOutcome.handsBack
    (h : RefreshOutcome cfg rawToken m s result s') {pair : TokenPair}
    (hpair : result = .ok pair) :
    pair.refresh_token = rawToken ∨ ∀ r ∈ s.refresh_tokens.rows,
      r.token_hash ≠ hashToken pair.refresh_token := by
  cases h with
  | graced m' => exact .inl (of_signed_pair hpair).1
  | rotated m' _ _ _ _ hfresh _ =>
      rw [(of_signed_pair hpair).1]
      exact .inr hfresh
  | _ => exact nomatch hpair

/-- The reuse exception: the token has not expired, and was revoked before the
grace period. -/
theorem RefreshOutcome.reuse
    (h : RefreshOutcome cfg rawToken m s result s')
    (hresult : result = .error (.domain .TokenReuseDetected)) :
    s.unexpired m rawToken = true ∧ ∃ r ∈ s.refresh_tokens.rows,
      r.token_hash = hashToken rawToken ∧
        ∃ revokedAt, r.revoked_at = some revokedAt ∧
          tokenReuseGracePeriodMs < m.now - revokedAt := by
  cases h with
  | @reused record user revokedAt hfind hunexpired hrevoked hreuse =>
      obtain ⟨hr, hhash, _⟩ := of_findRefreshToken hfind
      refine ⟨?_, record, hr, hhash, revokedAt, hrevoked, hreuse⟩
      rw [Store.unexpired, hfind, Option.any_some, decide_eq_false hunexpired]
      rfl
  | graced m' => exact nomatch of_unsigned_pair hresult
  | rotated m' => exact nomatch of_unsigned_pair hresult
  | unsigned _ _ _ hsign =>
      cases hresult
      exact nomatch sign_error hsign
  | _ => exact nomatch hresult

end Outcome

end Videum.Auth
