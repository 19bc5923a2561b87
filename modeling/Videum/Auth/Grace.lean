import Videum.Auth.Serial

/-!
# The token a refresh hands back

Refreshing a live token hands back its successor.  Within the grace period
after its rotation, the old token is accepted once more: the family must have
an active record, but the token handed back is the one presented.  This
module says which of the two can be used again.

## Main results

* `refreshable_of_live` — a live record can be presented until it expires.
* `refresh_usable_iff` — the token handed back is usable exactly when the
  record of the token presented was not revoked.
* `grace_broken` — a refresh within the grace period, and the reuse error its
  token runs into.
-/

namespace Videum.Auth

open Videum.Async
open Videum.Common

/-! ## Durations -/

theorem parseDigits_nonneg (digits : List Char) : 0 ≤ parseDigits digits := by
  have hfold : ∀ n : Int, 0 ≤ n → 0 ≤ digits.foldl
      (fun n c => 10 * n + ((c.toNat - '0'.toNat : Nat) : Int)) n := by
    induction digits with
    | nil => exact fun n hn => hn
    | cons c digits ih =>
        intro n hn
        apply ih
        show 0 ≤ 10 * n + ((c.toNat - '0'.toNat : Nat) : Int)
        omega
  exact hfold 0 (Int.le_refl 0)

theorem unitMs_nonneg (c : Char) : 0 ≤ unitMs c := by
  unfold unitMs
  split
  · decide
  · split
    · decide
    · split
      · decide
      · split <;> decide

theorem jwtExpirationToMs_nonneg (exp : String) : 0 ≤ jwtExpirationToMs exp := by
  unfold jwtExpirationToMs
  split
  · exact Int.le_refl 0
  · next unit digits _ =>
      split
      · exact Int.mul_nonneg (parseDigits_nonneg _) (unitMs_nonneg unit)
      · exact Int.le_refl 0

/-! ## Usable tokens -/

/-- Presenting `rawToken` next returns, whenever it happens from `now` to
`last`. -/
def Refreshable (cfg : AuthConfig) (c : AuthRun) (rawToken : RawToken)
    (now last : Int) : Prop :=
  ∀ now', now ≤ now' → now' ≤ last →
    (∀ r c', Served cfg oneAtATime c (.refresh rawToken) r c' →
      LookedUpAt c'.log c.threads.length now' → r.isOk = true) ∧
    ∃ r c', Served cfg oneAtATime c (.refresh rawToken) r c' ∧
      LookedUpAt c'.log c.threads.length now' ∧ r.isOk = true

/-- At time `now` the record of the token is neither revoked nor expired, and
the token can be presented until its record expires. -/
def Usable (cfg : AuthConfig) (c : AuthRun) (now : Int) (rawToken : RawToken) :
    Prop :=
  ∃ r ∈ c.state.refresh_tokens.rows, r.token_hash = hashToken rawToken ∧
    r.revoked_at = none ∧ now ≤ r.expires_at ∧
    Refreshable cfg c rawToken now r.expires_at

/-- Some `jti` makes a token whose digest is new. -/
theorem exists_fresh_jti (rows : List RefreshToken) (token : Nat → RawToken)
    (hinj : ∀ i j, token i = token j → i = j) :
    ∃ n, ∀ jti, n ≤ jti → ∀ r ∈ rows, r.token_hash ≠ hashToken (token jti) := by
  induction rows with
  | nil => exact ⟨0, fun _ _ r hr => nomatch hr⟩
  | cons r rows ih =>
      obtain ⟨n, hn⟩ := ih
      by_cases htaken : ∃ i, r.token_hash = hashToken (token i)
      · obtain ⟨i, hi⟩ := htaken
        refine ⟨max n (i + 1), ?_⟩
        intro jti hjti r' hr'
        rcases List.mem_cons.1 hr' with rfl | hr'
        · rw [hi]
          intro heq
          have hij := hinj i jti (congrArg TokenHash.raw heq)
          omega
        · exact hn jti (by omega) r' hr'
      · refine ⟨n, ?_⟩
        intro jti hjti r' hr'
        rcases List.mem_cons.1 hr' with rfl | hr'
        · exact fun heq => htaken ⟨jti, heq⟩
        · exact hn jti hjti r' hr'

section Refreshable

variable {cfg : AuthConfig} {s : Store} {t : Nat} {rawToken : RawToken}
  {record : RefreshToken} {user : UserEntity}

theorem LookedUpAt.cons {log : AuthLog} {now : Int} (h : LookedUpAt log t now)
    (x : AuthEntry) : LookedUpAt (x :: log) t now := by
  obtain ⟨y, hy, hrest⟩ := h
  exact ⟨y, own_mono (List.suffix_cons x log) hy, hrest⟩

/-- A rotation whose new token is signed and fresh may return. -/
theorem rotate_mayEnd {now : Int} {m : Moment} {newToken : RawToken}
    {log : AuthLog} {v : User} (hr : record ∈ s.refresh_tokens.rows)
    (hv : s.userById record.user_id = some v) (hswapped : m.swapped = false)
    (hsign : sign cfg m cfg.jwtRefreshSecret cfg.jwtRefreshExpiration
      (.refresh record.user_id record.family m.jti) = .ok newToken)
    (hfresh : ∀ r ∈ s.refresh_tokens.rows, r.token_hash ≠ hashToken newToken)
    (haccess : (cfg.ms cfg.jwtAccessExpiration).isSome = true)
    (hlooked : LookedUpAt log t now) :
    mayEnd (authSystem cfg) t (.refresh rawToken)
      (fun r _ _ log => LookedUpAt log t now ∧ r.isOk = true)
      (rotate cfg record user m) m s log := by
  show mayEnd (authSystem cfg) t (.refresh rawToken) _
    (Prog.ofExcept (sign cfg m cfg.jwtRefreshSecret cfg.jwtRefreshExpiration
      (.refresh record.user_id record.family m.jti)) >>= _) m s log
  rw [hsign, Prog.ofExcept_ok_bind]
  apply mayEnd_bind
  show mayEnd (authSystem cfg) t (.refresh rawToken) _
    (if m.swapped then
      Prog.settle (.insertRefreshToken (successorColumns cfg m record newToken))
        (.saveRefreshToken { record with revoked_at := some m.now })
      else Prog.settle
        (.saveRefreshToken { record with revoked_at := some m.now })
        (.insertRefreshToken (successorColumns cfg m record newToken))) m s log
  rw [hswapped]
  apply mayEnd_settle m rfl (by exact rfl)
  · have hsaved : ∀ r ∈ (s.saveRefreshToken { record with
        revoked_at := some m.now }).refresh_tokens.rows,
        r.token_hash ≠ hashToken newToken := by
      intro r hmem
      rcases Table.mem_save.1 hmem with ⟨hold, _⟩ | ⟨rfl, _⟩
      · exact hfresh r hold
      · exact hfresh record hr
    apply List.all_eq_true.2
    intro r hmem
    rw [bne_iff_ne]
    exact hsaved r hmem
  · show ((s.saveRefreshToken { record with
      revoked_at := some m.now }).insertRefreshToken
        (successorColumns cfg m record newToken)).1.isOk = true
    exact successor_isOk rfl hv
  · obtain ⟨accessToken, hsigned⟩ : ∃ a, sign cfg m cfg.jwtSecret
        cfg.jwtAccessExpiration (.access record.user_id user.email) = .ok a := by
      have hok := sign_isOk cfg m cfg.jwtSecret cfg.jwtAccessExpiration
        (.access record.user_id user.email)
      rw [haccess] at hok
      cases hsigned : sign cfg m cfg.jwtSecret cfg.jwtAccessExpiration
          (.access record.user_id user.email) with
      | ok a => exact ⟨a, rfl⟩
      | error e =>
          rw [hsigned] at hok
          cases hok
    show mayEnd (authSystem cfg) t (.refresh rawToken) _
      (Prog.ofExcept (sign cfg m cfg.jwtSecret cfg.jwtAccessExpiration
        (.access record.user_id user.email)) >>= _) m _ _
    rw [hsigned, Prog.ofExcept_ok_bind]
    exact ⟨(hlooked.cons _).cons _, rfl⟩

/-- A refresh that finds its record live at time `now` may return. -/
theorem refresh_mayEnd {now : Int} {amb : Moment} {log : AuthLog}
    (hfind : s.findRefreshToken (hashToken rawToken) = some (record, user))
    (hunexpired : ¬ record.expires_at < now)
    (hunrevoked : record.revoked_at = none)
    (hrefresh : (cfg.ms cfg.jwtRefreshExpiration).isSome = true)
    (haccess : (cfg.ms cfg.jwtAccessExpiration).isSome = true) :
    mayEnd (authSystem cfg) t (.refresh rawToken)
      (fun r _ _ log => LookedUpAt log t now ∧ r.isOk = true)
      (refresh cfg rawToken) amb s log := by
  obtain ⟨lifetime, hlifetime⟩ := Option.isSome_iff_exists.1 hrefresh
  obtain ⟨hr, _, v, hv, _⟩ := of_findRefreshToken hfind
  obtain ⟨jti, hjti⟩ := exists_fresh_jti s.refresh_tokens.rows
    (fun jti => .jwt ⟨cfg.jwtRefreshSecret,
      .refresh record.user_id record.family jti, now / 1000,
      now / 1000 + lifetime / 1000⟩) (by
        intro i j h
        cases h
        rfl)
  apply mayEnd_call { now := now, jti := jti } (by exact rfl)
    (by exact congrArg Except.ok hfind)
  show mayEnd (authSystem cfg) t (.refresh rawToken) _
    (if record.expires_at < now then Prog.throw (.domain .TokenExpired)
      else refreshUnexpired cfg rawToken record user
        { now := now, jti := jti }) { now := now, jti := jti } s _
  rw [if_neg hunexpired, refreshUnexpired_unrevoked hunrevoked]
  apply rotate_mayEnd hr hv rfl ?_ (hjti jti (Nat.le_refl jti)) haccess
  · exact ⟨_, mem_own.2 ⟨.head _, rfl⟩, ⟨_, rfl⟩, rfl⟩
  · unfold sign
    rw [hlifetime]

end Refreshable

/-! ## What a refresh hands back -/

section Runs

variable {cfg : AuthConfig} {s₀ : Store} {c : AuthRun}

/-- A live record of an idle process can be presented until it expires. -/
theorem refreshable_of_live (hstart : s₀.refresh_tokens.rows = [])
    (h : Reachable (authSystem cfg) oneAtATime s₀ c) (hidle : c.idle = true)
    {rawToken : RawToken} {r : RefreshToken}
    (hr : r ∈ c.state.refresh_tokens.rows)
    (hhash : r.token_hash = hashToken rawToken) (hlive : r.revoked_at = none)
    (hrefresh : (cfg.ms cfg.jwtRefreshExpiration).isSome = true)
    (haccess : (cfg.ms cfg.jwtAccessExpiration).isSome = true) (now : Int) :
    Refreshable cfg c rawToken now r.expires_at := by
  have hrecords : Records c.state c.log := (records_of_reachable hstart h).1.1
  obtain ⟨u, hfind⟩ := findRefreshToken_of_mem hrecords.hashes
    (recordOwners_of_reachable hstart h) hr hhash
  intro now' _ hlast
  have hunexpired : ¬ r.expires_at < now' := by omega
  constructor
  · intro result c' hserved hat
    obtain ⟨x, result', hlooked, rfl, houtcome⟩ :=
      refresh_outcome h hidle hserved
    have hnow := (lookedUpAt_iff hlooked).1 hat
    rw [isOk_map]
    generalize c'.state = s' at houtcome
    cases houtcome with
    | unknown hfind' => exact nomatch hfind.symm.trans hfind'
    | expired hfind' hexpired =>
        cases hfind.symm.trans hfind'
        rw [hnow] at hexpired
        exact absurd hexpired hunexpired
    | orphaned hfind' _ hrevoked _ _ =>
        cases hfind.symm.trans hfind'
        exact nomatch hlive.symm.trans hrevoked
    | graced m' hfind' _ hrevoked _ _ =>
        cases hfind.symm.trans hfind'
        exact nomatch hlive.symm.trans hrevoked
    | reused hfind' _ hrevoked _ =>
        cases hfind.symm.trans hfind'
        exact nomatch hlive.symm.trans hrevoked
    | unsigned hfind' _ _ hsign =>
        have hok := congrArg Except.isOk hsign
        rw [sign_isOk, hrefresh] at hok
        exact nomatch hok
    | rotated m' hfind' _ _ _ _ _ =>
        rw [isOk_map, sign_isOk]
        exact haccess
  · have hmay : mayEnd (authSystem cfg) c.threads.length (.refresh rawToken)
        (fun r _ _ log => LookedUpAt log c.threads.length now' ∧ r.isOk = true)
        (serve cfg (.refresh rawToken)) {} c.state c.log := by
      apply mayEnd_bind
      apply mayEnd_mono ?_ (refresh_mayEnd hfind hunexpired hlive hrefresh
        haccess)
      rintro result amb s' log ⟨hat, hok⟩
      cases result with
      | ok pair => exact ⟨hat, rfl⟩
      | error e => exact nomatch hok
    obtain ⟨c', result, _, hsteps, hthreads, hat, hok⟩ :=
      Steps.of_mayEnd (P := oneAtATime) hmay
    exact ⟨result, c', ⟨{}, hsteps, hthreads⟩, hat, hok⟩

/--
**What a refresh hands back.**  Requests are served one after another.  The
token a successful `refresh` returns is usable, from the time of the lookup
until its record expires, exactly when the record of the token presented was
not revoked.
-/
theorem refresh_usable_iff (hstart : s₀.refresh_tokens.rows = [])
    (h : Reachable (authSystem cfg) oneAtATime s₀ c) (hidle : c.idle = true)
    {rawToken : RawToken} {pair : TokenPair} {c' : AuthRun}
    (hserved : Served cfg oneAtATime c (.refresh rawToken)
      (.ok (.tokens pair)) c') :
    (∃ now, LookedUpAt c'.log c.threads.length now ∧
      Usable cfg c' now pair.refresh_token) ↔
    ∃ r ∈ c.state.refresh_tokens.rows, r.token_hash = hashToken rawToken ∧
      r.revoked_at = none := by
  have hrecords : Records c.state c.log := (records_of_reachable hstart h).1.1
  have haccept : oneAtATime.accepts c (.refresh rawToken) := hidle
  have hreach' := hserved.reachable haccept h
  have hidle' := hserved.idle hidle
  obtain ⟨x, result, hlooked, hresult, houtcome⟩ :=
    refresh_outcome h hidle hserved
  have hpair : result = .ok pair := by
    cases result with
    | error e => exact nomatch hresult
    | ok pair' => cases hresult; rfl
  have hsame : ∀ {record : RefreshToken} {user : UserEntity},
      c.state.findRefreshToken (hashToken rawToken) = some (record, user) →
      ∀ r ∈ c.state.refresh_tokens.rows, r.token_hash = hashToken rawToken →
        r = record := by
    intro record user hfind r hr hhash
    obtain ⟨hmem, hdigest, _⟩ := of_findRefreshToken hfind
    exact hrecords.hashes r hr record hmem (hhash.trans hdigest.symm)
  generalize hs' : c'.state = s' at houtcome
  cases houtcome with
  | unknown _ => exact nomatch hpair
  | expired _ _ => exact nomatch hpair
  | orphaned _ _ _ _ _ => exact nomatch hpair
  | reused _ _ _ _ => exact nomatch hpair
  | unsigned _ _ _ _ => exact nomatch hpair
  | graced m' hfind _ hrevoked _ _ =>
      obtain ⟨htoken, _⟩ := of_signed_pair hpair
      constructor
      · rintro ⟨now, _, r, hr, hhash, hlive, _⟩
        rw [hs'] at hr
        rw [htoken] at hhash
        rw [hsame hfind r hr hhash] at hlive
        exact nomatch hlive.symm.trans hrevoked
      · rintro ⟨r, hr, hhash, hlive⟩
        rw [hsame hfind r hr hhash] at hlive
        exact nomatch hlive.symm.trans hrevoked
  | @rotated record user newToken _ m' hfind _ hunrevoked hsign _ hrotated =>
      obtain ⟨htoken, haccess⟩ := of_signed_pair hpair
      obtain ⟨hmem, hdigest, _⟩ := of_findRefreshToken hfind
      have hrefresh : (cfg.ms cfg.jwtRefreshExpiration).isSome = true := by
        rw [← sign_isOk, hsign]
        rfl
      obtain ⟨id, hrows⟩ := hrotated.rows
      have hnew : successorOf cfg x.amb record newToken id ∈
          c'.state.refresh_tokens.rows := by
        rw [hs']
        exact (hrows _).2 (.inr (.inr rfl))
      have hnonneg := jwtExpirationToMs_nonneg cfg.jwtRefreshExpiration
      refine ⟨fun _ => ⟨record, hmem, hdigest, hunrevoked⟩, fun _ => ?_⟩
      refine ⟨x.amb.now, (lookedUpAt_iff hlooked).2 rfl, _, hnew, ?_, rfl, ?_, ?_⟩
      · rw [htoken]
        rfl
      · show x.amb.now ≤
          x.amb.now + jwtExpirationToMs cfg.jwtRefreshExpiration
        omega
      · rw [htoken]
        exact refreshable_of_live hstart hreach' hidle' hnew rfl rfl hrefresh
          haccess x.amb.now

end Runs

/-- A login. -/
def loggedIn : AuthRun :=
  authRun oneAtATime sampleStore
    (Tick.serve sampleLogin 0 3 { family := 1, jti := 1 }) (by decide)

/-- Its token is refreshed. -/
def refreshedOnce : AuthRun :=
  authRunFrom oneAtATime
    ((authSystem sampleConfig).spawn loggedIn
      (.refresh (sampleToken 1 1 0)) { now := 1000 })
    (Tick.answers 1 3 { now := 1000, jti := 2 }) (by decide)

theorem refresh_usable_iff_of_refreshedOnce :
    ∃ now, LookedUpAt refreshedOnce.log 1 now ∧
      Usable sampleConfig refreshedOnce now (sampleToken 1 2 1000) := by
  have hlogin : Reachable (authSystem sampleConfig) oneAtATime sampleStore
      loggedIn := reachable_authRun _ (by decide) (by decide)
  have hserved : ∃ accessToken, Served sampleConfig oneAtATime loggedIn
      (.refresh (sampleToken 1 1 0))
      (.ok (.tokens ⟨accessToken, sampleToken 1 2 1000⟩)) refreshedOnce :=
    ⟨_, _, steps_authRunFrom _ (by decide) (by decide), by rfl⟩
  obtain ⟨accessToken, hserved⟩ := hserved
  exact (refresh_usable_iff (by decide) hlogin (by decide) hserved).2
    (by decide)

/-- The old token is presented again a second later. -/
def refreshedAgain : AuthRun :=
  authRunFrom oneAtATime
    ((authSystem sampleConfig).spawn refreshedOnce
      (.refresh (sampleToken 1 1 0)) { now := 2000 })
    (Tick.answers 2 2 { now := 2000 }) (by decide)

/-- And the token that was handed back, eighteen seconds after that. -/
def refreshedLate : AuthRun :=
  authRunFrom oneAtATime
    ((authSystem sampleConfig).spawn refreshedAgain
      (.refresh (sampleToken 1 1 0)) { now := 20000 })
    (Tick.answers 3 2 { now := 20000 }) (by decide)

/-- The refresh within the grace period returns, but the token it hands back
is not usable: presenting it next is taken for theft. -/
theorem grace_broken :
    Reachable (authSystem sampleConfig) oneAtATime sampleStore refreshedOnce ∧
    refreshedOnce.idle = true ∧
    (∃ accessToken, Served sampleConfig oneAtATime refreshedOnce
      (.refresh (sampleToken 1 1 0))
      (.ok (.tokens ⟨accessToken, sampleToken 1 1 0⟩)) refreshedAgain) ∧
    (¬ ∃ now, LookedUpAt refreshedAgain.log 2 now ∧
      Usable sampleConfig refreshedAgain now (sampleToken 1 1 0)) ∧
    Served sampleConfig oneAtATime refreshedAgain
      (.refresh (sampleToken 1 1 0)) (.error (.domain .TokenReuseDetected))
      refreshedLate := by
  have hlogin : Reachable (authSystem sampleConfig) oneAtATime sampleStore
      loggedIn := reachable_authRun _ (by decide) (by decide)
  have hspawn : Reachable (authSystem sampleConfig) oneAtATime sampleStore
      ((authSystem sampleConfig).spawn loggedIn (.refresh (sampleToken 1 1 0))
        { now := 1000 }) :=
    hlogin.tail (.spawn _ _ (by decide))
  refine ⟨?_, by decide, ?_, ?_, ?_⟩
  · exact hspawn.steps (steps_authRunFrom _ (by decide) (by decide))
  · exact ⟨_, _, steps_authRunFrom _ (by decide) (by decide), by rfl⟩
  · rintro ⟨now, _, r, hr, hhash, hlive, _⟩
    have hrevoked : ∀ r ∈ refreshedAgain.state.refresh_tokens.rows,
      r.token_hash = hashToken (sampleToken 1 1 0) → r.revoked_at ≠ none := by
      decide
    exact hrevoked r hr hhash hlive
  · exact ⟨_, steps_authRunFrom _ (by decide) (by decide), by rfl⟩

end Videum.Auth
