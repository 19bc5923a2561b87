import Videum.Async.Traces
import Videum.Auth.Grace
import Videum.Common.Durations
import Mathlib.Data.Rat.Floor

/-!
# How long a session lasts

`JWT_REFRESH_EXPIRATION` is read twice: `jsonwebtoken` reads it with `ms` when
it signs a refresh token, and `jwtExpirationToMs` reads it for the record of
the token.  This module says when the two agree.

## Main results

* `jwtExpirationToMs_eq_iff` — the settings both read alike.
* `serve_signs` — each record is stored by the turn that has signed its
  token.
* `stored_expiry_iff` — the records expire with their tokens exactly for
  these settings.
-/

namespace Videum.Auth

open Videum.Async
open Videum.Common

/-! ## The two readings -/

/-- What `/^(\d+)([smhd])$/` matches. -/
def OneUnit (text : String) : Prop :=
  ∃ digits unit, text.toList = digits ++ [unit] ∧ digits ≠ [] ∧
    (∀ c ∈ digits, c.isDigit = true) ∧ unit ∈ ['s', 'm', 'h', 'd']

/-- Every digit of the text is zero. -/
def NoTime (text : String) : Prop :=
  ∀ c ∈ text.toList, c.isDigit = true → c = '0'

theorem parseDigits_eq (digits : List Char) :
    parseDigits digits = (Nat.ofDigitChars 10 digits 0 : Nat) := by
  have hfold : ∀ n : Nat, digits.foldl
      (fun n c => 10 * n + ((c.toNat - '0'.toNat : Nat) : Int)) (n : Int) =
        (Nat.ofDigitChars 10 digits n : Nat) := by
    induction digits with
    | nil => exact fun n => rfl
    | cons c digits ih =>
        intro n
        rw [List.foldl_cons, Nat.ofDigitChars_cons, ← ih]
        push_cast
        rfl
  exact hfold 0

theorem unitMs_ne_zero_iff (c : Char) :
    unitMs c ≠ 0 ↔ c ∈ ['s', 'm', 'h', 'd'] := by
  simp only [List.mem_cons, List.not_mem_nil, or_false]
  unfold unitMs
  split_ifs <;> simp_all

/-- The four letters name the units the code takes them for. -/
theorem unitMs_of_name {c : Char} {unit : DurationUnit}
    (hc : c ∈ ['s', 'm', 'h', 'd'])
    (hname : String.ofList [c.toLower] ∈ unit.names) :
    unitMs c = unit.inMs := by
  simp only [List.mem_cons, List.not_mem_nil, or_false] at hc
  rcases hc with rfl | rfl | rfl | rfl
  all_goals
    cases unit
    all_goals first
      | rfl
      | exact absurd hname (by decide)

theorem jwtExpirationToMs_append {text : String} {digits : List Char}
    {unit : Char} (htext : text.toList = digits ++ [unit]) :
    jwtExpirationToMs text =
      if digits ≠ [] ∧ digits.all Char.isDigit = true then
        (Nat.ofDigitChars 10 digits 0 : Nat) * unitMs unit
      else 0 := by
  have hreverse : text.toList.reverse = unit :: digits.reverse := by
    rw [htext, List.reverse_append]
    rfl
  unfold jwtExpirationToMs
  rw [hreverse]
  dsimp only
  rw [List.reverse_reverse, parseDigits_eq]
  simp only [ne_eq, List.reverse_eq_nil_iff, List.all_reverse]

/-- What the pattern does not match counts as no time. -/
theorem jwtExpirationToMs_of_not {text : String} (h : ¬ OneUnit text) :
    jwtExpirationToMs text = 0 := by
  rcases List.eq_nil_or_concat text.toList with hnil | ⟨digits, unit, htext⟩
  · unfold jwtExpirationToMs
    rw [hnil]
    rfl
  · rw [List.concat_eq_append] at htext
    rw [jwtExpirationToMs_append htext]
    split
    · next hdigits =>
        by_cases hunit : unitMs unit = 0
        · rw [hunit, Int.mul_zero]
        · exact absurd ⟨digits, unit, htext, hdigits.1,
            List.all_eq_true.1 hdigits.2, (unitMs_ne_zero_iff unit).1 hunit⟩ h
    · rfl

/-- What it matches is read alike. -/
theorem jwtExpirationToMs_of_oneUnit {text : String} {x : ℚ}
    (h : OneUnit text) (hx : ReadsAs text x) :
    (jwtExpirationToMs text : ℚ) = x := by
  obtain ⟨digits, unit, htext, hne, hdigits, hunit⟩ := h
  obtain ⟨t, ht, rfl⟩ := hx
  have halpha : unit.isAlpha = true := by
    have hall : ['s', 'm', 'h', 'd'].all Char.isAlpha = true := by decide
    exact List.all_eq_true.1 hall unit hunit
  obtain ⟨hvalue, hname⟩ := t.value_of_letter (ht.trans htext) hdigits halpha
  rw [jwtExpirationToMs_append htext,
    if_pos ⟨hne, List.all_eq_true.2 hdigits⟩, hvalue,
    unitMs_of_name hunit hname]
  push_cast
  rfl

/-- The two readings of a duration agree when it is digits and one of the
four letters, or no time at all. -/
theorem jwtExpirationToMs_eq_iff {text : String} {x : ℚ}
    (hx : ReadsAs text x) :
    (jwtExpirationToMs text : ℚ) = x ↔ OneUnit text ∨ NoTime text := by
  by_cases hunit : OneUnit text
  · exact iff_of_true (jwtExpirationToMs_of_oneUnit hunit hx) (.inl hunit)
  · obtain ⟨t, ht, rfl⟩ := hx
    rw [jwtExpirationToMs_of_not hunit, Int.cast_zero, eq_comm,
      t.value_eq_zero_iff, ht, or_iff_right hunit]
    rfl

/-! ## Runs -/

/-- The record `n` belongs to a token signed at `now` for `lifetime`
milliseconds. -/
def SignedAt (cfg : AuthConfig) (lifetime now : Int) (n : NewRefreshToken) :
    Prop :=
  ∃ claims, n.token_hash = hashToken (.jwt ⟨cfg.jwtRefreshSecret, claims,
    now / 1000, now / 1000 + lifetime / 1000⟩)

/-- The moment `m` signs the token of the record and counts its expiry. -/
structure IssuedAt (cfg : AuthConfig) (m : Moment) (n : NewRefreshToken) :
    Prop where
  signed : ∃ lifetime, cfg.ms cfg.jwtRefreshExpiration = some lifetime ∧
    SignedAt cfg lifetime m.now n
  expiry : n.expires_at = m.now + jwtExpirationToMs cfg.jwtRefreshExpiration

/-- A record is stored for a token of one of the turns of its thread. -/
def Issuing (cfg : AuthConfig) (_ : AuthRequest) (mine : AuthLog)
    (op : AuthOp) : Prop :=
  ∀ n, op = .insertRefreshToken n → ∃ y ∈ mine, IssuedAt cfg y.amb n

section Follow

variable {cfg : AuthConfig} {P : AuthPolicy} {t : Nat} {request : AuthRequest}
  {m : Moment} {mine : AuthLog}

theorem sign_eq {secret expiresIn : String} {claims : JwtClaims}
    {token : RawToken}
    (h : sign cfg m secret expiresIn claims = .ok token) :
    ∃ lifetime, cfg.ms expiresIn = some lifetime ∧
      token = .jwt ⟨secret, claims, m.now / 1000,
        m.now / 1000 + lifetime / 1000⟩ := by
  unfold sign at h
  cases hms : cfg.ms expiresIn with
  | none =>
      rw [hms] at h
      exact nomatch h
  | some lifetime =>
      rw [hms] at h
      exact ⟨lifetime, rfl, (Except.ok.inj h).symm⟩

theorem issuedAt_of_sign {claims : JwtClaims} {token : RawToken}
    {n : NewRefreshToken}
    (hsign : sign cfg m cfg.jwtRefreshSecret cfg.jwtRefreshExpiration claims =
      .ok token)
    (hhash : n.token_hash = hashToken token)
    (hexpiry : n.expires_at =
      m.now + jwtExpirationToMs cfg.jwtRefreshExpiration) :
    IssuedAt cfg m n := by
  obtain ⟨lifetime, hms, rfl⟩ := sign_eq hsign
  exact ⟨⟨lifetime, hms, claims, hhash⟩, hexpiry⟩

/-- A program that only stores records issued at the moment of an answer. -/
theorem follows_of_issuedAt {α : Type} {p : AuthProg α} {amb : Moment}
    (hm : ∃ y ∈ mine, y.amb = m)
    (hp : p.Issues fun op : AuthOp => ∀ n, op = .insertRefreshToken n →
      IssuedAt cfg m n) :
    follows (authSystem cfg) P (Issuing cfg request) t request
      (fun _ _ => True) p amb mine := by
  obtain ⟨y, hy, rfl⟩ := hm
  apply follows_of_issues hp
  intro newer op hop n hn
  exact ⟨y, List.mem_append_right newer hy, hop n hn⟩

/-- Opening a session stores the record of the token it signs. -/
theorem openSession_follows {user : UserEntity}
    (hm : ∃ y ∈ mine, y.amb = m) :
    follows (authSystem cfg) P (Issuing cfg request) t request
      (fun _ _ => True) (openSession cfg user) m mine := by
  show follows (authSystem cfg) P (Issuing cfg request) t request _
    (Prog.ofExcept (sign cfg m cfg.jwtRefreshSecret cfg.jwtRefreshExpiration
      (.refresh user.id m.family m.jti)) >>= _) m mine
  cases hsign : sign cfg m cfg.jwtRefreshSecret cfg.jwtRefreshExpiration
      (.refresh user.id m.family m.jti) with
  | error e => trivial
  | ok refreshToken =>
      rw [Prog.ofExcept_ok_bind]
      apply follows_of_issuedAt hm
      apply issues_call_bind
      · rintro n ⟨⟩
        exact issuedAt_of_sign hsign rfl rfl
      · exact fun _ =>
          (issues_generateAccessToken cfg _ _).bind fun _ => trivial

/-- So does rotating a record. -/
theorem rotate_follows {record : RefreshToken} {user : UserEntity}
    (hm : ∃ y ∈ mine, y.amb = m) :
    follows (authSystem cfg) P (Issuing cfg request) t request
      (fun _ _ => True) (rotate cfg record user m) m mine := by
  show follows (authSystem cfg) P (Issuing cfg request) t request _
    (Prog.ofExcept (sign cfg m cfg.jwtRefreshSecret cfg.jwtRefreshExpiration
      (.refresh record.user_id record.family m.jti)) >>= _) m mine
  cases hsign : sign cfg m cfg.jwtRefreshSecret cfg.jwtRefreshExpiration
      (.refresh record.user_id record.family m.jti) with
  | error e => trivial
  | ok newRefreshToken =>
      rw [Prog.ofExcept_ok_bind]
      apply follows_of_issuedAt hm
      apply Prog.Issues.bind
      · apply issues_promiseAll
        · exact nofun
        · rintro n ⟨⟩
          exact issuedAt_of_sign hsign rfl rfl
      · exact fun _ =>
          (issues_generateAccessToken cfg _ _).bind fun _ => trivial

theorem login_follows (dto : LoginDto) :
    follows (authSystem cfg) P (Issuing cfg request) t request
      (fun _ _ => True) (login cfg dto) m [] := by
  apply follows_call nofun
  · exact fun _ _ _ _ _ _ => trivial
  · intro m₁ s₁ user? _ _
    cases user? with
    | none => trivial
    | some user =>
        dsimp only
        cases user.password with
        | none => trivial
        | some hash =>
            apply follows_call nofun
            · exact fun _ _ _ _ _ _ => trivial
            · intro m₂ s₂ isPasswordValid _ _
              split
              · trivial
              · split
                · trivial
                · exact openSession_follows ⟨_, List.mem_cons_self, rfl⟩

theorem refresh_follows (rawToken : RawToken) :
    follows (authSystem cfg) P (Issuing cfg request) t request
      (fun _ _ => True) (refresh cfg rawToken) m [] := by
  apply follows_call nofun
  · exact fun _ _ _ _ _ _ => trivial
  · intro m₁ s record? _ _
    cases record? with
    | none => trivial
    | some found =>
        obtain ⟨record, user⟩ := found
        show follows (authSystem cfg) P (Issuing cfg request) t request _
          (if record.expires_at < m₁.now then _ else _) m₁ _
        split
        · trivial
        · cases record.revoked_at with
          | none => exact rotate_follows ⟨_, List.mem_cons_self, rfl⟩
          | some revokedAt =>
              apply follows_of_issues
                (reuse_issues cfg (Q := fun op : AuthOp =>
                  ∀ n, op ≠ .insertRefreshToken n) (fun _ => nofun)
                  fun _ _ => nofun)
              exact fun newer op hop n hn => absurd hn (hop n)

/-- Whatever is served, records are stored as `Issuing` says. -/
theorem serve_signs (t : Nat) (request : AuthRequest) (amb : Moment) :
    follows (authSystem cfg) P (Issuing cfg request) t request
      (fun _ _ => True) (serve cfg request) amb [] := by
  have hother : (∀ n, ¬ request.MayCall (.insertRefreshToken n)) →
      follows (authSystem cfg) P (Issuing cfg request) t request
        (fun _ _ => True) (serve cfg request) amb [] := by
    intro hmay
    apply follows_of_issues (serve_mayCall cfg request)
    rintro newer op hop n rfl
    exact absurd hop (hmay n)
  cases request with
  | login dto =>
      exact follows_map (login_follows dto) (fun _ _ _ => trivial)
        fun _ _ _ => trivial
  | refresh rawToken =>
      exact follows_map (refresh_follows rawToken) (fun _ _ _ => trivial)
        fun _ _ _ => trivial
  | _ => exact hother fun _ h => h

end Follow

/--
**The two expiries.**  With a setting from which `jsonwebtoken` can sign,
`jwtExpirationToMs` reads the lifetime of the token exactly when the setting
is digits and one of `s`, `m`, `h` and `d`, or has no other digit than zero.
In every run each record that is stored belongs to a token of that lifetime,
and expires with it exactly for these settings.
-/
theorem stored_expiry_iff {cfg : AuthConfig} {reader : DurationReader}
    (hms : ∀ text, cfg.ms text = (reader.ms text).map Int.floor)
    {lifetime : ℚ}
    (hsigns : reader.ms cfg.jwtRefreshExpiration = some lifetime) :
    ((jwtExpirationToMs cfg.jwtRefreshExpiration : ℚ) = lifetime ↔
      OneUnit cfg.jwtRefreshExpiration ∨ NoTime cfg.jwtRefreshExpiration) ∧
    ∀ (P : AuthPolicy) (s₀ : Store) (c : AuthRun),
      Reachable (authSystem cfg) P s₀ c →
      ∀ x older, (x :: older) <:+ c.log →
        ∀ n, x.op = .insertRefreshToken n →
          ∃ y ∈ own x.tid older, SignedAt cfg ⌊lifetime⌋ y.amb.now n ∧
            ((n.expires_at : ℚ) = y.amb.now + lifetime ↔
              OneUnit cfg.jwtRefreshExpiration ∨
                NoTime cfg.jwtRefreshExpiration) := by
  have hagree := jwtExpirationToMs_eq_iff (reader.reads hsigns)
  refine ⟨hagree, ?_⟩
  intro P s₀ c h x older hx n hn
  obtain ⟨y, hy, hissued⟩ := (h.follows serve_signs).1 x older hx n hn
  obtain ⟨lifetime', hread, hsigned⟩ := hissued.signed
  rw [hms, hsigns] at hread
  obtain rfl : ⌊lifetime⌋ = lifetime' := Option.some.inj hread
  refine ⟨y, hy, hsigned, ?_⟩
  rw [hissued.expiry, Int.cast_add, add_right_inj]
  exact hagree

/-- The texts `sampleConfig` reads. -/
def sampleReader : DurationReader where
  ms text :=
    if text = "15m" then some 900000
    else if text = "7d" then some 604800000
    else none
  reads := by
    intro text x h
    split at h
    · next htext =>
        rw [← Option.some.inj h, htext]
        exact readsAs_of_letter ['1', '5'] 'm' .minutes (by decide)
          (by decide) (by decide) (by decide)
    · split at h
      · next htext =>
          rw [← Option.some.inj h, htext]
          exact readsAs_of_letter ['7'] 'd' .days (by decide) (by decide)
            (by decide) (by decide)
      · exact nomatch h

theorem sampleConfig_ms (text : String) :
    sampleConfig.ms text = (sampleReader.ms text).map Int.floor := by
  unfold sampleConfig sampleReader
  dsimp only
  split_ifs <;> simp

theorem stored_expiry_iff_of_loggedIn :
    ((jwtExpirationToMs "7d" : ℚ) = 604800000 ↔
      OneUnit "7d" ∨ NoTime "7d") ∧
    ∃ x older n, (x :: older) <:+ loggedIn.log ∧
      x.op = .insertRefreshToken n ∧
      ∃ y ∈ own x.tid older,
        SignedAt sampleConfig ⌊(604800000 : ℚ)⌋ y.amb.now n ∧
        ((n.expires_at : ℚ) = y.amb.now + 604800000 ↔
          OneUnit "7d" ∨ NoTime "7d") := by
  have hsigns : sampleReader.ms sampleConfig.jwtRefreshExpiration =
      some 604800000 := by rfl
  have hreach : Reachable (authSystem sampleConfig) oneAtATime sampleStore
      loggedIn := reachable_authRun _ (by decide) (by decide)
  have hlog : loggedIn.log.head (by decide) :: loggedIn.log.tail =
      loggedIn.log := List.cons_head_tail _
  obtain ⟨hagree, hruns⟩ := stored_expiry_iff sampleConfig_ms hsigns
  refine ⟨hagree, _, _, _, ⟨[], hlog⟩, by rfl, ?_⟩
  exact hruns oneAtATime sampleStore loggedIn hreach _ _ ⟨[], hlog⟩ _ (by rfl)

/-- The same process with a setting of two weeks. -/
def weeksConfig : AuthConfig :=
  { sampleConfig with
    jwtRefreshExpiration := "2w"
    ms := fun text =>
      if text = "2w" then some 1209600000 else sampleConfig.ms text }

/-- Two weeks for `ms`. -/
def weeksReader : DurationReader where
  ms text := if text = "2w" then some 1209600000 else sampleReader.ms text
  reads := by
    intro text x h
    split at h
    · next htext =>
        rw [← Option.some.inj h, htext]
        exact readsAs_of_letter ['2'] 'w' .weeks (by decide) (by decide)
          (by decide) (by decide)
    · exact sampleReader.reads h

theorem weeksConfig_ms (text : String) :
    weeksConfig.ms text = (weeksReader.ms text).map Int.floor := by
  unfold weeksConfig weeksReader
  dsimp only
  split_ifs
  · simp
  · exact sampleConfig_ms text

/-- The token it signs at time 0, for two weeks. -/
def weeksToken : RawToken :=
  .jwt ⟨"refresh-secret", .refresh 0 1 1, 0, 1209600⟩

/-- A login. -/
def loggedInForWeeks : AuthRun :=
  ((authSystem weeksConfig).schedule oneAtATime (Config.start sampleStore)
    (Tick.serve sampleLogin 0 3 { now := 0, family := 1, jti := 1 })).get
      (by decide)

/-- Its token is presented a millisecond later. -/
def presentedForWeeks : AuthRun :=
  ((authSystem weeksConfig).schedule oneAtATime
    ((authSystem weeksConfig).spawn loggedInForWeeks (.refresh weeksToken)
      { now := 1 })
    (Tick.answers 1 1 { now := 1 })).get (by decide)

/-- The token is signed for two weeks, but its record expires at once, and
presenting it a millisecond later fails. -/
theorem stored_expiry_broken :
    (weeksReader.ms "2w" = some 1209600000 ∧ jwtExpirationToMs "2w" = 0) ∧
    (Reachable (authSystem weeksConfig) oneAtATime sampleStore
        loggedInForWeeks ∧
      (∃ r ∈ loggedInForWeeks.state.refresh_tokens.rows,
        r.token_hash = hashToken weeksToken ∧ r.expires_at = 0) ∧
      Served weeksConfig oneAtATime loggedInForWeeks (.refresh weeksToken)
        (.error (.domain .TokenExpired)) presentedForWeeks) ∧
    ¬ ∀ (cfg : AuthConfig) (reader : DurationReader) (lifetime : ℚ),
      (∀ text, cfg.ms text = (reader.ms text).map Int.floor) →
      reader.ms cfg.jwtRefreshExpiration = some lifetime →
        (jwtExpirationToMs cfg.jwtRefreshExpiration : ℚ) = lifetime := by
  have hzero : jwtExpirationToMs "2w" = 0 := by decide
  refine ⟨⟨rfl, hzero⟩, ⟨?_, by decide, ?_⟩, ?_⟩
  · exact Reachable.of_schedule _ _ (by decide)
  · exact ⟨_, Steps.of_schedule _ (Option.some_get _).symm (by decide), by rfl⟩
  · intro hagree
    have htwo := hagree weeksConfig weeksReader 1209600000 weeksConfig_ms rfl
    have hcode : jwtExpirationToMs weeksConfig.jwtRefreshExpiration = 0 := hzero
    rw [hcode] at htwo
    norm_num at htwo

end Videum.Auth
