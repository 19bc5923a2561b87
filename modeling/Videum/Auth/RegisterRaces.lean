import Videum.Async.Turns
import Videum.Async.Writers
import Videum.Auth.Compensation
import Videum.Auth.NicknameRaces

/-!
# Registering one address many times at once

`register` looks the address up, computes an argon2 hash, and then inserts
the user.  Two calls may find the address free before either inserts; the
unique column refuses the second insert, and nothing turns that refusal into
`EmailAlreadyExists`.  This module says when any number of registrations of
one address end as they should.

Where one call only finds the address free, the others do nothing but look,
and that call runs as if it were alone.

## Main results

* `register_finds` — a registration alone succeeds when it finds a nickname.
* `serve_races` — how a registration ends, told from its own answers.
* `registered_once_iff` — one registration wins and the others are told so
  exactly when one look-up finds the address free and a nickname is free.
* `register_race_lost` — the loser of a race gets the database's error.
-/

namespace Videum.Auth

open Videum.Async
open Videum.Common

/-! ## Statements -/

/-- The address a request registers. -/
def AuthRequest.registeredEmail : AuthRequest → Option String
  | .register dto => some dto.email
  | _ => none

/-- Registrations of one address, at any time; nothing fails. -/
def registrationsOf (email : String) : AuthPolicy where
  accepts _ request := request.registeredEmail = some email
  fault _ _ := false

instance (email : String) (c : AuthRun) (request : AuthRequest) :
    Decidable ((registrationsOf email).accepts c request) :=
  inferInstanceAs (Decidable (request.registeredEmail = some email))

namespace AuthOp

/-- The look-up has found nobody with the address. -/
def foundNobody : (op : AuthOp) → Except AuthError op.Res → Bool
  | findUserByEmail _, .ok none => true
  | _, _ => false

/-- The look-up has found nobody with the nickname. -/
def foundNickname : (op : AuthOp) → Except AuthError op.Res → Bool
  | findChannelByNickname _ _, .ok none => true
  | _, _ => false

theorem eq_of_foundNobody {op : AuthOp} {res : Except AuthError op.Res}
    (h : op.foundNobody res = true) : ∃ email, op = .findUserByEmail email := by
  cases op with
  | findUserByEmail email => exact ⟨email, rfl⟩
  | _ => exact nomatch h

theorem eq_of_foundNickname {op : AuthOp} {res : Except AuthError op.Res}
    (h : op.foundNickname res = true) :
    ∃ aborted nickname, op = .findChannelByNickname aborted nickname := by
  cases op with
  | findChannelByNickname aborted nickname => exact ⟨aborted, nickname, rfl⟩
  | _ => exact nomatch h

end AuthOp

/-- The answer to a look-up that has found nobody with the address. -/
def findsNobody (x : AuthEntry) : Bool := x.op.foundNobody x.res

/-- The answer to a look-up that has found a nickname nobody has. -/
def findsNickname (x : AuthEntry) : Bool := x.op.foundNickname x.res

/-- One row each for a registration of the address. -/
structure OneOfEach (email : String) (id : Nat) (s : Store) : Prop where
  user : ∃ user, s.users.rows.filter (·.email == email) = [user] ∧
    user.id = id
  channel : ∃ channel, s.channels.rows.filter (·.user_id == id) = [channel]
  token : ∃ token, s.verification_tokens.rows.filter
    (fun r => r.user_id == id && r.type == .EMAIL_CONFIRMATION) = [token]

/-- One call has returned and left its rows, and all others have thrown
`EmailAlreadyExists`. -/
def RegisteredOnce (email : String) (c : AuthRun) : Prop :=
  ∃ (t : Nat) (th : AuthThread) (id : Nat), c.threads[t]? = some th ∧
    th.prog = .pure (.registered id email) ∧
    (∀ (u : Nat) (th' : AuthThread), c.threads[u]? = some th' → u ≠ t →
      th'.prog = .throw (.domain .EmailAlreadyExists)) ∧
    OneOfEach email id c.state

/-- One look-up at most has found the address free. -/
abbrev FreeOnce (log : AuthLog) : Prop := (log.filter findsNobody).length ≤ 1

/-! ## The only writer -/

section Alone

variable {cfg : AuthConfig} {P : AuthPolicy} {t : Nat} {request : AuthRequest}
  {s : Store} {amb : Moment} {email : String}

theorem insertChannel_succeeds {name nickname : String} {userId : Nat}
    (hname : name.length ≤ 50) (hnickname : nickname.length ≤ 50)
    (hfree : s.nicknameTaken nickname = false) (huser : s.hasUser userId)
    (hnone : ∀ ch ∈ s.channels.rows, ch.user_id ≠ userId) :
    ∃ channel s', s.insertChannel name nickname userId = (.ok channel, s') := by
  obtain ⟨user, hfind⟩ := Store.hasUser_iff.1 huser
  have hchannel : s.channels.rows.any (·.user_id == userId) = false := by
    rw [List.any_eq_false]
    intro ch hch
    rw [beq_iff_eq]
    exact hnone ch hch
  have htaken : s.channels.rows.any (·.nickname == nickname) = false := hfree
  unfold Store.insertChannel
  rw [if_neg (by omega), htaken, if_neg Bool.false_ne_true, if_neg]
  · exact ⟨_, _, rfl⟩
  · rw [hchannel, hfind]
    exact nofun

/-- The end of `createChannel`: it has added a channel exactly when it has
found a nickname. -/
def ChannelEnd (userId : Nat) (base : String) (s : Store)
    (r : Except AuthError Channel) (_ : Moment) (s' : Store) (log : AuthLog) :
    Prop :=
  (∃ channel nickname, r = .ok channel ∧
      s.insertChannel base nickname userId = (.ok channel, s') ∧
      log.any findsNickname = true) ∨
  (∃ e, r = .error e) ∧ s' = s ∧ log.any findsNickname = false

theorem tryNicknames_finds (hP : ∀ op e, P.fault op e = false)
    {base : String} {userId : Nat} (hbase : IsBase email base)
    (huser : s.hasUser userId)
    (hnone : ∀ ch ∈ s.channels.rows, ch.user_id ≠ userId) (attempts : Nat) :
    ∀ (nickname : String) (amb : Moment) (log : AuthLog),
      (nickname = base ∨ IsSuffixed base nickname) →
      log.any findsNickname = false →
      alone (authSystem cfg) P t request (ChannelEnd userId base s)
        (tryNicknames userId base attempts false nickname) amb s log := by
  induction attempts with
  | zero => exact fun _ _ _ _ hlog => .inr ⟨⟨_, rfl⟩, rfl, hlog⟩
  | succ attempts ih =>
      intro nickname amb log hshape hlog
      apply alone_call (hP _)
      · exact fun _ _ _ hexec => nomatch hexec
      · intro amb₁ existing _ hexec
        have hfind : s.channels.rows.find? (·.nickname == nickname) =
          existing := Except.ok.inj hexec
        have htaken := nicknameTaken_eq_find s nickname
        rw [hfind] at htaken
        cases existing with
        | some channel =>
            apply ih _ amb₁
            · exact .inr (appendRandomSuffix_isSuffixed amb₁ hbase.length.2)
            · rw [List.any_cons, hlog, Bool.or_false]
              show AuthOp.foundNickname (.findChannelByNickname false nickname)
                (.ok (s.channels.rows.find? (·.nickname == nickname))) = false
              rw [hfind]
              rfl
        | none =>
            obtain ⟨hname, hnickname⟩ := shape_length hbase hshape
            obtain ⟨channel, s', hinsert⟩ :=
              insertChannel_succeeds hname hnickname htaken huser hnone
            apply alone_bind
            apply alone_tryCatch
            apply alone_call (hP _)
            · intro amb₂ e _ hexec₂
              change (s.insertChannel base nickname userId).1 = .error e
                at hexec₂
              rw [hinsert] at hexec₂
              exact nomatch hexec₂
            · intro amb₂ (channel' : Channel) _ hexec₂
              change (s.insertChannel base nickname userId).1 = .ok channel'
                at hexec₂
              refine .inl ⟨channel', nickname, rfl, Prod.ext hexec₂ rfl, ?_⟩
              rw [List.any_cons, List.any_cons, Bool.or_eq_true,
                Bool.or_eq_true]
              refine .inr (.inl ?_)
              show AuthOp.foundNickname (.findChannelByNickname false nickname)
                (.ok (s.channels.rows.find? (·.nickname == nickname))) = true
              rw [hfind]
              rfl

theorem createChannel_finds (hP : ∀ op e, P.fault op e = false) {userId : Nat}
    (huser : s.hasUser userId)
    (hnone : ∀ ch ∈ s.channels.rows, ch.user_id ≠ userId) {log : AuthLog}
    (hlog : log.any findsNickname = false) :
    alone (authSystem cfg) P t request
      (fun r amb' s' log => ChannelEnd userId
        (sanitizeNickname amb (emailPrefix email)) s r amb' s' log)
      (createChannel userId email) amb s log :=
  tryNicknames_finds hP (sanitizeNickname_isBase amb email) huser hnone
    (maxRetries + 1) _ amb log (.inl rfl) hlog

/-- The end of `createUserWithChannel`: a user and its channel are there
exactly when a nickname was found. -/
def CreatedEnd (email : String) (s : Store)
    (r : Except AuthError (UserEntity × Channel)) (_ : Moment) (s' : Store)
    (log : AuthLog) : Prop :=
  (∃ user channel, r = .ok (user, channel) ∧
      UserAdded email s s' user channel ∧ log.any findsNickname = true) ∨
  (∃ e, r = .error e) ∧ log.any findsNickname = false

theorem createUserWithChannel_finds (hP : ∀ op e, P.fault op e = false)
    (hkeys : ForeignKeys s) (hfree : s.userByEmail email = none)
    {password : PasswordHash} {log : AuthLog}
    (hlog : log.any findsNickname = false) :
    alone (authSystem cfg) P t request (CreatedEnd email s)
      (createUserWithChannel email password) amb s log := by
  have hinsert : s.insertUser email password =
      (.ok ⟨s.users.nextId, email, some password, false⟩,
        s.withUser email password) := by
    unfold Store.insertUser
    rw [hfree]
    rfl
  apply alone_call (hP _)
  · intro amb₁ e _ hexec
    change (s.insertUser email password).1 = .error e at hexec
    rw [hinsert] at hexec
    exact nomatch hexec
  · intro amb₁ user _ hexec
    change (s.insertUser email password).1 = .ok user at hexec
    rw [hinsert] at hexec
    cases hexec
    show alone (authSystem cfg) P t request (CreatedEnd email s) _ amb₁
      (s.insertUser email password).2 _
    rw [hinsert]
    have huser : (s.withUser email password).hasUser s.users.nextId :=
      ⟨_, (Table.mem_insert (h := rfl)).2 (.inr rfl), rfl⟩
    have hnone : ∀ ch ∈ s.channels.rows, ch.user_id ≠ s.users.nextId := by
      intro ch hch hid
      have href : s.referenced s.users.nextId = true := by
        unfold Store.referenced
        rw [Bool.or_eq_true, Bool.or_eq_true, List.any_eq_true]
        exact .inl (.inl ⟨ch, hch, beq_iff_eq.2 hid⟩)
      obtain ⟨u, hu, huid⟩ := hkeys _ href
      have hlt := s.users.keys_lt u hu
      omega
    have hlog₁ : ((authSystem cfg).entry t request amb₁
        (.insertUser email password) none s :: log).any findsNickname =
          false := by
      rw [List.any_cons, hlog]
      rfl
    apply alone_tryCatch
    apply alone_bind
    apply alone_mono ?_ (createChannel_finds hP huser hnone hlog₁)
    rintro r amb₂ s₂ log₂ (⟨channel, nickname, rfl, hchannel, hfound⟩ |
      ⟨⟨e, rfl⟩, rfl, hfound⟩)
    · exact .inl ⟨_, channel, rfl, userAdded_of_insert hchannel, hfound⟩
    · apply alone_call (hP _)
      · exact fun _ e' _ _ => .inr ⟨⟨e', rfl⟩, hfound⟩
      · exact fun _ _ _ _ => .inr ⟨⟨e, rfl⟩, hfound⟩

/-- The end of a registration of an address that is free. -/
def CreatorEnd (email : String) (s : Store)
    (r : Except AuthError (Nat × String)) (_ : Moment) (s' : Store)
    (log : AuthLog) : Prop :=
  (∃ id, r = .ok (id, email) ∧ Registered email id s s' ∧
      log.any findsNickname = true) ∨
  (∃ e, r = .error e) ∧ log.any findsNickname = false

/-- With its user and channel there, a registration returns. -/
theorem confirmation_succeeds (hP : ∀ op e, P.fault op e = false)
    {user : UserEntity} {channel : Channel} {s' : Store} {log : AuthLog}
    (hadded : UserAdded email s s' user channel)
    (hfound : log.any findsNickname = true) :
    alone (authSystem cfg) P t request (CreatorEnd email s)
      (createVerificationToken user.id .EMAIL_CONFIRMATION
          cfg.confirmationTokenExpirationHours >>= fun rawToken =>
        sendConfirmationEmail cfg user.email channel.name rawToken >>= fun _ =>
          Prog.pure (user.id, user.email)) amb s' log := by
  obtain ⟨row, hrows, hid, hemail⟩ := hadded.row
  obtain ⟨hchannels, howner⟩ := hadded.channel
  have huser : s'.hasUser user.id := by
    refine ⟨row, ?_, hid⟩
    rw [hrows]
    exact List.mem_append_right _ (.head _)
  obtain ⟨u, hu⟩ := Store.hasUser_iff.1 huser
  rw [createVerificationToken_bind, alone]
  have hok := Store.insertVerificationToken_ok
    (v := issuedColumns user.id .EMAIL_CONFIRMATION
      cfg.confirmationTokenExpirationHours amb) hu
  apply alone_call (hP _)
  · intro amb₁ e _ hexec
    cases hok.symm.trans hexec
  · intro amb₁ _ _ hexec
    have htoken := tokenAdded_of_insert hok
    apply alone_call (hP _)
    · rintro _ _ _ ⟨⟩
    · intro amb₂ _ _ _
      have htokens := htoken.verification_tokens
      rw [hadded.verification_tokens] at htokens
      refine .inl ⟨user.id, ?_, ⟨⟨row, ?_, hid, hemail⟩, ⟨channel, ?_, howner⟩,
        ⟨_, htokens, rfl, rfl, rfl⟩⟩, ?_⟩
      · show Except.ok (user.id, user.email) = _
        rw [hadded.address]
      · exact (congrArg Table.rows htoken.users).trans hrows
      · exact (congrArg Table.rows htoken.channels).trans hchannels
      · rw [List.any_cons, List.any_cons, hfound, Bool.or_true, Bool.or_true]

/-- A registration of a free address, alone and with no failures: it succeeds
exactly when it finds a nickname. -/
theorem register_finds (hP : ∀ op e, P.fault op e = false)
    (hkeys : ForeignKeys s) {dto : RegisterDto}
    (hfree : s.userByEmail dto.email = none) {log : AuthLog}
    (hlog : log.any findsNickname = false) :
    alone (authSystem cfg) P t request (CreatorEnd dto.email s)
      (register cfg dto) amb s log := by
  apply alone_call (hP _)
  · exact fun _ _ _ hexec => nomatch hexec
  · intro amb₁ existing _ hexec
    have hexisting : existing = none := by
      have hfind : (s.userByEmail dto.email).map User.entityWithPassword =
        existing := Except.ok.inj hexec
      rw [← hfind, hfree]
      rfl
    subst hexisting
    apply alone_call (hP _)
    · exact fun _ _ _ hexec => nomatch hexec
    · intro amb₂ hashedPassword _ _
      apply alone_bind
      apply alone_mono ?_ (createUserWithChannel_finds hP hkeys hfree ?_)
      · rintro r amb₃ s₃ log₃ (⟨user, channel, rfl, hadded, hfound⟩ |
          ⟨⟨e, rfl⟩, hfound⟩)
        · exact confirmation_succeeds hP hadded hfound
        · exact .inr ⟨⟨e, rfl⟩, hfound⟩
      · rw [List.any_cons, List.any_cons, hlog]
        rfl

end Alone

/-! ## Every registration -/

/-- The error that tells a caller that the address is taken. -/
abbrev told : AuthError := .domain .EmailAlreadyExists

/-- A call of a registration is the look-up of its address, or comes after
that has found nobody. -/
def Racing (request : AuthRequest) (mine : AuthLog) (op : AuthOp) : Prop :=
  request.registers = true → (mine = [] ∧ ∃ email, op = .findUserByEmail email) ∨
    ((∃ y ∈ mine, findsNobody y = true) ∧ ∀ email, op ≠ .findUserByEmail email)

/-- A registration that has ended was told that the address is taken, unless
its look-up has found nobody. -/
def RaceEnd {α : Type} (r : Except AuthError α) (mine : AuthLog) : Prop :=
  (r = .error told ∧ ∀ y ∈ mine, findsNobody y = false) ∨
    (r ≠ .error told ∧ ∃ y ∈ mine, findsNobody y = true)

/-- The program does not throw `told` unless one of its calls does. -/
abbrev Untold {α : Type} (p : AuthProg α) : Prop :=
  p.Until (fun _ r => r = .error told) fun r => r ≠ .error told

section Untold

variable {α β : Type}

theorem untold_call (op : AuthOp) : Untold (await op) := by
  intro r
  cases r with
  | ok v => exact .inr nofun
  | error e =>
      by_cases he : e = told
      · exact .inl (congrArg _ he)
      · exact .inr fun h => he (Except.error.inj h)

theorem Untold.bind {p : AuthProg α} {f : α → AuthProg β} (hp : Untold p)
    (hf : ∀ a, Untold (f a)) : Untold (p >>= f) := by
  apply Prog.Until.bind
  apply hp.mono
  intro r hr
  cases r with
  | ok a => exact hf a
  | error e => exact fun h => hr (congrArg _ (Except.error.inj h))

theorem Untold.tryCatch {p : AuthProg α} {h : AuthError → AuthProg α}
    (hp : Untold p) (hh : ∀ e, e ≠ told → Untold (h e)) :
    Untold (p.tryCatch h) := by
  apply Prog.Until.tryCatch
  apply hp.mono
  intro r hr
  cases r with
  | ok a => exact nofun
  | error e => exact hh e fun he => hr (congrArg _ he)

theorem untold_pure (a : α) : Untold (Prog.pure a) := nofun

theorem untold_throw {e : AuthError} (he : e ≠ told) :
    Untold (Prog.throw e : AuthProg α) :=
  fun h => he (Except.error.inj h)

theorem tryNicknames_untold (userId : Nat) (base : String) (attempts : Nat) :
    ∀ (aborted : Bool) (nickname : String),
      Untold (tryNicknames userId base attempts aborted nickname) := by
  induction attempts with
  | zero => exact fun _ _ => untold_throw nofun
  | succ attempts ih =>
      intro aborted nickname
      apply (untold_call _).bind
      intro existing
      cases existing with
      | some channel => exact fun moment => ih aborted _
      | none =>
          have hsaved : Untold (await (.insertChannel base nickname userId)
              >>= fun channel => (Prog.pure (some channel) :
                AuthProg (Option Channel))) :=
            (untold_call _).bind fun _ => untold_pure _
          apply (hsaved.tryCatch ?_).bind
          · intro saved
            cases saved with
            | some channel => exact untold_pure channel
            | none => exact fun moment => ih true _
          · intro e he
            split
            · exact untold_pure none
            · exact untold_throw he

theorem createUserWithChannel_untold (email : String)
    (password : PasswordHash) : Untold (createUserWithChannel email password) := by
  apply (untold_call _).bind
  intro savedUser
  have hchannel : Untold (createChannel savedUser.id email) :=
    fun moment => tryNicknames_untold _ _ _ _ _
  apply (hchannel.bind fun channel => untold_pure (savedUser, channel)).tryCatch
  exact fun e he => (untold_call _).bind fun _ => untold_throw he

end Untold

/-- The database does not know about that error. -/
theorem exec_ne_told (m : Moment) (op : AuthOp) (s : Store) :
    (Store.exec m op s).1 ≠ .error told := by
  cases op with
  | insertUser email password =>
      show (s.insertUser email password).1 ≠ _
      unfold Store.insertUser
      split <;> rintro ⟨⟩
  | deleteUser id =>
      show (s.deleteUser id).1 ≠ _
      unfold Store.deleteUser
      split <;> rintro ⟨⟩
  | findChannelByNickname aborted nickname =>
      show s.findChannelByNickname aborted nickname ≠ _
      unfold Store.findChannelByNickname
      split <;> rintro ⟨⟩
  | insertChannel name nickname userId =>
      show (s.insertChannel name nickname userId).1 ≠ _
      unfold Store.insertChannel
      split
      · rintro ⟨⟩
      · split
        · rintro ⟨⟩
        · split <;> rintro ⟨⟩
  | insertVerificationToken v =>
      show (s.insertVerificationToken v).1 ≠ _
      unfold Store.insertVerificationToken
      split <;> rintro ⟨⟩
  | insertRefreshToken r =>
      show (s.insertRefreshToken r).1 ≠ _
      unfold Store.insertRefreshToken
      split <;> rintro ⟨⟩
  | _ => rintro ⟨⟩

/-- Two entries that are selected are one, when one at most is. -/
theorem eq_of_filter_length {ρ : Type} {rows : List ρ} {p : ρ → Bool}
    (h : (rows.filter p).length ≤ 1) {x y : ρ} (hx : x ∈ rows)
    (hpx : p x = true) (hy : y ∈ rows) (hpy : p y = true) : x = y := by
  have hx' := List.mem_filter.2 ⟨hx, hpx⟩
  have hy' := List.mem_filter.2 ⟨hy, hpy⟩
  cases hrows : rows.filter p with
  | nil =>
      rw [hrows] at hx'
      exact nomatch hx'
  | cons z zs =>
      rw [hrows, List.length_cons] at h
      have hzs : zs = [] := List.length_eq_zero_iff.1 (by omega)
      rw [hrows, hzs, List.mem_singleton] at hx' hy'
      exact hx'.trans hy'.symm

section Races

variable {cfg : AuthConfig} {s₀ : Store} {email : String} {c : AuthRun}

/-- What a registration does after its look-up has found nobody. -/
theorem creation_races {t : Nat} {dto : RegisterDto} {x : AuthEntry}
    (hx : findsNobody x = true) {amb : Moment} :
    follows (authSystem cfg) (registrationsOf email)
      (Racing (.register dto)) t (.register dto) RaceEnd
      (await (.hashPassword dto.password) >>= fun hashedPassword =>
        createUserWithChannel dto.email hashedPassword >>= fun pair =>
          createVerificationToken pair.1.id .EMAIL_CONFIRMATION
              cfg.confirmationTokenExpirationHours >>= fun rawToken =>
            sendConfirmationEmail cfg pair.1.email pair.2.name rawToken >>=
              fun _ => Prog.pure (pair.1.id, pair.1.email)) amb [x] := by
  have hissues : (await (.hashPassword dto.password) >>= fun hashedPassword =>
        createUserWithChannel dto.email hashedPassword >>= fun pair =>
          createVerificationToken pair.1.id .EMAIL_CONFIRMATION
              cfg.confirmationTokenExpirationHours >>= fun rawToken =>
            sendConfirmationEmail cfg pair.1.email pair.2.name rawToken >>=
              fun _ => (Prog.pure (pair.1.id, pair.1.email) :
                AuthProg (Nat × String))).Issues
      fun op : AuthOp => ∀ email, op ≠ .findUserByEmail email := by
    apply issues_call_bind nofun
    intro hashedPassword
    apply (createUserWithChannel_issues nofun (fun _ => nofun)
      (fun _ _ => nofun) fun _ _ _ => nofun).bind
    exact fun pair =>
      confirmation_issues cfg pair.1 pair.2 (fun _ _ => nofun) fun _ => nofun
  have huntold : Untold (await (.hashPassword dto.password) >>=
        fun hashedPassword =>
        createUserWithChannel dto.email hashedPassword >>= fun pair =>
          createVerificationToken pair.1.id .EMAIL_CONFIRMATION
              cfg.confirmationTokenExpirationHours >>= fun rawToken =>
            sendConfirmationEmail cfg pair.1.email pair.2.name rawToken >>=
              fun _ => Prog.pure (pair.1.id, pair.1.email)) := by
    apply (untold_call _).bind
    intro hashedPassword
    apply (createUserWithChannel_untold _ _).bind
    intro pair
    have htoken : Untold (createVerificationToken pair.1.id .EMAIL_CONFIRMATION
        cfg.confirmationTokenExpirationHours) :=
      fun moment => (untold_call _).bind fun _ => untold_pure _
    exact htoken.bind fun _ => (untold_call _).bind fun _ => untold_pure _
  apply follows_mono ?_ (follows_newer hissues (follows_until huntold hissues
    ?_ ?_))
  · rintro r mine ⟨hr, newer, rfl, _⟩
    exact .inr ⟨hr, x, List.mem_append_right _ (.head _), hx⟩
  · exact fun newer op hop _ =>
      .inr ⟨⟨x, List.mem_append_right _ (.head _), hx⟩, hop⟩
  · intro amb op fault s hfault
    cases fault with
    | some e => exact nomatch hfault
    | none => exact exec_ne_told amb op s

theorem register_races (t : Nat) (dto : RegisterDto) (amb : Moment) :
    follows (authSystem cfg) (registrationsOf email)
      (Racing (.register dto)) t (.register dto) RaceEnd (register cfg dto) amb
      [] := by
  apply follows_call (fun _ => .inl ⟨rfl, dto.email, rfl⟩)
  · intro amb₁ fault s e hfault hanswer
    cases fault with
    | some e' => exact nomatch hfault
    | none => exact nomatch hanswer
  · intro amb₁ s existing _ hexec
    have hfind : (s.userByEmail dto.email).map User.entityWithPassword =
      existing := Except.ok.inj hexec
    cases existing with
    | some user =>
        refine .inl ⟨rfl, ?_⟩
        intro y hy
        rw [List.mem_singleton.1 hy]
        show AuthOp.foundNobody (.findUserByEmail dto.email)
          (.ok ((s.userByEmail dto.email).map User.entityWithPassword)) = false
        rw [hfind]
        rfl
    | none =>
        apply creation_races
        show AuthOp.foundNobody (.findUserByEmail dto.email)
          (.ok ((s.userByEmail dto.email).map User.entityWithPassword)) = true
        rw [hfind]
        rfl

/-- How a registration goes and ends, told from its own answers. -/
theorem serve_races (t : Nat) (request : AuthRequest) (amb : Moment) :
    follows (authSystem cfg) (registrationsOf email) (Racing request) t request
      (fun r mine => request.registers = true → RaceEnd r mine)
      (serve cfg request) amb [] := by
  have hother : request.registers = false →
      follows (authSystem cfg) (registrationsOf email) (Racing request) t
        request (fun r mine => request.registers = true → RaceEnd r mine)
        (serve cfg request) amb [] := by
    intro hrequest
    apply follows_mono ?_ (follows_of_issues (serve_mayCall cfg request) ?_)
    · exact fun _ _ _ h => nomatch hrequest.symm.trans h
    · exact fun _ _ _ h => nomatch hrequest.symm.trans h
  cases request with
  | register dto =>
      apply follows_map (register_races t dto amb)
      · intro pair mine hend _
        rcases hend with ⟨htold, _⟩ | ⟨_, hfound⟩
        · exact nomatch htold
        · exact .inr ⟨nofun, hfound⟩
      · intro e mine hend _
        rcases hend with ⟨htold, hnone⟩ | ⟨huntold, hfound⟩
        · cases htold
          exact .inl ⟨rfl, hnone⟩
        · exact .inr ⟨fun h => huntold (congrArg _ (Except.error.inj h)), hfound⟩
  | _ => exact hother rfl

/-- Such a run serves registrations only. -/
theorem registers_of_reachable
    (h : Reachable (authSystem cfg) (registrationsOf email) s₀ c) {t : Nat}
    {th : AuthThread} (hth : c.threads[t]? = some th) :
    th.request.registers = true := by
  apply h.requested (Q := fun request => request.registers = true) ?_ hth
  intro _ request haccept
  cases request with
  | register dto => rfl
  | _ => exact nomatch haccept

/-- A call of a run of registrations. -/
theorem racing_of_reachable
    (h : Reachable (authSystem cfg) (registrationsOf email) s₀ c)
    {x : AuthEntry} {older : AuthLog} (hx : (x :: older) <:+ c.log) :
    (own x.tid older = [] ∧ ∃ email, x.op = .findUserByEmail email) ∨
      ((∃ y ∈ own x.tid older, findsNobody y = true) ∧
        ∀ email, x.op ≠ .findUserByEmail email) := by
  have hlaw := (h.follows serve_races).1 x older hx
  apply hlaw
  obtain ⟨th, hth, hrequest⟩ := h.logOwned x (hx.subset (.head _))
  rw [← hrequest]
  exact registers_of_reachable h hth

/-- A registration whose look-up has found somebody writes nothing. -/
theorem onlyWriter_of_findsNobody
    (h : Reachable (authSystem cfg) (registrationsOf email) s₀ c) {t : Nat}
    (hothers : ∀ y ∈ c.log, findsNobody y = true → y.tid = t) :
    OnlyWriter t c.log := by
  intro x hx htid
  obtain ⟨older, hs⟩ := older_of_mem hx
  have hafter := (h.entry_exec (fun _ _ => rfl) hx).2
  rcases racing_of_reachable h hs with ⟨_, email', hop⟩ | ⟨⟨y, hy, hfound⟩, _⟩
  · rw [hafter, hop]
    rfl
  · obtain ⟨hyolder, hytid⟩ := mem_own.1 hy
    have hylog : y ∈ c.log := hs.subset (.tail _ hyolder)
    exact absurd (hytid.symm.trans (hothers y hylog hfound)) htid

/-- What the only registration that finds the address free ends in. -/
def WinnerEnd (s₀ : Store) (request : AuthRequest)
    (r : Except AuthError AuthReply) (_ : Moment) (s : Store) (log : AuthLog) :
    Prop :=
  ∀ email, request.registeredEmail = some email →
    (∃ id, r = .ok (.registered id email) ∧ Registered email id s₀ s ∧
        log.any findsNickname = true) ∨
    (∃ e, r = .error e) ∧ log.any findsNickname = false

theorem winner_ended (hkeys : ForeignKeys s₀)
    (hfree : s₀.userByEmail email = none)
    (h : Reachable (authSystem cfg) (registrationsOf email) s₀ c) {t : Nat}
    (hothers : ∀ y ∈ c.log, findsNobody y = true → y.tid = t)
    {th : AuthThread} (hth : c.threads[t]? = some th)
    (hended : th.prog.running = false) :
    ∃ r amb, th.prog = Prog.ofExcept r ∧
      WinnerEnd s₀ th.request r amb c.state (own t c.log) := by
  apply h.alone_ended ?_ (onlyWriter_of_findsNobody h hothers) hth hended
  intro _ request amb haccept
  cases request with
  | register dto =>
      have hemail : dto.email = email := Option.some.inj haccept
      subst hemail
      apply alone_map (register_finds (fun _ _ => rfl) hkeys hfree (by rfl))
      · rintro pair amb' s log (⟨id, hr, hregistered, hfound⟩ | ⟨⟨e, he⟩, _⟩) _
          ⟨⟩
        · cases hr
          exact .inl ⟨id, rfl, hregistered, hfound⟩
        · exact nomatch he
      · rintro e amb' s log (⟨_, hr, _⟩ | ⟨_, hfound⟩) _ ⟨⟩
        · exact nomatch hr
        · exact .inr ⟨⟨e, rfl⟩, hfound⟩
  | _ => exact nomatch haccept

/-- The one row of a table that is new and selected. -/
theorem filter_append_single {ρ : Type} {rows : List ρ} {r : ρ} {p : ρ → Bool}
    (hold : ∀ x ∈ rows, p x = false) (hr : p r = true) :
    (rows ++ [r]).filter p = [r] := by
  have hnone : rows.filter p = [] := by
    rw [List.filter_eq_nil_iff]
    intro x hx
    rw [hold x hx]
    exact Bool.false_ne_true
  rw [List.filter_append, hnone, List.nil_append, List.filter_cons_of_pos hr,
    List.filter_nil]

/-- A registration of a free address leaves one row of each kind. -/
theorem oneOfEach_of_registered {id : Nat} {s : Store}
    (hkeys : ForeignKeys s₀) (hfree : s₀.userByEmail email = none)
    (h : Registered email id s₀ s) : OneOfEach email id s := by
  obtain ⟨user, husers, hid, hemail⟩ := h.user
  obtain ⟨channel, hchannels, howner⟩ := h.channel
  obtain ⟨token, htokens, htoken, htype, _⟩ := h.token
  have hnobody : ∀ u ∈ s₀.users.rows, (u.email == email) = false := by
    intro u hu
    have hnone := List.find?_eq_none.1 hfree u hu
    simpa using hnone
  have hnew : ¬ s₀.hasUser id := by
    rintro ⟨u, hu, huid⟩
    have hmem : ∀ v, v ∈ s₀.users.rows ∨ v = user → v ∈ s.users.rows := by
      intro v hv
      rw [husers]
      rcases hv with hv | rfl
      · exact List.mem_append_left _ hv
      · exact List.mem_append_right _ (.head _)
    have heq := s.users.unique (hmem u (.inl hu)) (hmem user (.inr rfl))
      (huid.trans hid.symm)
    have hnone := hnobody u hu
    rw [heq, hemail, beq_self_eq_true] at hnone
    exact nomatch hnone
  have hunreferenced : s₀.referenced id = false := by
    rw [Bool.eq_false_iff]
    exact fun href => hnew (hkeys id href)
  unfold Store.referenced at hunreferenced
  rw [Bool.or_eq_false_iff, Bool.or_eq_false_iff] at hunreferenced
  obtain ⟨⟨hch, htok⟩, _⟩ := hunreferenced
  rw [List.any_eq_false] at hch htok
  constructor
  · refine ⟨user, ?_, hid⟩
    rw [husers]
    exact filter_append_single hnobody (beq_iff_eq.2 hemail)
  · refine ⟨channel, ?_⟩
    rw [hchannels]
    apply filter_append_single
    · exact fun x hx => Bool.eq_false_iff.2 (hch x hx)
    · exact beq_iff_eq.2 howner
  · refine ⟨token, ?_⟩
    rw [htokens]
    apply filter_append_single
    · intro x hx
      rw [Bool.eq_false_iff.2 (htok x hx), Bool.false_and]
    · rw [htoken, htype, beq_self_eq_true]
      rfl

/-- A registration that has ended, and what its own look-up has found. -/
theorem raceEnd_of_idle
    (h : Reachable (authSystem cfg) (registrationsOf email) s₀ c)
    (hidle : c.idle = true) {u : Nat} {th : AuthThread}
    (hth : c.threads[u]? = some th) :
    (th.prog = .throw told ∧ ∀ y ∈ own u c.log, findsNobody y = false) ∨
      (th.prog ≠ .throw told ∧ ∃ y ∈ own u c.log, findsNobody y = true) := by
  have hended := Config.idle_iff.1 hidle th (List.mem_of_getElem? hth)
  obtain ⟨r, hprog, hend⟩ := h.follows_ended serve_races hth hended
  rw [hprog]
  apply (hend (registers_of_reachable h hth)).imp
  · rintro ⟨rfl, hnone⟩
    exact ⟨rfl, hnone⟩
  · rintro ⟨hr, hfound⟩
    refine ⟨?_, hfound⟩
    intro heq
    cases r with
    | ok a => exact nomatch heq
    | error e =>
        cases heq
        exact hr rfl

/--
**Concurrent registrations.**  From tables whose rows reference users that are
there, and in which nobody has the address: any number of registrations of it,
interleaved in any way and with no failures, end with one that has returned
and left its user, channel and token and all others told that the address is
taken, exactly when one look-up at most found the address free and a nickname
was found that nobody had.
-/
theorem registered_once_iff (hkeys : ForeignKeys s₀)
    (hfree : s₀.userByEmail email = none)
    (h : Reachable (authSystem cfg) (registrationsOf email) s₀ c)
    (hidle : c.idle = true) :
    RegisteredOnce email c ↔
      FreeOnce c.log ∧ ∃ x ∈ c.log, findsNickname x = true := by
  constructor
  · rintro ⟨t, th, id, hth, hreturned, hlosers, _⟩
    have hothers : ∀ y ∈ c.log, findsNobody y = true → y.tid = t := by
      intro y hy hfound
      by_contra htid
      obtain ⟨th', hth', _⟩ := h.logOwned y hy
      rcases raceEnd_of_idle h hidle hth' with ⟨_, hnone⟩ | ⟨huntold, _⟩
      · have hsame := hnone y (mem_own.2 ⟨hy, rfl⟩)
        exact nomatch hfound.symm.trans hsame
      · exact huntold (hlosers y.tid th' hth' htid)
    constructor
    · apply filter_length_le_one
      intro x y older hs hx hy
      by_contra hfound
      rw [Bool.not_eq_false] at hfound
      have hxtid := hothers x (hs.subset (.head _)) hx
      have hytid := hothers y (hs.subset (.tail _ hy)) hfound
      have hmem : y ∈ own x.tid older :=
        mem_own.2 ⟨hy, hytid.trans hxtid.symm⟩
      rcases racing_of_reachable h hs with ⟨hfirst, _⟩ | ⟨_, hop⟩
      · rw [hfirst] at hmem
        exact nomatch hmem
      · obtain ⟨email', hlookup⟩ := AuthOp.eq_of_foundNobody hx
        exact hop email' hlookup
    · have hended := Config.idle_iff.1 hidle th (List.mem_of_getElem? hth)
      obtain ⟨r, _, hprog, hend⟩ :=
        winner_ended hkeys hfree h hothers hth hended
      rcases hend email (h.requested (fun _ _ haccept => haccept) hth) with
        ⟨_, _, _, hfound⟩ | ⟨⟨e, rfl⟩, _⟩
      · obtain ⟨x, hx, hnickname⟩ := List.any_eq_true.1 hfound
        exact ⟨x, (mem_own.1 hx).1, hnickname⟩
      · rw [hreturned] at hprog
        exact nomatch hprog
  · rintro ⟨honce, x, hx, hnickname⟩
    obtain ⟨older, hs⟩ := older_of_mem hx
    -- whoever looks for a nickname has found the address free
    have hfinder : ∃ y ∈ own x.tid older, findsNobody y = true := by
      rcases racing_of_reachable h hs with ⟨_, email', hop⟩ | ⟨hfound, _⟩
      · obtain ⟨_, _, hlookup⟩ := AuthOp.eq_of_foundNickname hnickname
        exact nomatch hop.symm.trans hlookup
      · exact hfound
    obtain ⟨y, hy, hnobody⟩ := hfinder
    obtain ⟨hyolder, hytid⟩ := mem_own.1 hy
    have hylog : y ∈ c.log := hs.subset (.tail _ hyolder)
    have hothers : ∀ z ∈ c.log, findsNobody z = true → z.tid = x.tid := by
      intro z hz hfound
      rw [← hytid, eq_of_filter_length honce hz hfound hylog hnobody]
    obtain ⟨th, hth, _⟩ := h.logOwned x hx
    have hended := Config.idle_iff.1 hidle th (List.mem_of_getElem? hth)
    obtain ⟨r, _, hprog, hend⟩ := winner_ended hkeys hfree h hothers hth hended
    rcases hend email (h.requested (fun _ _ haccept => haccept) hth) with
      ⟨id, rfl, hregistered, _⟩ | ⟨_, hnone⟩
    · refine ⟨x.tid, th, id, hth, hprog, ?_,
        oneOfEach_of_registered hkeys hfree hregistered⟩
      intro u th' hth' hu
      rcases raceEnd_of_idle h hidle hth' with ⟨htold, _⟩ | ⟨_, z, hz, hfound⟩
      · exact htold
      · obtain ⟨hzlog, hztid⟩ := mem_own.1 hz
        exact absurd (hztid.symm.trans (hothers z hzlog hfound)) hu
    · have hfound : (own x.tid c.log).any findsNickname = true :=
        List.any_eq_true.2 ⟨x, mem_own.2 ⟨hx, rfl⟩, hnickname⟩
      exact nomatch hfound.symm.trans hnone

end Races

def shortRegister : AuthRequest := .register ⟨"u@a", "password", by decide⟩

/-- The second registration looks when the first has inserted its user. -/
def inTurnRun : AuthRun :=
  authRun (registrationsOf "u@a") {}
    (Tick.serve shortRegister 0 3 { now := 0 } ++
      Tick.serve shortRegister 1 1 { now := 0 } ++
      Tick.answers 0 4 { now := 0 })
    (by decide)

theorem registeredOnce_inTurn : RegisteredOnce "u@a" inTurnRun := by
  have hreachable : Reachable (authSystem sampleConfig) (registrationsOf "u@a")
      {} inTurnRun := reachable_authRun _ _ (by decide)
  exact (registered_once_iff foreignKeys_empty (by rfl) hreachable
    (by decide)).2 ⟨by decide, by decide⟩

/-- Both registrations look before either inserts its user. -/
def racingRun : AuthRun :=
  authRun (registrationsOf "u@a") {}
    (Tick.serve shortRegister 0 1 { now := 0 } ++
      Tick.serve shortRegister 1 1 { now := 0 } ++
      Tick.answers 0 6 { now := 0 } ++ Tick.answers 1 2 { now := 0 })
    (by decide)

/-- The first returns; the second gets the violation of the unique column. -/
theorem register_race_lost :
    Reachable (authSystem sampleConfig) (registrationsOf "u@a") {} racingRun ∧
    racingRun.idle = true ∧
    racingRun.threads =
      [⟨shortRegister, .pure (.registered 0 "u@a")⟩,
        ⟨shortRegister, .throw .database⟩] ∧
    ¬ RegisteredOnce "u@a" racingRun := by
  have hthreads : racingRun.threads =
      [⟨shortRegister, .pure (.registered 0 "u@a")⟩,
        ⟨shortRegister, .throw .database⟩] := by rfl
  refine ⟨reachable_authRun _ _ (by decide), by decide, hthreads, ?_⟩
  rintro ⟨t, th, id, hth, hreturned, hlosers, _⟩
  rw [hthreads] at hth hlosers
  cases t with
  | zero => exact nomatch hlosers 1 _ rfl (Nat.succ_ne_zero 0)
  | succ t =>
      cases t with
      | zero =>
          cases hth
          exact nomatch hreturned
      | succ t => exact nomatch hth

end Videum.Auth
