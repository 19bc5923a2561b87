import Videum.Auth.Atomicity
import Videum.Auth.Channels
import Videum.Auth.Nicknames

/-!
# A registration that fails

`register` adds a user, a channel and a verification token in three
transactions, and sends a mail after them.  Where the channel fails the user is
deleted again; where the token or the mail fails nothing is taken back.  The
registration is all or nothing exactly when these two do not fail.

## Main results

* `createUserWithChannel_compensates` — a user and its channel, or neither.
* `register_all_or_nothing_iff` — when a registration is all or nothing.
* `register_torn` — a registration that throws and leaves its user behind.
-/

namespace Videum.Auth

open Videum.Async
open Videum.Common

/-! ## Statements -/

/-- One request after another.  The hash, the inserts of a registration, the
look-up of a nickname and the mail may fail. -/
def registrationMayFail : AuthPolicy where
  accepts c _ := c.idle = true
  fault op e :=
    match op with
    | .hashPassword _ => e == .argon2
    | .insertUser _ _ => e == .database
    | .findChannelByNickname _ _ => e == .database
    | .insertChannel _ _ _ => e == .database
    | .insertVerificationToken _ => e == .database
    | .sendMail _ => e == .mail
    | _ => false

instance (c : AuthRun) (request : AuthRequest) :
    Decidable (registrationMayFail.accepts c request) :=
  inferInstanceAs (Decidable (c.idle = true))

/-- Rows reference users that are there. -/
def ForeignKeys (s : Store) : Prop :=
  ∀ id, s.referenced id = true → s.hasUser id

namespace AuthOp

/-- The call that stores a verification token. -/
def insertsToken : AuthOp → Bool
  | insertVerificationToken _ => true
  | _ => false

/-- The call that sends a mail. -/
def sendsMail : AuthOp → Bool
  | sendMail _ => true
  | _ => false

end AuthOp

/-- The rows a registration adds: one user, its channel and an unused token
to confirm the address with. -/
structure Registered (email : String) (id : Nat) (s s' : Store) : Prop where
  user : ∃ user : User, s'.users.rows = s.users.rows ++ [user] ∧
    user.id = id ∧ user.email = email
  channel : ∃ channel : Channel,
    s'.channels.rows = s.channels.rows ++ [channel] ∧ channel.user_id = id
  token : ∃ token : VerificationToken,
    s'.verification_tokens.rows = s.verification_tokens.rows ++ [token] ∧
    token.user_id = id ∧ token.type = .EMAIL_CONFIRMATION ∧
    token.used_at = none

/-- The tables hold the rows they held. -/
structure NothingLeft (s s' : Store) : Prop where
  users : s'.users.rows = s.users.rows
  channels : s'.channels.rows = s.channels.rows
  verification_tokens :
    s'.verification_tokens.rows = s.verification_tokens.rows

/-- The registration has returned and its rows are added; or it has thrown,
no row is added, and the address is as free as it was. -/
def RegisterAllOrNothing (email : String) (s s' : Store)
    (r : Except AuthError AuthReply) : Prop :=
  (∃ id, r = .ok (.registered id email) ∧ Registered email id s s') ∨
  (∃ e, r = .error e) ∧ NothingLeft s s' ∧
    (s.userByEmail email = none → s'.userByEmail email = none)

/-- Neither the insert of a token nor a mail has failed. -/
def Delivered (log : AuthLog) : Prop :=
  failed AuthOp.insertsToken log = false ∧ failed AuthOp.sendsMail log = false

instance (log : AuthLog) : Decidable (Delivered log) :=
  inferInstanceAs (Decidable (_ ∧ _))

theorem NothingLeft.refl (s : Store) : NothingLeft s s := ⟨rfl, rfl, rfl⟩

theorem userByEmail_congr {s s' : Store} (h : s'.users.rows = s.users.rows)
    (email : String) : s'.userByEmail email = s.userByEmail email := by
  unfold Store.userByEmail
  rw [h]

theorem NothingLeft.allOrNothing {email : String} {s s' : Store}
    (h : NothingLeft s s') (e : AuthError) :
    RegisterAllOrNothing email s s' (.error e) := by
  refine .inr ⟨⟨e, rfl⟩, h, ?_⟩
  rw [userByEmail_congr h.users]
  exact id

theorem Delivered.cons {log : AuthLog} (h : Delivered log) {x : AuthEntry}
    (htoken : x.op.insertsToken = true → x.res.isOk = true)
    (hmail : x.op.sendsMail = true → x.res.isOk = true) :
    Delivered (x :: log) :=
  ⟨failed_cons_of_isOk htoken h.1, failed_cons_of_isOk hmail h.2⟩

theorem Delivered.cons_quiet {log : AuthLog} (h : Delivered log)
    {x : AuthEntry} (htoken : x.op.insertsToken = false)
    (hmail : x.op.sendsMail = false) : Delivered (x :: log) :=
  h.cons (fun hop => absurd (htoken.symm.trans hop) Bool.false_ne_true)
    fun hop => absurd (hmail.symm.trans hop) Bool.false_ne_true

theorem delivers_of_createsChannel {op : AuthOp}
    (h : op.createsChannel = true) :
    op.insertsToken = false ∧ op.sendsMail = false := by
  cases op with
  | findChannelByNickname aborted nickname => exact ⟨rfl, rfl⟩
  | insertChannel name nickname userId => exact ⟨rfl, rfl⟩
  | _ => exact nomatch h

theorem Delivered.append {log newer : AuthLog} (h : Delivered log)
    (hnewer : ∀ x ∈ newer, x.op.createsChannel = true) :
    Delivered (newer ++ log) := by
  induction newer with
  | nil => exact h
  | cons x newer ih =>
      obtain ⟨htoken, hmail⟩ := delivers_of_createsChannel (hnewer x (.head _))
      exact (ih fun y hy => hnewer y (.tail _ hy)).cons_quiet htoken hmail

/-! ## The user and its channel -/

section Alone

variable {cfg : AuthConfig} {t : Nat} {request : AuthRequest} {s : Store}
  {amb : Moment} {log : AuthLog}

theorem registration_fault {op : AuthOp} {e : AuthError}
    (h : registrationMayFail.fault op e = true) :
    e = .argon2 ∨ e = .database ∨ e = .mail := by
  cases op with
  | hashPassword password => exact .inl (beq_iff_eq.1 h)
  | insertUser email password => exact .inr (.inl (beq_iff_eq.1 h))
  | findChannelByNickname aborted nickname =>
      exact .inr (.inl (beq_iff_eq.1 h))
  | insertChannel name nickname userId => exact .inr (.inl (beq_iff_eq.1 h))
  | insertVerificationToken v => exact .inr (.inl (beq_iff_eq.1 h))
  | sendMail mail => exact .inr (.inr (beq_iff_eq.1 h))
  | _ => exact nomatch h

theorem plain_registration : Plain registrationMayFail := by
  intro op e he
  rcases registration_fault he with rfl | rfl | rfl <;> exact ⟨nofun, nofun⟩

theorem createChannel_creates (userId : Nat) (email : String) :
    (createChannel userId email).Issues fun op : AuthOp =>
      op.createsChannel = true :=
  fun _ => tryNicknames_issues (fun _ _ => rfl) (fun _ => rfl) _ _ _

theorem id_newUser (s : Store) (email : String) (password : PasswordHash) :
    (User.mk s.users.nextId email password false).id = s.users.nextId := rfl

/-- The tables with the row that `insertUser` adds. -/
def Store.withUser (s : Store) (email : String) (password : PasswordHash) :
    Store :=
  { s with
    users := s.users.insert ⟨s.users.nextId, email, password, false⟩
      (id_newUser s email password) }

/-- What `createUserWithChannel` leaves of the tables when it returns. -/
structure UserAdded (email : String) (s s' : Store) (user : UserEntity)
    (channel : Channel) : Prop where
  address : user.email = email
  row : ∃ row : User, s'.users.rows = s.users.rows ++ [row] ∧
    row.id = user.id ∧ row.email = email
  channel : s'.channels.rows = s.channels.rows ++ [channel] ∧
    channel.user_id = user.id
  verification_tokens : s'.verification_tokens = s.verification_tokens

/-- The user that was inserted is deleted again: nothing references it. -/
theorem deleteUser_withUser (hkeys : ForeignKeys s) (email : String)
    (password : PasswordHash) :
    ((s.withUser email password).deleteUser s.users.nextId).1 = .ok () ∧
    NothingLeft s
      ((s.withUser email password).deleteUser s.users.nextId).2 := by
  have hfree : (s.withUser email password).referenced s.users.nextId =
      false := by
    show s.referenced s.users.nextId = false
    rw [Bool.eq_false_iff]
    intro href
    obtain ⟨u, hu, hid⟩ := hkeys _ href
    have hlt := s.users.keys_lt u hu
    omega
  unfold Store.deleteUser
  rw [if_neg (by rw [hfree]; exact nofun)]
  refine ⟨rfl, ?_, rfl, rfl⟩
  apply Table.delete_insert_rows (h := rfl)
  · exact beq_self_eq_true s.users.nextId
  · intro x _ hlt
    exact beq_false_of_ne (Nat.ne_of_lt hlt)

/-- The channel that was added completes the user. -/
theorem userAdded_of_insert {email base nickname : String}
    {password : PasswordHash} {channel : Channel} {s₂ : Store}
    (h : (s.withUser email password).insertChannel base nickname
      s.users.nextId = (.ok channel, s₂)) :
    UserAdded email s s₂ ⟨s.users.nextId, email, some password, false⟩
      channel := by
  rcases insertChannel_cases (s.withUser email password) base nickname
    s.users.nextId with ⟨e, heq⟩ | ⟨_, _, heq⟩
  · rw [heq] at h
    exact nomatch h
  · rw [heq] at h
    cases h
    exact ⟨rfl, ⟨_, rfl, rfl, rfl⟩, ⟨rfl, rfl⟩, rfl⟩

/-- The end of a `createUserWithChannel` that has thrown or returned. -/
def UserPost (email : String) (s : Store)
    (r : Except AuthError (UserEntity × Channel)) (_ : Moment) (s' : Store)
    (log : AuthLog) : Prop :=
  Delivered log ∧ match r with
    | .ok (user, channel) => UserAdded email s s' user channel
    | .error _ => NothingLeft s s'

/-- The handler of `createUserWithChannel`. -/
theorem compensation_alone {email : String} {password : PasswordHash}
    (hkeys : ForeignKeys s) (e : AuthError) (hlog : Delivered log) :
    alone (authSystem cfg) registrationMayFail t request (UserPost email s)
      (await (.deleteUser s.users.nextId) >>= fun _ => Prog.throw e) amb
      (s.withUser email password) log := by
  obtain ⟨_, hleft⟩ := deleteUser_withUser hkeys email password
  apply alone_call (fun _ => rfl)
  · exact fun _ _ _ _ => ⟨hlog.cons_quiet rfl rfl, hleft⟩
  · exact fun _ _ _ _ => ⟨hlog.cons_quiet rfl rfl, hleft⟩

/-- A user is added together with its channel, or not at all. -/
theorem createUserWithChannel_compensates {email : String}
    {password : PasswordHash} (hkeys : ForeignKeys s) (hlog : Delivered log) :
    alone (authSystem cfg) registrationMayFail t request (UserPost email s)
      (createUserWithChannel email password) amb s log := by
  apply alone_call_any
  · intro amb₁ fault e _ _ hanswer
    refine ⟨hlog.cons_quiet rfl rfl, ?_⟩
    cases fault with
    | some e' => exact .refl s
    | none =>
        change (s.insertUser email password).1 = .error e at hanswer
        show NothingLeft s (s.insertUser email password).2
        rcases insertUser_cases s email password with heq | heq
        · rw [heq]
          exact .refl s
        · rw [heq] at hanswer
          exact nomatch hanswer
  · intro amb₁ user _ hexec
    have hlog₁ := hlog.cons_quiet (x := (authSystem cfg).entry t request amb₁
      (.insertUser email password) none s) rfl rfl
    change (s.insertUser email password).1 = .ok user at hexec
    show alone (authSystem cfg) registrationMayFail t request _ _ amb₁
      (s.insertUser email password).2 _
    rcases insertUser_cases s email password with heq | heq
    · rw [heq] at hexec
      exact nomatch hexec
    · rw [heq] at hexec ⊢
      cases hexec
      apply alone_tryCatch
      apply alone_bind
      apply alone_mono ?_ (alone_newer
        (createChannel_creates s.users.nextId email)
        (createChannel_alone (s := s.withUser email password) rfl
          plain_registration s.users.nextId email amb₁))
      rintro r amb₂ s₂ log₂ ⟨⟨_, _, houtcome⟩, newer, rfl, hnewer⟩
      have hlog₂ := hlog₁.append hnewer
      cases houtcome with
      | created _ _ _ _ hinsert => exact ⟨hlog₂, userAdded_of_insert hinsert⟩
      | conflict _ _ _ _ => exact compensation_alone hkeys _ hlog₂
      | failed _ _ => exact compensation_alone hkeys _ hlog₂

/-! ## The whole registration -/

/-- The end of a `register`. -/
def RegisterPost (email : String) (s : Store)
    (r : Except AuthError (Nat × String)) (_ : Moment) (s' : Store)
    (log : AuthLog) : Prop :=
  RegisterAllOrNothing email s s'
    (r.map fun (id, email) => .registered id email) ↔ Delivered log

/-- A registration that fails before it has added a user, or after it has
deleted it again. -/
theorem registerPost_of_nothing {email : String} {s' : Store} {e : AuthError}
    (hleft : NothingLeft s s') (hlog : Delivered log) :
    RegisterPost email s (.error e) amb s' log :=
  ⟨fun _ => hlog, fun _ => hleft.allOrNothing e⟩

/-- A registration that fails when it has added its user and channel. -/
theorem registerPost_of_torn {email : String} {s' : Store} {e : AuthError}
    {row : User} (hrow : s'.users.rows = s.users.rows ++ [row])
    (hlog : ¬ Delivered log) : RegisterPost email s (.error e) amb s' log := by
  refine ⟨?_, fun h => absurd h hlog⟩
  rintro (⟨_, hok, _⟩ | ⟨_, hleft, _⟩)
  · exact nomatch hok
  · have hsame := hrow.symm.trans hleft.users
    exact absurd (List.append_right_eq_self.1 hsame) (List.cons_ne_nil row [])

theorem isOk_of_error {α : Type} {r : Except AuthError α} {e : AuthError}
    (h : r = .error e) : r.isOk = false := by
  rw [h]
  rfl

theorem not_delivered_of_token {x : AuthEntry}
    (hop : x.op.insertsToken = true) (hres : x.res.isOk = false) :
    ¬ Delivered (x :: log) :=
  fun h => nomatch (failed_cons_self log hop hres).symm.trans h.1

theorem not_delivered_of_mail {x : AuthEntry} (hop : x.op.sendsMail = true)
    (hres : x.res.isOk = false) : ¬ Delivered (x :: log) :=
  fun h => nomatch (failed_cons_self log hop hres).symm.trans h.2

/-- What the insert of a token does to the tables. -/
structure TokenAdded (v : NewVerificationToken) (s s' : Store) : Prop where
  users : s'.users = s.users
  channels : s'.channels = s.channels
  verification_tokens : s'.verification_tokens.rows =
    s.verification_tokens.rows ++ [s.newVerificationToken v]

theorem tokenAdded_of_insert {v : NewVerificationToken}
    (h : (s.insertVerificationToken v).1 = .ok ()) :
    TokenAdded v s (s.insertVerificationToken v).2 := by
  unfold Store.insertVerificationToken at h ⊢
  cases hu : s.userById v.user_id with
  | none =>
      rw [hu] at h
      exact nomatch h
  | some u => exact ⟨rfl, rfl, rfl⟩

/-- The rule for the insert of a token, which may fail. -/
theorem insertVerificationToken_alone {P : AuthPolicy} {α : Type}
    {post : Except AuthError α → Moment → Store → AuthLog → Prop}
    {v : NewVerificationToken} {f : Unit → AuthProg α}
    (herror : ∀ e amb' s' x, x.op.insertsToken = true → x.res.isOk = false →
      s'.users = s.users → post (.error e) amb' s' (x :: log))
    (hok : ∀ amb' s' x, TokenAdded v s s' →
      (x.op.sendsMail = true → x.res.isOk = true) → x.res.isOk = true →
      alone (authSystem cfg) P t request post (f ()) amb' s' (x :: log)) :
    alone (authSystem cfg) P t request post
      (await (.insertVerificationToken v) >>= f) amb s log := by
  apply alone_call_any
  · intro amb' fault e _ _ hanswer
    apply herror
    · rfl
    · exact isOk_of_error hanswer
    · cases fault with
      | some e' => rfl
      | none =>
          show (s.insertVerificationToken v).2.users = s.users
          unfold Store.insertVerificationToken
          split <;> rfl
  · intro amb' _ _ hexec
    have hinserted : (s.insertVerificationToken v).1 = .ok () := hexec
    have hres : (s.insertVerificationToken v).1.isOk = true := by
      rw [hinserted]
      rfl
    exact hok amb' _ _ (tokenAdded_of_insert hinserted) nofun hres

/-- What follows when the user has got its channel. -/
theorem confirmation_alone {email : String} {user : UserEntity}
    {channel : Channel} {s' : Store}
    (hadded : UserAdded email s s' user channel) (hlog : Delivered log) :
    alone (authSystem cfg) registrationMayFail t request
      (RegisterPost email s)
      (createVerificationToken user.id .EMAIL_CONFIRMATION
          cfg.confirmationTokenExpirationHours >>= fun rawToken =>
        sendConfirmationEmail cfg user.email channel.name rawToken >>= fun _ =>
          Prog.pure (user.id, user.email)) amb s' log := by
  obtain ⟨row, hrows, hid, hemail⟩ := hadded.row
  obtain ⟨hchannels, howner⟩ := hadded.channel
  rw [createVerificationToken_bind, alone]
  apply insertVerificationToken_alone
  · intro e amb₁ s₁ x hop hres husers
    apply registerPost_of_torn
    · rw [husers]
      exact hrows
    · exact not_delivered_of_token hop hres
  · intro amb₁ s₁ x htoken hmail hres
    have hlog₁ : Delivered (x :: log) := hlog.cons (fun _ => hres) hmail
    have hrows₁ : s₁.users.rows = s.users.rows ++ [row] := by
      rw [htoken.users]
      exact hrows
    apply alone_call_any
    · intro amb₂ fault e _ _ hanswer
      apply registerPost_of_torn
      · cases fault <;> exact hrows₁
      · exact not_delivered_of_mail rfl (isOk_of_error hanswer)
    · intro amb₂ _ _ _
      refine ⟨fun _ => hlog₁.cons (absurd · Bool.false_ne_true)
        fun _ => rfl, fun _ => .inl ?_⟩
      have htokens := htoken.verification_tokens
      rw [hadded.verification_tokens] at htokens
      refine ⟨user.id, ?_, ⟨row, hrows₁, hid, hemail⟩, ⟨channel, ?_, howner⟩,
        ⟨_, htokens, rfl, rfl, rfl⟩⟩
      · show Except.ok (AuthReply.registered user.id user.email) = _
        rw [hadded.address]
      · show s₁.channels.rows = _
        rw [htoken.channels]
        exact hchannels

theorem register_compensates (dto : RegisterDto) (hkeys : ForeignKeys s)
    (hlog : Delivered log) :
    alone (authSystem cfg) registrationMayFail t request
      (RegisterPost dto.email s) (register cfg dto) amb s log := by
  apply alone_call (fun _ => rfl)
  · exact fun _ _ _ hexec => nomatch hexec
  · intro amb₁ existing _ _
    have hlog₁ : Delivered ((authSystem cfg).entry t request amb₁
        (.findUserByEmail dto.email) none s :: log) := hlog.cons_quiet rfl rfl
    cases existing with
    | some user => exact registerPost_of_nothing (.refl s) hlog₁
    | none =>
        apply alone_call_any
        · intro amb₂ fault e _ _ _
          have hleft : NothingLeft s ((authSystem cfg).answer amb₂
              (.hashPassword dto.password) fault s).2 := by
            cases fault <;> exact .refl s
          apply registerPost_of_nothing hleft
          exact hlog₁.cons_quiet rfl rfl
        · intro amb₂ hashedPassword _ _
          have hlog₂ : Delivered ((authSystem cfg).entry t request amb₂
              (.hashPassword dto.password) none s :: (authSystem cfg).entry t
                request amb₁ (.findUserByEmail dto.email) none s :: log) :=
            hlog₁.cons_quiet rfl rfl
          apply alone_bind
          apply alone_mono ?_ (createUserWithChannel_compensates hkeys hlog₂)
          rintro r amb₃ s₃ log₃ ⟨hlog₃, hend⟩
          cases r with
          | error e => exact registerPost_of_nothing hend hlog₃
          | ok pair => exact confirmation_alone hend hlog₃

end Alone

/--
**Registration.**  From any tables and whichever of its steps fail, a
registration that nobody interrupts returns with a user, a channel and a token
added, or throws and adds nothing, exactly when neither the insert of the token
nor the mail fails.
-/
theorem register_all_or_nothing_iff {cfg : AuthConfig} {s : Store}
    {dto : RegisterDto} {r : Except AuthError AuthReply} {c : AuthRun}
    (hkeys : ForeignKeys s)
    (h : Served cfg registrationMayFail (Config.start s) (.register dto) r c) :
    RegisterAllOrNothing dto.email s c.state r ↔ Delivered c.log := by
  have halone : ∀ amb, alone (authSystem cfg) registrationMayFail 0
      (.register dto) (fun r _ s' log =>
        RegisterAllOrNothing dto.email s s' r ↔ Delivered log)
      (serve cfg (.register dto)) amb s [] := by
    intro amb
    have hempty : Delivered [] := ⟨rfl, rfl⟩
    apply alone_map (register_compensates dto hkeys hempty)
    · exact fun _ _ _ _ hpost => hpost
    · exact fun _ _ _ _ hpost => hpost
  obtain ⟨_, hend⟩ := h.result rfl halone
  exact hend

theorem foreignKeys_empty : ForeignKeys {} := by
  intro id href
  exact nomatch href

/-- The channel fails, and the user is deleted again. -/
def compensatedRegister : AuthRun :=
  authRunFrom registrationMayFail
    ((authSystem sampleConfig).spawn (Config.start {}) sampleRegister {})
    (Tick.answers 0 3 { now := 0 } ++
      [.perform 0 { now := 0 } (some .database),
        .perform 0 { now := 0 } none]) (by decide)

theorem allOrNothing_compensated :
    RegisterAllOrNothing sampleEmail {} compensatedRegister.state
      (.error .database) := by
  have hserved : Served sampleConfig registrationMayFail (Config.start {})
      sampleRegister (.error .database) compensatedRegister :=
    ⟨_, steps_authRunFrom _ (by decide) (by decide), by rfl⟩
  exact (register_all_or_nothing_iff foreignKeys_empty hserved).2 (by decide)

/-- The mail fails. -/
def tornRegister : AuthRun :=
  authRunFrom registrationMayFail
    ((authSystem sampleConfig).spawn (Config.start {}) sampleRegister {})
    (Tick.answers 0 6 { now := 0 } ++ [.perform 0 { now := 0 } (some .mail)])
    (by decide)

/-- The registration throws, and its user is there. -/
theorem register_torn :
    Served sampleConfig registrationMayFail (Config.start {}) sampleRegister
      (.error .mail) tornRegister ∧
    (tornRegister.state.userByEmail sampleEmail).isSome = true ∧
    ¬ RegisterAllOrNothing sampleEmail {} tornRegister.state
      (.error .mail) := by
  have huser : (tornRegister.state.userByEmail sampleEmail).isSome = true := by
    decide
  refine ⟨?_, huser, ?_⟩
  · exact ⟨_, steps_authRunFrom _ (by decide) (by decide), by rfl⟩
  · rintro (⟨_, hok, _⟩ | ⟨_, _, hfree⟩)
    · exact nomatch hok
    · rw [hfree rfl] at huser
      exact nomatch huser

end Videum.Auth
