import Videum.Auth.Accounts
import Videum.Auth.References
import Videum.Auth.RegisterRaces

/-!
# The tables keep the account book

Where requests arrive one after another and nothing fails but the mail, each
request is an entry of the account book of `Videum.Auth.Accounts`, and what it
returns is what the entry says.  A run is then a run of the book.

## Main results

* `serve_enters` — a request is an entry of the book.
* `sound_of_reachable` — the tables stay in order.
* `book_of_steps` — a run is a run of the book.
* `password_stands` — a password stands until it is reset.
-/

namespace Videum.Auth

open Videum.Async
open Videum.Common

/-- One request after another; a mail may bounce. -/
def mailMayBounce : AuthPolicy where
  accepts c _ := c.idle = true
  fault op e :=
    match op with
    | .sendMail _ => e == .mail
    | _ => false

instance (c : AuthRun) (request : AuthRequest) :
    Decidable (mailMayBounce.accepts c request) :=
  inferInstanceAs (Decidable (c.idle = true))

/-- Thread `t` got an answer at time `now`. -/
def AnsweredAt (t : Nat) (now : Int) (log : AuthLog) : Prop :=
  ∃ x ∈ own t log, x.amb.now = now

/-- The request has been entered in the book, at a time at which it was
answered. -/
def Entered (cfg : AuthConfig) (request : AuthRequest) (t : Nat) (b : Book)
    (r : Except AuthError AuthReply) (s' : Store) (log : AuthLog) : Prop :=
  ∃ now, AnsweredAt t now log ∧ Book.Step cfg request now r b s'.book

section Alone

variable {cfg : AuthConfig} {t : Nat} {request : AuthRequest} {s : Store}
  {amb : Moment} {log log' : AuthLog} {now : Int} {α : Type}
  {post : Except AuthError α → Moment → Store → AuthLog → Prop}

theorem mem_own_entry (m : Moment) (op : AuthOp) (fault : Option AuthError) :
    ∃ x ∈ own t ((authSystem cfg).entry t request m op fault s :: log),
      x.amb = m := by
  refine ⟨(authSystem cfg).entry t request m op fault s, ?_, rfl⟩
  rw [own_entry]
  exact .head _

theorem AnsweredAt.entry (m : Moment) (op : AuthOp)
    (fault : Option AuthError) :
    AnsweredAt t m.now ((authSystem cfg).entry t request m op fault s :: log) := by
  refine ⟨(authSystem cfg).entry t request m op fault s, ?_, rfl⟩
  rw [own_entry]
  exact .head _

theorem AnsweredAt.mono (h : AnsweredAt t now log) (hs : log <:+ log') :
    AnsweredAt t now log' := by
  obtain ⟨x, hx, hnow⟩ := h
  exact ⟨x, own_mono hs hx, hnow⟩

theorem AnsweredAt.cons (h : AnsweredAt t now log) (x : AuthEntry) :
    AnsweredAt t now (x :: log) :=
  h.mono (List.suffix_cons x log)

/-- What ran alone goes on at a time at which it was answered. -/
theorem alone_answeredAt {p : AuthProg α}
    (h : alone (authSystem cfg) mailMayBounce t request post p amb s log)
    (hlast : ∃ x ∈ own t log, x.amb = amb) :
    alone (authSystem cfg) mailMayBounce t request
      (fun r amb s log' => post r amb s log' ∧ AnsweredAt t amb.now log') p amb
      s log := by
  apply alone_mono ?_ (alone_answered h hlast)
  rintro r amb' s' log' ⟨hpost, x, hx, rfl⟩
  exact ⟨hpost, x, hx, rfl⟩

/-! ## Registering -/

/-- A loop over nicknames, alone and without failures: it adds a channel, or
it has run out of nicknames. -/
theorem tryNicknames_ends {email base : String} {userId : Nat}
    (hbase : IsBase email base) (huser : s.hasUser userId)
    (hnone : ∀ ch ∈ s.channels.rows, ch.user_id ≠ userId) (attempts : Nat) :
    ∀ (nickname : String) (amb : Moment) (log : AuthLog),
      (nickname = base ∨ IsSuffixed base nickname) →
      alone (authSystem cfg) mailMayBounce t request
        (fun r _ s' _ => (∃ channel nickname, r = .ok channel ∧
            s.insertChannel base nickname userId = (.ok channel, s')) ∨
          r = .error .nicknameConflict ∧ s' = s)
        (tryNicknames userId base attempts false nickname) amb s log := by
  induction attempts with
  | zero => exact fun _ _ _ _ => .inr ⟨rfl, rfl⟩
  | succ attempts ih =>
      intro nickname amb log hshape
      apply alone_call (fun _ => rfl)
      · exact fun _ _ _ hexec => nomatch hexec
      · intro amb₁ existing _ hexec
        have hfind : s.channels.rows.find? (·.nickname == nickname) =
          existing := Except.ok.inj hexec
        have htaken := nicknameTaken_eq_find s nickname
        rw [hfind] at htaken
        cases existing with
        | some channel =>
            apply ih _ amb₁
            exact .inr (appendRandomSuffix_isSuffixed amb₁ hbase.length.2)
        | none =>
            obtain ⟨hname, hnickname⟩ := shape_length hbase hshape
            obtain ⟨channel, s', hinsert⟩ :=
              insertChannel_succeeds hname hnickname htaken huser hnone
            apply alone_bind
            apply alone_tryCatch
            apply alone_call (fun _ => rfl)
            · intro amb₂ e _ hexec₂
              change (s.insertChannel base nickname userId).1 = .error e
                at hexec₂
              rw [hinsert] at hexec₂
              cases hexec₂
            · intro amb₂ (channel' : Channel) _ hexec₂
              change (s.insertChannel base nickname userId).1 = .ok channel'
                at hexec₂
              exact .inl ⟨channel', nickname, rfl, Prod.ext hexec₂ rfl⟩

/-- The end of a `createUserWithChannel` for a free address. -/
def UserEnd (email : String) (password : PasswordHash) (s : Store)
    (r : Except AuthError (UserEntity × Channel)) (_ : Moment) (s' : Store)
    (_ : AuthLog) : Prop :=
  (∃ user channel, r = .ok (user, channel) ∧ user.email = email ∧
    (∃ u ∈ s'.users.rows, u.id = user.id ∧ u.email = email) ∧
    s'.verification_tokens = s.verification_tokens ∧
    s'.book = { s.book with
      accounts := Function.update s.book.accounts email
        (some ⟨password.password, false⟩) }) ∨
  r = .error .nicknameConflict ∧ s'.book = s.book

theorem createUserWithChannel_ends {email : String} {password : PasswordHash}
    (hkeys : ForeignKeys s) (hfree : s.userByEmail email = none) :
    alone (authSystem cfg) mailMayBounce t request (UserEnd email password s)
      (createUserWithChannel email password) amb s log := by
  have hinsert : s.insertUser email password =
      (.ok ⟨s.users.nextId, email, some password, false⟩,
        s.withUser email password) := by
    unfold Store.insertUser
    rw [hfree]
    rfl
  apply alone_call (fun _ => rfl)
  · intro amb₁ e _ hexec
    change (s.insertUser email password).1 = .error e at hexec
    rw [hinsert] at hexec
    cases hexec
  · intro amb₁ user _ hexec
    change (s.insertUser email password).1 = .ok user at hexec
    rw [hinsert] at hexec
    cases hexec
    show alone (authSystem cfg) mailMayBounce t request
      (UserEnd email password s) _ amb₁ (s.insertUser email password).2 _
    rw [hinsert]
    have hbook := book_withUser hkeys hfree password
    have huser : (s.withUser email password).hasUser s.users.nextId :=
      ⟨_, (Table.mem_insert (h := rfl)).2 (.inr rfl), rfl⟩
    have hnone : ∀ ch ∈ s.channels.rows, ch.user_id ≠ s.users.nextId := by
      intro ch hch hid
      obtain ⟨u, hu, huid⟩ :=
        hkeys _ (referenced_of_channel ⟨ch, hch, hid⟩)
      have hlt := s.users.keys_lt u hu
      omega
    apply alone_tryCatch
    apply alone_bind
    apply alone_mono ?_ (tryNicknames_ends (s := s.withUser email password)
      (sanitizeNickname_isBase amb₁ email) huser hnone (maxRetries + 1) _ amb₁
      _ (.inl rfl))
    rintro r amb₂ s₂ log₂ (⟨channel, nickname, rfl, hchannel⟩ | ⟨rfl, rfl⟩)
    · have hadded := userAdded_of_insert hchannel
      obtain ⟨row, hrows, hid, hemail⟩ := hadded.row
      refine .inl ⟨_, channel, rfl, rfl, ⟨row, ?_, hid, hemail⟩,
        hadded.verification_tokens, ?_⟩
      · rw [hrows]
        exact List.mem_append_right _ (.head _)
      · have hsame : s₂ = ((s.withUser email password).insertChannel _ nickname
            s.users.nextId).2 := (congrArg Prod.snd hchannel).symm
        rw [← hbook]
        apply book_congr
        · rw [hsame, Store.insertChannel_only]
        · rw [hsame, Store.insertChannel_only]
    · obtain ⟨hdeleted, hleft⟩ := deleteUser_withUser hkeys email password
      apply alone_call (fun _ => rfl)
      · intro amb₃ e _ hexec
        change ((s.withUser email password).deleteUser s.users.nextId).1 =
          .error e at hexec
        rw [hdeleted] at hexec
        cases hexec
      · intro amb₃ _ _ _
        exact .inr ⟨rfl, book_congr hleft.users hleft.verification_tokens⟩

/-- The rule for a mail, which may bounce. -/
theorem mail_alone {mail : Mail} {f : Unit → AuthProg α}
    (hbounced : ∀ amb' x, post (.error .mail) amb' s (x :: log))
    (hsent : ∀ amb' x, alone (authSystem cfg) mailMayBounce t request post
      (f ()) amb' s (x :: log)) :
    alone (authSystem cfg) mailMayBounce t request post
      (await (.sendMail mail) >>= f) amb s log := by
  apply alone_call_any
  · intro amb₁ fault e _ hfault hanswer
    cases fault with
    | none => cases hanswer
    | some e' =>
        have hmail : e' = .mail := beq_iff_eq.1 hfault
        cases hanswer
        rw [hmail]
        exact hbounced amb₁ _
  · exact fun amb₁ _ _ _ => hsent amb₁ _

/-- The rule for issuing a ticket to an account. -/
theorem ticket_alone {u : User} {type : VerificationTokenType} {hours : Int}
    {f : RawToken → AuthProg α} (hu : u ∈ s.users.rows)
    (hf : ∀ ticket s' amb' x,
      (∀ r ∈ s.verification_tokens.rows, r.token_hash.raw ≠ ticket.token) →
      ticket = ⟨ticket.token, type, u.email,
        amb.now + hours * 60 * 60 * 1000⟩ →
      s'.book = { s.book with tickets := insert ticket s.book.tickets } →
      alone (authSystem cfg) mailMayBounce t request post (f ticket.token) amb'
        s' (x :: log)) :
    alone (authSystem cfg) mailMayBounce t request post
      (createVerificationToken u.id type hours >>= f) amb s log := by
  obtain ⟨v, hv⟩ := Store.hasUser_iff.1 ⟨u, hu, rfl⟩
  have hok := Store.insertVerificationToken_ok
    (v := issuedColumns u.id type hours amb) hv
  rw [createVerificationToken_bind, alone]
  apply alone_call (fun _ => rfl)
  · intro amb₁ e _ hexec
    cases hok.symm.trans hexec
  · intro amb₁ _ hguard _
    have hadded := tokenAdded_of_insert hok
    have hfresh : freshRandomness request (.insertVerificationToken
        (issuedColumns u.id type hours amb)) s = true := hguard
    refine hf ((s.newVerificationToken (issuedColumns u.id type hours amb)).ticket
      u) _ amb₁ _ ?_ rfl (book_insertToken hadded hu rfl)
    intro r hr hraw
    exact fresh_tokenHash hfresh hr (congrArg TokenHash.mk hraw)

/-- A token nobody has is a new ticket. -/
theorem new_of_fresh {ticket : Ticket} {type : VerificationTokenType}
    {address : String} {hours : Int}
    (hfresh : ∀ r ∈ s.verification_tokens.rows,
      r.token_hash.raw ≠ ticket.token)
    (hticket : ticket = ⟨ticket.token, type, address,
      now + hours * 60 * 60 * 1000⟩) :
    ticket.New s.book type address now hours := by
  refine ⟨?_, ?_, ?_, ?_⟩
  · rw [hticket]
  · rw [hticket]
  · rw [hticket]
  · rintro t' ⟨r, hr, u, _, _, _, rfl⟩
    exact hfresh r hr

theorem register_enters (dto : RegisterDto) (hs : Sound s) :
    alone (authSystem cfg) mailMayBounce t (.register dto)
      (fun r _ s' log' => Entered cfg (.register dto) t s.book
        (r.map fun p => .registered p.1 p.2) s' log')
      (register cfg dto) amb s log := by
  apply alone_call (fun _ => rfl)
  · exact fun _ _ _ hexec => nomatch hexec
  · intro amb₁ existing _ hexec
    have hfind : (s.userByEmail dto.email).map User.entityWithPassword =
      existing := Except.ok.inj hexec
    cases huser : s.userByEmail dto.email with
    | some u =>
        rw [huser] at hfind
        subst hfind
        refine ⟨amb₁.now, .entry amb₁ _ none, .taken (a := u.account) ?_⟩
        show (s.userByEmail dto.email).map User.account = _
        rw [huser]
        rfl
    | none =>
        have hnone : s.book.accounts dto.email = none := by
          show (s.userByEmail dto.email).map User.account = _
          rw [huser]
          rfl
        rw [huser] at hfind
        subst hfind
        apply alone_call (fun _ => rfl)
        · exact fun _ _ _ hexec => nomatch hexec
        · intro amb₂ (hash : PasswordHash) _ hexec₂
          have hhash : hash = ⟨dto.password, amb₂.salt⟩ :=
            (Except.ok.inj hexec₂).symm
          apply alone_bind
          apply alone_mono ?_ (alone_answeredAt
            (createUserWithChannel_ends hs.keys huser)
            (mem_own_entry amb₂ _ none))
          rintro r amb₃ s₃ log₃ ⟨⟨user, channel, rfl, hemail, ⟨u, hu, hid, hu'⟩,
            htokens, hbook⟩ | ⟨rfl, hbook⟩, htime⟩
          · show alone (authSystem cfg) mailMayBounce t (.register dto) _
              (createVerificationToken user.id .EMAIL_CONFIRMATION
                cfg.confirmationTokenExpirationHours >>= fun rawToken =>
                  sendConfirmationEmail cfg user.email channel.name rawToken >>=
                    fun _ => Prog.pure (user.id, user.email)) amb₃ s₃ log₃
            rw [← hid, hemail]
            apply ticket_alone hu
            intro ticket s₄ amb₄ x hfresh hticket hbook₄
            rw [htokens] at hfresh
            rw [hu'] at hticket
            have hstep : ∀ r : Except AuthError AuthReply,
                (∃ id, r = .ok (.registered id dto.email)) ∨
                  r = .error .mail →
                Book.Step cfg (.register dto) amb₃.now r s.book s₄.book := by
              intro r hr
              rw [hbook₄, hbook, hhash]
              exact .opened hnone (new_of_fresh hfresh hticket) hr
            apply mail_alone
            · exact fun amb₅ y => ⟨amb₃.now, (htime.cons x).cons y,
                hstep _ (.inr rfl)⟩
            · exact fun amb₅ y => ⟨amb₃.now, (htime.cons x).cons y,
                hstep _ (.inl ⟨u.id, rfl⟩)⟩
          · refine ⟨amb₃.now, htime, ?_⟩
            rw [hbook]
            exact .unnamed hnone

/-! ## Handing a ticket in -/

/-- The rule for looking a ticket up and checking its expiry. -/
theorem consume_enters {token : RawToken} {type : VerificationTokenType}
    {f : VerificationToken × UserEntity → AuthProg Unit}
    (hconsumes : request.consumes = some (token, type)) (hs : Sound s)
    (hf : ∀ r u log' now, r ∈ s.verification_tokens.rows →
      u ∈ s.users.rows → u.id = r.user_id →
      (r.ticket u).Names s.book token type → AnsweredAt t now log' →
      now ≤ r.expires_at → ∀ usedAt amb',
      alone (authSystem cfg) mailMayBounce t request
        (fun r' _ s' log => Entered cfg request t s.book
          (r'.map fun _ => .done) s' log)
        (f ({ r with used_at := some usedAt }, u.entity)) amb' s log') :
    alone (authSystem cfg) mailMayBounce t request
      (fun r _ s' log => Entered cfg request t s.book
        (r.map fun _ => .done) s' log)
      (consumeVerificationToken token type >>= f) amb s log := by
  unfold consumeVerificationToken
  rw [Prog.bind_assoc]
  apply alone_call (fun _ => rfl)
  · exact fun _ _ _ h => nomatch h
  · intro amb₁ found _ hexec
    have hfind : s.findVerificationToken (hashToken token) type = found :=
      Except.ok.inj hexec
    have htime : AnsweredAt t amb₁.now ((authSystem cfg).entry t request amb₁
        (.findVerificationToken (hashToken token) type) none s :: log) :=
      .entry amb₁ _ none
    cases found with
    | none =>
        exact ⟨amb₁.now, htime, .unknown hconsumes
          (not_names_of_unknown hs hfind)⟩
    | some found =>
        obtain ⟨r, user⟩ := found
        obtain ⟨hr, u, hu, hid, rfl, hnames⟩ := names_of_found hfind
        show alone (authSystem cfg) mailMayBounce t request _
          ((if r.expires_at < amb₁.now then
              Prog.throw (.domain .TokenExpired)
            else Prog.pure ({ r with used_at := some amb₁.now }, u.entity)) >>=
            f) amb₁ s _
        split
        · next hexpired =>
            exact ⟨amb₁.now, htime, .expired hconsumes hnames hexpired⟩
        · next hunexpired =>
            exact hf r u _ amb₁.now hr hu hid hnames htime (by omega) _ amb₁

/-- The book after a token is marked used and its user written back. -/
theorem book_redeemed (change : Account → Account) (usedAt : Int)
    (hs : Sound s) {r : VerificationToken} {u : User} {w : UserEntity}
    (hr : r ∈ s.verification_tokens.rows) (hu : u ∈ s.users.rows)
    (hid : u.id = r.user_id) (hw : w.id = u.id) (hemail : w.email = u.email)
    (hchange : (w.write u).account = change u.account) :
    ((s.saveVerificationToken { r with used_at := some usedAt }).saveUser
      w).book = s.book.redeemed (r.ticket u) change := by
  have haccount : s.book.accounts u.email = some u.account :=
    (accounts_iff hs.emails).2 ⟨u, hu, rfl, rfl⟩
  rw [book_saveUser (s := s.saveVerificationToken { r with
    used_at := some usedAt }) hs.emails hu hw hemail, book_useToken hs.hashes hr
    hu hid, hchange]
  unfold Book.redeemed
  rw [show (r.ticket u).address = u.email from rfl, haccount]
  rfl

/-- The rule for writing a token and its user back, in either order. -/
theorem writeBack_enters (change : Account → Account) (hs : Sound s)
    {r : VerificationToken} {u : User} {w : UserEntity} {usedAt : Int}
    {post : Except AuthError Unit → Moment → Store → AuthLog → Prop}
    (hr : r ∈ s.verification_tokens.rows) (hu : u ∈ s.users.rows)
    (hid : u.id = r.user_id) (hw : w.id = u.id) (hemail : w.email = u.email)
    (hchange : (w.write u).account = change u.account)
    (hpost : ∀ amb' s' log', log <:+ log' →
      s'.book = s.book.redeemed (r.ticket u) change →
      post (.ok ()) amb' s' log') :
    alone (authSystem cfg) mailMayBounce t request post
      (Prog.promiseAll Moment.swapped
        (.saveVerificationToken { r with used_at := some usedAt })
        (.saveUser w)) amb s log := by
  have hbook := book_redeemed change usedAt hs hr hu hid hw hemail hchange
  have hsuffix : ∀ x y : AuthEntry, log <:+ y :: x :: log :=
    fun x y => ⟨[y, x], rfl⟩
  apply alone_promiseAll
  · apply alone_settle (by rintro op (rfl | rfl) e <;> rfl)
    intro amb₁ amb₂ _ _ result hresult
    rw [hresult.2 ⟨rfl, rfl⟩]
    exact hpost _ _ _ (hsuffix _ _) hbook
  · apply alone_settle (by rintro op (rfl | rfl) e <;> rfl)
    intro amb₁ amb₂ _ _ result hresult
    rw [hresult.2 ⟨rfl, rfl⟩]
    exact hpost _ _ _ (hsuffix _ _) hbook

theorem confirm_enters (token : RawToken) (hs : Sound s) :
    alone (authSystem cfg) mailMayBounce t (.confirm token)
      (fun r _ s' log' => Entered cfg (.confirm token) t s.book
        (r.map fun _ => .done) s' log')
      (confirm token) amb s log := by
  apply consume_enters (rfl : (AuthRequest.confirm token).consumes = some _) hs
  intro r u log₁ now hr hu hid hnames htime hnow usedAt amb₁
  apply writeBack_enters Account.confirm hs hr hu hid
  · rfl
  · rfl
  · rw [UserEntity.write_self rfl]
    rfl
  · intro amb₂ s₂ log₂ hsuffix hbook
    refine ⟨now, htime.mono hsuffix, ?_⟩
    rw [hbook]
    exact .confirmed hnames hnow

theorem resetPassword_enters (dto : ResetPasswordDto) (hs : Sound s) :
    alone (authSystem cfg) mailMayBounce t (.resetPassword dto)
      (fun r _ s' log' => Entered cfg (.resetPassword dto) t s.book
        (r.map fun _ => .done) s' log')
      (resetPassword dto.token dto.new_password) amb s log := by
  apply consume_enters
    (rfl : (AuthRequest.resetPassword dto).consumes = some _) hs
  intro r u log₁ now hr hu hid hnames htime hnow usedAt amb₁
  apply alone_call (fun _ => rfl)
  · exact fun _ _ _ h => nomatch h
  · intro amb₂ (hash : PasswordHash) _ hexec
    have hhash : hash = ⟨dto.new_password, amb₂.salt⟩ :=
      (Except.ok.inj hexec).symm
    have htime₂ := htime.cons ((authSystem cfg).entry t (.resetPassword dto)
      amb₂ (.hashPassword dto.new_password) none s)
    apply alone_bind
    apply writeBack_enters (Account.setPassword dto.new_password) hs hr hu hid
    · rfl
    · rfl
    · rw [UserEntity.write_self rfl, hhash]
      rfl
    · intro amb₃ s₃ log₃ hsuffix hbook
      show alone (authSystem cfg) mailMayBounce t _ _
        (await (.revokeUser u.id amb₃.now)) amb₃ s₃ log₃
      rw [← Prog.bind_pure (await (.revokeUser u.id amb₃.now))]
      apply alone_call (fun _ => rfl)
      · exact fun _ _ _ h => nomatch h
      · intro amb₄ _ _ _
        refine ⟨now, (htime₂.mono hsuffix).cons _, ?_⟩
        have hsame : (s₃.revokeWhere (·.user_id == u.id) amb₃.now).book =
            s₃.book := book_congr rfl rfl
        show Book.Step cfg _ now _ s.book
          (s₃.revokeWhere (·.user_id == u.id) amb₃.now).book
        rw [hsame, hbook]
        exact .reset hnames hnow

/-! ## Tickets by mail -/

/-- The rule for the end of `resendConfirmation` and `forgotPassword`. -/
theorem mailToken_enters {u : User} {channel? : Option Channel}
    {type : VerificationTokenType} {hours : Int}
    {send : String → String → RawToken → AuthProg Unit} (hs : Sound s)
    (hsend : ∀ email name token, ∃ mail, send email name token =
      await (.sendMail mail)) (hu : u ∈ s.users.rows)
    (hstep : ∀ r ticket now, EndsWithMail r →
      ticket.New s.book type u.email now hours →
      Book.Step cfg request now r s.book (s.book.reissued ticket)) :
    alone (authSystem cfg) mailMayBounce t request
      (fun r _ s' log' => Entered cfg request t s.book
        (r.map fun _ => .done) s' log')
      (mailToken u.entity channel? type hours send) amb s log := by
  show alone (authSystem cfg) mailMayBounce t request _
    (await (.invalidateVerificationTokens u.id type amb.now) >>= fun _ =>
      createVerificationToken u.id type hours >>=
        mailTo u.entity channel? send) amb s log
  apply alone_call (fun _ => rfl)
  · exact fun _ _ _ h => nomatch h
  · intro amb₁ _ _ _
    have htime : AnsweredAt t amb₁.now ((authSystem cfg).entry t request amb₁
        (.invalidateVerificationTokens u.id type amb.now) none s :: log) :=
      .entry amb₁ _ none
    apply ticket_alone (s := s.invalidateVerificationTokens u.id type amb.now) hu
    intro ticket s₂ amb₂ x hfresh hticket hbook
    have hfresh' : ∀ r ∈ s.verification_tokens.rows,
        r.token_hash.raw ≠ ticket.token := by
      intro r hr
      have hmem : (if r.user_id = u.id ∧ r.type = type then r.use amb.now
          else r) ∈ (s.invalidateVerificationTokens u.id type
            amb.now).verification_tokens.rows := List.mem_map.2 ⟨r, hr, rfl⟩
      have hne := hfresh _ hmem
      split at hne <;> exact hne
    have hnew := new_of_fresh hfresh' hticket
    have htype : ticket.type = type := hnew.type
    have haddress : ticket.address = u.email := hnew.address
    have hafter : s₂.book = s.book.reissued ticket := by
      rw [hbook, book_invalidate hs.emails hu]
      unfold Book.reissued
      rw [htype, haddress]
    have hend : ∀ (r : Except AuthError Unit) log',
        EndsWithMail (r.map fun _ => .done) → AnsweredAt t amb₁.now log' →
        Entered cfg request t s.book (r.map fun _ => .done) s₂ log' := by
      intro r log' hr hlog'
      refine ⟨amb₁.now, hlog', ?_⟩
      rw [hafter]
      exact hstep _ ticket amb₁.now hr hnew
    cases channel? with
    | none => exact hend (.error .typeError) _ (.inr (.inr rfl)) (htime.cons x)
    | some channel =>
        obtain ⟨mail, hmail⟩ := hsend u.email channel.name ticket.token
        show alone (authSystem cfg) mailMayBounce t request _
          (send u.email channel.name ticket.token) amb₂ s₂ _
        rw [hmail, ← Prog.bind_pure (await (.sendMail mail))]
        apply mail_alone
        · intro amb₃ y
          exact hend (.error .mail) _ (.inr (.inl rfl)) ((htime.cons x).cons y)
        · intro amb₃ y
          exact hend (.ok ()) _ (.inl rfl) ((htime.cons x).cons y)

theorem account_of_found {u : User} {address : String}
    (h : s.userByEmail address = some u) :
    s.book.accounts address = some u.account := by
  show (s.userByEmail address).map User.account = _
  rw [h]
  rfl

theorem account_of_unknown {address : String}
    (h : s.userByEmail address = none) : s.book.accounts address = none := by
  show (s.userByEmail address).map User.account = _
  rw [h]
  rfl

theorem resendConfirmation_enters (email : String) (hs : Sound s) :
    alone (authSystem cfg) mailMayBounce t (.resendConfirmation email)
      (fun r _ s' log' => Entered cfg (.resendConfirmation email) t s.book
        (r.map fun _ => .done) s' log')
      (resendConfirmation cfg email) amb s log := by
  apply alone_call (fun _ => rfl)
  · exact fun _ _ _ h => nomatch h
  · intro amb₁ found _ hexec
    have hfound : (s.userByEmail email).map (fun u =>
      (u.entity, s.channelOf u.id)) = found := Except.ok.inj hexec
    have htime : AnsweredAt t amb₁.now ((authSystem cfg).entry t
        (.resendConfirmation email) amb₁ (.findUserByEmailWithChannel email) none
          s :: log) := .entry amb₁ _ none
    cases hfind : s.userByEmail email with
    | none =>
        rw [hfind] at hfound
        subst hfound
        refine ⟨amb₁.now, htime, .settled ?_⟩
        rw [account_of_unknown hfind]
        exact fun _ h => nomatch h
    | some u =>
        have haccount := account_of_found hfind
        obtain ⟨hu, hemail⟩ := (Sound.userByEmail_iff hs.emails).1 hfind
        rw [hfind] at hfound
        subst hfound
        show alone (authSystem cfg) mailMayBounce t _ _
          (if u.is_confirmed then Prog.pure () else
            mailToken u.entity (s.channelOf u.id) .EMAIL_CONFIRMATION
              cfg.confirmationTokenExpirationHours (sendConfirmationEmail cfg))
          amb₁ s _
        split
        · next hconfirmed =>
            refine ⟨amb₁.now, htime, .settled ?_⟩
            rw [haccount]
            rintro _ ⟨⟩
            exact hconfirmed
        · next hconfirmed =>
            apply mailToken_enters hs (fun _ _ _ => ⟨_, rfl⟩) hu
            intro r ticket now hr hnew
            rw [hemail] at hnew
            exact .resent haccount (Bool.not_eq_true _ ▸ hconfirmed) hnew hr

theorem forgotPassword_enters (email : String) (hs : Sound s) :
    alone (authSystem cfg) mailMayBounce t (.forgotPassword email)
      (fun r _ s' log' => Entered cfg (.forgotPassword email) t s.book
        (r.map fun _ => .done) s' log')
      (forgotPassword cfg email) amb s log := by
  apply alone_call (fun _ => rfl)
  · exact fun _ _ _ h => nomatch h
  · intro amb₁ found _ hexec
    have hfound : (s.userByEmail email).map (fun u =>
      (u.entity, s.channelOf u.id)) = found := Except.ok.inj hexec
    cases hfind : s.userByEmail email with
    | none =>
        rw [hfind] at hfound
        subst hfound
        exact ⟨amb₁.now, .entry amb₁ _ none, .nobody (account_of_unknown hfind)⟩
    | some u =>
        obtain ⟨hu, hemail⟩ := (Sound.userByEmail_iff hs.emails).1 hfind
        rw [hfind] at hfound
        subst hfound
        apply mailToken_enters hs (fun _ _ _ => ⟨_, rfl⟩) hu
        intro r ticket now hr hnew
        rw [hemail] at hnew
        exact .forgotten (account_of_found hfind) hnew hr

/-! ## Signing in -/

/-- Opening a session, which the book does not see. -/
theorem openSession_ends {u : User} (hu : u ∈ s.users.rows) :
    alone (authSystem cfg) mailMayBounce t request
      (fun r _ s' log' => log <:+ log' ∧ s'.book = s.book ∧
        (cfg.signs = true → ∃ pair, r = .ok pair) ∧
        (cfg.signs = false → r = .error .jwt))
      (openSession cfg u.entityWithPassword) amb s log := by
  obtain ⟨v, hv⟩ := Store.hasUser_iff.1 ⟨u, hu, rfl⟩
  show alone (authSystem cfg) mailMayBounce t request _
    (Prog.ofExcept (sign cfg amb cfg.jwtRefreshSecret cfg.jwtRefreshExpiration
      (.refresh u.id amb.family amb.jti)) >>= _) amb s log
  have hrefresh := sign_isOk cfg amb cfg.jwtRefreshSecret
    cfg.jwtRefreshExpiration (.refresh u.id amb.family amb.jti)
  cases hsign : sign cfg amb cfg.jwtRefreshSecret cfg.jwtRefreshExpiration
      (.refresh u.id amb.family amb.jti) with
  | error e =>
      rw [hsign] at hrefresh
      refine ⟨List.suffix_rfl, rfl, ?_, ?_⟩
      · intro hsigns
        rw [AuthConfig.signs, ← hrefresh] at hsigns
        cases hsigns
      · intro _
        rw [sign_error hsign]
  | ok refreshToken =>
      rw [hsign] at hrefresh
      rw [Prog.ofExcept_ok_bind]
      apply alone_call (fun _ => rfl)
      · intro amb₁ e _ hexec
        cases (Store.insertRefreshToken_ok (r := ⟨hashToken refreshToken,
          amb.family, u.id, amb.now + jwtExpirationToMs cfg.jwtRefreshExpiration,
          none⟩) hv).symm.trans hexec
      · intro amb₁ _ _ _
        have hsame : (Store.insertRefreshToken s ⟨hashToken refreshToken,
            amb.family, u.id, amb.now + jwtExpirationToMs
              cfg.jwtRefreshExpiration, none⟩).2.book = s.book := by
          rw [Store.insertRefreshToken_only]
          exact book_congr rfl rfl
        show alone (authSystem cfg) mailMayBounce t request _
          (Prog.ofExcept (sign cfg amb₁ cfg.jwtSecret cfg.jwtAccessExpiration
            (.access u.id u.email)) >>= fun accessToken =>
              Prog.pure (TokenPair.mk accessToken refreshToken)) amb₁ _ _
        have haccess := sign_isOk cfg amb₁ cfg.jwtSecret cfg.jwtAccessExpiration
          (.access u.id u.email)
        cases hsign₁ : sign cfg amb₁ cfg.jwtSecret cfg.jwtAccessExpiration
            (.access u.id u.email) with
        | error e =>
            rw [hsign₁] at haccess
            refine ⟨List.suffix_cons _ _, hsame, ?_, ?_⟩
            · intro hsigns
              rw [AuthConfig.signs, ← haccess, Bool.and_comm] at hsigns
              cases hsigns
            · intro _
              rw [sign_error hsign₁]
        | ok accessToken =>
            rw [hsign₁] at haccess
            refine ⟨List.suffix_cons _ _, hsame, fun _ => ⟨_, rfl⟩, ?_⟩
            intro hsigns
            rw [AuthConfig.signs, ← haccess, ← hrefresh] at hsigns
            cases hsigns

theorem login_enters (dto : LoginDto) (hs : Sound s) :
    alone (authSystem cfg) mailMayBounce t (.login dto)
      (fun r _ s' log' => Entered cfg (.login dto) t s.book
        (r.map .tokens) s' log')
      (login cfg dto) amb s log := by
  apply alone_call (fun _ => rfl)
  · exact fun _ _ _ h => nomatch h
  · intro amb₁ found _ hexec
    have hfound : (s.userByEmail dto.email).map User.entityWithPassword =
      found := Except.ok.inj hexec
    have htime : AnsweredAt t amb₁.now ((authSystem cfg).entry t (.login dto)
        amb₁ (.findUserByEmail dto.email) none s :: log) :=
      .entry amb₁ _ none
    cases hfind : s.userByEmail dto.email with
    | none =>
        rw [hfind] at hfound
        subst hfound
        refine ⟨amb₁.now, htime, .refused ?_⟩
        rw [account_of_unknown hfind]
        exact fun _ h => nomatch h
    | some u =>
        have haccount := account_of_found hfind
        obtain ⟨hu, hemail⟩ := (Sound.userByEmail_iff hs.emails).1 hfind
        rw [hfind] at hfound
        subst hfound
        apply alone_call (fun _ => rfl)
        · exact fun _ _ _ h => nomatch h
        · intro amb₂ (isPasswordValid : Bool) _ hexec₂
          have hvalid : (u.password.password == dto.password) =
            isPasswordValid := Except.ok.inj hexec₂
          have htime₂ := htime.cons ((authSystem cfg).entry t (.login dto) amb₂
            (.verifyPassword u.password dto.password) none s)
          show alone (authSystem cfg) mailMayBounce t _ _
            (if isPasswordValid = false then
                Prog.throw (.domain .InvalidCredentials)
              else if u.is_confirmed = false then
                Prog.throw (.domain .EmailNotConfirmed)
              else openSession cfg u.entityWithPassword) amb₂ s _
          split
          · next hinvalid =>
              rw [hinvalid, beq_eq_false_iff_ne] at hvalid
              refine ⟨amb₁.now, htime₂, .refused ?_⟩
              rw [haccount]
              rintro _ ⟨⟩
              exact hvalid
          · next hpassword =>
              have hsame : u.password.password = dto.password := by
                rw [Bool.not_eq_false] at hpassword
                rw [hpassword, beq_iff_eq] at hvalid
                exact hvalid
              split
              · next hunconfirmed =>
                  exact ⟨amb₁.now, htime₂, .unconfirmed haccount hsame
                    hunconfirmed⟩
              · next hconfirmed =>
                  rw [Bool.not_eq_false] at hconfirmed
                  apply alone_mono ?_ (openSession_ends hu)
                  rintro r amb₃ s₃ log₃ ⟨hsuffix, hbook, hsigned, hunsigned⟩
                  refine ⟨amb₁.now, htime₂.mono hsuffix, ?_⟩
                  rw [hbook]
                  refine .signedIn haccount hsame hconfirmed ?_ ?_
                  · intro hsigns
                    obtain ⟨pair, rfl⟩ := hsigned hsigns
                    exact ⟨pair, rfl⟩
                  · intro hsigns
                    rw [hunsigned hsigns]
                    rfl

/-! ## All requests -/

/-- A request of a session leaves the book alone. -/
theorem session_keeps (hsession : request.keepsSession = true) :
    alone (authSystem cfg) mailMayBounce t request
      (fun _ _ s' _ => s'.book = s.book) (serve cfg request) amb s log := by
  have hquiet : ∀ op, request.MayCall op →
      op.writesUsers = false ∧ op.writesTokens = false := by
    intro op hop
    cases request with
    | refresh token => cases op <;> first | exact ⟨rfl, rfl⟩ | exact hop.elim
    | logout userId => cases op <;> first | exact ⟨rfl, rfl⟩ | exact hop.elim
    | activate isPublic isOptional authorization =>
        cases op <;> exact hop.elim
    | _ => cases hsession
  apply alone_of_issues (J := fun (s' : Store) _ => s'.book = s.book) ?_
    (serve_mayCall cfg request) rfl
  intro m op fault s' log' hop hbook _ _
  cases fault with
  | some e => exact hbook
  | none =>
      obtain ⟨husers, htokens⟩ := hquiet op hop
      rw [← hbook]
      apply book_congr
      · exact congrArg Table.rows (users_exec m s' husers)
      · exact congrArg Table.rows (verification_tokens_exec m s' htokens)

/-- Each request is an entry of the book. -/
theorem serve_enters (hs : Sound s) :
    alone (authSystem cfg) mailMayBounce t request
      (fun r _ s' log' => ∃ now,
        (request.keepsSession = false → AnsweredAt t now log') ∧
        Book.Step cfg request now r s.book s'.book)
      (serve cfg request) amb s log := by
  have hentered : ∀ {r s' log'}, Entered cfg request t s.book r s' log' →
      ∃ now, (request.keepsSession = false → AnsweredAt t now log') ∧
        Book.Step cfg request now r s.book s'.book := by
    rintro r s' log' ⟨now, htime, hstep⟩
    exact ⟨now, fun _ => htime, hstep⟩
  cases hsession : request.keepsSession with
  | true =>
      apply alone_mono ?_ (session_keeps hsession)
      intro r _ s' log' hbook
      refine ⟨0, nofun, ?_⟩
      rw [hbook]
      exact .session hsession
  | false =>
      rw [hsession] at hentered
      cases request with
      | register dto =>
          exact alone_map (register_enters dto hs)
            (fun _ _ _ _ h => hentered h) fun _ _ _ _ h => hentered h
      | login dto =>
          exact alone_map (login_enters dto hs)
            (fun _ _ _ _ h => hentered h) fun _ _ _ _ h => hentered h
      | confirm token =>
          exact alone_map (confirm_enters token hs)
            (fun _ _ _ _ h => hentered h) fun _ _ _ _ h => hentered h
      | resendConfirmation email =>
          exact alone_map (resendConfirmation_enters email hs)
            (fun _ _ _ _ h => hentered h) fun _ _ _ _ h => hentered h
      | forgotPassword email =>
          exact alone_map (forgotPassword_enters email hs)
            (fun _ _ _ _ h => hentered h) fun _ _ _ _ h => hentered h
      | resetPassword dto =>
          exact alone_map (resetPassword_enters dto hs)
            (fun _ _ _ _ h => hentered h) fun _ _ _ _ h => hentered h
      | _ => cases hsession

end Alone

/-! ## The tables stay in order -/

theorem emails_exec {m : Moment} {op : AuthOp} {s : Store}
    (haddress : ∀ w, op = .saveUser w →
      ∀ row ∈ s.users.rows, row.id = w.id → row.email = w.email)
    (h : s.users.Distinct User.email) :
    (Store.exec m op s).2.users.Distinct User.email := by
  cases op with
  | insertUser email password =>
      show (s.insertUser email password).2.users.Distinct User.email
      unfold Store.insertUser
      cases hfind : s.userByEmail email with
      | some u => exact h
      | none =>
          have hfree := userByEmail_eq_none_iff.1 hfind
          intro a ha b hb heq
          rcases (Table.mem_insert (h := rfl)).1 ha with ha | rfl
          · rcases (Table.mem_insert (h := rfl)).1 hb with hb | rfl
            · exact h a ha b hb heq
            · exact absurd heq (hfree a ha)
          · rcases (Table.mem_insert (h := rfl)).1 hb with hb | rfl
            · exact absurd heq.symm (hfree b hb)
            · rfl
  | saveUser w =>
      have hemail : ∀ row ∈ s.users.rows, (w.write row).email = row.email := by
        intro row hrow
        unfold UserEntity.write
        split
        · next hid => exact (haddress w rfl row hrow hid).symm
        · rfl
      intro a ha b hb heq
      obtain ⟨a₀, ha₀, rfl⟩ := List.mem_map.1 ha
      obtain ⟨b₀, hb₀, rfl⟩ := List.mem_map.1 hb
      rw [hemail a₀ ha₀, hemail b₀ hb₀] at heq
      rw [h a₀ ha₀ b₀ hb₀ heq]
  | deleteUser id =>
      show (s.deleteUser id).2.users.Distinct User.email
      unfold Store.deleteUser
      split
      · exact h
      · intro a ha b hb
        exact h a (Table.mem_delete.1 ha).1 b (Table.mem_delete.1 hb).1
  | _ =>
      rw [users_exec m s (by rfl)]
      exact h

section Runs

variable {cfg : AuthConfig} {P : AuthPolicy} {s₀ : Store} {c c' : AuthRun}

theorem emails_of_reachable
    (hstart : s₀.verification_tokens.Distinct VerificationToken.token_hash)
    (hemails : s₀.users.Distinct User.email)
    (h : Reachable (authSystem cfg) P s₀ c) :
    c.state.users.Distinct User.email := by
  apply h.answers (fun s _ => s.users.Distinct User.email) hemails
  intro b b' t request m op fault hb hb' hinv _ hlog
  have hlaw : Consuming b.log t request op :=
    (tokens_of_reachable hstart hb').1.2.newest hlog
  cases fault with
  | some e => exact hinv
  | none =>
      apply emails_exec ?_ hinv
      rintro w rfl
      exact (addresses_of_reachable hstart hb).saved hlaw

/-- The tables stay in order, whatever fails and in whatever order. -/
theorem sound_of_reachable (hs : Sound s₀)
    (hrecords : s₀.refresh_tokens.rows = [])
    (h : Reachable (authSystem cfg) P s₀ c) : Sound c.state := by
  have howned : Owned c.state := by
    apply owned_of_reachable ⟨?_, hs.owners⟩ h
    exact fun ch hch => hs.keys _ (referenced_of_channel ⟨ch, hch, rfl⟩)
  have htokens : TokenOwners c.state := by
    apply tokenOwners_of_reachable hs.hashes ?_ h
    exact fun r hr => hs.keys _ (referenced_of_token hr)
  refine ⟨emails_of_reachable hs.hashes hs.emails h, howned.distinct,
    (tokens_of_reachable hs.hashes h).1.1.hashes, ?_⟩
  intro id href
  unfold Store.referenced at href
  rw [Bool.or_eq_true, Bool.or_eq_true] at href
  rcases href with (hany | hany) | hany
  · obtain ⟨ch, hch, hid⟩ := List.any_eq_true.1 hany
    rw [← beq_iff_eq.1 hid]
    exact howned.owners ch hch
  · obtain ⟨r, hr, hid⟩ := List.any_eq_true.1 hany
    rw [← beq_iff_eq.1 hid]
    exact htokens r hr
  · obtain ⟨r, hr, hid⟩ := List.any_eq_true.1 hany
    rw [← beq_iff_eq.1 hid]
    exact recordOwners_of_reachable hrecords h r hr

/-! ## Runs -/

/-- The thread that has served the request. -/
def Event.thread (e : Event) : AuthThread := ⟨e.request, Prog.ofExcept e.result⟩

/-- From `b` on, the process has made the entries of `events`. -/
structure Booked (cfg : AuthConfig) (c : AuthRun) (events : List Event)
    (c' : AuthRun) : Prop where
  run : Book.Run cfg c.state.book events c'.state.book
  threads : c'.threads = c.threads ++ events.map Event.thread
  times : ∀ i e, events[i]? = some e → e.request.keepsSession = false →
    AnsweredAt (c.threads.length + i) e.now c'.log

/-- One more request. -/
theorem Booked.snoc {events : List Event} (h : Booked cfg c events c')
    {e : Event} {s : Store} {log : AuthLog} (hlog : c'.log <:+ log)
    (hstep : Book.Step cfg e.request e.now e.result c'.state.book s.book)
    (htime : e.request.keepsSession = false →
      AnsweredAt c'.threads.length e.now log) :
    Booked cfg c (events ++ [e]) ⟨s, c'.threads ++ [e.thread], log⟩ := by
  refine ⟨h.run.snoc hstep, ?_, ?_⟩
  · rw [h.threads, List.map_append, List.append_assoc]
    rfl
  · intro i e' he' hsession
    rcases Nat.lt_or_ge i events.length with hlt | hge
    · rw [List.getElem?_append_left hlt] at he'
      exact (h.times i e' he' hsession).mono hlog
    · rw [List.getElem?_append_right hge] at he'
      have hlast : i - events.length = 0 ∧ e' = e := by
        cases hi : i - events.length with
        | zero =>
            rw [hi] at he'
            exact ⟨rfl, (Option.some.inj he').symm⟩
        | succ n =>
            rw [hi] at he'
            cases he'
      obtain ⟨hi, rfl⟩ := hlast
      have hlength : c.threads.length + i = c'.threads.length := by
        rw [h.threads, List.length_append, List.length_map]
        omega
      rw [hlength]
      exact htime hsession

/--
**The account book.**  Where requests arrive one after another and nothing
fails but the mail, what a run makes of the tables is a run of the book, with
the same requests, the same results and times at which they were answered.
-/
theorem book_of_steps (hs : Sound s₀) (hrecords : s₀.refresh_tokens.rows = [])
    (hc : Reachable (authSystem cfg) mailMayBounce s₀ c)
    (hidle : c.idle = true) (h : Steps (authSystem cfg) mailMayBounce c c')
    (hidle' : c'.idle = true) : ∃ events, Booked cfg c events c' := by
  apply Steps.serial (J := fun b => ∃ events, Booked cfg c events b)
    (fun _ _ haccept => haccept) ?_ hc hidle ?_ h hidle'
  · rintro b request amb hb _ ⟨events, hbooked⟩
    have hsound := sound_of_reachable hs hrecords hb
    apply alone_mono ?_ (alone_newer (Q := fun _ => True)
      (Prog.issues_any (fun _ => trivial) _) (serve_enters hsound))
    rintro r _ s' log' ⟨⟨now, htime, hstep⟩, newer, rfl, _⟩
    exact ⟨_, hbooked.snoc (e := ⟨request, now, r⟩)
      (List.suffix_append newer b.log) hstep htime⟩
  · refine ⟨[], .nil, (List.append_nil _).symm, ?_⟩
    intro i e he
    cases he

/--
**The password.**  Where requests arrive one after another and nothing fails
but the mail, a user keeps its password as long as no `resetPassword` returns,
and stays confirmed; a login then signs the user in exactly with that password,
once the address is confirmed.
-/
theorem password_stands (hs : Sound s₀)
    (hrecords : s₀.refresh_tokens.rows = [])
    (hc : Reachable (authSystem cfg) mailMayBounce s₀ c)
    (hidle : c.idle = true) (h : Steps (authSystem cfg) mailMayBounce c c')
    (hidle' : c'.idle = true) {email : String} {u : User}
    (hu : c.state.userByEmail email = some u)
    (hnone : ∀ th ∈ c'.threads.drop c.threads.length, ∀ dto,
      th.request = .resetPassword dto → th.prog.returned = false) :
    ∃ u', c'.state.userByEmail email = some u' ∧
      u'.password.password = u.password.password ∧
      (u.is_confirmed = true → u'.is_confirmed = true) ∧
      ∀ dto : LoginDto, dto.email = email → ∀ r c'',
        Served cfg mailMayBounce c' (.login dto) r c'' →
        ((∃ pair, r = .ok (.tokens pair)) ↔
          dto.password = u.password.password ∧ u'.is_confirmed = true ∧
            cfg.signs = true) := by
  obtain ⟨events, hbooked⟩ := book_of_steps hs hrecords hc hidle h hidle'
  obtain ⟨a, ha, hconfirmed, hpassword⟩ :=
    hbooked.run.kept (account_of_found hu)
  have hsame : a.password = u.password.password := by
    apply hpassword
    intro e he dto hrequest hresult
    have hth : e.thread ∈ c'.threads.drop c.threads.length := by
      rw [hbooked.threads, List.drop_left]
      exact List.mem_map.2 ⟨e, he, rfl⟩
    have hreturned := hnone e.thread hth dto hrequest
    unfold Event.thread at hreturned
    rw [hresult] at hreturned
    cases hreturned
  have hsound := sound_of_reachable hs hrecords (hc.steps h)
  obtain ⟨u', hu', rfl⟩ := Option.map_eq_some_iff.1 ha
  refine ⟨u', hu', hsame, hconfirmed, ?_⟩
  rintro dto rfl r c'' hserved
  obtain ⟨_, now, _, hstep⟩ :=
    hserved.result hidle' fun amb => serve_enters hsound
  rw [hstep.login_iff, ha]
  constructor
  · rintro ⟨_, ⟨⟩, hright, hconfirmed', hsigns⟩
    exact ⟨hright.symm.trans hsame, hconfirmed', hsigns⟩
  · rintro ⟨hright, hconfirmed', hsigns⟩
    exact ⟨_, rfl, hsame.trans hright.symm, hconfirmed', hsigns⟩

end Runs

theorem sound_empty : Sound {} := by
  refine ⟨?_, ?_, ?_, foreignKeys_empty⟩
  · exact fun a ha => nomatch ha
  · exact fun a ha => nomatch ha
  · exact fun a ha => nomatch ha

/-- A user has registered, and the mail was sent. -/
def registeredAlone : AuthRun :=
  authRun mailMayBounce {} (Tick.serve sampleRegister 0 7 { bytes := 7 })
    (by decide)

/-- The user has asked for another mail, which has bounced, and has confirmed
the address with its token. -/
def confirmedAlone : AuthRun :=
  authRunFrom mailMayBounce registeredAlone
    (.spawn (.resendConfirmation sampleEmail) { now := 500 } ::
      (Tick.answers 1 3 { now := 500, bytes := 8 } ++
        [.perform 1 { now := 500 } (some .mail)] ++
        Tick.serve (.confirm (.hex 8)) 2 3 { now := 1000 })) (by decide)

theorem reachable_registeredAlone :
    Reachable (authSystem sampleConfig) mailMayBounce {} registeredAlone :=
  reachable_authRun _ _ (by decide)

theorem steps_confirmedAlone :
    Steps (authSystem sampleConfig) mailMayBounce registeredAlone
      confirmedAlone :=
  steps_authRunFrom _ _ (by decide)

theorem book_of_confirmedAlone :
    ∃ events, Booked sampleConfig registeredAlone events confirmedAlone :=
  book_of_steps sound_empty rfl reachable_registeredAlone (by decide)
    steps_confirmedAlone (by decide)

theorem password_stands_of_confirmedAlone :
    ∃ u', confirmedAlone.state.userByEmail sampleEmail = some u' ∧
      ∀ dto : LoginDto, dto.email = sampleEmail → ∀ r c'',
        Served sampleConfig mailMayBounce confirmedAlone (.login dto) r c'' →
        ((∃ pair, r = .ok (.tokens pair)) ↔
          dto.password = "correctpassword" ∧ u'.is_confirmed = true ∧
            sampleConfig.signs = true) := by
  have huser : registeredAlone.state.userByEmail sampleEmail =
      some ⟨0, sampleEmail, ⟨"correctpassword", 0⟩, false⟩ := by rfl
  have hothers : ∀ th ∈ confirmedAlone.threads.drop 1,
      th.request = .resendConfirmation sampleEmail ∨
        th.request = .confirm (.hex 8) := by decide
  have hnone : ∀ th ∈ confirmedAlone.threads.drop 1, ∀ dto,
      th.request = .resetPassword dto → th.prog.returned = false := by
    intro th hth dto hrequest
    have hother := hothers th hth
    rw [hrequest] at hother
    rcases hother with h | h <;> cases h
  obtain ⟨u', hu', _, _, hlogin⟩ :=
    password_stands sound_empty rfl reachable_registeredAlone (by decide)
      steps_confirmedAlone (by decide) huser hnone
  exact ⟨u', hu', hlogin⟩

end Videum.Auth
