import Videum.Auth.Records
import Videum.Auth.Users

/-!
# What requests vouch for

Two calls carry trust from one table to another.  A mail carries a
verification token to an address, and a login turns a password into a
refresh-token record.  This module says what a request has behind it, in its
own thread, when it makes one of them.

## Main results

* `mailToken_wp`, `register_vouches` — a mailed token was issued to the user
  whose address the mail goes to.
* `login_vouches` — a login has checked the password and the confirmation.
* `vouched_of_reachable` — every run obeys the law.
-/

namespace Videum.Auth

open Videum.Async
open Videum.Common

namespace AuthOp

/-- The mail a call has sent. -/
def sentMail : (op : AuthOp) → Except AuthError op.Res → Option Mail
  | sendMail mail, .ok _ => some mail
  | _, _ => none

/-- The call has found a password right. -/
def verified : (op : AuthOp) → Except AuthError op.Res → Bool
  | verifyPassword _ _, .ok valid => valid
  | _, _ => false

/-- The calls the law is about. -/
def vouches : AuthOp → Bool
  | insertRefreshToken _ => true
  | sendMail _ => true
  | _ => false

end AuthOp

/-- The first two calls of thread `t`, a login, have found the user's address
confirmed and the password right. -/
def Checked (log : AuthLog) (t : Nat) (dto : LoginDto) (userId : Nat) : Prop :=
  ∃ (x y : AuthEntry) (user : UserEntity) (hash : PasswordHash),
    [y, x] <:+ own t log ∧ x.op = .findUserByEmail dto.email ∧
    x.op.seenUser x.res = some user ∧ user.password = some hash ∧
    user.is_confirmed = true ∧ user.id = userId ∧
    y.op = .verifyPassword hash dto.password ∧ y.op.verified y.res = true

/-- Thread `t` has issued the token the mail carries, to the user whose
address the mail goes to. -/
def Addressed (log : AuthLog) (t : Nat) (mail : Mail) : Prop :=
  ∃ x ∈ own t log, ∃ v, x.op.addedToken x.res = some v ∧
    v.token_hash = hashToken mail.link.token ∧
    ∃ y ∈ own t log, ∃ user, y.op.seenUser y.res = some user ∧
      v.user_id = user.id ∧ mail.to = user.email

/-- What a call has behind it in its own thread: the token of a new record
names the owner of the record, and a login has checked that owner; a mail is
addressed to whom its token was issued. -/
def Vouched (log : AuthLog) (t : Nat) (request : AuthRequest) :
    AuthOp → Prop
  | .insertRefreshToken n => n.token_hash.raw.sub = some n.user_id ∧
      ∀ dto, request = .login dto → Checked log t dto n.user_id
  | .sendMail mail => Addressed log t mail
  | _ => True

theorem Addressed.mono {old new : AuthLog} {t : Nat} {mail : Mail}
    (h : Addressed old t mail) (hs : old <:+ new) : Addressed new t mail := by
  obtain ⟨x, hx, v, hv, hhash, y, hy, hrest⟩ := h
  exact ⟨x, own_mono hs hx, v, hv, hhash, y, own_mono hs hy, hrest⟩

theorem vouched_of_quiet {op : AuthOp} (h : op.vouches = false) (log : AuthLog)
    (t : Nat) (request : AuthRequest) : Vouched log t request op := by
  cases op with
  | insertRefreshToken n => exact nomatch h
  | sendMail mail => exact nomatch h
  | _ => trivial

/-- Weakest precondition of a program that keeps to the law. -/
abbrev vouching (cfg : AuthConfig) (P : AuthPolicy) (t : Nat)
    (request : AuthRequest) {α : Type}
    (post : Except AuthError α → Moment → AuthLog → Prop) (p : AuthProg α)
    (amb : Moment) (log : AuthLog) : Prop :=
  wpLaw (authSystem cfg) P (fun _ _ => True) Vouched t request post p amb log

theorem vouched_kept_by (cfg : AuthConfig) (P : AuthPolicy) :
    KeptBy (authSystem cfg) P (fun _ _ => True) Vouched :=
  fun _ _ _ _ _ _ _ _ _ _ _ => trivial

/-! ## Mails -/

section Rules

variable {cfg : AuthConfig} {P : AuthPolicy} {t : Nat}
  {request : AuthRequest} {amb : Moment} {log : AuthLog} {α : Type}
  {post : Except AuthError α → Moment → AuthLog → Prop}

/-- The rule for a program that makes no call the law is about. -/
theorem quiet_wp {p : AuthProg α}
    (hp : p.Issues fun op : AuthOp => op.vouches = false)
    (hpost : ∀ r amb log', log <:+ log' → post r amb log') :
    vouching cfg P t request post p amb log := by
  have hfree : vouching cfg P t request (fun _ _ _ => True) p amb log :=
    wpLaw_of_issues (vouched_kept_by cfg P) (fun _ _ _ => trivial)
      (hp.mono fun op hop log => vouched_of_quiet hop log t request)
  apply wp_mono ?_ (wp_suffix hfree)
  rintro r amb' log' ⟨_, hs⟩
  exact hpost r amb' log' hs

/-- The rule for a call the law is not about. -/
theorem quiet_call_wp {op : AuthOp} {f : op.Res → AuthProg α}
    (hop : op.vouches = false) (herror : ∀ e amb log', post (.error e) amb log')
    (hf : ∀ (log' : AuthLog) (s : Store) (amb : Moment) (v : op.Res),
      Others t log log' → (Store.exec amb op s).1 = .ok v →
        vouching cfg P t request post (f v) amb
          ((authSystem cfg).entry t request amb op none s :: log')) :
    vouching cfg P t request post (await op >>= f) amb log := by
  apply wpLaw_call (vouched_kept_by cfg P) herror
  · exact fun log' _ => vouched_of_quiet hop log' t request
  · exact fun log' s amb' v hothers _ _ hexec =>
      hf log' s amb' v hothers hexec

/-- The rule for issuing a token to a user the thread has seen. -/
theorem createVerificationToken_wp {user : UserEntity}
    {type : VerificationTokenType} {hours : Int} {f : RawToken → AuthProg α}
    (herror : ∀ e amb log', post (.error e) amb log')
    (hseen : ∃ y ∈ own t log, y.op.seenUser y.res = some user)
    (hf : ∀ rawToken amb log',
      (∀ mail : Mail, mail.link.token = rawToken → mail.to = user.email →
        Addressed log' t mail) →
      vouching cfg P t request post (f rawToken) amb log') :
    vouching cfg P t request post
      (createVerificationToken user.id type hours >>= f) amb log := by
  rw [createVerificationToken_bind]
  show vouching cfg P t request post (await (.insertVerificationToken
    (issuedColumns user.id type hours amb)) >>= _) amb log
  apply quiet_call_wp rfl herror
  intro log' s amb' _ hothers hexec
  apply hf
  intro mail htoken hto
  obtain ⟨y, hy, hshown⟩ := hseen
  have hs : log <:+ (authSystem cfg).entry t request amb'
      (.insertVerificationToken (issuedColumns user.id type hours amb)) none s
        :: log' :=
    hothers.suffix.trans (List.suffix_cons _ _)
  have hadded : (AuthOp.insertVerificationToken
      (issuedColumns user.id type hours amb)).addedToken
        (Store.exec amb' (.insertVerificationToken
          (issuedColumns user.id type hours amb)) s).1 =
      some (issuedColumns user.id type hours amb) := by
    rw [hexec]
    rfl
  refine ⟨_, mem_own.2 ⟨.head _, rfl⟩, _, hadded, ?_, y, own_mono hs hy, user,
    hshown, rfl, hto⟩
  rw [htoken]
  rfl

/-- The rule for a mail that carries the token to the user. -/
theorem sendMail_wp {mail : Mail} (haddressed : Addressed log t mail) :
    vouching cfg P t request (fun _ _ _ => True) (await (.sendMail mail)) amb
      log := by
  rw [← Prog.bind_pure (await (.sendMail mail))]
  apply wpLaw_call (vouched_kept_by cfg P) (fun _ _ _ => trivial)
  · exact fun log' hothers => haddressed.mono hothers.suffix
  · exact fun _ _ _ _ _ _ _ _ => trivial

/-- The end of `resendConfirmation` and `forgotPassword`. -/
theorem mailToken_wp {user : UserEntity} {channel? : Option Channel}
    {type : VerificationTokenType} {hours : Int}
    {send : String → String → RawToken → AuthProg Unit}
    (hseen : ∃ y ∈ own t log, y.op.seenUser y.res = some user)
    (hsend : ∀ name token, ∃ mail, mail.link.token = token ∧
      mail.to = user.email ∧
      send user.email name token = await (.sendMail mail)) :
    vouching cfg P t request (fun _ _ _ => True)
      (mailToken user channel? type hours send) amb log := by
  show vouching cfg P t request _
    (await (.invalidateVerificationTokens user.id type amb.now) >>= fun _ =>
      createVerificationToken user.id type hours >>=
        mailTo user channel? send) amb log
  apply quiet_call_wp rfl (fun _ _ _ => trivial)
  intro log₁ s amb₁ _ hothers _
  obtain ⟨y, hy, hshown⟩ := hseen
  have hy₁ := own_mono (hothers.suffix.trans (List.suffix_cons
    ((authSystem cfg).entry t request amb₁
      (.invalidateVerificationTokens user.id type amb.now) none s) log₁)) hy
  apply createVerificationToken_wp (fun _ _ _ => trivial) ⟨y, hy₁, hshown⟩
  intro rawToken amb₂ log₂ haddressed
  cases channel? with
  | none => trivial
  | some channel =>
      obtain ⟨mail, htoken, hto, heq⟩ := hsend channel.name rawToken
      show vouching cfg P t request _ (send user.email channel.name rawToken)
        amb₂ log₂
      rw [heq]
      exact sendMail_wp (haddressed mail htoken hto)

end Rules

/-! ## Programs -/

section Programs

variable {cfg : AuthConfig} {P : AuthPolicy} {t : Nat}
  {request : AuthRequest} {amb : Moment} {log : AuthLog}

/-- The thread has seen a user that a call has just shown. -/
theorem seen_head {op : AuthOp} {s : Store} {m : Moment} {user : UserEntity}
    {log' : AuthLog} (h : op.seenUser (Store.exec m op s).1 = some user) :
    ∃ y ∈ own t ((authSystem cfg).entry t request m op none s :: log'),
      y.op.seenUser y.res = some user :=
  ⟨_, mem_own.2 ⟨.head _, rfl⟩, h⟩

theorem resendConfirmation_vouches (email : String) :
    vouching cfg P t request (fun _ _ _ => True)
      (resendConfirmation cfg email) amb log := by
  apply quiet_call_wp rfl (fun _ _ _ => trivial)
  intro log₁ s amb₁ found _ hexec
  cases found with
  | none => trivial
  | some found =>
      obtain ⟨user, channel?⟩ := found
      dsimp only
      split
      · trivial
      · apply mailToken_wp
        · apply seen_head
          rw [hexec]
          rfl
        · exact fun name token => ⟨_, rfl, rfl, rfl⟩

theorem forgotPassword_vouches (email : String) :
    vouching cfg P t request (fun _ _ _ => True)
      (forgotPassword cfg email) amb log := by
  apply quiet_call_wp rfl (fun _ _ _ => trivial)
  intro log₁ s amb₁ found _ hexec
  cases found with
  | none => trivial
  | some found =>
      obtain ⟨user, channel?⟩ := found
      apply mailToken_wp
      · apply seen_head
        rw [hexec]
        rfl
      · exact fun name token => ⟨_, rfl, rfl, rfl⟩

/-- A new user has been shown to the thread that adds it. -/
theorem createUserWithChannel_wp {α : Type} {email : String}
    {password : PasswordHash} {f : UserEntity × Channel → AuthProg α}
    {post : Except AuthError α → Moment → AuthLog → Prop}
    (herror : ∀ e amb log', post (.error e) amb log')
    (hf : ∀ (pair : UserEntity × Channel) (amb : Moment) (log' : AuthLog),
      (∃ y ∈ own t log', y.op.seenUser y.res = some pair.1) →
      vouching cfg P t request post (f pair) amb log') :
    vouching cfg P t request post (createUserWithChannel email password >>= f)
      amb log := by
  unfold createUserWithChannel
  rw [Prog.bind_assoc]
  apply quiet_call_wp rfl herror
  intro log₁ s amb₁ user _ hexec
  obtain ⟨y, hy, hshown⟩ : ∃ y ∈ own t ((authSystem cfg).entry t request amb₁
      (.insertUser email password) none s :: log₁),
      y.op.seenUser y.res = some user := by
    apply seen_head
    rw [hexec]
    rfl
  have hchannel : (createChannel user.id email).Issues
      fun op : AuthOp => op.vouches = false :=
    fun moment => tryNicknames_issues (fun _ _ => rfl) (fun _ => rfl) _ _ _
  apply wp_bind
  apply wp_tryCatch
  apply wp_bind
  apply quiet_wp hchannel
  intro r amb₂ log₂ hs
  cases r with
  | error e =>
      apply quiet_call_wp rfl
      · exact fun e' amb₃ log₃ => herror e' amb₃ log₃
      · exact fun log₃ s₃ amb₃ _ _ _ => herror e amb₃ _
  | ok channel => exact hf (user, channel) amb₂ log₂ ⟨y, own_mono hs hy, hshown⟩

theorem register_vouches (dto : RegisterDto) :
    vouching cfg P t request (fun _ _ _ => True) (register cfg dto) amb
      log := by
  apply quiet_call_wp rfl (fun _ _ _ => trivial)
  intro log₁ s₁ amb₁ existing _ _
  cases existing with
  | some user => trivial
  | none =>
      apply quiet_call_wp rfl (fun _ _ _ => trivial)
      intro log₂ s₂ amb₂ hashedPassword _ _
      apply createUserWithChannel_wp (fun _ _ _ => trivial)
      rintro ⟨user, channel⟩ amb₃ log₃ hseen
      apply createVerificationToken_wp (fun _ _ _ => trivial) hseen
      intro rawToken amb₄ log₄ haddressed
      apply wp_bind
      apply wp_mono ?_ (sendMail_wp (haddressed _ rfl rfl))
      intro r _ _ _
      cases r <;> trivial

theorem Checked.mono {old new : AuthLog} {dto : LoginDto} {userId : Nat}
    (h : Checked old t dto userId) (hs : own t old <:+ own t new) :
    Checked new t dto userId := by
  obtain ⟨x, y, user, hash, hmine, hrest⟩ := h
  exact ⟨x, y, user, hash, hmine.trans hs, hrest⟩

/-- The session a login opens is one for the user it has checked. -/
theorem openSession_wp {dto : LoginDto} {user : UserEntity}
    (hchecked : Checked log t dto user.id) :
    vouching cfg P t (.login dto)
      (fun result _ log => ∀ pair, result = .ok pair → ∃ userId,
        Checked log t dto userId ∧ pair.access_token.sub = some userId ∧
        pair.refresh_token.sub = some userId) (openSession cfg user) amb
      log := by
  show vouching cfg P t (.login dto) _
    (Prog.ofExcept (sign cfg amb cfg.jwtRefreshSecret cfg.jwtRefreshExpiration
      (.refresh user.id amb.family amb.jti)) >>= _) amb log
  cases hsign : sign cfg amb cfg.jwtRefreshSecret cfg.jwtRefreshExpiration
      (.refresh user.id amb.family amb.jti) with
  | error e => exact nofun
  | ok refreshToken =>
      have hsub := sign_sub hsign
      rw [Prog.ofExcept_ok_bind]
      apply wpLaw_call (vouched_kept_by cfg P) (fun _ _ _ => nofun)
      · intro log' hothers
        refine ⟨hsub, ?_⟩
        rintro dto' ⟨⟩
        exact hchecked.mono ⟨[], hothers.own_eq.symm⟩
      · intro log' s amb' _ hothers _ _ _
        show vouching cfg P t (.login dto) _
          (Prog.ofExcept (sign cfg amb' cfg.jwtSecret cfg.jwtAccessExpiration
            (.access user.id user.email)) >>= fun accessToken =>
              Prog.pure (⟨accessToken, refreshToken⟩ : TokenPair)) amb' _
        cases haccess : sign cfg amb' cfg.jwtSecret cfg.jwtAccessExpiration
            (.access user.id user.email) with
        | error e => exact nofun
        | ok accessToken =>
            rintro pair ⟨⟩
            refine ⟨user.id, hchecked.mono ?_, sign_sub haccess, hsub⟩
            rw [own_entry, hothers.own_eq]
            exact List.suffix_cons _ _

/-- A login inserts a record only for a user it has checked, and returns
tokens of that user. -/
theorem login_vouches {dto : LoginDto} (hown : own t log = []) :
    vouching cfg P t (.login dto)
      (fun result _ log => ∀ pair, result = .ok pair → ∃ userId,
        Checked log t dto userId ∧ pair.access_token.sub = some userId ∧
        pair.refresh_token.sub = some userId) (login cfg dto) amb log := by
  have herror : ∀ (e : AuthError) (amb : Moment) (log : AuthLog),
      (fun (result : Except AuthError TokenPair) (_ : Moment) (log : AuthLog) =>
        ∀ pair, result = .ok pair → ∃ userId, Checked log t dto userId ∧
          pair.access_token.sub = some userId ∧
          pair.refresh_token.sub = some userId) (.error e) amb log :=
    fun _ _ _ => nofun
  apply quiet_call_wp rfl herror
  intro log₁ s₁ amb₁ user? hothers₁ hexec₁
  have hown₁ := own_entry (authSystem cfg) t (.login dto) amb₁
    (.findUserByEmail dto.email) none s₁ log₁
  rw [hothers₁.own_eq, hown] at hown₁
  cases user? with
  | none => exact herror _ amb₁ _
  | some user =>
      cases hpassword : user.password with
      | none =>
          simp only [hpassword]
          exact herror _ amb₁ _
      | some hash =>
          simp only [hpassword]
          apply quiet_call_wp rfl herror
          intro log₂ s₂ amb₂ valid hothers₂ hexec₂
          have hown₂ := own_entry (authSystem cfg) t (.login dto) amb₂
            (.verifyPassword hash dto.password) none s₂ log₂
          rw [hothers₂.own_eq, hown₁] at hown₂
          split
          · exact herror _ amb₂ _
          · next hvalid =>
              split
              · exact herror _ amb₂ _
              · next hconfirmed =>
                  apply openSession_wp
                  have hseen : (AuthOp.findUserByEmail dto.email).seenUser
                      (Store.exec amb₁ (.findUserByEmail dto.email) s₁).1
                        = some user := by
                    rw [hexec₁]
                    rfl
                  have hverified : (AuthOp.verifyPassword hash
                      dto.password).verified (Store.exec amb₂
                        (.verifyPassword hash dto.password) s₂).1 = true := by
                    rw [hexec₂]
                    exact eq_true_of_ne_false hvalid
                  refine ⟨(authSystem cfg).entry t (.login dto) amb₁
                    (.findUserByEmail dto.email) none s₁,
                    (authSystem cfg).entry t (.login dto) amb₂
                      (.verifyPassword hash dto.password) none s₂, user, hash,
                    ?_, rfl, hseen, hpassword, eq_true_of_ne_false hconfirmed,
                    rfl, rfl, hverified⟩
                  exact ⟨[], hown₂.symm⟩

/-- A `refresh` inserts a record only with a token that names its owner. -/
theorem refresh_vouches (rawToken : RawToken) :
    (refresh cfg rawToken).Issues fun op =>
      ∀ log, Vouched log t (.refresh rawToken) op := by
  apply refresh_issues_of cfg
  · exact fun _ => trivial
  · exact fun _ _ => trivial
  · exact fun _ _ _ => trivial
  · exact fun _ _ _ => trivial
  · intro record m newRefreshToken expiresAt hsign log
    exact ⟨sign_sub hsign, nofun⟩

end Programs

/-! ## Runs -/

/-- A call that returns tokens is a `refresh`, or a login for the user both
tokens name. -/
def VouchedPost (t : Nat) (request : AuthRequest)
    (result : Except AuthError AuthReply) (_ : Moment) (log : AuthLog) : Prop :=
  ∀ pair, result = .ok (.tokens pair) →
    (∃ rawToken, request = .refresh rawToken) ∨
    ∃ dto userId, request = .login dto ∧ Checked log t dto userId ∧
      pair.access_token.sub = some userId ∧
      pair.refresh_token.sub = some userId

/-- The requests that neither mail nor insert a record. -/
def AuthRequest.quiet : AuthRequest → Bool
  | .confirm _ => true
  | .resetPassword _ => true
  | .logout _ => true
  | .activate _ _ _ => true
  | _ => false

/-- The rule for a program whose reply holds no tokens. -/
theorem untokened_wp {cfg : AuthConfig} {P : AuthPolicy} {t : Nat}
    {request : AuthRequest} {amb : Moment} {log : AuthLog} {α : Type}
    {p : AuthProg α} {reply : α → AuthReply}
    (hp : vouching cfg P t request (fun _ _ _ => True) p amb log)
    (hreply : ∀ a pair, reply a ≠ .tokens pair) :
    vouching cfg P t request (VouchedPost t request)
      (p >>= fun a => .pure (reply a)) amb log := by
  apply wp_map hp
  · intro a _ _ _ pair heq
    exact absurd (Except.ok.inj heq) (hreply a pair)
  · rintro _ _ _ _ _ ⟨⟩

theorem vouched_wp (cfg : AuthConfig) (P : AuthPolicy) (t : Nat)
    (request : AuthRequest) (amb : Moment) (log : AuthLog)
    (hown : own t log = []) :
    vouching cfg P t request (VouchedPost t request) (serve cfg request) amb
      log := by
  have hquiet : request.quiet = true → ∀ {α : Type} {p : AuthProg α},
      p.Issues request.MayCall →
      vouching cfg P t request (fun _ _ _ => True) p amb log := by
    intro hrequest α p hp
    apply quiet_wp ?_ fun _ _ _ _ => trivial
    apply hp.mono
    intro op hop
    cases request <;> cases op <;>
      first | rfl | exact hop.elim | exact nomatch hrequest
  cases request with
  | register dto =>
      exact untokened_wp (register_vouches dto) fun _ _ => nofun
  | login dto =>
      apply wp_map (login_vouches hown)
      · rintro pair _ log' h _ ⟨⟩
        obtain ⟨userId, hrest⟩ := h pair rfl
        exact .inr ⟨dto, userId, rfl, hrest⟩
      · exact fun _ _ _ _ _ => nofun
  | confirm token =>
      exact untokened_wp (hquiet rfl (confirm_issues token)) fun _ _ => nofun
  | resendConfirmation email =>
      exact untokened_wp (resendConfirmation_vouches email) fun _ _ => nofun
  | refresh rawToken =>
      have hrefresh : vouching cfg P t (.refresh rawToken) (fun _ _ _ => True)
          (refresh cfg rawToken) amb log :=
        wpLaw_of_issues (vouched_kept_by cfg P) (fun _ _ _ => trivial)
          (refresh_vouches rawToken)
      apply wp_map hrefresh
      · exact fun _ _ _ _ _ _ => .inl ⟨rawToken, rfl⟩
      · exact fun _ _ _ _ _ => nofun
  | forgotPassword email =>
      exact untokened_wp (forgotPassword_vouches email) fun _ _ => nofun
  | resetPassword dto =>
      exact untokened_wp (hquiet rfl (resetPassword_issues dto)) fun _ _ => nofun
  | logout userId =>
      have hlogout : (logout userId).Issues
          (AuthRequest.logout userId).MayCall :=
        issues_now_bind fun moment => Prog.Issues.call (by exact rfl)
      exact untokened_wp (hquiet rfl hlogout) fun _ _ => nofun
  | activate isPublic isOptional authorization =>
      exact untokened_wp (hquiet rfl (canActivate_issues cfg isPublic
        isOptional authorization)) fun _ _ => nofun

/-- Every run obeys the law, and every call that has returned tokens is
accounted for. -/
theorem vouched_of_reachable {cfg : AuthConfig} {P : AuthPolicy} {s₀ : Store}
    {c : AuthRun} (h : Reachable (authSystem cfg) P s₀ c) :
    Obeyed Vouched c.log ∧ ∀ t th, c.threads[t]? = some th →
      ThreadSafe (authSystem cfg) P (Lawful (fun _ _ => True) Vouched)
        VouchedPost t th c.log := by
  have hlawful : Lawful (fun _ _ => True) Vouched c.state c.log ∧ ∀ t th,
      c.threads[t]? = some th → ThreadSafe (authSystem cfg) P
        (Lawful (fun _ _ => True) Vouched) VouchedPost t th c.log := by
    apply h.lawful_threads trivial
    intro c request amb hc _ _
    apply vouched_wp
    exact hc.own_arriving
  exact ⟨hlawful.1.2, hlawful.2⟩

end Videum.Auth
