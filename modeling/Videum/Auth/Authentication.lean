import Videum.Auth.Vouching

/-!
# Where an authenticated user comes from

The guard attaches the claims of a web token to a request.  This module
follows them back: to the login, or through any number of refreshes to the
login, that opened the session; from its lookup, which found the address
confirmed, to the `confirm` that wrote it so; and from the token that
`confirm` presented to the mail that carried it.

Nobody guesses a token (`Unguessed`) and nobody forges a web token
(`Unforged`).

## Main results

* `confirmations_of_reachable` — a confirmed address was confirmed by a call
  that presented a token mailed to it.
* `sessions_of_reachable` — a refresh-token record goes back to a login.
* `authentication_provenance` — so does every user the guard attaches.
-/

namespace Videum.Auth

open Videum.Async
open Videum.Common

/-! ## What nobody can do -/

/-- The token was generated in the run. -/
def Generated (log : AuthLog) (rawToken : RawToken) : Prop :=
  ∃ x ∈ log, ∃ v ∈ x.op.addedToken x.res, v.token_hash = hashToken rawToken

/-- The token was mailed to somebody. -/
def Mailed (log : AuthLog) (rawToken : RawToken) : Prop :=
  ∃ x ∈ log, ∃ mail ∈ x.op.sentMail x.res, mail.link.token = rawToken

instance (log : AuthLog) (rawToken : RawToken) :
    Decidable (Generated log rawToken) :=
  inferInstanceAs (Decidable (∃ x ∈ log, ∃ v ∈ x.op.addedToken x.res,
    v.token_hash = hashToken rawToken))

instance (log : AuthLog) (rawToken : RawToken) :
    Decidable (Mailed log rawToken) :=
  inferInstanceAs (Decidable (∃ x ∈ log, ∃ mail ∈ x.op.sentMail x.res,
    mail.link.token = rawToken))

/-- The token a `confirm` presents. -/
def AuthRequest.confirmation : AuthRequest → Option RawToken
  | .confirm token => some token
  | _ => none

/-- Random tokens are not guessed: who presents a generated one to `confirm`
has it from a mail. -/
abbrev Unguessed (log : AuthLog) : Prop :=
  Throughout (fun (w : AuthEntry) older =>
    ∀ rawToken ∈ w.request.confirmation,
      Generated older rawToken → Mailed older rawToken) log

/-- A call has returned the token to its client. -/
def HandedOut (threads : List AuthThread) (token : RawToken) : Prop :=
  ∃ th ∈ threads, ∃ pair, th.prog = .pure (.tokens pair) ∧
    (pair.access_token = token ∨ pair.refresh_token = token)

/-- Web tokens are not forged: who presents one that is signed with the
access secret was handed it. -/
def Unforged (cfg : AuthConfig) (threads : List AuthThread)
    (authorization : Option AuthHeader) : Prop :=
  ∀ j, authorization = some (.bearer (.jwt j)) → j.secret = cfg.jwtSecret →
    HandedOut threads (.jwt j)

/-! ## Provenance -/

/-- `w`, before which the log was `older`, is the lookup of a `confirm` that
presents an unused token of type `EMAIL_CONFIRMATION`, which was generated for
the user and mailed to the address. -/
def ConfirmedBy (w : AuthEntry) (older : AuthLog) (userId : Nat)
    (address : String) : Prop :=
  ∃ (rawToken : RawToken) (r : VerificationToken) (u : UserEntity),
    w.request = .confirm rawToken ∧
    w.op = .findVerificationToken (hashToken rawToken) .EMAIL_CONFIRMATION ∧
    w.op.foundToken w.res = some (r, u) ∧
    r ∈ w.before.verification_tokens.rows ∧ r.used_at = none ∧
    r.user_id = userId ∧
    ∃ (y : AuthEntry) (before : AuthLog) (mail : Mail),
      (y :: before) <:+ older ∧ y.op.sentMail y.res = some mail ∧
      mail.link.token = rawToken ∧ mail.to = address ∧
      ∃ z ∈ before, ∃ v, z.op.addedToken z.res = some v ∧
        v.token_hash = hashToken rawToken ∧ v.type = .EMAIL_CONFIRMATION ∧
        v.user_id = userId

/-- A `confirm` has presented a token mailed to the address. -/
def Confirmed (log : AuthLog) (userId : Nat) (address : String) : Prop :=
  ∃ w older, (w :: older) <:+ log ∧ ConfirmedBy w older userId address

/-- `x` and `y` are the lookup and the password check of a login: the lookup
has read the row of the user, confirmed, and the check has found the password
right for the hash of that row. -/
def LoggedInBy (x y : AuthEntry) (row : User) : Prop :=
  ∃ dto, x.request = .login dto ∧ y.tid = x.tid ∧
    x.op = .findUserByEmail dto.email ∧
    x.before.userByEmail dto.email = some row ∧ row.is_confirmed = true ∧
    y.op = .verifyPassword row.password dto.password ∧
    y.op.verified y.res = true

/-- A login of the user has succeeded, and before it a `confirm` that
presented a token mailed to the user's address. -/
def SignedIn (log : AuthLog) (userId : Nat) : Prop :=
  ∃ (x y : AuthEntry) (older mid : AuthLog) (row : User),
    (y :: mid) <:+ log ∧ (x :: older) <:+ mid ∧ LoggedInBy x y row ∧
    row.id = userId ∧ Confirmed older userId row.email

theorem Confirmed.mono {old new : AuthLog} {userId : Nat} {address : String}
    (h : Confirmed old userId address) (hs : old <:+ new) :
    Confirmed new userId address := by
  obtain ⟨w, older, hw, hby⟩ := h
  exact ⟨w, older, hw.trans hs, hby⟩

theorem SignedIn.mono {old new : AuthLog} {userId : Nat}
    (h : SignedIn old userId) (hs : old <:+ new) : SignedIn new userId := by
  obtain ⟨x, y, older, mid, row, hy, hrest⟩ := h
  exact ⟨x, y, older, mid, row, hy.trans hs, hrest⟩

theorem AuthOp.eq_of_sentMail {op : AuthOp} {res : Except AuthError op.Res}
    {mail : Mail} (h : op.sentMail res = some mail) : op = .sendMail mail := by
  cases op with
  | sendMail mail' =>
      cases res with
      | ok _ => exact congrArg _ (Option.some.inj h)
      | error e => exact nomatch h
  | _ => exact nomatch h

theorem of_verifyJwt {cfg : AuthConfig} {moment : Moment} {token : RawToken}
    {j : Jwt} (h : verifyJwt cfg moment token = some j) :
    token = .jwt j ∧ j.secret = cfg.jwtSecret := by
  cases token with
  | jwt j' =>
      simp only [verifyJwt] at h
      split at h
      · next hvalid =>
          cases h
          exact ⟨rfl, hvalid.1⟩
      · exact nomatch h
  | _ => exact nomatch h

/-- The guard's look at a token. -/
def bearerUser (cfg : AuthConfig) (isOptional : Bool) (moment : Moment)
    (token : RawToken) : AuthProg (Option Jwt) :=
  match verifyJwt cfg moment token with
  | some payload => Prog.pure (some payload)
  | none => if isOptional then Prog.pure none else Prog.throw .unauthorized

/-- What the guard attaches are the claims of the token presented, which is
signed with the access secret. -/
theorem of_activated {cfg : AuthConfig} {isPublic isOptional : Bool}
    {authorization : Option AuthHeader} {moment : Moment} {j : Jwt}
    (h : (serve cfg (.activate isPublic isOptional authorization)).resume moment
      = .pure (.activated (some j))) :
    authorization = some (.bearer (.jwt j)) ∧ j.secret = cfg.jwtSecret := by
  cases isPublic with
  | true => cases h
  | false =>
      cases authorization with
      | none => cases isOptional <;> cases h
      | some header =>
          cases header with
          | other text => cases isOptional <;> cases h
          | bearer token =>
              change Prog.resume moment
                (bearerUser cfg isOptional moment token >>= fun user =>
                  Prog.pure (AuthReply.activated user)) = _ at h
              unfold bearerUser at h
              cases hverify : verifyJwt cfg moment token with
              | none =>
                  rw [hverify] at h
                  cases isOptional <;> cases h
              | some payload =>
                  rw [hverify] at h
                  cases h
                  obtain ⟨rfl, hsecret⟩ := of_verifyJwt hverify
                  exact ⟨rfl, hsecret⟩

section Runs

variable {cfg : AuthConfig} {P : AuthPolicy} {s₀ : Store} {c : AuthRun}

theorem distinct_of_empty (hstart : s₀.verification_tokens.rows = []) :
    s₀.verification_tokens.Distinct VerificationToken.token_hash := by
  intro a ha
  rw [hstart] at ha
  exact nomatch ha

/-- A mail that carries the token of a row goes to the user of the row. -/
theorem mail_of_token (hstart : s₀.verification_tokens.rows = [])
    (h : Reachable (authSystem cfg) P s₀ c) {y : AuthEntry} {before : AuthLog}
    {mail : Mail} (hy : (y :: before) <:+ c.log)
    (hmail : y.op.sentMail y.res = some mail) {r : VerificationToken}
    (hr : r ∈ c.state.verification_tokens.rows)
    (hhash : r.token_hash = hashToken mail.link.token) {w : AuthEntry}
    (hw : w ∈ c.log) {u : UserEntity} (hu : w.op.seenUser w.res = some u)
    (huser : r.user_id = u.id) :
    mail.to = u.email ∧ ∃ z ∈ before, ∃ v, z.op.addedToken z.res = some v ∧
      v.token_hash = hashToken mail.link.token ∧ v.type = r.type ∧
      v.user_id = r.user_id := by
  have hdistinct := distinct_of_empty hstart
  have hlaw := (vouched_of_reachable h).1 y before hy
  rw [AuthOp.eq_of_sentMail hmail] at hlaw
  obtain ⟨z, hz, v, hv, hvhash, y', hy', user, hshown, hvuser, hto⟩ := hlaw
  have hzlog := (mem_own.1 hz).1
  have hbefore : ∀ a ∈ before, a ∈ c.log :=
    fun a ha => hy.subset (.tail _ ha)
  obtain ⟨r', hr', hissued⟩ := issued_of_reachable hdistinct h z
    (hbefore z hzlog) v hv
  have heq : r' = r := (tokens_of_reachable hdistinct h).1.1.hashes r' hr' r hr
    (hissued.token_hash.trans (hvhash.trans hhash.symm))
  subst heq
  have hagree := (addresses_of_reachable hdistinct h).agree y'
    (hbefore y' (mem_own.1 hy').1) w hw user u hshown hu
    (hvuser.symm.trans (hissued.user_id.symm.trans huser))
  exact ⟨hto.trans hagree, z, hzlog, v, hv, hvhash, hissued.type.symm,
    hissued.user_id.symm⟩

/-- A `confirm` that has read a token unused presents one mailed to the user
of the token. -/
theorem confirmed_of_read (hstart : s₀.verification_tokens.rows = [])
    (h : Reachable (authSystem cfg) P s₀ c) (hunguessed : Unguessed c.log)
    {w : AuthEntry} (hw : w ∈ c.log) {r : VerificationToken} {u : UserEntity}
    (hread : ReadUnused w r u) {rawToken : RawToken}
    (hrequest : w.request = .confirm rawToken) :
    Confirmed c.log u.id u.email := by
  have hdistinct := distinct_of_empty hstart
  obtain ⟨raw, hconsumes, hhash, hunused, hmem, huser⟩ :=
    readUnused_before hdistinct h hw hread
  rw [hrequest] at hconsumes
  obtain ⟨heq, htype⟩ := Prod.mk.inj (Option.some.inj hconsumes)
  subst heq
  obtain ⟨b, fault, k, hb, _, _, _, hentry, hs⟩ := h.entry_config hw
  have hbefore : w.before = b.state := by rw [hentry]; rfl
  rw [hbefore] at hmem
  obtain ⟨tokenHash, type, hop⟩ := AuthOp.eq_of_foundToken hread.found
  have hlookup : w.op = .findVerificationToken (hashToken rawToken)
      .EMAIL_CONFIRMATION := by
    have hlaw := (tokens_of_reachable hdistinct h).1.2 w b.log hs
    rw [hop] at hlaw
    obtain ⟨⟨raw, hconsumes, rfl⟩, _⟩ := hlaw
    rw [hrequest] at hconsumes
    cases hconsumes
    exact hop
  obtain ⟨z, hz, v, hv, hissued⟩ := origin_of_reachable hstart hb r hmem
  have hmailed : Mailed b.log rawToken := by
    apply (hunguessed.suffix hs).1 rawToken
    · rw [hrequest]
      rfl
    · exact ⟨z, hz, v, hv, hissued.token_hash.symm.trans hhash⟩
  obtain ⟨y, hy, mail, hmail, htoken⟩ := hmailed
  obtain ⟨before, hybefore⟩ := older_of_mem hy
  obtain ⟨r', hr', hlater⟩ := (tokens_of_reachable hdistinct h).1.1.known w hw r
    (AuthOp.knownToken_of_found hread.found)
  have hdigest : r'.token_hash = hashToken mail.link.token := by
    rw [hlater.token_hash, hhash, htoken]
  obtain ⟨hto, z', hz', v', hv', hvhash, hvtype, hvuser⟩ := mail_of_token hstart h
    (hybefore.trans ((List.suffix_cons w b.log).trans hs)) hmail hr' hdigest hw
    (AuthOp.seenUser_of_found hread.found) (hlater.user_id.trans huser.symm)
  refine ⟨w, b.log, hs, rawToken, r, u, hrequest, hlookup, hread.found, ?_,
    hunused, huser.symm, y, before, mail, hybefore, hmail, htoken, hto, z', hz',
    v', hv', ?_, ?_, ?_⟩
  · rw [hbefore]
    exact hmem
  · rw [hvhash, htoken]
  · rw [hvtype, hlater.type, ← htype]
  · rw [hvuser, hlater.user_id, huser]

/-- Who is confirmed, in the table or in a user a consumer has read, was
confirmed by a call that presented a token mailed to the address. -/
structure Confirmations (s : Store) (log : AuthLog) : Prop where
  rows : ∀ row ∈ s.users.rows, row.is_confirmed = true →
    Confirmed log row.id row.email
  read : ∀ x ∈ log, ∀ u, x.op.seenUser x.res = some u →
    u.is_confirmed = true → Confirmed log u.id u.email

/-- The user a consumer writes back confirmed has been confirmed, by it or
before it. -/
theorem confirmed_of_saved (hstart : s₀.verification_tokens.rows = [])
    (h : Reachable (authSystem cfg) P s₀ c) (hunguessed : Unguessed c.log)
    (hinv : Confirmations c.state c.log) {t : Nat} {request : AuthRequest}
    {w : UserEntity} (hlaw : Consuming c.log t request (.saveUser w))
    (hrequest : ∀ x ∈ own t c.log, x.request = request)
    (hconfirmed : w.is_confirmed = true) : Confirmed c.log w.id w.email := by
  obtain ⟨⟨x, hx, r, u, hread, hstores⟩, _⟩ := hlaw
  have hxlog := (mem_own.1 hx).1
  obtain ⟨hid, hemail⟩ := hstores.same
  rw [hid, hemail]
  cases request with
  | confirm token =>
      exact confirmed_of_read hstart h hunguessed hxlog hread (hrequest x hx)
  | resetPassword dto =>
      obtain ⟨hash, rfl⟩ := hstores
      exact hinv.read x hxlog u (AuthOp.seenUser_of_found hread.found)
        hconfirmed
  | _ => exact hstores.elim

theorem confirmations_of_reachable (husers : s₀.users.rows = [])
    (hstart : s₀.verification_tokens.rows = [])
    (h : Reachable (authSystem cfg) P s₀ c) (hunguessed : Unguessed c.log) :
    Confirmations c.state c.log := by
  have hdistinct := distinct_of_empty hstart
  revert hunguessed
  apply h.answers (fun s log => Unguessed log → Confirmations s log)
  · intro _
    constructor
    · intro row hrow
      rw [husers] at hrow
      exact nomatch hrow
    · exact fun x hx => nomatch hx
  · intro b b' t request m op fault hb hb' hinv _ hlog hunguessed
    have hs : b.log <:+ b'.log := by
      rw [hlog]
      exact List.suffix_cons _ _
    have hunguessed_b := hunguessed.suffix hs
    have hinv_b := hinv hunguessed_b
    have hconsuming : Consuming b.log t request op :=
      (tokens_of_reachable hdistinct hb').1.2.newest hlog
    have hrequest : ∀ x ∈ own t b.log, x.request = request :=
      hb'.logOwned.request_older ⟨[], hlog.symm⟩
    constructor
    · intro row' hrow' hconfirmed
      cases fault with
      | some e => exact (hinv_b.rows row' hrow' hconfirmed).mono hs
      | none =>
          have haddress : ∀ w, op = .saveUser w → ∀ row ∈ b.state.users.rows,
              row.id = w.id → row.email = w.email := by
            rintro w rfl
            exact (addresses_of_reachable hdistinct hb).saved hconsuming
          rcases users_origin haddress hrow' with
            ⟨row, hrow, hid, hemail, hfrom⟩ | ⟨_, _, _, _, _, hnot⟩
          · rw [hid, hemail]
            rcases hfrom hconfirmed with hold | ⟨w, rfl, hwid, hw⟩
            · exact (hinv_b.rows row hrow hold).mono hs
            · have hsaved := confirmed_of_saved hstart hb hunguessed_b hinv_b
                hconsuming hrequest hw
              rw [hwid, ← haddress w rfl row hrow hwid.symm] at hsaved
              exact hsaved.mono hs
          · rw [hnot] at hconfirmed
            exact nomatch hconfirmed
    · intro x hx u hu hconfirmed
      rw [hlog] at hx
      rcases List.mem_cons.1 hx with rfl | hx
      · cases fault with
        | some e =>
            have herror := AuthOp.seenUser_error op e
            exact nomatch herror.symm.trans hu
        | none =>
            rcases seenUser_exec hu with
              ⟨row, hrow, hid, hemail, heq⟩ | ⟨_, _, hnot⟩
            · rw [← heq] at hconfirmed
              rw [← hid, ← hemail]
              exact (hinv_b.rows row hrow hconfirmed).mono hs
            · rw [hnot] at hconfirmed
              exact nomatch hconfirmed
      · exact (hinv_b.read x hx u hu hconfirmed).mono hs

/-! ## Sessions -/

/-- A login that has checked the user has signed the user in. -/
theorem signedIn_of_checked (husers : s₀.users.rows = [])
    (hstart : s₀.verification_tokens.rows = [])
    (h : Reachable (authSystem cfg) P s₀ c) (hunguessed : Unguessed c.log)
    {t : Nat} {dto : LoginDto} {userId : Nat}
    (hchecked : Checked c.log t dto userId)
    (hrequest : ∀ x ∈ own t c.log, x.request = .login dto) :
    SignedIn c.log userId := by
  obtain ⟨x, y, user, hash, hmine, hop, hseen, hpassword, hconfirmed, rfl,
    hcheck, hverified⟩ := hchecked
  obtain ⟨mid, hmid, hown⟩ := of_suffix_own hmine
  have hx : [x] <:+ own t mid := ⟨[], hown.symm⟩
  obtain ⟨older, holder, _⟩ := of_suffix_own hx
  have hxs : (x :: older) <:+ c.log :=
    holder.trans ((List.suffix_cons y mid).trans hmid)
  have hxown : x ∈ own t c.log := hmine.subset (.tail _ (.head _))
  have hyown : y ∈ own t c.log := hmine.subset (.head _)
  have hxlog := (mem_own.1 hxown).1
  have hfound : (x.before.userByEmail dto.email).map User.entityWithPassword
      = some user := by
    have hok : x.res.isOk = true := by
      cases hres : x.res with
      | ok v => rfl
      | error e =>
          rw [hres, AuthOp.seenUser_error] at hseen
          exact nomatch hseen
    rw [(h.entry_exec_of_ok hxlog hok).1] at hseen
    revert hseen
    rw [hop]
    exact fun hseen => hseen
  obtain ⟨row, hrow, rfl⟩ := Option.map_eq_some_iff.1 hfound
  cases hpassword
  obtain ⟨b, fault, k, hb, rfl, hat, _⟩ := h.split_at hxs
  have hbefore : x.before = b.state := hat.before_eq
  have hconf := (confirmations_of_reachable husers hstart hb
    (hunguessed.suffix ((List.suffix_cons x b.log).trans hxs))).rows row ?_
      hconfirmed
  · refine ⟨x, y, b.log, mid, row, hmid, holder, ?_, rfl, hconf⟩
    exact ⟨dto, hrequest x hxown,
      (mem_own.1 hyown).2.trans (mem_own.1 hxown).2.symm, hop, hrow,
      hconfirmed, hcheck, hverified⟩
  · rw [← hbefore]
    exact List.mem_of_find?_eq_some hrow

/-- The token of a record names the owner of the record, who is signed in. -/
def Sessions (s : Store) (log : AuthLog) : Prop :=
  ∀ r ∈ s.refresh_tokens.rows, r.token_hash.raw.sub = some r.user_id ∧
    SignedIn log r.user_id

theorem sessions_of_reachable (husers : s₀.users.rows = [])
    (hstart : s₀.verification_tokens.rows = [])
    (hrecords : s₀.refresh_tokens.rows = [])
    (h : Reachable (authSystem cfg) P s₀ c) (hunguessed : Unguessed c.log) :
    Sessions c.state c.log := by
  revert hunguessed
  apply h.answers (fun s log => Unguessed log → Sessions s log)
  · intro _ r hr
    rw [hrecords] at hr
    exact nomatch hr
  · intro b b' t request m op fault hb hb' hinv _ hlog hunguessed r' hr'
    have hs : b.log <:+ b'.log := by
      rw [hlog]
      exact List.suffix_cons _ _
    have hunguessed_b := hunguessed.suffix hs
    have hold : ∀ r ∈ b.state.refresh_tokens.rows, r.Later r' →
        r'.token_hash.raw.sub = some r'.user_id ∧
          SignedIn b'.log r'.user_id := by
      intro r hr hlater
      rw [hlater.token_hash, hlater.user_id]
      exact ⟨(hinv hunguessed_b r hr).1, (hinv hunguessed_b r hr).2.mono hs⟩
    cases fault with
    | some e => exact hold r' hr' (.refl r')
    | none =>
        have hinv_records := (records_of_reachable hrecords hb).1.1
        have horderly : Orderly b.log t request op :=
          (records_of_reachable hrecords hb').1.2.newest hlog
        rcases records_exec (horderly.ages hinv_records) hr' with
          ⟨r, hr, hlater⟩ | ⟨n, hn, hnew⟩
        · exact hold r hr hlater
        · have hop := AuthOp.eq_of_added hn
          subst hop
          have hvouched : Vouched b.log t request (.insertRefreshToken n) :=
            (vouched_of_reachable hb').1.newest hlog
          have hrequest : ∀ x ∈ own t b.log, x.request = request :=
            hb'.logOwned.request_older ⟨[], hlog.symm⟩
          rw [hnew]
          refine ⟨hvouched.1, ?_⟩
          show SignedIn b'.log n.user_id
          apply SignedIn.mono ?_ hs
          obtain ⟨_, ⟨dto, rfl⟩ | ⟨_, ⟨w, hw, r, hread, _, huser⟩, _⟩⟩ :=
            horderly
          · exact signedIn_of_checked husers hstart hb hunguessed_b
              (hvouched.2 dto rfl) hrequest
          · obtain ⟨r₁, hr₁, hlater⟩ := hinv_records.known w (mem_own.1 hw).1 r
              (AuthOp.knownRecord_of_found hread.found)
            rw [huser, ← hlater.user_id]
            exact (hinv hunguessed_b r₁ hr₁).2

/-- A token that was handed out names a user who is signed in. -/
theorem signedIn_of_handedOut (husers : s₀.users.rows = [])
    (hstart : s₀.verification_tokens.rows = [])
    (hrecords : s₀.refresh_tokens.rows = [])
    (h : Reachable (authSystem cfg) P s₀ c) (hunguessed : Unguessed c.log)
    {j : Jwt} (hhanded : HandedOut c.threads (.jwt j)) :
    SignedIn c.log j.claims.sub := by
  obtain ⟨th, hth, pair, hreply, htoken⟩ := hhanded
  obtain ⟨t, ht⟩ := List.getElem?_of_mem hth
  have hsub : ∀ userId, pair.access_token.sub = some userId →
      pair.refresh_token.sub = some userId → j.claims.sub = userId := by
    intro userId haccess hrefresh
    rcases htoken with heq | heq
    · rw [heq] at haccess
      exact Option.some.inj haccess
    · rw [heq] at hrefresh
      exact Option.some.inj hrefresh
  obtain ⟨_, mine, hothers, hpost⟩ :=
    ((vouched_of_reachable h).2 t th ht).returned hreply
  have hrequest : ∀ x ∈ own t c.log, x.request = th.request := by
    intro x hx
    obtain ⟨hxlog, rfl⟩ := mem_own.1 hx
    exact h.logOwned.request_of_thread hxlog ht
  rcases hpost pair rfl with ⟨rawToken, hrefresh⟩ | ⟨dto, userId, hlogin,
    hchecked, haccess, hrefresh⟩
  · obtain ⟨_, mine', hothers', hpost'⟩ :=
      ((records_of_reachable hrecords h).2 t th ht).returned hreply
    obtain ⟨_, haccepted⟩ := hpost' rawToken hrefresh
    obtain ⟨pair', heq, x, hx, r, hop, hfound, haccess, hkind⟩ :=
      haccepted _ rfl
    cases heq
    have hxlog := hothers'.mem (mem_own.1 hx).1
    obtain ⟨r', hr', hlater⟩ := (records_of_reachable hrecords h).1.1.known x
      hxlog r (AuthOp.knownRecord_of_found hfound)
    obtain ⟨hraw, hsigned⟩ := sessions_of_reachable husers hstart hrecords h
      hunguessed r' hr'
    rw [hlater.user_id] at hraw hsigned
    have hrefresh' : pair.refresh_token.sub = some r.user_id := by
      rcases hkind with ⟨_, hsame⟩ | ⟨hsame, _⟩
      · exact hsame
      · obtain ⟨_, hdigest⟩ := found_before h hxlog hfound hop
        rw [hlater.token_hash, hdigest] at hraw
        rw [hsame]
        exact hraw
    rw [hsub r.user_id haccess hrefresh']
    exact hsigned
  · rw [hsub userId haccess hrefresh]
    apply signedIn_of_checked husers hstart h hunguessed (t := t)
    · exact hchecked.mono ⟨[], hothers.own_eq.symm⟩
    · rw [← hlogin]
      exact hrequest

/--
**Where an authenticated user comes from.**  Over every interleaving of all
requests, from empty tables and whatever fails, where nobody guesses a token
or forges a web token: when the guard attaches claims to a request, a login of
the user they name has read the user's row, confirmed, and found the password
right for the hash of that row; and before that a `confirm` has presented an
unused token of type `EMAIL_CONFIRMATION` that was generated for the user and
mailed to the user's address.
-/
theorem authentication_provenance (husers : s₀.users.rows = [])
    (hstart : s₀.verification_tokens.rows = [])
    (hrecords : s₀.refresh_tokens.rows = [])
    (h : Reachable (authSystem cfg) anyRun s₀ c)
    (hunguessed : Unguessed c.log) {isPublic isOptional : Bool}
    {authorization : Option AuthHeader}
    (hunforged : Unforged cfg c.threads authorization) {moment : Moment}
    {j : Jwt} (hattached : (serve cfg (.activate isPublic isOptional
      authorization)).resume moment = .pure (.activated (some j))) :
    SignedIn c.log j.claims.sub := by
  obtain ⟨hheader, hsecret⟩ := of_activated hattached
  exact signedIn_of_handedOut husers hstart hrecords h hunguessed
    (hunforged j hheader hsecret)

end Runs

/-- A user registers, confirms the address with the token from the mail, and
signs in. -/
def signedInOnce : AuthRun :=
  authRun anyRun {}
    (Tick.serve sampleRegister 0 7 { bytes := 7 } ++
      Tick.serve (.confirm (.hex 7)) 1 3 { now := 1000 } ++
      Tick.serve sampleLogin 2 3 { now := 2000, family := 1, jti := 1 })
    (by decide)

/-- The access token of the login. -/
def sampleAccessToken : Jwt :=
  ⟨"secret", .access 0 sampleEmail, 2, 902⟩

theorem authentication_provenance_of_signedInOnce :
    SignedIn signedInOnce.log 0 := by
  have hreach : Reachable (authSystem sampleConfig) anyRun {} signedInOnce :=
    reachable_authRun _ (by decide)
      (admitted_of_accepts (fun _ _ => trivial) _ _)
  have hunforged : Unforged sampleConfig signedInOnce.threads
      (some (.bearer (.jwt sampleAccessToken))) := by
    rintro j ⟨⟩ _
    exact ⟨⟨sampleLogin, .pure (.tokens
      ⟨.jwt sampleAccessToken, sampleToken 1 1 2000⟩)⟩,
      .tail _ (.tail _ (.head _)), _, rfl, .inl rfl⟩
  have hattached : (serve sampleConfig (.activate false false
      (some (.bearer (.jwt sampleAccessToken))))).resume { now := 3000 } =
        .pure (.activated (some sampleAccessToken)) := by rfl
  exact authentication_provenance rfl rfl rfl hreach (by decide) hunforged
    hattached

end Videum.Auth
