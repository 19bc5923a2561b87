import Mathlib.Data.List.Find
import Mathlib.Data.Set.Insert
import Videum.Auth.Compensation

/-!
# The account book

What `AuthService` is for, without its tables: a book with one account for an
address, its password and whether the address is confirmed, and the tickets
that are out, each for one address and one purpose.  A request is an entry in
this book, and `Book.Step` says which entries there may be; what it leaves open
is what a ticket looks like and whether a mail arrives.

`Store.book` reads the book off the tables.

## Main results

* `Book.Step.kept` — an account stays, whatever is entered.
* `book_withUser`, `book_saveUser`, `book_insertToken`, `book_invalidate`,
  `book_useToken` — what a call does to the book.
-/

namespace Videum.Auth

open Videum.Async
open Videum.Common

/-! ## The book -/

structure Account where
  password : String
  confirmed : Bool

/-- A token that is out, for one purpose and one address. -/
structure Ticket where
  token : RawToken
  type : VerificationTokenType
  address : String
  expires_at : Int

@[ext] structure Book where
  accounts : String → Option Account
  tickets : Set Ticket

namespace Book

/-- A new account, and the ticket to confirm its address. -/
def opened (b : Book) (address password : String) (t : Ticket) : Book where
  accounts := Function.update b.accounts address (some ⟨password, false⟩)
  tickets := insert t b.tickets

/-- A new ticket in place of those of its kind. -/
def reissued (b : Book) (t : Ticket) : Book where
  accounts := b.accounts
  tickets := insert t
    { t' ∈ b.tickets | ¬ (t'.type = t.type ∧ t'.address = t.address) }

/-- The ticket is handed in, and its account changed. -/
def redeemed (b : Book) (t : Ticket) (change : Account → Account) : Book where
  accounts := Function.update b.accounts t.address
    ((b.accounts t.address).map change)
  tickets := b.tickets \ {t}

end Book

def Account.confirm (a : Account) : Account := { a with confirmed := true }

def Account.setPassword (password : String) (a : Account) : Account :=
  { a with password := password }

/-- The ticket is a new one, issued at time `now`. -/
structure Ticket.New (t : Ticket) (b : Book) (type : VerificationTokenType)
    (address : String) (now hours : Int) : Prop where
  type : t.type = type
  address : t.address = address
  expires_at : t.expires_at = now + hours * 60 * 60 * 1000
  unknown : ∀ t' ∈ b.tickets, t'.token ≠ t.token

/-- The ticket is out and names this token for this purpose. -/
structure Ticket.Names (t : Ticket) (b : Book) (token : RawToken)
    (type : VerificationTokenType) : Prop where
  out : t ∈ b.tickets
  token : t.token = token
  type : t.type = type

/-- The requests that have nothing to do with the book. -/
def AuthRequest.keepsSession : AuthRequest → Bool
  | .refresh _ => true
  | .logout _ => true
  | .activate _ _ _ => true
  | _ => false

/-- The durations of both web tokens can be read. -/
def AuthConfig.signs (cfg : AuthConfig) : Bool :=
  (cfg.ms cfg.jwtRefreshExpiration).isSome &&
    (cfg.ms cfg.jwtAccessExpiration).isSome

/-- What a request that ends with a mail returns; a user without a channel has
no name to write to. -/
def EndsWithMail (r : Except AuthError AuthReply) : Prop :=
  r = .ok .done ∨ r = .error .mail ∨ r = .error .typeError

/-- The entries of the book: at time `now` the request leaves `b'` in place
of `b`, with result `r`. -/
inductive Book.Step (cfg : AuthConfig) : AuthRequest → Int →
    Except AuthError AuthReply → Book → Book → Prop
  | taken {now : Int} {b : Book} {a : Account} {dto : RegisterDto}
      (haccount : b.accounts dto.email = some a) :
      Step cfg (.register dto) now (.error (.domain .EmailAlreadyExists)) b b
  /-- No channel can be named after the address. -/
  | unnamed {now : Int} {b : Book} {dto : RegisterDto}
      (haccount : b.accounts dto.email = none) :
      Step cfg (.register dto) now (.error .nicknameConflict) b b
  /-- The mail may fail. -/
  | opened {now : Int} {r : Except AuthError AuthReply} {b : Book} {t : Ticket}
      {dto : RegisterDto} (haccount : b.accounts dto.email = none)
      (hticket : t.New b .EMAIL_CONFIRMATION dto.email now
        cfg.confirmationTokenExpirationHours)
      (hreply : (∃ id, r = .ok (.registered id dto.email)) ∨
        r = .error .mail) :
      Step cfg (.register dto) now r b (b.opened dto.email dto.password t)
  | settled {now : Int} {b : Book} {email : String}
      (haccount : ∀ a, b.accounts email = some a → a.confirmed = true) :
      Step cfg (.resendConfirmation email) now (.ok .done) b b
  | resent {now : Int} {r : Except AuthError AuthReply} {b : Book} {t : Ticket}
      {a : Account} {email : String} (haccount : b.accounts email = some a)
      (hconfirmed : a.confirmed = false)
      (hticket : t.New b .EMAIL_CONFIRMATION email now
        cfg.confirmationTokenExpirationHours)
      (hreply : EndsWithMail r) :
      Step cfg (.resendConfirmation email) now r b (b.reissued t)
  | nobody {now : Int} {b : Book} {email : String}
      (haccount : b.accounts email = none) :
      Step cfg (.forgotPassword email) now (.ok .done) b b
  | forgotten {now : Int} {r : Except AuthError AuthReply} {b : Book}
      {t : Ticket} {a : Account} {email : String}
      (haccount : b.accounts email = some a)
      (hticket : t.New b .PASSWORD_RESET email now
        cfg.passwordResetTokenExpirationHours)
      (hreply : EndsWithMail r) :
      Step cfg (.forgotPassword email) now r b (b.reissued t)
  | unknown {now : Int} {b : Book} {request : AuthRequest} {token : RawToken}
      {type : VerificationTokenType}
      (hconsumes : request.consumes = some (token, type))
      (hnone : ∀ t, ¬ Ticket.Names t b token type) :
      Step cfg request now (.error (.domain .InvalidToken)) b b
  | expired {now : Int} {b : Book} {t : Ticket} {request : AuthRequest}
      {token : RawToken} {type : VerificationTokenType}
      (hconsumes : request.consumes = some (token, type))
      (hticket : t.Names b token type) (hnow : t.expires_at < now) :
      Step cfg request now (.error (.domain .TokenExpired)) b b
  | confirmed {now : Int} {b : Book} {t : Ticket} {token : RawToken}
      (hticket : t.Names b token .EMAIL_CONFIRMATION)
      (hnow : now ≤ t.expires_at) :
      Step cfg (.confirm token) now (.ok .done) b
        (b.redeemed t Account.confirm)
  | reset {now : Int} {b : Book} {t : Ticket} {dto : ResetPasswordDto}
      (hticket : t.Names b dto.token .PASSWORD_RESET)
      (hnow : now ≤ t.expires_at) :
      Step cfg (.resetPassword dto) now (.ok .done) b
        (b.redeemed t (Account.setPassword dto.new_password))
  | refused {now : Int} {b : Book} {dto : LoginDto}
      (haccount : ∀ a, b.accounts dto.email = some a →
        a.password ≠ dto.password) :
      Step cfg (.login dto) now (.error (.domain .InvalidCredentials)) b b
  | unconfirmed {now : Int} {b : Book} {a : Account} {dto : LoginDto}
      (haccount : b.accounts dto.email = some a)
      (hpassword : a.password = dto.password)
      (hconfirmed : a.confirmed = false) :
      Step cfg (.login dto) now (.error (.domain .EmailNotConfirmed)) b b
  | signedIn {now : Int} {r : Except AuthError AuthReply} {b : Book}
      {a : Account} {dto : LoginDto}
      (haccount : b.accounts dto.email = some a)
      (hpassword : a.password = dto.password)
      (hconfirmed : a.confirmed = true)
      (hsigned : cfg.signs = true → ∃ pair, r = .ok (.tokens pair))
      (hunsigned : cfg.signs = false → r = .error .jwt) :
      Step cfg (.login dto) now r b b
  | session {now : Int} {r : Except AuthError AuthReply} {b : Book}
      {request : AuthRequest} (hsession : request.keepsSession = true) :
      Step cfg request now r b b

/-- An account stays, whatever is entered. -/
theorem Book.Step.kept {cfg : AuthConfig} {request : AuthRequest} {now : Int}
    {r : Except AuthError AuthReply} {b b' : Book}
    (h : Book.Step cfg request now r b b') {address : String} {a : Account}
    (haccount : b.accounts address = some a) :
    ∃ a', b'.accounts address = some a' ∧
      (a.confirmed = true → a'.confirmed = true) ∧
      ((∀ dto, request = .resetPassword dto → r ≠ .ok .done) →
        a'.password = a.password) := by
  have hsame : ∃ a', b.accounts address = some a' ∧
      (a.confirmed = true → a'.confirmed = true) ∧
      ((∀ dto, request = .resetPassword dto → r ≠ .ok .done) →
        a'.password = a.password) := ⟨a, haccount, id, fun _ => rfl⟩
  cases h with
  | @opened _ _ _ t dto hnone _ _ =>
      have hne : address ≠ dto.email := by
        rintro rfl
        rw [haccount] at hnone
        cases hnone
      refine ⟨a, ?_, id, fun _ => rfl⟩
      show Function.update b.accounts dto.email _ address = some a
      rw [Function.update_of_ne hne]
      exact haccount
  | @confirmed _ _ t token _ _ =>
      by_cases haddress : address = t.address
      · subst haddress
        refine ⟨a.confirm, ?_, fun _ => rfl, fun _ => rfl⟩
        show Function.update b.accounts t.address _ t.address = some a.confirm
        rw [Function.update_self, haccount, Option.map_some]
      · refine ⟨a, ?_, id, fun _ => rfl⟩
        show Function.update b.accounts t.address _ address = some a
        rw [Function.update_of_ne haddress]
        exact haccount
  | @reset _ _ t dto _ _ =>
      by_cases haddress : address = t.address
      · subst haddress
        refine ⟨a.setPassword dto.new_password, ?_, id,
          fun hreset => absurd rfl (hreset dto rfl)⟩
        show Function.update b.accounts t.address _ t.address = some _
        rw [Function.update_self, haccount, Option.map_some]
      · refine ⟨a, ?_, id, fun _ => rfl⟩
        show Function.update b.accounts t.address _ address = some a
        rw [Function.update_of_ne haddress]
        exact haccount
  | _ => exact hsame

/-- A request that was served, when, and with what result. -/
structure Event where
  request : AuthRequest
  now : Int
  result : Except AuthError AuthReply

/-- One entry after the other. -/
inductive Book.Run (cfg : AuthConfig) (b : Book) : List Event → Book → Prop
  | nil : Run cfg b [] b
  | snoc {events : List Event} {b' b'' : Book} {e : Event}
      (h : Run cfg b events b')
      (hstep : Book.Step cfg e.request e.now e.result b' b'') :
      Run cfg b (events ++ [e]) b''

/-- An account stays over a run. -/
theorem Book.Run.kept {cfg : AuthConfig} {b b' : Book} {events : List Event}
    (h : Book.Run cfg b events b') {address : String} {a : Account}
    (haccount : b.accounts address = some a) :
    ∃ a', b'.accounts address = some a' ∧
      (a.confirmed = true → a'.confirmed = true) ∧
      ((∀ e ∈ events, ∀ dto, e.request = .resetPassword dto →
        e.result ≠ .ok .done) → a'.password = a.password) := by
  induction h with
  | nil => exact ⟨a, haccount, id, fun _ => rfl⟩
  | @snoc events b' b'' e _ hstep ih =>
      obtain ⟨a', haccount', hconfirmed, hpassword⟩ := ih
      obtain ⟨a'', haccount'', hconfirmed', hpassword'⟩ :=
        hstep.kept haccount'
      refine ⟨a'', haccount'', fun h => hconfirmed' (hconfirmed h), ?_⟩
      intro hnone
      rw [hpassword' (hnone e (List.mem_append_right _ (.head _)))]
      exact hpassword fun e' he' => hnone e' (List.mem_append_left _ he')

/-- When a login signs its user in. -/
theorem Book.Step.login_iff {cfg : AuthConfig} {dto : LoginDto} {now : Int}
    {r : Except AuthError AuthReply} {b b' : Book}
    (h : Book.Step cfg (.login dto) now r b b') :
    (∃ pair, r = .ok (.tokens pair)) ↔ ∃ a, b.accounts dto.email = some a ∧
      a.password = dto.password ∧ a.confirmed = true ∧ cfg.signs = true := by
  cases h with
  | refused haccount =>
      constructor
      · rintro ⟨_, ⟨⟩⟩
      · rintro ⟨a, ha, hpassword, _⟩
        exact absurd hpassword (haccount a ha)
  | @unconfirmed _ _ a _ haccount _ hconfirmed =>
      constructor
      · rintro ⟨_, ⟨⟩⟩
      · rintro ⟨a', ha', _, hconfirmed', _⟩
        rw [haccount] at ha'
        cases ha'
        rw [hconfirmed] at hconfirmed'
        cases hconfirmed'
  | @signedIn _ _ _ a _ haccount hpassword hconfirmed hsigned hunsigned =>
      constructor
      · rintro ⟨pair, rfl⟩
        refine ⟨a, haccount, hpassword, hconfirmed, ?_⟩
        by_contra hsigns
        rw [Bool.not_eq_true] at hsigns
        cases hunsigned hsigns
      · rintro ⟨_, _, _, _, hsigns⟩
        exact hsigned hsigns
  | unknown hconsumes _ => cases hconsumes
  | expired hconsumes _ _ => cases hconsumes
  | session hsession => cases hsession

/-! ## The book of the tables -/

def User.account (u : User) : Account := ⟨u.password.password, u.is_confirmed⟩

/-- The ticket a row stands for, when it is of the user. -/
def VerificationToken.ticket (r : VerificationToken) (u : User) : Ticket :=
  ⟨r.token_hash.raw, r.type, u.email, r.expires_at⟩

/-- The book the tables hold. -/
def Store.book (s : Store) : Book where
  accounts address := (s.userByEmail address).map User.account
  tickets := { t | ∃ r ∈ s.verification_tokens.rows, ∃ u ∈ s.users.rows,
    u.id = r.user_id ∧ r.used_at = none ∧ r.ticket u = t }

/-- The tables are in order: addresses, digests and the owners of channels are
unique, and whoever is referenced is there. -/
structure Sound (s : Store) : Prop where
  emails : s.users.Distinct User.email
  owners : s.channels.Distinct Channel.user_id
  hashes : s.verification_tokens.Distinct VerificationToken.token_hash
  keys : ForeignKeys s

section Book

variable {s s' : Store} {u : User} {address : String} {a : Account}

theorem Sound.userByEmail_iff (hs : s.users.Distinct User.email) :
    s.userByEmail address = some u ↔ u ∈ s.users.rows ∧ u.email = address := by
  constructor
  · intro h
    have hemail := List.find?_some h
    exact ⟨List.mem_of_find?_eq_some h, by simpa only [beq_iff_eq] using hemail⟩
  · rintro ⟨hu, rfl⟩
    apply find?_of_unique hu
    · exact beq_self_eq_true u.email
    · intro x hx hemail
      rw [beq_iff_eq] at hemail
      exact hs x hx u hu hemail

theorem userByEmail_eq_none_iff :
    s.userByEmail address = none ↔ ∀ u ∈ s.users.rows, u.email ≠ address := by
  unfold Store.userByEmail
  simp only [List.find?_eq_none, beq_iff_eq, ne_eq]

/-- An account is that of the row with the address. -/
theorem accounts_iff (hs : s.users.Distinct User.email) :
    s.book.accounts address = some a ↔
      ∃ u ∈ s.users.rows, u.email = address ∧ u.account = a := by
  show (s.userByEmail address).map User.account = some a ↔ _
  simp only [Option.map_eq_some_iff, Sound.userByEmail_iff hs, and_assoc]

/-- The book is in the rows of two tables. -/
theorem book_congr (husers : s'.users.rows = s.users.rows)
    (htokens : s'.verification_tokens.rows = s.verification_tokens.rows) :
    s'.book = s.book := by
  unfold Store.book Store.userByEmail
  rw [husers, htokens]

theorem mem_tickets {t : Ticket} :
    t ∈ s.book.tickets ↔ ∃ r ∈ s.verification_tokens.rows,
      ∃ u ∈ s.users.rows, u.id = r.user_id ∧ r.used_at = none ∧
        r.ticket u = t :=
  Iff.rfl

/-- A token that is found is a ticket that is out. -/
theorem names_of_found {token : RawToken} {type : VerificationTokenType}
    {r : VerificationToken} {user : UserEntity}
    (h : s.findVerificationToken (hashToken token) type = some (r, user)) :
    r ∈ s.verification_tokens.rows ∧ ∃ u ∈ s.users.rows, u.id = r.user_id ∧
      user = u.entity ∧ (r.ticket u).Names s.book token type := by
  obtain ⟨hr, hhash, htype, hunused, u, hfind, huser⟩ :=
    of_findVerificationToken h
  have hu := List.mem_of_find?_eq_some hfind
  have hid := List.find?_some hfind
  rw [beq_iff_eq] at hid
  refine ⟨hr, u, hu, hid, huser, ⟨⟨r, hr, u, hu, hid, hunused, rfl⟩, ?_, htype⟩⟩
  exact congrArg TokenHash.raw hhash

/-- A ticket that is out is found. -/
theorem not_names_of_unknown (hs : Sound s) {token : RawToken}
    {type : VerificationTokenType}
    (h : s.findVerificationToken (hashToken token) type = none) (t : Ticket) :
    ¬ t.Names s.book token type := by
  rintro ⟨⟨r, hr, u, hu, hid, hunused, rfl⟩, htoken, htype⟩
  have hhash : r.token_hash = hashToken token := congrArg TokenHash.mk htoken
  have hfind : (s.verification_tokens.rows.find? fun x =>
      x.token_hash == hashToken token && x.type == type && x.used_at.isNone)
        = some r := by
    apply find?_of_unique hr
    · rw [hhash, show r.type = type from htype, hunused, beq_self_eq_true,
        beq_self_eq_true]
      rfl
    · intro x hx hp
      simp only [Bool.and_eq_true, beq_iff_eq] at hp
      exact hs.hashes x hx r hr (hp.1.1.trans hhash.symm)
  obtain ⟨v, hv⟩ := Store.hasUser_iff.1 ⟨u, hu, hid⟩
  rw [Store.findVerificationToken, hfind, Option.bind_some, hv] at h
  cases h

/-- Accounts are told apart by their addresses, users by their keys. -/
theorem id_eq_iff {v : User} (hs : s.users.Distinct User.email)
    (hu : u ∈ s.users.rows) (hv : v ∈ s.users.rows) :
    u.id = v.id ↔ u.email = v.email := by
  constructor
  · intro h
    rw [s.users.unique hu hv h]
  · intro h
    rw [hs u hu v hv h]

end Book

/-! ## What the calls do to the book -/

section Calls

variable {s s' : Store} {u : User} {r : VerificationToken}
  {v : NewVerificationToken} {w : UserEntity}

/-- A user that is added opens an account. -/
theorem book_withUser (hkeys : ForeignKeys s) {email : String}
    (hfree : s.userByEmail email = none) (password : PasswordHash) :
    (s.withUser email password).book =
      { s.book with
        accounts := Function.update s.book.accounts email
          (some ⟨password.password, false⟩) } := by
  apply Book.ext
  · funext address
    show ((s.users.rows ++ [_]).find? fun x : User => x.email == address).map _ =
      Function.update s.book.accounts email
        (some ⟨password.password, false⟩) address
    rw [List.find?_append]
    by_cases haddress : address = email
    · subst haddress
      have hnone : (s.users.rows.find? fun x => x.email == address) = none :=
        hfree
      rw [hnone, Function.update_self, Option.none_or, List.find?_cons_of_pos]
      · rfl
      · exact beq_self_eq_true address
    · rw [Function.update_of_ne haddress, List.find?_cons_of_neg, List.find?_nil,
        Option.or_none]
      · rfl
      · rw [beq_iff_eq]
        exact fun h => haddress h.symm
  · ext t
    rw [mem_tickets, mem_tickets]
    constructor
    · rintro ⟨r, hr, u, hu, hid, hunused, rfl⟩
      rcases (Table.mem_insert (h := rfl)).1 hu with hu | rfl
      · exact ⟨r, hr, u, hu, hid, hunused, rfl⟩
      · obtain ⟨u, hu, hid'⟩ := hkeys _ (referenced_of_token hr)
        have hlt := s.users.keys_lt u hu
        have hnew : s.users.nextId = r.user_id := hid
        omega
    · rintro ⟨r, hr, u, hu, hid, hunused, rfl⟩
      exact ⟨r, hr, u, (Table.mem_insert (h := rfl)).2 (.inl hu), hid, hunused,
        rfl⟩

/-- A token that is inserted is a ticket that goes out. -/
theorem book_insertToken (hadded : TokenAdded v s s') (hu : u ∈ s.users.rows)
    (hid : u.id = v.user_id) :
    s'.book = { s.book with
      tickets := insert ((s.newVerificationToken v).ticket u)
        s.book.tickets } := by
  have husers : s'.users.rows = s.users.rows := by rw [hadded.users]
  apply Book.ext
  · funext address
    show (s'.users.rows.find? _).map _ = _
    rw [husers]
    rfl
  · ext t
    rw [Set.mem_insert_iff, mem_tickets, mem_tickets, hadded.verification_tokens,
      husers]
    constructor
    · rintro ⟨r, hr, u', hu', hid', hunused, rfl⟩
      rcases List.mem_append.1 hr with hr | hr
      · exact .inr ⟨r, hr, u', hu', hid', hunused, rfl⟩
      · have hnew := List.mem_singleton.1 hr
        subst hnew
        have heq := s.users.unique hu' hu (hid'.trans hid.symm)
        subst heq
        exact .inl rfl
    · rintro (rfl | ⟨r, hr, u', hu', hid', hunused, rfl⟩)
      · exact ⟨_, List.mem_append_right _ (.head _), u, hu, hid, rfl, rfl⟩
      · exact ⟨r, List.mem_append_left _ hr, u', hu', hid', hunused, rfl⟩

/-- The tickets of one kind are called in. -/
theorem book_invalidate (hs : s.users.Distinct User.email)
    (hu : u ∈ s.users.rows) (type : VerificationTokenType) (usedAt : Int) :
    (s.invalidateVerificationTokens u.id type usedAt).book =
      { s.book with
        tickets := { t ∈ s.book.tickets |
          ¬ (t.type = type ∧ t.address = u.email) } } := by
  apply Book.ext
  · rfl
  · ext t
    rw [Set.mem_ofPred_eq, mem_tickets, mem_tickets]
    constructor
    · rintro ⟨r', hr', u', hu', hid', hunused, rfl⟩
      obtain ⟨r, hr, rfl⟩ := List.mem_map.1 hr'
      by_cases hkind : r.user_id = u.id ∧ r.type = type
      · rw [if_pos hkind] at hunused
        cases hused : r.used_at <;>
          simp only [VerificationToken.use, hused] at hunused <;>
          cases hunused
      · rw [if_neg hkind] at hid' hunused ⊢
        refine ⟨⟨r, hr, u', hu', hid', hunused, rfl⟩, ?_⟩
        rintro ⟨htype, haddress⟩
        refine hkind ⟨?_, htype⟩
        rw [← hid']
        exact (id_eq_iff hs hu' hu).2 haddress
    · rintro ⟨⟨r, hr, u', hu', hid', hunused, rfl⟩, hkind⟩
      refine ⟨r, List.mem_map.2 ⟨r, hr, if_neg ?_⟩, u', hu', hid', hunused,
        rfl⟩
      rintro ⟨huser, htype⟩
      exact hkind ⟨htype, (id_eq_iff hs hu' hu).1 (hid'.trans huser)⟩

/-- A token that is marked used is a ticket that is handed in. -/
theorem book_useToken
    (hs : s.verification_tokens.Distinct VerificationToken.token_hash)
    (hr : r ∈ s.verification_tokens.rows) (hu : u ∈ s.users.rows)
    (hid : u.id = r.user_id) (usedAt : Int) :
    (s.saveVerificationToken { r with used_at := some usedAt }).book =
      { s.book with tickets := s.book.tickets \ {r.ticket u} } := by
  apply Book.ext
  · rfl
  · ext t
    rw [Set.mem_sdiff, Set.mem_singleton_iff, mem_tickets, mem_tickets]
    constructor
    · rintro ⟨r', hr', u', hu', hid', hunused, rfl⟩
      rcases Table.mem_save.1 hr' with ⟨hr', hne⟩ | ⟨rfl, _⟩
      · refine ⟨⟨r', hr', u', hu', hid', hunused, rfl⟩, ?_⟩
        intro heq
        have htoken : r'.token_hash.raw = r.token_hash.raw :=
          congrArg Ticket.token heq
        have hhash : r'.token_hash = r.token_hash := congrArg TokenHash.mk htoken
        exact hne (by rw [hs r' hr' r hr hhash])
      · cases hunused
    · rintro ⟨⟨r', hr', u', hu', hid', hunused, rfl⟩, hne⟩
      refine ⟨r', Table.mem_save.2 (.inl ⟨hr', ?_⟩), u', hu', hid', hunused, rfl⟩
      intro hsame
      have heq : r' = r := s.verification_tokens.unique hr' hr hsame
      subst heq
      have huser := s.users.unique hu' hu (hid'.trans hid.symm)
      subst huser
      exact hne rfl

theorem UserEntity.write_self (hid : w.id = u.id) :
    w.write u =
      ⟨u.id, w.email, w.password.getD u.password, w.is_confirmed⟩ := by
  unfold UserEntity.write
  rw [if_pos hid.symm]

/-- A user that is written back under its address changes its account. -/
theorem book_saveUser (hs : s.users.Distinct User.email)
    (hu : u ∈ s.users.rows) (hid : w.id = u.id) (hemail : w.email = u.email) :
    (s.saveUser w).book =
      { s.book with
        accounts := Function.update s.book.accounts u.email
          (some (w.write u).account) } := by
  have hsame : ∀ x ∈ s.users.rows, (w.write x).email = x.email := by
    intro x hx
    unfold UserEntity.write
    split
    · next heq =>
        have hxu := s.users.unique hx hu (heq.trans hid)
        rw [hxu, ← hemail]
    · rfl
  have hfun : ∀ address, ∀ x ∈ s.users.rows,
      ((fun x : User => x.email == address) ∘ w.write) x = (x.email == address) := by
    intro address x hx
    show ((w.write x).email == address) = _
    rw [hsame x hx]
  apply Book.ext
  · funext address
    show ((s.users.rows.map w.write).find? fun x => x.email == address).map _ =
      Function.update s.book.accounts u.email (some (w.write u).account) address
    rw [List.find?_map, List.find?_congr (hfun address)]
    by_cases haddress : address = u.email
    · subst haddress
      have hfind : s.users.rows.find? (fun x => x.email == u.email) = some u :=
        (Sound.userByEmail_iff hs).2 ⟨hu, rfl⟩
      rw [hfind, Function.update_self]
      rfl
    · rw [Function.update_of_ne haddress]
      show _ = (s.userByEmail address).map User.account
      cases hfind : s.userByEmail address with
      | none =>
          unfold Store.userByEmail at hfind
          rw [hfind]
          rfl
      | some x =>
          obtain ⟨hx, hxemail⟩ := (Sound.userByEmail_iff hs).1 hfind
          unfold Store.userByEmail at hfind
          have hne : x.id ≠ w.id := by
            rw [hid]
            intro h
            rw [s.users.unique hx hu h] at hxemail
            exact haddress hxemail.symm
          rw [hfind, Option.map_some, Option.map_some, Option.map_some,
            UserEntity.write, if_neg hne]
  · ext t
    rw [mem_tickets, mem_tickets]
    constructor
    · rintro ⟨r, hr, x', hx', hid', hunused, rfl⟩
      obtain ⟨x, hx, rfl⟩ := List.mem_map.1 hx'
      refine ⟨r, hr, x, hx, (w.write_id x).symm.trans hid', hunused, ?_⟩
      unfold VerificationToken.ticket
      rw [hsame x hx]
    · rintro ⟨r, hr, x, hx, hid', hunused, rfl⟩
      refine ⟨r, hr, w.write x, List.mem_map.2 ⟨x, hx, rfl⟩,
        (w.write_id x).trans hid', hunused, ?_⟩
      unfold VerificationToken.ticket
      rw [hsame x hx]

end Calls

end Videum.Auth
