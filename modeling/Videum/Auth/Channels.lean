import Videum.Auth.Registration
import Videum.Auth.Vouching

/-!
# Every user has a channel

A user and its channel are added in two transactions, and a user whose
channel fails is deleted again.  In between the user is there for everybody.
A token issued to it makes the delete fail, and the user stays without a
channel.  This module says that nothing else goes wrong.

## Main results

* `owned_of_reachable` — every channel has a user, and no user has two.
* `housing_of_reachable` — who is referenced has a channel or a verification
  token.
* `channelled_of_reachable` — when no user is deleted that has got a token,
  every user has exactly one channel as soon as no `register` is in flight.
* `channel_missing` — a user that is left without a channel.
-/

namespace Videum.Auth

open Videum.Async
open Videum.Common

/-! ## Statements -/

/-- The calls that add a channel. -/
def AuthOp.createsChannel : AuthOp → Bool
  | .findChannelByNickname _ _ => true
  | .insertChannel _ _ _ => true
  | _ => false

/-- Any request at any time.  The transaction that adds a channel may fail,
and so may the mailer and argon2; the database is otherwise available. -/
def channelMayFail : AuthPolicy where
  accepts _ _ := True
  fault op _ :=
    match op with
    | .findChannelByNickname _ _ => true
    | .insertChannel _ _ _ => true
    | .hashPassword _ => true
    | .verifyPassword _ _ => true
    | .sendMail _ => true
    | _ => false

/-- Each user has exactly one channel, and each channel a user. -/
structure Channelled (s : Store) : Prop where
  users : ∀ u ∈ s.users.rows, ∃! ch, ch ∈ s.channels.rows ∧ ch.user_id = u.id
  channels : ∀ ch ∈ s.channels.rows, s.hasUser ch.user_id

/-- The user has a channel. -/
def Store.hasChannel (s : Store) (id : Nat) : Prop :=
  ∃ ch ∈ s.channels.rows, ch.user_id = id

instance (s : Store) (id : Nat) : Decidable (s.hasChannel id) :=
  inferInstanceAs (Decidable (∃ ch ∈ s.channels.rows, ch.user_id = id))

/-- The user has a verification token. -/
def Store.hasToken (s : Store) (id : Nat) : Prop :=
  ∃ r ∈ s.verification_tokens.rows, r.user_id = id

instance (s : Store) (id : Nat) : Decidable (s.hasToken id) :=
  inferInstanceAs (Decidable (∃ r ∈ s.verification_tokens.rows,
    r.user_id = id))

/-- The user a call is to delete. -/
def AuthOp.deletedUser : AuthOp → Option Nat
  | .deleteUser id => some id
  | _ => none

/-- No user that is to be deleted has got a verification token. -/
abbrev DeletedInTime (log : AuthLog) : Prop :=
  Throughout (fun (x : AuthEntry) _ => ∀ id ∈ x.op.deletedUser,
    ¬ x.before.hasToken id) log

/-! ## What one call does to the channels -/

theorem channels_exec (m : Moment) {op : AuthOp} (s : Store)
    (h : op.createsChannel = false) :
    (Store.exec m op s).2.channels = s.channels := by
  cases op with
  | findChannelByNickname aborted nickname => exact nomatch h
  | insertChannel name nickname userId => exact nomatch h
  | insertUser email password =>
      rw [Store.exec, Store.insertUser_only]
  | deleteUser id => rw [Store.exec, Store.deleteUser_only]
  | insertVerificationToken v =>
      rw [Store.exec, Store.insertVerificationToken_only]
  | insertRefreshToken r =>
      rw [Store.exec, Store.insertRefreshToken_only]
  | _ => rfl

/-- Channels stay, and a new one is added for a user who is there and has
none. -/
theorem mem_channels_exec {m : Moment} {op : AuthOp} {s : Store} :
    (∀ ch ∈ s.channels.rows, ch ∈ (Store.exec m op s).2.channels.rows) ∧
    ∀ ch ∈ (Store.exec m op s).2.channels.rows, ch ∈ s.channels.rows ∨
      s.hasUser ch.user_id ∧ ¬ s.hasChannel ch.user_id ∧
        op.insertedChannel (Store.exec m op s).1 = some ch := by
  have hkept : ∀ s' : Store, s'.channels = s.channels →
      (∀ ch ∈ s.channels.rows, ch ∈ s'.channels.rows) ∧
      ∀ ch ∈ s'.channels.rows, ch ∈ s.channels.rows ∨
        s.hasUser ch.user_id ∧ ¬ s.hasChannel ch.user_id ∧
          op.insertedChannel (Store.exec m op s).1 = some ch := by
    intro s' heq
    rw [heq]
    exact ⟨fun ch hch => hch, fun ch hch => .inl hch⟩
  cases op with
  | insertChannel name nickname userId =>
      show (∀ ch ∈ s.channels.rows,
        ch ∈ (s.insertChannel name nickname userId).2.channels.rows) ∧
        ∀ ch ∈ (s.insertChannel name nickname userId).2.channels.rows,
          ch ∈ s.channels.rows ∨ s.hasUser ch.user_id ∧
            ¬ s.hasChannel ch.user_id ∧
            (AuthOp.insertChannel name nickname userId).insertedChannel
              (s.insertChannel name nickname userId).1 = some ch
      rcases insertChannel_cases s name nickname userId with
        ⟨e, heq⟩ | ⟨huser, hfree, heq⟩
      · rw [heq]
        exact ⟨fun ch hch => hch, fun ch hch => .inl hch⟩
      · rw [heq]
        refine ⟨fun ch hch => (Table.mem_insert (h := rfl)).2 (.inl hch), ?_⟩
        intro ch hch
        rcases (Table.mem_insert (h := rfl)).1 hch with hch | rfl
        · exact .inl hch
        · refine .inr ⟨huser, ?_, rfl⟩
          rintro ⟨ch, hch, hid⟩
          exact hfree ch hch hid
  | findChannelByNickname aborted nickname => exact hkept _ rfl
  | _ => exact hkept _ (channels_exec m s (by rfl))

theorem hasChannel_exec {m : Moment} {op : AuthOp} {s : Store} {id : Nat}
    (h : s.hasChannel id) : (Store.exec m op s).2.hasChannel id := by
  obtain ⟨ch, hch, hid⟩ := h
  exact ⟨ch, mem_channels_exec.1 ch hch, hid⟩

theorem mem_of_insertedChannel {m : Moment} {op : AuthOp} {s : Store}
    {ch : Channel}
    (h : op.insertedChannel (Store.exec m op s).1 = some ch) :
    ch ∈ (Store.exec m op s).2.channels.rows := by
  cases op with
  | insertChannel name nickname userId =>
      change (AuthOp.insertChannel name nickname userId).insertedChannel
        (s.insertChannel name nickname userId).1 = some ch at h
      show ch ∈ (s.insertChannel name nickname userId).2.channels.rows
      rcases insertChannel_cases s name nickname userId with
        ⟨e, heq⟩ | ⟨_, _, heq⟩
      · rw [heq] at h
        exact nomatch h
      · rw [heq] at h ⊢
        cases h
        exact (Table.mem_insert (h := rfl)).2 (.inr rfl)
  | _ => exact nomatch h

theorem referenced_of_channel {s : Store} {id : Nat} (h : s.hasChannel id) :
    s.referenced id = true := by
  obtain ⟨ch, hch, rfl⟩ := h
  have hany : s.channels.rows.any (·.user_id == ch.user_id) = true :=
    List.any_eq_true.2 ⟨ch, hch, beq_self_eq_true ch.user_id⟩
  unfold Store.referenced
  rw [hany, Bool.true_or, Bool.true_or]

/-- Each channel has a user, and no user has two. -/
structure Owned (s : Store) : Prop where
  owners : ∀ ch ∈ s.channels.rows, s.hasUser ch.user_id
  distinct : s.channels.Distinct Channel.user_id

theorem Owned.exec {m : Moment} {op : AuthOp} {s : Store} (h : Owned s) :
    Owned (Store.exec m op s).2 := by
  constructor
  · intro ch hch
    rcases mem_channels_exec.2 ch hch with hold | ⟨huser, _, hinserted⟩
    · exact hasUser_exec (h.owners ch hold)
        (referenced_of_channel ⟨ch, hold, rfl⟩)
    · have hwrites : op.writesUsers = false := by
        cases op with
        | insertChannel name nickname userId => rfl
        | _ => cases hinserted
      unfold Store.hasUser
      rw [users_exec m s hwrites]
      exact huser
  · intro a ha b hb heq
    rcases mem_channels_exec.2 a ha with holda | ⟨_, hfreea, hina⟩
    · rcases mem_channels_exec.2 b hb with holdb | ⟨_, hfreeb, _⟩
      · exact h.distinct a holda b holdb heq
      · exact absurd ⟨a, holda, heq⟩ hfreeb
    · rcases mem_channels_exec.2 b hb with holdb | ⟨_, _, hinb⟩
      · exact absurd ⟨b, holdb, heq.symm⟩ hfreea
      · exact Option.some.inj (hina.symm.trans hinb)

/-! ## Who is referenced has a channel or a token -/

/-- The user has a channel or a verification token. -/
def Backed (s : Store) (id : Nat) : Prop := s.hasChannel id ∨ s.hasToken id

theorem Backed.exec {m : Moment} {op : AuthOp} {s : Store} {id : Nat}
    (h : Backed s id) (hages : op.AgesTokens s) :
    Backed (Store.exec m op s).2 id := by
  rcases h with hchannel | ⟨r, hr, rfl⟩
  · exact .inl (hasChannel_exec hchannel)
  · obtain ⟨r', hr', hlater⟩ := (tokens_exec m op hages).kept r hr
    exact .inr ⟨r', hr', hlater.user_id⟩

/-- Whoever has a session, or could get one, has a channel or a token. -/
structure Housing (s : Store) (log : AuthLog) : Prop where
  records : ∀ r ∈ s.refresh_tokens.rows, Backed s r.user_id
  confirmed : ∀ u ∈ s.users.rows, u.is_confirmed = true → Backed s u.id
  seen : ∀ x ∈ log, ∀ u, x.op.seenUser x.res = some u →
    u.is_confirmed = true → Backed s u.id

theorem Housing.backed {s : Store} {log : AuthLog} (h : Housing s log)
    {id : Nat} (href : s.referenced id = true) : Backed s id := by
  unfold Store.referenced at href
  rw [Bool.or_eq_true, Bool.or_eq_true] at href
  rcases href with (hany | hany) | hany
  · obtain ⟨ch, hch, hid⟩ := List.any_eq_true.1 hany
    exact .inl ⟨ch, hch, beq_iff_eq.1 hid⟩
  · obtain ⟨r, hr, hid⟩ := List.any_eq_true.1 hany
    exact .inr ⟨r, hr, beq_iff_eq.1 hid⟩
  · obtain ⟨r, hr, hid⟩ := List.any_eq_true.1 hany
    rw [← beq_iff_eq.1 hid]
    exact h.records r hr

section Runs

variable {cfg : AuthConfig} {P : AuthPolicy} {s₀ : Store} {b c : AuthRun}
  {t : Nat} {request : AuthRequest} {op : AuthOp}

theorem owned_of_reachable (hstart : Owned s₀)
    (h : Reachable (authSystem cfg) P s₀ c) : Owned c.state :=
  h.state_inv hstart fun _ _ _ _ _ hinv => hinv.exec

/-- A new record belongs to a user with a channel or a token. -/
theorem backed_of_added (hrecords : s₀.refresh_tokens.rows = [])
    (h : Reachable (authSystem cfg) P s₀ b) (hinv : Housing b.state b.log)
    {n : NewRefreshToken} (horderly : Orderly b.log t request
      (.insertRefreshToken n))
    (hvouched : Vouched b.log t request (.insertRefreshToken n)) :
    Backed b.state n.user_id := by
  obtain ⟨_, ⟨dto, rfl⟩ | ⟨_, ⟨w, hw, r, hread, _, huser⟩, _⟩⟩ := horderly
  · obtain ⟨x, _, user, _, hmine, _, hseen, _, hconfirmed, hid, _⟩ :=
      hvouched.2 dto rfl
    have hx : x ∈ own t b.log := hmine.subset (.tail _ (.head _))
    rw [← hid]
    exact hinv.seen x (mem_own.1 hx).1 user hseen hconfirmed
  · obtain ⟨r', hr', hlater⟩ := (records_of_reachable hrecords h).1.1.known w
      (mem_own.1 hw).1 r (AuthOp.knownRecord_of_found hread.found)
    rw [huser, ← hlater.user_id]
    exact hinv.records r' hr'

theorem Housing.exec
    (hstart : s₀.verification_tokens.Distinct VerificationToken.token_hash)
    (hrecords : s₀.refresh_tokens.rows = [])
    (h : Reachable (authSystem cfg) P s₀ b) (hinv : Housing b.state b.log)
    (m : Moment) (hconsuming : Consuming b.log t request op)
    (horderly : Orderly b.log t request op)
    (hvouched : Vouched b.log t request op) :
    Housing (Store.exec m op b.state).2
      ((authSystem cfg).entry t request m op none b.state :: b.log) := by
  have hages := hconsuming.ages (tokens_of_reachable hstart h).1.1
  refine ⟨?_, ?_, ?_⟩
  · intro r' hr'
    have hrecord := horderly.ages (records_of_reachable hrecords h).1.1
    rcases records_exec hrecord hr' with ⟨r, hr, hlater⟩ | ⟨n, hn, hnew⟩
    · rw [hlater.user_id]
      exact (hinv.records r hr).exec hages
    · have hop := AuthOp.eq_of_added hn
      subst hop
      rw [hnew]
      exact (backed_of_added hrecords h hinv horderly hvouched).exec hages
  · intro u hu hflag
    have hcases := confirmed_exec (by
        rintro w rfl
        exact (addresses_of_reachable hstart h).saved hconsuming) (by
        rintro w rfl
        exact token_of_lawful hstart h hconsuming) hu hflag
    rcases hcases with ⟨u₀, hu₀, hid, hflag₀⟩ | htoken
    · rw [← hid]
      exact (hinv.confirmed u₀ hu₀ hflag₀).exec hages
    · exact Backed.exec (.inr htoken) hages
  · intro x hx u hu hflag
    rcases List.mem_cons.1 hx with rfl | hx
    · rcases seenUser_exec hu with ⟨row, hrow, hid, _, heq⟩ | ⟨_, _, hnot⟩
      · rw [← hid]
        exact (hinv.confirmed row hrow (heq.trans hflag)).exec hages
      · rw [hnot] at hflag
        cases hflag
    · exact (hinv.seen x hx u hu hflag).exec hages

theorem housing_of_reachable (hchannels : Channelled s₀)
    (hstart : s₀.verification_tokens.Distinct VerificationToken.token_hash)
    (hrecords : s₀.refresh_tokens.rows = [])
    (h : Reachable (authSystem cfg) P s₀ c) : Housing c.state c.log := by
  apply h.answers Housing
  · constructor
    · intro r hr
      rw [hrecords] at hr
      exact nomatch hr
    · intro u hu _
      obtain ⟨ch, ⟨hch, hid⟩, _⟩ := hchannels.users u hu
      exact .inl ⟨ch, hch, hid⟩
    · exact fun x hx => nomatch hx
  · intro b b' t request m op fault hb hb' hinv _ hlog
    rw [hlog]
    cases fault with
    | some e =>
        refine ⟨hinv.records, hinv.confirmed, ?_⟩
        intro x hx u hu hflag
        rcases List.mem_cons.1 hx with rfl | hx
        · have herror := AuthOp.seenUser_error op e
          exact nomatch herror.symm.trans hu
        · exact hinv.seen x hx u hu hflag
    | none =>
        apply hinv.exec hstart hrecords hb
        · exact (tokens_of_reachable hstart hb').1.2.newest hlog
        · exact (records_of_reachable hrecords hb').1.2.newest hlog
        · exact (vouched_of_reachable hb').1.newest hlog

/-! ## Registrations -/

theorem hasChannel_steps (hs : Steps (authSystem cfg) P b c) {id : Nat}
    (h : b.state.hasChannel id) : c.state.hasChannel id := by
  induction hs with
  | refl => exact h
  | tail _ hstep ih =>
      cases hstep with
      | spawn request amb _ => exact ih
      | perform amb fault _ _ _ =>
          cases fault with
          | some e => exact ih
          | none => exact hasChannel_exec ih

/-- Where the users come from, and what a `register` has done about them. -/
structure Accounted (s : Store) (log : AuthLog) : Prop where
  users : ∀ u ∈ s.users.rows, s.hasChannel u.id ∨ Added log u.id
  channels : ∀ id, GotChannel log id → s.hasChannel id
  deleted : ∀ x ∈ log, ∀ id, x.op = .deleteUser id → x.res.isOk = true →
    ∀ u ∈ s.users.rows, u.id ≠ id

theorem Added.cons {mine : AuthLog} {id : Nat} (h : Added mine id)
    (x : AuthEntry) : Added (x :: mine) id := by
  obtain ⟨y, hy, hrest⟩ := h
  exact ⟨y, .tail _ hy, hrest⟩

/-- An inserted user comes from the call that shows it. -/
theorem AuthOp.inserted_of_seen {m : Moment} {op : AuthOp} {s : Store}
    {u : UserEntity} (h : op.seenUser (Store.exec m op s).1 = some u)
    (hnew : u.id = s.users.nextId) :
    op.insertedUser (Store.exec m op s).1 = some u := by
  cases op with
  | insertUser email password =>
      revert h
      cases (Store.exec m (.insertUser email password) s).1 with
      | ok v => exact fun h => h
      | error e => exact nofun
  | saveUser w => exact nomatch h
  | deleteUser id => exact nomatch h
  | _ =>
      rcases seenUser_exec h with ⟨row, hrow, hid, _⟩ | ⟨_, hnext, _⟩
      · have hlt := s.users.keys_lt row hrow
        omega
      · rw [users_exec m s (by rfl)] at hnext
        omega

theorem Accounted.exec
    (hstart : s₀.verification_tokens.Distinct VerificationToken.token_hash)
    (h : Reachable (authSystem cfg) P s₀ b) (hinv : Accounted b.state b.log)
    (m : Moment) (hlaw : Consuming b.log t request op)
    (hregister : Registering b.log t request op) :
    Accounted (Store.exec m op b.state).2
      ((authSystem cfg).entry t request m op none b.state :: b.log) := by
  have horigin : ∀ u ∈ (Store.exec m op b.state).2.users.rows,
      (∃ row ∈ b.state.users.rows, u.id = row.id) ∨
      ∃ v, op.insertedUser (Store.exec m op b.state).1 = some v ∧
        v.id = u.id ∧ u.id = b.state.users.nextId := by
    intro u hu
    have hcases := users_origin (by
      rintro w rfl
      exact (addresses_of_reachable hstart h).saved hlaw) hu
    rcases hcases with ⟨row, hrow, hid, _⟩ | ⟨v, hv, hnew, hid, _⟩
    · exact .inl ⟨row, hrow, hid⟩
    · exact .inr ⟨v, AuthOp.inserted_of_seen hv hnew, hid.symm,
        hid.trans hnew⟩
  constructor
  · intro u hu
    rcases horigin u hu with ⟨row, hrow, hid⟩ | ⟨v, hv, hid, _⟩
    · rw [hid]
      exact (hinv.users row hrow).imp hasChannel_exec (·.cons _)
    · exact .inr ⟨_, .head _, v, hv, hid⟩
  · rintro id ⟨x, hx, ch, hch, hid⟩
    rcases List.mem_cons.1 hx with rfl | hx
    · exact ⟨ch, mem_of_insertedChannel hch, hid⟩
    · exact hasChannel_exec (hinv.channels id ⟨x, hx, ch, hch, hid⟩)
  · intro x hx id hop hok u hu
    rcases List.mem_cons.1 hx with rfl | hx
    · change op = .deleteUser id at hop
      subst hop
      change (b.state.deleteUser id).1.isOk = true at hok
      change u ∈ (b.state.deleteUser id).2.users.rows at hu
      unfold Store.deleteUser at hok hu
      split at hok
      · cases hok
      · next hfree =>
          rw [if_neg hfree] at hu
          exact beq_eq_false_iff_ne.1 (Table.mem_delete.1 hu).2
    · rcases horigin u hu with ⟨row, hrow, hid⟩ | ⟨v, _, _, hnew⟩
      · rw [hid]
        exact hinv.deleted x hx id hop hok row hrow
      · -- primary keys are not handed out again
        obtain ⟨older, hs, hlawx⟩ :=
          (registrations_of_reachable h).1.at_mem hx
        rw [hop] at hlawx
        obtain ⟨y, hy, hadded⟩ := hlawx
        have hylog : y ∈ b.log :=
          ((List.suffix_cons x older).trans hs).subset (mem_own.1 hy).1
        have hlt := (added_range h).2 id ⟨y, hylog, hadded⟩
        omega

theorem accounted_of_reachable (hchannels : Channelled s₀)
    (hstart : s₀.verification_tokens.Distinct VerificationToken.token_hash)
    (h : Reachable (authSystem cfg) P s₀ c) : Accounted c.state c.log := by
  apply h.answers Accounted
  · constructor
    · intro u hu
      obtain ⟨ch, ⟨hch, hid⟩, _⟩ := hchannels.users u hu
      exact .inl ⟨ch, hch, hid⟩
    · exact fun id ⟨x, hx, _⟩ => nomatch hx
    · exact fun x hx => nomatch hx
  · intro b b' t request m op fault hb hb' hinv _ hlog
    rw [hlog]
    cases fault with
    | some e =>
        constructor
        · exact fun u hu => (hinv.users u hu).imp_right (·.cons _)
        · rintro id ⟨x, hx, ch, hch, hid⟩
          rcases List.mem_cons.1 hx with rfl | hx
          · cases op <;> exact nomatch hch
          · exact hinv.channels id ⟨x, hx, ch, hch, hid⟩
        · intro x hx id hop hok
          rcases List.mem_cons.1 hx with rfl | hx
          · exact nomatch hok
          · exact hinv.deleted x hx id hop hok
    | none =>
        apply hinv.exec hstart hb
        · exact (tokens_of_reachable hstart hb').1.2.newest hlog
        · exact (registrations_of_reachable hb').1.newest hlog

/-- A user that was to be deleted has a channel, or is gone. -/
theorem gone_of_deleted (hchannels : Channelled s₀)
    (hstart : s₀.verification_tokens.Distinct VerificationToken.token_hash)
    (hrecords : s₀.refresh_tokens.rows = [])
    (h : Reachable (authSystem cfg) channelMayFail s₀ c)
    (hdeleted : DeletedInTime c.log) {x : AuthEntry} (hx : x ∈ c.log)
    {id : Nat} (hop : x.op = .deleteUser id) :
    c.state.hasChannel id ∨ ∀ u ∈ c.state.users.rows, u.id ≠ id := by
  cases hok : x.res.isOk with
  | true =>
      exact .inr ((accounted_of_reachable hchannels hstart h).deleted x hx id
        hop hok)
  | false =>
      left
      obtain ⟨older, hs⟩ := older_of_mem hx
      obtain ⟨b, fault, k, hb, rfl, hat, hsteps⟩ := h.split_at hs
      have hhousing := housing_of_reachable hchannels hstart hrecords hb
      have hnone : fault = none := by
        have hallowed := hat.allowed
        rw [hop] at hallowed
        cases fault with
        | none => rfl
        | some e => exact nomatch hallowed
      have href : b.state.referenced id = true := by
        rw [hat.eq, hnone] at hok
        change (Store.exec x.amb x.op b.state).1.isOk = false at hok
        rw [hop] at hok
        change (b.state.deleteUser id).1.isOk = false at hok
        by_contra hfree
        unfold Store.deleteUser at hok
        rw [if_neg hfree] at hok
        exact nomatch hok
      have hstep := Relation.ReflTransGen.single hat.step
      rcases hhousing.backed href with hchannel | htoken
      · exact hasChannel_steps hsteps (hasChannel_steps hstep hchannel)
      · have hbefore : x.before = b.state := hat.before_eq
        have hnot := (hdeleted.suffix hs).1 id (by rw [hop]; rfl)
        rw [hbefore] at hnot
        exact absurd htoken hnot

/--
**Every user has a channel.**  Over every interleaving of all requests, and
whatever fails while a channel is added: when no user that is deleted again
has got a verification token by then, each user has exactly one channel and
each channel a user in every state in which no `register` is in flight.
-/
theorem channelled_of_reachable (hchannels : Channelled s₀)
    (hstart : s₀.verification_tokens.Distinct VerificationToken.token_hash)
    (hrecords : s₀.refresh_tokens.rows = [])
    (h : Reachable (authSystem cfg) channelMayFail s₀ c)
    (hdeleted : DeletedInTime c.log)
    (hended : ∀ th ∈ c.threads, th.request.registers = true →
      th.prog.running = false) : Channelled c.state := by
  have howned : Owned c.state := by
    apply owned_of_reachable ?_ h
    refine ⟨hchannels.channels, ?_⟩
    intro a ha b hb heq
    obtain ⟨u, hu, hid⟩ := hchannels.channels a ha
    exact (hchannels.users u hu).unique ⟨ha, hid.symm⟩
      ⟨hb, heq.symm.trans hid.symm⟩
  have hinv := accounted_of_reachable hchannels hstart h
  refine ⟨?_, howned.owners⟩
  intro u hu
  have hchannel : c.state.hasChannel u.id := by
    rcases hinv.users u hu with hchannel | ⟨x, hx, user, huser, hid⟩
    · exact hchannel
    · obtain ⟨th, hth, hrequest⟩ := h.logOwned x hx
      have hregisters : th.request.registers = true := by
        have hcall := h.issued (serve_mayCall cfg) hx
        obtain ⟨email, password, hop⟩ := AuthOp.eq_of_insertedUser huser
        rw [hop] at hcall
        rw [hrequest]
        revert hcall
        cases x.request with
        | register dto => exact fun _ => rfl
        | _ => exact fun hcall => hcall.elim
      have hdone := (registrations_of_reachable h).2 x.tid th hth
        (hended th (List.mem_of_getElem? hth) hregisters)
      have hadded : Added (own x.tid c.log) u.id :=
        ⟨x, mem_own.2 ⟨hx, rfl⟩, user, huser, hid⟩
      rcases hdone u.id hadded with ⟨y, hy, hgot⟩ | ⟨y, hy, hop⟩
      · exact hinv.channels u.id ⟨y, (mem_own.1 hy).1, hgot⟩
      · rcases gone_of_deleted hchannels hstart hrecords h hdeleted
          (mem_own.1 hy).1 hop with hchannel | hgone
        · exact hchannel
        · exact absurd rfl (hgone u hu)
  obtain ⟨ch, hch, hid⟩ := hchannel
  refine ⟨ch, ⟨hch, hid⟩, ?_⟩
  rintro ch' ⟨hch', hid'⟩
  exact howned.distinct ch' hch' ch hch (hid'.trans hid.symm)

end Runs

/-- A registration whose channel fails, and one whose channel is added. -/
def registeredAgain : AuthRun :=
  authRun channelMayFail {}
    (Tick.serve sampleRegister 0 3 { now := 0 } ++
      [.perform 0 { now := 0 } (some .database),
        .perform 0 { now := 0 } none] ++
      Tick.serve sampleRegister 1 7 { bytes := 7 })
    (by decide)

theorem channelled_of_registeredAgain :
    registeredAgain.state.users.rows.length = 1 ∧
    Channelled registeredAgain.state := by
  have hreach : Reachable (authSystem sampleConfig) channelMayFail {}
      registeredAgain :=
    reachable_authRun _ (by decide)
      (admitted_of_accepts (fun _ _ => trivial) _ _)
  have hchannels : Channelled {} :=
    ⟨fun u hu => (nomatch hu), fun ch hch => (nomatch hch)⟩
  refine ⟨by decide, ?_⟩
  exact channelled_of_reachable hchannels (fun a ha => nomatch ha) rfl hreach
    (by decide) (by decide)

/-- While the channel is being added, somebody asks for a password reset. -/
def resetMeanwhile : AuthRun :=
  authRun channelMayFail {}
    (Tick.serve sampleRegister 0 3 { now := 0 } ++
      Tick.serve (.forgotPassword sampleEmail) 1 3 { bytes := 7 } ++
      [.perform 0 { now := 0 } (some .database),
        .perform 0 { now := 0 } none])
    (by decide)

/-- Both calls have ended, and the user has no channel. -/
theorem channel_missing :
    Reachable (authSystem sampleConfig) channelMayFail {} resetMeanwhile ∧
    (∀ th ∈ resetMeanwhile.threads, th.prog.running = false) ∧
    (∃ u, u ∈ resetMeanwhile.state.users.rows) ∧
    resetMeanwhile.state.channels.rows = [] := by
  refine ⟨?_, by decide, ?_, by rfl⟩
  · exact reachable_authRun _ _ (admitted_of_accepts (fun _ _ => trivial) _ _)
  · exact ⟨⟨0, sampleEmail, ⟨"correctpassword", 0⟩, false⟩, by decide⟩

end Videum.Auth
