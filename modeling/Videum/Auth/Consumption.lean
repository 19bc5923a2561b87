import Videum.Async.Turns
import Videum.Auth.Tokens

/-!
# Consuming a verification token

A `confirm` or a `resetPassword` that finds its token unused writes it back
used some calls later; a `resetPassword` first computes an argon2 hash.  The
write is unconditional, so two of them may find the token unused before
either has written it back, and both return.  This module says when a token
is consumed once at most, over every interleaving and whatever fails.

## Main results

* `consumer_unique` — when consumers take turns on a token, one thread at
  most reads it unused and sees its attempt through.
* `consumption_single` — then one call at most that presents a token returns,
  and the token sets a password at most once.
* `consumption_broken` — two resets at once both return.
-/

namespace Videum.Auth

open Videum.Async
open Videum.Common

/-! ## Turns -/

/-- The token the call has read unused and unexpired. -/
def unusedToken (x : AuthEntry) : Option VerificationToken :=
  ((x.op.foundToken x.res).map Prod.fst).filter fun r =>
    !decide (r.expires_at < x.amb.now)

theorem ReadUnused.unusedToken {x : AuthEntry} {r : VerificationToken}
    {u : UserEntity} (h : ReadUnused x r u) : unusedToken x = some r := by
  unfold Videum.Auth.unusedToken
  rw [h.found, Option.map_some, Option.filter_some, if_pos]
  rw [Bool.not_eq_true', decide_eq_false_iff_not]
  exact h.unexpired

/-- The request is a `confirm`. -/
def AuthRequest.confirms : AuthRequest → Bool
  | .confirm _ => true
  | _ => false

/-- After this answer the call can neither return nor set a password: its
hash or its write of the user has failed, or it is a `confirm` and its write
of the token has. -/
def abandons (x : AuthEntry) : Bool :=
  !x.res.isOk && (x.op.hashesPassword || x.op.savesUser ||
    x.op.savesToken && x.request.confirms)

/-- The attempt of the call is over: the token is stored as used, or the call
has abandoned it. -/
def settles (x : AuthEntry) : Bool :=
  x.op.savesToken && x.res.isOk || abandons x

/-- Consumers take turns on a token: none reads it unused before the attempts
of the others that did are over. -/
abbrev ConsumersTakeTurns (log : AuthLog) : Prop :=
  TakeTurns (fun x => (unusedToken x).map (·.id)) settles log

/-- The token a request presents for consumption. -/
def AuthRequest.consumed (request : AuthRequest) : Option RawToken :=
  request.consumes.map Prod.fst

/-- The call has set the password of the user of the token `rawToken`. -/
def setsPassword (rawToken : RawToken) (x : AuthEntry) : Bool :=
  match x.request with
  | .resetPassword dto =>
      decide (dto.token = rawToken) && x.op.savesUser && x.res.isOk
  | _ => false

theorem request_of_setsPassword {rawToken : RawToken} {x : AuthEntry}
    (h : setsPassword rawToken x = true) :
    x.request.consumes = some (rawToken, .PASSWORD_RESET) ∧
      x.request.confirms = false ∧ x.op.savesUser = true ∧
      x.res.isOk = true := by
  unfold setsPassword at h
  split at h
  · next dto hrequest =>
      rw [Bool.and_eq_true, Bool.and_eq_true, decide_eq_true_eq] at h
      obtain ⟨⟨htoken, hsaves⟩, hok⟩ := h
      rw [hrequest, ← htoken]
      exact ⟨rfl, rfl, hsaves, hok⟩
  · exact nomatch h

theorem AuthOp.eq_of_savesUser {op : AuthOp} (h : op.savesUser = true) :
    ∃ w, op = .saveUser w := by
  cases op with
  | saveUser w => exact ⟨w, rfl⟩
  | _ => exact nomatch h

theorem AuthOp.eq_of_savesToken {op : AuthOp} (h : op.savesToken = true) :
    ∃ v, op = .saveVerificationToken v := by
  cases op with
  | saveVerificationToken v => exact ⟨v, rfl⟩
  | _ => exact nomatch h

theorem AuthOp.eq_of_hashesPassword {op : AuthOp}
    (h : op.hashesPassword = true) : ∃ password, op = .hashPassword password := by
  cases op with
  | hashPassword password => exact ⟨password, rfl⟩
  | _ => exact nomatch h

/-! ## Reading a lawful log -/

section Log

variable {log : AuthLog} {x y : AuthEntry} {r r' : VerificationToken}
  {u u' : UserEntity}

/-- A thread reads a token once. -/
theorem tokenRead_unique (h : Obeyed Consuming log) (hx : x ∈ log)
    (hy : y ∈ log) (htid : x.tid = y.tid) (hr : ReadUnused x r u)
    (hr' : ReadUnused y r' u') : x = y := by
  apply first_unique (p := fun z : AuthEntry => ∃ q, z.op.foundToken z.res
    = some q) ?_ hx hy htid ⟨_, hr.found⟩ ⟨_, hr'.found⟩
  rintro a older hs ⟨q, hq⟩
  obtain ⟨tokenHash, type, hop⟩ := AuthOp.eq_of_foundToken hq
  have hlaw := h a older hs
  rw [hop] at hlaw
  exact hlaw.2

/-- A token written back is the one its thread has read unused. -/
theorem savedToken_of_read (h : Obeyed Consuming log) (hx : x ∈ log)
    {v : VerificationToken} (hop : x.op = .saveVerificationToken v)
    (hy : y ∈ log) (htid : y.tid = x.tid) (hr : ReadUnused y r u) :
    v = { r with used_at := some y.amb.now } := by
  obtain ⟨older, hs, hlaw⟩ := h.at_mem hx
  rw [hop] at hlaw
  obtain ⟨w, hw, r₀, u₀, hread, hv⟩ := hlaw
  obtain ⟨hwmem, hwtid⟩ := mem_own.1 hw
  have hwlog : w ∈ log := hs.subset (.tail _ hwmem)
  have heq := tokenRead_unique h hwlog hy (hwtid.trans htid.symm) hread hr
  subst heq
  have hpair := hread.found.symm.trans hr.found
  cases hpair
  exact hv

/-- A reset that has set a password has not abandoned its attempt. -/
theorem abandons_of_setsPassword (h : Obeyed Consuming log) (hx : x ∈ log)
    (hy : y ∈ log) (htid : y.tid = x.tid) (hrequest : y.request = x.request)
    {rawToken : RawToken} (hsets : setsPassword rawToken x = true) :
    abandons y = false := by
  obtain ⟨hconsumes, hconfirms, hsaves, hok⟩ := request_of_setsPassword hsets
  have hxlaw : ∀ older, (x :: older) <:+ log → y ∈ older →
      y.op.savesUser = false ∧
        (y.op.hashesPassword = true → y.res.isOk = true) := by
    intro older hs hmem
    obtain ⟨w, hop⟩ := AuthOp.eq_of_savesUser hsaves
    have hlaw := h x older hs
    rw [hop] at hlaw
    exact hlaw.2 y (mem_own.2 ⟨hmem, htid⟩)
  by_contra habandons
  rw [Bool.not_eq_false] at habandons
  unfold abandons at habandons
  rw [Bool.and_eq_true, Bool.or_eq_true, Bool.or_eq_true,
    Bool.and_eq_true, Bool.not_eq_true'] at habandons
  obtain ⟨hfailed, (hhash | huser) | ⟨_, hconfirm⟩⟩ := habandons
  · rcases older_or_newer hx hy with heq | ⟨older, hs, hmem⟩ | ⟨older, hs, hmem⟩
    · rw [heq, hfailed] at hok
      exact nomatch hok
    · have hhashed := (hxlaw older hs hmem).2 hhash
      rw [hfailed] at hhashed
      exact nomatch hhashed
    · obtain ⟨password, hop⟩ := AuthOp.eq_of_hashesPassword hhash
      have hlaw := h y older hs
      rw [hop] at hlaw
      have hnone : y.request.consumes ≠ none := by
        rw [hrequest, hconsumes]
        exact Option.some_ne_none _
      have hfirst := hlaw hnone x (mem_own.2 ⟨hmem, htid.symm⟩)
      rw [hsaves] at hfirst
      exact nomatch hfirst
  · rcases older_or_newer hx hy with heq | ⟨older, hs, hmem⟩ | ⟨older, hs, hmem⟩
    · rw [heq, hfailed] at hok
      exact nomatch hok
    · have hfirst := (hxlaw older hs hmem).1
      rw [huser] at hfirst
      exact nomatch hfirst
    · obtain ⟨w, hop⟩ := AuthOp.eq_of_savesUser huser
      have hlaw := h y older hs
      rw [hop] at hlaw
      have hfirst := (hlaw.2 x (mem_own.2 ⟨hmem, htid.symm⟩)).1
      rw [hsaves] at hfirst
      exact nomatch hfirst
  · rw [hrequest, hconfirms] at hconfirm
    exact nomatch hconfirm

end Log

/-! ## One consumer -/

section Runs

variable {cfg : AuthConfig} {P : AuthPolicy} {s₀ : Store} {c : AuthRun}

/-- A token its reader has written back is used for good. -/
theorem used_of_saved
    (hstart : s₀.verification_tokens.Distinct VerificationToken.token_hash)
    (h : Reachable (authSystem cfg) P s₀ c) {y z : AuthEntry}
    (hy : y ∈ c.log) (hz : z ∈ own y.tid c.log)
    (hsaves : z.op.savesToken = true) (hok : z.res.isOk = true)
    {r r' : VerificationToken} {u : UserEntity} (hread : ReadUnused y r u)
    (hr' : r' ∈ c.state.verification_tokens.rows) (hid : r'.id = r.id) :
    r'.used_at ≠ none := by
  obtain ⟨hinv, hobeyed⟩ := (tokens_of_reachable hstart h).1
  obtain ⟨hzlog, hztid⟩ := mem_own.1 hz
  obtain ⟨v, hop⟩ := AuthOp.eq_of_savesToken hsaves
  have hv := savedToken_of_read hobeyed hzlog hop hy hztid.symm hread
  have hknown : z.op.knownToken z.res = some v := by
    rw [(h.entry_exec_of_ok hzlog hok).1]
    show z.op.knownToken (Store.exec z.amb z.op z.before).1 = some v
    rw [hop]
    rfl
  obtain ⟨r₁, hr₁, hlater⟩ := hinv.known z hzlog v hknown
  have hid' : r'.id = r₁.id := by
    rw [hlater.id, hv]
    exact hid
  have heq := c.state.verification_tokens.unique hr' hr₁ hid'
  subst heq
  intro hnone
  have hvnone := hlater.unused hnone
  rw [hv] at hvnone
  exact nomatch hvnone

/-- Nobody reads a token unused once a reader has written it back. -/
theorem unsaved_of_readUnused
    (hstart : s₀.verification_tokens.Distinct VerificationToken.token_hash)
    (h : Reachable (authSystem cfg) P s₀ c) {x y : AuthEntry} {older : AuthLog}
    (hx : (x :: older) <:+ c.log) (hy : y ∈ older)
    {r r' : VerificationToken} {u u' : UserEntity} (hread : ReadUnused x r u)
    (hread' : ReadUnused y r' u') (hid : r.id = r'.id) :
    ∀ z ∈ own y.tid older, (z.op.savesToken && z.res.isOk) = false := by
  intro z hz
  by_contra hsaves
  rw [Bool.not_eq_false, Bool.and_eq_true] at hsaves
  obtain ⟨b, fault, k, hb, rfl, hat, _⟩ := h.split_at hx
  have hxlog : x ∈ c.log := hx.subset (.head _)
  obtain ⟨_, _, _, hunused, hmem, _⟩ :=
    readUnused_before hstart h hxlog hread
  rw [hat.eq] at hmem
  exact used_of_saved hstart hb hy hz hsaves.1 hsaves.2 hread' hmem hid
    hunused

/-- When consumers take turns, two threads that read a token unused and see
their attempts through are one. -/
theorem consumer_unique
    (hstart : s₀.verification_tokens.Distinct VerificationToken.token_hash)
    (h : Reachable (authSystem cfg) P s₀ c)
    (hturns : ConsumersTakeTurns c.log) {x y : AuthEntry} (hx : x ∈ c.log)
    (hy : y ∈ c.log) {r r' : VerificationToken} {u u' : UserEntity}
    (hread : ReadUnused x r u) (hread' : ReadUnused y r' u')
    (hhash : r.token_hash = r'.token_hash)
    (hkeeps : ∀ z ∈ own x.tid c.log, abandons z = false)
    (hkeeps' : ∀ z ∈ own y.tid c.log, abandons z = false) :
    x.tid = y.tid := by
  have hinv := (tokens_of_reachable hstart h).1.1
  obtain ⟨q, hq, hlater⟩ := hinv.known x hx r
    (AuthOp.knownToken_of_found hread.found)
  obtain ⟨q', hq', hlater'⟩ := hinv.known y hy r'
    (AuthOp.knownToken_of_found hread'.found)
  have hid : r.id = r'.id := by
    have heq : q = q' := by
      apply hinv.hashes q hq q' hq'
      rw [hlater.token_hash, hlater'.token_hash, hhash]
    rw [← hlater.id, ← hlater'.id, heq]
  have hreads : (unusedToken x).map (·.id) = some r.id := by
    rw [hread.unusedToken]
    rfl
  have hreads' : (unusedToken y).map (·.id) = some r.id := by
    rw [hread'.unusedToken, hid]
    rfl
  have hopen : ∀ (a b : AuthEntry) older, (a :: older) <:+ c.log →
      (∀ z ∈ own b.tid older, (z.op.savesToken && z.res.isOk) = false) →
      (∀ z ∈ own b.tid c.log, abandons z = false) →
      ∀ z ∈ own b.tid older, settles z = false := by
    intro a b older hs hunsaved hall z hz
    have hlog := own_mono ((List.suffix_cons a older).trans hs) hz
    unfold settles
    rw [hunsaved z hz, hall z hlog]
    rfl
  apply hturns.reader_unique ?_ ?_ hx hy hreads hreads'
  · exact fun older hs hmem => hopen x y older hs
      (unsaved_of_readUnused hstart h hs hmem hread hread' hid) hkeeps'
  · exact fun older hs hmem => hopen y x older hs
      (unsaved_of_readUnused hstart h hs hmem hread' hread hid.symm) hkeeps

/-- What a call that has returned has read, and that it has abandoned
nothing. -/
theorem consumed_of_returned
    (hstart : s₀.verification_tokens.Distinct VerificationToken.token_hash)
    (h : Reachable (authSystem cfg) P s₀ c) {t : Nat} {th : AuthThread}
    (hth : c.threads[t]? = some th) {rawToken : RawToken}
    (hrequest : th.request.consumed = some rawToken) {reply : AuthReply}
    (hreturned : th.prog = .pure reply) :
    ∃ x ∈ own t c.log, ∃ r u, ReadUnused x r u ∧
      r.token_hash = hashToken rawToken ∧
      ∀ z ∈ own t c.log, abandons z = false := by
  obtain ⟨pair, hpair, hraw⟩ := Option.map_eq_some_iff.1 hrequest
  have hsafe := (tokens_of_reachable hstart h).2 t th hth
  obtain ⟨amb, mine, hothers, hpost⟩ := hsafe.returned hreturned
  have hconsumed : Consumed t mine := by
    apply hpost rfl
    rw [hpair]
    exact Option.some_ne_none _
  unfold Consumed at hconsumed
  rw [← hothers.own_eq] at hconsumed
  obtain ⟨⟨x, hx, r, u, hread⟩, hall⟩ := hconsumed
  obtain ⟨hxlog, hxtid⟩ := mem_own.1 hx
  obtain ⟨raw, hconsumes, hhash, _⟩ :=
    readUnused_before hstart h hxlog hread
  rw [← hxtid] at hth
  rw [h.logOwned.request_of_thread hxlog hth, hpair] at hconsumes
  cases hconsumes
  subst hraw
  refine ⟨x, hx, r, u, hread, hhash, ?_⟩
  intro z hz
  unfold abandons
  rw [hall z hz]
  rfl

/-- What a call that has set a password has read. -/
theorem consumed_of_setsPassword
    (hstart : s₀.verification_tokens.Distinct VerificationToken.token_hash)
    (h : Reachable (authSystem cfg) P s₀ c) {x : AuthEntry} (hx : x ∈ c.log)
    {rawToken : RawToken} (hsets : setsPassword rawToken x = true) :
    ∃ w ∈ own x.tid c.log, ∃ r u, ReadUnused w r u ∧
      r.token_hash = hashToken rawToken ∧
      ∀ z ∈ own x.tid c.log, abandons z = false := by
  have hobeyed := (tokens_of_reachable hstart h).1.2
  obtain ⟨hconsumes, _, hsaves, _⟩ := request_of_setsPassword hsets
  obtain ⟨user, hop⟩ := AuthOp.eq_of_savesUser hsaves
  obtain ⟨older, hs, hlaw⟩ := hobeyed.at_mem hx
  rw [hop] at hlaw
  obtain ⟨⟨w, hw, r, u, hread, _⟩, _⟩ := hlaw
  have hw' := own_mono ((List.suffix_cons x older).trans hs) hw
  obtain ⟨hwlog, hwtid⟩ := mem_own.1 hw'
  obtain ⟨raw, hraw, hhash, _⟩ := readUnused_before hstart h hwlog hread
  rw [h.logOwned.request_eq hwlog hx hwtid, hconsumes] at hraw
  have heq : rawToken = raw := congrArg Prod.fst (Option.some.inj hraw)
  subst heq
  refine ⟨w, hw', r, u, hread, hhash, ?_⟩
  intro z hz
  obtain ⟨hzlog, hztid⟩ := mem_own.1 hz
  exact abandons_of_setsPassword hobeyed hx hzlog hztid
    (h.logOwned.request_eq hzlog hx hztid) hsets

/--
**Tokens are consumed once.**  Over every interleaving in which consumers
take turns on a token, whatever fails: of the calls that present one token
one at most returns, and the token sets a password at most once.
-/
theorem consumption_single
    (hstart : s₀.verification_tokens.Distinct VerificationToken.token_hash)
    (h : Reachable (authSystem cfg) anyRun s₀ c)
    (hturns : ConsumersTakeTurns c.log) (rawToken : RawToken) :
    (∀ (t t' : Nat) (th th' : AuthThread), c.threads[t]? = some th →
      c.threads[t']? = some th' → th.request.consumed = some rawToken →
      th'.request.consumed = some rawToken →
      (∃ reply, th.prog = .pure reply) → (∃ reply, th'.prog = .pure reply) →
        t = t') ∧
    (c.log.filter (setsPassword rawToken)).length ≤ 1 := by
  constructor
  · rintro t t' th th' hth hth' hrequest hrequest' ⟨reply, hreply⟩
      ⟨reply', hreply'⟩
    obtain ⟨x, hx, r, u, hread, hhash, hkeeps⟩ :=
      consumed_of_returned hstart h hth hrequest hreply
    obtain ⟨y, hy, r', u', hread', hhash', hkeeps'⟩ :=
      consumed_of_returned hstart h hth' hrequest' hreply'
    obtain ⟨hxlog, rfl⟩ := mem_own.1 hx
    obtain ⟨hylog, rfl⟩ := mem_own.1 hy
    exact consumer_unique hstart h hturns hxlog hylog hread hread'
      (hhash.trans hhash'.symm) hkeeps hkeeps'
  · apply filter_length_le_one
    intro x y older hs hsets hy
    by_contra hsets'
    rw [Bool.not_eq_false] at hsets'
    have hxlog : x ∈ c.log := hs.subset (.head _)
    have hylog : y ∈ c.log := hs.subset (.tail _ hy)
    obtain ⟨a, ha, r, u, hread, hhash, hkeeps⟩ :=
      consumed_of_setsPassword hstart h hxlog hsets
    obtain ⟨b, hb, r', u', hread', hhash', hkeeps'⟩ :=
      consumed_of_setsPassword hstart h hylog hsets'
    obtain ⟨halog, hatid⟩ := mem_own.1 ha
    obtain ⟨hblog, hbtid⟩ := mem_own.1 hb
    rw [← hatid] at hkeeps
    rw [← hbtid] at hkeeps'
    have htid := consumer_unique hstart h hturns halog hblog hread hread'
      (hhash.trans hhash'.symm) hkeeps hkeeps'
    -- a reset writes its user once
    obtain ⟨w, hop⟩ :=
      AuthOp.eq_of_savesUser (request_of_setsPassword hsets).2.2.1
    have hlaw := (tokens_of_reachable hstart h).1.2 x older hs
    rw [hop] at hlaw
    have hmem : y ∈ own x.tid older :=
      mem_own.2 ⟨hy, by rw [← hatid, ← hbtid, htid]⟩
    have hfirst := (hlaw.2 y hmem).1
    rw [(request_of_setsPassword hsets').2.2.1] at hfirst
    exact nomatch hfirst

end Runs

/-- The sample user with a channel. -/
def channelStore : Store :=
  { sampleStore with
    channels := ({} : Table Channel Channel.id).insert sampleChannel
      id_sampleChannel }

def resetRequest (newPassword : String)
    (h : 8 ≤ validatedLength newPassword ∧ validatedLength newPassword ≤ 128) :
    AuthRequest :=
  .resetPassword ⟨.hex 7, newPassword, h⟩

theorem firstPassword_length :
    8 ≤ validatedLength "first password" ∧
      validatedLength "first password" ≤ 128 := by decide

/-- A reset token is mailed and used; then it is presented again. -/
def consumedTwice : AuthRun :=
  authRun anyRun channelStore
    (Tick.serve (.forgotPassword sampleEmail) 0 4 { bytes := 7 } ++
      Tick.serve (resetRequest "first password" firstPassword_length) 1 5
        { now := 1000 } ++
      Tick.serve (resetRequest "second password" (by decide)) 2 1
        { now := 2000 })
    (by decide)

theorem consumption_single_of_consumedTwice :
    (∃ th, consumedTwice.threads[1]? = some th ∧
      th.request.consumed = some (.hex 7) ∧
      ∃ reply, th.prog = .pure reply) ∧
    (∀ (t : Nat) (th : AuthThread), consumedTwice.threads[t]? = some th →
      th.request.consumed = some (.hex 7) →
      (∃ reply, th.prog = .pure reply) → t = 1) ∧
    (consumedTwice.log.filter (setsPassword (.hex 7))).length ≤ 1 := by
  have hthread : ∃ th : AuthThread, consumedTwice.threads[1]? = some th ∧
      th.request.consumed = some (.hex 7) ∧ ∃ reply, th.prog = .pure reply :=
    ⟨⟨resetRequest "first password" firstPassword_length, .pure .done⟩,
      by rfl, by rfl, .done, rfl⟩
  obtain ⟨hcalls, hsets⟩ := consumption_single (by decide)
    (reachable_authRun (P := anyRun) _ (by decide)
      (admitted_of_accepts (fun _ _ => trivial) _ _)) (c := consumedTwice)
    (by decide) (.hex 7)
  refine ⟨hthread, ?_, hsets⟩
  intro t th hth hrequest hreturned
  obtain ⟨th₁, hth₁, hrequest₁, hreturned₁⟩ := hthread
  exact hcalls t 1 th th₁ hth hth₁ hrequest hrequest₁ hreturned hreturned₁

/-- Two resets with the same token: both look it up before either writes it
back. -/
def doubleReset : AuthRun :=
  authRun anyRun channelStore
    (Tick.serve (.forgotPassword sampleEmail) 0 4 { bytes := 7 } ++
      Tick.serve (resetRequest "first password" firstPassword_length) 1 1
        { now := 1000 } ++
      Tick.serve (resetRequest "second password" (by decide)) 2 1
        { now := 1001 } ++
      Tick.answers 1 4 { now := 1200 } ++
      Tick.answers 2 4 { now := 1300 })
    (by decide)

/-- Both calls return, and the token sets the password twice. -/
theorem consumption_broken :
    Reachable (authSystem sampleConfig) anyRun channelStore doubleReset ∧
    doubleReset.threads[1]? =
      some ⟨resetRequest "first password" firstPassword_length, .pure .done⟩ ∧
    doubleReset.threads[2]? =
      some ⟨resetRequest "second password" (by decide), .pure .done⟩ ∧
    (doubleReset.log.filter (setsPassword (.hex 7))).length = 2 := by
  refine ⟨?_, by rfl, by rfl, by rfl⟩
  exact reachable_authRun _ _ (admitted_of_accepts (fun _ _ => trivial) _ _)

end Videum.Auth
