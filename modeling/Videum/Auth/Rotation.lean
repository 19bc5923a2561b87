import Videum.Async.Turns
import Videum.Auth.Records

/-!
# Single-use refresh tokens

A `refresh` that finds its record live writes it back revoked and inserts a
successor.  The three calls are not one transaction: two of them may read the
record live before either has written it back, and both insert a successor.
This module says when a record has one successor at most, over every
interleaving in which no call fails.

## Main results

* `readers_unique` — when refreshes take turns on a record, one thread at
  most ever reads it live.
* `rotation_single_use` — then a token has successors from one call at most,
  and a family at rest at most one unrevoked record.
* `rotation_broken` — two refreshes at once end with two live successors.
-/

namespace Videum.Auth

open Videum.Async

/-! ## Turns -/

/-- The record the call has read live. -/
def liveRecord (x : AuthEntry) : Option RefreshToken :=
  (x.op.foundRecord x.res).filter fun r =>
    r.revoked_at.isNone && !decide (r.expires_at < x.amb.now)

theorem readLive_iff {x : AuthEntry} {r : RefreshToken} :
    ReadLive x r ↔ liveRecord x = some r := by
  unfold liveRecord
  rw [Option.filter_eq_some_iff]
  simp only [Bool.and_eq_true, Option.isNone_iff_eq_none, Bool.not_eq_true',
    decide_eq_false_iff_not]
  exact ⟨fun h => ⟨h.found, h.unrevoked, h.unexpired⟩,
    fun h => ⟨h.1, h.2.1, h.2.2⟩⟩

/-- Refreshes take turns on a record: none reads it live before the others
that did have written it back. -/
abbrev RefreshesTakeTurns (log : AuthLog) : Prop :=
  TakeTurns (fun x => (liveRecord x).map (·.id)) (·.op.savesRecord) log

/-- The successor of the token `rawToken` that a call has inserted. -/
def Successor (rawToken : RawToken) (x : AuthEntry) : Prop :=
  x.request = .refresh rawToken ∧ (x.op.addedRecord x.res).isSome = true

instance (rawToken : RawToken) (x : AuthEntry) :
    Decidable (Successor rawToken x) :=
  inferInstanceAs (Decidable (_ ∧ _))

/-- The token a request presents for rotation. -/
def AuthRequest.presented : AuthRequest → Option RawToken
  | .refresh rawToken => some rawToken
  | _ => none

/-- A refresh on the family is in flight. -/
def InFlight (c : AuthRun) (family : Nat) : Prop :=
  ∃ th ∈ c.threads, th.prog.running = true ∧
    ∃ rawToken ∈ th.request.presented, ∃ r ∈ c.state.refresh_tokens.rows,
      r.token_hash = hashToken rawToken ∧ r.family = family

instance (c : AuthRun) (family : Nat) : Decidable (InFlight c family) :=
  inferInstanceAs (Decidable (∃ th ∈ c.threads, th.prog.running = true ∧
    ∃ rawToken ∈ th.request.presented, ∃ r ∈ c.state.refresh_tokens.rows,
      r.token_hash = hashToken rawToken ∧ r.family = family))

/-! ## One reader -/

section Runs

variable {cfg : AuthConfig} {s₀ : Store} {c : AuthRun}

theorem obeyed_of_reachable (hstart : s₀.refresh_tokens.rows = [])
    (h : Reachable (authSystem cfg) anyOrder s₀ c) :
    Obeyed Orderly c.log :=
  (records_of_reachable hstart h).1.2

theorem records_inv (hstart : s₀.refresh_tokens.rows = [])
    (h : Reachable (authSystem cfg) anyOrder s₀ c) :
    Records c.state c.log :=
  (records_of_reachable hstart h).1.1

/-- A record its reader has written back is revoked for good. -/
theorem revoked_of_saved (hstart : s₀.refresh_tokens.rows = [])
    (h : Reachable (authSystem cfg) anyOrder s₀ c) {y z : AuthEntry}
    (hy : y ∈ c.log) (hz : z ∈ own y.tid c.log)
    (hsaves : z.op.savesRecord = true) {r r' : RefreshToken}
    (hread : ReadLive y r) (hr' : r' ∈ c.state.refresh_tokens.rows)
    (hid : r'.id = r.id) : r'.revoked_at ≠ none := by
  obtain ⟨hzlog, hztid⟩ := mem_own.1 hz
  have hop : ∃ v, z.op = .saveRefreshToken v := by
    revert hsaves
    cases z.op with
    | saveRefreshToken v => exact fun _ => ⟨v, rfl⟩
    | _ => exact fun h => nomatch h
  obtain ⟨v, hop⟩ := hop
  have hv := saved_of_read (obeyed_of_reachable hstart h) hzlog hop hy
    hztid.symm hread
  have hres := (h.entry_exec (fun _ _ => rfl) hzlog).1
  have hknown : z.op.knownRecord z.res = some v := by
    rw [hres]
    show z.op.knownRecord (Store.exec z.amb z.op z.before).1 = some v
    rw [hop]
    rfl
  obtain ⟨r₁, hr₁, hlater⟩ := (records_inv hstart h).known z hzlog v hknown
  have hid' : r'.id = r₁.id := by
    rw [hlater.id, hv]
    exact hid
  have heq := c.state.refresh_tokens.unique hr' hr₁ hid'
  subst heq
  intro hnone
  have hvnone := hlater.revoked hnone
  rw [hv] at hvnone
  exact nomatch hvnone

/-- Nobody reads a record live once a reader has written it back. -/
theorem unsaved_of_readLive (hstart : s₀.refresh_tokens.rows = [])
    (h : Reachable (authSystem cfg) anyOrder s₀ c) {x y : AuthEntry}
    {older : AuthLog} (hx : (x :: older) <:+ c.log) (hy : y ∈ older)
    {r r' : RefreshToken} (hread : ReadLive x r) (hread' : ReadLive y r')
    (hid : r.id = r'.id) : ∀ z ∈ own y.tid older, z.op.savesRecord = false := by
  intro z hz
  by_contra hsaves
  rw [Bool.not_eq_false] at hsaves
  obtain ⟨b, fault, k, hb, rfl, hat, _⟩ := h.split_at hx
  have hfound := hread.found
  cases fault with
  | some e => exact nomatch hat.allowed
  | none =>
      obtain ⟨tokenHash, hop⟩ := AuthOp.eq_of_found hfound
      have hmem : r ∈ b.state.refresh_tokens.rows := by
        rw [hat.eq] at hfound
        have hexec : x.op.foundRecord
            (Store.exec x.amb x.op b.state).1 = some r := hfound
        rw [hop] at hexec
        exact (mem_of_found hexec).1
      exact revoked_of_saved hstart hb hy hz hsaves hread' hmem hid
        hread.unrevoked

/-- When refreshes take turns, one thread at most ever reads a record
live. -/
theorem readers_unique (hstart : s₀.refresh_tokens.rows = [])
    (h : Reachable (authSystem cfg) anyOrder s₀ c)
    (hturns : RefreshesTakeTurns c.log) {x y : AuthEntry} (hx : x ∈ c.log)
    (hy : y ∈ c.log) {r r' : RefreshToken} (hread : ReadLive x r)
    (hread' : ReadLive y r') (hid : r.id = r'.id) : x.tid = y.tid := by
  have hreads : ∀ {w : AuthEntry} {q : RefreshToken}, ReadLive w q →
      (liveRecord w).map (·.id) = some q.id := by
    intro w q hw
    rw [readLive_iff.1 hw]
    rfl
  apply hturns.reader_unique ?_ ?_ hx hy (hreads hread)
    ((hreads hread').trans (congrArg some hid.symm))
  · exact fun older hs hmem =>
      unsaved_of_readLive hstart h hs hmem hread hread' hid
  · exact fun older hs hmem =>
      unsaved_of_readLive hstart h hs hmem hread' hread hid.symm

/-! ## One successor -/

/-- An insertion by a `refresh` follows that thread's live read of the record
of the token it presents. -/
theorem successor_read (hstart : s₀.refresh_tokens.rows = [])
    (h : Reachable (authSystem cfg) anyOrder s₀ c) {x : AuthEntry}
    (hx : x ∈ c.log) {rawToken : RawToken} (hs : Successor rawToken x) :
    ∃ w ∈ own x.tid c.log, ∃ r, ReadLive w r ∧
      r.token_hash = hashToken rawToken := by
  obtain ⟨hrequest, hsome⟩ := hs
  obtain ⟨n, hadded⟩ := Option.isSome_iff_exists.1 hsome
  have hobeyed := obeyed_of_reachable hstart h
  obtain ⟨older, hsuffix, hlaw⟩ := hobeyed.at_mem hx
  rw [AuthOp.eq_of_added hadded, hrequest] at hlaw
  obtain ⟨_, ⟨dto, hlogin⟩ | ⟨_, ⟨w, hw, r, hread, _⟩, _⟩⟩ := hlaw
  · exact nomatch hlogin
  · have hw' := own_mono ((List.suffix_cons x older).trans hsuffix) hw
    refine ⟨w, hw', r, hread, ?_⟩
    obtain ⟨hwlog, hwtid⟩ := mem_own.1 hw'
    obtain ⟨raw, hraw, hop⟩ := lookup_request hobeyed hwlog hread.found
    have hsame := h.logOwned.request_eq hwlog hx hwtid
    rw [hraw, hrequest] at hsame
    cases hsame
    exact (found_before h hwlog hread.found hop).2

/-- The record `id` has a successor. -/
def HasSuccessor (log : AuthLog) (id : Nat) : Prop :=
  ∃ x ∈ log, ∃ r, ReadLive x r ∧ r.id = id ∧
    ∃ y ∈ own x.tid log, ∃ n, y.op.addedRecord y.res = some n

theorem HasSuccessor.mono {old new : AuthLog} (h : old <:+ new) {id : Nat}
    (hid : HasSuccessor old id) : HasSuccessor new id := by
  obtain ⟨x, hx, r, hread, hr, y, hy, hadded⟩ := hid
  exact ⟨x, h.subset hx, r, hread, hr, y, own_mono h hy, hadded⟩

/-- Of two records of one family, one has a successor. -/
def Chained (c : AuthRun) : Prop :=
  ∀ r ∈ c.state.refresh_tokens.rows, ∀ r' ∈ c.state.refresh_tokens.rows,
    r.family = r'.family → r = r' ∨ HasSuccessor c.log r.id ∨
      HasSuccessor c.log r'.id

/-- A new record continues its family at its only end. -/
theorem chained_insert (hstart : s₀.refresh_tokens.rows = [])
    (h : Reachable (authSystem cfg) anyOrder s₀ c)
    (hturns : RefreshesTakeTurns c.log)
    (hchained : Chained c) {t : Nat} {request : AuthRequest} {amb : Moment}
    {op : AuthOp} {n : NewRefreshToken}
    (hadded : op.addedRecord (Store.exec amb op c.state).1 = some n)
    (hlaw : Orderly c.log t request op)
    (hguard : freshRandomness request op c.state = true) {r : RefreshToken}
    (hr : r ∈ c.state.refresh_tokens.rows) (hfamily : r.family = n.family) :
    HasSuccessor ((authSystem cfg).entry t request amb op none c.state
      :: c.log) r.id := by
  have hop := AuthOp.eq_of_added hadded
  subst hop
  obtain ⟨_, ⟨dto, rfl⟩ | ⟨_, ⟨w, hw, r₀, hread, hn, _⟩, hfirst⟩⟩ := hlaw
  · exact absurd hfamily (fresh_family hguard hr)
  · obtain ⟨hwlog, hwtid⟩ := mem_own.1 hw
    obtain ⟨r₁, hr₁, hlater⟩ := (records_inv hstart h).known w hwlog r₀
      (AuthOp.knownRecord_of_found hread.found)
    have hsame : r.family = r₁.family := by
      rw [hfamily, hn, hlater.family]
    have hsuffix := List.suffix_cons ((authSystem cfg).entry t request amb
      (.insertRefreshToken n) none c.state) c.log
    rcases hchained r hr r₁ hr₁ hsame with heq | hold | hold
    · have hmem : (authSystem cfg).entry t request amb (.insertRefreshToken n)
          none c.state ∈ own w.tid ((authSystem cfg).entry t request amb
            (.insertRefreshToken n) none c.state :: c.log) :=
        mem_own.2 ⟨.head _, hwtid.symm⟩
      have hid : r₀.id = r.id := by rw [heq, hlater.id]
      exact ⟨w, .tail _ hwlog, r₀, hread, hid, _, hmem, n, hadded⟩
    · exact hold.mono hsuffix
    · exfalso
      obtain ⟨x, hx, r₂, hread₂, hid, y, hy, n', hn'⟩ := hold
      have htid := readers_unique hstart h hturns hx hwlog hread₂ hread
        (hid.trans hlater.id)
      rw [htid, hwtid] at hy
      have hnone := hfirst y hy
      rw [AuthOp.eq_of_added hn'] at hnone
      exact nomatch hnone

theorem chained_of_reachable (hstart : s₀.refresh_tokens.rows = [])
    (h : Reachable (authSystem cfg) anyOrder s₀ c)
    (hturns : RefreshesTakeTurns c.log) : Chained c := by
  induction h with
  | refl =>
      intro r hr
      have hnone : r ∈ s₀.refresh_tokens.rows := hr
      rw [hstart] at hnone
      exact nomatch hnone
  | @tail c c' hc hstep ih =>
      cases hstep with
      | spawn request amb _ => exact ih hturns
      | @perform t request op k amb fault hthread hguard hfault =>
          cases fault with
          | some e => exact nomatch hfault
          | none =>
              have hchained := ih hturns.2
              have hnext : Reachable (authSystem cfg) anyOrder s₀
                  ((authSystem cfg).perform c t request amb op k none) :=
                Relation.ReflTransGen.tail hc (.perform amb none hthread
                  hguard hfault)
              have hlaw : Orderly c.log t request op :=
                obeyed_of_reachable hstart hnext _ _ (List.suffix_refl _)
              have hages := hlaw.ages (records_inv hstart hc)
              have hsuffix : c.log <:+ ((authSystem cfg).perform c t request
                amb op k none).log := List.suffix_cons _ _
              intro a' ha' b' hb' hfamily
              rcases records_exec hages ha' with ⟨a, ha, hla⟩ | ⟨n, hn, hna⟩
              · rcases records_exec hages hb' with
                  ⟨b, hb, hlb⟩ | ⟨n, hn, hnb⟩
                · have hold : a.family = b.family := by
                    rw [← hla.family, hfamily, hlb.family]
                  rcases hchained a ha b hb hold with heq | hs | hs
                  · left
                    subst heq
                    exact Common.Table.unique _ ha' hb' (hla.id.trans hlb.id.symm)
                  · rw [← hla.id] at hs
                    exact .inr (.inl (hs.mono hsuffix))
                  · rw [← hlb.id] at hs
                    exact .inr (.inr (hs.mono hsuffix))
                · right
                  left
                  rw [hla.id]
                  apply chained_insert hstart hc hturns.2 hchained hn hlaw
                    hguard ha
                  rw [← hla.family, hfamily, hnb]
                  rfl
              · rcases records_exec hages hb' with
                  ⟨b, hb, hlb⟩ | ⟨n', hn', hnb⟩
                · right
                  right
                  rw [hlb.id]
                  apply chained_insert hstart hc hturns.2 hchained hn hlaw
                    hguard hb
                  rw [← hlb.family, ← hfamily, hna]
                  rfl
                · left
                  rw [hn] at hn'
                  cases hn'
                  rw [hna, hnb]

/-- A record with a successor is revoked, once its reader is not in flight
any more. -/
theorem revoked_of_hasSuccessor (hstart : s₀.refresh_tokens.rows = [])
    (h : Reachable (authSystem cfg) anyOrder s₀ c) {r : RefreshToken}
    (hr : r ∈ c.state.refresh_tokens.rows) (hrest : ¬ InFlight c r.family)
    (hs : HasSuccessor c.log r.id) : r.revoked_at ≠ none := by
  obtain ⟨hlawful, hthreads⟩ := records_of_reachable hstart h
  obtain ⟨x, hx, r₀, hread, hid, y, hy, n, hadded⟩ := hs
  obtain ⟨rawToken, hrequest, hop⟩ :=
    lookup_request hlawful.2 hx hread.found
  obtain ⟨th, hth, hthreq⟩ := h.logOwned x hx
  obtain ⟨r₁, hr₁, hlater⟩ := hlawful.1.known x hx r₀
    (AuthOp.knownRecord_of_found hread.found)
  have heq : r₁ = r := c.state.refresh_tokens.unique hr₁ hr
    (hlater.id.trans hid)
  subst heq
  have hhash : r₁.token_hash = hashToken rawToken :=
    hlater.token_hash.trans (found_before h hx hread.found hop).2
  have hended : ∃ result amb mine, Others x.tid mine c.log ∧
      RecordsPost x.tid th.request result amb mine := by
    obtain ⟨amb, mine, hothers, hwp⟩ := hthreads x.tid th hth
    rcases h.thread_cases hth with ⟨a, ha⟩ | ⟨e, he⟩ | ⟨op, k, hk⟩
    · rw [ha] at hwp
      exact ⟨.ok a, amb, mine, hothers, hwp⟩
    · rw [he] at hwp
      exact ⟨.error e, amb, mine, hothers, hwp⟩
    · exfalso
      apply hrest
      refine ⟨th, List.mem_of_getElem? hth, ?_, rawToken, ?_, r₁, hr₁, hhash,
        rfl⟩
      · rw [hk]
        rfl
      · rw [hthreq, hrequest]
        rfl
  obtain ⟨result, amb, mine, hothers, hpost⟩ := hended
  obtain ⟨hstored, _⟩ := hpost rawToken (hthreq.trans hrequest)
  have hinserts : y.op.insertsRecord = true := by
    rw [AuthOp.eq_of_added hadded]
    rfl
  unfold Stored at hstored
  rw [← hothers.own_eq] at hstored
  obtain ⟨z, hz, hsaves⟩ := hstored y hy hinserts
  exact revoked_of_saved hstart h hx hz hsaves hread hr hid.symm

/--
**Single-use rotation.**  Over every interleaving in which refreshes take
turns on a record: from one token at most one call ever creates a successor,
and a family no refresh is at work on has at most one unrevoked record.
-/
theorem rotation_single_use (hstart : s₀.refresh_tokens.rows = [])
    (h : Reachable (authSystem cfg) anyOrder s₀ c)
    (hturns : RefreshesTakeTurns c.log) :
    (∀ rawToken, ∀ x ∈ c.log, ∀ y ∈ c.log, Successor rawToken x →
      Successor rawToken y → x.tid = y.tid) ∧
    ∀ family, ¬ InFlight c family →
      ∀ r ∈ c.state.refresh_tokens.rows, ∀ r' ∈ c.state.refresh_tokens.rows,
        r.family = family → r'.family = family → r.revoked_at = none →
          r'.revoked_at = none → r = r' := by
  have hrecords := records_inv hstart h
  constructor
  · intro rawToken x hx y hy hsx hsy
    obtain ⟨w, hw, r, hread, hhash⟩ := successor_read hstart h hx hsx
    obtain ⟨w', hw', r', hread', hhash'⟩ := successor_read hstart h hy hsy
    obtain ⟨hwlog, hwtid⟩ := mem_own.1 hw
    obtain ⟨hwlog', hwtid'⟩ := mem_own.1 hw'
    obtain ⟨q, hq, hlater⟩ := hrecords.known w hwlog r
      (AuthOp.knownRecord_of_found hread.found)
    obtain ⟨q', hq', hlater'⟩ := hrecords.known w' hwlog' r'
      (AuthOp.knownRecord_of_found hread'.found)
    have heq : q = q' := by
      apply hrecords.hashes q hq q' hq'
      rw [hlater.token_hash, hlater'.token_hash, hhash, hhash']
    have hid : r.id = r'.id := by
      rw [← hlater.id, ← hlater'.id, heq]
    have htid := readers_unique hstart h hturns hwlog hwlog' hread hread' hid
    rw [← hwtid, ← hwtid', htid]
  · intro family hrest r hr r' hr' hf hf' hlive hlive'
    rcases chained_of_reachable hstart h hturns r hr r' hr'
      (hf.trans hf'.symm) with heq | hs | hs
    · exact heq
    · have hrest' : ¬ InFlight c r.family := by
        rw [hf]
        exact hrest
      exact absurd hlive (revoked_of_hasSuccessor hstart h hr hrest' hs)
    · have hrest' : ¬ InFlight c r'.family := by
        rw [hf']
        exact hrest
      exact absurd hlive' (revoked_of_hasSuccessor hstart h hr' hrest' hs)

end Runs

/-- A login, and then two refreshes one after the other. -/
def rotatedTwice : AuthRun :=
  authRun anyOrder sampleStore
    (Tick.serve sampleLogin 0 3 { family := 1, jti := 1 } ++
      Tick.serve (.refresh (sampleToken 1 1 0)) 1 3 { now := 1000, jti := 2 } ++
      Tick.serve (.refresh (sampleToken 1 2 1000)) 2 3
        { now := 2000, jti := 3, swapped := true })
    (by decide)

theorem rotation_single_use_of_rotatedTwice :
    (∃ x ∈ rotatedTwice.log, Successor (sampleToken 1 1 0) x) ∧
    (∀ x ∈ rotatedTwice.log, ∀ y ∈ rotatedTwice.log,
      Successor (sampleToken 1 1 0) x → Successor (sampleToken 1 1 0) y →
        x.tid = y.tid) ∧
    (∃ r ∈ rotatedTwice.state.refresh_tokens.rows, r.family = 1 ∧
      r.revoked_at = none) ∧
    ∀ r ∈ rotatedTwice.state.refresh_tokens.rows,
      ∀ r' ∈ rotatedTwice.state.refresh_tokens.rows, r.family = 1 →
        r'.family = 1 → r.revoked_at = none → r'.revoked_at = none →
          r = r' := by
  obtain ⟨hcalls, hrecords⟩ := rotation_single_use (by decide)
    (reachable_authRun (P := anyOrder) _ (by decide)
      (admitted_of_accepts (fun _ _ => trivial) _ _)) (c := rotatedTwice) (by decide)
  exact ⟨by decide, hcalls (sampleToken 1 1 0), by decide,
    hrecords 1 (by decide)⟩

/-- Two refreshes with the same token: both look the record up before either
writes it back. -/
def doubleRefresh : AuthRun :=
  authRun anyOrder sampleStore
    (Tick.serve sampleLogin 0 3 { family := 1, jti := 1 } ++
      Tick.serve (.refresh (sampleToken 1 1 0)) 1 1 { now := 1000, jti := 2 } ++
      Tick.serve (.refresh (sampleToken 1 1 0)) 2 1 { now := 1000, jti := 3 } ++
      Tick.answers 1 2 { now := 1001 } ++
      Tick.answers 2 2 { now := 1002 })
    (by decide)

/-- Both calls insert a successor, and the family is left with two live
records and no refresh in flight. -/
theorem rotation_broken :
    Reachable (authSystem sampleConfig) anyOrder sampleStore doubleRefresh ∧
    (∃ x ∈ doubleRefresh.log, ∃ y ∈ doubleRefresh.log,
      Successor (sampleToken 1 1 0) x ∧ Successor (sampleToken 1 1 0) y ∧
        x.tid ≠ y.tid) ∧
    ¬ InFlight doubleRefresh 1 ∧
    ∃ r ∈ doubleRefresh.state.refresh_tokens.rows,
      ∃ r' ∈ doubleRefresh.state.refresh_tokens.rows, r.family = 1 ∧
        r'.family = 1 ∧ r.revoked_at = none ∧ r'.revoked_at = none ∧
          r ≠ r' :=
  ⟨reachable_authRun _ _ (admitted_of_accepts (fun _ _ => trivial) _ _),
    by decide, by decide, by decide⟩

end Videum.Auth
