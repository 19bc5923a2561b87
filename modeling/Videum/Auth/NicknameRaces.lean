import Videum.Async.Traces
import Videum.Auth.Channels
import Videum.Auth.Nicknames

/-!
# Races for a nickname

Calls to `createChannel` for different users, in any order.  Between the
look-up of a nickname and the insert another call may take it.  The insert is
then refused, and with it the database gives up the whole transaction: the
next look-up of the retry loop fails, and its error leaves `createChannel`.
Only a refusal on the last attempt ends the way the loop is meant to end.

## Main results

* `tryNicknames_follows` — the ends of the loop, told from its own answers.
* `awaited_of_reachable` — a user whose call has not inserted yet has no
  channel.
* `raceResolved_iff` — when a call resolves its race.
* `race_lost` — two calls, of which one ends with a database error.
-/

namespace Videum.Auth

open Videum.Async
open Videum.Common

/-! ## Statements -/

abbrev ChannelEntry := Entry AuthIface Moment AuthError Store ChannelRequest

abbrev ChannelLog := Log AuthIface Moment AuthError Store ChannelRequest

abbrev ChannelThread := Thread AuthIface Moment AuthError ChannelRequest
  Channel

/-- Calls for users that have no channel, each for another one; nothing
fails. -/
def rivals : ChannelPolicy where
  accepts c request :=
    (∀ th ∈ c.threads, th.request.userId ≠ request.userId) ∧
    c.state.hasUser request.userId ∧ ¬ c.state.hasChannel request.userId
  fault _ _ := false

namespace AuthOp

/-- The nickname whose trial ends with this answer.  A look-up that finds
nobody leaves that to the insert after it. -/
def triesNickname : (op : AuthOp) → Except AuthError op.Res → Option String
  | findChannelByNickname _ _, .ok none => none
  | findChannelByNickname _ nickname, _ => some nickname
  | insertChannel _ nickname _, _ => some nickname
  | _, _ => none

/-- The nickname of the channel a call is to add. -/
def insertedNickname : AuthOp → Option String
  | insertChannel _ nickname _ => some nickname
  | _ => none

end AuthOp

/-- The nickname was tried with this answer, and nobody had it. -/
def Free (x : ChannelEntry) (nickname : String) : Prop :=
  x.op.triesNickname x.res = some nickname ∧
    x.before.nicknameTaken nickname = false

/-- What a call that has ended with `r` after the answers `mine` should have
made of a race: with a free candidate it has added a channel under such a
one, and no failed query shows. -/
structure RaceResolved (request : ChannelRequest) (mine : ChannelLog)
    (r : Except AuthError Channel) (s : Store) : Prop where
  committed : (∃ x ∈ mine, ∃ nickname, Free x nickname) →
    ∃ channel ∈ s.channels.rows, r = .ok channel ∧
      channel.user_id = request.userId ∧
      (∃ x ∈ mine, Free x channel.nickname) ∧
      ∃ base, IsBase request.email base ∧
        (channel.nickname = base ∨ IsSuffixed base channel.nickname)
  contained : r ≠ .error .uniqueNickname ∧ r ≠ .error .database

/-- No insert before that of the last attempt finds its nickname taken. -/
abbrev InsertsInTime (mine : ChannelLog) : Prop :=
  Throughout (fun (x : ChannelEntry) older => ∀ nickname ∈ x.op.insertedNickname,
    x.before.nicknameTaken nickname = true →
      (triedNames older).length = maxRetries + 1) mine

/-! ## One call -/

/-- The answer is to a look-up that has found somebody. -/
structure FoundTaken (x : ChannelEntry) : Prop where
  lookup : x.op.triedNickname.isSome = true
  ok : x.res.isOk = true
  inserted : x.op.insertedNickname = none
  taken : ∀ nickname, ¬ Free x nickname

/-- The ends of a call, after the answers `mine`. -/
inductive RaceOutcome (request : ChannelRequest) :
    Except AuthError Channel → ChannelLog → Prop
  /-- The insert was refused for another reason than the nickname. -/
  | refused {base nickname : String} {y : ChannelEntry} {older : ChannelLog}
      (hbase : IsBase request.email base)
      (hshape : nickname = base ∨ IsSuffixed base nickname)
      (hop : y.op = .insertChannel base nickname request.userId)
      (hfree : Free y nickname) (hfailed : y.res.isOk = false)
      (holder : ∀ z ∈ older, z.op.insertedNickname = none) :
      RaceOutcome request (.error .database) (y :: older)
  | created {base nickname : String} {channel : Channel} {y : ChannelEntry}
      {older : ChannelLog} (hbase : IsBase request.email base)
      (hshape : nickname = base ∨ IsSuffixed base nickname)
      (hop : y.op = .insertChannel base nickname request.userId)
      (hfree : Free y nickname)
      (hchannel : y.op.insertedChannel y.res = some channel)
      (howner : channel.user_id = request.userId)
      (hname : channel.nickname = nickname)
      (holder : ∀ z ∈ older, z.op.insertedNickname = none) :
      RaceOutcome request (.ok channel) (y :: older)
  | exhausted {mine : ChannelLog}
      (hfree : ∀ x ∈ mine, ∀ nickname, ¬ Free x nickname)
      (htime : InsertsInTime mine) :
      RaceOutcome request (.error .nicknameConflict) mine
  | aborted {mine : ChannelLog} (htime : ¬ InsertsInTime mine) :
      RaceOutcome request (.error .database) mine

theorem insertsInTime_of_none {mine : ChannelLog}
    (h : ∀ z ∈ mine, z.op.insertedNickname = none) : InsertsInTime mine := by
  apply throughout_of_suffix
  intro x older hs nickname hnickname
  rw [h x (hs.subset (.head _))] at hnickname
  exact nomatch hnickname

theorem triedNames_length {mine : ChannelLog}
    (h : ∀ z ∈ mine, FoundTaken z) :
    (triedNames mine).length = mine.length := by
  induction mine with
  | nil => rfl
  | cons x mine ih =>
      have hx := h x (.head _)
      obtain ⟨nickname, hnickname⟩ := Option.isSome_iff_exists.1 hx.lookup
      have hrest : (triedNames mine).length = mine.length :=
        ih fun z hz => h z (.tail _ hz)
      unfold triedNames at hrest ⊢
      rw [List.filterMap_cons, if_pos hx.ok, hnickname, List.length_cons,
        List.length_cons, hrest]

theorem insertChannel_taken {s : Store} {name nickname : String}
    (userId : Nat) (hname : name.length ≤ 50) (hnickname : nickname.length ≤ 50)
    (htaken : s.nicknameTaken nickname = true) :
    s.insertChannel name nickname userId = (.error .uniqueNickname, s) := by
  unfold Store.insertChannel
  rw [if_neg (by omega)]
  exact if_pos htaken

theorem shape_length {email base nickname : String} (hbase : IsBase email base)
    (hshape : nickname = base ∨ IsSuffixed base nickname) :
    base.length ≤ 50 ∧ nickname.length ≤ 50 := by
  have hlength := hbase.length
  unfold maxBaseLength at hlength
  rcases hshape with rfl | ⟨hex, hhex, rfl⟩
  · omega
  · have hline : "_".length = 1 := by decide
    rw [String.length_append, String.length_append, hhex.length]
    omega

section Call

variable {t : Nat} {request : ChannelRequest} {base nickname : String}

/-- A query that nobody makes fail. -/
theorem rivals_fault {op : AuthOp} {fault : Option AuthError}
    (h : fault.all (rivals.fault op) = true) : fault = none := by
  cases fault with
  | none => rfl
  | some e => exact nomatch h

theorem foundTaken_entry {s : Store} {amb : Moment} {channel : Channel}
    (hfind : s.channels.rows.find? (·.nickname == nickname) = some channel) :
    FoundTaken (channelSystem.entry t request amb
      (.findChannelByNickname false nickname) none s) := by
  refine ⟨rfl, rfl, rfl, ?_⟩
  rintro n ⟨htries, hfree⟩
  have hres : AuthOp.triesNickname (.findChannelByNickname false nickname)
      (.ok (s.channels.rows.find? (·.nickname == nickname))) = some n := htries
  rw [hfind] at hres
  cases hres
  have htaken := nicknameTaken_eq_find s nickname
  rw [hfind] at htaken
  exact nomatch hfree.symm.trans htaken

/-- The loop in an aborted transaction: there is no attempt left, or the
next look-up fails. -/
theorem tryNicknames_aborted {mine : ChannelLog} {amb : Moment}
    (attempts : Nat)
    (hend : attempts = 0 → RaceOutcome request (.error .nicknameConflict) mine)
    (hnext : attempts ≠ 0 → ¬ InsertsInTime mine) :
    follows channelSystem rivals (fun _ _ => True) t request
      (RaceOutcome request)
      (tryNicknames request.userId base attempts true nickname) amb mine := by
  cases attempts with
  | zero => exact hend rfl
  | succ attempts =>
      apply follows_call trivial
      · intro amb' fault s e hfault hanswer
        cases rivals_fault hfault
        cases hanswer
        apply RaceOutcome.aborted
        intro htime
        exact hnext (Nat.succ_ne_zero attempts) htime.2
      · exact fun _ _ _ _ hexec => nomatch hexec

/-- The insert after a look-up that found nobody, and what follows it. -/
theorem saveChannel_follows {mine : ChannelLog} {amb : Moment}
    {attempts : Nat} (hbase : IsBase request.email base)
    (hshape : nickname = base ∨ IsSuffixed base nickname)
    (hmine : ∀ z ∈ mine, z.op.insertedNickname = none)
    (htaken : ∀ z ∈ mine, ∀ n, ¬ Free z n)
    (hlength : (triedNames mine).length + attempts = maxRetries + 1)
    {f : Option Channel → AuthProg Channel}
    (hsome : ∀ channel, f (some channel) = Prog.pure channel)
    (hnone : f none = Prog.ask fun moment =>
      tryNicknames request.userId base attempts true
        (appendRandomSuffix moment base)) :
    follows channelSystem rivals (fun _ _ => True) t request
      (RaceOutcome request)
      (Prog.tryCatch
        (await (.insertChannel base nickname request.userId) >>=
          fun channel => Prog.pure (some channel))
        (fun err =>
          if err = .uniqueNickname then Prog.pure none else Prog.throw err) >>=
        f) amb mine := by
  obtain ⟨hname, hnickname⟩ := shape_length hbase hshape
  apply follows_bind
  apply follows_tryCatch
  apply follows_call trivial
  · intro amb' fault s e hfault hanswer
    cases rivals_fault hfault
    change (s.insertChannel base nickname request.userId).1 = .error e
      at hanswer
    cases hcase : s.nicknameTaken nickname with
    | false =>
        rcases insertChannel_free base request.userId hcase with
          heq | ⟨_, _, heq⟩
        · rw [heq] at hanswer
          cases hanswer
          intro _
          refine .refused hbase hshape rfl ⟨rfl, hcase⟩ ?_ hmine
          show (s.insertChannel base nickname request.userId).1.isOk = false
          rw [heq]
          rfl
        · rw [heq] at hanswer
          exact nomatch hanswer
    | true =>
        rw [insertChannel_taken request.userId hname hnickname hcase] at hanswer
        cases hanswer
        intro _ amb''
        show follows channelSystem rivals (fun _ _ => True) t request
          (RaceOutcome request) (f (none : Option Channel)) amb'' _
        rw [hnone]
        apply tryNicknames_aborted
        · intro hzero
          rw [hzero, Nat.add_zero] at hlength
          apply RaceOutcome.exhausted
          · intro z hz n hfree
            rcases List.mem_cons.1 hz with rfl | hz
            · cases hfree.1
              exact nomatch hcase.symm.trans hfree.2
            · exact htaken z hz n hfree
          · exact ⟨fun _ _ _ => hlength, insertsInTime_of_none hmine⟩
        · intro hmore htime
          have hall := htime.1 nickname rfl hcase
          omega
  · intro amb' s (channel : Channel) _ hexec amb''
    change (s.insertChannel base nickname request.userId).1 = .ok channel
      at hexec
    show follows channelSystem rivals (fun _ _ => True) t request
      (RaceOutcome request) (f (some channel)) amb'' _
    rw [hsome]
    obtain ⟨hgot, huser⟩ := channel_of_insertChannel hexec
    refine .created hbase hshape rfl ⟨rfl, ?_⟩ ?_ huser hgot hmine
    · cases hcase : s.nicknameTaken nickname with
      | false => exact hcase
      | true =>
          rw [insertChannel_taken request.userId hname hnickname hcase] at hexec
          exact nomatch hexec
    · show AuthOp.insertedChannel (.insertChannel base nickname request.userId)
        (s.insertChannel base nickname request.userId).1 = some channel
      rw [hexec]
      rfl

/-- The loop, after look-ups that have each found somebody. -/
theorem tryNicknames_follows (hbase : IsBase request.email base)
    (attempts : Nat) :
    ∀ (nickname : String) (amb : Moment) (mine : ChannelLog),
      (nickname = base ∨ IsSuffixed base nickname) →
      (∀ z ∈ mine, FoundTaken z) → mine.length + attempts = maxRetries + 1 →
      follows channelSystem rivals (fun _ _ => True) t request
        (RaceOutcome request)
        (tryNicknames request.userId base attempts false nickname) amb
        mine := by
  induction attempts with
  | zero =>
      intro nickname amb mine _ hmine _
      exact .exhausted (fun x hx => (hmine x hx).taken)
        (insertsInTime_of_none fun x hx => (hmine x hx).inserted)
  | succ attempts ih =>
      intro nickname amb mine hshape hmine hlength
      apply follows_call trivial
      · intro amb' fault s e hfault hanswer
        cases rivals_fault hfault
        exact nomatch hanswer
      · intro amb' s existing _ hexec
        have hfind : s.channels.rows.find? (·.nickname == nickname) =
          existing := Except.ok.inj hexec
        cases existing with
        | some channel =>
            apply ih
            · exact .inr (appendRandomSuffix_isSuffixed amb' hbase.length.2)
            · intro z hz
              rcases List.mem_cons.1 hz with rfl | hz
              · exact foundTaken_entry hfind
              · exact hmine z hz
            · rw [List.length_cons]
              omega
        | none =>
            refine saveChannel_follows hbase hshape ?_ ?_ ?_
              (fun _ => rfl) rfl
            · intro z hz
              rcases List.mem_cons.1 hz with rfl | hz
              · rfl
              · exact (hmine z hz).inserted
            · intro z hz n hfree
              rcases List.mem_cons.1 hz with rfl | hz
              · have hres : AuthOp.triesNickname
                  (.findChannelByNickname false nickname)
                  (.ok (s.channels.rows.find? (·.nickname == nickname))) =
                    some n := hfree.1
                rw [hfind] at hres
                exact nomatch hres
              · exact (hmine z hz).taken n hfree
            · have hnames := triedNames_length hmine
              show (nickname :: triedNames mine).length + attempts = _
              rw [List.length_cons, hnames]
              omega

theorem createChannel_follows (t : Nat) (request : ChannelRequest)
    (amb : Moment) :
    follows channelSystem rivals (fun _ _ => True) t request
      (RaceOutcome request) (channelSystem.body request) amb [] := by
  apply tryNicknames_follows (sanitizeNickname_isBase amb request.email)
  · exact .inl rfl
  · exact fun z hz => nomatch hz
  · exact Nat.zero_add _

end Call

/-! ## All calls -/

/-- A call looks nicknames up, and adds a channel of its own user. -/
def ChannelRequest.MayCall (request : ChannelRequest) : AuthOp → Prop
  | .findChannelByNickname _ _ => True
  | .insertChannel _ _ userId => userId = request.userId
  | _ => False

theorem createChannel_mayCall (request : ChannelRequest) :
    (channelSystem.body request).Issues request.MayCall :=
  fun _ => tryNicknames_issues (fun _ _ => trivial) (fun _ => rfl) _ _ _

/-- The users of the calls are there, each has one call, and none has a
channel before its call has inserted it. -/
structure Awaited (c : ChannelRun) : Prop where
  users : ∀ th ∈ c.threads, c.state.hasUser th.request.userId
  distinct : ∀ (t t' : Nat) (th th' : ChannelThread), c.threads[t]? = some th →
    c.threads[t']? = some th' → th.request.userId = th'.request.userId → t = t'
  channels : ∀ (t : Nat) (th : ChannelThread), c.threads[t]? = some th →
    c.state.hasChannel th.request.userId →
      ∃ x ∈ own t c.log, x.op.insertedNickname ≠ none

section Runs

variable {s₀ : Store} {b c : ChannelRun}

theorem users_of_mayCall {request : ChannelRequest} {op : AuthOp}
    (hcall : request.MayCall op) (m : Moment) (s : Store) :
    (Store.exec m op s).2.users = s.users := by
  apply users_exec
  cases op with
  | findChannelByNickname aborted nickname => rfl
  | insertChannel name nickname userId => rfl
  | _ => exact hcall.elim

/-- A channel that a call has added is its own user's. -/
theorem owner_of_mayCall {request : ChannelRequest} {op : AuthOp}
    (hcall : request.MayCall op) {m : Moment} {s : Store} {ch : Channel}
    (h : op.insertedChannel (Store.exec m op s).1 = some ch) :
    ch.user_id = request.userId ∧ op.insertedNickname ≠ none := by
  cases op with
  | insertChannel name nickname userId =>
      change (AuthOp.insertChannel name nickname userId).insertedChannel
        (s.insertChannel name nickname userId).1 = some ch at h
      refine ⟨?_, nofun⟩
      cases hinsert : (s.insertChannel name nickname userId).1 with
      | error e =>
          rw [hinsert] at h
          exact nomatch h
      | ok channel =>
          rw [hinsert] at h
          cases h
          have huser : userId = request.userId := hcall
          rw [(channel_of_insertChannel hinsert).2, huser]
  | _ => exact nomatch h

theorem Awaited.spawn (h : Awaited b) {request : ChannelRequest}
    (haccept : rivals.accepts b request) (amb : Moment) :
    Awaited (channelSystem.spawn b request amb) := by
  obtain ⟨hfresh, huser, hnone⟩ := haccept
  have hnew : ∀ th ∈ b.threads, th.request.userId ≠ request.userId := hfresh
  constructor
  · intro th hth
    rcases List.mem_append.1 hth with hth | hth
    · exact h.users th hth
    · rw [List.mem_singleton.1 hth]
      exact huser
  · intro t t' th th' hth hth' heq
    rcases System.thread_of_spawn hth with hold | ⟨rfl, rfl⟩
    · rcases System.thread_of_spawn hth' with hold' | ⟨rfl, rfl⟩
      · exact h.distinct t t' th th' hold hold' heq
      · exact absurd heq (hnew th (List.mem_of_getElem? hold))
    · rcases System.thread_of_spawn hth' with hold' | ⟨rfl, rfl⟩
      · exact absurd heq.symm (hnew th' (List.mem_of_getElem? hold'))
      · rfl
  · intro t th hth hchannel
    rcases System.thread_of_spawn hth with hold | ⟨rfl, rfl⟩
    · exact h.channels t th hold hchannel
    · exact absurd hchannel hnone

theorem Awaited.perform (h : Awaited b) {u : Nat} {request : ChannelRequest}
    {op : AuthOp} {k : Except AuthError op.Res → AuthProg Channel}
    (hcall : request.MayCall op) (amb : Moment)
    (hthread : b.threads[u]? = some ⟨request, .await op k⟩) :
    Awaited (channelSystem.perform b u request amb op k none) := by
  have hold : ∀ (t : Nat) (th : ChannelThread),
      (channelSystem.perform b u request amb op k none).threads[t]? = some th →
      ∃ th', b.threads[t]? = some th' ∧ th'.request = th.request := by
    intro t th hth
    rcases System.thread_of_perform hthread hth with ⟨_, hth⟩ | ⟨rfl, rfl⟩
    · exact ⟨th, hth, rfl⟩
    · exact ⟨_, hthread, rfl⟩
  constructor
  · intro th hth
    obtain ⟨t, ht⟩ := List.mem_iff_getElem?.1 hth
    obtain ⟨th', hth', hrequest⟩ := hold t th ht
    show ∃ v ∈ (Store.exec amb op b.state).2.users.rows, _
    rw [users_of_mayCall hcall, ← hrequest]
    exact h.users th' (List.mem_of_getElem? hth')
  · intro t t' th th' hth hth' heq
    obtain ⟨a, ha, hrequest⟩ := hold t th hth
    obtain ⟨a', ha', hrequest'⟩ := hold t' th' hth'
    rw [← hrequest, ← hrequest'] at heq
    exact h.distinct t t' a a' ha ha' heq
  · rintro t th hth ⟨ch, hch, hid⟩
    obtain ⟨a, ha, hrequest⟩ := hold t th hth
    rw [← hrequest] at hid
    have hsuffix : b.log <:+
        (channelSystem.perform b u request amb op k none).log :=
      List.suffix_cons _ _
    rcases mem_channels_exec.2 ch hch with hch | ⟨_, _, hinserted⟩
    · obtain ⟨x, hx, hop⟩ := h.channels t a ha ⟨ch, hch, hid⟩
      exact ⟨x, own_mono hsuffix hx, hop⟩
    · obtain ⟨howner, hop⟩ := owner_of_mayCall hcall hinserted
      have htu : t = u :=
        h.distinct t u a _ ha hthread (hid.symm.trans howner)
      exact ⟨_, mem_own.2 ⟨.head _, htu.symm⟩, hop⟩

theorem awaited_of_reachable (h : Reachable channelSystem rivals s₀ c) :
    Awaited c := by
  induction h with
  | refl =>
      exact ⟨fun th hth => (nomatch hth), fun t t' th th' hth => (nomatch hth),
        fun t th hth => (nomatch hth)⟩
  | @tail b c hb hstep ih =>
      have hreach : Reachable channelSystem rivals s₀ b := hb
      cases hstep with
      | spawn request amb haccept => exact ih.spawn haccept amb
      | @perform u request op k amb fault hthread _ hfault =>
          cases rivals_fault hfault
          have hcalls := hreach.atCalls (Q := fun request op _ =>
            request.MayCall op) createChannel_mayCall hthread
          exact ih.perform hcalls.1 amb hthread

/-- A channel that was added stays. -/
theorem channel_of_inserted (h : Reachable channelSystem rivals s₀ c)
    {x : ChannelEntry} (hx : x ∈ c.log) {channel : Channel}
    (hchannel : x.op.insertedChannel x.res = some channel) :
    channel ∈ c.state.channels.rows := by
  have hall : ∀ x ∈ c.log, ∀ channel, x.op.insertedChannel x.res =
      some channel → channel ∈ c.state.channels.rows := by
    apply h.answers (fun s (log : ChannelLog) => ∀ x ∈ log, ∀ channel,
      x.op.insertedChannel x.res = some channel → channel ∈ s.channels.rows)
    · exact fun x hx => nomatch hx
    · intro b b' t request m op fault _ _ hinv _ hlog x hx channel hinserted
      rw [hlog] at hx
      cases fault with
      | some e =>
          rcases List.mem_cons.1 hx with rfl | hx
          · cases op <;> exact nomatch hinserted
          · exact hinv x hx channel hinserted
      | none =>
          rcases List.mem_cons.1 hx with rfl | hx
          · exact mem_of_insertedChannel hinserted
          · exact mem_channels_exec.1 channel (hinv x hx channel hinserted)
  exact hall x hx channel hchannel

theorem insertChannel_isOk {s : Store} {name nickname : String} {userId : Nat}
    (hname : name.length ≤ 50) (hnickname : nickname.length ≤ 50)
    (hfree : s.nicknameTaken nickname = false) (huser : s.hasUser userId)
    (hnone : ¬ s.hasChannel userId) :
    (s.insertChannel name nickname userId).1.isOk = true := by
  have hopen : s.channels.rows.any (·.nickname == nickname) = false := hfree
  have hchannels : s.channels.rows.any (·.user_id == userId) = false := by
    rw [List.any_eq_false]
    intro ch hch heq
    exact hnone ⟨ch, hch, beq_iff_eq.1 heq⟩
  obtain ⟨u, hu⟩ := Store.hasUser_iff.1 huser
  unfold Store.insertChannel
  rw [if_neg (by omega), hopen, hchannels, hu]
  rfl

/-- An insert under a free nickname is not refused. -/
theorem not_refused (h : Reachable channelSystem rivals s₀ c) {t : Nat}
    {request : ChannelRequest} {base nickname : String} {y : ChannelEntry}
    {older : ChannelLog} (hs : (y :: older) <:+ own t c.log)
    (hbase : IsBase request.email base)
    (hshape : nickname = base ∨ IsSuffixed base nickname)
    (hop : y.op = .insertChannel base nickname request.userId)
    (hfree : Free y nickname)
    (holder : ∀ z ∈ older, z.op.insertedNickname = none) :
    y.res.isOk = true := by
  have htid : y.tid = t := (mem_own.1 (hs.subset (.head _))).2
  obtain ⟨rest, hrest, hmine⟩ := of_suffix_own hs
  obtain ⟨b, fault, k, hb, hlog, hat, _⟩ := h.split_at hrest
  have hawaited := awaited_of_reachable hb
  have hcalls := hb.atCalls (Q := fun request op _ => request.MayCall op)
    createChannel_mayCall hat.thread
  have huser : request.userId = y.request.userId := by
    have hcall : y.request.MayCall y.op := hcalls.1
    rw [hop] at hcall
    exact hcall
  have hbefore : y.before = b.state := hat.before_eq
  have hnone : ¬ b.state.hasChannel request.userId := by
    intro hchannel
    rw [huser] at hchannel
    obtain ⟨x, hx, hinserted⟩ :=
      hawaited.channels y.tid _ hat.thread hchannel
    rw [htid, hlog, hmine] at hx
    exact hinserted (holder x hx)
  have hhas : b.state.hasUser request.userId := by
    rw [huser]
    exact hawaited.users _ (List.mem_of_getElem? hat.thread)
  obtain ⟨hname, hnickname⟩ := shape_length hbase hshape
  have hopen := hfree.2
  rw [hbefore] at hopen
  rw [hat.eq, rivals_fault hat.allowed]
  show (Store.exec y.amb y.op b.state).1.isOk = true
  rw [hop]
  exact insertChannel_isOk hname hnickname hopen hhas hnone

/--
**Nickname races.**  In every run of calls for different users, and for every
random suffix: a call that has ended has resolved its race exactly when none of
its inserts before that of the last attempt found its nickname taken.
-/
theorem raceResolved_iff (h : Reachable channelSystem rivals s₀ c) {t : Nat}
    {request : ChannelRequest} {r : Except AuthError Channel}
    (hth : c.threads[t]? = some ⟨request, Prog.ofExcept r⟩) :
    RaceResolved request (own t c.log) r c.state ↔
      InsertsInTime (own t c.log) := by
  have houtcome := h.follows_result createChannel_follows hth
  generalize hmine : own t c.log = mine at houtcome ⊢
  cases houtcome with
  | @refused base nickname y older hbase hshape hop hfree hfailed holder =>
      have hs : (y :: older) <:+ own t c.log := ⟨[], hmine.symm⟩
      have hok := not_refused h hs hbase hshape hop hfree holder
      exact nomatch hfailed.symm.trans hok
  | @created base nickname channel y older hbase hshape hop hfree hchannel
      howner hname holder =>
      have hy : y ∈ own t c.log := by
        rw [hmine]
        exact .head _
      have hrow := channel_of_inserted h (mem_own.1 hy).1 hchannel
      constructor
      · intro _
        refine ⟨?_, insertsInTime_of_none holder⟩
        intro n hn htaken
        rw [hop] at hn
        cases hn
        exact nomatch hfree.2.symm.trans htaken
      · intro _
        refine ⟨fun _ => ⟨channel, hrow, rfl, howner, ?_, base, hbase, ?_⟩,
          nofun, nofun⟩
        · rw [hname]
          exact ⟨y, .head _, hfree⟩
        · rw [hname]
          exact hshape
  | exhausted hfree htime =>
      refine ⟨fun _ => htime, fun _ => ⟨?_, nofun, nofun⟩⟩
      rintro ⟨x, hx, nickname, hopen⟩
      exact absurd hopen (hfree x hx nickname)
  | aborted htime =>
      exact ⟨fun hresolved => absurd rfl hresolved.contained.2,
        fun hin => absurd hin htime⟩

end Runs

instance (c : ChannelRun) (request : ChannelRequest) :
    Decidable (rivals.accepts c request) :=
  inferInstanceAs (Decidable
    ((∀ th ∈ c.threads, th.request.userId ≠ request.userId) ∧
      (∃ u ∈ c.state.users.rows, u.id = request.userId) ∧
      ¬ c.state.hasChannel request.userId))

/-- Two users whose addresses have the same local part. -/
def rivalStore : Store where
  users := (({} : Table User User.id).insert
    ⟨0, "u@a", ⟨"correctpassword", 0⟩, true⟩ rfl).insert
    ⟨1, "u@b", ⟨"correctpassword", 1⟩, true⟩ rfl

/-- Both calls arrive, and are then answered as `xs` says. -/
def rivalSchedule (xs : List (Tick Moment AuthError ChannelRequest)) :
    List (Tick Moment AuthError ChannelRequest) :=
  .spawn ⟨0, "u@a"⟩ { now := 0 } ::
    .spawn ⟨1, "u@b"⟩ { now := 0 } :: xs

/-- Where that takes the process. -/
def rivalRun (xs : List (Tick Moment AuthError ChannelRequest))
    (h : (channelSystem.schedule rivals (Config.start rivalStore)
      (rivalSchedule xs)).isSome = true) : ChannelRun :=
  (channelSystem.schedule rivals (Config.start rivalStore)
    (rivalSchedule xs)).get h

theorem reachable_rivalRun (xs : List (Tick Moment AuthError ChannelRequest))
    (h : (channelSystem.schedule rivals (Config.start rivalStore)
      (rivalSchedule xs)).isSome = true)
    (hok : channelSystem.Admitted rivals (Config.start rivalStore)
      (rivalSchedule xs)) :
    Reachable channelSystem rivals rivalStore (rivalRun xs h) :=
  Reachable.of_schedule (rivalSchedule xs) h hok

/-- The second call looks its nickname up after the first has taken it. -/
def rivalsInTurn : ChannelRun :=
  rivalRun (Tick.answers 0 2 { now := 0 } ++ Tick.answers 1 3 { now := 0 })
    (by decide)

theorem raceResolved_inTurn :
    RaceResolved ⟨1, "u@b"⟩ (own 1 rivalsInTurn.log)
      (.ok ⟨1, "u", "u_000", 1⟩) rivalsInTurn.state := by
  have hreach : Reachable channelSystem rivals rivalStore rivalsInTurn :=
    reachable_rivalRun _ (by decide) (by decide)
  exact (raceResolved_iff hreach (by rfl)).2 (by decide)

/-- Both calls look the nickname up, and then both insert it. -/
def rivalsAtOnce : ChannelRun :=
  rivalRun (Tick.answers 0 1 { now := 0 } ++ Tick.answers 1 1 { now := 0 } ++
    Tick.answers 0 1 { now := 0 } ++ Tick.answers 1 2 { now := 0 })
    (by decide)

/-- The second call ends with the error of its aborted transaction, although
it had five more nicknames to try. -/
theorem race_lost :
    Reachable channelSystem rivals rivalStore rivalsAtOnce ∧
    rivalsAtOnce.threads[1]? = some ⟨⟨1, "u@b"⟩,
      Prog.ofExcept (.error .database)⟩ ∧
    ¬ RaceResolved ⟨1, "u@b"⟩ (own 1 rivalsAtOnce.log)
      (.error .database) rivalsAtOnce.state := by
  refine ⟨reachable_rivalRun _ (by decide) (by decide), by rfl, ?_⟩
  exact fun h => h.contained.2 rfl

end Videum.Auth
