import Videum.Async.Alone
import Videum.Auth.Service

/-!
# Nicknames

`ChannelsService.createChannel` (`channels/channels.service.ts`) and the names
it tries (`channels/nickname.util.ts`), for every address, every table and
every random suffix.

The base keeps at most 46 characters and a suffix adds four, so that every
candidate fits its column.  The loop makes six attempts: the base first, and
then five suffixed ones.

## Main results

* `sanitizeNickname_isBase`, `appendRandomSuffix_isSuffixed` — the shape of the
  names.
* `Candidates.isNickname` — each candidate matches `^[a-z0-9_]{1,50}$`.
* `tryNicknames_alone` — the outcome of the loop.
* `createChannel_spec` — what `createChannel` does when it runs alone.
-/

namespace Videum.Auth

open Videum.Async
open Videum.Common

/-! ## Characters -/

/-- `[a-z0-9_]`. -/
def isNicknameChar (c : Char) : Bool := c.isLower || c.isDigit || c == '_'

/-- `^[a-z0-9_]{1,50}$`. -/
structure IsNickname (nickname : String) : Prop where
  chars : ∀ c ∈ nickname.toList, isNicknameChar c = true
  length : 1 ≤ nickname.length ∧ nickname.length ≤ 50

theorem isLower_toLower {c : Char} (h : c.isUpper = true) :
    c.toLower.isLower = true := by
  have hrange : 'A'.val ≤ c.val ∧ c.val ≤ 'Z'.val := of_decide_eq_true h
  have hlow : 65 ≤ c.val.toNat := UInt32.le_iff_toNat_le.1 hrange.1
  have hhigh : c.val.toNat ≤ 90 := UInt32.le_iff_toNat_le.1 hrange.2
  have hval : c.toLower.val = c.val + ('a'.val - 'A'.val) := by
    unfold Char.toLower
    rw [dif_pos hrange]
  have hnat : c.toLower.val.toNat = c.val.toNat + 32 := by
    rw [hval, UInt32.toNat_add]
    show (c.val.toNat + 32) % 2 ^ 32 = _
    omega
  have ha : 'a'.val ≤ c.toLower.val := by
    apply UInt32.le_iff_toNat_le.2
    show 97 ≤ _
    omega
  have hz : c.toLower.val ≤ 'z'.val := by
    apply UInt32.le_iff_toNat_le.2
    show _ ≤ 122
    omega
  exact Bool.and_eq_true_iff.2 ⟨decide_eq_true ha, decide_eq_true hz⟩

theorem isNicknameChar_of_kept {c d : Char} (h : nicknameChar c = some d) :
    isNicknameChar d = true := by
  unfold nicknameChar at h
  split at h
  · cases h
    decide
  · split at h
    · cases h
      decide
    · split at h
      · next hkept =>
          cases h
          rcases hkept with hlower | hdigit | hline
          · simp only [isNicknameChar, hlower, Bool.true_or]
          · simp only [isNicknameChar, hdigit, Bool.true_or, Bool.or_true]
          · rw [hline]
            decide
      · split at h
        · next hupper =>
            cases h
            simp only [isNicknameChar, isLower_toLower hupper, Bool.true_or]
        · exact nomatch h

theorem isNicknameChar_hexDigit (d : Fin 16) :
    isNicknameChar (hexDigit d) = true := by
  revert d
  decide

theorem isNicknameChar_user :
    ∀ c ∈ "user_".toList, isNicknameChar c = true :=
  List.all_eq_true.1 (by decide)

/-! ## The shape of the names -/

/-- `n` hex digits. -/
def IsHex (n : Nat) (text : String) : Prop :=
  ∃ digits : List (Fin 16), digits.length = n ∧
    text = String.ofList (digits.map hexDigit)

/-- What is left of the local part of an address. -/
def keptChars (email : String) : List Char :=
  (emailPrefix email).toList.filterMap nicknameChar

/-- The local part, sanitized and cut, or a random name where nothing is
left. -/
def IsBase (email base : String) : Prop :=
  keptChars email ≠ [] ∧
    base = String.ofList ((keptChars email).take maxBaseLength) ∨
  keptChars email = [] ∧ ∃ hex, IsHex 8 hex ∧ base = "user_" ++ hex

/-- The base with an underscore and three hex digits. -/
def IsSuffixed (base nickname : String) : Prop :=
  ∃ hex, IsHex 3 hex ∧ nickname = base ++ "_" ++ hex

/-- The candidates of one call, newest first. -/
inductive Candidates (base : String) : List String → Prop
  | first : Candidates base [base]
  | next {nickname : String} {tried : List String} :
      Candidates base tried → IsSuffixed base nickname →
        Candidates base (nickname :: tried)

theorem isHex_randomHex (moment : Moment) (n : Nat) :
    IsHex n (randomHex moment n) := by
  refine ⟨(List.range n).map moment.hexDigits, ?_, ?_⟩
  · rw [List.length_map, List.length_range]
  · rw [List.map_map]
    rfl

theorem IsHex.length {n : Nat} {text : String} (h : IsHex n text) :
    text.length = n := by
  obtain ⟨digits, hlength, rfl⟩ := h
  rw [String.length_ofList, List.length_map, hlength]

theorem IsHex.chars {n : Nat} {text : String} (h : IsHex n text) :
    ∀ c ∈ text.toList, isNicknameChar c = true := by
  obtain ⟨digits, _, rfl⟩ := h
  rw [String.toList_ofList]
  intro c hc
  obtain ⟨d, _, rfl⟩ := List.mem_map.1 hc
  exact isNicknameChar_hexDigit d

theorem sanitizeNickname_isBase (moment : Moment) (email : String) :
    IsBase email (sanitizeNickname moment (emailPrefix email)) := by
  show IsBase email (if String.ofList ((keptChars email).take maxBaseLength) =
    "" then "user_" ++ randomHex moment 8 else
      String.ofList ((keptChars email).take maxBaseLength))
  by_cases hkept : keptChars email = []
  · right
    rw [hkept]
    exact ⟨rfl, randomHex moment 8, isHex_randomHex moment 8, rfl⟩
  · left
    refine ⟨hkept, if_neg ?_⟩
    intro hempty
    have hlist := congrArg String.toList hempty
    rw [String.toList_ofList] at hlist
    rcases List.take_eq_nil_iff.1 hlist with hzero | hnil
    · exact nomatch hzero
    · exact hkept hnil

theorem IsBase.length {email base : String} (h : IsBase email base) :
    1 ≤ base.length ∧ base.length ≤ maxBaseLength := by
  rcases h with ⟨hkept, rfl⟩ | ⟨_, hex, hhex, rfl⟩
  · have hpos := List.length_pos_iff.2 hkept
    rw [String.length_ofList, List.length_take]
    unfold maxBaseLength
    omega
  · rw [String.length_append, hhex.length]
    decide

theorem IsBase.chars {email base : String} (h : IsBase email base) :
    ∀ c ∈ base.toList, isNicknameChar c = true := by
  rcases h with ⟨_, rfl⟩ | ⟨_, hex, hhex, rfl⟩
  · rw [String.toList_ofList]
    intro c hc
    obtain ⟨d, _, hd⟩ := List.mem_filterMap.1 (List.mem_of_mem_take hc)
    exact isNicknameChar_of_kept hd
  · rw [String.toList_append]
    intro c hc
    rcases List.mem_append.1 hc with hc | hc
    · exact isNicknameChar_user c hc
    · exact hhex.chars c hc

/-- A base is not cut again. -/
theorem appendRandomSuffix_isSuffixed (moment : Moment) {base : String}
    (h : base.length ≤ maxBaseLength) :
    IsSuffixed base (appendRandomSuffix moment base) := by
  refine ⟨randomHex moment 3, isHex_randomHex moment 3, ?_⟩
  unfold appendRandomSuffix
  rw [List.take_of_length_le (by rwa [String.length_toList]),
    String.ofList_toList]

/-- The newest candidate is the base, or the base with a suffix. -/
theorem Candidates.newest {base nickname : String} {tried : List String}
    (h : Candidates base (nickname :: tried)) :
    nickname = base ∨ IsSuffixed base nickname := by
  cases h with
  | first => exact .inl rfl
  | next _ hsuffixed => exact .inr hsuffixed

/-- Four more characters than the base at most. -/
theorem Candidates.isNickname {email base nickname : String}
    {tried : List String} (hbase : IsBase email base)
    (h : Candidates base (nickname :: tried)) : IsNickname nickname := by
  have hlength := hbase.length
  unfold maxBaseLength at hlength
  rcases h.newest with rfl | ⟨hex, hhex, rfl⟩
  · exact ⟨hbase.chars, by omega⟩
  · constructor
    · rw [String.toList_append, String.toList_append]
      intro c hc
      rcases List.mem_append.1 hc with hc | hc
      · rcases List.mem_append.1 hc with hc | hc
        · exact hbase.chars c hc
        · rw [List.mem_singleton.1 hc]
          decide
      · exact hhex.chars c hc
    · rw [String.length_append, String.length_append, hhex.length]
      have hline : "_".length = 1 := by decide
      omega

/-! ## The loop -/

/-- A channel has the nickname. -/
def Store.nicknameTaken (s : Store) (nickname : String) : Bool :=
  s.channels.rows.any (·.nickname == nickname)

/-- The nickname a call looks up. -/
def AuthOp.triedNickname : AuthOp → Option String
  | .findChannelByNickname _ nickname => some nickname
  | _ => none

/-- The nicknames that were looked up, newest first. -/
def triedNames {γ : Type} (log : Log AuthIface Moment AuthError Store γ) :
    List String :=
  log.filterMap fun x => if x.res.isOk then x.op.triedNickname else none

/-- What `createChannel` ends in when it finds the tables in state `s`, has
tried the names `tried` and nobody else has changed anything. -/
inductive ChannelOutcome (userId : Nat) (email : String) (s : Store)
    (tried : List String) : Except AuthError Channel → Store → Prop
  | created {base nickname : String} {older : List String}
      {channel : Channel} {s' : Store} (hbase : IsBase email base)
      (hcandidates : Candidates base (nickname :: older))
      (htried : tried = nickname :: older)
      (hfree : s.nicknameTaken nickname = false)
      (hinsert : s.insertChannel base nickname userId = (.ok channel, s')) :
      ChannelOutcome userId email s tried (.ok channel) s'
  | conflict {base : String} (hbase : IsBase email base)
      (hcandidates : Candidates base tried)
      (hlength : tried.length = maxRetries + 1)
      (htaken : ∀ nickname ∈ tried, s.nicknameTaken nickname = true) :
      ChannelOutcome userId email s tried (.error .nicknameConflict) s
  | failed {e : AuthError} (he : e ≠ .nicknameConflict)
      (hopen : tried.length = maxRetries + 1 →
        ∃ nickname ∈ tried, s.nicknameTaken nickname = false) :
      ChannelOutcome userId email s tried (.error e) s

theorem triedNames_cons {γ : Type}
    {x : Entry AuthIface Moment AuthError Store γ}
    {log : Log AuthIface Moment AuthError Store γ}
    (hx : x.op.triedNickname = none) :
    triedNames (x :: log) = triedNames log := by
  unfold triedNames
  rw [List.filterMap_cons, hx, ite_self]

theorem nicknameTaken_eq_find (s : Store) (nickname : String) :
    s.nicknameTaken nickname =
      (s.channels.rows.find? (·.nickname == nickname)).isSome :=
  List.isSome_find?.symm

/-- A channel is added under a nickname that is free. -/
theorem insertChannel_free {s : Store} {nickname : String} (name : String)
    (userId : Nat) (hfree : s.nicknameTaken nickname = false) :
    s.insertChannel name nickname userId = (.error .database, s) ∨
    ∃ channel s', s.insertChannel name nickname userId = (.ok channel, s') := by
  unfold Store.insertChannel
  split
  · exact .inl rfl
  · split
    · next htaken => cases hfree.symm.trans htaken
    · split
      · exact .inl rfl
      · exact .inr ⟨_, _, rfl⟩

theorem Candidates.older {base nickname : String} {tried : List String}
    (h : Candidates base (nickname :: tried)) (htried : tried ≠ []) :
    Candidates base tried := by
  cases h with
  | first => exact absurd rfl htried
  | next hcandidates _ => exact hcandidates

section Loop

variable {γ β : Type} {S : System AuthIface Moment AuthError Store γ β}
  {P : Policy AuthIface Moment AuthError Store γ β} {t : Nat} {request : γ}
  {s : Store} {log : Log AuthIface Moment AuthError Store γ} {userId : Nat}
  {email base : String}

/-- No failure is mistaken for one of the loop's own errors. -/
def Plain (P : Policy AuthIface Moment AuthError Store γ β) : Prop :=
  ∀ op e, P.fault op e = true → e ≠ .uniqueNickname ∧ e ≠ .nicknameConflict

/-- The insert of a nickname that is free: there is no violation to
recover from. -/
theorem saveChannel_alone {nickname : String} {amb : Moment}
    (hS : S.exec = Store.exec) (hP : Plain P)
    (hfree : s.nicknameTaken nickname = false) :
    alone S P t request
      (fun r _ s' log' => ∃ y, log' = y :: log ∧ y.op.triedNickname = none ∧
        ((∃ channel, r = .ok (some channel) ∧
            s.insertChannel base nickname userId = (.ok channel, s')) ∨
          ∃ e, r = .error e ∧ e ≠ .nicknameConflict ∧ s' = s))
      (Prog.tryCatch
        (await (.insertChannel base nickname userId) >>= fun channel =>
          Prog.pure (some channel))
        fun err =>
          if err = .uniqueNickname then Prog.pure none else Prog.throw err)
      amb s log := by
  apply alone_tryCatch
  apply alone_call_any
  · intro amb' fault e _ hfault hanswer
    have hend : e ≠ .uniqueNickname ∧ e ≠ .nicknameConflict ∧
        (S.answer amb' (.insertChannel base nickname userId) fault s).2 = s := by
      cases fault with
      | some e' =>
          cases hanswer
          obtain ⟨hunique, hconflict⟩ := hP _ e hfault
          exact ⟨hunique, hconflict, rfl⟩
      | none =>
          change (S.exec amb' (.insertChannel base nickname userId) s).1 =
            .error e at hanswer
          show _ ∧ _ ∧
            (S.exec amb' (.insertChannel base nickname userId) s).2 = s
          rw [hS] at hanswer ⊢
          change (s.insertChannel base nickname userId).1 = .error e at hanswer
          show _ ∧ _ ∧ (s.insertChannel base nickname userId).2 = s
          rcases insertChannel_free base userId hfree with
            heq | ⟨_, _, heq⟩
          · rw [heq] at hanswer ⊢
            cases hanswer
            exact ⟨nofun, nofun, rfl⟩
          · rw [heq] at hanswer
            exact nomatch hanswer
    obtain ⟨hunique, hconflict, hsame⟩ := hend
    dsimp only
    rw [if_neg hunique, hsame]
    exact ⟨_, rfl, rfl, .inr ⟨e, rfl, hconflict, rfl⟩⟩
  · intro amb' channel _ hexec
    rw [hS] at hexec ⊢
    change (s.insertChannel base nickname userId).1 = .ok channel at hexec
    exact ⟨_, rfl, rfl, .inl ⟨channel, rfl, Prod.ext hexec rfl⟩⟩

/-- The loop, when nobody else changes the tables: what was tried so far is
taken. -/
theorem tryNicknames_alone (hS : S.exec = Store.exec) (hP : Plain P)
    (hbase : IsBase email base) (attempts : Nat) :
    ∀ (nickname : String) (amb : Moment)
      (newer : Log AuthIface Moment AuthError Store γ),
      Candidates base (nickname :: triedNames newer) →
      (triedNames newer).length + attempts = maxRetries + 1 →
      (∀ n ∈ triedNames newer, s.nicknameTaken n = true) →
      alone S P t request
        (fun r _ s' log' => ∃ newer, log' = newer ++ log ∧
          ChannelOutcome userId email s (triedNames newer) r s')
        (tryNicknames userId base attempts false nickname) amb s
        (newer ++ log) := by
  induction attempts with
  | zero =>
      intro nickname amb newer hcandidates hlength htaken
      have hnonempty : triedNames newer ≠ [] := by
        intro hnil
        rw [hnil] at hlength
        exact nomatch hlength
      exact ⟨newer, rfl, .conflict hbase (hcandidates.older hnonempty) hlength
        htaken⟩
  | succ attempts ih =>
      intro nickname amb newer hcandidates hlength htaken
      apply alone_call_any
      · intro amb' fault e _ hfault hanswer
        cases fault with
        | none =>
            change (S.exec amb' (.findChannelByNickname false nickname) s).1 =
              .error e at hanswer
            rw [hS] at hanswer
            exact nomatch hanswer
        | some e' =>
            cases hanswer
            refine ⟨S.entry t request amb'
              (.findChannelByNickname false nickname) (some e) s :: newer,
              rfl, .failed (hP _ e hfault).2 ?_⟩
            intro hall
            have hsame : (triedNames newer).length = maxRetries + 1 := hall
            omega
      · intro amb' existing _ hexec
        have hstate : (S.exec amb' (.findChannelByNickname false nickname)
            s).2 = s := by
          rw [hS]
          rfl
        rw [hS] at hexec
        have hfind : s.channels.rows.find? (·.nickname == nickname) =
          existing := Except.ok.inj hexec
        have hlooked := nicknameTaken_eq_find s nickname
        rw [hfind] at hlooked
        rw [hstate]
        generalize hx : S.entry t request amb'
          (.findChannelByNickname false nickname) none s = x
        have hxs : triedNames (x :: newer) = nickname :: triedNames newer := by
          have hok : x.res.isOk = true := by
            rw [← hx]
            show (S.exec amb' (.findChannelByNickname false nickname)
              s).1.isOk = true
            rw [hS]
            rfl
          have hop : x.op = .findChannelByNickname false nickname := by
            rw [← hx]
            rfl
          unfold triedNames
          rw [List.filterMap_cons, if_pos hok, hop]
          rfl
        cases existing with
        | some ch =>
            apply ih _ amb' (x :: newer)
            · rw [hxs]
              exact .next hcandidates
                (appendRandomSuffix_isSuffixed amb' hbase.length.2)
            · rw [hxs, List.length_cons]
              omega
            · rw [hxs]
              intro n hn
              rcases List.mem_cons.1 hn with rfl | hn
              · exact hlooked
              · exact htaken n hn
        | none =>
            have hfree : s.nicknameTaken nickname = false := hlooked
            apply alone_bind
            apply alone_mono ?_ (saveChannel_alone hS hP hfree)
            rintro r amb'' s' log' ⟨y, rfl, hy, hend⟩
            rcases hend with ⟨channel, rfl, hinsert⟩ | ⟨e, rfl, he, rfl⟩
            · refine ⟨y :: x :: newer, rfl, ?_⟩
              rw [triedNames_cons hy, hxs]
              exact .created hbase hcandidates rfl hfree hinsert
            · refine ⟨y :: x :: newer, rfl, ?_⟩
              rw [triedNames_cons hy, hxs]
              exact .failed he fun _ => ⟨nickname, .head _, hfree⟩

/-- `createChannel`, when nobody else changes the tables. -/
theorem createChannel_alone (hS : S.exec = Store.exec) (hP : Plain P)
    (userId : Nat) (email : String) (amb : Moment) :
    alone S P t request
      (fun r _ s' log' => ∃ newer, log' = newer ++ log ∧
        ChannelOutcome userId email s (triedNames newer) r s')
      (createChannel userId email) amb s log := by
  show alone S P t request _
    (tryNicknames userId (sanitizeNickname amb (emailPrefix email))
      (maxRetries + 1) false (sanitizeNickname amb (emailPrefix email))) amb s
    ([] ++ log)
  apply tryNicknames_alone hS hP (sanitizeNickname_isBase amb email)
  · exact .first
  · exact Nat.zero_add _
  · exact fun n hn => nomatch hn

end Loop

/-! ## A call that runs alone -/

/-- A call to `createChannel`. -/
structure ChannelRequest where
  userId : Nat
  email : String
  deriving DecidableEq

/-- Calls to `createChannel`, each in a transaction of its own. -/
def channelSystem :
    System AuthIface Moment AuthError Store ChannelRequest Channel where
  exec := Store.exec
  guard _ _ _ _ := true
  body request := createChannel request.userId request.email

abbrev ChannelPolicy := Policy AuthIface Moment AuthError Store ChannelRequest
  Channel

abbrev ChannelRun := Config AuthIface Moment AuthError Store ChannelRequest
  Channel

/-- Any call at any time; any query may fail. -/
def queriesMayFail : ChannelPolicy where
  accepts _ _ := True
  fault _ e := e == .database

/-- The call finds the tables in state `s`, ends with `r` in `c'`, and no
other call arrives meanwhile. -/
def CreatesAlone (s : Store) (request : ChannelRequest)
    (r : Except AuthError Channel) (c' : ChannelRun) : Prop :=
  ∃ amb, Steps channelSystem queriesMayFail
      (channelSystem.spawn (Config.start s) request amb) c' ∧
    c'.threads = [⟨request, Prog.ofExcept r⟩]

/-- The one channel that a call has added, with `base` the name it started
from. -/
structure ChannelAdded (request : ChannelRequest) (base : String) (s : Store)
    (channel : Channel) (s' : Store) : Prop where
  isBase : IsBase request.email base
  rows : s'.channels.rows = s.channels.rows ++ [channel]
  others : s' = { s with channels := s'.channels }
  owner : channel.user_id = request.userId
  isNickname : IsNickname channel.nickname
  unique : ∀ other ∈ s.channels.rows, other.nickname ≠ channel.nickname
  shape : channel.nickname = base ∨ IsSuffixed base channel.nickname
  name : channel.name = base ∧ channel.name.length ≤ 50

theorem CreatesAlone.outcome {s : Store} {request : ChannelRequest}
    {r : Except AuthError Channel} {c' : ChannelRun}
    (h : CreatesAlone s request r c') :
    ChannelOutcome request.userId request.email s (triedNames c'.log) r
      c'.state := by
  obtain ⟨amb, hsteps, hthreads⟩ := h
  have hplain : Plain queriesMayFail := by
    intro op e he
    rw [beq_iff_eq.1 he]
    exact ⟨nofun, nofun⟩
  obtain ⟨_, newer, hlog, hend⟩ := hsteps.ended_alone rfl hthreads
    (createChannel_alone rfl hplain request.userId request.email amb)
  have hnewer : c'.log = newer := hlog.trans (List.append_nil newer)
  rw [hnewer]
  exact hend

/-- A channel that was inserted under a candidate. -/
theorem channelAdded_of_insert {s s' : Store} {request : ChannelRequest}
    {base nickname : String} {older : List String} {channel : Channel}
    (hbase : IsBase request.email base)
    (hcandidates : Candidates base (nickname :: older))
    (hfree : s.nicknameTaken nickname = false)
    (hinsert : s.insertChannel base nickname request.userId =
      (.ok channel, s')) : ChannelAdded request base s channel s' := by
  have hlength := hbase.length
  unfold maxBaseLength at hlength
  unfold Store.insertChannel at hinsert
  split at hinsert
  · cases hinsert
  · split at hinsert
    · cases hinsert
    · split at hinsert
      · cases hinsert
      · cases hinsert
        refine ⟨hbase, rfl, rfl, rfl, hcandidates.isNickname hbase, ?_,
          hcandidates.newest, rfl, by show base.length ≤ 50; omega⟩
        intro other hother heq
        have htaken : s.nicknameTaken nickname = true :=
          List.any_eq_true.2 ⟨other, hother, beq_iff_eq.2 heq⟩
        cases hfree.symm.trans htaken

/--
**Nickname generation.**  For every address, every table and every random
suffix, and whichever queries fail: a call to `createChannel` that runs alone
and returns has added one channel, under a nickname that fits and that nobody
had; it throws the conflict exactly when the six names it tried are taken; and
when it throws, nothing has changed.
-/
theorem createChannel_spec {s : Store} {request : ChannelRequest}
    {r : Except AuthError Channel} {c' : ChannelRun}
    (h : CreatesAlone s request r c') :
    (∀ channel, r = .ok channel →
      ∃ base, ChannelAdded request base s channel c'.state) ∧
    (r = .error .nicknameConflict ↔
      ∃ base, IsBase request.email base ∧
        Candidates base (triedNames c'.log) ∧
        (triedNames c'.log).length = 6 ∧
        ∀ nickname ∈ triedNames c'.log, s.nicknameTaken nickname = true) ∧
    (∀ e, r = .error e → c'.state = s) := by
  have houtcome := h.outcome
  generalize c'.state = s' at houtcome ⊢
  generalize triedNames c'.log = tried at houtcome ⊢
  cases houtcome with
  | @created base nickname older channel s' hbase hcandidates htried hfree
      hinsert =>
      subst htried
      refine ⟨?_, ⟨nofun, ?_⟩, nofun⟩
      · rintro _ ⟨⟩
        exact ⟨base, channelAdded_of_insert hbase hcandidates hfree hinsert⟩
      · rintro ⟨_, _, _, _, htaken⟩
        exact nomatch hfree.symm.trans (htaken nickname (.head _))
  | @conflict base hbase hcandidates hlength htaken =>
      exact ⟨nofun, ⟨fun _ => ⟨base, hbase, hcandidates, hlength, htaken⟩,
        fun _ => rfl⟩, fun _ _ => rfl⟩
  | failed he hopen =>
      refine ⟨nofun, ⟨fun heq => absurd (Except.error.inj heq) he, ?_⟩,
        fun _ _ => rfl⟩
      rintro ⟨_, _, _, hlength, htaken⟩
      obtain ⟨nickname, hmem, hfree⟩ := hopen hlength
      exact nomatch hfree.symm.trans (htaken nickname hmem)

/-- A user without a channel, and somebody else's channel `user`. -/
def namesakeStore : Store where
  users := ({} : Table User User.id).insert sampleUser id_sampleUser
  channels := ({} : Table Channel Channel.id).insert ⟨0, "user", "user", 7⟩ rfl

/-- The base is taken, the first suffix is not. -/
def namesakeRun : Option ChannelRun :=
  channelSystem.schedule queriesMayFail
    (channelSystem.spawn (Config.start namesakeStore) ⟨0, sampleEmail⟩ {})
    (Tick.answers 0 3 {})

theorem channelAdded_namesake :
    ∃ c' ∈ namesakeRun, ∃ base, ChannelAdded ⟨0, sampleEmail⟩ base
      namesakeStore ⟨1, "user", "user_000", 0⟩ c'.state := by
  have hsome : namesakeRun.isSome = true := by decide
  have hsteps : Steps channelSystem queriesMayFail
      (channelSystem.spawn (Config.start namesakeStore) ⟨0, sampleEmail⟩ {})
      (namesakeRun.get hsome) :=
    Steps.of_schedule (Tick.answers 0 3 {}) (Option.some_get hsome).symm
      (System.admitted_of_forall _ (fun _ _ _ _ => trivial) _)
  have halone : CreatesAlone namesakeStore ⟨0, sampleEmail⟩
      (.ok ⟨1, "user", "user_000", 0⟩) (namesakeRun.get hsome) :=
    ⟨{}, hsteps, by rfl⟩
  exact ⟨namesakeRun.get hsome, Option.get_mem hsome,
    (createChannel_spec halone).1 _ rfl⟩

end Videum.Auth
