import Videum.Auth.References

/-!
# What a registration leaves behind

`createUserWithChannel` adds a user and then, in a transaction of its own,
the user's channel; when that fails it deletes the user again.  This module
follows one `register` through both, whatever fails: when it ends, each user
it has added has got a channel, or the call has tried to delete it.

## Main results

* `register_wp` — the calls of a `register`, one by one.
* `registrations_of_reachable` — every run obeys the law, and every call that
  has ended has completed the users it has added.
-/

namespace Videum.Auth

open Videum.Async
open Videum.Common

namespace AuthOp

/-- The user a call has added. -/
def insertedUser : (op : AuthOp) → Except AuthError op.Res → Option UserEntity
  | insertUser _ _, .ok user => some user
  | _, _ => none

/-- The channel a call has added. -/
def insertedChannel : (op : AuthOp) → Except AuthError op.Res → Option Channel
  | insertChannel _ _ _, .ok channel => some channel
  | _, _ => none

/-- The call that adds a user. -/
def insertsUser : AuthOp → Bool
  | insertUser _ _ => true
  | _ => false

theorem insertedUser_of_not_inserts {op : AuthOp} (h : op.insertsUser = false)
    (res : Except AuthError op.Res) : op.insertedUser res = none := by
  cases op with
  | insertUser email password => exact nomatch h
  | _ => rfl

theorem insertedUser_error (op : AuthOp) (e : AuthError) :
    op.insertedUser (.error e) = none := by
  cases op <;> rfl

theorem eq_of_insertedUser {op : AuthOp} {res : Except AuthError op.Res}
    {user : UserEntity} (h : op.insertedUser res = some user) :
    ∃ email password, op = .insertUser email password := by
  cases op with
  | insertUser email password => exact ⟨email, password, rfl⟩
  | _ => exact nomatch h

end AuthOp

/-- A channel is added for a user who is there and has none. -/
theorem insertChannel_cases (s : Store) (name nickname : String)
    (userId : Nat) :
    (∃ e, s.insertChannel name nickname userId = (.error e, s)) ∨
    s.hasUser userId ∧ (∀ ch ∈ s.channels.rows, ch.user_id ≠ userId) ∧
    s.insertChannel name nickname userId =
      (.ok ⟨s.channels.nextId, name, nickname, userId⟩,
        { s with
          channels := s.channels.insert
            ⟨s.channels.nextId, name, nickname, userId⟩ rfl }) := by
  unfold Store.insertChannel
  split
  · exact .inl ⟨_, rfl⟩
  · split
    · exact .inl ⟨_, rfl⟩
    · split
      · exact .inl ⟨_, rfl⟩
      · next hfree =>
          rw [not_or, List.any_eq_true, not_exists, Option.isNone_iff_eq_none]
            at hfree
          refine .inr ⟨?_, ?_, rfl⟩
          · exact Store.hasUser_iff.2 (Option.ne_none_iff_exists'.1 hfree.2)
          · intro ch hch heq
            exact hfree.1 ch ⟨hch, by rw [heq, beq_self_eq_true]⟩

/-- The channel that is added is the one asked for. -/
theorem channel_of_insertChannel {s : Store} {name nickname : String}
    {userId : Nat} {channel : Channel}
    (h : (s.insertChannel name nickname userId).1 = .ok channel) :
    channel.nickname = nickname ∧ channel.user_id = userId := by
  rcases insertChannel_cases s name nickname userId with
    ⟨e, heq⟩ | ⟨_, _, heq⟩
  · rw [heq] at h
    exact nomatch h
  · rw [heq] at h
    cases h
    exact ⟨rfl, rfl⟩

/-- One of these answers has added the user `id`. -/
def Added (mine : AuthLog) (id : Nat) : Prop :=
  ∃ x ∈ mine, ∃ user, x.op.insertedUser x.res = some user ∧ user.id = id

/-- A user is deleted only by the thread that has added it. -/
def Registering (log : AuthLog) (t : Nat) (_ : AuthRequest) : AuthOp → Prop
  | .deleteUser id => Added (own t log) id
  | _ => True

/-- One of these answers has added a channel of the user `id`. -/
def GotChannel (mine : AuthLog) (id : Nat) : Prop :=
  ∃ x ∈ mine, ∃ channel, x.op.insertedChannel x.res = some channel ∧
    channel.user_id = id

/-- Each user added by these answers has got a channel, or was to be
deleted. -/
def Completed (mine : AuthLog) : Prop :=
  ∀ id, Added mine id → GotChannel mine id ∨ ∃ x ∈ mine, x.op = .deleteUser id

/-- These answers have added the user `id`, and no other. -/
def Pending (id : Nat) (mine : AuthLog) : Prop :=
  Added mine id ∧ ∀ id', Added mine id' → id' = id

section Answers

variable {x : AuthEntry} {mine : AuthLog} {id : Nat}

theorem GotChannel.cons (h : GotChannel mine id) (x : AuthEntry) :
    GotChannel (x :: mine) id := by
  obtain ⟨y, hy, channel⟩ := h
  exact ⟨y, .tail _ hy, channel⟩

theorem added_cons (hx : x.op.insertsUser = false) :
    Added (x :: mine) id ↔ Added mine id := by
  constructor
  · rintro ⟨y, hy, user, huser, hid⟩
    rcases List.mem_cons.1 hy with rfl | hy
    · rw [AuthOp.insertedUser_of_not_inserts hx] at huser
      exact nomatch huser
    · exact ⟨y, hy, user, huser, hid⟩
  · rintro ⟨y, hy, hrest⟩
    exact ⟨y, .tail _ hy, hrest⟩

theorem Completed.nil : Completed [] := by
  rintro id ⟨y, hy, _⟩
  exact nomatch hy

theorem Completed.cons (h : Completed mine) (hx : x.op.insertsUser = false) :
    Completed (x :: mine) := by
  intro id hadded
  rcases h id ((added_cons hx).1 hadded) with hchannel | ⟨y, hy, hop⟩
  · exact .inl (hchannel.cons x)
  · exact .inr ⟨y, .tail _ hy, hop⟩

theorem Pending.cons (h : Pending id mine) (hx : x.op.insertsUser = false) :
    Pending id (x :: mine) := by
  refine ⟨(added_cons hx).2 h.1, ?_⟩
  intro id' hadded
  exact h.2 id' ((added_cons hx).1 hadded)

theorem Pending.completed (h : Pending id mine)
    (hdone : GotChannel mine id ∨ ∃ x ∈ mine, x.op = .deleteUser id) :
    Completed mine := by
  intro id' hadded
  rw [h.2 id' hadded]
  exact hdone

end Answers

/-- Weakest precondition of a program that deletes only what it has added. -/
abbrev registering (cfg : AuthConfig) (P : AuthPolicy) (t : Nat)
    (request : AuthRequest) {α : Type}
    (post : Except AuthError α → Moment → AuthLog → Prop) (p : AuthProg α)
    (amb : Moment) (log : AuthLog) : Prop :=
  wpLaw (authSystem cfg) P (fun _ _ => True) Registering t request post p amb
    log

theorem registering_kept_by (cfg : AuthConfig) (P : AuthPolicy) :
    KeptBy (authSystem cfg) P (fun _ _ => True) Registering :=
  fun _ _ _ _ _ _ _ _ _ _ _ => trivial

section Programs

variable {cfg : AuthConfig} {P : AuthPolicy} {t : Nat}
  {request : AuthRequest} {amb : Moment} {log : AuthLog}

/-- A program that neither adds nor deletes users leaves none uncompleted. -/
theorem completed_wp {α : Type} {p : AuthProg α}
    (hp : p.Issues fun op : AuthOp => op.insertsUser = false ∧
      ∀ log, Registering log t request op)
    (h : Completed (own t log)) :
    registering cfg P t request (fun _ _ log => Completed (own t log)) p amb
      log := by
  apply wpLaw_own (registering_kept_by cfg P) (hp.mono ?_) h
  rintro op ⟨hop, hlaw⟩
  refine ⟨hlaw, ?_⟩
  rintro x mine rfl hmine
  exact hmine.cons hop

/-- The loop of `createChannel`: when it returns, the user has a channel. -/
theorem tryNicknames_wp {userId : Nat} {baseNickname : String}
    (attempts : Nat) (aborted : Bool) (nickname : String)
    (h : Pending userId (own t log)) :
    registering cfg P t request
      (fun result _ log => Pending userId (own t log) ∧
        (result.isOk = true → GotChannel (own t log) userId))
      (tryNicknames userId baseNickname attempts aborted nickname) amb
      log := by
  have hkept := registering_kept_by cfg P
  induction attempts generalizing aborted nickname amb log with
  | zero => exact ⟨h, nofun⟩
  | succ attempts ih =>
      apply wpLaw_step hkept
      · exact fun _ _ => trivial
      · intro log' s amb' fault e hothers _
        rw [own_entry, hothers.own_eq]
        exact ⟨h.cons rfl, nofun⟩
      · intro log₁ s₁ amb₁ fault₁ existing hothers₁ _ _ _
        have h₁ : Pending userId (own t ((authSystem cfg).entry t request amb₁
            (.findChannelByNickname aborted nickname) fault₁ s₁ :: log₁)) := by
          rw [own_entry, hothers₁.own_eq]
          exact h.cons rfl
        cases existing with
        | some channel => exact ih aborted _ h₁
        | none =>
            apply wp_bind
            apply wp_tryCatch
            apply wpLaw_step hkept
            · exact fun _ _ => trivial
            · intro log₂ s₂ amb₂ fault₂ e hothers₂ _
              have h₂ : Pending userId (own t ((authSystem cfg).entry t request
                  amb₂ (.insertChannel baseNickname nickname userId) fault₂ s₂
                    :: log₂)) := by
                rw [own_entry, hothers₂.own_eq]
                exact h₁.cons rfl
              dsimp only
              split
              · exact ih true _ h₂
              · exact ⟨h₂, nofun⟩
            · intro log₂ s₂ amb₂ fault₂ channel hothers₂ _ _ hanswer
              have hown := own_entry (authSystem cfg) t request amb₂
                (.insertChannel baseNickname nickname userId) fault₂ s₂ log₂
              rw [hothers₂.own_eq] at hown
              show Pending userId (own t _) ∧ _
              rw [hown]
              refine ⟨h₁.cons rfl, fun _ => ⟨_, .head _, channel, ?_, ?_⟩⟩
              · show (AuthOp.insertChannel baseNickname nickname
                  userId).insertedChannel ((authSystem cfg).answer amb₂
                    (.insertChannel baseNickname nickname userId) fault₂
                      s₂).1 = some channel
                rw [hanswer]
                rfl
              · cases fault₂ with
                | some e => exact nomatch hanswer
                | none => exact (channel_of_insertChannel hanswer).2

/-- A user is added with a channel, or is to be deleted. -/
theorem createUserWithChannel_registers {email : String}
    {password : PasswordHash} (hnone : ∀ id, ¬ Added (own t log) id) :
    registering cfg P t request (fun _ _ log => Completed (own t log))
      (createUserWithChannel email password) amb log := by
  have hkept := registering_kept_by cfg P
  apply wpLaw_step hkept
  · exact fun _ _ => trivial
  · intro log₁ s₁ amb₁ fault₁ e hothers₁ hanswer id hadded
    rw [own_entry, hothers₁.own_eq] at hadded
    obtain ⟨y, hy, user, huser, hid⟩ := hadded
    rcases List.mem_cons.1 hy with rfl | hy
    · change (AuthOp.insertUser email password).insertedUser
        ((authSystem cfg).answer amb₁ (.insertUser email password) fault₁
          s₁).1 = some user at huser
      rw [hanswer] at huser
      exact nomatch huser
    · exact absurd ⟨y, hy, user, huser, hid⟩ (hnone id)
  · intro log₁ s₁ amb₁ fault₁ user hothers₁ _ _ hanswer
    have hpending : Pending user.id (own t ((authSystem cfg).entry t request
        amb₁ (.insertUser email password) fault₁ s₁ :: log₁)) := by
      rw [own_entry, hothers₁.own_eq]
      have hinserted : (AuthOp.insertUser email password).insertedUser
          ((authSystem cfg).answer amb₁ (.insertUser email password) fault₁
            s₁).1 = some user := by
        rw [hanswer]
        rfl
      refine ⟨⟨_, .head _, user, hinserted, rfl⟩, ?_⟩
      rintro id ⟨y, hy, u, hu, rfl⟩
      rcases List.mem_cons.1 hy with rfl | hy
      · cases hinserted.symm.trans hu
        rfl
      · exact absurd ⟨y, hy, u, hu, rfl⟩ (hnone u.id)
    apply wp_tryCatch
    apply wp_bind
    apply wp_mono ?_ (tryNicknames_wp _ _ _ hpending)
    rintro r amb₂ log₂ ⟨hpending₂, hchannel⟩
    cases r with
    | ok channel => exact hpending₂.completed (.inl (hchannel rfl))
    | error e =>
        have hdeleted : ∀ (log' : AuthLog) (s : Store) (amb : Moment)
            (fault : Option AuthError), Others t log₂ log' →
            Completed (own t ((authSystem cfg).entry t request amb
              (.deleteUser user.id) fault s :: log')) := by
          intro log' s amb fault hothers
          rw [own_entry, hothers.own_eq]
          exact (hpending₂.cons rfl).completed (.inr ⟨_, .head _, rfl⟩)
        apply wpLaw_step hkept
        · intro log' hothers
          show Added (own t log') user.id
          rw [hothers.own_eq]
          exact hpending₂.1
        · exact fun log' s amb fault _ hothers _ =>
            hdeleted log' s amb fault hothers
        · exact fun log' s amb fault _ hothers _ _ _ =>
            hdeleted log' s amb fault hothers

theorem register_wp (dto : RegisterDto) (hown : own t log = []) :
    registering cfg P t request (fun _ _ log => Completed (own t log))
      (register cfg dto) amb log := by
  have hkept := registering_kept_by cfg P
  have hnone : ∀ id, ¬ Added (own t log) id := by
    rintro id ⟨y, hy, _⟩
    rw [hown] at hy
    exact nomatch hy
  -- nothing is added before the password is hashed
  have hnext : ∀ {x : AuthEntry} {mine : AuthLog}, x.op.insertsUser = false →
      (∀ id, ¬ Added mine id) → ∀ id, ¬ Added (x :: mine) id :=
    fun hx h id hadded => h id ((added_cons hx).1 hadded)
  have hcompleted : ∀ {mine : AuthLog}, (∀ id, ¬ Added mine id) →
      Completed mine := fun h id hadded => absurd hadded (h id)
  apply wpLaw_step hkept
  · exact fun _ _ => trivial
  · intro log₁ s₁ amb₁ fault₁ e hothers₁ _
    rw [own_entry, hothers₁.own_eq]
    exact hcompleted (hnext rfl hnone)
  · intro log₁ s₁ amb₁ fault₁ existing hothers₁ _ _ _
    have hnone₁ : ∀ id, ¬ Added (own t ((authSystem cfg).entry t request amb₁
        (.findUserByEmail dto.email) fault₁ s₁ :: log₁)) id := by
      rw [own_entry, hothers₁.own_eq]
      exact hnext rfl hnone
    cases existing with
    | some user => exact hcompleted hnone₁
    | none =>
        apply wpLaw_step hkept
        · exact fun _ _ => trivial
        · intro log₂ s₂ amb₂ fault₂ e hothers₂ _
          rw [own_entry, hothers₂.own_eq]
          exact hcompleted (hnext rfl hnone₁)
        · intro log₂ s₂ amb₂ fault₂ hashedPassword hothers₂ _ _ _
          have hnone₂ : ∀ id, ¬ Added (own t ((authSystem cfg).entry t request
              amb₂ (.hashPassword dto.password) fault₂ s₂ :: log₂)) id := by
            rw [own_entry, hothers₂.own_eq]
            exact hnext rfl hnone₁
          apply wp_bind
          apply wp_mono ?_ (createUserWithChannel_registers hnone₂)
          intro r amb₃ log₃ hdone
          cases r with
          | error e => exact hdone
          | ok pair =>
              apply completed_wp ?_ hdone
              apply Prog.Issues.bind
              · exact fun moment => issues_call_bind ⟨rfl, fun _ => trivial⟩
                  fun _ => trivial
              · exact fun rawToken => issues_call_bind ⟨rfl, fun _ => trivial⟩
                  fun _ => trivial

end Programs

/-- The request is a `register`. -/
def AuthRequest.registers : AuthRequest → Bool
  | .register _ => true
  | _ => false

/-- The other requests neither add nor delete users. -/
theorem registering_of_mayCall {request : AuthRequest}
    (hrequest : request.registers = false) {op : AuthOp}
    (h : request.MayCall op) : op.insertsUser = false ∧
      ∀ (log : AuthLog) (t : Nat), Registering log t request op := by
  cases request <;> cases op <;>
    first
    | exact ⟨rfl, fun _ _ => trivial⟩
    | exact h.elim
    | exact nomatch hrequest

theorem registrations_wp (cfg : AuthConfig) (P : AuthPolicy) (t : Nat)
    (request : AuthRequest) (amb : Moment) (log : AuthLog)
    (hown : own t log = []) :
    registering cfg P t request (fun _ _ log => Completed (own t log))
      (serve cfg request) amb log := by
  have hother : request.registers = false →
      registering cfg P t request (fun _ _ log => Completed (own t log))
        (serve cfg request) amb log := by
    intro hrequest
    apply completed_wp
    · apply (serve_mayCall cfg request).mono
      intro op hop
      obtain ⟨hinserts, hlaw⟩ := registering_of_mayCall hrequest hop
      exact ⟨hinserts, fun log => hlaw log t⟩
    · rw [hown]
      exact Completed.nil
  cases request with
  | register dto =>
      apply wp_map (register_wp dto hown)
      · exact fun _ _ _ h => h
      · exact fun _ _ _ h => h
  | _ => exact hother rfl

/-- Every run obeys the law, and a call that has ended has completed what it
has added. -/
theorem registrations_of_reachable {cfg : AuthConfig} {P : AuthPolicy}
    {s₀ : Store} {c : AuthRun} (h : Reachable (authSystem cfg) P s₀ c) :
    Obeyed Registering c.log ∧ ∀ t th, c.threads[t]? = some th →
      th.prog.running = false → Completed (own t c.log) := by
  have hlawful : Lawful (fun _ _ => True) Registering c.state c.log ∧ ∀ t th,
      c.threads[t]? = some th → ThreadSafe (authSystem cfg) P
        (Lawful (fun _ _ => True) Registering)
        (fun t _ _ _ log => Completed (own t log)) t th c.log := by
    apply h.lawful_threads trivial
    intro c request amb hc _ _
    apply registrations_wp
    exact hc.own_arriving
  refine ⟨hlawful.1.2, ?_⟩
  intro t th hth hended
  obtain ⟨_, _, mine, hothers, hdone⟩ :=
    h.ended hth (hlawful.2 t th hth) hended
  rw [hothers.own_eq]
  exact hdone

/-- A user that is added has the next primary key. -/
theorem id_of_insertedUser {m : Moment} {op : AuthOp} {s : Store}
    {user : UserEntity}
    (h : op.insertedUser (Store.exec m op s).1 = some user) :
    user.id = s.users.nextId ∧
      (Store.exec m op s).2.users.nextId = s.users.nextId + 1 := by
  obtain ⟨email, password, rfl⟩ := AuthOp.eq_of_insertedUser h
  change (AuthOp.insertUser email password).insertedUser
    (s.insertUser email password).1 = some user at h
  show user.id = s.users.nextId ∧
    (s.insertUser email password).2.users.nextId = s.users.nextId + 1
  rcases insertUser_cases s email password with heq | heq
  · rw [heq] at h
    exact nomatch h
  · rw [heq] at h ⊢
    cases h
    exact ⟨rfl, rfl⟩

/-- The users added in a run have primary keys of their own. -/
theorem added_range {cfg : AuthConfig} {P : AuthPolicy} {s₀ : Store}
    {c : AuthRun} (h : Reachable (authSystem cfg) P s₀ c) :
    s₀.users.nextId ≤ c.state.users.nextId ∧ ∀ id, Added c.log id →
      s₀.users.nextId ≤ id ∧ id < c.state.users.nextId := by
  apply h.answers (fun s log => s₀.users.nextId ≤ s.users.nextId ∧
    ∀ id, Added log id → s₀.users.nextId ≤ id ∧ id < s.users.nextId)
  · exact ⟨Nat.le_refl _, fun id ⟨x, hx, _⟩ => nomatch hx⟩
  · rintro b b' t request m op fault _ _ ⟨hle, hadded⟩ _ hlog
    cases fault with
    | some e =>
        refine ⟨hle, ?_⟩
        rintro id ⟨x, hx, user, huser, rfl⟩
        rw [hlog] at hx
        rcases List.mem_cons.1 hx with rfl | hx
        · have herror := AuthOp.insertedUser_error op e
          exact nomatch herror.symm.trans huser
        · exact hadded user.id ⟨x, hx, user, huser, rfl⟩
    | none =>
        have hnext := nextId_exec m op b.state
        refine ⟨Nat.le_trans hle hnext, ?_⟩
        rintro id ⟨x, hx, user, huser, rfl⟩
        rw [hlog] at hx
        show s₀.users.nextId ≤ user.id ∧
          user.id < (Store.exec m op b.state).2.users.nextId
        rcases List.mem_cons.1 hx with rfl | hx
        · have hinserted : op.insertedUser (Store.exec m op b.state).1 =
              some user := huser
          obtain ⟨hid, hnew⟩ := id_of_insertedUser hinserted
          omega
        · have hold := hadded user.id ⟨x, hx, user, huser, rfl⟩
          omega

end Videum.Auth
