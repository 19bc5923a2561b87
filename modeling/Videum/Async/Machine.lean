import Mathlib.Logic.Relation
import Videum.Async.Prog

/-!
# The machine that runs asynchronous programs

A `System` answers awaited calls against one shared state and says which
program serves which request.  A `Config` is a running process: the shared
state, one thread per request received so far, and the log of every answered
call with the state before and after it.  The log is a history variable: no
program reads it, but it lets a property of a whole run be stated about the
configuration at its end.

`Step` interleaves the threads at awaited calls, in any order.  A `Policy`
says which requests may arrive and which failures may happen, so that one
machine serves runs of different generality: any interleaving, or one
request after another (`Config.idle`), with or without failures.

Two assumptions are built in.  A call that fails has no effect: that a service
did what it was asked for and only its answer was lost is left out.  And a call
is one attempt: what a client library repeats by itself counts as the call that
was answered in the end.

## Main results

* `Steps.of_schedule` — running a concrete schedule is a run of the machine.
* `Reachable.induct` — the invariant rule for all reachable configurations.
* `Reachable.thread_induct` — the same rule for the threads one by one.
-/

namespace Videum.Async

/-- How calls are answered and which program serves which request. -/
structure System (I : Iface) (A ε σ γ α : Type) where
  /-- The answer to a call and the state after it. -/
  exec : A → (op : I.Op) → σ → Except ε (I.Res op) × σ
  /-- What the outside world guarantees when a call of a request takes
  effect. -/
  guard : γ → A → I.Op → σ → Bool
  /-- The program serving a request. -/
  body : γ → Prog I A ε α

variable {I : Iface} {A ε σ γ α : Type}

/-- One answered call. -/
structure Entry (I : Iface) (A ε σ γ : Type) where
  tid : Nat
  request : γ
  amb : A
  op : I.Op
  before : σ
  res : Except ε (I.Res op)
  after : σ

/-- The calls answered so far, newest first. -/
abbrev Log (I : Iface) (A ε σ γ : Type) := List (Entry I A ε σ γ)

/-- A request being served, with what is left of its program. -/
structure Thread (I : Iface) (A ε γ α : Type) where
  request : γ
  prog : Prog I A ε α

/-- A running process. -/
structure Config (I : Iface) (A ε σ γ α : Type) where
  state : σ
  threads : List (Thread I A ε γ α)
  log : Log I A ε σ γ

namespace Config

/-- No request received yet. -/
def start (s : σ) : Config I A ε σ γ α := ⟨s, [], []⟩

/-- No thread waits for an answer. -/
def idle (c : Config I A ε σ γ α) : Bool :=
  c.threads.all fun th => !th.prog.running

end Config

namespace System

variable (S : System I A ε σ γ α)

/-- The answer to a call that may fail: a failed call has no effect. -/
def answer (amb : A) (op : I.Op) (fault : Option ε) (s : σ) :
    Except ε (I.Res op) × σ :=
  match fault with
  | some e => (.error e, s)
  | none => S.exec amb op s

@[simp] theorem answer_none (amb : A) (op : I.Op) (s : σ) :
    S.answer amb op none s = S.exec amb op s := rfl

@[simp] theorem answer_some (amb : A) (op : I.Op) (e : ε) (s : σ) :
    S.answer amb op (some e) s = (.error e, s) := rfl

/-- The entry thread `t` leaves when its call `op` is answered in state `s`. -/
def entry (t : Nat) (request : γ) (amb : A) (op : I.Op) (fault : Option ε)
    (s : σ) : Entry I A ε σ γ :=
  { tid := t
    request := request
    amb := amb
    op := op
    before := s
    res := (S.answer amb op fault s).1
    after := (S.answer amb op fault s).2 }

/-- A request arrives at moment `amb`. -/
def spawn (c : Config I A ε σ γ α) (request : γ) (amb : A) :
    Config I A ε σ γ α :=
  { c with threads := c.threads ++ [⟨request, (S.body request).resume amb⟩] }

/-- Thread `t`, waiting on `op` with continuation `k`, gets its answer and
runs its next segment at moment `amb`. -/
def perform (c : Config I A ε σ γ α) (t : Nat) (request : γ) (amb : A)
    (op : I.Op) (k : Except ε (I.Res op) → Prog I A ε α)
    (fault : Option ε) : Config I A ε σ γ α :=
  { state := (S.answer amb op fault c.state).2
    threads := c.threads.set t
      ⟨request, (k (S.answer amb op fault c.state).1).resume amb⟩
    log := S.entry t request amb op fault c.state :: c.log }

end System

/-- Which requests may arrive, and which calls may fail in which way. -/
structure Policy (I : Iface) (A ε σ γ α : Type) where
  accepts : Config I A ε σ γ α → γ → Prop
  fault : I.Op → ε → Bool

/-- A call that cannot be made to fail is answered. -/
theorem Policy.fault_eq_none {P : Policy I A ε σ γ α} {op : I.Op}
    (hP : ∀ e, P.fault op e = false) {fault : Option ε}
    (h : fault.all (P.fault op) = true) : fault = none := by
  cases fault with
  | none => rfl
  | some e =>
      rw [Option.all_some, hP] at h
      exact nomatch h

/-- One step of the process: a request arrives, or a call is answered. -/
inductive Step (S : System I A ε σ γ α) (P : Policy I A ε σ γ α) :
    Config I A ε σ γ α → Config I A ε σ γ α → Prop
  | spawn {c : Config I A ε σ γ α} (request : γ) (amb : A)
      (haccept : P.accepts c request) : Step S P c (S.spawn c request amb)
  | perform {c : Config I A ε σ γ α} {t : Nat} {request : γ} {op : I.Op}
      {k : Except ε (I.Res op) → Prog I A ε α} (amb : A) (fault : Option ε)
      (hthread : c.threads[t]? = some ⟨request, .await op k⟩)
      (hguard : S.guard request amb op c.state = true)
      (hfault : fault.all (P.fault op) = true) :
      Step S P c (S.perform c t request amb op k fault)

/-- Any number of steps. -/
abbrev Steps (S : System I A ε σ γ α) (P : Policy I A ε σ γ α) :=
  Relation.ReflTransGen (Step S P)

/-- Configurations reachable from the initial state `s₀`. -/
def Reachable (S : System I A ε σ γ α) (P : Policy I A ε σ γ α) (s₀ : σ)
    (c : Config I A ε σ γ α) : Prop :=
  Steps S P (Config.start s₀) c

section Runs

variable {S : System I A ε σ γ α} {P : Policy I A ε σ γ α} {s₀ : σ}

/-- What holds at the start and survives every step holds in every reachable
configuration. -/
theorem Reachable.induct {Inv : Config I A ε σ γ α → Prop}
    (hstart : Inv (Config.start s₀))
    (hstep : ∀ c c', Reachable S P s₀ c → Inv c → Step S P c c' → Inv c')
    {c : Config I A ε σ γ α} (h : Reachable S P s₀ c) : Inv c := by
  induction h with
  | refl => exact hstart
  | tail hc hs ih => exact hstep _ _ hc ih hs

/-- A thread after an arrival was there before, or is the one arriving. -/
theorem System.thread_of_spawn {c : Config I A ε σ γ α} {request : γ}
    {amb : A} {t : Nat} {th : Thread I A ε γ α}
    (h : (S.spawn c request amb).threads[t]? = some th) :
    c.threads[t]? = some th ∨
      t = c.threads.length ∧ th = ⟨request, (S.body request).resume amb⟩ := by
  simp only [System.spawn] at h
  rcases Nat.lt_trichotomy t c.threads.length with hlt | rfl | hgt
  · rw [List.getElem?_append_left hlt] at h
    exact .inl h
  · rw [List.getElem?_concat_length] at h
    exact .inr ⟨rfl, (Option.some.inj h).symm⟩
  · rw [List.getElem?_eq_none (by
      simp only [List.length_append, List.length_singleton]; omega)] at h
    exact nomatch h

/-- A thread after an answered call is another one, unchanged, or the one
answered. -/
theorem System.thread_of_perform {c : Config I A ε σ γ α} {u : Nat}
    {request : γ} {amb : A} {op : I.Op}
    {k : Except ε (I.Res op) → Prog I A ε α} {fault : Option ε}
    (hthread : c.threads[u]? = some ⟨request, .await op k⟩) {t : Nat}
    {th : Thread I A ε γ α}
    (h : (S.perform c u request amb op k fault).threads[t]? = some th) :
    u ≠ t ∧ c.threads[t]? = some th ∨
      u = t ∧ th =
        ⟨request, (k (S.answer amb op fault c.state).1).resume amb⟩ := by
  have hlt := (List.getElem?_eq_some_iff.1 hthread).1
  simp only [System.perform] at h
  by_cases hu : u = t
  · subst hu
    rw [List.getElem?_set_self hlt] at h
    exact .inr ⟨rfl, (Option.some.inj h).symm⟩
  · rw [List.getElem?_set_ne hu] at h
    exact .inl ⟨hu, h⟩

theorem System.spawn_thread {c : Config I A ε σ γ α} {t : Nat}
    {th : Thread I A ε γ α} (h : c.threads[t]? = some th) (request : γ)
    (amb : A) : (S.spawn c request amb).threads[t]? = some th := by
  have hlt := (List.getElem?_eq_some_iff.1 h).1
  simp only [System.spawn, List.getElem?_append_left hlt, h]

theorem System.perform_thread_self {c : Config I A ε σ γ α} {u : Nat}
    {request : γ} {op : I.Op} {k : Except ε (I.Res op) → Prog I A ε α}
    (hthread : c.threads[u]? = some ⟨request, .await op k⟩) (amb : A)
    (fault : Option ε) :
    (S.perform c u request amb op k fault).threads[u]? =
      some ⟨request, (k (S.answer amb op fault c.state).1).resume amb⟩ :=
  List.getElem?_set_self (List.getElem?_eq_some_iff.1 hthread).1

theorem System.perform_thread_ne {c : Config I A ε σ γ α} {t u : Nat}
    {th : Thread I A ε γ α} (hth : c.threads[t]? = some th) (hu : u ≠ t)
    (request : γ) (amb : A) (op : I.Op)
    (k : Except ε (I.Res op) → Prog I A ε α) (fault : Option ε) :
    (S.perform c u request amb op k fault).threads[t]? = some th := by
  simp only [System.perform, List.getElem?_set_ne hu, hth]

theorem Reachable.steps {c c' : Config I A ε σ γ α}
    (h : Reachable S P s₀ c) (hs : Steps S P c c') : Reachable S P s₀ c' :=
  Relation.ReflTransGen.trans h hs

/-- Threads are never forgotten, and a thread keeps its request. -/
theorem Steps.request_stable {c c' : Config I A ε σ γ α}
    (hs : Steps S P c c') {t : Nat} {th : Thread I A ε γ α}
    (ht : c.threads[t]? = some th) :
    ∃ th', c'.threads[t]? = some th' ∧ th'.request = th.request := by
  induction hs with
  | refl => exact ⟨th, ht, rfl⟩
  | tail _ hstep ih =>
      obtain ⟨th', hth', hreq⟩ := ih
      cases hstep with
      | spawn request amb _ =>
          exact ⟨th', System.spawn_thread hth' request amb, hreq⟩
      | @perform u request op k amb fault hthread _ _ =>
          by_cases hu : u = t
          · subst hu
            rw [hth'] at hthread
            cases hthread
            exact ⟨_, System.perform_thread_self hth' amb fault, hreq⟩
          · exact ⟨th', System.perform_thread_ne hth' hu .., hreq⟩

/-- A thread that has ended stays as it is. -/
theorem Step.ended_stable {c c' : Config I A ε σ γ α} (hstep : Step S P c c')
    {t : Nat} {th : Thread I A ε γ α} (hth : c.threads[t]? = some th)
    (hended : th.prog.running = false) : c'.threads[t]? = some th := by
  cases hstep with
  | spawn request amb _ => exact System.spawn_thread hth request amb
  | @perform u request op k amb fault hthread _ _ =>
      have hu : u ≠ t := by
        rintro rfl
        rw [hth] at hthread
        cases hthread
        exact nomatch hended
      exact System.perform_thread_ne hth hu ..

/-- What holds of a thread that starts, and of one that goes on with the
answer to its call, holds of every thread. -/
theorem Reachable.thread_induct {Q : Thread I A ε γ α → Prop}
    (hspawn : ∀ c request amb, P.accepts c request →
      Q ⟨request, (S.body request).resume amb⟩)
    (hperform : ∀ request op k r amb, Q ⟨request, .await op k⟩ →
      Q ⟨request, (k r).resume amb⟩)
    {c : Config I A ε σ γ α} (h : Reachable S P s₀ c) {t : Nat}
    {th : Thread I A ε γ α} (hth : c.threads[t]? = some th) : Q th := by
  induction h generalizing t th with
  | refl => exact nomatch hth
  | @tail b c hb hstep ih =>
      cases hstep with
      | spawn request amb haccept =>
          rcases System.thread_of_spawn hth with hold | ⟨_, rfl⟩
          · exact ih hold
          · exact hspawn b request amb haccept
      | @perform u request op k amb fault hthread _ _ =>
          rcases System.thread_of_perform hthread hth with ⟨_, hold⟩ | ⟨_, rfl⟩
          · exact ih hold
          · exact hperform request op k _ amb (ih hthread)

/-- Every request being served was accepted. -/
theorem Reachable.requested {Q : γ → Prop}
    (hP : ∀ c request, P.accepts c request → Q request)
    {c : Config I A ε σ γ α} (h : Reachable S P s₀ c) {t : Nat}
    {th : Thread I A ε γ α} (hth : c.threads[t]? = some th) :
    Q th.request := by
  apply Reachable.thread_induct (Q := fun th => Q th.request) ?_ ?_ h hth
  · exact fun c request _ haccept => hP c request haccept
  · exact fun _ _ _ _ _ hrequest => hrequest

/-- Where a request arrives only with a key of its own, no two threads share
one. -/
theorem Reachable.key_unique {κ : Type} (key : γ → κ)
    (hP : ∀ c request, P.accepts c request →
      ∀ th ∈ c.threads, key th.request ≠ key request)
    {c : Config I A ε σ γ α} (h : Reachable S P s₀ c) {t t' : Nat}
    {th th' : Thread I A ε γ α} (hth : c.threads[t]? = some th)
    (hth' : c.threads[t']? = some th')
    (hkey : key th.request = key th'.request) : t = t' := by
  induction h generalizing t t' th th' with
  | refl => exact nomatch hth
  | @tail b c hb hstep ih =>
      cases hstep with
      | spawn request amb haccept =>
          have hfresh := hP b request haccept
          rcases System.thread_of_spawn hth with hold | ⟨rfl, rfl⟩
          · rcases System.thread_of_spawn hth' with hold' | ⟨_, rfl⟩
            · exact ih hold hold' hkey
            · exact absurd hkey (hfresh _ (List.mem_of_getElem? hold))
          · rcases System.thread_of_spawn hth' with hold' | ⟨rfl, _⟩
            · exact absurd hkey.symm (hfresh _ (List.mem_of_getElem? hold'))
            · rfl
      | @perform u request op k amb fault hthread _ _ =>
          have hold : ∀ {v : Nat} {x : Thread I A ε γ α},
              (S.perform b u request amb op k fault).threads[v]? = some x →
                ∃ y, b.threads[v]? = some y ∧ y.request = x.request := by
            intro v x hx
            rcases System.thread_of_perform hthread hx with ⟨_, hx⟩ | ⟨rfl, rfl⟩
            · exact ⟨x, hx, rfl⟩
            · exact ⟨_, hthread, rfl⟩
          obtain ⟨y, hy, hrequest⟩ := hold hth
          obtain ⟨y', hy', hrequest'⟩ := hold hth'
          refine ih hy hy' ?_
          rw [hrequest, hrequest', hkey]

theorem Steps.threads_length_le {c c' : Config I A ε σ γ α}
    (hs : Steps S P c c') : c.threads.length ≤ c'.threads.length := by
  induction hs with
  | refl => exact Nat.le_refl _
  | tail _ hstep ih =>
      cases hstep with
      | spawn request amb _ =>
          simp only [System.spawn, List.length_append, List.length_singleton]
          omega
      | perform amb fault _ _ _ =>
          simpa only [System.perform, List.length_set] using ih

theorem Steps.ended_stable {c c' : Config I A ε σ γ α} (hs : Steps S P c c')
    {t : Nat} {th : Thread I A ε γ α} (hth : c.threads[t]? = some th)
    (hended : th.prog.running = false) : c'.threads[t]? = some th := by
  induction hs with
  | refl => exact hth
  | tail _ hstep ih => exact hstep.ended_stable ih hended

/-- Whoever waits after an idle moment has arrived since. -/
theorem Steps.newcomer {c c' : Config I A ε σ γ α} (hs : Steps S P c c')
    (hidle : c.idle = true) {t : Nat} {th : Thread I A ε γ α}
    (hth : c'.threads[t]? = some th) (hwaits : th.prog.running = true) :
    c.threads.length ≤ t := by
  refine Nat.le_of_not_lt fun hlt => ?_
  have hold : c.threads[t]? = some c.threads[t] := List.getElem?_eq_getElem hlt
  have hended : c.threads[t].prog.running = false := by
    have hall := List.all_eq_true.1 hidle c.threads[t] (List.getElem_mem hlt)
    simpa using hall
  have hsame := hs.ended_stable hold hended
  rw [hth] at hsame
  cases hsame
  exact Bool.false_ne_true (hended.symm.trans hwaits)

/-- The log only grows. -/
theorem Steps.log_suffix {c c' : Config I A ε σ γ α}
    (hs : Steps S P c c') : c.log <:+ c'.log := by
  induction hs with
  | refl => exact List.suffix_refl _
  | tail _ hstep ih =>
      cases hstep with
      | spawn request amb _ => exact ih
      | perform amb fault _ _ _ => exact ih.trans (List.suffix_cons _ _)

end Runs

/-! ## Executable schedules -/

/-- One scheduling decision. -/
inductive Tick (A ε γ : Type) where
  | spawn (request : γ) (amb : A)
  | perform (t : Nat) (amb : A) (fault : Option ε)

namespace Tick

/-- Thread `t` gets `n` answers in a row, all at moment `amb`. -/
def answers (t n : Nat) (amb : A) : List (Tick A ε γ) :=
  List.replicate n (.perform t amb none)

/-- A request arrives as thread `t` and gets its first `n` answers. -/
def serve (request : γ) (t n : Nat) (amb : A) : List (Tick A ε γ) :=
  .spawn request amb :: answers t n amb

end Tick

namespace System

variable (S : System I A ε σ γ α) (P : Policy I A ε σ γ α)

/-- Carry out one decision, if the machine can take that step. -/
def tick (c : Config I A ε σ γ α) : Tick A ε γ → Option (Config I A ε σ γ α)
  | .spawn request amb => some (S.spawn c request amb)
  | .perform t amb fault =>
      match c.threads[t]? with
      | some ⟨request, .await op k⟩ =>
          if S.guard request amb op c.state && fault.all (P.fault op) then
            some (S.perform c t request amb op k fault)
          else none
      | _ => none

/-- Carry out a schedule. -/
def schedule (c : Config I A ε σ γ α) :
    List (Tick A ε γ) → Option (Config I A ε σ γ α)
  | [] => some c
  | x :: xs => (S.tick P c x).bind fun c' => schedule c' xs

/-- The requests of a schedule arrive as the policy allows. -/
def Admitted (c : Config I A ε σ γ α) : List (Tick A ε γ) → Prop
  | [] => True
  | x :: xs =>
      (match x with
        | .spawn request _ => P.accepts c request
        | .perform _ _ _ => True) ∧
      ∀ c', S.tick P c x = some c' → Admitted c' xs

instance decidableAdmitted {S : System I A ε σ γ α} {P : Policy I A ε σ γ α}
    [hP : ∀ c request, Decidable (P.accepts c request)] :
    (xs : List (Tick A ε γ)) → (c : Config I A ε σ γ α) →
      Decidable (S.Admitted P c xs)
  | [], _ => isTrue trivial
  | .spawn request amb :: xs, c =>
      have : Decidable (S.Admitted P (S.spawn c request amb) xs) :=
        decidableAdmitted xs _
      decidable_of_iff (P.accepts c request ∧
          S.Admitted P (S.spawn c request amb) xs)
        ⟨fun h => ⟨h.1, fun _ heq => Option.some.inj heq ▸ h.2⟩,
          fun h => ⟨h.1, h.2 _ rfl⟩⟩
  | .perform t amb fault :: xs, c =>
      match htick : S.tick P c (.perform t amb fault) with
      | none => isTrue ⟨trivial, fun _ heq => nomatch htick.symm.trans heq⟩
      | some c' =>
          have : Decidable (S.Admitted P c' xs) := decidableAdmitted xs c'
          decidable_of_iff (S.Admitted P c' xs)
            ⟨fun h => ⟨trivial, fun _ heq =>
                Option.some.inj (htick.symm.trans heq) ▸ h⟩,
              fun h => h.2 c' htick⟩

end System

/-- A concrete schedule is a run of the machine. -/
theorem Steps.of_schedule {S : System I A ε σ γ α} {P : Policy I A ε σ γ α}
    {c c' : Config I A ε σ γ α} (xs : List (Tick A ε γ))
    (hrun : S.schedule P c xs = some c') (hok : S.Admitted P c xs) :
    Steps S P c c' := by
  induction xs generalizing c with
  | nil =>
      simp only [System.schedule, Option.some.injEq] at hrun
      subst hrun
      exact Relation.ReflTransGen.refl
  | cons x xs ih =>
      simp only [System.schedule, Option.bind_eq_some_iff] at hrun
      obtain ⟨mid, hmid, hrest⟩ := hrun
      obtain ⟨hx, hxs⟩ := hok
      refine Relation.ReflTransGen.head ?_ (ih hrest (hxs mid hmid))
      cases x with
      | spawn request amb =>
          simp only [System.tick, Option.some.injEq] at hmid
          subst hmid
          exact .spawn request amb hx
      | perform t amb fault =>
          simp only [System.tick] at hmid
          split at hmid
          · next request op k hthread =>
              split at hmid
              · next hcheck =>
                  cases hmid
                  rw [Bool.and_eq_true] at hcheck
                  exact .perform amb fault hthread hcheck.1 hcheck.2
              · exact nomatch hmid
          · exact nomatch hmid

/-- The configuration a concrete schedule ends in is reachable. -/
theorem Reachable.of_schedule {S : System I A ε σ γ α}
    {P : Policy I A ε σ γ α} {s₀ : σ} (xs : List (Tick A ε γ))
    (hrun : (S.schedule P (Config.start s₀) xs).isSome = true)
    (hok : S.Admitted P (Config.start s₀) xs) :
    Reachable S P s₀ ((S.schedule P (Config.start s₀) xs).get hrun) :=
  Steps.of_schedule xs (Option.some_get hrun).symm hok

/-- Where every request is admitted, so is every schedule. -/
theorem System.admitted_of_forall {S : System I A ε σ γ α}
    {P : Policy I A ε σ γ α} (xs : List (Tick A ε γ))
    (h : ∀ c request amb, Tick.spawn request amb ∈ xs → P.accepts c request) :
    ∀ c, S.Admitted P c xs := by
  induction xs with
  | nil => exact fun _ => trivial
  | cons x xs ih =>
      intro c
      refine ⟨?_, fun c' _ => ih
        (fun c request amb hmem => h c request amb (.tail _ hmem)) c'⟩
      cases x with
      | spawn request amb => exact h c request amb (.head _)
      | perform t amb fault => trivial

end Videum.Async
