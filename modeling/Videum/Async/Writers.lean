import Videum.Async.Alone
import Videum.Async.Traces

/-!
# One thread writes, the others read

When the answers of all other threads have left the state as it was, a thread
has seen what it would have seen alone.  What `alone` says of its program
then holds in the middle of an interleaved run, with the thread's own answers
for the log.

## Main results

* `follows_until` — how a program ends that nothing discharges.
* `Reachable.as_alone`, `Reachable.alone_ended` — the only writer ends as it
  does alone.
-/

namespace Videum.Async

variable {I : Iface} {A ε σ γ α β : Type}

/-- The answers of the other threads have left the state alone. -/
def OnlyWriter (t : Nat) (log : Log I A ε σ γ) : Prop :=
  ∀ x ∈ log, x.tid ≠ t → x.after = x.before

theorem OnlyWriter.tail {t : Nat} {x : Entry I A ε σ γ}
    {log : Log I A ε σ γ} (h : OnlyWriter t (x :: log)) : OnlyWriter t log :=
  fun y hy => h y (.tail _ hy)

section Rules

variable {S : System I A ε σ γ β} {P : Policy I A ε σ γ β} {t : Nat}
  {request : γ} {amb : A}

/-- A program whose calls are permitted after any further answers, when no
answer discharges `D`. -/
theorem follows_until {G : Log I A ε σ γ → I.Op → Prop}
    {D : (op : I.Op) → Except ε (I.Res op) → Prop} {Q : I.Op → Prop}
    {post : Except ε α → Prop} {p : Prog I A ε α} {mine : Log I A ε σ γ}
    (hp : p.Until D post) (hissues : p.Issues Q)
    (hG : ∀ newer op, Q op → G (newer ++ mine) op)
    (hD : ∀ amb op fault s, fault.all (P.fault op) = true →
      ¬ D op (S.answer amb op fault s).1) :
    follows S P G t request (fun r _ => post r) p amb mine := by
  induction p generalizing amb mine with
  | pure a => exact hp
  | throw e => exact hp
  | ask k ih => exact ih amb (hp amb) (hissues amb) hG
  | await op k ih =>
      refine ⟨hG [] op hissues.1, ?_⟩
      intro amb' fault s _ hfault
      have hrest := (hp (S.answer amb' op fault s).1).resolve_left
        (hD amb' op fault s hfault)
      apply ih _ hrest (hissues.2 _)
      intro newer op' hop'
      have hlonger := hG (newer ++ [S.entry t request amb' op fault s]) op' hop'
      rw [List.append_assoc, List.singleton_append] at hlonger
      exact hlonger

end Rules

section Runs

variable {S : System I A ε σ γ α} {P : Policy I A ε σ γ α} {s₀ : σ}
  {c : Config I A ε σ γ α} {t : Nat}
  {post : γ → Except ε α → A → σ → Log I A ε σ γ → Prop}

/-- Until its only writer has had an answer, the state is the first one. -/
theorem Reachable.state_of_silent (h : Reachable S P s₀ c)
    (hwriter : OnlyWriter t c.log) (hsilent : own t c.log = []) :
    c.state = s₀ := by
  induction h with
  | refl => rfl
  | @tail b c hb hstep ih =>
      cases hstep with
      | spawn request amb _ => exact ih hwriter hsilent
      | @perform u request op k amb fault hthread _ _ =>
          have hu : u ≠ t := by
            rintro rfl
            have hmine : own u (S.entry u request amb op fault b.state ::
                b.log) = [] := hsilent
            rw [own_entry] at hmine
            exact absurd hmine (List.cons_ne_nil _ _)
          have hread : (S.answer amb op fault b.state).2 = b.state :=
            hwriter _ (.head _) hu
          have hrest : own t (S.entry u request amb op fault b.state ::
              b.log) = [] := hsilent
          rw [own_cons_ne hu] at hrest
          exact hread.trans (ih hwriter.tail hrest)

/-- The only writer is where its proof alone says. -/
theorem Reachable.as_alone
    (hbody : ∀ c request amb, P.accepts c request →
      alone S P t request (post request) (S.body request) amb s₀ [])
    (h : Reachable S P s₀ c) (hwriter : OnlyWriter t c.log)
    {th : Thread I A ε γ α} (hth : c.threads[t]? = some th) :
    ∃ amb, alone S P t th.request (post th.request) th.prog amb c.state
      (own t c.log) := by
  induction h generalizing th with
  | refl => exact nomatch hth
  | @tail b c hb hstep ih =>
      cases hstep with
      | spawn request amb haccept =>
          rcases System.thread_of_spawn hth with hold | ⟨rfl, rfl⟩
          · exact ih hwriter hold
          · have hsilent := Reachable.own_arriving hb
            have hstate := Reachable.state_of_silent hb hwriter hsilent
            refine ⟨amb, ?_⟩
            show alone S P b.threads.length request (post request)
              ((S.body request).resume amb) amb b.state
              (own b.threads.length b.log)
            rw [hsilent, hstate]
            exact alone_resume (hbody b request amb haccept)
      | @perform u request op k amb fault hthread hguard hfault =>
          rcases System.thread_of_perform hthread hth with
            ⟨hu, hold⟩ | ⟨rfl, rfl⟩
          · obtain ⟨amb₀, halone⟩ := ih hwriter.tail hold
            have hread : (S.answer amb op fault b.state).2 = b.state :=
              hwriter _ (.head _) hu
            refine ⟨amb₀, ?_⟩
            show alone S P t th.request (post th.request) th.prog amb₀
              (S.answer amb op fault b.state).2
              (own t (S.entry u request amb op fault b.state :: b.log))
            rw [own_cons_ne hu, hread]
            exact halone
          · obtain ⟨_, halone⟩ := ih hwriter.tail hthread
            refine ⟨amb, ?_⟩
            show alone S P u request (post request) _ amb
              (S.answer amb op fault b.state).2
              (own u (S.entry u request amb op fault b.state :: b.log))
            rw [own_entry]
            exact alone_resume (halone amb fault hguard hfault)

/-- The only writer has ended as it does alone. -/
theorem Reachable.alone_ended
    (hbody : ∀ c request amb, P.accepts c request →
      alone S P t request (post request) (S.body request) amb s₀ [])
    (h : Reachable S P s₀ c) (hwriter : OnlyWriter t c.log)
    {th : Thread I A ε γ α} (hth : c.threads[t]? = some th)
    (hended : th.prog.running = false) :
    ∃ r amb, th.prog = Prog.ofExcept r ∧
      post th.request r amb c.state (own t c.log) := by
  obtain ⟨amb, halone⟩ := h.as_alone hbody hwriter hth
  rcases h.thread_cases hth with ⟨a, ha⟩ | ⟨e, he⟩ | ⟨op, k, hop⟩
  · rw [ha] at halone
    exact ⟨.ok a, amb, ha, halone⟩
  · rw [he] at halone
    exact ⟨.error e, amb, he, halone⟩
  · rw [hop] at hended
    exact nomatch hended

end Runs

end Videum.Async
