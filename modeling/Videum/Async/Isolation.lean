import Videum.Async.Logic

/-!
# Threads that nobody else reaches

A thread learns of the shared state from the answers to its own calls.  Its
*view* relates the state, with the answers of the run so far, to a smaller
state of its own.  Where the calls of the other threads leave the view alone,
and its own calls do to the small state what they do to the view of the large
one, the thread cannot tell the run from one in which it is by itself.

## Main results

* `Reachable.isolated` — the thread goes on as its program alone does.
* `Reachable.ends_alone` — and ends as its program alone does.
-/

namespace Videum.Async

variable {I : Iface} {A ε σ γ α β υ : Type}

/-! ## Programs without a clock -/

namespace Prog

/-- The program never looks at the moment it runs in. -/
def Timeless : Prog I A ε α → Prop
  | .pure _ => True
  | .throw _ => True
  | .ask _ => False
  | .await _ k => ∀ r, (k r).Timeless

theorem timeless_ofExcept (r : Except ε α) :
    (ofExcept r : Prog I A ε α).Timeless := by
  cases r <;> trivial

theorem timeless_call (op : I.Op) :
    (call op : Prog I A ε (I.Res op)).Timeless :=
  timeless_ofExcept

theorem Timeless.bind {p : Prog I A ε α} {f : α → Prog I A ε β}
    (hp : p.Timeless) (hf : ∀ a, (f a).Timeless) : (p >>= f).Timeless := by
  induction p with
  | pure a => exact hf a
  | throw e => trivial
  | ask k _ => exact hp.elim
  | await op k ih => exact fun r => ih r (hp r)

theorem Timeless.tryCatch {p : Prog I A ε α} {h : ε → Prog I A ε α}
    (hp : p.Timeless) (hh : ∀ e, (h e).Timeless) :
    (p.tryCatch h).Timeless := by
  induction p with
  | pure a => trivial
  | throw e => exact hh e
  | ask k _ => exact hp.elim
  | await op k ih => exact fun r => ih r (hp r)

theorem Timeless.forEach {xs : List β} {body : β → Prog I A ε Unit}
    (hbody : ∀ x, (body x).Timeless) : (forEach xs body).Timeless := by
  induction xs with
  | nil => trivial
  | cons x xs ih => exact (hbody x).bind fun _ => ih

/-- It is the same at every moment. -/
theorem Timeless.resume_eq {p : Prog I A ε α} (hp : p.Timeless) (amb : A) :
    p.resume amb = p := by
  cases p with
  | pure a => rfl
  | throw e => rfl
  | ask k => exact hp.elim
  | await op k => rfl

end Prog

/-! ## Views -/

/-- In this log, the calls of other threads leave the view of thread `t`
alone, and its own calls act on it as `step` does. -/
structure Isolated (t : Nat) (View : σ → Log I A ε σ γ → υ → Prop)
    (step : (op : I.Op) → υ → Except ε (I.Res op) × υ)
    (log : Log I A ε σ γ) : Prop where
  others : ∀ (x : Entry I A ε σ γ) (older : Log I A ε σ γ),
    (x :: older) <:+ log → x.tid ≠ t → ∀ v, View x.before older v →
      View x.after (x :: older) v
  own : ∀ (x : Entry I A ε σ γ) (older : Log I A ε σ γ),
    (x :: older) <:+ log → x.tid = t → ∀ v, View x.before older v →
      x.res = (step x.op v).1 ∧ View x.after (x :: older) (step x.op v).2

namespace Isolated

variable {t : Nat} {View : σ → Log I A ε σ γ → υ → Prop}
  {step : (op : I.Op) → υ → Except ε (I.Res op) × υ}
  {old new : Log I A ε σ γ}

theorem suffix (h : Isolated t View step new) (hs : old <:+ new) :
    Isolated t View step old :=
  ⟨fun x older hx => h.others x older (hx.trans hs),
    fun x older hx => h.own x older (hx.trans hs)⟩

end Isolated

/-- What thread `t` has left to do, judged from the state `v` it sees, is
what its program still does alone. -/
def OnItsOwn (S : System I A ε σ γ α)
    (step : (op : I.Op) → υ → Except ε (I.Res op) × υ) (v₀ v : υ)
    (th : Thread I A ε γ α) : Prop :=
  th.prog.Timeless ∧ ∀ amb,
    th.prog.eval (fun _ => step) amb v =
      (S.body th.request).eval (fun _ => step) amb v₀

section Runs

variable {S : System I A ε σ γ α} {P : Policy I A ε σ γ α} {s₀ : σ} {t : Nat}
  {View : σ → Log I A ε σ γ → υ → Prop}
  {step : (op : I.Op) → υ → Except ε (I.Res op) × υ} {v₀ : υ}
  {c : Config I A ε σ γ α}

/-- An isolated thread goes on as its program alone does. -/
theorem Reachable.isolated (hbody : ∀ request, (S.body request).Timeless)
    (hstart : View s₀ [] v₀) (h : Reachable S P s₀ c)
    (hiso : Isolated t View step c.log) :
    ∃ v, View c.state c.log v ∧ (c.threads[t]? = none → v = v₀) ∧
      ∀ th, c.threads[t]? = some th → OnItsOwn S step v₀ v th := by
  induction h with
  | refl => exact ⟨v₀, hstart, fun _ => rfl, fun th hth => nomatch hth⟩
  | @tail b c hb hstep ih =>
      cases hstep with
      | spawn request amb _ =>
          obtain ⟨v, hview, hnone, hsome⟩ := ih hiso
          refine ⟨v, hview, ?_, ?_⟩
          · intro habsent
            apply hnone
            cases hth : b.threads[t]? with
            | none => rfl
            | some th =>
                rw [System.spawn_thread hth] at habsent
                exact nomatch habsent
          · intro th hth
            rcases System.thread_of_spawn hth with hold | ⟨rfl, rfl⟩
            · exact hsome th hold
            · have hfirst := hnone (List.getElem?_eq_none (Nat.le_refl _))
              have htimeless := hbody request
              refine ⟨?_, ?_⟩
              · rw [htimeless.resume_eq]
                exact htimeless
              · intro amb'
                rw [htimeless.resume_eq, hfirst]
      | @perform u request op k amb fault hthread _ _ =>
          have hnewest : (S.entry u request amb op fault b.state :: b.log) <:+
              (S.perform b u request amb op k fault).log := List.suffix_refl _
          obtain ⟨v, hview, hnone, hsome⟩ :=
            ih (hiso.suffix (List.suffix_cons _ _))
          by_cases hut : u = t
          · subst hut
            obtain ⟨htimeless, heval⟩ := hsome _ hthread
            obtain ⟨hres, hview'⟩ := hiso.own _ _ hnewest rfl v hview
            refine ⟨(step op v).2, hview', ?_, ?_⟩
            · intro habsent
              rw [System.perform_thread_self hthread] at habsent
              exact nomatch habsent
            · intro th hth
              rw [System.perform_thread_self hthread] at hth
              cases hth
              have hanswer : (S.answer amb op fault b.state).1 =
                  (step op v).1 := hres
              have hk := htimeless (S.answer amb op fault b.state).1
              refine ⟨?_, ?_⟩
              · rw [hk.resume_eq]
                exact hk
              · intro amb'
                rw [hk.resume_eq, hanswer]
                exact heval amb'
          · refine ⟨v, hiso.others _ _ hnewest hut v hview, ?_, ?_⟩
            · intro habsent
              apply hnone
              cases hth : b.threads[t]? with
              | none => rfl
              | some th =>
                  rw [System.perform_thread_ne hth hut] at habsent
                  exact nomatch habsent
            · intro th hth
              rcases System.thread_of_perform hthread hth with
                ⟨_, hold⟩ | ⟨heq, _⟩
              · exact hsome th hold
              · exact absurd heq hut

/-- An isolated thread that has ended did as its program alone does. -/
theorem Reachable.ends_alone (hbody : ∀ request, (S.body request).Timeless)
    (hstart : View s₀ [] v₀) (h : Reachable S P s₀ c)
    (hiso : Isolated t View step c.log) {request : γ} {r : Except ε α}
    (hth : c.threads[t]? = some ⟨request, Prog.ofExcept r⟩) (amb : A) :
    ∃ v, View c.state c.log v ∧
      (S.body request).eval (fun _ => step) amb v₀ = (r, v) := by
  obtain ⟨v, hview, _, hsome⟩ := h.isolated hbody hstart hiso
  refine ⟨v, hview, ?_⟩
  rw [← (hsome _ hth).2 amb]
  cases r <;> rfl

end Runs

end Videum.Async
