/-!
# Asynchronous programs

An asynchronous function runs in *segments*.  Inside a segment nothing else
of the process runs, so every clock reading and random draw of the segment
comes from one moment; a segment ends at an awaited call, and the next one
starts when the call is answered.  `Prog` is the tree of these segments: a
node `await op k` issues the call `op` and continues with `k` on whatever
answer arrives, and a node `ask k` reads the moment the segment runs in.

The tree says nothing about how calls are answered or how several programs
interleave; that is the machine of `Videum.Async.Machine`.

## Main definitions

* `Prog` — programs over an interface of awaited calls, with exceptions.
* `Prog.resume` — start a segment at a given moment.
* `Prog.eval` — run a program alone, all of it at one moment, and
  `Prog.admits` — whether a guard admits its calls.
* `Prog.tryCatch`, `Prog.tryFinally`, `Prog.promiseAll`, `Prog.forEach` — the
  control forms of the modelled language.
-/

namespace Videum.Async

/-- The calls a program may await, with the type of answer of each. -/
structure Iface where
  Op : Type
  Res : Op → Type

/--
Programs over the interface `I`: `A` is the moment a segment runs in, `ε`
the exceptions, `α` the value returned.
-/
inductive Prog (I : Iface) (A ε α : Type) : Type
  | pure (a : α)
  | throw (e : ε)
  | ask (k : A → Prog I A ε α)
  | await (op : I.Op) (k : Except ε (I.Res op) → Prog I A ε α)

namespace Prog

variable {I : Iface} {A ε α β γ : Type}

/-- Sequencing: an exception skips the rest. -/
def bind (p : Prog I A ε α) (f : α → Prog I A ε β) : Prog I A ε β :=
  match p with
  | .pure a => f a
  | .throw e => .throw e
  | .ask k => .ask fun amb => (k amb).bind f
  | .await op k => .await op fun r => (k r).bind f

instance : Monad (Prog I A ε) where
  pure := .pure
  bind := bind

/-- What an awaited call leaves: its value, or its rejection thrown. -/
def ofExcept : Except ε α → Prog I A ε α
  | .ok v => .pure v
  | .error e => .throw e

/-- Await one call; a rejected call throws. -/
def call (op : I.Op) : Prog I A ε (I.Res op) := .await op ofExcept

/-- The moment of the current segment. -/
def now : Prog I A ε A := .ask .pure

/-- `try p catch h`. -/
def tryCatch (p : Prog I A ε α) (h : ε → Prog I A ε α) : Prog I A ε α :=
  match p with
  | .pure a => .pure a
  | .throw e => h e
  | .ask k => .ask fun amb => (k amb).tryCatch h
  | .await op k => .await op fun r => (k r).tryCatch h

/-- `try p finally q`: `q` runs on either exit, and its own exception wins. -/
def tryFinally (p : Prog I A ε α) (q : Prog I A ε Unit) : Prog I A ε α :=
  match p with
  | .pure a => q.bind fun _ => .pure a
  | .throw e => q.bind fun _ => .throw e
  | .ask k => .ask fun amb => (k amb).tryFinally q
  | .await op k => .await op fun r => (k r).tryFinally q

/-- Issue `first`, then `second` whatever became of `first`, and reject with
the earlier rejection. -/
def settle (first second : I.Op) : Prog I A ε Unit :=
  .await first fun r₁ => .await second fun r₂ =>
    match r₁, r₂ with
    | .error e, _ => .throw e
    | .ok _, .error e => .throw e
    | .ok _, .ok _ => .pure ()

/--
`Promise.all` of two single calls.  Both calls are issued in any case; which
one reaches the other side first is decided by the moment, and other
programs may run in between.
-/
def promiseAll (swapped : A → Bool) (first second : I.Op) :
    Prog I A ε Unit :=
  .ask fun amb =>
    if swapped amb then settle second first else settle first second

/-- `for (const x of xs) body(x)`. -/
def forEach (xs : List α) (body : α → Prog I A ε Unit) : Prog I A ε Unit :=
  match xs with
  | [] => .pure ()
  | x :: rest => (body x).bind fun _ => forEach rest body

/-- Run the current segment at moment `amb`, up to the next awaited call. -/
def resume (amb : A) : Prog I A ε α → Prog I A ε α
  | .ask k => (k amb).resume amb
  | p => p

/-- The program waits for an answer. -/
def running : Prog I A ε α → Bool
  | .await _ _ => true
  | _ => false

/-- The program has returned. -/
def returned : Prog I A ε α → Bool
  | .pure _ => true
  | _ => false

/-- Run the program alone, all of it at one moment. -/
def eval {σ : Type} (exec : A → (op : I.Op) → σ → Except ε (I.Res op) × σ)
    (amb : A) : Prog I A ε α → σ → Except ε α × σ
  | .pure a, s => (.ok a, s)
  | .throw e, s => (.error e, s)
  | .ask k, s => (k amb).eval exec amb s
  | .await op k, s => (k (exec amb op s).1).eval exec amb (exec amb op s).2

/-- Every call of the program, run alone at one moment, is one the guard
admits. -/
def admits {σ : Type} (guard : I.Op → σ → Bool)
    (exec : A → (op : I.Op) → σ → Except ε (I.Res op) × σ) (amb : A) :
    Prog I A ε α → σ → Bool
  | .pure _, _ => true
  | .throw _, _ => true
  | .ask k, s => (k amb).admits guard exec amb s
  | .await op k, s =>
      guard op s && (k (exec amb op s).1).admits guard exec amb (exec amb op s).2

@[simp] theorem pure_eq (a : α) : (Pure.pure a : Prog I A ε α) = .pure a := rfl

@[simp] theorem pure_bind (a : α) (f : α → Prog I A ε β) :
    (Prog.pure a : Prog I A ε α) >>= f = f a := rfl

@[simp] theorem throw_bind (e : ε) (f : α → Prog I A ε β) :
    (Prog.throw e : Prog I A ε α) >>= f = .throw e := rfl

@[simp] theorem ask_bind (k : A → Prog I A ε α) (f : α → Prog I A ε β) :
    (Prog.ask k : Prog I A ε α) >>= f = .ask fun amb => k amb >>= f := rfl

@[simp] theorem await_bind (op : I.Op)
    (k : Except ε (I.Res op) → Prog I A ε α) (f : α → Prog I A ε β) :
    (Prog.await op k : Prog I A ε α) >>= f = .await op fun r => k r >>= f :=
  rfl

@[simp] theorem bind_eq (p : Prog I A ε α) (f : α → Prog I A ε β) :
    p.bind f = p >>= f := rfl

@[simp] theorem now_bind (f : A → Prog I A ε β) :
    (now : Prog I A ε A) >>= f = .ask f := rfl

/-- An awaited call followed by its continuation is one node. -/
@[simp] theorem call_bind (op : I.Op) (f : I.Res op → Prog I A ε β) :
    (call op : Prog I A ε (I.Res op)) >>= f =
      .await op fun r => ofExcept r >>= f := rfl

@[simp] theorem ofExcept_ok_bind (a : α) (f : α → Prog I A ε β) :
    (ofExcept (.ok a) : Prog I A ε α) >>= f = f a := rfl

@[simp] theorem ofExcept_error_bind (e : ε) (f : α → Prog I A ε β) :
    (ofExcept (.error e) : Prog I A ε α) >>= f = .throw e := rfl

/-- Programs that have ended differ when their results do. -/
theorem ofExcept_injective {r r' : Except ε α}
    (h : (ofExcept r : Prog I A ε α) = ofExcept r') : r = r' := by
  cases r <;> cases r' <;> cases h <;> rfl

theorem ofExcept_running (r : Except ε α) :
    (ofExcept r : Prog I A ε α).running = false := by
  cases r <;> rfl

theorem bind_assoc (p : Prog I A ε α) (f : α → Prog I A ε β)
    (g : β → Prog I A ε γ) :
    p >>= f >>= g = p >>= fun a => f a >>= g := by
  induction p with
  | pure a => rfl
  | throw e => rfl
  | ask k ih =>
      simp only [ask_bind]
      exact congrArg _ (funext fun amb => ih amb)
  | await op k ih =>
      simp only [await_bind]
      exact congrArg _ (funext fun r => ih r)

theorem bind_pure (p : Prog I A ε α) : p >>= Prog.pure = p := by
  induction p with
  | pure a => rfl
  | throw e => rfl
  | ask k ih => exact congrArg _ (funext fun amb => ih amb)
  | await op k ih => exact congrArg _ (funext fun r => ih r)

/-- A resumed program has finished or waits for an answer. -/
theorem resume_cases (amb : A) (p : Prog I A ε α) :
    (∃ a, p.resume amb = .pure a) ∨ (∃ e, p.resume amb = .throw e) ∨
      ∃ op k, p.resume amb = .await op k := by
  induction p with
  | pure a => exact .inl ⟨a, rfl⟩
  | throw e => exact .inr (.inl ⟨e, rfl⟩)
  | ask k ih => exact ih amb
  | await op k _ => exact .inr (.inr ⟨op, k, rfl⟩)

section Eval

variable {σ : Type} {exec : A → (op : I.Op) → σ → Except ε (I.Res op) × σ}
  {amb : A} {s : σ}

@[simp] theorem eval_pure (a : α) :
    (Prog.pure a : Prog I A ε α).eval exec amb s = (.ok a, s) := rfl

@[simp] theorem eval_throw (e : ε) :
    (Prog.throw e : Prog I A ε α).eval exec amb s = (.error e, s) := rfl

@[simp] theorem eval_ask (k : A → Prog I A ε α) :
    (Prog.ask k).eval exec amb s = (k amb).eval exec amb s := rfl

@[simp] theorem eval_await (op : I.Op)
    (k : Except ε (I.Res op) → Prog I A ε α) :
    (Prog.await op k).eval exec amb s =
      (k (exec amb op s).1).eval exec amb (exec amb op s).2 := rfl

/-- A guard that admits every call admits every program. -/
theorem admits_of_guard {guard : I.Op → σ → Bool}
    (h : ∀ op s, guard op s = true) (p : Prog I A ε α) :
    p.admits guard exec amb s = true := by
  induction p generalizing s with
  | pure a => rfl
  | throw e => rfl
  | ask k ih => exact ih amb
  | await op k ih => exact Bool.and_eq_true_iff.2 ⟨h op s, ih _⟩

/-- The second part of a sequence runs where the first has returned. -/
theorem eval_bind (p : Prog I A ε α) (f : α → Prog I A ε β) :
    (p >>= f).eval exec amb s =
      match p.eval exec amb s with
      | (.ok a, s') => (f a).eval exec amb s'
      | (.error e, s') => (.error e, s') := by
  induction p generalizing s with
  | pure a => rfl
  | throw e => rfl
  | ask k ih => exact ih amb
  | await op k ih => exact ih _

/-- A value that is only wrapped up afterwards. -/
theorem eval_map (p : Prog I A ε α) (g : α → β) :
    (p >>= fun a => .pure (g a)).eval exec amb s =
      ((p.eval exec amb s).1.map g, (p.eval exec amb s).2) := by
  rw [eval_bind]
  rcases p.eval exec amb s with ⟨r, s'⟩
  cases r <;> rfl

/-- The handler runs where the program has failed. -/
theorem eval_tryCatch (p : Prog I A ε α) (h : ε → Prog I A ε α) :
    (p.tryCatch h).eval exec amb s =
      match p.eval exec amb s with
      | (.ok a, s') => (.ok a, s')
      | (.error e, s') => (h e).eval exec amb s' := by
  induction p generalizing s with
  | pure a => rfl
  | throw e => rfl
  | ask k ih => exact ih amb
  | await op k ih => exact ih _

/-- What runs on either exit decides with its own failure only. -/
theorem eval_tryFinally (p : Prog I A ε α) (q : Prog I A ε Unit) :
    (p.tryFinally q).eval exec amb s =
      match q.eval exec amb (p.eval exec amb s).2 with
      | (.ok _, s') => ((p.eval exec amb s).1, s')
      | (.error e, s') => (.error e, s') := by
  induction p generalizing s with
  | pure a =>
      show (q >>= fun _ => Prog.pure a).eval exec amb s = _
      rw [eval_bind, eval_pure]
      rcases q.eval exec amb s with ⟨r, s'⟩
      cases r <;> rfl
  | throw e =>
      show (q >>= fun _ => Prog.throw e).eval exec amb s = _
      rw [eval_bind, eval_throw]
      rcases q.eval exec amb s with ⟨r, s'⟩
      cases r <;> rfl
  | ask k ih => exact ih amb
  | await op k ih => exact ih _

/-- A loop that catches the failures of its body runs the body on every
element, one after the other. -/
theorem eval_forEach_tryCatch (xs : List β) (p : β → Prog I A ε Unit) :
    (forEach xs fun x => (p x).tryCatch fun _ => .pure ()).eval exec amb s =
      (.ok (), xs.foldl (fun s x => ((p x).eval exec amb s).2) s) := by
  induction xs generalizing s with
  | nil => rfl
  | cons x xs ih =>
      have hbody : ((p x).tryCatch fun _ => .pure ()).eval exec amb s =
          (.ok (), ((p x).eval exec amb s).2) := by
        rw [eval_tryCatch]
        rcases (p x).eval exec amb s with ⟨r, s'⟩
        cases r <;> rfl
      show ((((p x).tryCatch fun _ => .pure ()) >>= fun _ =>
        forEach xs fun x => (p x).tryCatch fun _ => .pure ()).eval exec amb s) =
          _
      rw [eval_bind, hbody, List.foldl_cons]
      exact ih

/-- A call that is answered hands its answer on. -/
theorem eval_call_ok {op : I.Op} {v : I.Res op} {s' : σ}
    (h : exec amb op s = (.ok v, s')) (f : I.Res op → Prog I A ε β) :
    (call op >>= f).eval exec amb s = (f v).eval exec amb s' := by
  rw [call_bind, eval_await, h]
  rfl

/-- A call that is refused ends the program. -/
theorem eval_call_error {op : I.Op} {e : ε} {s' : σ}
    (h : exec amb op s = (.error e, s')) (f : I.Res op → Prog I A ε β) :
    (call op >>= f).eval exec amb s = (.error e, s') := by
  rw [call_bind, eval_await, h]
  rfl

/-- A last call is answered, and that is all. -/
theorem eval_call (op : I.Op) :
    (call op).eval exec amb s = exec amb op s := by
  show (ofExcept (exec amb op s).1).eval exec amb (exec amb op s).2 = _
  rcases exec amb op s with ⟨r, s'⟩
  cases r <;> rfl

end Eval

end Prog

end Videum.Async
