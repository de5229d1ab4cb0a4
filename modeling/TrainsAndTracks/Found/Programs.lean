import Mathlib.Logic.Basic

/-!
# Programs that call and catch

A program here is a finite tree: it returns, raises an exception, or calls, and goes on with what the call
has returned or thrown. `Op β` are the calls that return a `β`; what a call does is left to the world the
program runs in.

* `perform op` — a call whose exception is not caught.
* `attempt p` — `p` under a `try`: the exception it ends in is a value.
* `Program.run`, `Program.calls` — how a program ends and the world it leaves, and the calls it issues, in
  a world that answers each call.
* `Agree f p q` — `p` and `q` issue the same calls up to `f` and raise the same exceptions, whatever is
  answered. `Agree.attempt` and `Agree.perform` are its rules for programs written alike.
* `Agree.calls_eq`, `Agree.world_eq` — two programs that agree do the same in every world that sees calls
  up to `f`.
-/

namespace TrainsAndTracks.Found

/-- A program over the calls `Op` with exceptions `ε`. Source: none: infrastructure. Kind: D -/
inductive Program (Op : Type → Type) (ε : Type) (α : Type) : Type 1
  | ret (a : α)
  | raise (e : ε)
  | call {β : Type} (op : Op β) (k : Except ε β → Program Op ε α)

namespace Program

variable {Op : Type → Type} {ε α β γ ω : Type}

/-- Sequencing. Source: none: infrastructure. Kind: D -/
def bind : Program Op ε α → (α → Program Op ε β) → Program Op ε β
  | ret a, g => g a
  | raise e, _ => raise e
  | call op k, g => call op fun r => (k r).bind g

instance : Monad (Program Op ε) where
  pure := ret
  bind := bind

/-- `p` under a `try`. Source: none: infrastructure. Kind: D -/
def attempt : Program Op ε α → Program Op ε (Except ε α)
  | ret a => ret (.ok a)
  | raise e => ret (.error e)
  | call op k => call op fun r => (k r).attempt

/-- A call that is not under a `try`. Source: none: infrastructure. Kind: D -/
def perform (op : Op β) : Program Op ε β :=
  call op fun
    | .ok b => ret b
    | .error e => raise e

/-- A call and what follows. Source: none: infrastructure. Kind: L -/
theorem perform_bind (op : Op β) (g : β → Program Op ε α) :
    (perform op >>= g) = call op fun
      | .ok b => g b
      | .error e => raise e := by
  show call op _ = call op _
  congr 1
  funext r
  cases r <;> rfl

/-- A call under a `try` and what follows. Source: none: infrastructure. Kind: L -/
theorem attempt_perform_bind (op : Op β) (g : Except ε β → Program Op ε α) :
    (attempt (perform op) >>= g) = call op g := by
  show call op _ = call op _
  congr 1
  funext r
  cases r <;> rfl

/-! ## Running -/

/-- How a program ends in a world that answers by `exec`, and the world it leaves. Source: none:
infrastructure. Kind: D -/
def run (exec : (β : Type) → Op β → ω → Except ε β × ω) : Program Op ε α → ω → Except ε α × ω
  | ret a, w => (.ok a, w)
  | raise e, w => (.error e, w)
  | call op k, w => (k (exec _ op w).1).run exec (exec _ op w).2

/-- The calls a program issues. Source: none: infrastructure. Kind: D -/
def calls (exec : (β : Type) → Op β → ω → Except ε β × ω) : Program Op ε α → ω → List (Σ β, Op β)
  | ret _, _ => []
  | raise _, _ => []
  | call op k, w => ⟨_, op⟩ :: (k (exec _ op w).1).calls exec (exec _ op w).2

/-! ## Agreement -/

/-- The two programs issue the same calls up to `f` and raise the same exceptions, whatever is answered.
What they return is their own. Source: none: infrastructure. Kind: D -/
inductive Agree (f : (β : Type) → Op β → Op β) : Program Op ε α → Program Op ε γ → Prop
  | ret (a : α) (c : γ) : Agree f (ret a) (ret c)
  | raise (e : ε) : Agree f (raise e) (raise e)
  | call {β : Type} {op op' : Op β} {k : Except ε β → Program Op ε α} {k' : Except ε β → Program Op ε γ}
      (hop : f β op = f β op') (hk : ∀ r, Agree f (k r) (k' r)) : Agree f (call op k) (call op' k')

section agree

variable {f : (β : Type) → Op β → Op β} {p : Program Op ε α} {q : Program Op ε γ}

/-- Calls under a `try`, followed by programs that agree. Source: none: infrastructure. Kind: L -/
theorem Agree.attempt {op op' : Op β} {g : Except ε β → Program Op ε α}
    {g' : Except ε β → Program Op ε γ} (hop : f β op = f β op') (h : ∀ r, Agree f (g r) (g' r)) :
    Agree f (Program.attempt (perform op) >>= g) (Program.attempt (perform op') >>= g') := by
  rw [attempt_perform_bind, attempt_perform_bind]
  exact .call hop h

/-- Calls, followed by programs that agree. Source: none: infrastructure. Kind: L -/
theorem Agree.perform {op op' : Op β} {g : β → Program Op ε α} {g' : β → Program Op ε γ}
    (hop : f β op = f β op') (h : ∀ b, Agree f (g b) (g' b)) :
    Agree f (Program.perform op >>= g) (Program.perform op' >>= g') := by
  rw [perform_bind, perform_bind]
  refine .call hop fun r => ?_
  cases r with
  | ok b => exact h b
  | error e => exact .raise e

/-- **The same calls** up to `f`, in a world that sees them up to `f`. Source: none: infrastructure.
Kind: L -/
theorem Agree.calls_eq (h : Agree f p q) (exec : (β : Type) → Op β → ω → Except ε β × ω) (w : ω) :
    (p.calls (fun β op => exec β (f β op)) w).map (fun c => (⟨c.1, f c.1 c.2⟩ : Σ β, Op β)) =
      (q.calls (fun β op => exec β (f β op)) w).map fun c => ⟨c.1, f c.1 c.2⟩ := by
  induction h generalizing w with
  | ret a c => rfl
  | raise e => rfl
  | call hop hk ih =>
    simp only [calls, List.map_cons, hop]
    rw [ih]

/-- **The same world** is left. Source: none: infrastructure. Kind: L -/
theorem Agree.world_eq (h : Agree f p q) (exec : (β : Type) → Op β → ω → Except ε β × ω) (w : ω) :
    (p.run (fun β op => exec β (f β op)) w).2 = (q.run (fun β op => exec β (f β op)) w).2 := by
  induction h generalizing w with
  | ret a c => rfl
  | raise e => rfl
  | call hop hk ih =>
    simp only [run, hop]
    exact ih _ _

end agree

end Program

end TrainsAndTracks.Found
