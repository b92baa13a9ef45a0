import Mathlib.Tactic.Common

/-!
# Calls that may not return

A call returns a value, waits for its environment, blocks on a lock that is never released, or
crashes. `Returns x P` says that `x` can only return or wait, and that `P` holds of what it returns.
-/

namespace SprdHal.Lib

/-- Why a call does not return. -/
inductive Stop
  | waiting | blocked | crashed
  deriving DecidableEq, Repr

variable {α β : Type}

/-- `x` returns with `P`, or waits for its environment. -/
def Returns (x : Except Stop α) (P : α → Prop) : Prop :=
  match x with
  | .ok a => P a
  | .error e => e = .waiting

/-- A wait for the environment. -/
def await : Option α → Except Stop α
  | some a => .ok a
  | none => .error .waiting

theorem Returns.bind {x : Except Stop α} {f : α → Except Stop β} {P : α → Prop} {Q : β → Prop}
    (hx : Returns x P) (hf : ∀ a, P a → Returns (f a) Q) : Returns (x >>= f) Q := by
  cases x with
  | ok a => exact hf a hx
  | error e => exact hx

theorem Returns.mono {x : Except Stop α} {P Q : α → Prop} (hx : Returns x P)
    (h : ∀ a, P a → Q a) : Returns x Q := by
  cases x with
  | ok a => exact h a hx
  | error e => exact hx

@[simp] theorem ok_bind (a : α) (f : α → Except Stop β) : (Except.ok a >>= f) = f a := rfl

theorem returns_await (x : Option α) : Returns (await x) (fun a => x = some a) := by
  cases x with
  | none => exact rfl
  | some a => exact rfl

end SprdHal.Lib
