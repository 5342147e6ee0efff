import Mathlib.Data.Nat.Basic

/-!
# Programs that commit statement by statement

A program works on a state through statements. Each statement commits by itself, so when one of them
raises, what the earlier ones have done stays. `cut n` is the program when its first `n` statements
succeed and the next one raises; `whole` is the program when none does, and `length` is how many
statements it takes then. What comes next may depend on what a statement has returned.
-/

namespace Transition

inductive Script (σ α : Type) : Type 1 where
  | done (a : α)
  | statement {β : Type} (run : σ → β × σ) (next : β → Script σ α)

namespace Script

variable {σ α β : Type}

/-- A statement that only reads. -/
def query (read : σ → β) (next : β → Script σ α) : Script σ α :=
  .statement (fun s => (read s, s)) next

/-- A statement that only writes. -/
def execute (write : σ → σ) (next : Script σ α) : Script σ α :=
  .statement (fun s => ((), write s)) fun _ => next

/-- The program when it succeeds. -/
def whole : Script σ α → σ → α × σ
  | .done a, s => (a, s)
  | .statement run next, s => (next (run s).1).whole (run s).2

/-- How many statements it takes. -/
def length : Script σ α → σ → Nat
  | .done _, _ => 0
  | .statement run next, s => (next (run s).1).length (run s).2 + 1

/-- The program when a statement raises after `n` that have succeeded. -/
def cut : Nat → Script σ α → σ → Option α × σ
  | _, .done a, s => (some a, s)
  | 0, .statement _ _, s => (none, s)
  | n + 1, .statement run next, s => cut n (next (run s).1) (run s).2

variable {s : σ} {n : Nat}

@[simp] theorem cut_done (a : α) : cut n (.done a) s = (some a, s) := by
  cases n <;> rfl

@[simp] theorem cut_query_zero (read : σ → β) (next : β → Script σ α) :
    cut 0 (query read next) s = (none, s) := rfl

@[simp] theorem cut_query_succ (read : σ → β) (next : β → Script σ α) :
    cut (n + 1) (query read next) s = cut n (next (read s)) s := rfl

@[simp] theorem cut_execute_zero (write : σ → σ) (next : Script σ α) :
    cut 0 (execute write next) s = (none, s) := rfl

@[simp] theorem cut_execute_succ (write : σ → σ) (next : Script σ α) :
    cut (n + 1) (execute write next) s = cut n next (write s) := rfl

@[simp] theorem whole_done (a : α) : (.done a : Script σ α).whole s = (a, s) := rfl

@[simp] theorem whole_query (read : σ → β) (next : β → Script σ α) :
    (query read next).whole s = (next (read s)).whole s := rfl

@[simp] theorem whole_execute (write : σ → σ) (next : Script σ α) :
    (execute write next).whole s = next.whole (write s) := rfl

/-- Where enough statements succeed, the program does. -/
theorem cut_of_le {p : Script σ α} (h : p.length s ≤ n) :
    cut n p s = (some (p.whole s).1, (p.whole s).2) := by
  induction p generalizing n s with
  | done a => simp
  | statement run next ih =>
      cases n with
      | zero => exact absurd h (Nat.not_succ_le_zero _)
      | succ n => exact ih _ (Nat.le_of_succ_le_succ h)

/-- Where too few do, it fails. -/
theorem cut_of_lt {p : Script σ α} (h : n < p.length s) : (cut n p s).1 = none := by
  induction p generalizing n s with
  | done a => exact absurd h (Nat.not_lt_zero n)
  | statement run next ih =>
      cases n with
      | zero => rfl
      | succ n => exact ih _ (Nat.lt_of_succ_lt_succ h)

end Script

end Transition
