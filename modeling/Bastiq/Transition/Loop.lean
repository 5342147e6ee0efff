import Mathlib.Data.List.Nodup
import Mathlib.Data.Nat.Find
import Mathlib.Logic.Function.Iterate

/-!
# Loops

`while cond s: s = body s`. The condition is tested before every turn, and the loop ends where a
test fails. Nothing bounds the number of tests beforehand.

* `Ends.keeps` — what a turn keeps, the loop keeps;
* `ends_of_iterate` — the loop ends after the first turn that makes the condition fail;
* `exists_ends` — a loop that goes on only while what it looks at is in a list, and that never looks
  at the same thing twice, ends: it has one test for everything in the list, and one more.
-/

namespace Transition

universe u v

/-- A sequence without repetitions does not stay in a list for longer than the list is. -/
theorem le_length_of_used {α : Type v} {f : Nat → α} {used : List α}
    (hf : ∀ i j, f i = f j → i = j) {n : Nat} (h : ∀ i < n, f i ∈ used) : n ≤ used.length := by
  have hnodup : ((List.range n).map f).Nodup := List.nodup_range.map fun i j hij => hf i j hij
  have hsubset : (List.range n).map f ⊆ used := by
    intro a ha
    obtain ⟨i, hi, rfl⟩ := List.mem_map.mp ha
    exact h i (List.mem_range.mp hi)
  have hlength := hnodup.length_le_of_subset hsubset
  rwa [List.length_map, List.length_range] at hlength

variable {S : Type u}

/-- From `s` on, the loop tests its condition `n` times and ends in `s'`. -/
inductive Ends (cond : S → Bool) (body : S → S) : S → Nat → S → Prop where
  | stop {s : S} (h : cond s = false) : Ends cond body s 1 s
  | turn {s s' : S} {n : Nat} (h : cond s = true) (hrest : Ends cond body (body s) n s') :
      Ends cond body s (n + 1) s'

variable {cond : S → Bool} {body : S → S} {s s' : S} {n : Nat}

theorem Ends.cond_eq_false (h : Ends cond body s n s') : cond s' = false := by
  induction h with
  | stop h => exact h
  | turn _ _ ih => exact ih

/-- **What a turn keeps, the loop keeps.** -/
theorem Ends.keeps {Q : S → Prop} (hturn : ∀ s, cond s = true → Q s → Q (body s))
    (h : Ends cond body s n s') (hs : Q s) : Q s' := by
  induction h with
  | stop _ => exact hs
  | turn hcond _ ih => exact ih (hturn _ hcond hs)

theorem ends_of_iterate (hstop : cond (body^[n] s) = false)
    (hturns : ∀ i < n, cond (body^[i] s) = true) : Ends cond body s (n + 1) (body^[n] s) := by
  induction n generalizing s with
  | zero => exact .stop hstop
  | succ n ih =>
      refine .turn (hturns 0 (Nat.succ_pos n)) (ih hstop fun i hi => ?_)
      exact hturns (i + 1) (Nat.succ_lt_succ hi)

/-- **A loop that runs out of what keeps it going** ends. -/
theorem exists_ends {α : Type v} {f : S → α} {used : List α}
    (hf : ∀ i j, f (body^[i] s) = f (body^[j] s) → i = j)
    (hused : ∀ s, cond s = true → f s ∈ used) :
    ∃ n s', Ends cond body s n s' ∧ n ≤ used.length + 1 := by
  have hexists : ∃ n, cond (body^[n] s) = false := by
    by_contra hnever
    have hle := le_length_of_used hf (n := used.length + 1) fun i _ => by
      apply hused
      by_contra hi
      exact hnever ⟨i, Bool.eq_false_iff.mpr hi⟩
    omega
  have hturns : ∀ i < Nat.find hexists, cond (body^[i] s) = true := by
    intro i hi
    simpa using Nat.find_min hexists hi
  refine ⟨_, _, ends_of_iterate (Nat.find_spec hexists) hturns, ?_⟩
  have hle := le_length_of_used hf fun i hi => hused _ (hturns i hi)
  omega

end Transition
