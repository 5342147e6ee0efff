import Mathlib.Algebra.BigOperators.Group.Finset.Basic
import Mathlib.Algebra.Order.BigOperators.Group.Finset
import Bastiq.Concurrency.Machine

/-!
# Everybody gets to an end

Processes that hold keys and wait for keys that others hold. The keys are ranked, and a process that
waits, waits for a key that ranks above all those it holds; so the waiting does not go round in a
circle. Each process has only so many statements left.

* `exists_move` — while anybody is not at their end, somebody can move;
* `all_end` — schedules that pick everybody again and again bring everybody to their end.
-/

namespace Concurrency

open Transition

universe u v w

variable {ι : Type u} {S : Type v} {L : Type w} [DecidableEq ι]

/-- How the processes of a machine take keys. -/
structure Discipline (M : Machine ι S L) (κ : Type v) where
  /-- what holds of every configuration -/
  inv   : Config ι S L → Prop
  holds : S → κ → ι → Prop
  rank  : κ → Nat
  top   : Nat
  /-- how many statements a process has left at most -/
  left  : ι → L → Nat
  next_inv : ∀ c i, inv c → inv (M.next c i)
  rank_le  : ∀ k, rank k ≤ top
  left_lt  : ∀ c, inv c → ∀ i l s, M.step i (c.loc i) c.store = some (l, s) →
    left i l < left i (c.loc i)
  /-- A move gives keys to nobody but the process that makes it. -/
  taker    : ∀ c, inv c → ∀ i l s, M.step i (c.loc i) c.store = some (l, s) →
    ∀ k j, holds s k j → j = i ∨ holds c.store k j
  /-- Who holds a key is not at their end. -/
  holder   : ∀ c, inv c → ∀ k i, holds c.store k i → left i (c.loc i) ≠ 0
  /-- Who cannot move waits for a key, and holds none that ranks as high. -/
  waits    : ∀ c, inv c → ∀ i, left i (c.loc i) ≠ 0 → M.step i (c.loc i) c.store = none →
    ∃ k j, holds c.store k j ∧ ∀ k', holds c.store k' i → rank k' < rank k

namespace Discipline

variable {M : Machine ι S L} {κ : Type v} (D : Discipline M κ) {c : Config ι S L}

/-- A process that can take its next statement. -/
def Moves (M : Machine ι S L) (c : Config ι S L) (i : ι) : Prop :=
  ∃ l s, M.step i (c.loc i) c.store = some (l, s)

/-- Everybody who holds a key is in `F`. -/
def Within (s : S) (F : Finset ι) : Prop := ∀ k i, D.holds s k i → i ∈ F

/-- The statements that are left to those in `F`. -/
def total (F : Finset ι) (c : Config ι S L) : Nat := ∑ i ∈ F, D.left i (c.loc i)

/-- Who holds a key can move, or waits for somebody who holds a key that ranks higher. -/
theorem exists_move_of_holds (h : D.inv c) {F : Finset ι} (hwithin : D.Within c.store F) {n : Nat}
    {k : κ} {i : ι} (hk : D.holds c.store k i) (hn : D.top < D.rank k + n) :
    ∃ j ∈ F, Moves M c j := by
  induction n generalizing k i with
  | zero =>
      have hle := D.rank_le k
      omega
  | succ n ih =>
      cases hstep : M.step i (c.loc i) c.store with
      | some out => exact ⟨i, hwithin k i hk, out.1, out.2, hstep⟩
      | none =>
          obtain ⟨k', j, hj, habove⟩ := D.waits c h i (D.holder c h k i hk) hstep
          have hlt := habove k hk
          exact ih hj (by omega)

/-- **No deadlock**: while somebody is not at their end, somebody can move. -/
theorem exists_move (h : D.inv c) {F : Finset ι} (hwithin : D.Within c.store F) {i : ι}
    (hi : i ∈ F) (hleft : D.left i (c.loc i) ≠ 0) : ∃ j ∈ F, Moves M c j := by
  cases hstep : M.step i (c.loc i) c.store with
  | some out => exact ⟨i, hi, out.1, out.2, hstep⟩
  | none =>
      obtain ⟨k, j, hj, -⟩ := D.waits c h i hleft hstep
      exact D.exists_move_of_holds h hwithin hj (n := D.top + 1) (by omega)

theorem within_next (h : D.inv c) {F : Finset ι} (hwithin : D.Within c.store F) {i : ι}
    (hi : i ∈ F) : D.Within (M.next c i).store F := by
  refine Machine.next_cases (motive := fun c' => D.Within c'.store F) c i hwithin ?_
  intro l s hstep k j hj
  rcases D.taker c h i l s hstep k j hj with rfl | hold
  · exact hi
  · exact hwithin k j hold

/-- A move of somebody in `F` leaves less to do. -/
theorem total_lt (h : D.inv c) {F : Finset ι} {i : ι} (hi : i ∈ F) (hmoves : Moves M c i) :
    D.total F (M.next c i) < D.total F c := by
  obtain ⟨l, s, hstep⟩ := hmoves
  rw [Machine.next_of_some hstep]
  refine Finset.sum_lt_sum (fun j _ => ?_) ⟨i, hi, ?_⟩
  · by_cases hj : j = i
    · subst hj
      rw [Config.move_loc_self]
      exact (D.left_lt c h _ _ _ hstep).le
    · rw [c.move_loc_of_ne hj]
  · rw [Config.move_loc_self]
    exact D.left_lt c h _ _ _ hstep

theorem total_le (h : D.inv c) {F : Finset ι} {i : ι} (hi : i ∈ F) :
    D.total F (M.next c i) ≤ D.total F c := by
  cases hstep : M.step i (c.loc i) c.store with
  | none => rw [Machine.next_of_none hstep]
  | some out => exact (D.total_lt h hi ⟨out.1, out.2, hstep⟩).le

/-- What a schedule of picks from `F` keeps. -/
theorem run_keeps (h : D.inv c) {F : Finset ι} (hwithin : D.Within c.store F) {sched : List ι}
    (hsched : ∀ i ∈ sched, i ∈ F) :
    D.inv (M.run c sched) ∧ D.Within (M.run c sched).store F ∧
      D.total F (M.run c sched) ≤ D.total F c := by
  induction sched generalizing c with
  | nil => exact ⟨h, hwithin, Nat.le_refl _⟩
  | cons i sched ih =>
      obtain ⟨hi, hrest⟩ := List.forall_mem_cons.mp hsched
      obtain ⟨hinv, hwithin, hle⟩ := ih (D.next_inv c i h) (D.within_next h hwithin hi) hrest
      exact ⟨hinv, hwithin, hle.trans (D.total_le h hi)⟩

/-- A round that picks somebody who can move leaves less to do: until the first move of the round
everybody stands where they stood. -/
theorem total_round_lt (h : D.inv c) {F : Finset ι} (hwithin : D.Within c.store F) {round : List ι}
    (hround : ∀ i ∈ round, i ∈ F) {j : ι} (hj : j ∈ round) (hmoves : Moves M c j) :
    D.total F (M.run c round) < D.total F c := by
  induction round with
  | nil => exact absurd hj List.not_mem_nil
  | cons i round ih =>
      obtain ⟨hi, hrest⟩ := List.forall_mem_cons.mp hround
      rw [Machine.run, run_cons]
      cases hstep : M.step i (c.loc i) c.store with
      | some out =>
          have hlt := D.total_lt h hi ⟨out.1, out.2, hstep⟩
          have hkeeps := D.run_keeps (D.next_inv c i h) (D.within_next h hwithin hi) hrest
          exact Nat.lt_of_le_of_lt hkeeps.2.2 hlt
      | none =>
          rw [Machine.next_of_none hstep]
          refine ih hrest ?_
          rcases List.mem_cons.mp hj with rfl | hj
          · obtain ⟨l, s, hmove⟩ := hmoves
            rw [hstep] at hmove
            cases hmove
          · exact hj

/-- **Everybody ends**: as many rounds as there are statements left, each of which picks everybody
in whatever order and however often, bring everybody to their end. -/
theorem all_end (h : D.inv c) {F : Finset ι} (hwithin : D.Within c.store F)
    {rounds : List (List ι)} (hrounds : ∀ round ∈ rounds, ∀ i, i ∈ round ↔ i ∈ F)
    (henough : D.total F c ≤ rounds.length) {i : ι} (hi : i ∈ F) :
    D.left i ((M.run c rounds.flatten).loc i) = 0 := by
  induction rounds generalizing c with
  | nil =>
      have hzero : D.total F c = 0 := Nat.le_zero.mp henough
      exact Finset.sum_eq_zero_iff.mp hzero i hi
  | cons round rounds ih =>
      obtain ⟨hround, hrest⟩ := List.forall_mem_cons.mp hrounds
      obtain ⟨hinv, hwithin', hle⟩ := D.run_keeps h hwithin fun j hj => (hround j).mp hj
      rw [List.flatten_cons, Machine.run_append]
      refine ih hinv hwithin' hrest ?_
      rw [List.length_cons] at henough
      by_cases hdone : D.total F c = 0
      · omega
      · -- somebody is not at their end, so somebody can move, and this round picks them
        obtain ⟨j, hj, hleft⟩ := Finset.exists_ne_zero_of_sum_ne_zero hdone
        obtain ⟨m, hm, hmoves⟩ := D.exists_move h hwithin hj hleft
        have hlt := D.total_round_lt h hwithin (fun j hj => (hround j).mp hj)
          ((hround m).mpr hm) hmoves
        omega

end Discipline

/-! ## One lock table -/

namespace Locks

variable {κ : Type v} [DecidableEq κ] {rank : κ → Nat} {i : ι} {n n' : Nat} {lk lk' : Locks κ ι}

/-- What a statement of process `i` does to the table, when the keys it holds rank below `n` before
and below `n'` afterwards. -/
inductive Changes (rank : κ → Nat) (i : ι) (n n' : Nat) (lk lk' : Locks κ ι) : Prop where
  | same (h : lk' = lk) (hn : n ≤ n')
  | taken {k : κ} (h : lk.acquire i k = some lk') (hn : n ≤ n') (hk : rank k < n')
  | released (h : lk' = lk.release i)

theorem exists_holder_of_acquire {k : κ} (h : lk.acquire i k = none) : ∃ j, lk k = some j := by
  cases hk : lk k with
  | none =>
      rw [acquire_of_none hk] at h
      cases h
  | some j => exact ⟨j, rfl⟩

theorem Changes.taker (h : Changes rank i n n' lk lk') {k : κ} {j : ι} (hj : lk' k = some j) :
    j = i ∨ lk k = some j := by
  cases h with
  | same h hn => exact .inr (h ▸ hj)
  | @taken k₀ h hn hk =>
      by_cases hne : k = k₀
      · rw [hne, acquire_self h] at hj
        exact .inl (Option.some.inj hj).symm
      · rw [acquire_of_ne h hne] at hj
        exact .inr hj
  | released h =>
      rw [h, release] at hj
      split at hj
      · cases hj
      · exact .inr hj

theorem Changes.own (h : Changes rank i n n' lk lk') (hheld : ∀ k, lk k = some i → rank k < n)
    {k : κ} (hk : lk' k = some i) : rank k < n' := by
  cases h with
  | same h hn => exact Nat.lt_of_lt_of_le (hheld k (h ▸ hk)) hn
  | @taken k₀ h hn hrank =>
      by_cases hne : k = k₀
      · rw [hne]
        exact hrank
      · rw [acquire_of_ne h hne] at hk
        exact Nat.lt_of_lt_of_le (hheld k hk) hn
  | released h =>
      rw [h] at hk
      exact absurd hk (release_self lk i k)

end Locks

end Concurrency
