import Mathlib.Logic.Function.Basic
import Bastiq.Transition.Run

/-!
# Processes over a shared store

A `Machine` is a family of processes that share one store. Each process is at a local state, and
its next statement is a function of that local state and of the store: it yields the next local
state and the next store, or nothing when the process is blocked or has finished.

An interleaving is a *schedule*, the list of the processes in the order they are picked. Picking a
process that cannot move changes nothing, so every list is a schedule and `run` is total. The
number of processes is not bounded: a finite schedule picks finitely many of them.

A schedule is a run of the transition function `next`, so the rules for runs apply: `Along P` says
that every step is taken where `P` allows it, `Always Q` that every configuration satisfies `Q`.
-/

namespace Concurrency

universe u v w

/-- A family of processes: what process `i` does next, at a local state and a store. -/
structure Machine (ι : Type u) (S : Type v) (L : Type w) where
  step : ι → L → S → Option (L × S)

/-- The store and where every process stands. -/
structure Config (ι : Type u) (S : Type v) (L : Type w) where
  store : S
  loc   : ι → L

namespace Config

variable {ι : Type u} {S : Type v} {L : Type w} [DecidableEq ι]

/-- Process `i` is now at `l`, and the store is `s`. -/
def move (c : Config ι S L) (i : ι) (l : L) (s : S) : Config ι S L :=
  ⟨s, Function.update c.loc i l⟩

@[simp] theorem move_store (c : Config ι S L) (i : ι) (l : L) (s : S) :
    (c.move i l s).store = s := rfl

@[simp] theorem move_loc_self (c : Config ι S L) (i : ι) (l : L) (s : S) :
    (c.move i l s).loc i = l :=
  Function.update_self ..

theorem move_loc_of_ne (c : Config ι S L) {i j : ι} (h : j ≠ i) (l : L) (s : S) :
    (c.move i l s).loc j = c.loc j :=
  Function.update_of_ne h ..

/-- A process stands where it has moved to while another one moves. -/
theorem move_move_loc (c : Config ι S L) {i j : ι} (h : j ≠ i) (l l' : L) (s s' : S) :
    ((c.move i l s).move j l' s').loc i = l := by
  rw [move_loc_of_ne _ h.symm, move_loc_self]

/-- What holds of every place holds of every place after a move, if it holds of the new one. -/
theorem forall_move {P : ι → L → Prop} {c : Config ι S L} {i : ι} {l : L} {s : S}
    (h : ∀ j, P j (c.loc j)) (hl : P i l) (j : ι) : P j ((c.move i l s).loc j) := by
  by_cases hj : j = i
  · subst hj
    rwa [move_loc_self]
  · rw [c.move_loc_of_ne hj]
    exact h j

end Config

namespace Machine

variable {ι : Type u} {S : Type v} {L : Type w} [DecidableEq ι] (M : Machine ι S L)

/-- Process `i` is picked: it takes its next statement, if it can. -/
def next (c : Config ι S L) (i : ι) : Config ι S L :=
  match M.step i (c.loc i) c.store with
  | none => c
  | some (l, s) => c.move i l s

/-- The configuration a schedule leads to. -/
abbrev run (c : Config ι S L) (sched : List ι) : Config ι S L :=
  Transition.run (fun i c => M.next c i) c sched

/-- Every step of the run is taken in a configuration where `P` allows it. -/
abbrev Along (P : Config ι S L → ι → Prop) (c : Config ι S L) (sched : List ι) : Prop :=
  Transition.Each (fun i c => M.next c i) P c sched

/-- Every configuration of the run satisfies `Q`, the first and the last included. -/
abbrev Always (Q : Config ι S L → Prop) (c : Config ι S L) (sched : List ι) : Prop :=
  Transition.States (fun i c => M.next c i) Q c sched

variable {M}

theorem next_of_none {c : Config ι S L} {i : ι} (h : M.step i (c.loc i) c.store = none) :
    M.next c i = c := by
  simp only [next, h]

theorem next_of_some {c : Config ι S L} {i : ι} {l : L} {s : S}
    (h : M.step i (c.loc i) c.store = some (l, s)) :
    M.next c i = c.move i l s := by
  simp only [next, h]

theorem next_of_loc {c : Config ι S L} {i : ι} {l l' : L} {s : S} (hloc : c.loc i = l)
    (h : M.step i l c.store = some (l', s)) : M.next c i = c.move i l' s := by
  subst hloc
  exact next_of_some h

theorem along_cons {P : Config ι S L → ι → Prop} {c : Config ι S L} {i : ι} {sched : List ι} :
    M.Along P c (i :: sched) ↔ P c i ∧ M.Along P (M.next c i) sched := Iff.rfl

theorem run_append (c : Config ι S L) (pre post : List ι) :
    M.run c (pre ++ post) = M.run (M.run c pre) post :=
  Transition.run_append c pre post

/-- A property that survives every move of a process survives the picks that move nothing too. -/
theorem next_cases {motive : Config ι S L → Prop} (c : Config ι S L) (i : ι) (hc : motive c)
    (hmove : ∀ l s, M.step i (c.loc i) c.store = some (l, s) → motive (c.move i l s)) :
    motive (M.next c i) := by
  cases h : M.step i (c.loc i) c.store with
  | none => rw [next_of_none h]; exact hc
  | some ls => rw [next_of_some h]; exact hmove ls.1 ls.2 h

/-- **What every process knows**: if a move tells the process that makes it what it should know there,
and leaves what the others know, then everybody knows afterwards. -/
theorem knows_next {K : ι → S → L → Prop} {c : Config ι S L} {i : ι}
    (h : ∀ j, K j c.store (c.loc j))
    (hown : ∀ l s, M.step i (c.loc i) c.store = some (l, s) → K i s l)
    (hothers : ∀ l s, M.step i (c.loc i) c.store = some (l, s) → ∀ j, j ≠ i → K j s (c.loc j))
    (j : ι) : K j (M.next c i).store ((M.next c i).loc j) := by
  refine next_cases (motive := fun c' => K j c'.store (c'.loc j)) c i (h j) fun l s hstep => ?_
  rw [Config.move_store]
  by_cases hj : j = i
  · subst hj
    rw [Config.move_loc_self]
    exact hown l s hstep
  · rw [c.move_loc_of_ne hj]
    exact hothers l s hstep j hj

/-- A process that is at its end stays there. -/
theorem loc_next_of_final {c : Config ι S L} {j : ι} (hfinal : ∀ s, M.step j (c.loc j) s = none)
    (i : ι) : (M.next c i).loc j = c.loc j := by
  refine next_cases (motive := fun c' => c'.loc j = c.loc j) c i rfl fun l s hstep => ?_
  refine c.move_loc_of_ne ?_ l s
  rintro rfl
  rw [hfinal] at hstep
  cases hstep

/-- **A process left alone**: if from every configuration that satisfies `Q` it can move, until `μ`
is zero, and `μ` decreases, then as many picks as `μ` says bring it there. -/
theorem runs_alone {Q : Config ι S L → Prop} {μ : L → Nat} {i : ι}
    (hstep : ∀ c, Q c → μ (c.loc i) ≠ 0 → ∃ l s, M.step i (c.loc i) c.store = some (l, s) ∧
      μ l < μ (c.loc i) ∧ Q (c.move i l s))
    {n : Nat} {c : Config ι S L} (hc : Q c) (hn : μ (c.loc i) ≤ n)
    (hfinal : ∀ c, Q c → μ (c.loc i) = 0 → M.step i (c.loc i) c.store = none) :
    Q (M.run c (List.replicate n i)) ∧ μ ((M.run c (List.replicate n i)).loc i) = 0 := by
  induction n generalizing c with
  | zero => exact ⟨hc, Nat.le_zero.mp hn⟩
  | succ n ih =>
      rw [List.replicate_succ, run, Transition.run_cons]
      -- at its end the process takes no more statements, so the other picks are idle
      by_cases hzero : μ (c.loc i) = 0
      · rw [next_of_none (hfinal c hc hzero)]
        exact ih hc (hzero ▸ Nat.zero_le n)
      · obtain ⟨l, s, hmove, hlt, hQ⟩ := hstep c hc hzero
        rw [next_of_some hmove]
        refine ih hQ ?_
        rw [Config.move_loc_self]
        omega

variable (M) in
/-- Process `i` alone, for at most `n` statements. -/
def alone (i : ι) : Nat → L → S → L × S
  | 0, l, s => (l, s)
  | n + 1, l, s =>
      match M.step i l s with
      | none => (l, s)
      | some (l, s) => alone i n l s

omit [DecidableEq ι] in
theorem alone_succ {i : ι} {n : Nat} {l l' : L} {s s' : S} (h : M.step i l s = some (l', s')) :
    M.alone i (n + 1) l s = M.alone i n l' s' := by
  simp only [alone, h]

omit [DecidableEq ι] in
theorem alone_of_none {i : ι} {l : L} {s : S} (h : M.step i l s = none) (n : Nat) :
    M.alone i n l s = (l, s) := by
  cases n with
  | zero => rfl
  | succ n => simp only [alone, h]

/-- Picking one process again and again is running it alone. -/
theorem run_replicate (c : Config ι S L) (i : ι) (n : Nat) :
    ((M.run c (List.replicate n i)).loc i, (M.run c (List.replicate n i)).store) =
      M.alone i n (c.loc i) c.store := by
  induction n generalizing c with
  | zero => rfl
  | succ n ih =>
      rw [List.replicate_succ, run, Transition.run_cons, ih]
      cases h : M.step i (c.loc i) c.store with
      | none => rw [next_of_none h, alone_of_none h, alone_of_none h]
      | some ls => rw [next_of_some h, alone_succ h, Config.move_loc_self, Config.move_store]

end Machine

/-! ## Exclusive locks

A lock table names, for each key, the process that holds it. The only way in is `acquire`, which
fails while another process holds the key, and a process gives back everything it holds at once,
when its transaction ends. -/

/-- Who holds each key. -/
abbrev Locks (κ : Type v) (ι : Type u) := κ → Option ι

namespace Locks

variable {κ : Type v} {ι : Type u} [DecidableEq κ] [DecidableEq ι]

/-- Nobody holds anything. -/
def free : Locks κ ι := fun _ => none

/-- Process `i` takes key `k`, or waits while another process holds it. -/
def acquire (lk : Locks κ ι) (i : ι) (k : κ) : Option (Locks κ ι) :=
  match lk k with
  | none => some (Function.update lk k (some i))
  | some j => if j = i then some lk else none

/-- Process `i` ends its transaction. -/
def release (lk : Locks κ ι) (i : ι) : Locks κ ι := fun k => if lk k = some i then none else lk k

omit [DecidableEq κ] [DecidableEq ι] in
@[simp] theorem free_apply (k : κ) : (free : Locks κ ι) k = none := rfl

theorem acquire_self {lk lk' : Locks κ ι} {i : ι} {k : κ} (h : lk.acquire i k = some lk') :
    lk' k = some i := by
  unfold acquire at h
  split at h
  · cases h; simp
  · next j hj =>
    split at h
    · cases h; simpa [hj]
    · cases h

/-- Taking a key takes no other key from anyone. -/
theorem acquire_of_ne {lk lk' : Locks κ ι} {i : ι} {k k' : κ} (h : lk.acquire i k = some lk')
    (hne : k' ≠ k) : lk' k' = lk k' := by
  unfold acquire at h
  split at h
  · cases h; simp [hne]
  · split at h
    · cases h; rfl
    · cases h

/-- **Exclusion**: a key that another process holds cannot be taken. -/
theorem acquire_holder {lk lk' : Locks κ ι} {i j : ι} {k : κ} (h : lk.acquire i k = some lk')
    (hj : lk k = some j) : j = i := by
  unfold acquire at h
  rw [hj] at h
  simp only at h
  split at h
  · assumption
  · cases h

/-- A process keeps the keys it holds while another one takes a key. -/
theorem acquire_held {lk lk' : Locks κ ι} {i j : ι} {k k' : κ} (h : lk.acquire i k = some lk')
    (hj : lk k' = some j) : lk' k' = some j := by
  by_cases hk : k' = k
  · subst hk
    rw [acquire_holder h hj]
    exact acquire_self h
  · rw [acquire_of_ne h hk, hj]

omit [DecidableEq κ] in
@[simp] theorem release_self (lk : Locks κ ι) (i : ι) (k : κ) : lk.release i k ≠ some i := by
  unfold release
  split
  · simp
  · assumption

omit [DecidableEq κ] in
/-- A process keeps the keys it holds when another one ends its transaction. -/
theorem release_held {lk : Locks κ ι} {i j : ι} {k : κ} (hj : lk k = some j) (hne : j ≠ i) :
    lk.release i k = some j := by
  unfold release
  rw [if_neg (by rw [hj]; simpa using hne), hj]

/-- The lock table with the processes in `gone` left out. -/
def without (lk : Locks κ ι) (gone : ι → Bool) : Locks κ ι := fun k => (lk k).filter (!gone ·)

omit [DecidableEq κ] [DecidableEq ι] in
@[simp] theorem free_without (gone : ι → Bool) : (free : Locks κ ι).without gone = free := rfl

section Without

omit [DecidableEq κ] [DecidableEq ι]

variable {lk lk' : Locks κ ι} {gone : ι → Bool} {i : ι} {k : κ}

theorem without_none (h : lk k = none) : lk.without gone k = none := by
  rw [without, h, Option.filter_none]

theorem without_kept (h : lk k = some i) (hi : gone i = false) : lk.without gone k = some i := by
  simp only [without, h, Option.filter_some, hi, Bool.not_false, if_true]

theorem without_gone (h : lk k = some i) (hi : gone i = true) : lk.without gone k = none := by
  simp only [without, h, Option.filter_some, hi, Bool.not_true, Bool.false_eq_true, if_false]

theorem without_congr (h : lk' k = lk k) : lk'.without gone k = lk.without gone k := by
  rw [without, without, h]

end Without

theorem acquire_of_none {lk : Locks κ ι} {k : κ} (h : lk k = none) (i : ι) :
    lk.acquire i k = some (Function.update lk k (some i)) := by
  simp only [acquire, h]

theorem acquire_of_held {lk : Locks κ ι} {i : ι} {k : κ} (h : lk k = some i) :
    lk.acquire i k = some lk := by
  simp only [acquire, h, if_true]

/-- Who can take a key among all can take it among those that stay. -/
theorem acquire_without {lk lk' : Locks κ ι} {gone : ι → Bool} {i : ι} {k : κ}
    (hi : gone i = false) (h : lk.acquire i k = some lk') :
    (lk.without gone).acquire i k = some (lk'.without gone) := by
  cases hk : lk k with
  | none =>
      rw [acquire_of_none hk] at h
      obtain rfl := Option.some.inj h
      rw [acquire_of_none (without_none hk)]
      congr 1
      funext k'
      by_cases hne : k' = k
      · subst hne
        rw [without_kept (Function.update_self ..) hi, Function.update_self]
      · rw [Function.update_of_ne hne, without_congr (Function.update_of_ne hne ..)]
  | some j =>
      obtain rfl := acquire_holder h hk
      rw [acquire_of_held hk] at h
      obtain rfl := Option.some.inj h
      exact acquire_of_held (without_kept hk hi)

/-- What one that is left out takes is not seen. -/
theorem acquire_gone {lk lk' : Locks κ ι} {gone : ι → Bool} {i : ι} {k : κ}
    (hi : gone i = true) (h : lk.acquire i k = some lk') : lk'.without gone = lk.without gone := by
  funext k'
  by_cases hne : k' = k
  · subst hne
    rw [without_gone (acquire_self h) hi]
    cases hk : lk k' with
    | none => rw [without_none hk]
    | some j => rw [without_gone hk (acquire_holder h hk ▸ hi)]
  · exact without_congr (acquire_of_ne h hne)

omit [DecidableEq κ] in
theorem release_of_ne {lk : Locks κ ι} {i : ι} {k : κ} (h : lk k ≠ some i) :
    lk.release i k = lk k :=
  if_neg h

omit [DecidableEq κ] in
theorem release_held_self {lk : Locks κ ι} {i : ι} {k : κ} (h : lk k = some i) :
    lk.release i k = none :=
  if_pos h

/-- A process that had nothing, took a key and ends has left the table as it was. -/
theorem release_acquire {lk lk' : Locks κ ι} {i : ι} {k : κ} (h : lk.acquire i k = some lk')
    (hnothing : ∀ k, lk k ≠ some i) : lk'.release i = lk := by
  funext k'
  by_cases hk : k' = k
  · subst hk
    rw [release_held_self (acquire_self h)]
    cases hj : lk k' with
    | none => rfl
    | some j => exact absurd (acquire_holder h hj ▸ hj) (hnothing k')
  · rw [release_of_ne (acquire_of_ne h hk ▸ hnothing k'), acquire_of_ne h hk]

omit [DecidableEq κ] in
theorem release_without (lk : Locks κ ι) {gone : ι → Bool} {i : ι} (hi : gone i = false) :
    (lk.release i).without gone = (lk.without gone).release i := by
  funext k
  by_cases hk : lk k = some i
  · rw [without_none (release_held_self hk), release_held_self (without_kept hk hi)]
  · rw [without_congr (release_of_ne hk), release_of_ne]
    intro h
    obtain ⟨h, -⟩ := Option.filter_eq_some_iff.mp h
    exact hk h

omit [DecidableEq κ] in
theorem release_gone (lk : Locks κ ι) {gone : ι → Bool} {i : ι} (hi : gone i = true) :
    (lk.release i).without gone = lk.without gone := by
  funext k
  by_cases hk : lk k = some i
  · rw [without_gone hk hi, without_none (release_held_self hk)]
  · exact without_congr (release_of_ne hk)

/-! ### Only one process -/

/-- Nobody but `i` holds anything. -/
def HeldBy (lk : Locks κ ι) (i : ι) : Prop := ∀ k j, lk k = some j → j = i

variable {lk lk' : Locks κ ι} {i : ι}

omit [DecidableEq κ] [DecidableEq ι] in
theorem heldBy_free (i : ι) : (free : Locks κ ι).HeldBy i := fun _ _ h => nomatch h

theorem HeldBy.acquire (h : lk.HeldBy i) (k : κ) : ∃ lk', lk.acquire i k = some lk' := by
  cases hk : lk k with
  | none => exact ⟨_, acquire_of_none hk i⟩
  | some j => exact ⟨lk, acquire_of_held (h k j hk ▸ hk)⟩

theorem HeldBy.of_acquire (h : lk.HeldBy i) {k : κ} (hacquire : lk.acquire i k = some lk') :
    lk'.HeldBy i := by
  intro k' j hj
  by_cases hk : k' = k
  · subst hk
    rw [acquire_self hacquire] at hj
    exact (Option.some.inj hj).symm
  · rw [acquire_of_ne hacquire hk] at hj
    exact h k' j hj

omit [DecidableEq κ] in
theorem HeldBy.release (h : lk.HeldBy i) : (lk.release i).HeldBy i := by
  intro k j hj
  by_cases hk : lk k = some i
  · rw [release_held_self hk] at hj
    cases hj
  · rw [release_of_ne hk] at hj
    exact h k j hj

end Locks

end Concurrency
