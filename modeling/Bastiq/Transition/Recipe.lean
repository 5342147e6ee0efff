import Bastiq.Transition.Run

/-!
# Recipes

A recipe is a list of items, each of which a step may bring about in a state, or fail. `follow` does
them in turn and stops at the first failure.

* `follow_goals` — where a step reaches its own goal and keeps the goals of the other items, a
  recipe that succeeds has reached all of them;
* `follow_keeps` — what every step keeps, the recipe keeps;
* `follow_of_invariant` — where no step can fail while `Q` holds, the recipe succeeds;
* `follow_eq_run` — where no step can fail at all, the recipe is a run;
* `follow_eq_self` — a state in which no step has anything to do is left as it is.
-/

namespace Transition

universe u v w

variable {S : Type u} {A : Type v} {ε : Type w}

/-- The items in turn. -/
def follow (step : A → S → Except ε S) : List A → S → Except ε S
  | [], s => .ok s
  | a :: as, s =>
      match step a s with
      | .error e => .error e
      | .ok s => follow step as s

variable {step : A → S → Except ε S} {as : List A} {a : A} {s s' : S}

@[simp] theorem follow_nil : follow step [] s = .ok s := rfl

theorem follow_cons_eq_ok :
    follow step (a :: as) s = .ok s' ↔ ∃ t, step a s = .ok t ∧ follow step as t = .ok s' := by
  rw [follow]
  cases step a s with
  | error e => simp
  | ok t => simp

/-- What every step keeps, the recipe keeps. -/
theorem follow_keeps {Q : S → Prop} (hkeep : ∀ a ∈ as, ∀ s s', step a s = .ok s' → Q s → Q s')
    (h : follow step as s = .ok s') (hs : Q s) : Q s' := by
  induction as generalizing s with
  | nil =>
      cases h
      exact hs
  | cons a as ih =>
      obtain ⟨t, ht, h⟩ := follow_cons_eq_ok.mp h
      exact ih (fun b hb => hkeep b (List.mem_cons_of_mem a hb)) h
        (hkeep a List.mem_cons_self s t ht hs)

/-- **Every goal is reached** by a recipe that succeeds. -/
theorem follow_goals {G : A → S → Prop} (hnodup : as.Nodup)
    (hmake : ∀ a ∈ as, ∀ s s', step a s = .ok s' → G a s')
    (hkeep : ∀ a ∈ as, ∀ b ∈ as, a ≠ b → ∀ s s', step a s = .ok s' → G b s → G b s')
    (h : follow step as s = .ok s') : ∀ a ∈ as, G a s' := by
  induction as generalizing s with
  | nil => exact fun a ha => absurd ha List.not_mem_nil
  | cons a as ih =>
      obtain ⟨t, ht, h⟩ := follow_cons_eq_ok.mp h
      obtain ⟨ha, hnodup⟩ := List.nodup_cons.mp hnodup
      have hrest := ih hnodup (fun b hb => hmake b (List.mem_cons_of_mem a hb))
        (fun b hb b' hb' => hkeep b (List.mem_cons_of_mem a hb) b' (List.mem_cons_of_mem a hb')) h
      refine List.forall_mem_cons.mpr ⟨?_, hrest⟩
      -- the rest of the recipe keeps what the first step has reached
      refine follow_keeps (Q := G a) (fun b hb => ?_) h (hmake a List.mem_cons_self s t ht)
      refine hkeep b (List.mem_cons_of_mem a hb) a List.mem_cons_self ?_
      rintro rfl
      exact ha hb

/-- **A recipe none of whose steps can fail** succeeds. -/
theorem follow_of_invariant {Q : S → Prop}
    (hstep : ∀ a ∈ as, ∀ s, Q s → ∃ s', step a s = .ok s' ∧ Q s') (hs : Q s) :
    ∃ s', follow step as s = .ok s' ∧ Q s' := by
  induction as generalizing s with
  | nil => exact ⟨s, rfl, hs⟩
  | cons a as ih =>
      obtain ⟨t, ht, hQ⟩ := hstep a List.mem_cons_self s hs
      obtain ⟨s', h, hs'⟩ := ih (fun b hb => hstep b (List.mem_cons_of_mem a hb)) hQ
      exact ⟨s', follow_cons_eq_ok.mpr ⟨t, ht, h⟩, hs'⟩

/-- **A recipe that cannot fail** is a run. -/
theorem follow_eq_run {f : A → S → S} (h : ∀ a ∈ as, ∀ s, step a s = .ok (f a s)) (s : S) :
    follow step as s = .ok (run f s as) := by
  induction as generalizing s with
  | nil => rfl
  | cons a as ih =>
      refine follow_cons_eq_ok.mpr ⟨f a s, h a List.mem_cons_self s, ?_⟩
      exact ih (fun b hb => h b (List.mem_cons_of_mem a hb)) (f a s)

/-- **A recipe with nothing to do** does nothing. -/
theorem follow_eq_self (h : ∀ a ∈ as, step a s = .ok s) : follow step as s = .ok s := by
  have hstep : ∀ a ∈ as, ∀ t, t = s → ∃ t', step a t = .ok t' ∧ t' = s := by
    rintro a ha t rfl
    exact ⟨t, h a ha, rfl⟩
  obtain ⟨s', hfollow, rfl⟩ := follow_of_invariant hstep rfl
  exact hfollow

end Transition
