import Mathlib.Data.List.Basic

/-!
# Runs of a transition function

A system that takes one action after another: `step a s` is the state that action `a` leaves when it
finds `s`. A run is a list of actions.

* `Each P` — every action of the run is taken in a state where `P` allows it;
* `States Q` — every state of the run satisfies `Q`, the first and the last included;
* `states_of_each` — the invariant rule: what each allowed action preserves holds throughout;
* `states_iff_each` — its converse too, for an invariant that `P` characterises;
* `kept_or_turned` — a fact that some actions end for good lasts as long as none of them is taken;
* `exists_sublist_run` — a run seen as a run of another system.
-/

namespace Transition

universe u v w

variable {S : Type u} {A : Type v} (step : A → S → S)

/-- The state a list of actions leads to. -/
def run (s : S) (as : List A) : S := as.foldl (fun s a => step a s) s

/-- Every action of the run is taken in a state where `P` allows it. -/
def Each (P : S → A → Prop) : S → List A → Prop
  | _, [] => True
  | s, a :: as => P s a ∧ Each P (step a s) as

/-- Every state of the run satisfies `Q`. -/
def States (Q : S → Prop) : S → List A → Prop
  | s, [] => Q s
  | s, a :: as => Q s ∧ States Q (step a s) as

instance decidableEach (P : S → A → Prop) [∀ s a, Decidable (P s a)] :
    ∀ s as, Decidable (Each step P s as)
  | _, [] => isTrue trivial
  | s, a :: as =>
      haveI := decidableEach P (step a s) as
      inferInstanceAs (Decidable (P s a ∧ Each step P (step a s) as))

instance decidableStates (Q : S → Prop) [∀ s, Decidable (Q s)] :
    ∀ s as, Decidable (States step Q s as)
  | s, [] => inferInstanceAs (Decidable (Q s))
  | s, a :: as =>
      haveI := decidableStates Q (step a s) as
      inferInstanceAs (Decidable (Q s ∧ States step Q (step a s) as))

variable {step}

@[simp] theorem run_nil (s : S) : run step s [] = s := rfl

@[simp] theorem run_cons (s : S) (a : A) (as : List A) :
    run step s (a :: as) = run step (step a s) as := rfl

theorem run_append (s : S) (pre post : List A) :
    run step s (pre ++ post) = run step (run step s pre) post :=
  List.foldl_append

/-- An action that changes nothing where it stands can be left out of the run. -/
theorem run_erase {s : S} {pre post : List A} {a : A}
    (h : step a (run step s pre) = run step s pre) :
    run step s (pre ++ a :: post) = run step s (pre ++ post) := by
  rw [run_append, run_append, run_cons, h]

theorem Each.mono {P P' : S → A → Prop} (hP : ∀ s a, P s a → P' s a) {as : List A} {s : S}
    (h : Each step P s as) : Each step P' s as := by
  induction as generalizing s with
  | nil => trivial
  | cons a as ih => exact ⟨hP s a h.1, ih h.2⟩

theorem Each.and {P P' : S → A → Prop} {as : List A} {s : S} (h : Each step P s as)
    (h' : Each step P' s as) : Each step (fun s a => P s a ∧ P' s a) s as := by
  induction as generalizing s with
  | nil => trivial
  | cons a as ih => exact ⟨⟨h.1, h'.1⟩, ih h.2 h'.2⟩

theorem each_congr {P P' : S → A → Prop} (hP : ∀ s a, P s a ↔ P' s a) {as : List A} {s : S} :
    Each step P s as ↔ Each step P' s as :=
  ⟨Each.mono fun s a => (hP s a).mp, Each.mono fun s a => (hP s a).mpr⟩

theorem each_of_forall {P : S → A → Prop} (hP : ∀ s a, P s a) (as : List A) (s : S) :
    Each step P s as := by
  induction as generalizing s with
  | nil => trivial
  | cons a as ih => exact ⟨hP s a, ih _⟩

/-- A run of allowed actions. -/
theorem each_of_mem {P : A → Prop} {as : List A} (h : ∀ a ∈ as, P a) (s : S) :
    Each step (fun _ a => P a) s as := by
  induction as generalizing s with
  | nil => trivial
  | cons a as ih =>
      exact ⟨h a List.mem_cons_self, ih (fun b hb => h b (List.mem_cons_of_mem a hb)) _⟩

theorem States.head {Q : S → Prop} {as : List A} {s : S} (h : States step Q s as) : Q s := by
  cases as with
  | nil => exact h
  | cons a as => exact h.1

theorem States.last {Q : S → Prop} {as : List A} {s : S} (h : States step Q s as) :
    Q (run step s as) := by
  induction as generalizing s with
  | nil => exact h
  | cons a as ih => exact ih h.2

theorem States.mono {Q Q' : S → Prop} (hQ : ∀ s, Q s → Q' s) {as : List A} {s : S}
    (h : States step Q s as) : States step Q' s as := by
  induction as generalizing s with
  | nil => exact hQ s h
  | cons a as ih => exact ⟨hQ s h.1, ih h.2⟩

theorem States.and {Q Q' : S → Prop} {as : List A} {s : S} (h : States step Q s as)
    (h' : States step Q' s as) : States step (fun s => Q s ∧ Q' s) s as := by
  induction as generalizing s with
  | nil => exact ⟨h, h'⟩
  | cons a as ih => exact ⟨⟨h.1, h'.1⟩, ih h.2 h'.2⟩

/-- **The invariant rule**: what every allowed action preserves holds throughout the run. -/
theorem states_of_each {P : S → A → Prop} {Q : S → Prop}
    (hstep : ∀ s a, Q s → P s a → Q (step a s)) {as : List A} {s : S} (hs : Q s)
    (h : Each step P s as) : States step Q s as := by
  induction as generalizing s with
  | nil => exact hs
  | cons a as ih => exact ⟨hs, ih (hstep s a hs h.1) h.2⟩

/-- The invariant rule for actions that need no permission. -/
theorem states_of_step {Q : S → Prop} (hstep : ∀ s a, Q s → Q (step a s)) {s : S} (hs : Q s)
    (as : List A) : States step Q s as :=
  states_of_each (fun s a h _ => hstep s a h) hs (each_of_forall (fun _ _ => trivial) as s)

/-- Along a run an invariant may be assumed at every action. -/
theorem Each.and_invariant {P : S → A → Prop} {Q : S → Prop}
    (hstep : ∀ s a, Q s → P s a → Q (step a s)) {as : List A} {s : S} (hs : Q s)
    (h : Each step P s as) : Each step (fun s a => P s a ∧ Q s) s as := by
  induction as generalizing s with
  | nil => trivial
  | cons a as ih => exact ⟨⟨h.1, hs⟩, ih (hstep s a hs h.1) h.2⟩

/-- What the end of a run rules out, no action of the run has done: if an action that `P` does not
allow leads to `Q`, and `Q` stays, then a run that ends outside `Q` has no such action. -/
theorem each_of_last {P : S → A → Prop} {Q : S → Prop} (hbad : ∀ s a, ¬ P s a → Q (step a s))
    (hstays : ∀ s a, Q s → Q (step a s)) {as : List A} {s : S} (h : ¬ Q (run step s as)) :
    Each step P s as := by
  induction as generalizing s with
  | nil => trivial
  | cons a as ih =>
      refine ⟨?_, ih h⟩
      by_contra hP
      apply h
      exact (states_of_step hstays (hbad s a hP) as).last

/-- **Kept, or turned for good**: the actions that `P` allows keep `Q`, the others lead to `Q'`, and
`Q'` stays. So a run keeps `Q` to its end exactly when `P` allows all of its actions; `R` is what may
be assumed of the run. -/
theorem kept_or_turned {P R : S → A → Prop} {Q Q' : S → Prop}
    (hkeep : ∀ s a, Q s → R s a → P s a → Q (step a s))
    (hturn : ∀ s a, Q s → R s a → ¬ P s a → Q' (step a s))
    (hstays : ∀ s a, Q' s → R s a → Q' (step a s)) {as : List A} {s : S} (hs : Q s)
    (hR : Each step R s as) :
    (Each step P s as ∧ Q (run step s as)) ∨ (¬ Each step P s as ∧ Q' (run step s as)) := by
  induction as generalizing s with
  | nil => exact .inl ⟨trivial, hs⟩
  | cons a as ih =>
      by_cases hP : P s a
      · rcases ih (hkeep s a hs hR.1 hP) hR.2 with ⟨hall, hQ⟩ | ⟨hnot, hQ'⟩
        · exact .inl ⟨⟨hP, hall⟩, hQ⟩
        · exact .inr ⟨fun h => hnot h.2, hQ'⟩
      · refine .inr ⟨fun h => hP h.1, ?_⟩
        exact (states_of_each hstays (hturn s a hs hR.1 hP) hR.2).last

/-- What holds at the end and not at the beginning has come about at some action. -/
theorem exists_turn {Q : S → Prop} {as : List A} {s : S} (hs : ¬ Q s) (h : Q (run step s as)) :
    ∃ pre a post, as = pre ++ a :: post ∧ ¬ Q (run step s pre) ∧
      Q (step a (run step s pre)) := by
  induction as generalizing s with
  | nil => exact absurd h hs
  | cons a as ih =>
      by_cases hturn : Q (step a s)
      · exact ⟨[], a, as, rfl, hs, hturn⟩
      · obtain ⟨pre, b, post, has, hpre, hb⟩ := ih hturn h
        exact ⟨a :: pre, b, post, congrArg (a :: ·) has, hpre, hb⟩

/-- What an action shows by leaving the invariant intact, every action of a run shows that keeps
it. -/
theorem each_of_states {P : S → A → Prop} {Q : S → Prop}
    (hstep : ∀ s a, Q s → Q (step a s) → P s a) {as : List A} {s : S}
    (h : States step Q s as) : Each step P s as := by
  induction as generalizing s with
  | nil => trivial
  | cons a as ih => exact ⟨hstep s a h.1 h.2.head, ih h.2⟩

/-- What every run shows at its actions holds of every action in every state reached. -/
theorem states_of_forall_each {P : S → A → Prop} {s : S} (h : ∀ as, Each step P s as)
    (as : List A) : States step (fun s => ∀ a, P s a) s as := by
  induction as generalizing s with
  | nil => exact fun a => (h [a]).1
  | cons a as ih => exact ⟨fun b => (h [b]).1, ih fun as' => (h (a :: as')).2⟩

/-- The two together, for an invariant that an action keeps exactly when `P` allows it; `R` is what
may be assumed of the run. -/
theorem states_iff_each {P R : S → A → Prop} {Q : S → Prop}
    (hstep : ∀ s a, Q s → R s a → (Q (step a s) ↔ P s a)) {as : List A} {s : S} (hs : Q s)
    (hR : Each step R s as) : States step Q s as ↔ Each step P s as := by
  induction as generalizing s with
  | nil => exact ⟨fun _ => trivial, fun _ => hs⟩
  | cons a as ih =>
      constructor
      · intro h
        have hnext := h.2.head
        exact ⟨(hstep s a hs hR.1).mp hnext, (ih hnext hR.2).mp h.2⟩
      · intro h
        have hnext := (hstep s a hs hR.1).mpr h.1
        exact ⟨hs, (ih hnext hR.2).mpr h.2⟩

/-- **Stuttering simulation**: if every action is seen through `f` as the same action of another
system, or not at all, then so is a run, as a run of some of its actions. -/
theorem exists_sublist_run {T : Type w} {step' : A → T → T} {f : S → T} {Q : S → Prop}
    (hstep : ∀ s a, Q s → Q (step a s))
    (hsim : ∀ s a, Q s → f (step a s) = f s ∨ f (step a s) = step' a (f s))
    {as : List A} {s : S} (hs : Q s) :
    ∃ picks, picks.Sublist as ∧ f (run step s as) = run step' (f s) picks := by
  induction as generalizing s with
  | nil => exact ⟨[], .slnil, rfl⟩
  | cons a as ih =>
      obtain ⟨picks, hpicks, hrun⟩ := ih (hstep s a hs)
      rcases hsim s a hs with hsame | hmove
      · refine ⟨picks, hpicks.cons a, ?_⟩
        rw [run_cons, hrun, hsame]
      · refine ⟨a :: picks, hpicks.cons_cons a, ?_⟩
        rw [run_cons, hrun, hmove, run_cons]

end Transition
