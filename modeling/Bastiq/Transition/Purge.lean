import Bastiq.Transition.Run

/-!
# What an observer cannot tell

An observer sees some of the actions of a run, and of a state only what `sim` compares: `sim s t`
says that nothing the observer sees tells `s` from `t`. The unwinding conditions are about one
action; from them the observer cannot tell a run from the same run without the actions of others,
and so cannot tell what others do, how often and when.
-/

namespace Transition

universe u v

variable {S : Type u} {A : Type v} {step : A → S → S}

/-- The unwinding conditions, for the actions that `P` allows. -/
structure Unwinds (step : A → S → S) (P : A → Prop) (seen : A → Bool) (sim : S → S → Prop) :
    Prop where
  /-- What is seen does the same to states that look the same. -/
  consistent : ∀ a s t, P a → seen a = true → sim s t → sim (step a s) (step a t)
  /-- What is not seen changes nothing to be seen. -/
  respects   : ∀ a s t, P a → seen a = false → sim s t → sim (step a s) t

variable {P : A → Prop} {seen : A → Bool} {sim : S → S → Prop}

/-- **Purging**: a run looks the same without the actions that are not seen. -/
theorem Unwinds.run_purge (h : Unwinds step P seen sim) {as : List A} (hP : ∀ a ∈ as, P a)
    {s t : S} (hsim : sim s t) : sim (run step s as) (run step t (as.filter seen)) := by
  induction as generalizing s t with
  | nil => exact hsim
  | cons a as ih =>
      obtain ⟨ha, has⟩ := List.forall_mem_cons.mp hP
      cases hseen : seen a with
      | true =>
          rw [List.filter_cons_of_pos hseen]
          exact ih has (h.consistent a s t ha hseen hsim)
      | false =>
          rw [List.filter_cons_of_neg (by simp [hseen])]
          exact ih has (h.respects a s t ha hseen hsim)

/-- **Noninterference**: runs look the same when what is seen happens in the same order in both. -/
theorem Unwinds.run_of_filter_eq (h : Unwinds step P seen sim)
    (hsymm : ∀ s t, sim s t → sim t s) (htrans : ∀ s t u, sim s t → sim t u → sim s u)
    {as bs : List A} (has : ∀ a ∈ as, P a) (hbs : ∀ b ∈ bs, P b)
    (hfilter : as.filter seen = bs.filter seen) {s : S} (hs : sim s s) :
    sim (run step s as) (run step s bs) := by
  have hleft := h.run_purge has hs
  have hright := h.run_purge hbs hs
  rw [hfilter] at hleft
  exact htrans _ _ _ hleft (hsymm _ _ hright)

end Transition
