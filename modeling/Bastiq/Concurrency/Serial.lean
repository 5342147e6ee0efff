import Bastiq.Concurrency.Machine

/-!
# Serial orders and erased processes

Two ways to read an interleaving.

*Serial.* A process is an operation that takes effect at one step, its last: until then nobody sees
it. If the view of the store changes, at such a step, exactly as the operation would change it when
run alone, then the operations in the order they ended are a serial run with the same result
(`exists_serial_order`).

*Erasure.* A process that leaves no trace can be left out. What remains is a schedule of the others,
in the same order, with the same result: `exists_erasure`. The picks that disappear are those of the
erased process and those of processes it kept waiting.
-/

namespace Concurrency

namespace Machine

universe u v w x

variable {ι : Type u} {S : Type v} {L : Type w} {V : Type x} [DecidableEq ι] {M : Machine ι S L}

/-! ## Serial orders -/

/-- The operations in `order`, one after the other. -/
def serially (op : ι → V → V) (v : V) (order : List ι) : V := order.foldl (fun v i => op i v) v

omit [DecidableEq ι] in
theorem serially_append (op : ι → V → V) (v : V) (order : List ι) (i : ι) :
    serially op v (order ++ [i]) = op i (serially op v order) :=
  List.foldl_append

omit [DecidableEq ι] in
/-- Operations that add to a list, one after the other. -/
theorem serially_concat {α : Type x} (f : ι → List α) (v : List α) (order : List ι) :
    serially (fun i v => v ++ f i) v order = v ++ order.flatMap f := by
  induction order generalizing v with
  | nil => exact (List.append_nil v).symm
  | cons i order ih =>
      show serially _ (v ++ f i) order = _
      rw [ih, List.append_assoc, List.flatMap_cons]

/-- A step of an operation that takes effect when it ends: an ended process does not move, and what
is seen of the store changes only at the end of an operation, as the operation says. -/
def EffectAtEnd (ended : L → Bool) (view : S → V) (op : ι → V → V) (i : ι) (l l' : L) (s s' : S) :
    Prop :=
  ended l = false ∧ view s' = if ended l' then op i (view s) else view s

omit [DecidableEq ι] in
theorem EffectAtEnd.atEnd {ended : L → Bool} {view : S → V} {op : ι → V → V} {i : ι} {l l' : L}
    {s s' : S} (hl : ended l = false) (hl' : ended l' = true) (h : view s' = op i (view s)) :
    EffectAtEnd ended view op i l l' s s' :=
  ⟨hl, by rw [if_pos hl', h]⟩

omit [DecidableEq ι] in
theorem EffectAtEnd.before {ended : L → Bool} {view : S → V} {op : ι → V → V} {i : ι} {l l' : L}
    {s s' : S} (hl : ended l = false) (hl' : ended l' = false) (h : view s' = view s) :
    EffectAtEnd ended view op i l l' s s' :=
  ⟨hl, by rw [if_neg (Bool.not_eq_true _ ▸ hl'), h]⟩

/-- The processes that have ended, each once and in the order they ended. -/
structure EndedIn (ended : L → Bool) (order : List ι) (c : Config ι S L) : Prop where
  nodup : order.Nodup
  mem   : ∀ i, i ∈ order ↔ ended (c.loc i) = true

theorem EndedIn.next {ended : L → Bool} {view : S → V} {op : ι → V → V} {v : V} {order : List ι}
    {c : Config ι S L} {i : ι} (h : EndedIn ended order c)
    (hview : view c.store = serially op v order)
    (hstep : ∀ l s, M.step i (c.loc i) c.store = some (l, s) →
      EffectAtEnd ended view op i (c.loc i) l c.store s) :
    ∃ order', EndedIn ended order' (M.next c i) ∧
      view (M.next c i).store = serially op v order' := by
  refine next_cases (motive := fun c' => ∃ order', EndedIn ended order' c' ∧
    view c'.store = serially op v order') c i ⟨order, h, hview⟩ fun l s hmove => ?_
  obtain ⟨hrunning, heffect⟩ := hstep l s hmove
  have hi : i ∉ order := by
    intro hi
    rw [h.mem, hrunning] at hi
    cases hi
  cases hl : ended l with
  | false =>
      refine ⟨order, ⟨h.nodup, fun j => ?_⟩, ?_⟩
      · by_cases hj : j = i
        · subst hj
          rw [Config.move_loc_self, hl]
          exact iff_of_false hi Bool.false_ne_true
        · rw [c.move_loc_of_ne hj]
          exact h.mem j
      · rw [Config.move_store, heffect, hl, if_neg Bool.false_ne_true, hview]
  | true =>
      -- `i` ends here, after all that ended before
      refine ⟨order ++ [i], ⟨?_, fun j => ?_⟩, ?_⟩
      · rw [List.nodup_append]
        refine ⟨h.nodup, List.pairwise_singleton _ i, ?_⟩
        rintro j hj _ hk rfl
        rw [List.mem_singleton] at hk
        exact hi (hk ▸ hj)
      · rw [List.mem_append, List.mem_singleton]
        by_cases hj : j = i
        · subst hj
          rw [Config.move_loc_self, hl]
          exact iff_of_true (.inr rfl) rfl
        · rw [c.move_loc_of_ne hj, h.mem]
          exact or_iff_left hj
      · rw [Config.move_store, heffect, hl, if_pos rfl, hview, serially_append]

/-- **Serial order**: if every step of a run is one of an operation that takes effect when it ends,
the run has the result of the ended operations run serially, in the order they ended. -/
theorem exists_serial_order {P : Config ι S L → ι → Prop} {ended : L → Bool} (view : S → V)
    (op : ι → V → V)
    (hstep : ∀ c i l s, P c i → M.step i (c.loc i) c.store = some (l, s) →
      EffectAtEnd ended view op i (c.loc i) l c.store s)
    {c : Config ι S L} (hstart : ∀ i, ended (c.loc i) = false) {sched : List ι}
    (h : M.Along P c sched) :
    ∃ order, EndedIn ended order (M.run c sched) ∧
      view (M.run c sched).store = serially op (view c.store) order := by
  have hrun : M.Always (fun c' => ∃ order, EndedIn ended order c' ∧
      view c'.store = serially op (view c.store) order) c sched := by
    refine Transition.states_of_each (P := P) (fun c' i hc' hP => ?_)
      ⟨[], ⟨List.nodup_nil, fun i => ?_⟩, rfl⟩ h
    · obtain ⟨order, hended, hview⟩ := hc'
      exact hended.next hview fun l s => hstep c' i l s hP
    · rw [hstart]
      exact iff_of_false List.not_mem_nil Bool.false_ne_true
  exact hrun.last

/-! ## Erased processes -/

/-- **Erasure**: two runs stay related when the second one takes the steps of the kept processes
that the first one takes, and skips the rest. -/
theorem exists_erasure {P : Config ι S L → ι → Prop} {R : Config ι S L → Config ι S L → Prop}
    (keep : ι → Prop)
    (hstep : ∀ c c' i, R c c' → P c i →
      R (M.next c i) c' ∨ (keep i ∧ R (M.next c i) (M.next c' i)))
    {c c' : Config ι S L} (hR : R c c') {sched : List ι} (h : M.Along P c sched) :
    ∃ sched', sched'.Sublist sched ∧ (∀ i ∈ sched', keep i) ∧
      R (M.run c sched) (M.run c' sched') := by
  induction sched generalizing c c' with
  | nil => exact ⟨[], .slnil, by simp, hR⟩
  | cons i sched ih =>
      rcases hstep c c' i hR h.1 with hskip | ⟨hi, htake⟩
      · obtain ⟨sched', hsub, hkeep, hrun⟩ := ih hskip h.2
        exact ⟨sched', hsub.cons i, hkeep, hrun⟩
      · obtain ⟨sched', hsub, hkeep, hrun⟩ := ih htake h.2
        refine ⟨i :: sched', hsub.cons_cons i, ?_, hrun⟩
        intro j hj
        rcases List.mem_cons.mp hj with rfl | hj
        · exact hi
        · exact hkeep j hj

end Machine

end Concurrency
