import Mathlib.Data.List.Pairwise
import Bastiq.Concurrency.Serial
import Bastiq.Billing.Delivery
import Bastiq.Billing.Lifecycle

/-!
# Redelivery and failure

Stripe delivers an event again until it is acknowledged, and sometimes after. What that does to the
ledger and the subscription rows is nothing: a delivery that is not processed leaves no trace, so it
can be left out of the run, one after the other (`Transition.run_erase`) or among overlapping ones
(`Machine.exists_erasure`). What is processed is in the ledger once.
-/

namespace Bastiq

open Relational View Transition Concurrency

/-! ## The ledger -/

/-- The ledger: the id and the type of each recorded event, in the order they were recorded. -/
def Db.ledger (db : Db) : List (String × String) :=
  db.webhookEvents.rows.map fun r => (r.val.stripeEventId, r.val.type)

/-- What is recorded of an event. -/
def StripeEvent.entry (event : StripeEvent) : String × String := (event.id, event.type.getD "")

/-- `stripe_event_id` is unique. -/
def Db.LedgerUnique (db : Db) : Prop := (db.ledger.map Prod.fst).Nodup

instance (db : Db) : Decidable db.LedgerUnique := inferInstanceAs (Decidable (List.Nodup _))

theorem mem_ledger_ids {db : Db} {id : String} :
    id ∈ db.ledger.map Prod.fst ↔ ∃ r ∈ db.webhookEvents.rows, r.val.stripeEventId = id := by
  simp only [Db.ledger, List.map_map, List.mem_map, Function.comp]

theorem ledgerRow_eq_none_iff {db : Db} {id : String} :
    ledgerRow db id = none ↔ id ∉ db.ledger.map Prod.fst := by
  rw [ledgerRow, Table.first?_eq_none_iff, mem_ledger_ids]
  simp

theorem ledger_commit (d : Delivery) (write : Option (Row Subscription × Save)) (db : Db) :
    (d.commit write db).ledger = db.ledger ++ [d.event.entry] := by
  simp only [Db.ledger, Delivery.commit, Table.rows_insert, List.map_append, List.map_cons,
    List.map_nil]
  rfl

theorem Db.LedgerUnique.commit {db : Db} {d : Delivery} (h : db.LedgerUnique)
    (hledger : ledgerRow db d.event.id = none) (write : Option (Row Subscription × Save)) :
    (d.commit write db).LedgerUnique := by
  unfold LedgerUnique
  rw [ledger_commit, List.map_append]
  refine List.Nodup.append h (List.nodup_singleton _) ?_
  intro id hid hnew
  rw [List.mem_singleton.mp hnew] at hid
  exact ledgerRow_eq_none_iff.mp hledger hid

/-! ## One delivery after the other -/

theorem Processed.deliver_eq_commit {db : Db} {d : Delivery} (h : Processed db d) :
    ∃ write, deliver d db = d.commit write db := by
  obtain ⟨-, -, write, -, heq⟩ := Delivery.process_eq_ok.mp h.deliver_eq
  exact ⟨write, heq⟩

theorem ledger_deliver {db : Db} {d : Delivery} (h : Processed db d) :
    (deliver d db).ledger = db.ledger ++ [d.event.entry] := by
  obtain ⟨write, heq⟩ := h.deliver_eq_commit
  rw [heq, ledger_commit]

/-- The deliveries of a run that are processed, in their order. -/
def processedIn (db : Db) : List Delivery → List Delivery
  | [] => []
  | d :: ds =>
      if Processed db d then d :: processedIn (deliver d db) ds else processedIn (deliver d db) ds

/-- **The ledger of a run**: what it held, and one entry for each processed delivery. -/
theorem ledger_run (ds : List Delivery) (db : Db) :
    (run deliver db ds).ledger = db.ledger ++ (processedIn db ds).map (·.event.entry) := by
  induction ds generalizing db with
  | nil => exact (List.append_nil _).symm
  | cons d ds ih =>
      rw [run_cons, ih, processedIn]
      split
      · next h => rw [ledger_deliver h, List.append_assoc, List.map_cons, List.singleton_append]
      · next h => rw [deliver_of_not_processed h]

theorem ledgerUnique_run {db : Db} (h : db.LedgerUnique) (ds : List Delivery) :
    (run deliver db ds).LedgerUnique := by
  refine (states_of_step (Q := Db.LedgerUnique) (fun db d h => ?_) h ds).last
  by_cases hprocessed : Processed db d
  · obtain ⟨write, heq⟩ := hprocessed.deliver_eq_commit
    rw [heq]
    exact h.commit hprocessed.1 write
  · rw [deliver_of_not_processed hprocessed]
    exact h

/-- The id of `d` was processed by the deliveries `pre`. -/
def Repeats (db : Db) (pre : List Delivery) (d : Delivery) : Prop :=
  ∃ e ∈ processedIn db pre, e.event.id = d.event.id

/-- `d` is no duplicate, and its transaction raises. -/
def Raises (db : Db) (d : Delivery) : Prop :=
  ledgerRow db d.event.id = none ∧ ∃ e, d.process db = .error e

theorem Repeats.known {db : Db} {pre : List Delivery} {d : Delivery} (h : Repeats db pre d) :
    ledgerRow (run deliver db pre) d.event.id ≠ none := by
  obtain ⟨e, he, hid⟩ := h
  rw [Ne, ledgerRow_eq_none_iff, not_not, ledger_run, List.map_append, List.mem_append,
    List.map_map]
  exact .inr (List.mem_map.mpr ⟨e, he, hid⟩)

theorem Repeats.not_processed {db : Db} {pre : List Delivery} {d : Delivery}
    (h : Repeats db pre d) : ¬ Processed (run deliver db pre) d :=
  fun hprocessed => h.known hprocessed.1

theorem Raises.not_processed {db : Db} {d : Delivery} (h : Raises db d) : ¬ Processed db d := by
  obtain ⟨-, e, he⟩ := h
  rintro ⟨-, db', hdb'⟩
  rw [he] at hdb'
  cases hdb'

theorem raises_of_fault {db : Db} {d : Delivery} {e : Failure}
    (hledger : ledgerRow db d.event.id = none) (hfault : d.fault = some e) : Raises db d := by
  refine ⟨hledger, ?_⟩
  cases hprocess : d.process db with
  | error e => exact ⟨e, rfl⟩
  | ok db' =>
      obtain ⟨-, hnone, -⟩ := Delivery.process_eq_ok.mp hprocess
      rw [hfault] at hnone
      cases hnone

/-- Deliveries of other events do not make an event known. -/
theorem ledgerRow_run {db : Db} {id : String} (h : ledgerRow db id = none) {ds : List Delivery}
    (hds : ∀ d ∈ ds, d.event.id ≠ id) : ledgerRow (run deliver db ds) id = none := by
  induction ds generalizing db with
  | nil => exact h
  | cons d ds ih =>
      refine ih ?_ fun e he => hds e (List.mem_cons_of_mem _ he)
      show ledgerRow (deliver d db) id = none
      by_cases hprocessed : Processed db d
      · obtain ⟨write, heq⟩ := hprocessed.deliver_eq_commit
        rw [heq]
        exact ledgerRow_commit h (hds d List.mem_cons_self)
      · rw [deliver_of_not_processed hprocessed]
        exact h

/-- A delivery whose id the ledger does not hold gets what its own transaction comes to. -/
theorem postWebhook_of_unknown {db : Db} {d : Delivery} (h : ledgerRow db d.event.id = none) :
    postWebhook d db = match d.process db with
      | .ok db' => (⟨200, .detail "ok"⟩, db')
      | .error _ => (serverError, db) := by
  cases hprocess : d.process db with
  | ok db' => exact postWebhook_of_process h hprocess
  | error e =>
      unfold postWebhook textParam
      split
      · rfl
      · next id hid =>
        split at hid
        · cases hid
        · cases hid
          simp only [h, hprocess]

/-! ## Overlapping deliveries -/

variable {ι : Type} [DecidableEq ι]

def Progress.isCommitted : Progress → Bool
  | .committed => true
  | _ => false

/-- The ledger entries of an operation that commits. -/
def BillingOp.entries : BillingOp → List (String × String)
  | .webhook d => [d.event.entry]
  | .ensureCustomer _ _ => []

/-- What the store is without the locks of the processes in `gone`. -/
def BillingStore.without (s : BillingStore ι) (gone : ι → Bool) : BillingStore ι :=
  ⟨s.db, s.events.without gone, s.rows.without gone⟩

omit [DecidableEq ι] in
@[simp] theorem BillingStore.without_db (s : BillingStore ι) (gone : ι → Bool) :
    (s.without gone).db = s.db := rfl

/-- The configuration with the processes in `gone` left out: they have not started, and hold
nothing. -/
def withoutOps (gone : ι → Bool) (c : Config ι (BillingStore ι) Progress) :
    Config ι (BillingStore ι) Progress :=
  ⟨c.store.without gone, fun i => if gone i then .start else c.loc i⟩

omit [DecidableEq ι] in
theorem withoutOps_start (gone : ι → Bool) (db : Db) :
    withoutOps gone (billingStart db) = billingStart db := by
  simp [withoutOps, billingStart, BillingStore.without]

section Without

variable {gone : ι → Bool} {i : ι} {l l' : Progress} {s s' : BillingStore ι}

theorem release_without (hi : gone i = false) :
    (s.release i).without gone = (s.without gone).release i := by
  simp only [BillingStore.release, BillingStore.without, Locks.release_without _ hi]

theorem release_gone (hi : gone i = true) : (s.release i).without gone = s.without gone := by
  simp only [BillingStore.release, BillingStore.without, Locks.release_gone _ hi]

/-- A delivery that can take a step among all takes the same step among those that stay. -/
theorem webhookStep_without {d : Delivery} (hi : gone i = false)
    (h : webhookStep d i l s = some (l', s')) :
    webhookStep d i l (s.without gone) = some (l', s'.without gone) := by
  cases l with
  | start =>
      simp only [webhookStep, BillingStore.without_db] at h ⊢
      split at h
      · next e he => cases h; rfl
      · next id hid =>
        split at h
        · next r hr => cases h; rfl
        · next hr => cases h; rfl
  | absent =>
      simp only [webhookStep, BillingStore.without_db] at h ⊢
      split at h
      · next hrecordable =>
        rw [if_pos hrecordable]
        split at h
        · cases h
        · next events hacquire =>
          -- a key that was free among all is free among fewer
          have hkept : (s.without gone).events.acquire i d.event.id = some (events.without gone) :=
            Locks.acquire_without hi hacquire
          simp only [hkept]
          split at h
          · next r hr => cases h; rfl
          · next hr => cases h; rfl
      · next hrecordable => cases h; rw [if_neg hrecordable]
  | looking hd queries =>
      cases queries with
      | nil => cases h; rfl
      | cons query queries =>
          simp only [webhookStep, BillingStore.without_db] at h ⊢
          split at h
          · next e hquery => cases h; rw [release_without hi]
          · next hquery => cases h; rfl
          · next sub hquery =>
            split at h
            · next e hdecide => cases h; rw [release_without hi]
            · next save hdecide => cases h; rfl
  | decided sub save =>
      simp only [webhookStep] at h ⊢
      split at h
      · next hfits =>
        rw [if_pos hfits]
        split at h
        · cases h
        · next rows hacquire =>
          have hkept : (s.without gone).rows.acquire i sub.id = some (rows.without gone) :=
            Locks.acquire_without hi hacquire
          cases h
          simp only [hkept]
          rfl
      · next hfits => cases h; rw [if_neg hfits, release_without hi]
  | ready write =>
      simp only [webhookStep] at h ⊢
      split at h
      · next e hfault => cases h; rw [release_without hi]
      · next hfault =>
        cases h
        simp only [BillingStore.release, BillingStore.without, Locks.release_without _ hi]
  | calling sub => cases h
  | committed => cases h
  | duplicate => cases h
  | failed => cases h

theorem ensureCustomerStep_without {org : Nat} {create : Except Failure String}
    (hi : gone i = false) (h : ensureCustomerStep org create i l s = some (l', s')) :
    ensureCustomerStep org create i l (s.without gone) = some (l', s'.without gone) := by
  cases l with
  | start =>
      simp only [ensureCustomerStep, BillingStore.without_db] at h ⊢
      split at h
      · next hnone => cases h; rfl
      · next sub hsub =>
        split at h
        · next hpresent => cases h; rw [if_pos hpresent]
        · next hblank => cases h; rw [if_neg hblank]
  | calling sub =>
      simp only [ensureCustomerStep, BillingStore.without_db] at h ⊢
      split at h
      · next e => cases h; rfl
      · next customer =>
        split at h
        · next hfits =>
          rw [if_pos hfits]
          split at h
          · cases h
          · next rows hacquire =>
            have hkept : (s.without gone).rows.acquire i sub.id = some (rows.without gone) :=
              Locks.acquire_without hi hacquire
            cases h
            simp only [hkept]
            rfl
        · next hfits => cases h; rw [if_neg hfits]
  | absent => cases h
  | looking hd queries => cases h
  | decided sub save => cases h
  | ready write => cases h
  | committed => cases h
  | duplicate => cases h
  | failed => cases h

/-- The same, for the operations side by side. -/
theorem billingMachine_without {ops : ι → BillingOp} (hi : gone i = false)
    (h : (billingMachine ops).step i l s = some (l', s')) :
    (billingMachine ops).step i l (s.without gone) = some (l', s'.without gone) := by
  cases hop : ops i with
  | webhook d =>
      rw [billingMachine_webhook hop] at h ⊢
      exact webhookStep_without hi h
  | ensureCustomer org create =>
      rw [billingMachine_ensureCustomer hop] at h ⊢
      exact ensureCustomerStep_without hi h

/-- A step that does not commit is not seen, once the locks of its process are left out. -/
theorem store_without_of_gone {ops : ι → BillingOp} (hi : gone i = true)
    (h : (billingMachine ops).step i l s = some (l', s')) (hl' : l'.isCommitted = false) :
    s'.without gone = s.without gone := by
  rcases billingMachine_step h with ⟨d, -, hmove⟩ | ⟨org, create, -, hmove⟩
  · cases hmove with
    | record _ hacquire _ =>
        simp only [BillingStore.without, Locks.acquire_gone hi hacquire]
    | work _ _ hrows =>
        rcases hrows with rfl | ⟨k, hacquire⟩
        · rfl
        · simp only [BillingStore.without, Locks.acquire_gone hi hacquire]
    | raised => exact release_gone hi
    | commit => cases hl'
    | badId => rfl
    | known => rfl
    | unknown => rfl
    | unrecordable => rfl
    | beaten => rfl
  · cases hmove with
    | saved => cases hl'
    | present => cases hl'
    | missing => rfl
    | blank => rfl
    | refused => rfl

theorem withoutOps_move_gone (c : Config ι (BillingStore ι) Progress) (hi : gone i = true)
    (hs : s.without gone = c.store.without gone) :
    withoutOps gone (c.move i l s) = withoutOps gone c := by
  unfold withoutOps
  rw [Config.move_store, hs]
  congr 1
  funext j
  by_cases hj : j = i
  · subst hj
    rw [if_pos hi, if_pos hi]
  · rw [c.move_loc_of_ne hj]

theorem withoutOps_move (c : Config ι (BillingStore ι) Progress) (hi : gone i = false) :
    withoutOps gone (c.move i l s) = (withoutOps gone c).move i l (s.without gone) := by
  unfold withoutOps Config.move
  congr 1
  funext j
  show (if gone j = true then .start else Function.update c.loc i l j) =
    Function.update (fun j => if gone j = true then .start else c.loc j) i l j
  by_cases hj : j = i
  · subst hj
    rw [Function.update_self, Function.update_self, if_neg (by simp [hi])]
  · rw [Function.update_of_ne hj, Function.update_of_ne hj]

end Without

theorem stays_committed {ops : ι → BillingOp} {c : Config ι (BillingStore ι) Progress} {j : ι}
    (h : (c.loc j).isCommitted = true) (i : ι) :
    (((billingMachine ops).next c i).loc j).isCommitted = true := by
  rw [Machine.loc_next_of_final (fun s => ?_), h]
  cases hl : c.loc j with
  | committed =>
      cases hop : ops j with
      | webhook d => rw [billingMachine_webhook hop]; rfl
      | ensureCustomer org create => rw [billingMachine_ensureCustomer hop]; rfl
  | _ => rw [hl] at h; cases h

/-- **Operations that do not commit leave no trace**: the others, picked in the same order, come to
the same database and each to the same end. -/
theorem exists_run_without (ops : ι → BillingOp) (gone : ι → Bool) (db : Db) (sched : List ι)
    (hgone : ∀ i, gone i = true →
      (((billingMachine ops).run (billingStart db) sched).loc i).isCommitted = false) :
    ∃ sched', sched'.Sublist sched ∧ (∀ i ∈ sched', gone i = false) ∧
      (billingMachine ops).run (billingStart db) sched' =
        withoutOps gone ((billingMachine ops).run (billingStart db) sched) := by
  -- what has not committed at the end has not committed before
  have hnever : (billingMachine ops).Along (fun c i => gone i = true →
      (((billingMachine ops).next c i).loc i).isCommitted = false) (billingStart db) sched := by
    refine each_of_last (Q := fun c => ∃ i, gone i = true ∧
      (c.loc i).isCommitted = true) (fun c i hP => ?_) (fun c i hQ => ?_) ?_
    · rw [Classical.not_imp, Bool.not_eq_false] at hP
      exact ⟨i, hP⟩
    · obtain ⟨j, hj, hcommitted⟩ := hQ
      exact ⟨j, hj, stays_committed hcommitted i⟩
    · rintro ⟨i, hi, hcommitted⟩
      rw [hgone i hi] at hcommitted
      cases hcommitted
  have herase := Machine.exists_erasure (R := fun c c' => c' = withoutOps gone c)
    (fun i => gone i = false) (fun c c' i hR hP => ?_) (withoutOps_start gone db).symm hnever
  · exact herase
  subst hR
  cases hstep : (billingMachine ops).step i (c.loc i) c.store with
  | none => rw [Machine.next_of_none hstep]; exact .inl rfl
  | some ls =>
      obtain ⟨l, s⟩ := ls
      rw [Machine.next_of_some hstep] at hP ⊢
      -- a pick of a process that goes is left out, the others are kept
      cases hi : gone i with
      | true =>
          have hl := hP hi
          rw [Config.move_loc_self] at hl
          exact .inl (withoutOps_move_gone c hi (store_without_of_gone hi hstep hl)).symm
      | false =>
          have hkept : (billingMachine ops).step i ((withoutOps gone c).loc i)
              (withoutOps gone c).store = some (l, s.without gone) := by
            simp only [withoutOps, hi, Bool.false_eq_true, if_false]
            exact billingMachine_without hi hstep
          rw [Machine.next_of_some hkept, withoutOps_move c hi]
          exact .inr ⟨rfl, rfl⟩

/-! ### Exactly once -/

/-- What commits records its event, and nothing else is recorded. -/
theorem ledger_effectAtEnd {ops : ι → BillingOp} {i : ι} {l l' : Progress} {s s' : BillingStore ι}
    (h : (billingMachine ops).step i l s = some (l', s')) :
    Machine.EffectAtEnd Progress.isCommitted (fun s => s.db.ledger)
      (fun i ledger => ledger ++ (ops i).entries) i l l' s s' := by
  rcases billingMachine_step h with ⟨d, hd, hmove⟩ | ⟨org, create, ho, hmove⟩
  · have hopen : ∀ l : Progress, l.isOpen = true → l.isCommitted = false := by
      intro l hl
      cases l with
      | committed => cases hl
      | _ => rfl
    cases hmove with
    | commit =>
        refine .atEnd rfl rfl ?_
        rw [hd]
        exact ledger_commit d _ s.db
    | badId => exact .before rfl rfl rfl
    | known => exact .before rfl rfl rfl
    | unknown => exact .before rfl rfl rfl
    | unrecordable => exact .before rfl rfl rfl
    | beaten => exact .before rfl rfl rfl
    | record => exact .before rfl (hopen _ d.event.handling_isOpen) rfl
    | work hl hl' => exact .before (hopen _ hl) (hopen _ hl') rfl
    | raised hl => exact .before (hopen _ hl) rfl rfl
  · -- a checkout has no entry
    have hnothing : ∀ ledger : List (String × String), ledger = ledger ++ (ops i).entries := by
      intro ledger
      rw [ho]
      exact (List.append_nil _).symm
    cases hmove with
    | missing => exact .before rfl rfl rfl
    | present => exact .atEnd rfl rfl (hnothing _)
    | blank => exact .before rfl rfl rfl
    | refused => exact .before rfl rfl rfl
    | saved => exact .atEnd rfl rfl (hnothing _)

theorem ledgerUnique_next {ops : ι → BillingOp} {c : Config ι (BillingStore ι) Progress} (i : ι)
    (hkeys : OpenKeys ops c) (h : c.store.db.LedgerUnique) :
    ((billingMachine ops).next c i).store.db.LedgerUnique := by
  refine Machine.next_cases (motive := fun c => c.store.db.LedgerUnique) c i h fun l s hstep => ?_
  rw [Config.move_store]
  have hopen := hkeys i
  generalize c.loc i = l₀ at hstep hopen
  rcases billingMachine_step hstep with ⟨d, hd, hmove⟩ | ⟨org, create, -, hmove⟩
  · cases hmove with
    | commit => exact h.commit (hopen d hd rfl).2.1 _
    | _ => exact h
  · cases hmove <;> exact h

/-- The ledger after any interleaving: what it held, and the entries of the operations that
committed, in the order they did. -/
theorem exists_ledger_order (ops : ι → BillingOp) (db : Db) (sched : List ι) :
    let final := (billingMachine ops).run (billingStart db) sched
    ∃ order, Machine.EndedIn Progress.isCommitted order final ∧
      final.store.db.ledger = db.ledger ++ order.flatMap fun i => (ops i).entries := by
  intro final
  obtain ⟨order, hended, hledger⟩ := Machine.exists_serial_order
    (P := fun _ _ => True) (fun s : BillingStore ι => s.db.ledger)
    (fun i ledger => ledger ++ (ops i).entries)
    (fun c i l s _ hstep => ledger_effectAtEnd hstep) (fun _ => rfl)
    (each_of_forall (fun _ _ => trivial) sched (billingStart db))
  exact ⟨order, hended, hledger.trans (Machine.serially_concat _ _ order)⟩

theorem ledgerUnique_interleaving (ops : ι → BillingOp) {db : Db} (h : db.LedgerUnique)
    (sched : List ι) :
    ((billingMachine ops).run (billingStart db) sched).store.db.LedgerUnique := by
  have hrun : (billingMachine ops).Always (fun c => OpenKeys ops c ∧ c.store.db.LedgerUnique)
      (billingStart db) sched :=
    states_of_step (fun c i hc => ⟨hc.1.next i, ledgerUnique_next i hc.1 hc.2⟩)
      ⟨openKeys_start ops db, h⟩ sched
  exact hrun.last.2

/-- A delivery that is turned away as a duplicate finds its id in the ledger. -/
def DuplicatesKnown (ops : ι → BillingOp) (c : Config ι (BillingStore ι) Progress) : Prop :=
  ∀ i d, ops i = .webhook d → c.loc i = .duplicate → ledgerRow c.store.db d.event.id ≠ none

/-- The ledger only grows. -/
theorem ledgerRow_next {ops : ι → BillingOp} {c : Config ι (BillingStore ι) Progress} {i : ι}
    {id : String} (h : ledgerRow c.store.db id ≠ none) :
    ledgerRow ((billingMachine ops).next c i).store.db id ≠ none := by
  refine Machine.next_cases (motive := fun c => ledgerRow c.store.db id ≠ none) c i h
    fun l s hstep => ?_
  rw [Config.move_store]
  rw [Ne, ledgerRow_eq_none_iff, not_not] at h ⊢
  have hledger : s.db.ledger = if l.isCommitted = true then c.store.db.ledger ++ (ops i).entries
      else c.store.db.ledger := (ledger_effectAtEnd hstep).2
  rw [hledger]
  split
  · rw [List.map_append, List.mem_append]
    exact .inl h
  · exact h

theorem DuplicatesKnown.next {ops : ι → BillingOp} {c : Config ι (BillingStore ι) Progress} (i : ι)
    (h : DuplicatesKnown ops c) : DuplicatesKnown ops ((billingMachine ops).next c i) := by
  intro j d hd hduplicate
  cases hstep : (billingMachine ops).step i (c.loc i) c.store with
  | none =>
      rw [Machine.next_of_none hstep] at hduplicate ⊢
      exact h j d hd hduplicate
  | some ls =>
      obtain ⟨l, s⟩ := ls
      by_cases hj : j = i
      · subst hj
        rw [Machine.next_of_some hstep, Config.move_loc_self] at hduplicate
        rw [Machine.next_of_some hstep, Config.move_store]
        have hclosed : l.isOpen = true → False := fun hopen => by
          rw [hduplicate] at hopen
          cases hopen
        rcases billingMachine_step hstep with ⟨e, he, hmove⟩ | ⟨org, create, ho, -⟩
        · obtain rfl : d = e := BillingOp.webhook.inj (hd.symm.trans he)
          generalize c.loc j = l₀ at hmove
          cases hmove with
          -- both answers come from a row that was read
          | known hrow => rw [hrow]; exact Option.some_ne_none _
          | beaten hrow => rw [hrow]; exact Option.some_ne_none _
          | record => exact (hclosed d.event.handling_isOpen).elim
          | work _ hopen => exact (hclosed hopen).elim
          | badId => cases hduplicate
          | unknown => cases hduplicate
          | unrecordable => cases hduplicate
          | raised => cases hduplicate
          | commit => cases hduplicate
        · rw [hd] at ho
          cases ho
      · rw [Machine.next_of_some hstep, c.move_loc_of_ne hj] at hduplicate
        exact ledgerRow_next (h j d hd hduplicate)

/-- A delivery is turned away as a duplicate only when another one of its event has committed, or the
event was in the ledger at the start. -/
theorem duplicate_of_committed (ops : ι → BillingOp) (db : Db) (sched : List ι) {i : ι}
    {d : Delivery} (hd : ops i = .webhook d) :
    let final := (billingMachine ops).run (billingStart db) sched
    final.loc i = .duplicate → ledgerRow db d.event.id ≠ none ∨
      ∃ j e, ops j = .webhook e ∧ e.event.id = d.event.id ∧ final.loc j = .committed := by
  intro final hduplicate
  have hknown : (billingMachine ops).Always (DuplicatesKnown ops) (billingStart db) sched :=
    states_of_step (fun c i hc => hc.next i) (fun _ _ _ h => nomatch h) sched
  obtain ⟨order, hended, hledger⟩ := exists_ledger_order ops db sched
  have hid := hknown.last i d hd hduplicate
  rw [Ne, ledgerRow_eq_none_iff, not_not, hledger, List.map_append, List.mem_append] at hid
  rcases hid with hstart | hcommitted
  · exact .inl (by rwa [Ne, ledgerRow_eq_none_iff, not_not])
  · obtain ⟨entry, hentry, hentryId⟩ := List.mem_map.mp hcommitted
    obtain ⟨j, hj, hentry⟩ := List.mem_flatMap.mp hentry
    rw [hended.mem] at hj
    refine .inr ⟨j, ?_⟩
    cases hop : ops j with
    | ensureCustomer org create => rw [hop] at hentry; cases hentry
    | webhook e =>
        rw [hop] at hentry
        obtain rfl := List.mem_singleton.mp hentry
        refine ⟨e, rfl, hentryId, ?_⟩
        show final.loc j = _
        generalize final.loc j = l at hj
        cases l with
        | committed => rfl
        | _ => cases hj

/-- The event of a delivery commits once, however many deliveries of it overlap. -/
theorem eq_of_committed {ops : ι → BillingOp} {db : Db} (hunique : db.LedgerUnique)
    {sched : List ι} {i j : ι} {d e : Delivery} (hd : ops i = .webhook d) (he : ops j = .webhook e)
    (hid : d.event.id = e.event.id) :
    let final := (billingMachine ops).run (billingStart db) sched
    (final.loc i).isCommitted = true → (final.loc j).isCommitted = true → i = j := by
  intro final hi hj
  obtain ⟨order, hended, hledger⟩ := exists_ledger_order ops db sched
  have hnodup := ledgerUnique_interleaving ops hunique sched
  unfold Db.LedgerUnique at hnodup
  rw [hledger, List.map_append, List.map_flatMap] at hnodup
  have hpair := (List.nodup_flatMap.mp (List.nodup_append.mp hnodup).2.1).2
  by_contra hne
  have hsymm : Std.Symm (Function.onFun List.Disjoint fun i =>
      (ops i).entries.map Prod.fst) := ⟨fun _ _ h _ ha hb => h hb ha⟩
  have hdisjoint := hpair.forall ((hended.mem i).mpr hi) ((hended.mem j).mpr hj) hne
  simp only [Function.onFun, hd, he, BillingOp.entries, List.map_cons, List.map_nil,
    List.disjoint_singleton, StripeEvent.entry, List.mem_singleton] at hdisjoint
  exact hdisjoint hid.symm

/-! ## Both together -/

/-- **Webhooks are idempotent under redelivery and failure.** One delivery after the other:

* a repeated delivery, or one that raises, can be left out of the run;
* the ledger gains one entry for each delivery processed, and holds no id twice;
* the next delivery of an event whose delivery raised gets what its own transaction comes to.

And among operations that overlap in any way:

* any that do not commit can be left out, and the others come to the same database, each to the same
  end;
* the ledger gains one entry for each delivery that commits, and holds no id twice;
* no two deliveries of one event commit;
* a delivery is answered as a duplicate only if another one of its event commits, or if the event
  was in the ledger before. -/
theorem webhooks_idempotent (db : Db) (hunique : db.LedgerUnique) :
    (∀ pre d post, Repeats db pre d ∨ Raises (run deliver db pre) d →
      run deliver db (pre ++ d :: post) = run deliver db (pre ++ post)) ∧
    (∀ ds, (run deliver db ds).ledger = db.ledger ++ (processedIn db ds).map (·.event.entry) ∧
      (run deliver db ds).LedgerUnique) ∧
    (∀ pre d mid d', Raises (run deliver db pre) d → (∀ e ∈ mid, e.event.id ≠ d.event.id) →
      d'.event.id = d.event.id →
      let before := run deliver db (pre ++ d :: mid)
      postWebhook d' before = match d'.process before with
        | .ok after => (⟨200, .detail "ok"⟩, after)
        | .error _ => (serverError, before)) ∧
    ∀ {ι : Type} [DecidableEq ι] (ops : ι → BillingOp) (sched : List ι),
      let final := (billingMachine ops).run (billingStart db) sched
      (∀ gone : ι → Bool, (∀ i, gone i = true → (final.loc i).isCommitted = false) →
        ∃ sched', sched'.Sublist sched ∧ (∀ i ∈ sched', gone i = false) ∧
          let kept := (billingMachine ops).run (billingStart db) sched'
          kept.store.db = final.store.db ∧ ∀ i, gone i = false → kept.loc i = final.loc i) ∧
      (∃ order, Machine.EndedIn Progress.isCommitted order final ∧
        final.store.db.ledger = db.ledger ++ order.flatMap (fun i => (ops i).entries) ∧
        final.store.db.LedgerUnique) ∧
      (∀ i j d e, ops i = .webhook d → ops j = .webhook e → d.event.id = e.event.id →
        (final.loc i).isCommitted = true → (final.loc j).isCommitted = true → i = j) ∧
      ∀ i d, ops i = .webhook d → final.loc i = .duplicate → ledgerRow db d.event.id ≠ none ∨
        ∃ j e, ops j = .webhook e ∧ e.event.id = d.event.id ∧ final.loc j = .committed := by
  refine ⟨?_, ?_, ?_, ?_⟩
  · intro pre d post h
    refine run_erase (deliver_of_not_processed ?_)
    rcases h with hrepeats | hraises
    · exact hrepeats.not_processed
    · exact hraises.not_processed
  · intro ds
    exact ⟨ledger_run ds db, ledgerUnique_run hunique ds⟩
  · intro pre d mid d' hraises hmid hid before
    refine postWebhook_of_unknown ?_
    -- neither the delivery that raised nor those after it have recorded the event
    show ledgerRow (run deliver db (pre ++ d :: mid)) d'.event.id = none
    rw [run_erase (deliver_of_not_processed hraises.not_processed), run_append, hid]
    exact ledgerRow_run hraises.1 hmid
  · intro ι _ ops sched final
    refine ⟨?_, ?_, fun i j d e hd he hid => eq_of_committed hunique hd he hid,
      fun i d hd => duplicate_of_committed ops db sched hd⟩
    · intro gone hgone
      obtain ⟨sched', hsub, hkept, heq⟩ := exists_run_without ops gone db sched hgone
      refine ⟨sched', hsub, hkept, ?_⟩
      intro kept
      have hkeptEq : kept = withoutOps gone final := heq
      rw [hkeptEq]
      exact ⟨rfl, fun i hi => if_neg (by simp [hi])⟩
    · obtain ⟨order, hended, hledger⟩ := exists_ledger_order ops db sched
      exact ⟨order, hended, hledger, ledgerUnique_interleaving ops hunique sched⟩

/-- A checkout, a second delivery of its id with another payload, an update whose handler raises, and
its retry: the two in the middle can be left out. -/
theorem webhooks_idempotent_redelivery :
    let checkout := checkoutOf "evt_1" "sub_1"
    let again := updateOf "evt_1" "sub_1" "past_due"
    let retry := updateOf "evt_2" "sub_1" "past_due"
    let raising := { retry with fault := some .dataError }
    run deliver smallBilling [checkout, again, raising, retry] =
        run deliver smallBilling [checkout, retry] ∧
      Processed (deliver checkout smallBilling) retry := by
  intro checkout again retry raising
  obtain ⟨herase, -⟩ := webhooks_idempotent smallBilling (by decide)
  have hfirst : processedIn smallBilling [checkout] = [checkout] := if_pos (by decide)
  have hrepeats : Repeats smallBilling [checkout] again :=
    ⟨checkout, by rw [hfirst]; exact List.mem_singleton_self _, rfl⟩
  have hagain := herase [checkout] again [raising, retry] (.inl hrepeats)
  have hraising := herase [checkout] raising [retry] (.inr (raises_of_fault (by decide) rfl))
  exact ⟨hagain.trans hraising, by decide⟩

end Bastiq
