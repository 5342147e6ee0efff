import Bastiq.Transition.Run
import Bastiq.Billing.Webhooks

/-!
# The life of a subscription row under webhook deliveries

Stripe delivers events in any order and more than once. This file follows one organization's row,
and all rows, through a sequence of deliveries: when a subscription that ended stays ended, when the
end of an old subscription leaves a newer one alone, and when a canceled row is on the Free plan.

Each result comes from `Delivery.row_after`, which says what one processed delivery does to the row
of an organization.
-/

namespace Bastiq

open Relational Transition

/-- The database after a delivery. -/
def deliver (d : Delivery) (db : Db) : Db := (postWebhook d db).2

/-- The delivery is not a duplicate, and its transaction commits. -/
def Processed (db : Db) (d : Delivery) : Prop :=
  ledgerRow db d.event.id = none ∧ ∃ db', d.process db = .ok db'

theorem processed_iff {db : Db} {d : Delivery} :
    Processed db d ↔ (ledgerRow db d.event.id).isNone = true ∧ (d.process db).isOk = true := by
  refine and_congr Option.isNone_iff_eq_none.symm ?_
  cases d.process db with
  | ok db' => exact iff_of_true ⟨db', rfl⟩ rfl
  | error e => exact iff_of_false (by rintro ⟨_, h⟩; cases h) (by simp [Except.isOk, Except.toBool])

instance (db : Db) (d : Delivery) : Decidable (Processed db d) := decidable_of_iff' _ processed_iff

theorem Processed.deliver_eq {db : Db} {d : Delivery} (h : Processed db d) :
    d.process db = .ok (deliver d db) := by
  obtain ⟨hledger, db', hprocess⟩ := h
  rw [deliver, postWebhook_of_process hledger hprocess, hprocess]

/-- A delivery that is not processed leaves the database alone. -/
theorem deliver_of_not_processed {db : Db} {d : Delivery} (h : ¬ Processed db d) :
    deliver d db = db := by
  rcases postWebhook_cases d db with heq | ⟨hledger, hprocess⟩
  · exact heq
  · exact absurd ⟨hledger, _, hprocess⟩ h

/-! ## One delivery, one organization -/

/-- The event finds the row of `org`. -/
def Reaches (db : Db) (event : StripeEvent) (org : Nat) : Prop :=
  ∃ sub, event.find db = .ok (some sub) ∧ subscriptionOf db org = some sub

/-- No delivery changes the catalogue. -/
theorem plans_of_process {d : Delivery} {db db' : Db} (h : d.process db = .ok db') :
    db'.plans = db.plans := by
  obtain ⟨-, rfl⟩ | ⟨sub, save, -, rfl⟩ := d.process_cases h
  · rfl
  · rfl

theorem freePlan_of_process {d : Delivery} {db db' : Db} (h : d.process db = .ok db') :
    freePlan db' = freePlan db := by
  rw [freePlan, plans_of_process h, freePlan]

/-- What a processed event looked up did not raise. -/
theorem find_of_process {d : Delivery} {db db' : Db} (h : d.process db = .ok db') :
    ∃ found, d.event.find db = .ok found := by
  obtain ⟨hnone, -⟩ | ⟨sub, save, hdecision, -⟩ := d.process_cases h
  · exact ⟨none, StripeEvent.decision_eq_none hnone⟩
  · exact ⟨some sub, (StripeEvent.decision_eq_some hdecision).1⟩

/-- **What a processed delivery does to the row of an organization**: where the event finds the row
it writes what the handler decided, and elsewhere the row stays. -/
theorem Delivery.row_after {d : Delivery} {db db' : Db} (h : d.process db = .ok db') (org : Nat) :
    (∃ sub save, d.event.decision db = .ok (some (sub, save)) ∧ subscriptionOf db org = some sub ∧
        subscriptionOf db' org = some ⟨sub.id, save.apply d.now sub.val⟩) ∨
      (¬ Reaches db d.event org ∧ subscriptionOf db' org = subscriptionOf db org) := by
  obtain ⟨hnone, rfl⟩ | ⟨sub, save, hdecision, rfl⟩ := d.process_cases h
  · refine .inr ⟨?_, rfl⟩
    rintro ⟨sub, hfind, -⟩
    rw [StripeEvent.decision_eq_none hnone] at hfind
    cases hfind
  · obtain ⟨hfind, -⟩ := StripeEvent.decision_eq_some hdecision
    have hsub := StripeEvent.mem_of_find hfind
    have hafter : (db.subscriptions.modify sub.id (save.apply d.now)).first?
        (·.val.organization == org) = (subscriptionOf db org).map
          (Table.setRow (·.id == sub.id) (save.apply d.now)) := by
      refine Table.first?_update _ fun r hr => ?_
      by_cases hid : r.id = sub.id
      · rw [db.subscriptions.eq_of_id_eq hr hsub hid, Table.setRow_of_pos (by simp),
          StripeEvent.decision_organization hdecision]
      · rw [Table.setRow_of_neg (by simpa using hid)]
    cases horg : subscriptionOf db org with
    | none =>
        refine .inr ⟨?_, by rw [subscriptionOf, hafter, horg]; rfl⟩
        rintro ⟨r, -, hr⟩
        rw [horg] at hr
        cases hr
    | some r =>
        rw [horg, Option.map_some] at hafter
        -- the event has found this row or another organization's
        by_cases hid : r.id = sub.id
        · obtain rfl := db.subscriptions.eq_of_id_eq (Table.mem_of_first? horg) hsub hid
          rw [Table.setRow_of_pos (by simp)] at hafter
          exact .inl ⟨r, save, hdecision, rfl, hafter⟩
        · rw [Table.setRow_of_neg (by simpa using hid)] at hafter
          refine .inr ⟨?_, hafter⟩
          rintro ⟨s, hs, hr⟩
          rw [hfind] at hs
          rw [horg] at hr
          cases hs
          cases hr
          exact hid rfl

/-! ## What each handler makes of the row -/

section Saved

variable {event : StripeEvent} {db : Db} {sub : Row Subscription} {save : Save}
  (hdecision : event.decision db = .ok (some (sub, save))) (now : Int)

include hdecision

theorem checkout_saved (ht : event.type = some "checkout.session.completed") :
    (save.apply now sub.val).status = .active ∧
      (save.apply now sub.val).stripeSubscriptionId =
        (nonBlank event.object.subscription).getD sub.val.stripeSubscriptionId := by
  obtain ⟨-, plan, -, hd, hhd, hsave⟩ := StripeEvent.decision_eq_some hdecision
  rw [StripeEvent.handler, ht] at hhd
  cases hhd
  cases hsave
  exact ⟨rfl, rfl⟩

theorem updated_saved (ht : event.type = some "customer.subscription.updated") :
    (save.apply now sub.val).status = event.object.mappedStatus.getD sub.val.status := by
  obtain ⟨-, plan, -, hd, hhd, hsave⟩ := StripeEvent.decision_eq_some hdecision
  rw [StripeEvent.handler, ht] at hhd
  cases hhd
  obtain ⟨_, -, hsave⟩ := bind_eq_ok.mp hsave
  cases hsave
  rfl

theorem deleted_saved (ht : event.type = some "customer.subscription.deleted") :
    (save.apply now sub.val).status = .canceled ∧
      (save.apply now sub.val).stripeSubscriptionId = "" ∧
      (save.apply now sub.val).plan = ((freePlan db).map Row.id).getD sub.val.plan := by
  obtain ⟨-, plan, hplan, hd, hhd, hsave⟩ := StripeEvent.decision_eq_some hdecision
  rw [StripeEvent.namedPlan, hhd] at hplan
  rw [StripeEvent.handler, ht] at hhd
  cases hhd
  cases hplan
  cases hsave
  exact ⟨rfl, rfl, rfl⟩

theorem payment_failed_saved (ht : event.type = some "invoice.payment_failed") :
    (save.apply now sub.val).status = .pastDue := by
  obtain ⟨-, plan, -, hd, hhd, hsave⟩ := StripeEvent.decision_eq_some hdecision
  rw [StripeEvent.handler, ht] at hhd
  cases hhd
  cases hsave
  rfl

end Saved

/-! ## A canceled row and the Free plan -/

/-- A subscription is on the Free plan. -/
def OnFree (db : Db) (sub : Subscription) : Prop := (freePlan db).map Row.id = some sub.plan

instance (db : Db) (sub : Subscription) : Decidable (OnFree db sub) :=
  inferInstanceAs (Decidable (_ = _))

/-- Every canceled row is on the Free plan. -/
def CanceledOnFree (db : Db) : Prop :=
  ∀ sub ∈ db.subscriptions.rows, sub.val.status = .canceled → OnFree db sub.val

/-- An update that leaves its row canceled has the price of the Free plan, or no price that is
sold and a row on the Free plan. -/
def CancelsOntoFree (db : Db) (event : StripeEvent) : Prop :=
  event.type = some "customer.subscription.updated" → ∀ sub, event.find db = .ok (some sub) →
    event.object.mappedStatus.getD sub.val.status = .canceled →
    (∀ p, planForPrice db event.object.priceId = .ok (some p) →
      (freePlan db).map Row.id = some p.id) ∧
    (planForPrice db event.object.priceId = .ok none → OnFree db sub.val)

theorem onFree_of_process {d : Delivery} {db db' : Db} (h : d.process db = .ok db')
    (sub : Subscription) : OnFree db' sub ↔ OnFree db sub := by
  rw [OnFree, OnFree, freePlan_of_process h]

/-- One row is saved, and it decides. -/
theorem canceledOnFree_saved_iff {d : Delivery} {db db' : Db} (hinv : CanceledOnFree db)
    (h : d.process db = .ok db') {sub : Row Subscription} (hsub : sub ∈ db.subscriptions.rows)
    {save : Save}
    (hdb' : db'.subscriptions = db.subscriptions.modify sub.id (save.apply d.now)) :
    CanceledOnFree db' ↔
      ((save.apply d.now sub.val).status = .canceled → OnFree db (save.apply d.now sub.val)) := by
  constructor
  · intro hall hcanceled
    rw [← onFree_of_process h]
    refine hall ⟨sub.id, save.apply d.now sub.val⟩ ?_ hcanceled
    rw [hdb', Table.mem_modify]
    exact .inr ⟨sub, hsub, rfl, rfl⟩
  · intro hnew r hr hcanceled
    rw [onFree_of_process h]
    rw [hdb', Table.mem_modify] at hr
    rcases hr with ⟨hr, -⟩ | ⟨s, hs, hid, rfl⟩
    · exact hinv r hr hcanceled
    · obtain rfl := db.subscriptions.eq_of_id_eq hs hsub hid
      exact hnew hcanceled

/-- Only an update can cancel onto another plan. -/
theorem cancelsOntoFree_of_type {db : Db} {event : StripeEvent} {type : String}
    (htype : event.type = some type) (hne : type ≠ "customer.subscription.updated") :
    CancelsOntoFree db event :=
  fun hupdated => absurd (Option.some.inj (htype.symm.trans hupdated)) hne

/-- A processed delivery keeps canceled rows on the Free plan exactly when it is no update that
leaves its row canceled on another plan. -/
theorem canceledOnFree_step {d : Delivery} {db db' : Db} {f : Row Plan}
    (hfree : freePlan db = some f) (hinv : CanceledOnFree db) (h : d.process db = .ok db') :
    CanceledOnFree db' ↔ CancelsOntoFree db d.event := by
  obtain ⟨hnone, hdb'⟩ | ⟨sub, save, hdecision, hdb'⟩ := d.process_cases h
  · refine iff_of_true ?_ ?_
    · intro r hr hcanceled
      rw [onFree_of_process h]
      subst hdb'
      exact hinv r hr hcanceled
    · intro _ sub hfind
      rw [StripeEvent.decision_eq_none hnone] at hfind
      cases hfind
  · obtain ⟨hfind, plan, hplan, hd, hhd, -⟩ := StripeEvent.decision_eq_some hdecision
    have hsub := StripeEvent.mem_of_find hfind
    obtain ⟨plan', hplan', hsaved⟩ := StripeEvent.decision_plan hdecision d.now
    obtain rfl : plan = plan' := Except.ok.inj (hplan.symm.trans hplan')
    -- the one row that changed decides
    rw [canceledOnFree_saved_iff hinv h hsub (congrArg Db.subscriptions hdb')]
    rcases StripeEvent.handler_cases hhd with ⟨ht, -⟩ | ⟨ht, -⟩ | ⟨ht, -⟩ | ⟨ht, -⟩
    · -- a checkout leaves its row active
      refine iff_of_true (fun hcanceled => ?_) (cancelsOntoFree_of_type ht (by decide))
      rw [(checkout_saved hdecision d.now ht).1] at hcanceled
      cases hcanceled
    · -- an update leaves the status and the plan it names, or those that were there
      rw [updated_saved hdecision d.now ht, OnFree, hsaved]
      rw [StripeEvent.namedPlan, StripeEvent.handler, ht] at hplan
      have hprice : planForPrice db d.event.object.priceId = .ok plan := hplan
      unfold CancelsOntoFree
      constructor
      · rintro hnew - s hs hcanceled
        obtain rfl : sub = s := Option.some.inj (Except.ok.inj (hfind.symm.trans hs))
        have hfree := hnew hcanceled
        refine ⟨fun p hp => ?_, fun hp => ?_⟩
        · obtain rfl : plan = some p := Except.ok.inj (hprice.symm.trans hp)
          exact hfree
        · obtain rfl : plan = none := Except.ok.inj (hprice.symm.trans hp)
          exact hfree
      · intro hcond hcanceled
        obtain ⟨hsome, hnone⟩ := hcond ht sub hfind hcanceled
        cases plan with
        | none => exact hnone hprice
        | some p => exact hsome p hprice
    · -- a deletion puts its row on the Free plan
      refine iff_of_true (fun _ => ?_) (cancelsOntoFree_of_type ht (by decide))
      rw [OnFree, (deleted_saved hdecision d.now ht).2.2, hfree]
      rfl
    · -- a failed payment leaves its row past due
      refine iff_of_true (fun hcanceled => ?_) (cancelsOntoFree_of_type ht (by decide))
      rw [payment_failed_saved hdecision d.now ht] at hcanceled
      cases hcanceled

/-- **When every canceled row stays on the Free plan.** From organizations that are all on the Free
plan and active, every state of a run has its canceled rows there if and only if no processed
update leaves a row canceled on another plan. -/
theorem canceled_onFree_iff {db : Db} {f : Row Plan} (hfree : freePlan db = some f)
    (hstart : ∀ sub ∈ db.subscriptions.rows, sub.val.plan = f.id ∧ sub.val.status = .active)
    (ds : List Delivery) :
    States deliver CanceledOnFree db ds ↔
      Each deliver (fun db d => Processed db d → CancelsOntoFree db d.event) db ds := by
  have hplans : States deliver (fun db => freePlan db = some f) db ds := by
    refine states_of_step (Q := fun db => freePlan db = some f) (fun db d hfree => ?_) hfree ds
    by_cases hprocessed : Processed db d
    · exact (freePlan_of_process hprocessed.deliver_eq).trans hfree
    · rw [deliver_of_not_processed hprocessed, hfree]
  refine states_iff_each (R := fun db _ => freePlan db = some f) ?_ ?_
    (each_of_states (fun _ _ h _ => h) hplans)
  · intro db d hinv hfree
    by_cases hprocessed : Processed db d
    · rw [canceledOnFree_step hfree hinv hprocessed.deliver_eq]
      exact ⟨fun h _ => h, fun h => h hprocessed⟩
    · rw [deliver_of_not_processed hprocessed]
      exact iff_of_true hinv fun h => absurd h hprocessed
  · intro sub hsub hcanceled
    rw [(hstart sub hsub).2] at hcanceled
    cases hcanceled

/-! ### Runs on a small catalogue -/

instance (db : Db) : Decidable (CanceledOnFree db) :=
  inferInstanceAs (Decidable (∀ sub ∈ db.subscriptions.rows, _ → _))

/-- Two plans, and organization 1 on the Free one. -/
def smallBilling : Db where
  plans := (Table.empty.insert ⟨"free", "Free", "", defaultFreeLimits, true⟩).insert
    ⟨"pro", "Pro", "price_pro", [("max_projects", some 25), ("max_members", some 10)], true⟩
  subscriptions := Table.empty.insert { organization := 1, plan := 1, updatedAt := 0 }

/-- Checkout of plan Pro for organization 1, as customer `cus_1`. -/
def checkoutOf (eventId sub : String) : Delivery :=
  ⟨⟨eventId, some "checkout.session.completed",
    { customer := some "cus_1", subscription := some sub,
      metadata := some [("organization_id", "1"), ("plan_code", "pro")] }⟩, 10, none⟩

/-- An update of a subscription of organization 1 at the price of plan Pro. -/
def updateOf (eventId sub status : String) : Delivery :=
  ⟨⟨eventId, some "customer.subscription.updated",
    { id := some sub, customer := some "cus_1", status := some status,
      metadata := some [("organization_id", "1")],
      items := some (.obj [("data", .arr [.obj [("price", .obj [("id", .str "price_pro")])]])]) }⟩,
    20, none⟩

/-- The deletion of a subscription of organization 1. -/
def deletionOf (eventId sub : String) : Delivery :=
  ⟨⟨eventId, some "customer.subscription.deleted",
    { id := some sub, customer := some "cus_1", metadata := some [("organization_id", "1")] }⟩,
    30, none⟩

/-- An update to `incomplete_expired` cancels the row and keeps the paid plan. -/
theorem canceled_on_paid_plan :
    freePlan smallBilling = smallBilling.plans.get? 1 ∧
      (∀ sub ∈ smallBilling.subscriptions.rows, sub.val.plan = 1 ∧ sub.val.status = .active) ∧
      ¬ States deliver CanceledOnFree smallBilling
        [checkoutOf "evt_1" "sub_1", updateOf "evt_2" "sub_1" "incomplete_expired"] := by
  refine ⟨by decide, by decide, fun h => ?_⟩
  exact absurd h.last (by decide)

theorem canceled_onFree_iff_deletion :
    States deliver CanceledOnFree smallBilling
      [checkoutOf "evt_1" "sub_1", deletionOf "evt_2" "sub_1"] := by
  refine (canceled_onFree_iff (f := ⟨1, "free", "Free", "", defaultFreeLimits, true⟩) (by decide)
    (by decide) _).mpr ⟨?_, ?_, trivial⟩
  · exact fun _ hu => absurd (Option.some.inj hu) (by decide)
  · exact fun _ hu => absurd (Option.some.inj hu) (by decide)

end Bastiq
