import Bastiq.Billing.Lifecycle

/-!
# When a subscription ends

The deletion of a Stripe subscription puts its organization on the Free plan and marks the row
canceled. Two questions follow. Does the row stay that way when events of the ended subscription
arrive late? And does the deletion of an old subscription leave a newer one of the same
organization alone? Both come down to which row an event finds: the metadata is asked before the
subscription id, and the customer id last.
-/

namespace Bastiq

open Relational Transition

/-! ## Late events of an ended subscription -/

/-- The organization's row is marked canceled. -/
def IsCanceled (db : Db) (org : Nat) : Prop :=
  ∃ sub, subscriptionOf db org = some sub ∧ sub.val.status = .canceled

/-- The organization's row is on the Free plan. -/
def IsOnFree (db : Db) (org : Nat) : Prop :=
  ∃ sub, subscriptionOf db org = some sub ∧ OnFree db sub.val

/-- A step moves the organization neither off the Free plan nor off CANCELED. -/
def KeepsEnd (db db' : Db) (org : Nat) : Prop :=
  (IsOnFree db org → IsOnFree db' org) ∧ (IsCanceled db org → IsCanceled db' org)

/-- The organization's row as the deletion leaves it: canceled, and on the Free plan if there is
one. -/
def Ended (org : Nat) (db : Db) : Prop :=
  ∃ sub, subscriptionOf db org = some sub ∧ sub.val.status = .canceled ∧
    ∀ f, freePlan db = some f → sub.val.plan = f.id

/-- An event about subscription `s` that may arrive after its deletion. -/
def LateFor (s : String) (event : StripeEvent) : Prop :=
  (event.type = some "customer.subscription.updated" ∧ event.object.id = some s) ∨
    (event.type = some "invoice.payment_failed" ∧ event.object.subscription = some s)

/-- Where the event finds the organization's row it leaves a canceled row canceled, being an update
with a status of CANCELED or none that is known, and a row on the Free plan there, naming no other
plan that is sold. -/
def LeavesEnd (db : Db) (event : StripeEvent) (org : Nat) : Prop :=
  ∀ sub, event.find db = .ok (some sub) → subscriptionOf db org = some sub →
    (sub.val.status = .canceled → event.type = some "customer.subscription.updated" ∧
      event.object.mappedStatus.getD .canceled = .canceled) ∧
    (OnFree db sub.val → event.type = some "customer.subscription.updated" →
      ∀ p, planForPrice db event.object.priceId = .ok (some p) →
        (freePlan db).map Row.id = some p.id)

theorem isCanceled_iff {db : Db} {org : Nat} {sub : Row Subscription}
    (h : subscriptionOf db org = some sub) : IsCanceled db org ↔ sub.val.status = .canceled := by
  constructor
  · rintro ⟨r, hr, hcanceled⟩
    obtain rfl : sub = r := Option.some.inj (h.symm.trans hr)
    exact hcanceled
  · exact fun hcanceled => ⟨sub, h, hcanceled⟩

theorem isOnFree_iff {db : Db} {org : Nat} {sub : Row Subscription}
    (h : subscriptionOf db org = some sub) : IsOnFree db org ↔ OnFree db sub.val := by
  constructor
  · rintro ⟨r, hr, hfree⟩
    obtain rfl : sub = r := Option.some.inj (h.symm.trans hr)
    exact hfree
  · exact fun hfree => ⟨sub, h, hfree⟩

/-- An event that does not find the organization's row has nothing to leave. -/
theorem leavesEnd_of_not_reaches {db : Db} {event : StripeEvent} {org : Nat}
    (h : ¬ Reaches db event org) : LeavesEnd db event org :=
  fun sub hfind horg => absurd ⟨sub, hfind, horg⟩ h

theorem keepsEnd_of_eq {d : Delivery} {db db' : Db} (h : d.process db = .ok db') {org : Nat}
    (heq : subscriptionOf db' org = subscriptionOf db org) : KeepsEnd db db' org := by
  refine ⟨?_, ?_⟩
  · rintro ⟨sub, hsub, hfree⟩
    exact ⟨sub, heq.trans hsub, (onFree_of_process h _).mpr hfree⟩
  · rintro ⟨sub, hsub, hcanceled⟩
    exact ⟨sub, heq.trans hsub, hcanceled⟩

/-- A late event keeps the end exactly when it leaves the row where the end put it. -/
theorem keepsEnd_iff {d : Delivery} {db db' : Db} {s : String} (h : d.process db = .ok db')
    (hlate : LateFor s d.event) (org : Nat) :
    KeepsEnd db db' org ↔ LeavesEnd db d.event org := by
  rcases d.row_after h org with ⟨sub, save, hdecision, horg, horg'⟩ | ⟨hmiss, heq⟩
  · obtain ⟨hfind, -⟩ := StripeEvent.decision_eq_some hdecision
    have hleaves : LeavesEnd db d.event org ↔
        (sub.val.status = .canceled → d.event.type = some "customer.subscription.updated" ∧
          d.event.object.mappedStatus.getD .canceled = .canceled) ∧
        (OnFree db sub.val → d.event.type = some "customer.subscription.updated" →
          ∀ p, planForPrice db d.event.object.priceId = .ok (some p) →
            (freePlan db).map Row.id = some p.id) := by
      constructor
      · exact fun hl => hl sub hfind horg
      · rintro hl r hr -
        obtain rfl : sub = r := Option.some.inj (Except.ok.inj (hfind.symm.trans hr))
        exact hl
    rw [hleaves, KeepsEnd, isOnFree_iff horg, isOnFree_iff horg', isCanceled_iff horg,
      isCanceled_iff horg', onFree_of_process h, and_comm]
    obtain ⟨plan, hplan, hsaved⟩ := StripeEvent.decision_plan hdecision d.now
    rcases hlate with ⟨ht, -⟩ | ⟨ht, -⟩
    · -- an update: it writes the status and the plan it names
      have hprice : planForPrice db d.event.object.priceId = .ok plan := by
        rw [StripeEvent.namedPlan, StripeEvent.handler, ht] at hplan
        exact hplan
      refine and_congr ?_ ?_
      · refine imp_congr_right fun hcanceled => ?_
        rw [updated_saved hdecision d.now ht, hcanceled]
        exact ⟨fun hs => ⟨ht, hs⟩, fun hs => hs.2⟩
      · refine imp_congr_right fun hfree => ?_
        rw [OnFree, hsaved]
        constructor
        · intro hp _ p hpeq
          obtain rfl : plan = some p := Except.ok.inj (hprice.symm.trans hpeq)
          exact hp
        · intro hp
          cases plan with
          | none => exact hfree
          | some p => exact hp ht p hprice
    · -- a failed payment: it writes PAST_DUE and no plan
      have hnotUpdate : d.event.type ≠ some "customer.subscription.updated" := by
        rw [ht]
        decide
      refine and_congr ?_ ?_
      · refine imp_congr_right fun hcanceled => ?_
        rw [payment_failed_saved hdecision d.now ht]
        exact iff_of_false (by decide) fun hs => hnotUpdate hs.1
      · refine iff_of_true (fun hfree => ?_) (fun _ hu => absurd hu hnotUpdate)
        rw [StripeEvent.namedPlan, StripeEvent.handler, ht] at hplan
        obtain rfl : none = plan := Except.ok.inj hplan
        rw [OnFree, hsaved]
        exact hfree
  · exact iff_of_true (keepsEnd_of_eq h heq) (leavesEnd_of_not_reaches hmiss)

/-- From an ended row, keeping the end and ending ended are the same. -/
theorem ended_iff_keepsEnd {d : Delivery} {db db' : Db} (h : d.process db = .ok db') {org : Nat}
    (hended : Ended org db) : Ended org db' ↔ KeepsEnd db db' org := by
  obtain ⟨sub, horg, hcanceled, hplan⟩ := hended
  constructor
  · rintro ⟨sub', horg', hcanceled', hplan'⟩
    refine ⟨fun _ => ?_, fun _ => ⟨sub', horg', hcanceled'⟩⟩
    cases hf : freePlan db with
    | none =>
        rename_i hon
        rw [isOnFree_iff horg, OnFree, hf] at hon
        cases hon
    | some f =>
        refine ⟨sub', horg', ?_⟩
        rw [onFree_of_process h, OnFree, hf, hplan' f ((freePlan_of_process h).trans hf)]
        rfl
  · rintro ⟨hfree, hcancel⟩
    obtain ⟨sub', horg', hcanceled'⟩ := hcancel ⟨sub, horg, hcanceled⟩
    refine ⟨sub', horg', hcanceled', fun f hf => ?_⟩
    rw [freePlan_of_process h] at hf
    have hon : OnFree db sub.val := by rw [OnFree, hf, hplan f hf]; rfl
    have hon' := (isOnFree_iff horg').mp (hfree ⟨sub, horg, hon⟩)
    rw [onFree_of_process h, OnFree, hf] at hon'
    exact (Option.some.inj hon').symm

/-- The deletion of a subscription ends the row it finds. -/
theorem ended_of_deletion {d : Delivery} {db db' : Db} (h : d.process db = .ok db') {org : Nat}
    (ht : d.event.type = some "customer.subscription.deleted") (hreach : Reaches db d.event org) :
    Ended org db' := by
  rcases d.row_after h org with ⟨sub, save, hdecision, -, horg'⟩ | ⟨hmiss, -⟩
  · obtain ⟨hstatus, -, hplan⟩ := deleted_saved hdecision d.now ht
    refine ⟨_, horg', hstatus, fun f hf => ?_⟩
    rw [freePlan_of_process h] at hf
    rw [hplan, hf]
    rfl
  · exact absurd hreach hmiss

/-- **When an ended subscription stays ended.** Let the deletion of subscription `s` be processed
for an organization, and let any deliveries follow. Then

* no late event of `s` moves the organization off the Free plan or off CANCELED if and only if each
  of them, where it finds the organization's row, names no status but CANCELED and no plan but Free;
* if nothing but deletions and late events of `s` finds the organization's row, then under the same
  condition, and only then, the row stays as the deletion left it in every state. -/
theorem late_events_keep_end_iff {db₀ : Db} {del : Delivery} {s : String} {org : Nat}
    (hprocessed : Processed db₀ del)
    (hdeleted : del.event.type = some "customer.subscription.deleted" ∧
      del.event.object.id = some s)
    (hreach : Reaches db₀ del.event org) (late : List Delivery) :
    let db₁ := deliver del db₀
    let condition := Each deliver (fun db d =>
      Processed db d → LateFor s d.event → LeavesEnd db d.event org) db₁ late
    (Each deliver (fun db d =>
        Processed db d → LateFor s d.event → KeepsEnd db (deliver d db) org) db₁ late ↔
      condition) ∧
    (Each deliver (fun db d => Processed db d → Reaches db d.event org →
        d.event.type = some "customer.subscription.deleted" ∨ LateFor s d.event) db₁ late →
      (States deliver (Ended org) db₁ late ↔ condition)) := by
  intro db₁ condition
  refine ⟨each_congr fun db d => ?_, fun honly => ?_⟩
  · refine forall_congr' fun hd => forall_congr' fun hlate => ?_
    exact keepsEnd_iff hd.deliver_eq hlate org
  · refine states_iff_each ?_ (ended_of_deletion hprocessed.deliver_eq hdeleted.1 hreach) honly
    intro db d hended hd
    by_cases hp : Processed db d
    · have hprocess := hp.deliver_eq
      by_cases hreaches : Reaches db d.event org
      · rcases hd hp hreaches with hdel | hlate
        · refine iff_of_true (ended_of_deletion hprocess hdel hreaches) fun _ hlate => ?_
          rcases hlate with ⟨ht, -⟩ | ⟨ht, -⟩
          · exact absurd (Option.some.inj (hdel.symm.trans ht)) (by decide)
          · exact absurd (Option.some.inj (hdel.symm.trans ht)) (by decide)
        · rw [ended_iff_keepsEnd hprocess hended, keepsEnd_iff hprocess hlate org]
          exact ⟨fun h _ _ => h, fun h => h hp hlate⟩
      · refine iff_of_true ?_ fun _ _ => leavesEnd_of_not_reaches hreaches
        rcases d.row_after hprocess org with ⟨sub, save, hdecision, horg, -⟩ | ⟨-, heq⟩
        · exact absurd ⟨sub, (StripeEvent.decision_eq_some hdecision).1, horg⟩ hreaches
        · exact (ended_iff_keepsEnd hprocess hended).mpr (keepsEnd_of_eq hprocess heq)
    · rw [deliver_of_not_processed hp]
      exact iff_of_true hended fun h => absurd h hp

/-- Subscription `sub_1` is bought and deleted, and its first update arrives after that: the
organization is back on plan Pro, and active. -/
theorem late_update_revives :
    let bought := deliver (checkoutOf "evt_1" "sub_1") smallBilling
    let ended := deliver (deletionOf "evt_3" "sub_1") bought
    let revived := deliver (updateOf "evt_2" "sub_1" "active") ended
    Processed bought (deletionOf "evt_3" "sub_1") ∧
      Processed ended (updateOf "evt_2" "sub_1" "active") ∧
      LateFor "sub_1" (updateOf "evt_2" "sub_1" "active").event ∧
      (subscriptionOf ended 1).map (fun r => (r.val.plan, r.val.status)) = some (1, .canceled) ∧
      (subscriptionOf revived 1).map (fun r => (r.val.plan, r.val.status)) = some (2, .active) ∧
      ¬ KeepsEnd ended revived 1 := by
  intro bought ended revived
  refine ⟨by decide, by decide, .inl ⟨rfl, rfl⟩, by decide, by decide, fun h => ?_⟩
  have hended : (subscriptionOf ended 1).map (fun r => r.val.status) = some .canceled := by decide
  have hrevived : (subscriptionOf revived 1).map (fun r => r.val.status) = some .active := by decide
  obtain ⟨sub, hsub, hcanceled⟩ := Option.map_eq_some_iff.mp hended
  obtain ⟨sub', hsub', hcanceled'⟩ := h.2 ⟨sub, hsub, hcanceled⟩
  rw [hsub', Option.map_some, hcanceled'] at hrevived
  exact absurd hrevived (by decide)

theorem late_events_keep_end_iff_canceled :
    let bought := deliver (checkoutOf "evt_1" "sub_1") smallBilling
    let late : Delivery := ⟨⟨"evt_2", some "customer.subscription.updated",
      { id := some "sub_1", status := some "canceled",
        metadata := some [("organization_id", "1")] }⟩, 40, none⟩
    States deliver (Ended 1) (deliver (deletionOf "evt_3" "sub_1") bought) [late] := by
  intro bought late
  have h := @late_events_keep_end_iff bought (deletionOf "evt_3" "sub_1") "sub_1" 1 (by decide)
    ⟨rfl, rfl⟩ ⟨_, by rfl, by rfl⟩ [late]
  refine (h.2 ⟨fun _ _ => .inr (.inl ⟨rfl, rfl⟩), trivial⟩).mpr ⟨?_, trivial⟩
  rintro - - sub - -
  exact ⟨fun _ => ⟨rfl, rfl⟩, fun _ _ p hp => nomatch hp⟩

/-! ## The end of an old subscription -/

/-- What the organization is billed for: plan, status and subscription id of its row. -/
def billed (db : Db) (org : Nat) : Option (Nat × SubscriptionStatus × String) :=
  (subscriptionOf db org).map fun r => (r.val.plan, r.val.status, r.val.stripeSubscriptionId)

/-- The metadata names the organization. -/
def NamesOrg (event : StripeEvent) (org : Nat) : Prop :=
  ∃ text, nonBlank event.object.orgId = some text ∧ Python.int? text = some (org : Int)

/-- The metadata names no organization that has a row, the event's own subscription id is in no
row, and the first row with its customer id is the organization's. -/
def ByCustomer (db : Db) (event : StripeEvent) (org : Nat) : Prop :=
  (∀ text n, nonBlank event.object.orgId = some text → Python.int? text = some n →
    ∀ r ∈ db.subscriptions.rows, (r.val.organization : Int) ≠ n) ∧
  (∀ id, nonBlank event.object.id = some id →
    ∀ r ∈ db.subscriptions.rows, r.val.stripeSubscriptionId ≠ id) ∧
  ∃ customer r, nonBlank event.object.customer = some customer ∧
    db.subscriptions.first? (·.val.stripeCustomerId == customer) = some r ∧
    subscriptionOf db org = some r

/-- The event is routed to the organization's row past its subscription id. -/
def RoutedTo (db : Db) (event : StripeEvent) (org : Nat) : Prop :=
  NamesOrg event org ∨ ByCustomer db event org

/-- A query that is run on its key found nothing. -/
theorem whenGiven_eq_none {key : Option String}
    {query : Db → String → Except Failure (Option (Row Subscription))} {db : Db} :
    whenGiven key query db = .ok none ↔ ∀ k, nonBlank key = some k → query db k = .ok none := by
  unfold whenGiven
  cases nonBlank key with
  | none => exact iff_of_true rfl fun _ h => nomatch h
  | some k => exact ⟨fun h _ hk => Option.some.inj hk ▸ h, fun h => h k rfl⟩

theorem whenGiven_eq_some {key : Option String}
    {query : Db → String → Except Failure (Option (Row Subscription))} {db : Db}
    {r : Row Subscription} :
    whenGiven key query db = .ok (some r) ↔
      ∃ k, nonBlank key = some k ∧ query db k = .ok (some r) := by
  unfold whenGiven
  cases nonBlank key with
  | none => exact iff_of_false (fun h => nomatch h) (by rintro ⟨_, h, -⟩; cases h)
  | some k =>
      constructor
      · exact fun h => ⟨k, rfl, h⟩
      · rintro ⟨_, hk, h⟩
        cases hk
        exact h

/-- Which query found the row. -/
theorem findSubscription_eq_some {db : Db} {obj : StripeObject} {subId customerId : Option String}
    {r : Row Subscription} :
    findSubscription db obj subId customerId = .ok (some r) ↔
      whenGiven obj.orgId subscriptionNamed db = .ok (some r) ∨
      (whenGiven obj.orgId subscriptionNamed db = .ok none ∧
        (whenGiven subId subscriptionWithId db = .ok (some r) ∨
          (whenGiven subId subscriptionWithId db = .ok none ∧
            whenGiven customerId subscriptionOfCustomer db = .ok (some r)))) := by
  unfold findSubscription lookups
  simp only [firstFound]
  rcases whenGiven obj.orgId subscriptionNamed db with e | _ | r₁
  · simp
  · rcases whenGiven subId subscriptionWithId db with e | _ | r₂
    · simp
    · rcases whenGiven customerId subscriptionOfCustomer db with e | _ | r₃ <;> simp
    · simp
  · simp

theorem subscriptionNamed_eq_ok {db : Db} {text : String} {found : Option (Row Subscription)}
    (h : subscriptionNamed db text = .ok found) :
    ∃ n, Python.int? text = some n ∧
      found = db.subscriptions.first? fun s => (s.val.organization : Int) == n := by
  unfold subscriptionNamed at h
  split at h
  · cases h
  · next n hn => exact ⟨n, hn, (Except.ok.inj h).symm⟩

theorem subscriptionWithId_eq_ok {db : Db} {id : String} {found : Option (Row Subscription)}
    (h : subscriptionWithId db id = .ok found) :
    found = db.subscriptions.first? (·.val.stripeSubscriptionId == id) := by
  obtain ⟨text, htext, h⟩ := bind_eq_ok.mp h
  unfold textParam at htext
  split at htext
  · cases htext
  · cases htext
    exact (Except.ok.inj h).symm

theorem subscriptionOfCustomer_eq_ok {db : Db} {id : String} {found : Option (Row Subscription)}
    (h : subscriptionOfCustomer db id = .ok found) :
    found = db.subscriptions.first? (·.val.stripeCustomerId == id) := by
  obtain ⟨text, htext, h⟩ := bind_eq_ok.mp h
  unfold textParam at htext
  split at htext
  · cases htext
  · cases htext
    exact (Except.ok.inj h).symm

theorem subscriptionOf_eq (db : Db) (org : Nat) :
    subscriptionOf db org =
      db.subscriptions.first? fun s => (s.val.organization : Int) == (org : Int) := by
  unfold subscriptionOf
  congr 1
  funext s
  rw [Bool.eq_iff_iff, beq_iff_eq, beq_iff_eq, Int.ofNat_inj]

/-- A lookup that ends has run its queries up to the one that found something. -/
theorem queries_of_findSubscription {db : Db} {obj : StripeObject}
    {subId customerId : Option String} {found : Option (Row Subscription)}
    (h : findSubscription db obj subId customerId = .ok found) :
    ∃ named, whenGiven obj.orgId subscriptionNamed db = .ok named ∧
      (named = none → ∃ withId, whenGiven subId subscriptionWithId db = .ok withId ∧
        (withId = none → whenGiven customerId subscriptionOfCustomer db = .ok found)) := by
  unfold findSubscription lookups at h
  simp only [firstFound] at h
  cases hnamed : whenGiven obj.orgId subscriptionNamed db with
  | error e =>
      rw [hnamed] at h
      cases h
  | ok named =>
      refine ⟨named, rfl, ?_⟩
      rintro rfl
      rw [hnamed] at h
      cases hid : whenGiven subId subscriptionWithId db with
      | error e =>
          rw [hid] at h
          cases h
      | ok withId =>
          refine ⟨withId, rfl, ?_⟩
          rintro rfl
          rw [hid] at h
          cases hcustomer : whenGiven customerId subscriptionOfCustomer db with
          | error e =>
              rw [hcustomer] at h
              cases h
          | ok last =>
              rw [hcustomer] at h
              cases last with
              | none => exact h
              | some r => exact h

/-- The metadata names no organization that has a row. -/
theorem named_eq_none {db : Db} {orgId : Option String} {named : Option (Row Subscription)}
    (h : whenGiven orgId subscriptionNamed db = .ok named)
    (hunnamed : ∀ text n, nonBlank orgId = some text → Python.int? text = some n →
      ∀ r ∈ db.subscriptions.rows, (r.val.organization : Int) ≠ n) : named = none := by
  cases named with
  | none => rfl
  | some r =>
      obtain ⟨text, htext, hfound⟩ := whenGiven_eq_some.mp h
      obtain ⟨n, hn, hfirst⟩ := subscriptionNamed_eq_ok hfound
      have hr := Table.pos_of_first? hfirst.symm
      rw [beq_iff_eq] at hr
      exact absurd hr (hunnamed text n htext hn r (Table.mem_of_first? hfirst.symm))

/-- The subscription id is in no row. -/
theorem withId_eq_none {db : Db} {subId : Option String} {withId : Option (Row Subscription)}
    (h : whenGiven subId subscriptionWithId db = .ok withId)
    (hno : ∀ id, nonBlank subId = some id →
      ∀ r ∈ db.subscriptions.rows, r.val.stripeSubscriptionId ≠ id) : withId = none := by
  cases withId with
  | none => rfl
  | some r =>
      obtain ⟨id, hid, hfound⟩ := whenGiven_eq_some.mp h
      have hfirst := (subscriptionWithId_eq_ok hfound).symm
      have hr := Table.pos_of_first? hfirst
      rw [beq_iff_eq] at hr
      exact absurd hr (hno id hid r (Table.mem_of_first? hfirst))

theorem find_of_deletion {db : Db} {event : StripeEvent}
    (ht : event.type = some "customer.subscription.deleted") :
    event.find db = findSubscription db event.object event.object.id event.object.customer := by
  rw [StripeEvent.find, StripeEvent.handler, ht]
  rfl

/-- A deletion that finds a row with another subscription id was routed there. -/
theorem routedTo_of_reaches {db : Db} {event : StripeEvent} {org : Nat} {sub : Row Subscription}
    (ht : event.type = some "customer.subscription.deleted")
    (horg : subscriptionOf db org = some sub)
    (hother : event.object.id ≠ some sub.val.stripeSubscriptionId)
    (hreach : Reaches db event org) : RoutedTo db event org := by
  obtain ⟨r, hr, hr'⟩ := hreach
  obtain rfl : sub = r := Option.some.inj (horg.symm.trans hr')
  rw [find_of_deletion ht, findSubscription_eq_some] at hr
  rcases hr with hnamed | ⟨hunnamed, hid | ⟨hno, hcustomer⟩⟩
  · obtain ⟨text, htext, hnamed⟩ := whenGiven_eq_some.mp hnamed
    obtain ⟨n, hn, hfirst⟩ := subscriptionNamed_eq_ok hnamed
    have hsub := Table.pos_of_first? hfirst.symm
    have hsub' := Table.pos_of_first? horg
    simp only [beq_iff_eq] at hsub hsub'
    exact .inl ⟨text, htext, by rw [hn, ← hsub, hsub']⟩
  · -- the row would record the event's own subscription
    obtain ⟨id, hid, hfound⟩ := whenGiven_eq_some.mp hid
    have hsub := Table.pos_of_first? (subscriptionWithId_eq_ok hfound).symm
    simp only [beq_iff_eq] at hsub
    have hevent : event.object.id = some id := (Option.filter_eq_some_iff.mp hid).1
    exact absurd (hevent.trans (by rw [hsub])) hother
  · obtain ⟨customer, hcustomer, hfound⟩ := whenGiven_eq_some.mp hcustomer
    refine .inr ⟨?_, ?_, customer, sub, hcustomer, (subscriptionOfCustomer_eq_ok hfound).symm,
      horg⟩
    · intro text n htext hn r hr
      obtain ⟨n', hn', hfirst⟩ :=
        subscriptionNamed_eq_ok (whenGiven_eq_none.mp hunnamed text htext)
      obtain rfl : n = n' := Option.some.inj (hn.symm.trans hn')
      simpa using Table.first?_eq_none_iff.mp hfirst.symm r hr
    · intro id hid r hr
      have hfirst := subscriptionWithId_eq_ok (whenGiven_eq_none.mp hno id hid)
      simpa using Table.first?_eq_none_iff.mp hfirst.symm r hr

/-- A deletion that is routed to a row finds it, if its lookup ends. -/
theorem reaches_of_routedTo {db : Db} {event : StripeEvent} {org : Nat} {sub : Row Subscription}
    {found : Option (Row Subscription)}
    (ht : event.type = some "customer.subscription.deleted")
    (hok : event.find db = .ok found) (horg : subscriptionOf db org = some sub)
    (hrouted : RoutedTo db event org) : Reaches db event org := by
  rcases hrouted with ⟨text, htext, hn⟩ | ⟨hunnamed, hno, customer, r, hcustomer, hfirst, hr⟩
  · refine ⟨sub, ?_, horg⟩
    rw [find_of_deletion ht, findSubscription_eq_some]
    refine .inl (whenGiven_eq_some.mpr ⟨text, htext, ?_⟩)
    simp only [subscriptionNamed, hn]
    rw [← subscriptionOf_eq, horg]
  · refine ⟨r, ?_, hr⟩
    rw [find_of_deletion ht] at hok
    -- the first two queries find nothing, so the third one decides
    obtain ⟨named, hnamed, hthen⟩ := queries_of_findSubscription hok
    obtain ⟨withId, hid, hlast⟩ := hthen (named_eq_none hnamed hunnamed)
    have hfound := hlast (withId_eq_none hid hno)
    rw [whenGiven, hcustomer] at hfound
    rw [find_of_deletion ht, hok, subscriptionOfCustomer_eq_ok hfound, hfirst]

/-- **Which deletions find a row that records another subscription**: those routed to it past their
subscription id. -/
theorem reaches_iff_routedTo {db : Db} {event : StripeEvent} {org : Nat} {sub : Row Subscription}
    {found : Option (Row Subscription)}
    (ht : event.type = some "customer.subscription.deleted")
    (hok : event.find db = .ok found) (horg : subscriptionOf db org = some sub)
    (hother : event.object.id ≠ some sub.val.stripeSubscriptionId) :
    Reaches db event org ↔ RoutedTo db event org :=
  ⟨routedTo_of_reaches ht horg hother, reaches_of_routedTo ht hok horg⟩

theorem billed_of_subscriptionOf {db : Db} {org : Nat} {sub : Row Subscription}
    (h : subscriptionOf db org = some sub) :
    billed db org = some (sub.val.plan, sub.val.status, sub.val.stripeSubscriptionId) := by
  rw [billed, h, Option.map_some]

/-- A processed deletion of another subscription leaves what the organization is billed for exactly
when it is not routed to the organization's row. -/
theorem billed_iff_not_routedTo {d : Delivery} {db db' : Db} {org : Nat} {sub : Row Subscription}
    (h : d.process db = .ok db') (horg : subscriptionOf db org = some sub)
    (hs : sub.val.stripeSubscriptionId ≠ "")
    (ht : d.event.type = some "customer.subscription.deleted")
    (hother : d.event.object.id ≠ some sub.val.stripeSubscriptionId) :
    billed db' org = billed db org ↔ ¬ RoutedTo db d.event org := by
  obtain ⟨found, hfound⟩ := find_of_process h
  rw [← reaches_iff_routedTo ht hfound horg hother]
  rcases d.row_after h org with ⟨r, save, hdecision, hr, hr'⟩ | ⟨hmiss, heq⟩
  · obtain rfl : sub = r := Option.some.inj (horg.symm.trans hr)
    obtain ⟨-, hid, -⟩ := deleted_saved hdecision d.now ht
    refine iff_of_false (fun hb => hs ?_)
      (not_not_intro ⟨sub, (StripeEvent.decision_eq_some hdecision).1, horg⟩)
    rw [billed_of_subscriptionOf horg, billed_of_subscriptionOf hr'] at hb
    have hb := congrArg (fun x => x.2.2) (Option.some.inj hb)
    exact hb.symm.trans hid
  · exact iff_of_true (by rw [billed, heq, billed]) hmiss

/-- The checkout of subscription `s` leaves `s` in the organization's row. -/
theorem billed_of_checkout {d : Delivery} {db db' : Db} {org : Nat} {s : String}
    (h : d.process db = .ok db') (ht : d.event.type = some "checkout.session.completed")
    (hs : d.event.object.subscription = some s) (hne : s ≠ "") (hreach : Reaches db d.event org) :
    ∃ plan status, billed db' org = some (plan, status, s) := by
  rcases d.row_after h org with ⟨sub, save, hdecision, -, horg'⟩ | ⟨hmiss, -⟩
  · obtain ⟨-, hid⟩ := checkout_saved hdecision d.now ht
    refine ⟨(save.apply d.now sub.val).plan, (save.apply d.now sub.val).status,
      (billed_of_subscriptionOf horg').trans ?_⟩
    simp only [hid, hs, nonBlank, Option.filter_some, bne_iff_ne, ne_eq, hne, not_false_eq_true,
      if_true, Option.getD_some]
  · exact absurd hreach hmiss

/-- **When the end of an old subscription leaves a newer one alone.** Let the organization's row
record subscription `s`. Then

* a processed deletion of another subscription leaves the row's plan, status and subscription id if
  and only if it is not routed to the row by its metadata or its customer id;
* after the checkout of `s`, as long as nothing but deletions of other subscriptions finds the row,
  the organization keeps what it bought with `s` in every state if and only if none of these
  deletions is so routed. -/
theorem old_deletion_keeps_newer_iff {org : Nat} {s : String} (hs : s ≠ "") :
    (∀ (db db' : Db) (d : Delivery) (sub : Row Subscription), subscriptionOf db org = some sub →
      sub.val.stripeSubscriptionId = s →
      d.event.type = some "customer.subscription.deleted" → d.event.object.id ≠ some s →
      d.process db = .ok db' →
      (billed db' org = billed db org ↔ ¬ RoutedTo db d.event org)) ∧
    (∀ (db₀ : Db) (d : Delivery) (late : List Delivery), Processed db₀ d →
      d.event.type = some "checkout.session.completed" →
      d.event.object.subscription = some s → Reaches db₀ d.event org →
      Each deliver (fun db d => Processed db d → Reaches db d.event org →
        d.event.type = some "customer.subscription.deleted" ∧ d.event.object.id ≠ some s)
        (deliver d db₀) late →
      (States deliver (fun db => billed db org = billed (deliver d db₀) org) (deliver d db₀) late ↔
        Each deliver (fun db d => Processed db d →
          d.event.type = some "customer.subscription.deleted" → d.event.object.id ≠ some s →
          ¬ RoutedTo db d.event org) (deliver d db₀) late)) := by
  refine ⟨?_, ?_⟩
  · intro db db' d sub horg hsub ht hother h
    subst hsub
    exact billed_iff_not_routedTo h horg hs ht hother
  · intro db₀ d late hprocessed ht hsub hreach honly
    obtain ⟨plan, status, hbilled⟩ := billed_of_checkout hprocessed.deliver_eq ht hsub hs hreach
    refine states_iff_each ?_ rfl honly
    intro db e hdb he
    rw [hbilled] at hdb ⊢
    by_cases hp : Processed db e
    · have hprocess := hp.deliver_eq
      obtain ⟨sub, horg, hrow⟩ := Option.map_eq_some_iff.mp hdb
      have hid : sub.val.stripeSubscriptionId = s := congrArg (fun x => x.2.2) hrow
      by_cases hdeletion :
          e.event.type = some "customer.subscription.deleted" ∧ e.event.object.id ≠ some s
      · have hstep := billed_iff_not_routedTo hprocess horg (by rw [hid]; exact hs) hdeletion.1
          (by rw [hid]; exact hdeletion.2)
        rw [hdb] at hstep
        rw [hstep]
        exact ⟨fun h _ _ _ => h, fun h => h hp hdeletion.1 hdeletion.2⟩
      · refine iff_of_true ?_ fun _ h₁ h₂ => absurd ⟨h₁, h₂⟩ hdeletion
        rcases e.row_after hprocess org with ⟨r, save, hdecision, hr, -⟩ | ⟨-, heq⟩
        · have hreaches : Reaches db e.event org :=
            ⟨r, (StripeEvent.decision_eq_some hdecision).1, hr⟩
          exact absurd (he hp hreaches) hdeletion
        · rw [billed, heq]
          exact hdb
    · rw [deliver_of_not_processed hp]
      exact iff_of_true hdb fun h => absurd h hp

/-- The organization buys `sub_1` and then `sub_2`; the deletion of `sub_1`, whose metadata names
the organization, cancels `sub_2`. -/
theorem old_deletion_cancels_newer :
    let first := deliver (checkoutOf "evt_1" "sub_1") smallBilling
    let second := deliver (checkoutOf "evt_2" "sub_2") first
    let deleted := deliver (deletionOf "evt_3" "sub_1") second
    Processed second (deletionOf "evt_3" "sub_1") ∧
      billed second 1 = some (2, .active, "sub_2") ∧ billed deleted 1 = some (1, .canceled, "") := by
  decide

/-- A deletion under another customer id and without metadata. -/
theorem old_deletion_keeps_newer_iff_unrouted :
    let second := deliver (checkoutOf "evt_2" "sub_2") smallBilling
    let deletion : Delivery := ⟨⟨"evt_3", some "customer.subscription.deleted",
      { id := some "sub_1", customer := some "cus_0" }⟩, 30, none⟩
    billed (deliver deletion second) 1 = billed second 1 := by
  intro second deletion
  have hprocessed : Processed second deletion := by decide
  refine ((@old_deletion_keeps_newer_iff 1 "sub_2" (by decide)).1 second _ deletion
    ⟨1, 1, 2, "cus_1", "sub_2", .active, none, 10⟩ (by decide) rfl rfl (by decide)
    hprocessed.deliver_eq).mpr ?_
  rintro (⟨text, htext, -⟩ | ⟨-, -, customer, r, hcustomer, hfirst, -⟩)
  · cases htext
  · obtain rfl : "cus_0" = customer := Option.some.inj hcustomer
    cases hfirst

end Bastiq
