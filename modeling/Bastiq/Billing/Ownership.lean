import Bastiq.Billing.Endings
import Bastiq.Billing.Checkout
import Bastiq.Billing.Delivery
import Bastiq.Organizations.Views

/-!
# Whose ids these are

An event finds its row by organization, by subscription id or by customer id, whichever succeeds
first, and the id columns are neither unique nor always filled. That it finds no row of another
organization rests on an invariant: what a row records belongs to the row's organization.
-/

namespace Bastiq

open Relational Transition

/-- The organization each Stripe customer and each Stripe subscription belongs to. -/
structure Owners where
  customer     : String → Nat
  subscription : String → Nat

/-- The ids a row records belong to its organization. -/
def Subscription.OwnedBy (owners : Owners) (s : Subscription) : Prop :=
  (s.stripeCustomerId ≠ "" → owners.customer s.stripeCustomerId = s.organization) ∧
  (s.stripeSubscriptionId ≠ "" → owners.subscription s.stripeSubscriptionId = s.organization)

/-- Every row records ids of its own organization only. -/
def Owned (owners : Owners) (db : Db) : Prop :=
  ∀ r ∈ db.subscriptions.rows, r.val.OwnedBy owners

/-- The object of the event is a subscription, so its id is a subscription id. -/
def StripeEvent.isAboutSubscription (event : StripeEvent) : Bool :=
  event.type == some "customer.subscription.updated" ||
    event.type == some "customer.subscription.deleted"

/-- The ids the event carries belong to the organization, and its metadata names no other. -/
structure StripeEvent.CarriedBy (owners : Owners) (event : StripeEvent) (org : Nat) : Prop where
  customer : ∀ id, nonBlank event.object.customer = some id → owners.customer id = org
  subscription : ∀ id, nonBlank event.object.subscription = some id → owners.subscription id = org
  object : event.isAboutSubscription = true →
    ∀ id, nonBlank event.object.id = some id → owners.subscription id = org
  metadata : event.object.orgId = none ∨ event.object.orgId = some (toString org)

/-- What happens to subscription rows, one at a time. -/
inductive TenancyOp where
  | event (d : Delivery)
  | createOrganization (user : Nat) (name slug : String) (now : Int)
  | deleteOrganization (org : Nat)
  | ensureCustomer (org : Nat) (create : Except Failure String)

def TenancyOp.step : TenancyOp → Db → Db
  | .event d, db => deliver d db
  | .createOrganization user name slug now, db =>
      match insertOrganization db user name slug now with
      | .ok (_, db) => db
      | .error _ => db
  | .deleteOrganization org, db => Bastiq.deleteOrganization db org
  | .ensureCustomer org create, db => (BillingOp.ensureCustomer org create).perform db

/-- An event carries the ids of one organization, and Stripe creates a customer for the
organization that asks for one. -/
def TenancyOp.Lawful (owners : Owners) : TenancyOp → Prop
  | .event d => ∃ org, d.event.CarriedBy owners org
  | .ensureCustomer org create => ∀ id, create = .ok id → owners.customer id = org
  | _ => True

/-- The subscription rows of all organizations but one. -/
def rowsOfOthers (db : Db) (org : Nat) : List (Row Subscription) :=
  db.subscriptions.select fun r => r.val.organization != org

/-! ## The row an event finds -/

section Find

variable {owners : Owners} {event : StripeEvent} {db : Db} {org : Nat}

/-- The subscription id a handler looks its row up by is one the event carries. -/
theorem StripeEvent.CarriedBy.handler_subscriptionId {h : Handler}
    (hcarried : event.CarriedBy owners org) (hh : event.handler = some h) {id : String}
    (hid : nonBlank (h.subscriptionId event.object) = some id) : owners.subscription id = org := by
  rcases handler_cases hh with ⟨-, rfl⟩ | ⟨ht, rfl⟩ | ⟨ht, rfl⟩ | ⟨-, rfl⟩
  · cases hid
  · exact hcarried.object (by rw [isAboutSubscription, ht]; rfl) id hid
  · exact hcarried.object (by rw [isAboutSubscription, ht]; rfl) id hid
  · exact hcarried.subscription id hid

/-- So is the customer id. -/
theorem StripeEvent.handler_customerId {h : Handler} (hh : event.handler = some h) :
    h.customerId event.object = event.object.customer := by
  rcases handler_cases hh with ⟨-, rfl⟩ | ⟨-, rfl⟩ | ⟨-, rfl⟩ | ⟨-, rfl⟩ <;> rfl

theorem nonBlank_ne_blank {text : Option String} {id : String} (h : nonBlank text = some id) :
    id ≠ "" := by
  obtain ⟨-, hid⟩ := Option.filter_eq_some_iff.mp h
  simpa using hid

/-- **An event finds a row of its own organization**, whichever query finds it. -/
theorem StripeEvent.CarriedBy.organization_of_find {sub : Row Subscription}
    (hcarried : event.CarriedBy owners org) (howned : Owned owners db)
    (hfind : event.find db = .ok (some sub)) : sub.val.organization = org := by
  have hsub := howned sub (StripeEvent.mem_of_find hfind)
  unfold StripeEvent.find at hfind
  cases hh : event.handler with
  | none => rw [hh] at hfind; cases hfind
  | some h =>
      rw [hh] at hfind
      rcases findSubscription_eq_some.mp hfind with hnamed | ⟨-, hid | ⟨-, hcustomer⟩⟩
      · obtain ⟨text, htext, hquery⟩ := whenGiven_eq_some.mp hnamed
        obtain ⟨n, hn, hfirst⟩ := subscriptionNamed_eq_ok hquery
        have hrow := Table.pos_of_first? hfirst.symm
        obtain ⟨hmetadata, -⟩ := Option.filter_eq_some_iff.mp htext
        rcases hcarried.metadata with habsent | hnames
        · rw [habsent] at hmetadata
          cases hmetadata
        · rw [hnames] at hmetadata
          obtain rfl := Option.some.inj hmetadata
          have hint := Python.int?_toString hn
          simp only [beq_iff_eq] at hrow
          omega
      · obtain ⟨id, hid, hquery⟩ := whenGiven_eq_some.mp hid
        have hrow := Table.pos_of_first? (subscriptionWithId_eq_ok hquery).symm
        rw [beq_iff_eq] at hrow
        have hblank : sub.val.stripeSubscriptionId ≠ "" := by
          rw [hrow]
          exact nonBlank_ne_blank hid
        rw [← hsub.2 hblank, hrow]
        exact hcarried.handler_subscriptionId hh hid
      · obtain ⟨id, hid, hquery⟩ := whenGiven_eq_some.mp hcustomer
        have hrow := Table.pos_of_first? (subscriptionOfCustomer_eq_ok hquery).symm
        rw [beq_iff_eq] at hrow
        have hblank : sub.val.stripeCustomerId ≠ "" := by
          rw [hrow]
          exact nonBlank_ne_blank hid
        rw [StripeEvent.handler_customerId hh] at hid
        rw [← hsub.1 hblank, hrow]
        exact hcarried.customer id hid

theorem ownedBy_getD {text : Option String} {old : String} {owner : String → Nat}
    (hnew : ∀ id, nonBlank text = some id → owner id = org) (hold : old ≠ "" → owner old = org)
    (h : (nonBlank text).getD old ≠ "") : owner ((nonBlank text).getD old) = org := by
  cases htext : nonBlank text with
  | none => rw [htext] at h; exact hold h
  | some id => exact hnew id htext

/-- **The write puts ids of the organization into its row**, or leaves what is there. -/
theorem StripeEvent.CarriedBy.ownedBy_apply {sub : Row Subscription} {save : Save}
    (hcarried : event.CarriedBy owners org) (hsub : sub.val.OwnedBy owners)
    (horg : sub.val.organization = org) (hdecision : event.decision db = .ok (some (sub, save)))
    (now : Int) : (save.apply now sub.val).OwnedBy owners := by
  subst horg
  obtain ⟨-, plan, -, h, hh, hsave⟩ := decision_eq_some hdecision
  rcases handler_cases hh with ⟨-, rfl⟩ | ⟨ht, rfl⟩ | ⟨-, rfl⟩ | ⟨-, rfl⟩
  · cases hsave
    exact ⟨ownedBy_getD hcarried.customer hsub.1, ownedBy_getD hcarried.subscription hsub.2⟩
  · obtain ⟨periodEnd, -, hsave⟩ := bind_eq_ok.mp hsave
    cases hsave
    have hobject := hcarried.object (by rw [isAboutSubscription, ht]; rfl)
    exact ⟨hsub.1, ownedBy_getD hobject hsub.2⟩
  · cases hsave
    exact ⟨hsub.1, fun hblank => absurd rfl hblank⟩
  · cases hsave
    exact hsub

end Find

/-! ## One step -/

section Step

variable {owners : Owners} {db : Db}

/-- A row that changes as `f` says, and stays with its organization. -/
theorem owned_modify {sub : Row Subscription} {f : Subscription → Subscription}
    (h : Owned owners db) (hsub : sub ∈ db.subscriptions.rows) (hf : (f sub.val).OwnedBy owners) :
    ∀ r ∈ (db.subscriptions.modify sub.id f).rows, r.val.OwnedBy owners := by
  intro r hr
  rcases Table.mem_modify.mp hr with ⟨hr, -⟩ | ⟨s, hs, hid, rfl⟩
  · exact h r hr
  · rw [db.subscriptions.eq_of_id_eq hs hsub hid]
    exact hf

theorem rowsOfOthers_modify {sub : Row Subscription} {f : Subscription → Subscription}
    (hsub : sub ∈ db.subscriptions.rows) (horg : (f sub.val).organization = sub.val.organization) :
    (db.subscriptions.modify sub.id f).select (fun r => r.val.organization != sub.val.organization) =
      rowsOfOthers db sub.val.organization := by
  -- the changed row is not among those of others, before or after
  have hkept : ∀ r ∈ db.subscriptions.rows, r.id = sub.id → r = sub :=
    fun r hr hid => db.subscriptions.eq_of_id_eq hr hsub hid
  rw [Table.modify, Table.select_update]
  · rw [rowsOfOthers]
    conv_rhs => rw [← List.map_id (db.subscriptions.select _)]
    apply List.map_congr_left
    intro r hr
    obtain ⟨hr, hother⟩ := List.mem_filter.mp hr
    apply Table.setRow_of_neg
    rw [beq_eq_false_iff_ne]
    intro hid
    rw [hkept r hr hid] at hother
    simp at hother
  · intro r hr
    by_cases hid : r.id = sub.id
    · rw [Table.setRow_of_pos (by simpa using hid), hkept r hr hid, horg]
    · rw [Table.setRow_of_neg (by simpa using hid)]

theorem StripeEvent.CarriedBy.rowsOfOthers_deliver {d : Delivery} {org : Nat}
    (hcarried : d.event.CarriedBy owners org) (h : Owned owners db) :
    rowsOfOthers (deliver d db) org = rowsOfOthers db org := by
  rcases postWebhook_cases d db with hsame | ⟨-, hprocess⟩
  · rw [deliver, hsame]
  · rw [deliver]
    rcases Delivery.process_cases hprocess with ⟨-, hdb⟩ | ⟨sub, save, hdecision, hdb⟩
    · rw [hdb]
      rfl
    · obtain ⟨hfind, -⟩ := decision_eq_some hdecision
      -- whichever id the row was found by, it is the event's own organization's
      obtain rfl := hcarried.organization_of_find h hfind
      rw [hdb]
      exact rowsOfOthers_modify (mem_of_find hfind) (decision_organization hdecision d.now)

theorem StripeEvent.CarriedBy.owned_deliver {d : Delivery} {org : Nat}
    (hcarried : d.event.CarriedBy owners org) (h : Owned owners db) :
    Owned owners (deliver d db) := by
  rcases postWebhook_cases d db with hsame | ⟨-, hprocess⟩
  · rw [deliver, hsame]
    exact h
  · rw [deliver]
    rcases Delivery.process_cases hprocess with ⟨-, hdb⟩ | ⟨sub, save, hdecision, hdb⟩
    · rw [hdb]
      exact h
    · obtain ⟨hfind, -⟩ := decision_eq_some hdecision
      have hsub := mem_of_find hfind
      have horg := hcarried.organization_of_find h hfind
      rw [hdb]
      exact owned_modify h hsub (hcarried.ownedBy_apply (h sub hsub) horg hdecision d.now)

theorem owned_createFreeSubscription (h : Owned owners db) (org : Nat) (now : Int) :
    Owned owners (createFreeSubscription db org now) := by
  unfold createFreeSubscription
  split
  · intro r hr
    rcases Table.mem_insert.mp hr with hr | rfl
    · exact h r hr
    · exact ⟨fun hblank => absurd rfl hblank, fun hblank => absurd rfl hblank⟩
  · exact h

theorem owned_saveCustomer {sub : Row Subscription} {customer : String} (h : Owned owners db)
    (hsub : sub ∈ db.subscriptions.rows)
    (hcustomer : owners.customer customer = sub.val.organization) :
    Owned owners (saveCustomer db sub.id customer) :=
  owned_modify h hsub ⟨fun _ => hcustomer, (h sub hsub).2⟩

/-- **Every operation keeps the ids with their owners.** -/
theorem TenancyOp.Lawful.owned {op : TenancyOp} (hop : op.Lawful owners) (h : Owned owners db) :
    Owned owners (op.step db) := by
  cases op with
  | event d =>
      obtain ⟨org, hcarried⟩ := hop
      exact hcarried.owned_deliver h
  | createOrganization user name slug now =>
      simp only [TenancyOp.step]
      split
      · next org db' hinsert =>
        obtain ⟨-, subs, rfl, rfl⟩ := insertOrganization_eq_ok hinsert
        let created : Db := { db with organizations := db.organizations.insert org.val }
        have hcreated : Owned owners created := h
        exact owned_createFreeSubscription hcreated org.id now
      · exact h
  | deleteOrganization org =>
      intro r hr
      exact h r (Table.mem_delete.mp hr).1
  | ensureCustomer org create =>
      simp only [TenancyOp.step, BillingOp.perform]
      split
      · exact h
      · next sub hsub =>
        split
        · next customer db' hensure =>
          rcases ensureCustomer_cases hensure with rfl | ⟨-, hcreate, rfl⟩
          · exact h
          · have horg : sub.val.organization = org := by simpa using Table.pos_of_first? hsub
            apply owned_saveCustomer h (Table.mem_of_first? hsub)
            rw [horg]
            exact hop customer hcreate
        · exact h

end Step

/-- **Billing events never cross tenants.** From a state in which every row records ids of its own
organization only, whatever sequence of events, creations, deletions and checkouts follows, that
stays so, and an event leaves the rows of every other organization as they were, whether its own
organization still has one or not. -/
theorem events_stay_with_owner (owners : Owners) {db : Db} (howned : Owned owners db)
    {ops : List TenancyOp} (hlawful : ∀ op ∈ ops, op.Lawful owners) :
    States TenancyOp.step (Owned owners) db ops ∧
      Each TenancyOp.step (fun db op => ∀ d org, op = .event d → d.event.CarriedBy owners org →
        rowsOfOthers (op.step db) org = rowsOfOthers db org) db ops := by
  have hstep : ∀ db op, Owned owners db → TenancyOp.Lawful owners op → Owned owners (op.step db) :=
    fun _ _ h hop => hop.owned h
  have hallowed : Each TenancyOp.step (fun _ op => op.Lawful owners) db ops :=
    each_of_mem hlawful db
  refine ⟨states_of_each hstep howned hallowed, ?_⟩
  apply (hallowed.and_invariant hstep howned).mono
  rintro db op ⟨-, h⟩ d org rfl hcarried
  exact hcarried.rowsOfOthers_deliver h

/-- Organization 1 buys a subscription and is deleted; its last event finds nothing. -/
theorem events_stay_with_owner_deleted :
    let owners : Owners := ⟨fun id => if id = "cus_1" then 1 else 2,
      fun id => if id = "sub_1" then 1 else 2⟩
    let ops := [.event (checkoutOf "evt_1" "sub_1"), .deleteOrganization 1,
      .createOrganization 1 "Beta" "beta" 20, .event (updateOf "evt_2" "sub_1" "active")]
    let db := { smallBilling with organizations := Table.empty.insert ⟨"Alpha", "alpha", none, 0⟩ }
    States TenancyOp.step (Owned owners) db ops := by
  intro owners ops db
  have hcarried : ∀ d, d = checkoutOf "evt_1" "sub_1" ∨ d = updateOf "evt_2" "sub_1" "active" →
      d.event.CarriedBy owners 1 := by
    rintro d (rfl | rfl)
    · exact ⟨by rintro id ⟨⟩; rfl, by rintro id ⟨⟩; rfl, by decide, .inr rfl⟩
    · exact ⟨by rintro id ⟨⟩; rfl, by rintro id ⟨⟩, by rintro - id ⟨⟩; rfl, .inr rfl⟩
  refine (@events_stay_with_owner owners db ?_ ops ?_).1
  · intro r hr
    obtain rfl := List.mem_singleton.mp hr
    exact ⟨fun hblank => absurd rfl hblank, fun hblank => absurd rfl hblank⟩
  · simp only [ops, List.mem_cons, List.not_mem_nil, or_false]
    rintro op (rfl | rfl | rfl | rfl)
    · exact ⟨1, hcarried _ (.inl rfl)⟩
    · trivial
    · trivial
    · exact ⟨1, hcarried _ (.inr rfl)⟩

end Bastiq
