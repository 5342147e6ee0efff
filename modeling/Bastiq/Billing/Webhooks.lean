import Bastiq.Billing.Signals

/-!
# Stripe webhooks

A verified event finds the subscription row it is about, decides what to write to it, and writes.
The three are kept apart here because other statements can run between them: `firstFound` and
`Handler.decide` are what a handler reads and decides, `Save` is the write.

Every failure in a handler is an exception that nothing catches below the view's transaction.
-/

namespace Bastiq

open Relational View

/-! ## Events -/

/-- `data.object` of an event, as far as the handlers read it. A `null` counts as absent. -/
structure StripeObject where
  id               : Option String := none
  customer         : Option String := none
  subscription     : Option String := none
  status           : Option String := none
  currentPeriodEnd : Option Int := none
  metadata         : Option (List (String × String)) := none
  items            : Option Json := none

/-- An event whose signature was verified. -/
structure StripeEvent where
  id     : String
  type   : Option String
  object : StripeObject := {}

/-- The text of an optional field, when it is there and not empty. -/
def nonBlank (text : Option String) : Option String := text.filter (· != "")

/-- `metadata.get(key)`, with the empty dictionary for absent metadata. -/
def StripeObject.metadataItem (obj : StripeObject) (key : String) : Option String :=
  List.lookup key (obj.metadata.getD [])

/-- `_org_id`. -/
def StripeObject.orgId (obj : StripeObject) : Option String := obj.metadataItem "organization_id"

/-- `obj["items"]["data"][0]["price"]["id"]`, when no subscript fails. -/
def StripeObject.priceId (obj : StripeObject) : Option Json := do
  let items ← obj.items
  let data ← items.item? "data"
  let first ← data.first?
  let price ← first.item? "price"
  price.item? "id"

/-- `_STATUS_MAP`. -/
def statusMap : List (String × SubscriptionStatus) :=
  [("active", .active), ("trialing", .active), ("past_due", .pastDue), ("unpaid", .pastDue),
   ("canceled", .canceled), ("incomplete", .incomplete), ("incomplete_expired", .canceled)]

/-- The status an event's status field stands for. -/
def StripeObject.mappedStatus (obj : StripeObject) : Option SubscriptionStatus :=
  obj.status.bind fun s => statusMap.lookup s

/-- `_ts_to_dt`: a time stamp of zero is none, one outside the years 1 to 9999 raises. -/
def tsToDt : Option Int → Except Failure (Option Int)
  | none => .ok none
  | some t =>
      if t == 0 then .ok none
      else if -62135596800 ≤ t && t ≤ 253402300799 then .ok (some t)
      else .error .valueError

/-! ## Queries -/

/-- `Plan.objects.filter(code=code, is_active=True).first()`. -/
def activePlan (db : Db) : Option String → Except Failure (Option (Row Plan))
  | none => .ok none
  | some code => do
      let code ← textParam code
      .ok (db.plans.first? fun p => p.val.code == code && p.val.isActive)

/-- The active plan sold at a price; what is no scalar spells no price. -/
def planAtPrice (db : Db) (price : Json) : Except Failure (Option (Row Plan)) :=
  match price.scalarText? with
  | none => .ok none
  | some text => do
      let text ← textParam text
      .ok (db.plans.first? fun p => p.val.stripePriceId == text && p.val.isActive)

/-- `_plan_for_price`. -/
def planForPrice (db : Db) : Option Json → Except Failure (Option (Row Plan))
  | none => .ok none
  | some price => if price.truthy then planAtPrice db price else .ok none

/-- `Subscription.objects.filter(organization_id=org_id).first()`. -/
def subscriptionNamed (db : Db) (orgId : String) : Except Failure (Option (Row Subscription)) :=
  match Python.int? orgId with
  | none => .error .valueError
  | some n => .ok (db.subscriptions.first? fun s => (s.val.organization : Int) == n)

/-- `Subscription.objects.filter(stripe_subscription_id=id).first()`. -/
def subscriptionWithId (db : Db) (id : String) : Except Failure (Option (Row Subscription)) := do
  let id ← textParam id
  .ok (db.subscriptions.first? (·.val.stripeSubscriptionId == id))

/-- `Subscription.objects.filter(stripe_customer_id=id).first()`. -/
def subscriptionOfCustomer (db : Db) (id : String) :
    Except Failure (Option (Row Subscription)) := do
  let id ← textParam id
  .ok (db.subscriptions.first? (·.val.stripeCustomerId == id))

/-- A query for one subscription row. -/
abbrev Lookup := Db → Except Failure (Option (Row Subscription))

/-- A query that runs only when its key is there and not empty. -/
def whenGiven (key : Option String)
    (query : Db → String → Except Failure (Option (Row Subscription))) :
    Lookup := fun db =>
  match nonBlank key with
  | none => .ok none
  | some k => query db k

/-- The queries of `_find_subscription`: by the organization in the metadata, by subscription id,
by customer id. -/
def lookups (obj : StripeObject) (subscriptionId customerId : Option String) : List Lookup :=
  [whenGiven obj.orgId subscriptionNamed, whenGiven subscriptionId subscriptionWithId,
   whenGiven customerId subscriptionOfCustomer]

/-- The row the first successful query finds; what follows it does not run. -/
def firstFound : List Lookup → Lookup
  | [], _ => .ok none
  | query :: queries, db => do
      match ← query db with
      | some sub => .ok (some sub)
      | none => firstFound queries db

/-- `_find_subscription`. -/
def findSubscription (db : Db) (obj : StripeObject) (subscriptionId customerId : Option String) :
    Except Failure (Option (Row Subscription)) :=
  firstFound (lookups obj subscriptionId customerId) db

/-! ## Handlers -/

/-- The write a handler ends with: `save()` writes every column of the instance in memory,
`save(update_fields=["status", "updated_at"])` only those two. -/
inductive Save where
  | whole (sub : Subscription)
  | onlyStatus (status : SubscriptionStatus)
  deriving DecidableEq, Repr

/-- What a `Save` at time `now` makes of the stored row. -/
def Save.apply (now : Int) : Save → Subscription → Subscription
  | .whole sub, _ => { sub with updatedAt := now }
  | .onlyStatus status, stored => { stored with status := status, updatedAt := now }

/-- The columns a `Save` writes hold what they are given. -/
def Save.fits : Save → Bool
  | .whole sub => Bastiq.fits 255 sub.stripeCustomerId && Bastiq.fits 255 sub.stripeSubscriptionId
  | .onlyStatus _ => true

/-- A webhook handler: the ids it looks its row up by, the plan it moves the row to, if any, and
the write it decides on for the row as it read it. -/
structure Handler where
  subscriptionId : StripeObject → Option String
  customerId     : StripeObject → Option String
  plan           : Db → StripeObject → Except Failure (Option (Row Plan))
  save           : StripeObject → (plan : Option Nat) → Subscription → Except Failure Save

def handleCheckoutCompleted : Handler where
  subscriptionId _ := none
  customerId obj := obj.customer
  plan db obj := activePlan db (obj.metadataItem "plan_code")
  save obj plan sub := .ok (.whole { sub with
    stripeCustomerId := (nonBlank obj.customer).getD sub.stripeCustomerId
    stripeSubscriptionId := (nonBlank obj.subscription).getD sub.stripeSubscriptionId
    plan := plan.getD sub.plan
    status := .active })

def handleSubscriptionUpdated : Handler where
  subscriptionId obj := obj.id
  customerId obj := obj.customer
  plan db obj := planForPrice db obj.priceId
  save obj plan sub := do
    let periodEnd ← tsToDt obj.currentPeriodEnd
    .ok (.whole { sub with
      stripeSubscriptionId := (nonBlank obj.id).getD sub.stripeSubscriptionId
      status := obj.mappedStatus.getD sub.status
      currentPeriodEnd := periodEnd.or sub.currentPeriodEnd
      plan := plan.getD sub.plan })

/-- The subscription id is cleared, the customer id stays. -/
def handleSubscriptionDeleted : Handler where
  subscriptionId obj := obj.id
  customerId obj := obj.customer
  plan db _ := .ok (freePlan db)
  save _ plan sub := .ok (.whole { sub with
    status := .canceled
    plan := plan.getD sub.plan
    stripeSubscriptionId := "" })

def handleInvoicePaymentFailed : Handler where
  subscriptionId obj := obj.subscription
  customerId obj := obj.customer
  plan _ _ := .ok none
  save _ _ _ := .ok (.onlyStatus .pastDue)

/-- `_HANDLERS`. -/
def handlers : List (String × Handler) :=
  [("checkout.session.completed", handleCheckoutCompleted),
   ("customer.subscription.updated", handleSubscriptionUpdated),
   ("customer.subscription.deleted", handleSubscriptionDeleted),
   ("invoice.payment_failed", handleInvoicePaymentFailed)]

/-- `_HANDLERS.get(event.get("type"))`. -/
def StripeEvent.handler (event : StripeEvent) : Option Handler :=
  event.type.bind fun t => handlers.lookup t

/-- The queries a handler looks its row up by. -/
def Handler.lookups (h : Handler) (obj : StripeObject) : List Lookup :=
  Bastiq.lookups obj (h.subscriptionId obj) (h.customerId obj)

/-- The row a handler finds. -/
def Handler.find (h : Handler) (obj : StripeObject) : Lookup := fun db =>
  findSubscription db obj (h.subscriptionId obj) (h.customerId obj)

/-- The write a handler decides on for the row it found. -/
def Handler.decide (h : Handler) (db : Db) (obj : StripeObject) (sub : Subscription) :
    Except Failure Save := do
  let plan ← h.plan db obj
  h.save obj (plan.map Row.id) sub

/-- The row an event is about. -/
def StripeEvent.find (db : Db) (event : StripeEvent) : Except Failure (Option (Row Subscription)) :=
  match event.handler with
  | none => .ok none
  | some h => h.find event.object db

/-- The plan an event moves its row to, if any. -/
def StripeEvent.namedPlan (db : Db) (event : StripeEvent) : Except Failure (Option (Row Plan)) :=
  match event.handler with
  | none => .ok none
  | some h => h.plan db event.object

/-- What an event has its handler do: the row it found and the write it decided on, if any. -/
def StripeEvent.decision (db : Db) (event : StripeEvent) :
    Except Failure (Option (Row Subscription × Save)) :=
  match event.handler with
  | none => .ok none
  | some h => do
      match ← h.find event.object db with
      | none => .ok none
      | some sub => do
          let save ← h.decide db event.object sub.val
          .ok (some (sub, save))

/-- The write itself. -/
def writeSave (db : Db) (id : Nat) (save : Save) (now : Int) : Except Failure Db :=
  if save.fits then
    .ok { db with subscriptions := db.subscriptions.modify id (save.apply now) }
  else .error .dataError

/-- `handle_event`. -/
def handleEvent (db : Db) (event : StripeEvent) (now : Int) : Except Failure Db := do
  match ← event.decision db with
  | none => .ok db
  | some (sub, save) => writeSave db sub.id save now

/-! ## The ledger and the view -/

/-- The ledger row of an event. -/
def ledgerRow (db : Db) (eventId : String) : Option (Row WebhookEvent) :=
  db.webhookEvents.first? (·.val.stripeEventId == eventId)

/-- The ledger row a first delivery inserts. -/
def StripeEvent.ledgerEntry (event : StripeEvent) (now : Int) : WebhookEvent :=
  ⟨event.id, event.type.getD "", now⟩

/-- The columns of the ledger hold the event's id and type. -/
def StripeEvent.recordable (event : StripeEvent) : Bool :=
  fits 255 event.id && fits 64 (event.type.getD "")

/-- `WebhookEvent.objects.create`. -/
def recordEvent (db : Db) (event : StripeEvent) (now : Int) : Except Failure Db :=
  if event.recordable then
    .ok { db with webhookEvents := db.webhookEvents.insert (event.ledgerEntry now) }
  else .error .dataError

/-- A verified delivery: the event, when it arrives, and a failure that may strike its handler from
outside (the database goes away, the process is killed). -/
structure Delivery where
  event : StripeEvent
  now   : Int
  fault : Option Failure := none

/-- `handle_event(event)` as this delivery runs it. -/
def Delivery.handle (d : Delivery) (db : Db) : Except Failure Db :=
  match d.fault with
  | some e => .error e
  | none => handleEvent db d.event d.now

/-- The transaction of a delivery that is not a duplicate: the ledger row and the handler. -/
def Delivery.process (d : Delivery) (db : Db) : Except Failure Db := do
  let db ← recordEvent db d.event d.now
  d.handle db

/-- **`WebhookView.post`**, once the signature is verified. A duplicate is acknowledged, and an
exception rolls the ledger row back with everything else. -/
def postWebhook (d : Delivery) (db : Db) : Response Empty × Db :=
  match textParam d.event.id with
  | .error _ => (serverError, db)
  | .ok id =>
      match ledgerRow db id with
      | some _ => (⟨200, .detail "Already processed."⟩, db)
      | none =>
          match d.process db with
          | .ok db => (⟨200, .detail "ok"⟩, db)
          | .error _ => (serverError, db)

/-! ## Customers -/

/-- `subscription.save(update_fields=["stripe_customer_id"])`. -/
def saveCustomer (db : Db) (id : Nat) (customer : String) : Db :=
  { db with subscriptions := db.subscriptions.modify id fun s =>
      { s with stripeCustomerId := customer } }

theorem subscriptionOf_saveCustomer (db : Db) (id : Nat) (customer : String) (org : Nat) :
    subscriptionOf (saveCustomer db id customer) org = (subscriptionOf db org).map
      (Table.setRow (·.id == id) fun s => { s with stripeCustomerId := customer }) := by
  refine Table.first?_update _ fun r _ => ?_
  unfold Table.setRow
  split <;> rfl

/-- `ensure_customer` on the row a checkout has read; `create` is what `stripe.Customer.create`
returns, or fails with. -/
def ensureCustomer (db : Db) (sub : Row Subscription) (create : Except Failure String) :
    Except Failure (String × Db) :=
  if sub.val.stripeCustomerId != "" then .ok (sub.val.stripeCustomerId, db)
  else do
    let customer ← create
    if fits 255 customer then .ok (customer, saveCustomer db sub.id customer)
    else .error .dataError

/-! ## What a delivery can leave behind -/

/-- The four handlers, by the event type that calls them. -/
theorem StripeEvent.handler_cases {event : StripeEvent} {h : Handler}
    (hh : event.handler = some h) :
    (event.type = some "checkout.session.completed" ∧ h = handleCheckoutCompleted) ∨
    (event.type = some "customer.subscription.updated" ∧ h = handleSubscriptionUpdated) ∨
    (event.type = some "customer.subscription.deleted" ∧ h = handleSubscriptionDeleted) ∨
    (event.type = some "invoice.payment_failed" ∧ h = handleInvoicePaymentFailed) := by
  obtain ⟨t, ht, hlookup⟩ := Option.bind_eq_some_iff.mp hh
  rw [ht]
  simp only [handlers, List.lookup_cons, List.lookup_nil] at hlookup
  split at hlookup
  · next h₁ => exact .inl ⟨by rw [eq_of_beq h₁], (Option.some.inj hlookup).symm⟩
  · split at hlookup
    · next h₁ => exact .inr (.inl ⟨by rw [eq_of_beq h₁], (Option.some.inj hlookup).symm⟩)
    · split at hlookup
      · next h₁ => exact .inr (.inr (.inl ⟨by rw [eq_of_beq h₁], (Option.some.inj hlookup).symm⟩))
      · split at hlookup
        · next h₁ =>
          exact .inr (.inr (.inr ⟨by rw [eq_of_beq h₁], (Option.some.inj hlookup).symm⟩))
        · cases hlookup

/-- What a decision was made of. -/
theorem StripeEvent.decision_eq_some {db : Db} {event : StripeEvent} {sub : Row Subscription}
    {save : Save} (h : event.decision db = .ok (some (sub, save))) :
    event.find db = .ok (some sub) ∧ ∃ plan, event.namedPlan db = .ok plan ∧
      ∃ hd, event.handler = some hd ∧ hd.save event.object (plan.map Row.id) sub.val = .ok save := by
  unfold StripeEvent.decision at h
  unfold StripeEvent.find StripeEvent.namedPlan
  cases hhd : event.handler with
  | none => rw [hhd] at h; cases h
  | some hd =>
      rw [hhd] at h
      obtain ⟨found, hfound, h⟩ := bind_eq_ok.mp h
      cases found with
      | none => cases h
      | some row =>
          obtain ⟨save', hdecide, h⟩ := bind_eq_ok.mp h
          obtain ⟨plan, hplan, hsave⟩ := bind_eq_ok.mp hdecide
          cases h
          exact ⟨hfound, plan, hplan, hd, rfl, hsave⟩

theorem StripeEvent.decision_eq_none {db : Db} {event : StripeEvent}
    (h : event.decision db = .ok none) : event.find db = .ok none := by
  unfold StripeEvent.decision at h
  unfold StripeEvent.find
  cases hhd : event.handler with
  | none => rfl
  | some hd =>
      rw [hhd] at h
      obtain ⟨found, hfound, h⟩ := bind_eq_ok.mp h
      cases found with
      | none => exact hfound
      | some row =>
          obtain ⟨_, -, h⟩ := bind_eq_ok.mp h
          cases h

/-- A lookup finds rows of the table. -/
theorem mem_of_firstFound {queries : List Lookup} {db : Db} {sub : Row Subscription}
    (hq : ∀ q ∈ queries, ∀ r, q db = .ok (some r) → r ∈ db.subscriptions.rows)
    (h : firstFound queries db = .ok (some sub)) : sub ∈ db.subscriptions.rows := by
  induction queries with
  | nil => cases h
  | cons q queries ih =>
      obtain ⟨found, hfound, h⟩ := bind_eq_ok.mp h
      cases found with
      | none => exact ih (fun q' hq' => hq q' (List.mem_cons_of_mem _ hq')) h
      | some row => cases h; exact hq q List.mem_cons_self _ hfound

theorem mem_of_lookup {db : Db} {obj : StripeObject} {subscriptionId customerId : Option String}
    {q : Lookup} (hq : q ∈ lookups obj subscriptionId customerId) {r : Row Subscription}
    (h : q db = .ok (some r)) : r ∈ db.subscriptions.rows := by
  have hmem : ∀ (key : Option String) (query : Db → String → Except Failure _),
      (∀ k, query db k = .ok (some r) → r ∈ db.subscriptions.rows) →
      whenGiven key query db = .ok (some r) → r ∈ db.subscriptions.rows := by
    intro key query hquery h
    unfold whenGiven at h
    split at h
    · cases h
    · exact hquery _ h
  simp only [lookups, List.mem_cons, List.not_mem_nil, or_false] at hq
  rcases hq with rfl | rfl | rfl
  · refine hmem _ _ (fun k hk => ?_) h
    unfold subscriptionNamed at hk
    split at hk
    · cases hk
    · exact Table.mem_of_first? (Except.ok.inj hk)
  · refine hmem _ _ (fun k hk => ?_) h
    obtain ⟨_, -, hk⟩ := bind_eq_ok.mp hk
    exact Table.mem_of_first? (Except.ok.inj hk)
  · refine hmem _ _ (fun k hk => ?_) h
    obtain ⟨_, -, hk⟩ := bind_eq_ok.mp hk
    exact Table.mem_of_first? (Except.ok.inj hk)

theorem StripeEvent.mem_of_find {event : StripeEvent} {db : Db} {sub : Row Subscription}
    (h : event.find db = .ok (some sub)) : sub ∈ db.subscriptions.rows := by
  unfold StripeEvent.find at h
  split at h
  · cases h
  · exact mem_of_firstFound (fun _ hq _ hr => mem_of_lookup hq hr) h

/-- **What a handler's write does to the row it read**: the organization stays, and the plan is the
one the event names, or stays. -/
theorem StripeEvent.decision_plan {event : StripeEvent} {db : Db} {sub : Row Subscription}
    {save : Save} (h : event.decision db = .ok (some (sub, save))) (now : Int) :
    ∃ plan, event.namedPlan db = .ok plan ∧
      (save.apply now sub.val).plan = (plan.map Row.id).getD sub.val.plan := by
  obtain ⟨-, plan, hplan, hd, hhd, hsave⟩ := decision_eq_some h
  refine ⟨plan, hplan, ?_⟩
  unfold StripeEvent.namedPlan at hplan
  rw [hhd] at hplan
  rcases handler_cases hhd with ⟨-, rfl⟩ | ⟨-, rfl⟩ | ⟨-, rfl⟩ | ⟨-, rfl⟩
  · cases hsave; rfl
  · obtain ⟨_, -, hsave⟩ := bind_eq_ok.mp hsave
    cases hsave; rfl
  · cases hsave; rfl
  · cases hsave; cases hplan; rfl

theorem StripeEvent.decision_organization {event : StripeEvent} {db : Db} {sub : Row Subscription}
    {save : Save} (h : event.decision db = .ok (some (sub, save))) (now : Int) :
    (save.apply now sub.val).organization = sub.val.organization := by
  obtain ⟨-, plan, -, hd, hhd, hsave⟩ := decision_eq_some h
  rcases handler_cases hhd with ⟨-, rfl⟩ | ⟨-, rfl⟩ | ⟨-, rfl⟩ | ⟨-, rfl⟩
  · cases hsave; rfl
  · obtain ⟨_, -, hsave⟩ := bind_eq_ok.mp hsave
    cases hsave; rfl
  · cases hsave; rfl
  · cases hsave; rfl

/-- The ledger plays no part in a decision. -/
theorem StripeEvent.decision_withLedger (event : StripeEvent) (db : Db) (w : Table WebhookEvent) :
    event.decision { db with webhookEvents := w } = event.decision db := by
  unfold StripeEvent.decision
  cases hhd : event.handler with
  | none => rfl
  | some hd => rcases handler_cases hhd with ⟨-, rfl⟩ | ⟨-, rfl⟩ | ⟨-, rfl⟩ | ⟨-, rfl⟩ <;> rfl

/-- The write a delivery decides on in a database, when nothing in its handler raises. -/
def Delivery.Decides (d : Delivery) (db : Db) (write : Option (Row Subscription × Save)) : Prop :=
  d.event.decision db = .ok write ∧ ∀ sub save, write = some (sub, save) → save.fits = true

/-- What a transaction leaves when it commits: the ledger row, and the write it decided on. -/
def Delivery.commit (d : Delivery) (write : Option (Row Subscription × Save)) (db : Db) : Db :=
  { db with
    webhookEvents := db.webhookEvents.insert (d.event.ledgerEntry d.now)
    subscriptions := match write with
      | none => db.subscriptions
      | some (sub, save) => db.subscriptions.modify sub.id (save.apply d.now) }

/-- **When a delivery's transaction commits, and what it leaves**: one ledger row more, and at most
one subscription row changed, as the handler decided. -/
theorem Delivery.process_eq_ok {d : Delivery} {db db' : Db} :
    d.process db = .ok db' ↔ d.event.recordable = true ∧ d.fault = none ∧
      ∃ write, d.Decides db write ∧ db' = d.commit write db := by
  unfold Delivery.process recordEvent
  cases d.event.recordable with
  | false => exact iff_of_false (fun h => nomatch h) (fun h => nomatch h.1)
  | true =>
      rw [if_pos rfl, ok_bind, Delivery.handle]
      cases d.fault with
      | some e => exact iff_of_false (fun h => nomatch h) (fun h => nomatch h.2.1)
      | none =>
          simp only [true_and, handleEvent, StripeEvent.decision_withLedger, bind_eq_ok]
          refine exists_congr fun write => ?_
          cases write with
          | none =>
              constructor
              · rintro ⟨hdecision, hdb⟩
                exact ⟨⟨hdecision, fun _ _ h => nomatch h⟩, (Except.ok.inj hdb).symm⟩
              · rintro ⟨⟨hdecision, -⟩, rfl⟩
                exact ⟨hdecision, rfl⟩
          | some w =>
              obtain ⟨sub, save⟩ := w
              simp only [writeSave]
              constructor
              · rintro ⟨hdecision, hdb⟩
                split at hdb
                · next hfits =>
                  refine ⟨⟨hdecision, ?_⟩, (Except.ok.inj hdb).symm⟩
                  rintro _ _ ⟨⟩
                  exact hfits
                · cases hdb
              · rintro ⟨⟨hdecision, hfits⟩, rfl⟩
                refine ⟨hdecision, ?_⟩
                rw [if_pos (hfits sub save rfl)]
                rfl

theorem Delivery.process_cases {d : Delivery} {db db' : Db} (h : d.process db = .ok db') :
    (d.event.decision db = .ok none ∧
        db' = { db with webhookEvents := db.webhookEvents.insert (d.event.ledgerEntry d.now) }) ∨
      ∃ sub save, d.event.decision db = .ok (some (sub, save)) ∧
        db' = { db with
          webhookEvents := db.webhookEvents.insert (d.event.ledgerEntry d.now)
          subscriptions := db.subscriptions.modify sub.id (save.apply d.now) } := by
  obtain ⟨-, -, write, ⟨hdecision, -⟩, rfl⟩ := process_eq_ok.mp h
  cases write with
  | none => exact .inl ⟨hdecision, rfl⟩
  | some w => exact .inr ⟨w.1, w.2, hdecision, rfl⟩

/-- What a delivery can leave behind: the database it found, or what its transaction made of it. -/
theorem postWebhook_cases (d : Delivery) (db : Db) :
    (postWebhook d db).2 = db ∨
      (ledgerRow db d.event.id = none ∧ d.process db = .ok (postWebhook d db).2) := by
  unfold postWebhook textParam
  split
  · exact .inl rfl
  · next id hid =>
    split at hid
    · cases hid
    · cases hid
      cases hledger : ledgerRow db d.event.id with
      | some _ => exact .inl rfl
      | none =>
          cases hprocess : d.process db with
          | ok db' => exact .inr ⟨rfl, rfl⟩
          | error e => exact .inl rfl

theorem textParam_of_recordable {event : StripeEvent} (h : event.recordable = true) :
    textParam event.id = .ok event.id := by
  simp only [StripeEvent.recordable, fits, Bool.and_eq_true, Bool.not_eq_true'] at h
  simp only [textParam, h.1.2, Bool.false_eq_true, if_false]

/-- A delivery that is no duplicate and whose transaction commits leaves what it made. -/
theorem postWebhook_of_process {d : Delivery} {db db' : Db}
    (hledger : ledgerRow db d.event.id = none) (h : d.process db = .ok db') :
    postWebhook d db = (⟨200, .detail "ok"⟩, db') := by
  obtain ⟨hrecordable, -⟩ := Delivery.process_eq_ok.mp h
  simp only [postWebhook, textParam_of_recordable hrecordable, hledger, h]

end Bastiq
