import Bastiq.Billing.Checkout
import Bastiq.Billing.Endings
import Bastiq.Billing.Ownership

/-!
# A purchase

Stripe reports a purchase twice: the checkout session is completed, and the subscription it started
is updated. The first report finds the plan by the code in the session's metadata, the second by the
price in the subscription's items; both find the organization by the number in their metadata, which
`create_checkout_session` has written there as text.

Here the two meet. Whichever arrives first, the row ends up the same.
-/

namespace Bastiq

open Relational View

/-! ## Sessions -/

/-- What `stripe.checkout.Session.create` is given. -/
structure SessionRequest where
  customer             : String
  price                : String
  metadata             : List (String × String)
  /-- `subscription_data["metadata"]`. -/
  subscriptionMetadata : List (String × String)
  deriving DecidableEq

/-- `create_checkout_session`, up to the call of Stripe. -/
def createCheckoutSession (customer price : String) (org : Nat) (planCode : String) :
    SessionRequest where
  customer := customer
  price := price
  metadata := [("organization_id", toString org), ("plan_code", planCode)]
  subscriptionMetadata := [("organization_id", toString org)]

/-- Stripe's checkout sessions. Stripe keeps what a session was created with, and its events echo
that. -/
structure Sessions where
  create  : SessionRequest → Except Failure String
  /-- What the session at a URL was created with. -/
  request : String → SessionRequest
  echoes  : ∀ r url, create r = .ok url → request url = r

/-- Stripe as a checkout calls it, with these sessions. -/
def Sessions.api (sessions : Sessions) (configured : Bool) (createCustomer : Except Failure String) :
    StripeApi where
  configured := configured
  createCustomer := createCustomer
  createSession customer price org planCode :=
    sessions.create (createCheckoutSession customer price org planCode)

/-- The checkout is answered with the URL of a session for `org` and the plan `p`. -/
structure CreatesSession (db : Db) (user : Nat) (header : Option String) (data : RequestData)
    (stripe : StripeApi) (org : Nat) (p : Row Plan) (url : String) : Prop where
  organization : ∃ m, isOrganizationMember db user header = some m ∧ m.val.organization = org
  plan         : purchasablePlan (β := String) db data = .ok p
  created      : ∃ after, checkout db user header data stripe = .ok (⟨200, .data url⟩, after)

theorem CreatesSession.request_eq {db : Db} {user : Nat} {header : Option String}
    {data : RequestData} {sessions : Sessions} {configured : Bool}
    {createCustomer : Except Failure String} {org : Nat} {p : Row Plan} {url : String}
    (h : CreatesSession db user header data (sessions.api configured createCustomer) org p url) :
    ∃ customer, sessions.request url =
      createCheckoutSession customer p.val.stripePriceId org p.val.code := by
  obtain ⟨m, hm, rfl⟩ := h.organization
  obtain ⟨after, hcheckout⟩ := h.created
  obtain ⟨m', hm', hcheckout⟩ := bind_eq_ok.mp hcheckout
  obtain ⟨_, -, hcheckout⟩ := bind_eq_ok.mp hcheckout
  obtain ⟨p', hp', hcheckout⟩ := bind_eq_ok.mp hcheckout
  obtain ⟨sub, -, hcheckout⟩ := bind_eq_ok.mp hcheckout
  obtain rfl : m = m' := Option.some.inj (hm.symm.trans (orElse_eq_ok.mp hm'))
  obtain rfl : p = p' := Except.ok.inj (h.plan.symm.trans hp')
  split at hcheckout
  · cases hcheckout
  · split at hcheckout
    · cases hcheckout
    · next customer _ _ =>
      obtain ⟨hresponse, -⟩ := Prod.mk.inj (Except.ok.inj hcheckout)
      unfold sessionResponse at hresponse
      split at hresponse
      · split at hresponse
        · next url' hcreate =>
          cases hresponse
          exact ⟨customer, sessions.echoes _ _ hcreate⟩
        · cases hresponse
      · cases hresponse

/-- A plan that was found by a code has a code the database takes. -/
theorem textParam_of_purchasablePlan {β : Type} {db : Db} {data : RequestData} {p : Row Plan}
    (h : purchasablePlan (β := β) db data = .ok p) : textParam p.val.code = .ok p.val.code := by
  obtain ⟨code, -, h⟩ := bind_eq_ok.mp h
  split at h
  · cases h
  · cases h
  · next plan hplan =>
    obtain ⟨_, -, h⟩ := bind_eq_ok.mp h
    cases h
    obtain ⟨text, htext, hplan⟩ := bind_eq_ok.mp hplan
    have hcode := Table.pos_of_first? (Except.ok.inj hplan)
    simp only [Bool.and_eq_true, beq_iff_eq] at hcode
    have hsame : text = code := by
      unfold textParam at htext
      split at htext
      · cases htext
      · exact (Except.ok.inj htext).symm
    rw [hcode.1, hsame]
    rw [hsame] at htext
    exact htext

/-- The number of the organization is read back from its text: a header has spelled it. -/
theorem CreatesSession.int?_toString {db : Db} {user : Nat} {header : Option String}
    {data : RequestData} {stripe : StripeApi} {org : Nat} {p : Row Plan} {url : String}
    (h : CreatesSession db user header data stripe org p url) :
    Python.int? (toString org) = some (org : Int) := by
  obtain ⟨m, hm, rfl⟩ := h.organization
  unfold isOrganizationMember headerOrg at hm
  split at hm
  · cases hm
  · next n hn =>
    rw [← organization_of_membershipIn hm] at hn
    split at hn
    · cases hn
    · split at hn
      · cases hn
      · exact Python.int?_toString_of_int? hn

/-! ## The two reports -/

/-- An id as Stripe hands them out: not empty, of at most 255 characters, none of them a NUL. -/
def IsStripeId (id : String) : Prop := id ≠ "" ∧ fits 255 id = true

/-- The session is completed, by customer `c` and with subscription `s`. -/
structure SessionRequest.Completed (r : SessionRequest) (c s : String) (event : StripeEvent) :
    Prop where
  type         : event.type = some "checkout.session.completed"
  customer     : event.object.customer = some c
  subscription : event.object.subscription = some s
  metadata     : event.object.metadata = some r.metadata

/-- The subscription `s` of customer `c` is reported active, at the session's price. -/
structure SessionRequest.Updated (r : SessionRequest) (c s : String) (event : StripeEvent) :
    Prop where
  type     : event.type = some "customer.subscription.updated"
  id       : event.object.id = some s
  customer : event.object.customer = some c
  status   : event.object.mappedStatus = some .active
  price    : event.object.priceId = some (.str r.price)
  metadata : event.object.metadata = some r.subscriptionMetadata

/-- `Plan.code` is unique. -/
def UniqPlanCode (db : Db) : Prop :=
  ∀ p ∈ db.plans.rows, ∀ q ∈ db.plans.rows, p.val.code = q.val.code → p = q

/-- The organization has a row, whatever it says, and the plan is the one `_plan_for_price` returns
for the plan's own price. -/
structure Sold (db : Db) (org : Nat) (p : Row Plan) (sub : Row Subscription) : Prop where
  row    : subscriptionOf db org = some sub
  /-- The column holds what is stored in it. -/
  stored : fits 255 sub.val.stripeCustomerId = true
  codes  : UniqPlanCode db
  price  : planForPrice db (some (.str p.val.stripePriceId)) = .ok (some p)

/-- The row a purchase leaves, up to its `updated_at`. -/
def Subscription.bought (v : Subscription) (plan : Nat) (c s : String) (periodEnd : Option Int) :
    Subscription :=
  { v with
    plan := plan
    stripeCustomerId := c
    stripeSubscriptionId := s
    status := .active
    currentPeriodEnd := periodEnd.or v.currentPeriodEnd }

section Reports

variable {db : Db} {org : Nat} {p : Row Plan} {sub : Row Subscription} {c s customer price : String}
  {event : StripeEvent}

theorem nonBlank_some {text : String} (h : text ≠ "") : nonBlank (some text) = some text := by
  simp [nonBlank, Option.filter_some, h]

theorem toString_ne_blank (n : Nat) : toString n ≠ "" := by
  intro h
  have hdigits : (toString n).toList = [] := by rw [h]; rfl
  rw [Nat.toString_eq_repr, Nat.toList_repr] at hdigits
  exact Nat.toDigits_ne_nil hdigits

/-- An event that names the organization finds its row, whatever else it carries. -/
theorem find_of_orgId {obj : StripeObject} (hrow : subscriptionOf db org = some sub)
    (hobj : obj.orgId = some (toString org)) (horg : Python.int? (toString org) = some (org : Int))
    (subscriptionId customerId : Option String) :
    findSubscription db obj subscriptionId customerId = .ok (some sub) := by
  rw [findSubscription_eq_some]
  apply Or.inl
  rw [whenGiven_eq_some]
  refine ⟨toString org, ?_, ?_⟩
  · rw [hobj, nonBlank_some (toString_ne_blank org)]
  · rw [subscriptionNamed, horg, ← hrow, subscriptionOf_eq]

/-- The plan that is found by its price is an active one of the catalogue. -/
theorem Sold.active (h : Sold db org p sub) : p ∈ db.plans.rows ∧ p.val.isActive = true := by
  have hprice := h.price
  unfold planForPrice at hprice
  split at hprice
  · cases hprice
  · next value heq =>
    cases heq
    split at hprice
    · obtain ⟨text, -, hfirst⟩ := bind_eq_ok.mp hprice
      have hplan := Except.ok.inj hfirst
      have hpos := Table.pos_of_first? hplan
      simp only [Bool.and_eq_true, beq_iff_eq] at hpos
      exact ⟨Table.mem_of_first? hplan, hpos.2⟩
    · cases hprice

/-- **Found by its price, found by its code**: codes are unique. -/
theorem Sold.activePlan_eq (h : Sold db org p sub) (hcode : textParam p.val.code = .ok p.val.code) :
    activePlan db (some p.val.code) = .ok (some p) := by
  obtain ⟨hmem, hactive⟩ := h.active
  have hfirst : db.plans.first? (fun q => q.val.code == p.val.code && q.val.isActive) = some p := by
    cases hfound : db.plans.first? (fun q => q.val.code == p.val.code && q.val.isActive) with
    | none =>
        have hnone := Table.first?_eq_none_iff.mp hfound p hmem
        simp [hactive] at hnone
    | some q =>
        have hpos := Table.pos_of_first? hfound
        simp only [Bool.and_eq_true, beq_iff_eq] at hpos
        rw [h.codes q (Table.mem_of_first? hfound) p hmem hpos.1]
  simp only [activePlan, hcode, ok_bind, hfirst]

theorem Sold.decision_completed (h : Sold db org p sub)
    (hevent : (createCheckoutSession customer price org p.val.code).Completed c s event)
    (hcode : textParam p.val.code = .ok p.val.code)
    (horg : Python.int? (toString org) = some (org : Int)) (hc : c ≠ "") (hs : s ≠ "") :
    event.decision db = .ok (some (sub, .whole { sub.val with
      stripeCustomerId := c, stripeSubscriptionId := s, plan := p.id, status := .active })) := by
  have hobj : event.object.orgId = some (toString org) := by
    simp [StripeObject.orgId, StripeObject.metadataItem, hevent.metadata, createCheckoutSession]
  have hitem : event.object.metadataItem "plan_code" = some p.val.code := by
    rw [StripeObject.metadataItem, hevent.metadata]
    rfl
  have hfind : handleCheckoutCompleted.find event.object db = .ok (some sub) :=
    find_of_orgId h.row hobj horg _ _
  have hplan : handleCheckoutCompleted.plan db event.object = .ok (some p) := by
    show activePlan db (event.object.metadataItem "plan_code") = .ok (some p)
    rw [hitem, h.activePlan_eq hcode]
  have hhandler : event.handler = some handleCheckoutCompleted := by
    rw [StripeEvent.handler, hevent.type]
    rfl
  simp only [StripeEvent.decision, hhandler, hfind, ok_bind, Handler.decide, hplan]
  simp only [handleCheckoutCompleted, ok_bind, hevent.customer, hevent.subscription,
    nonBlank_some hc, nonBlank_some hs, Option.getD_some, Option.map_some]

theorem Sold.decision_updated (h : Sold db org p sub)
    (hevent : (createCheckoutSession customer p.val.stripePriceId org price).Updated c s event)
    (horg : Python.int? (toString org) = some (org : Int)) (hs : s ≠ "") :
    event.decision db = (do
      let periodEnd ← tsToDt event.object.currentPeriodEnd
      .ok (some (sub, .whole { sub.val with
        stripeSubscriptionId := s, plan := p.id, status := .active,
        currentPeriodEnd := periodEnd.or sub.val.currentPeriodEnd }))) := by
  have hobj : event.object.orgId = some (toString org) := by
    simp [StripeObject.orgId, StripeObject.metadataItem, hevent.metadata, createCheckoutSession]
  have hfind : handleSubscriptionUpdated.find event.object db = .ok (some sub) :=
    find_of_orgId h.row hobj horg _ _
  have hplan : handleSubscriptionUpdated.plan db event.object = .ok (some p) := by
    show planForPrice db event.object.priceId = .ok (some p)
    rw [hevent.price]
    exact h.price
  have hhandler : event.handler = some handleSubscriptionUpdated := by
    rw [StripeEvent.handler, hevent.type]
    rfl
  simp only [StripeEvent.decision, hhandler, hfind, ok_bind, Handler.decide, hplan]
  simp only [handleSubscriptionUpdated, hevent.id, hevent.status, nonBlank_some hs,
    Option.getD_some, Option.map_some]
  cases tsToDt event.object.currentPeriodEnd with
  | error e => rfl
  | ok periodEnd => rfl

end Reports

/-! ## Both orders -/

/-- One more delivery with a write to the row of `org`. -/
theorem Sold.deliver {db : Db} {org : Nat} {p : Row Plan} {sub : Row Subscription}
    {event : StripeEvent} {v : Subscription} (h : Sold db org p sub)
    (hid : IsStripeId event.id) (htype : fits 64 (event.type.getD "") = true)
    (hledger : ledgerRow db event.id = none)
    (hdecision : event.decision db = .ok (some (sub, .whole v)))
    (hcustomer : fits 255 v.stripeCustomerId = true)
    (hsubscription : fits 255 v.stripeSubscriptionId = true) (now : Int) :
    let d : Delivery := ⟨event, now, none⟩
    Sold (deliver d db) org p ⟨sub.id, { v with updatedAt := now }⟩ ∧
      rowsOfOthers (deliver d db) org = rowsOfOthers db org ∧
      ∀ id, id ≠ event.id → ledgerRow db id = none → ledgerRow (deliver d db) id = none := by
  intro d
  have hrecordable : event.recordable = true := by
    rw [StripeEvent.recordable, hid.2, htype]
    rfl
  have hdecides : d.Decides db (some (sub, .whole v)) := by
    refine ⟨hdecision, ?_⟩
    rintro _ _ ⟨⟩
    rw [Save.fits, hcustomer, hsubscription]
    rfl
  have hprocess : d.process db = .ok (d.commit (some (sub, .whole v)) db) :=
    Delivery.process_eq_ok.mpr ⟨hrecordable, rfl, _, hdecides, rfl⟩
  have hafter : Bastiq.deliver d db = d.commit (some (sub, .whole v)) db := by
    rw [Bastiq.deliver, postWebhook_of_process hledger hprocess]
  have hsub := Table.pos_of_first? h.row
  rw [beq_iff_eq] at hsub
  rw [hafter]
  refine ⟨⟨?_, hcustomer, h.codes, h.price⟩, ?_, ?_⟩
  · rcases d.row_after hprocess org with ⟨sub', save, hdecision', hrow', hrow⟩ | ⟨hnot, -⟩
    · cases hdecision.symm.trans hdecision'
      exact hrow
    · exact absurd ⟨sub, (StripeEvent.decision_eq_some hdecision).1, h.row⟩ hnot
  · rw [← hsub]
    exact rowsOfOthers_modify (Table.mem_of_first? h.row)
      (StripeEvent.decision_organization hdecision now)
  · intro id hne hnone
    rw [ledgerRow, Delivery.commit]
    simp only
    rw [Table.first?_insert_of_neg]
    · exact hnone
    · simpa [StripeEvent.ledgerEntry] using Ne.symm hne

/-- An event whose handler raises leaves the database as it was. -/
theorem deliver_of_decision_error {db : Db} {event : StripeEvent} {e : Failure}
    (h : event.decision db = .error e) (now : Int) : deliver ⟨event, now, none⟩ db = db := by
  apply deliver_of_not_processed
  rintro ⟨-, db', hprocess⟩
  obtain ⟨-, -, write, ⟨hdecision, -⟩, -⟩ := Delivery.process_eq_ok.mp hprocess
  rw [h] at hdecision
  cases hdecision

/-- **The two reports of a purchase agree, in either order.** A checkout has created a session for
an organization and a plan, and Stripe echoes the metadata it was given. Whatever the organization's
row says when the reports arrive, and whichever comes first, it ends up as the row of the bought
plan, active, with the customer and the subscription of the purchase, and with the same values in
both orders, its `updated_at` apart. An update with a time stamp that no `datetime` holds raises, and
the row is as the session's report leaves it. The rows of other organizations are as they were. -/
theorem purchase_reports_commute {db₀ db : Db} {user org : Nat} {header : Option String}
    {data : RequestData} {sessions : Sessions} {configured : Bool}
    {createCustomer : Except Failure String} {p : Row Plan} {url : String}
    (hsession : CreatesSession db₀ user header data (sessions.api configured createCustomer) org p
      url) {sub : Row Subscription} (hsold : Sold db org p sub) {c s : String} (hc : IsStripeId c)
    (hs : IsStripeId s) {completed updated : StripeEvent}
    (hcompleted : (sessions.request url).Completed c s completed)
    (hupdated : (sessions.request url).Updated c s updated) (hid₁ : IsStripeId completed.id)
    (hid₂ : IsStripeId updated.id) (hids : completed.id ≠ updated.id)
    (hnew₁ : ledgerRow db completed.id = none) (hnew₂ : ledgerRow db updated.id = none)
    (t₁ t₂ t₁' t₂' : Int) :
    let completedFirst := deliver ⟨updated, t₂, none⟩ (deliver ⟨completed, t₁, none⟩ db)
    let updatedFirst := deliver ⟨completed, t₁', none⟩ (deliver ⟨updated, t₂', none⟩ db)
    let last := if (tsToDt updated.object.currentPeriodEnd).isOk then t₂ else t₁
    ∃ v : Subscription, v.plan = p.id ∧ v.status = .active ∧ v.stripeCustomerId = c ∧
      v.stripeSubscriptionId = s ∧
      subscriptionOf completedFirst org = some ⟨sub.id, { v with updatedAt := last }⟩ ∧
      subscriptionOf updatedFirst org = some ⟨sub.id, { v with updatedAt := t₁' }⟩ ∧
      rowsOfOthers completedFirst org = rowsOfOthers db org ∧
      rowsOfOthers updatedFirst org = rowsOfOthers db org := by
  intro completedFirst updatedFirst last
  obtain ⟨customer, hrequest⟩ := hsession.request_eq
  have hcode := textParam_of_purchasablePlan hsession.plan
  have horg := hsession.int?_toString
  rw [hrequest] at hcompleted hupdated
  have htype₁ : fits 64 (completed.type.getD "") = true := by
    rw [hcompleted.type]
    decide
  have htype₂ : fits 64 (updated.type.getD "") = true := by
    rw [hupdated.type]
    decide
  -- the completed session first
  obtain ⟨hsold₁, hothers₁, hledger₁⟩ := hsold.deliver hid₁ htype₁ hnew₁
    (hsold.decision_completed hcompleted hcode horg hc.1 hs.1) hc.2 hs.2 t₁
  have hafter := hsold₁.decision_updated hupdated horg hs.1
  have hbefore := hsold.decision_updated hupdated horg hs.1
  cases htime : tsToDt updated.object.currentPeriodEnd with
  | error e =>
      rw [htime] at hafter hbefore
      have hlast : last = t₁ := by simp [last, htime, Except.isOk, Except.toBool]
      have hfirst : completedFirst = deliver ⟨completed, t₁, none⟩ db :=
        deliver_of_decision_error hafter t₂
      have hsecond : updatedFirst = deliver ⟨completed, t₁', none⟩ db :=
        congrArg (deliver _) (deliver_of_decision_error hbefore t₂')
      obtain ⟨hsold₁', hothers₁', -⟩ := hsold.deliver hid₁ htype₁ hnew₁
        (hsold.decision_completed hcompleted hcode horg hc.1 hs.1) hc.2 hs.2 t₁'
      rw [hfirst, hsecond, hlast]
      exact ⟨sub.val.bought p.id c s none, rfl, rfl, rfl, rfl, hsold₁.row, hsold₁'.row, hothers₁,
        hothers₁'⟩
  | ok periodEnd =>
      rw [htime] at hafter hbefore
      have hlast : last = t₂ := by simp [last, htime, Except.isOk, Except.toBool]
      obtain ⟨hsold₂, hothers₂, -⟩ := hsold₁.deliver hid₂ htype₂ (hledger₁ _ (Ne.symm hids) hnew₂)
        hafter hc.2 hs.2 t₂
      -- the updated subscription first: the customer stays what it was until the session's report
      obtain ⟨hsold₁', hothers₁', hledger₁'⟩ := hsold.deliver hid₂ htype₂ hnew₂ hbefore hsold.stored
        hs.2 t₂'
      obtain ⟨hsold₂', hothers₂', -⟩ := hsold₁'.deliver hid₁ htype₁ (hledger₁' _ hids hnew₁)
        (hsold₁'.decision_completed hcompleted hcode horg hc.1 hs.1) hc.2 hs.2 t₁'
      rw [hlast]
      exact ⟨sub.val.bought p.id c s periodEnd, rfl, rfl, rfl, rfl, hsold₂.row, hsold₂'.row,
        hothers₂.trans hothers₁, hothers₂'.trans hothers₁'⟩

/-- Stripe with one session, which customer `cus_1` of organization 1 gets for plan Pro. -/
def oneSession : Sessions where
  create r :=
    if r = createCheckoutSession "cus_1" "price_pro" 1 "pro" then .ok "/pay/1" else .error .other
  request _ := createCheckoutSession "cus_1" "price_pro" 1 "pro"
  echoes r url h := by
    split at h
    · next heq => exact heq.symm
    · cases h

theorem purchase_reports_commute_pro :
    let db : Db := { smallBilling with memberships := Table.empty.insert ⟨1, 1, .owner, 0⟩ }
    let completed := (checkoutOf "evt_1" "sub_1").event
    let updated := (updateOf "evt_2" "sub_1" "active").event
    ∃ v : Subscription, v.plan = 2 ∧
      subscriptionOf (deliver ⟨updated, 20, none⟩ (deliver ⟨completed, 10, none⟩ db)) 1 =
        some ⟨1, { v with updatedAt := 20 }⟩ ∧
      subscriptionOf (deliver ⟨completed, 40, none⟩ (deliver ⟨updated, 30, none⟩ db)) 1 =
        some ⟨1, { v with updatedAt := 40 }⟩ := by
  intro db completed updated
  have hsession : CreatesSession db 1 (some "1") (.json (.obj [("plan_code", .str "pro")]))
      (oneSession.api true (.ok "cus_1")) 1
      ⟨2, "pro", "Pro", "price_pro", [("max_projects", some 25), ("max_members", some 10)], true⟩
      "/pay/1" :=
    ⟨⟨⟨1, 1, 1, .owner, 0⟩, by decide, rfl⟩, rfl, _, rfl⟩
  have hsold : Sold db 1
      ⟨2, "pro", "Pro", "price_pro", [("max_projects", some 25), ("max_members", some 10)], true⟩
      ⟨1, { organization := 1, plan := 1, updatedAt := 0 }⟩ :=
    ⟨by decide, by decide, by unfold UniqPlanCode; decide, rfl⟩
  have hcompleted : (oneSession.request "/pay/1").Completed "cus_1" "sub_1" completed :=
    ⟨rfl, rfl, rfl, rfl⟩
  have hupdated : (oneSession.request "/pay/1").Updated "cus_1" "sub_1" updated :=
    ⟨rfl, rfl, rfl, rfl, rfl, rfl⟩
  obtain ⟨v, hplan, -, -, -, hfirst, hsecond, -⟩ := purchase_reports_commute hsession hsold
    (c := "cus_1") (s := "sub_1") ⟨by decide, by decide⟩ ⟨by decide, by decide⟩ hcompleted hupdated
    ⟨by decide, by decide⟩ ⟨by decide, by decide⟩ (by decide) (by decide) (by decide) 10 20 40 30
  exact ⟨v, hplan, hfirst, hsecond⟩

end Bastiq
