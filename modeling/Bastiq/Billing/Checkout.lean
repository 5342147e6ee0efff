import Bastiq.Core.Views
import Bastiq.Core.Permissions
import Bastiq.Billing.Webhooks

/-!
# Checkout

`CheckoutView`: an Owner buys a plan for the active organization. The organization gets a Stripe
customer if it has none, and that is saved before the session is asked for: a session that fails
leaves the customer behind.
-/

namespace Bastiq

open Relational View

/-- Stripe, as a checkout calls it. -/
structure StripeApi where
  /-- `STRIPE_SECRET_KEY` is set. -/
  configured : Bool := true
  /-- The id of a new customer, or how `stripe.Customer.create` fails. -/
  createCustomer : Except Failure String
  /-- The URL of a new session, or how `stripe.checkout.Session.create` fails. -/
  createSession : (customer price : String) → (organization : Nat) → (planCode : String) →
    Except Failure String

/-- `BillingNotConfigured`. -/
def billingNotConfigured {β : Type} : Response β :=
  ⟨503, .detail "Billing is not configured on this server."⟩

/-- `IsOrganizationOwner.message`. -/
def ownerOnlyMessage : String := "Only the organization owner can manage billing."

def planCodeField : CharField := {}

/-- `CheckoutSerializer.is_valid(raise_exception=True)`. -/
def validateCheckout {β : Type} (data : RequestData) : View β String := do
  let fields ← bodyFields data
  match planCodeField.run false (fields.lookup "plan_code") with
  | .value code => .ok code
  | result => .error (invalid (result.named "plan_code"))

/-- The plan a request asks for, if it can be bought. -/
def purchasablePlan {β : Type} (db : Db) (data : RequestData) : View β (Row Plan) := do
  let code ← validateCheckout data
  match activePlan db (some code) with
  | .error _ => .error serverError
  | .ok none => .error ⟨400, .fieldMessage "plan_code" "Unknown plan."⟩
  | .ok (some plan) =>
      require (plan.val.stripePriceId != "")
        ⟨400, .fieldMessage "plan_code" "This plan is not available for checkout."⟩
      .ok plan

/-- `create_checkout_session`, and the view's answer. -/
def sessionResponse (stripe : StripeApi) (customer : String) (org : Nat) (plan : Row Plan) :
    Response String :=
  if stripe.configured then
    match stripe.createSession customer plan.val.stripePriceId org plan.val.code with
    | .ok url => ⟨200, .data url⟩
    | .error _ => serverError
  else billingNotConfigured

/-- **`CheckoutView.post`** for an authenticated caller. -/
def checkout (db : Db) (user : Nat) (header : Option String) (data : RequestData)
    (stripe : StripeApi) : View String (Response String × Db) := do
  let membership ← orElse (isOrganizationMember db user header) (forbidden notAMemberMessage)
  require (membership.val.role == .owner) (forbidden ownerOnlyMessage)
  let plan ← purchasablePlan db data
  let org := membership.val.organization
  let sub ← orElse (subscriptionOf db org)
    (badRequest "Billing is not set up for this organization.")
  if sub.val.stripeCustomerId == "" && !stripe.configured then .error billingNotConfigured
  else
    match ensureCustomer db sub stripe.createCustomer with
    | .error _ => .error serverError
    | .ok (customer, db) => .ok (sessionResponse stripe customer org plan, db)

/-- What making sure of a customer can leave behind. -/
theorem ensureCustomer_cases {db db' : Db} {sub : Row Subscription}
    {create : Except Failure String} {customer : String}
    (h : ensureCustomer db sub create = .ok (customer, db')) :
    db' = db ∨ (sub.val.stripeCustomerId = "" ∧ create = .ok customer ∧
      db' = saveCustomer db sub.id customer) := by
  unfold ensureCustomer at h
  split at h
  · cases h; exact .inl rfl
  · next hblank =>
    obtain ⟨c, hcreate, h⟩ := bind_eq_ok.mp h
    split at h
    · cases h; exact .inr ⟨by simpa using hblank, hcreate, rfl⟩
    · cases h

/-- **What a checkout can leave behind**: a customer id in a row that had none. -/
theorem checkout_cases {db db' : Db} {user : Nat} {header : Option String} {data : RequestData}
    {stripe : StripeApi} {r : Response String}
    (h : checkout db user header data stripe = .ok (r, db')) :
    db' = db ∨ ∃ sub customer, subscriptionOf db sub.val.organization = some sub ∧
      sub.val.stripeCustomerId = "" ∧ stripe.createCustomer = .ok customer ∧
      db' = saveCustomer db sub.id customer := by
  obtain ⟨membership, -, h⟩ := bind_eq_ok.mp h
  obtain ⟨_, -, h⟩ := bind_eq_ok.mp h
  obtain ⟨plan, -, h⟩ := bind_eq_ok.mp h
  obtain ⟨sub, hsub, h⟩ := bind_eq_ok.mp h
  have hsub := orElse_eq_ok.mp hsub
  split at h
  · cases h
  · split at h
    · cases h
    · next customer db₁ hensure =>
      cases h
      rcases ensureCustomer_cases hensure with rfl | ⟨hblank, hcreate, hdb⟩
      · exact .inl rfl
      · have horg : sub.val.organization = membership.val.organization := by
          simpa using Table.pos_of_first? hsub
        exact .inr ⟨sub, customer, by rw [horg]; exact hsub, hblank, hcreate, hdb⟩

end Bastiq
