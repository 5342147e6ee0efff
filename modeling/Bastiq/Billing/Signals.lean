import Bastiq.Billing.Limits

/-!
# The Free subscription of a new organization
-/

namespace Bastiq

open Relational

/-- `Plan.objects.filter(code=FREE_PLAN_CODE).first()`. -/
def freePlan (db : Db) : Option (Row Plan) := db.plans.first? fun p => p.val.code == freePlanCode

/-- `create_free_subscription`, which runs when an organization row is inserted. -/
def createFreeSubscription (db : Db) (org : Nat) (now : Int) : Db :=
  match freePlan db, subscriptionOf db org with
  | some free, none =>
      let subscription : Subscription := { organization := org, plan := free.id, updatedAt := now }
      { db with subscriptions := db.subscriptions.insert subscription }
  | _, _ => db

theorem createFreeSubscription_eq (db : Db) (org : Nat) (now : Int) :
    createFreeSubscription db org now =
      { db with subscriptions := (createFreeSubscription db org now).subscriptions } := by
  unfold createFreeSubscription
  split
  · rfl
  · rfl

/-- Other organizations keep their subscription rows. -/
theorem subscriptionOf_createFreeSubscription (db : Db) {org other : Nat} (now : Int)
    (h : org ≠ other) :
    subscriptionOf (createFreeSubscription db org now) other = subscriptionOf db other := by
  unfold createFreeSubscription
  split
  · exact Table.first?_insert_of_neg _ (by simpa using h)
  · rfl

end Bastiq
