import Bastiq.Models
import Bastiq.Rest.Response

/-!
# Plan limits

The caps of a plan are checked when something is created. An organization without a subscription
falls back to the Free defaults.
-/

namespace Bastiq

open Relational View

/-- `PlanLimitExceeded(message)`. -/
def planLimitExceeded {β : Type} (message : String) : Response β := ⟨402, .detail message⟩

/-- The subscription row of an organization. -/
def subscriptionOf (db : Db) (org : Nat) : Option (Row Subscription) :=
  db.subscriptions.first? fun s => s.val.organization == org

/-- `_limit`: the organization's cap for `key`, `none` for unlimited. A subscription's plan row
always exists (the foreign key protects it). -/
def limit (db : Db) (org : Nat) (key : String) : Option Int :=
  match subscriptionOf db org with
  | none => defaultFreeLimits.get key
  | some s => match db.plans.get? s.val.plan with
      | none => defaultFreeLimits.get key
      | some p => p.val.limits.get key

/-- `Project.objects.filter(organization=organization).count()`. -/
def projectCount (db : Db) (org : Nat) : Nat :=
  db.projects.count fun p => p.val.organization == org

/-- `organization.memberships.count()`. -/
def memberCount (db : Db) (org : Nat) : Nat :=
  db.memberships.count fun m => m.val.organization == org

/-- A PENDING invitation of `org`. -/
def pendingFor (org : Nat) (i : Row Invitation) : Bool :=
  i.val.organization == org && i.val.status == .pending

/-- `organization.invitations.filter(status=InvitationStatus.PENDING).count()`. -/
def pendingCount (db : Db) (org : Nat) : Nat := db.invitations.count (pendingFor org)

/-- Is there room below a cap? -/
def below (n : Nat) (cap : Option Int) : Bool :=
  match cap with
  | none => true
  | some l => decide ((n : Int) < l)

/-- `check_can_create_project`. -/
def checkCanCreateProject {β : Type} (db : Db) (org : Nat) : View β Unit :=
  match limit db org "max_projects" with
  | none => .ok ()
  | some l => require (below (projectCount db org) (some l))
      (planLimitExceeded s!"Your plan allows at most {l} projects. Upgrade to create more.")

/-- `check_can_invite_member`: members and PENDING invitations share the seats. -/
def checkCanInviteMember {β : Type} (db : Db) (org : Nat) : View β Unit :=
  match limit db org "max_members" with
  | none => .ok ()
  | some l => require (below (memberCount db org + pendingCount db org) (some l))
      (planLimitExceeded s!"Your plan allows at most {l} members. Upgrade to add more.")

theorem below_of_le {n n' : Nat} {cap : Option Int} (hle : n' ≤ n) (h : below n cap = true) :
    below n' cap = true := by
  cases cap with
  | none => rfl
  | some l =>
      simp only [below, decide_eq_true_eq] at h ⊢
      omega

theorem checkCanInviteMember_eq_ok {β : Type} {db : Db} {org : Nat} {u : Unit} :
    checkCanInviteMember (β := β) db org = .ok u ↔
      below (memberCount db org + pendingCount db org) (limit db org "max_members") = true := by
  unfold checkCanInviteMember
  split
  · next h => simp [h, below]
  · next l h => rw [require_eq_ok, h]

end Bastiq
