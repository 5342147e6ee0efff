import Bastiq.Models

/-!
# The permission matrix

Who may manage which member, and the guard that keeps an organization from losing its last Owner.
-/

namespace Bastiq

open Relational

def managerRoles : List Role := [.owner, .admin]

/-- May an actor change or remove a membership that is at `target`? -/
def canManageMember (actor target : Role) : Bool :=
  managerRoles.contains actor && decide (target.rank ≤ actor.rank)

/-- May an actor grant `new`? Nothing above the actor's own rank. -/
def canAssignRole (actor new : Role) : Bool :=
  managerRoles.contains actor && decide (new.rank ≤ actor.rank)

/-- A row that makes its user an Owner of `org`. -/
def ownerOf (org : Nat) (m : Row Membership) : Bool :=
  m.val.organization == org && m.val.role == .owner

/-- `Membership.objects.filter(organization_id=org, role=Role.OWNER).count()`. -/
def ownerCount (db : Db) (org : Nat) : Nat := db.memberships.count (ownerOf org)

/-- Is this membership the only Owner of its organization? The role is the one the row had when it
was read, the count is taken now. -/
def isLastOwner (db : Db) (m : Row Membership) : Bool :=
  m.val.role == .owner && decide (ownerCount db m.val.organization ≤ 1)

theorem canManageMember_iff {actor target : Role} :
    canManageMember actor target = true ↔ actor ≠ .member ∧ target.rank ≤ actor.rank := by
  cases actor <;> cases target <;> decide

theorem canAssignRole_iff {actor new : Role} :
    canAssignRole actor new = true ↔ actor ≠ .member ∧ new.rank ≤ actor.rank := by
  cases actor <;> cases new <;> decide

end Bastiq
