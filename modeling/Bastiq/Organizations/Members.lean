import Bastiq.Organizations.Views

/-!
# Member management

PATCH changes a member's role, DELETE removes a member. Both check the caller's rank against the
target's, PATCH checks it against the new role as well, and neither may leave an organization
without an Owner. This file has a request that runs alone.
-/

namespace Bastiq

open Relational View

def memberRole : ChoiceField Role := { choices := Role.choices }

/-- `MemberRoleSerializer.is_valid(raise_exception=True)`. -/
def validateMemberRole {β : Type} (data : RequestData) : View β Role := do
  let fields ← bodyFields data
  match memberRole.run (fields.lookup "role") with
  | .value role => .ok role
  | result => .error (invalid (result.named "role"))

/-- A membership row of `org` under the key `n`. -/
def memberRow (db : Db) (org : Nat) (n : Int) : Option (Row Membership) :=
  db.memberships.first? fun m => m.val.organization == org && (m.id : Int) == n

/-- Django's own `get_object_or_404`. Unlike the framework's it lets the `ValueError` of a key that
is no number escape. -/
def getMember {β : Type} (db : Db) (org : Nat) (pk : String) : View β (Row Membership) :=
  match Python.int? pk with
  | none => .error serverError
  | some n => orElse (memberRow db org n) (notFound "No Membership matches the given query.")

inductive MemberAction where
  | patch (data : RequestData)
  | delete

def cannotManageMessage : String := "You can't manage this member."

def cannotAssignMessage : String := "You can't assign a role higher than your own."

/-- `Membership._org_owner_count`, of an instance that may differ from its row. -/
def orgOwnerCount (db : Db) (m : Row Membership) : Nat := ownerCount db m.val.organization

/-- Does `Membership.delete` raise? -/
def deleteRefused (db : Db) (m : Row Membership) : Bool :=
  m.val.role == .owner && decide (orgOwnerCount db m ≤ 1)

/-- The model's guard asks what the endpoint's asks. -/
theorem deleteRefused_eq (db : Db) (m : Row Membership) : deleteRefused db m = isLastOwner db m :=
  rfl

/-- `Membership.delete`, whose `ValidationError` is Django's, not the framework's. -/
def deleteMembership {β : Type} (db : Db) (target : Row Membership) : View β Db := do
  require (!deleteRefused db target) serverError
  .ok { db with memberships := db.memberships.delete (·.id == target.id) }

/-- `target.save(update_fields=["role"])`. -/
def saveRole (db : Db) (target : Row Membership) (role : Role) : Db :=
  { db with memberships := db.memberships.modify target.id fun m => { m with role := role } }

/-- The role a PATCH on `target` asks for, once it is validated and may be assigned. -/
def patchRole {β : Type} (actor : Role) (data : RequestData) : View β Role := do
  let new ← validateMemberRole data
  require (canAssignRole actor new) (forbidden cannotAssignMessage)
  .ok new

/-- **`OrganizationViewSet.member`.** -/
def memberRequest (db : Db) (user : Nat) (pk memberPk : String) (a : MemberAction) :
    OrganizationView := do
  let (org, actor) ← getOrganization db user pk
  let target ← getMember db org.id memberPk
  require (canManageMember actor target.val.role) (forbidden cannotManageMessage)
  match a with
  | .delete =>
      require (!isLastOwner db target)
        (badRequest "Cannot remove the last owner of the organization.")
      let db ← deleteMembership db target
      .ok (⟨204, .empty⟩, db)
  | .patch data =>
      let new ← patchRole actor data
      require (!(target.val.role == .owner && new != .owner && isLastOwner db target))
        (badRequest "Cannot demote the last owner of the organization.")
      let saved : Row Membership := ⟨target.id, { target.val with role := new }⟩
      .ok (⟨200, .data (.membership (Membership.serialize db saved))⟩, saveRole db target new)

theorem memberRow_eq_some {db : Db} {org : Nat} {n : Int} {m : Row Membership}
    (h : memberRow db org n = some m) : m ∈ db.memberships.rows ∧ m.val.organization = org := by
  have hp := Table.pos_of_first? h
  simp only [Bool.and_eq_true, beq_iff_eq] at hp
  exact ⟨Table.mem_of_first? h, hp.1⟩

theorem getMember_eq_ok {β : Type} {db : Db} {org : Nat} {pk : String} {m : Row Membership}
    (h : getMember (β := β) db org pk = .ok m) :
    m ∈ db.memberships.rows ∧ m.val.organization = org := by
  unfold getMember at h
  split at h
  · cases h
  · exact memberRow_eq_some (orElse_eq_ok.mp h)

theorem patchRole_eq_ok {β : Type} {actor new : Role} {data : RequestData}
    (h : patchRole (β := β) actor data = .ok new) : canAssignRole actor new = true := by
  obtain ⟨role, -, h⟩ := bind_eq_ok.mp h
  obtain ⟨_, hassign, h⟩ := bind_eq_ok.mp h
  cases h
  exact require_eq_ok.mp hassign

/-- **What a member request can leave behind.** The target's row goes, or its role changes to one
the caller may assign; either way the caller may manage the target, and the target was not the last
Owner, unless it stays one. -/
theorem memberRequest_cases {db : Db} {user : Nat} {pk memberPk : String} {a : MemberAction}
    {r : Response OrganizationPayload} {db' : Db}
    (h : memberRequest db user pk memberPk a = .ok (r, db')) :
    ∃ actor target, target ∈ db.memberships.rows ∧
      (∃ m, membershipIn db user target.val.organization = some m ∧ m.val.role = actor) ∧
      canManageMember actor target.val.role = true ∧
      ((isLastOwner db target = false ∧
          db' = { db with memberships := db.memberships.delete (·.id == target.id) }) ∨
        ∃ new, canAssignRole actor new = true ∧
          (target.val.role = .owner → new ≠ .owner → isLastOwner db target = false) ∧
          db' = saveRole db target new) := by
  obtain ⟨⟨org, actor⟩, hget, h⟩ := bind_eq_ok.mp h
  obtain ⟨target, htarget, h⟩ := bind_eq_ok.mp h
  obtain ⟨_, hmanage, h⟩ := bind_eq_ok.mp h
  obtain ⟨-, hm⟩ := getOrganization_eq_ok hget
  obtain ⟨hmem, horg⟩ := getMember_eq_ok htarget
  refine ⟨actor, target, hmem, horg ▸ hm, require_eq_ok.mp hmanage, ?_⟩
  cases a with
  | delete =>
      obtain ⟨_, hlast, h⟩ := bind_eq_ok.mp h
      obtain ⟨out, hdelete, h⟩ := bind_eq_ok.mp h
      obtain ⟨_, -, hout⟩ := bind_eq_ok.mp hdelete
      cases h
      cases hout
      exact .inl ⟨by simpa using require_eq_ok.mp hlast, rfl⟩
  | patch data =>
      obtain ⟨new, hnew, h⟩ := bind_eq_ok.mp h
      obtain ⟨_, hlast, h⟩ := bind_eq_ok.mp h
      cases h
      refine .inr ⟨new, patchRole_eq_ok hnew, ?_, rfl⟩
      intro howner hne
      have hlast := require_eq_ok.mp hlast
      simpa [howner, hne] using hlast

end Bastiq
