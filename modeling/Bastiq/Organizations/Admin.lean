import Bastiq.Organizations.MemberRace

/-!
# Memberships in the admin and the shell

The admin reaches the table of memberships past the API: it edits a row through `full_clean` and
`save`, deletes an instance, submits the inline rows of an organization together, deletes a
selection in one statement, and deletes a user, whose memberships go along. Only `Membership.clean`
and `Membership.delete` ask about the last Owner.
-/

namespace Bastiq

open Relational

/-! ## `Membership` -/

/-- What a `ValidationError` says: there is nothing under a key, a constraint would be violated, or a
message of the model's own. -/
inductive ValidationError where
  | invalid
  | uniqUserOrg
  | message (text : String)
  deriving DecidableEq, Repr

/-- The errors, each under the field it is about. -/
abbrev ValidationErrors := List (String × ValidationError)

def nonFieldErrors : String := "__all__"

/-- The foreign keys of the instance name rows. -/
def cleanFields (db : Db) (m : Row Membership) : ValidationErrors :=
  (if (db.users.get? m.val.user).isNone then [("user", .invalid)] else []) ++
    if (db.organizations.get? m.val.organization).isNone then [("organization", .invalid)] else []

/-- `Membership.clean`. The role is compared with the row's; the Owners are counted in the
organization the instance has now. -/
def cleanMembership (db : Db) (m : Row Membership) : ValidationErrors :=
  match db.memberships.get? m.id with
  | none => []
  | some current =>
      if current.val.role == .owner && m.val.role != .owner && decide (orgOwnerCount db m ≤ 1) then
        [(nonFieldErrors, .message "Cannot demote the last owner of the organization.")]
      else []

/-- `validate_constraints`: another row has the user and the organization of the instance. -/
def constraintErrors (db : Db) (m : Row Membership) : ValidationErrors :=
  if db.memberships.any fun r => r.id != m.id && r.val.user == m.val.user &&
      r.val.organization == m.val.organization then
    [(nonFieldErrors, .uniqUserOrg)]
  else []

/-- `full_clean`. A constraint is not looked at where one of its fields has an error already. -/
def fullClean (db : Db) (m : Row Membership) : ValidationErrors :=
  let fieldErrors := cleanFields db m
  fieldErrors ++ cleanMembership db m ++
    if fieldErrors.isEmpty then constraintErrors db m else []

/-- `save`, of an instance whose row is there. -/
def saveInstance (db : Db) (m : Row Membership) : Db :=
  { db with memberships := db.memberships.modify m.id fun _ => m.val }

/-- `Membership.delete`. The guard asks about the instance, which may differ from its row. -/
def deleteInstance (db : Db) (m : Row Membership) : Except ValidationErrors Db :=
  if deleteRefused db m then
    .error [(nonFieldErrors, .message "Cannot remove the last owner of the organization.")]
  else .ok (writeMember db m none)

/-! ## Operations -/

/-- The row with the fields of an edit. -/
def Membership.edited (m : Row Membership) (user organization : Nat) (role : Role) :
    Row Membership :=
  ⟨m.id, { m.val with user := user, organization := organization, role := role }⟩

/-- A row is read, its fields are set, and the instance is cleaned and saved. -/
def editMembership (db : Db) (pk user organization : Nat) (role : Role) :
    Except ValidationErrors Db :=
  match db.memberships.get? pk with
  | none => .ok db
  | some current =>
      let m := Membership.edited current user organization role
      match fullClean db m with
      | [] => .ok (saveInstance db m)
      | errors => .error errors

/-- A form of `MembershipInline`: the key of its row, and what was filled in and ticked. -/
structure InlineForm where
  id     : Nat
  user   : Nat
  role   : Role
  delete : Bool
  deriving DecidableEq, Repr

/-- The forms of a submission. A row has one form. -/
structure InlineFormset where
  forms   : List InlineForm
  oneEach : (forms.map InlineForm.id).Nodup

/-- The form's instance: the row of the organization under its key, with what was filled in. Also a
form that deletes its row has set the fields. -/
def InlineForm.instance? (db : Db) (org : Nat) (f : InlineForm) : Option (Row Membership) :=
  ((db.memberships.get? f.id).filter fun m => m.val.organization == org).map fun m =>
    Membership.edited m f.user org f.role

/-- A row that leaves the form, and whether the form deletes it. -/
structure InlineEntry where
  delete : Bool
  row    : Row Membership

/-- The forms with their instances. A key under which the organization has no row has none. -/
def inlineEntries (db : Db) (org : Nat) (forms : List InlineForm) : List InlineEntry :=
  forms.filterMap fun f => (f.instance? db org).map (⟨f.delete, ·⟩)

def InlineForm.errors (db : Db) (org : Nat) (f : InlineForm) : ValidationErrors :=
  match f.instance? db org with
  | none => [("id", .invalid)]
  | some m => fullClean db m

/-- `formset.is_valid()`: the forms that delete are not asked, and no two of the others may name one
user. -/
def formsetErrors (db : Db) (org : Nat) (forms : List InlineForm) : ValidationErrors :=
  let kept := forms.filter fun f => !f.delete
  match kept.flatMap (InlineForm.errors db org) with
  | [] => if (kept.map InlineForm.user).Nodup then [] else [(nonFieldErrors, .uniqUserOrg)]
  | errors => errors

/-- `save_existing_objects`: one form after the other is deleted or saved. -/
def saveExisting (db : Db) : List InlineEntry → Except ValidationErrors Db
  | [] => .ok db
  | ⟨true, m⟩ :: rest => do
      let db ← deleteInstance db m
      saveExisting db rest
  | ⟨false, m⟩ :: rest => saveExisting (saveInstance db m) rest

/-- The change form of `OrganizationAdmin` with its inline rows. All forms are cleaned before the
first one is saved, and an exception of a later one takes back what the earlier ones did. -/
def submitInline (db : Db) (org : Nat) (formset : InlineFormset) : Except ValidationErrors Db :=
  if (db.organizations.get? org).isNone then .ok db
  else match formsetErrors db org formset.forms with
    | [] => saveExisting db (inlineEntries db org formset.forms)
    | errors => .error errors

/-- The action on a selection of memberships: `QuerySet.delete`. -/
def deleteSelected (db : Db) (pks : List Nat) : Db :=
  { db with memberships := db.memberships.delete fun m => pks.contains m.id }

/-- `user.delete()`: memberships go along, and what remembers who made it forgets. -/
def deleteUser (db : Db) (user : Nat) : Db :=
  if (db.users.get? user).isNone then db
  else { db with
    users := db.users.delete (·.id == user)
    memberships := db.memberships.delete (·.val.user == user)
    organizations := db.organizations.update (·.val.createdBy == some user) fun o =>
      { o with createdBy := none }
    invitations := db.invitations.update (·.val.invitedBy == some user) fun i =>
      { i with invitedBy := none }
    projects := db.projects.update (·.val.createdBy == some user) fun p =>
      { p with createdBy := none } }

/-- The operations of the admin and the shell on memberships. An instance that is deleted may have
been changed in memory. -/
inductive AdminOp where
  | edit (pk user organization : Nat) (role : Role)
  | delete (m : Row Membership)
  | submit (org : Nat) (formset : InlineFormset)
  | deleteSelected (pks : List Nat)
  | deleteUser (user : Nat)

def AdminOp.perform (db : Db) : AdminOp → Except ValidationErrors Db
  | .edit pk user organization role => editMembership db pk user organization role
  | .delete m => deleteInstance db m
  | .submit org formset => submitInline db org formset
  | .deleteSelected pks => .ok (Bastiq.deleteSelected db pks)
  | .deleteUser user => .ok (Bastiq.deleteUser db user)

/-- An operation that raises changes nothing. -/
def AdminOp.step (op : AdminOp) (db : Db) : Db :=
  match op.perform db with
  | .ok db' => db'
  | .error _ => db

end Bastiq
