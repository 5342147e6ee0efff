import Bastiq.Core.Views
import Bastiq.Core.Permissions
import Bastiq.Core.Rbac
import Bastiq.Billing.Signals

/-!
# Organizations

Creating, renaming and deleting organizations. A caller reaches an organization only through their
membership in it: for everybody else it is a 404.
-/

namespace Bastiq

open Relational View

/-! ## What the organization endpoints return -/

/-- What `OrganizationSerializer` renders; `role` is the caller's. -/
structure OrganizationData where
  id        : Nat
  name      : String
  slug      : String
  createdAt : Int
  role      : Role
  deriving DecidableEq, Repr

/-- What `MemberUserSerializer` renders. -/
structure MemberUserData where
  id       : Nat
  email    : String
  fullName : String
  deriving DecidableEq, Repr

/-- What `MembershipSerializer` renders. -/
structure MembershipData where
  id        : Nat
  user      : Option MemberUserData
  role      : Role
  createdAt : Int
  deriving DecidableEq, Repr

/-- What `InvitationSerializer` renders. The token is not among it. -/
structure InvitationData where
  id        : Nat
  email     : String
  role      : Role
  status    : InvitationStatus
  invitedBy : Option Nat
  createdAt : Int
  expiresAt : Int
  deriving DecidableEq, Repr

inductive OrganizationPayload where
  | organization (o : OrganizationData)
  | membership (m : MembershipData)
  | invitation (i : InvitationData)
  deriving DecidableEq, Repr

abbrev OrganizationView := View OrganizationPayload (Response OrganizationPayload × Db)

def Organization.serialize (o : Row Organization) (role : Role) : OrganizationData :=
  ⟨o.id, o.val.name, o.val.slug, o.val.createdAt, role⟩

def Membership.serialize (db : Db) (m : Row Membership) : MembershipData :=
  ⟨m.id, (db.users.get? m.val.user).map fun u => ⟨u.id, u.val.email, u.val.fullName⟩, m.val.role,
    m.val.createdAt⟩

def Invitation.serialize (i : Row Invitation) : InvitationData :=
  ⟨i.id, i.val.email, i.val.role, i.val.status, i.val.invitedBy, i.val.createdAt, i.val.expiresAt⟩

/-! ## Reaching an organization -/

/-- `OrganizationViewSet.get_queryset`: the organizations the caller is a member of. -/
def organizationsOf (db : Db) (user : Nat) : List (Row Organization) :=
  db.organizations.select fun o => (membershipIn db user o.id).isSome

/-- `get_object`: the organization and the caller's role in it, read by one query. -/
def getOrganization {β : Type} (db : Db) (user : Nat) (pk : String) :
    View β (Row Organization × Role) := do
  let org ← getObjectOr404 "Organization" (organizationsOf db user) pk
  let m ← orElse (membershipIn db user org.id) notFound
  .ok (org, m.val.role)

/-- What `get_object` finds: an organization that exists, and the role the caller has there. -/
theorem getOrganization_eq_ok {β : Type} {db : Db} {user : Nat} {pk : String}
    {org : Row Organization} {role : Role}
    (h : getOrganization (β := β) db user pk = .ok (org, role)) :
    org ∈ db.organizations.rows ∧
      ∃ m, membershipIn db user org.id = some m ∧ m.val.role = role := by
  obtain ⟨o, ho, hrest⟩ := bind_eq_ok.mp h
  obtain ⟨m, hm, heq⟩ := bind_eq_ok.mp hrest
  cases heq
  exact ⟨List.mem_of_mem_filter (getObjectOr404_eq_ok ho), m, orElse_eq_ok.mp hm, rfl⟩

/-! ## Validation -/

def organizationName : CharField := { maxLength := some 255 }

/-- `validate_name`: strip, and refuse what is blank then. -/
def validateName (value : String) : FieldResult String :=
  let value := Python.strip value
  if value == "" then .errors [.custom "This field may not be blank."] else .value value

/-- `OrganizationSerializer.is_valid(raise_exception=True)`: the validated name, if there is one.
Slug and role are read-only. -/
def validateOrganization {β : Type} (partially : Bool) (data : RequestData) :
    View β (Option String) := do
  let fields ← bodyFields data
  let name := (organizationName.run partially (fields.lookup "name")).andThen validateName
  match name.named "name" with
  | [] => .ok name.value?
  | es => .error (invalid es)

/-! ## Slugs and creation -/

/-- The probes of `_candidate_slug`: `slug`, then the base with a growing suffix, until one is
free. -/
def probeSlug (db : Db) (base : String) : (fuel suffix : Nat) → (slug : String) → String
  | 0, _, slug => slug
  | fuel + 1, suffix, slug =>
      if db.organizations.any (·.val.slug == slug) then
        probeSlug db base fuel (suffix + 1) (base ++ "-" ++ toString suffix)
      else slug

/-- `_candidate_slug`. There is one probe more than there are slugs to run into. -/
def candidateSlug (E : Env) (db : Db) (name : String) : String :=
  let base := if E.slugify name == "" then "org" else E.slugify name
  probeSlug db base (db.organizations.rows.length + 1) 2 base

/-- One attempt of `_create_org_with_owner`: organization, Free subscription and Owner membership
in one transaction. -/
def insertOrganization (db : Db) (user : Nat) (name slug : String) (now : Int) :
    Except Failure (Row Organization × Db) :=
  if !(fits 255 name && fits 255 slug) then .error .dataError
  else if db.organizations.any (·.val.slug == slug) then .error .integrityError
  else
    let org : Row Organization := ⟨db.organizations.nextId, name, slug, some user, now⟩
    let db := createFreeSubscription
      { db with organizations := db.organizations.insert org.val } org.id now
    .ok (org, { db with memberships := db.memberships.insert ⟨user, org.id, .owner, now⟩ })

/-- `_create_org_with_owner`, with the attempts it has left. -/
def createOrgWithOwner {β : Type} (E : Env) (db : Db) (user : Nat) (name : String) (now : Int) :
    (attempts : Nat) → View β (Row Organization × Db)
  | 0 => .error
      ⟨500, .detail "Could not allocate a unique organization slug; please retry."⟩
  | attempts + 1 =>
      match insertOrganization db user name (candidateSlug E db name) now with
      | .ok out => .ok out
      | .error .integrityError => createOrgWithOwner E db user name now attempts
      | .error _ => .error serverError

/-- The database an accepted creation leaves. -/
theorem insertOrganization_eq_ok {db db' : Db} {user : Nat} {name slug : String} {now : Int}
    {org : Row Organization} (h : insertOrganization db user name slug now = .ok (org, db')) :
    org = ⟨db.organizations.nextId, name, slug, some user, now⟩ ∧
    ∃ subs, db' = { db with
      organizations := db.organizations.insert org.val
      subscriptions := subs
      memberships := db.memberships.insert ⟨user, org.id, .owner, now⟩ } ∧
      subs = (createFreeSubscription
        { db with organizations := db.organizations.insert org.val } org.id now).subscriptions := by
  unfold insertOrganization at h
  split at h
  · cases h
  · split at h
    · cases h
    · cases h
      refine ⟨rfl, _, ?_, rfl⟩
      rw [createFreeSubscription_eq]

theorem createOrgWithOwner_eq_ok {β : Type} {E : Env} {db db' : Db} {user : Nat} {name : String}
    {now : Int} {attempts : Nat} {org : Row Organization}
    (h : createOrgWithOwner (β := β) E db user name now attempts = .ok (org, db')) :
    ∃ slug, insertOrganization db user name slug now = .ok (org, db') := by
  induction attempts with
  | zero => cases h
  | succ attempts ih =>
      unfold createOrgWithOwner at h
      split at h
      · next out hout => cases h; exact ⟨_, hout⟩
      · exact ih h
      · cases h

/-! ## Actions -/

inductive OrganizationAction where
  | create (data : RequestData)
  | partialUpdate (pk : String) (data : RequestData)
  | destroy (pk : String)

def createOrganization (E : Env) (db : Db) (user : Nat) (data : RequestData) (now : Int) :
    OrganizationView := do
  let name ← validateOrganization false data
  let (org, db) ← createOrgWithOwner E db user (name.getD "") now 6
  .ok (⟨201, .data (.organization (Organization.serialize org .owner))⟩, db)

/-- `update`, which only PATCH reaches. -/
def updateOrganization (db : Db) (user : Nat) (pk : String) (data : RequestData) :
    OrganizationView := do
  let (org, role) ← getOrganization db user pk
  require (managerRoles.contains role)
    (forbidden "Only an owner or admin can update the organization.")
  let name ← validateOrganization true data
  let saved : Organization := { org.val with name := name.getD org.val.name }
  .ok (⟨200, .data (.organization (Organization.serialize ⟨org.id, saved⟩ role))⟩,
    { db with organizations := db.organizations.modify org.id fun _ => saved })

/-- `org.delete()`: the rows that point to the organization go with it. -/
def deleteOrganization (db : Db) (org : Nat) : Db :=
  { db with
    organizations := db.organizations.delete (·.id == org)
    memberships := db.memberships.delete (·.val.organization == org)
    invitations := db.invitations.delete (·.val.organization == org)
    subscriptions := db.subscriptions.delete (·.val.organization == org)
    projects := db.projects.delete (·.val.organization == org) }

def destroyOrganization (db : Db) (user : Nat) (pk : String) : OrganizationView := do
  let (org, role) ← getOrganization db user pk
  require (role == .owner) (forbidden "Only an owner can delete the organization.")
  .ok (⟨204, .empty⟩, deleteOrganization db org.id)

/-- `OrganizationViewSet.create`, `.partial_update` and `.destroy`. -/
def organizationAction (E : Env) (db : Db) (user : Nat) (now : Int) :
    OrganizationAction → OrganizationView
  | .create data => createOrganization E db user data now
  | .partialUpdate pk data => updateOrganization db user pk data
  | .destroy pk => destroyOrganization db user pk

/-- **What an organization request can leave behind.** It creates an organization with its caller
as Owner, or saves one of which the caller is Owner or Admin, or deletes one of which the caller is
Owner. -/
theorem organizationAction_cases {E : Env} {db : Db} {user : Nat} {now : Int}
    {a : OrganizationAction} {r : Response OrganizationPayload} {db' : Db}
    (h : organizationAction E db user now a = .ok (r, db')) :
    (∃ name slug org, insertOrganization db user name slug now = .ok (org, db')) ∨
    (∃ org role saved, org ∈ db.organizations.rows ∧
      (∃ m, membershipIn db user org.id = some m ∧ m.val.role = role) ∧
      managerRoles.contains role = true ∧
      db' = { db with organizations := db.organizations.modify org.id fun _ => saved }) ∨
    (∃ org : Nat, (∃ m, membershipIn db user org = some m ∧ m.val.role = .owner) ∧
      db' = deleteOrganization db org) := by
  cases a with
  | create data =>
      obtain ⟨name, -, h⟩ := bind_eq_ok.mp h
      obtain ⟨⟨org, out⟩, hcreate, h⟩ := bind_eq_ok.mp h
      cases h
      obtain ⟨slug, hinsert⟩ := createOrgWithOwner_eq_ok hcreate
      exact .inl ⟨_, slug, org, hinsert⟩
  | partialUpdate pk data =>
      obtain ⟨⟨org, role⟩, hget, h⟩ := bind_eq_ok.mp h
      obtain ⟨_, hrole, h⟩ := bind_eq_ok.mp h
      obtain ⟨name, -, h⟩ := bind_eq_ok.mp h
      cases h
      obtain ⟨hmem, hm⟩ := getOrganization_eq_ok hget
      exact .inr (.inl ⟨org, role, _, hmem, hm, require_eq_ok.mp hrole, rfl⟩)
  | destroy pk =>
      obtain ⟨⟨org, role⟩, hget, h⟩ := bind_eq_ok.mp h
      obtain ⟨_, hrole, h⟩ := bind_eq_ok.mp h
      cases h
      obtain ⟨-, m, hm, hr⟩ := getOrganization_eq_ok hget
      have howner : role = .owner := by simpa using require_eq_ok.mp hrole
      exact .inr (.inr ⟨org.id, ⟨m, hm, hr.trans howner⟩, rfl⟩)

end Bastiq
