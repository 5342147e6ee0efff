import Mathlib.Data.List.Sort
import Bastiq.Core.Views
import Bastiq.Core.Permissions
import Bastiq.Billing.Limits

/-!
# The project endpoints

CRUD on the projects of the active organization. Every action goes through the same gate
(`isOrganizationMember`), reads rows only from the organization's queryset, and on creation stamps
the organization the gate resolved.
-/

namespace Bastiq

open Relational View

/-! ## Serializer -/

/-- What `ProjectSerializer` renders of a row. The organization is not among it. -/
structure ProjectData where
  id          : Nat
  name        : String
  description : String
  createdBy   : Option Nat
  createdAt   : Int
  deriving DecidableEq

def Project.serialize (p : Row Project) : ProjectData :=
  ⟨p.id, p.val.name, p.val.description, p.val.createdBy, p.val.createdAt⟩

/-- What the project endpoints return. -/
inductive ProjectPayload where
  | project (p : ProjectData)
  | page (p : Page ProjectData)
  | projects (ps : List ProjectData)

/-- The writable fields of a request that passed validation; a skipped field is `none`. -/
structure ProjectFields where
  name        : Option String
  description : Option String

def projectName : CharField := { maxLength := some 255 }

def projectDescription : CharField :=
  { required := false, allowBlank := true, maxLength := some 5000 }

/-- `ProjectSerializer.is_valid(raise_exception=True)`. Organization and creator are not fields of
it, so whatever the body says about them is dropped here. -/
def validateProject {β : Type} (partially : Bool) (data : RequestData) : View β ProjectFields := do
  let fields ← bodyFields data
  let name := projectName.run partially (fields.lookup "name")
  let description := projectDescription.run partially (fields.lookup "description")
  match name.named "name" ++ description.named "description" with
  | [] => .ok ⟨name.value?, description.value?⟩
  | es => .error (invalid es)

/-! ## Querysets and permissions -/

/-- A project of `org`. -/
def inOrg (org : Nat) (p : Row Project) : Bool := p.val.organization == org

/-- `TenantScopedViewSet.get_queryset`. -/
def projectsOf (db : Db) (org : Nat) : List (Row Project) := db.projects.select (inOrg org)

/-- `ORDER BY created_at DESC`. -/
def newestFirst (E : Env) (rows : List (Row Project)) : List (Row Project) :=
  (E.scan rows).insertionSort fun a b => b.val.createdAt ≤ a.val.createdAt

/-- `CanWriteProject.has_object_permission` for an unsafe method. -/
def canWriteProject (membership : Row Membership) (user : Nat) (p : Row Project) : Bool :=
  membership.val.role == .owner || membership.val.role == .admin || p.val.createdBy == some user

def cannotWriteMessage : String :=
  "Only an organization owner/admin or the project's creator can modify it."

/-! ## Actions -/

/-- A request to `ProjectViewSet`. -/
structure ProjectRequest where
  user   : Option Nat
  header : Option String
  query  : List (String × String)
  data   : RequestData

inductive ProjectAction where
  | list
  | create
  | retrieve (pk : String)
  | update (pk : String)
  | partialUpdate (pk : String)
  | destroy (pk : String)

/-- The key in the path of a request about one project. -/
def ProjectAction.pk? : ProjectAction → Option String
  | .list => none
  | .create => none
  | .retrieve pk => some pk
  | .update pk => some pk
  | .partialUpdate pk => some pk
  | .destroy pk => some pk

/-- The same action with another key in its path. -/
def ProjectAction.withPk (pk : String) : ProjectAction → ProjectAction
  | .list => .list
  | .create => .create
  | .retrieve _ => .retrieve pk
  | .update _ => .update pk
  | .partialUpdate _ => .partialUpdate pk
  | .destroy _ => .destroy pk

abbrev ProjectView := View ProjectPayload (Response ProjectPayload × Db)

def listProjects (E : Env) (db : Db) (org : Nat) (query : List (String × String)) :
    ProjectView := do
  let rows := newestFirst E (projectsOf db org)
  match ← paginate E.pageSize query rows with
  | some page =>
      .ok (⟨200, .data (.page { page with results := page.results.map Project.serialize })⟩, db)
  | none => .ok (⟨200, .data (.projects (rows.map Project.serialize))⟩, db)

/-- `perform_create`. The billing row is locked around the check and the insert; a request that
runs alone does not see the lock. -/
def createProject (db : Db) (org user : Nat) (data : RequestData) (now : Int) : ProjectView := do
  let fields ← validateProject false data
  checkCanCreateProject db org
  let project : Project :=
    { organization := org, name := fields.name.getD "", description := fields.description.getD "",
      createdBy := some user, createdAt := now }
  .ok (⟨201, .data (.project (Project.serialize ⟨db.projects.nextId, project⟩))⟩,
    { db with projects := db.projects.insert project })

def retrieveProject (db : Db) (org : Nat) (pk : String) : ProjectView := do
  let p ← getObjectOr404 "Project" (projectsOf db org) pk
  .ok (⟨200, .data (.project (Project.serialize p))⟩, db)

/-- The object a write request is about, once its permission is checked. -/
def writableProject {β : Type} (db : Db) (membership : Row Membership) (user : Nat) (pk : String) :
    View β (Row Project) := do
  let p ← getObjectOr404 "Project" (projectsOf db membership.val.organization) pk
  require (canWriteProject membership user p) (forbidden cannotWriteMessage)
  .ok p

/-- `update` and `partial_update`: the instance is saved whole. -/
def updateProject (db : Db) (membership : Row Membership) (user : Nat) (pk : String)
    (partially : Bool) (data : RequestData) : ProjectView := do
  let p ← writableProject db membership user pk
  let fields ← validateProject partially data
  let project : Project :=
    { p.val with
      name := fields.name.getD p.val.name
      description := fields.description.getD p.val.description }
  .ok (⟨200, .data (.project (Project.serialize ⟨p.id, project⟩))⟩,
    { db with projects := db.projects.modify p.id fun _ => project })

def destroyProject (db : Db) (membership : Row Membership) (user : Nat) (pk : String) :
    ProjectView := do
  let p ← writableProject db membership user pk
  .ok (⟨204, .empty⟩, { db with projects := db.projects.delete (·.id == p.id) })

/-- The action itself, once the gate has resolved the membership. -/
def projectAction (E : Env) (db : Db) (membership : Row Membership) (user : Nat)
    (req : ProjectRequest) (now : Int) : ProjectAction → ProjectView
  | .list => listProjects E db membership.val.organization req.query
  | .create => createProject db membership.val.organization user req.data now
  | .retrieve pk => retrieveProject db membership.val.organization pk
  | .update pk => updateProject db membership user pk false req.data
  | .partialUpdate pk => updateProject db membership user pk true req.data
  | .destroy pk => destroyProject db membership user pk

/-- A request up to its outcome: negotiation, authentication, the gate, and then the action. -/
def projectView (E : Env) (req : ProjectRequest) (action : ProjectAction) (now : Int) (db : Db) :
    ProjectView := do
  checkFormat req.query
  let user ← orElse req.user unauthenticated
  let membership ← orElse (isOrganizationMember db user req.header) (forbidden notAMemberMessage)
  projectAction E db membership user req now action

/-- `ProjectViewSet`. -/
def projectViewSet (E : Env) (req : ProjectRequest) (action : ProjectAction) (now : Int) (db : Db) :
    Response ProjectPayload × Db :=
  perform db (projectView E req action now db)

/-! ## What a project request can leave behind -/

theorem writableProject_eq_ok {β : Type} {db : Db} {m : Row Membership} {user : Nat} {pk : String}
    {p : Row Project} (h : writableProject (β := β) db m user pk = .ok p) :
    p ∈ db.projects.rows ∧ p.val.organization = m.val.organization ∧
      canWriteProject m user p = true := by
  obtain ⟨q, hq, h⟩ := bind_eq_ok.mp h
  obtain ⟨_, hwrite, h⟩ := bind_eq_ok.mp h
  cases h
  obtain ⟨hmem, horg⟩ := List.mem_filter.mp (getObjectOr404_eq_ok hq)
  exact ⟨hmem, by simpa [inOrg] using horg, require_eq_ok.mp hwrite⟩

/-- A save keeps the organization and the creator of a project. -/
theorem updateProject_eq_ok {db db' : Db} {m : Row Membership} {user : Nat} {pk : String}
    {partially : Bool} {data : RequestData} {r : Response ProjectPayload}
    (h : updateProject db m user pk partially data = .ok (r, db')) :
    ∃ p ∈ db.projects.rows, p.val.organization = m.val.organization ∧
      canWriteProject m user p = true ∧ ∃ name description, db' = { db with
        projects := db.projects.modify p.id fun _ =>
          { p.val with name := name, description := description } } := by
  obtain ⟨p, hp, h⟩ := bind_eq_ok.mp h
  obtain ⟨fields, -, h⟩ := bind_eq_ok.mp h
  cases h
  obtain ⟨hmem, horg, hwrite⟩ := writableProject_eq_ok hp
  exact ⟨p, hmem, horg, hwrite, _, _, rfl⟩

/-- **What a project request can leave behind**: a new project of the active organization, or one of
its projects saved or deleted by a caller who may write it. -/
theorem projectView_cases {E : Env} {req : ProjectRequest} {action : ProjectAction} {now : Int}
    {db db' : Db} {r : Response ProjectPayload}
    (h : projectView E req action now db = .ok (r, db')) :
    db' = db ∨ ∃ user m, req.user = some user ∧
      isOrganizationMember db user req.header = some m ∧
      ((∃ p : Project, p.organization = m.val.organization ∧ p.createdBy = some user ∧
          db' = { db with projects := db.projects.insert p }) ∨
        ∃ p ∈ db.projects.rows, p.val.organization = m.val.organization ∧
          canWriteProject m user p = true ∧
          ((∃ name description, db' = { db with
              projects := db.projects.modify p.id fun _ =>
                { p.val with name := name, description := description } }) ∨
            db' = { db with projects := db.projects.delete (·.id == p.id) })) := by
  obtain ⟨_, -, h⟩ := bind_eq_ok.mp h
  obtain ⟨user, huser, h⟩ := bind_eq_ok.mp h
  obtain ⟨m, hm, h⟩ := bind_eq_ok.mp h
  have huser := orElse_eq_ok.mp huser
  have hm := orElse_eq_ok.mp hm
  cases action with
  | list =>
      obtain ⟨page, -, h⟩ := bind_eq_ok.mp h
      cases page <;> cases h <;> exact .inl rfl
  | retrieve pk =>
      obtain ⟨p, -, h⟩ := bind_eq_ok.mp h
      cases h
      exact .inl rfl
  | create =>
      obtain ⟨fields, -, h⟩ := bind_eq_ok.mp h
      obtain ⟨_, -, h⟩ := bind_eq_ok.mp h
      cases h
      exact .inr ⟨user, m, huser, hm, .inl ⟨_, rfl, rfl, rfl⟩⟩
  | update pk =>
      obtain ⟨p, hp, horg, hwrite, name, description, rfl⟩ := updateProject_eq_ok h
      exact .inr ⟨user, m, huser, hm, .inr ⟨p, hp, horg, hwrite, .inl ⟨name, description, rfl⟩⟩⟩
  | partialUpdate pk =>
      obtain ⟨p, hp, horg, hwrite, name, description, rfl⟩ := updateProject_eq_ok h
      exact .inr ⟨user, m, huser, hm, .inr ⟨p, hp, horg, hwrite, .inl ⟨name, description, rfl⟩⟩⟩
  | destroy pk =>
      obtain ⟨p, hp, h⟩ := bind_eq_ok.mp h
      cases h
      obtain ⟨hmem, horg, hwrite⟩ := writableProject_eq_ok hp
      exact .inr ⟨user, m, huser, hm, .inr ⟨p, hmem, horg, hwrite, .inr rfl⟩⟩

end Bastiq
