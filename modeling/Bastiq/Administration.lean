import Bastiq.Accounts.AddressBinding
import Bastiq.Organizations.Admin

/-!
# The forms of the admin

What the admin can do beside the memberships that are there: add, change and delete accounts,
organizations, invitations, projects, plans, subscriptions and events, and add memberships. A form is
validated against the tables and then saved; the fields the admin declares read-only are not part of
it. A form that is not valid changes nothing.
-/

namespace Bastiq

open Relational

/-! ## Accounts -/

/-- The add form of `UserAdmin`. The address is stored as it was typed. -/
def addUser (E : Env) (db : Db) (email password salt : String) (now : Int) : Db :=
  if E.validEmail email && fits 254 email && E.passwordErrors password email "" "" == [] &&
      !emailTaken E db email then
    let user : User :=
      { email := email, password := E.makePassword password salt, dateJoined := now }
    { db with users := db.users.insert user }
  else db

/-! ## Organizations and what belongs to them -/

/-- A nullable foreign key to an account, as a form fills it in. -/
def userExists (db : Db) (user : Option Nat) : Bool :=
  user.all fun id => (db.users.get? id).isSome

/-- The fields of `OrganizationAdmin`. The slug is read-only. -/
structure OrganizationForm where
  name      : String
  createdBy : Option Nat
  deriving DecidableEq, Repr

def OrganizationForm.isValid (db : Db) (form : OrganizationForm) : Bool :=
  form.name != "" && fits 255 form.name && userExists db form.createdBy

/-- The add form. An organization that is added here has no slug, so there is room for one. -/
def addOrganization (db : Db) (form : OrganizationForm) (now : Int) : Db :=
  if form.isValid db && !db.organizations.any (·.val.slug == "") then
    let org : Row Organization :=
      ⟨db.organizations.nextId, form.name, "", form.createdBy, now⟩
    createFreeSubscription { db with organizations := db.organizations.insert org.val } org.id now
  else db

def changeOrganization (db : Db) (org : Nat) (form : OrganizationForm) : Db :=
  if form.isValid db then
    { db with
      organizations := db.organizations.modify org fun o =>
        { o with name := form.name, createdBy := form.createdBy } }
  else db

/-- The add form of `MembershipAdmin`. -/
def addMembership (db : Db) (user organization : Nat) (role : Role) (now : Int) : Db :=
  let m : Row Membership := ⟨db.memberships.nextId, user, organization, role, now⟩
  match fullClean db m with
  | [] => insertMembership db m.val
  | _ => db

/-- The rows that `MembershipInline` adds to an organization, `save_new_objects`. All of them are
cleaned before the first one is saved, and no two may name one user. The rows that the submission
changes or deletes come before them (`submitInline`). -/
def addInline (db : Db) (org : Nat) (rows : List (Nat × Role)) (now : Int) : Db :=
  let clean := rows.all fun (user, role) =>
    (fullClean db ⟨db.memberships.nextId, user, org, role, now⟩).isEmpty
  if clean && decide (rows.map Prod.fst).Nodup then
    rows.foldl (fun db (user, role) => insertMembership db ⟨user, org, role, now⟩) db
  else db

/-- The fields of `InvitationAdmin`. Token and expiry are read-only, so none can be added: the
column of the expiry is never filled. -/
structure InvitationForm where
  organization : Nat
  email        : String
  role         : Role
  status       : InvitationStatus
  invitedBy    : Option Nat
  deriving DecidableEq, Repr

def InvitationForm.isValid (E : Env) (db : Db) (form : InvitationForm) : Bool :=
  (db.organizations.get? form.organization).isSome && E.validEmail form.email &&
    fits 254 form.email && userExists db form.invitedBy

def InvitationForm.apply (form : InvitationForm) (i : Invitation) : Invitation :=
  { i with
    organization := form.organization
    email := form.email
    role := form.role
    status := form.status
    invitedBy := form.invitedBy }

def changeInvitation (E : Env) (db : Db) (invitation : Nat) (form : InvitationForm) : Db :=
  if form.isValid E db then
    { db with invitations := db.invitations.modify invitation form.apply }
  else db

/-- The fields of `ProjectAdmin`. -/
structure ProjectForm where
  organization : Nat
  name         : String
  description  : String
  createdBy    : Option Nat
  deriving DecidableEq, Repr

def ProjectForm.isValid (db : Db) (form : ProjectForm) : Bool :=
  (db.organizations.get? form.organization).isSome && form.name != "" && fits 255 form.name &&
    fits 5000 form.description && userExists db form.createdBy

def ProjectForm.project (form : ProjectForm) (createdAt : Int) : Project :=
  ⟨form.organization, form.name, form.description, form.createdBy, createdAt⟩

/-- No cap is asked about here. -/
def addProject (db : Db) (form : ProjectForm) (now : Int) : Db :=
  if form.isValid db then { db with projects := db.projects.insert (form.project now) } else db

def changeProject (db : Db) (project : Nat) (form : ProjectForm) : Db :=
  if form.isValid db then
    { db with projects := db.projects.modify project fun p => form.project p.createdAt }
  else db

/-! ## Plans and subscriptions -/

/-- The fields of `PlanAdmin`. -/
structure PlanForm where
  code          : String
  name          : String
  stripePriceId : String := ""
  limits        : Limits
  isActive      : Bool := true
  deriving DecidableEq, Repr

def PlanForm.plan (form : PlanForm) : Plan :=
  ⟨form.code, form.name, form.stripePriceId, form.limits, form.isActive⟩

/-- No other plan has the code; `pk` is the plan that is changed. -/
def PlanForm.isValid (db : Db) (pk : Option Nat) (form : PlanForm) : Bool :=
  form.code != "" && fits 32 form.code && form.name != "" && fits 64 form.name &&
    fits 255 form.stripePriceId && !form.limits.isEmpty &&
    !db.plans.any fun p => some p.id != pk && p.val.code == form.code

def addPlan (db : Db) (form : PlanForm) : Db :=
  if form.isValid db none then { db with plans := db.plans.insert form.plan } else db

def changePlan (db : Db) (plan : Nat) (form : PlanForm) : Db :=
  if form.isValid db (some plan) then
    { db with plans := db.plans.modify plan fun _ => form.plan }
  else db

/-- `on_delete=models.PROTECT`: a plan that a subscription is on stays. -/
def deletePlan (db : Db) (plan : Nat) : Db :=
  if db.subscriptions.any (·.val.plan == plan) then db
  else { db with plans := db.plans.delete (·.id == plan) }

/-- The fields of `SubscriptionAdmin`. The ids of Stripe are read-only. -/
structure SubscriptionForm where
  organization     : Nat
  plan             : Nat
  status           : SubscriptionStatus
  currentPeriodEnd : Option Int
  deriving DecidableEq, Repr

/-- The keys name rows, and no other subscription is of the organization. -/
def SubscriptionForm.isValid (db : Db) (pk : Option Nat) (form : SubscriptionForm) : Bool :=
  (db.organizations.get? form.organization).isSome && (db.plans.get? form.plan).isSome &&
    !db.subscriptions.any fun s => some s.id != pk && s.val.organization == form.organization

def SubscriptionForm.apply (form : SubscriptionForm) (now : Int) (s : Subscription) :
    Subscription :=
  { s with
    organization := form.organization
    plan := form.plan
    status := form.status
    currentPeriodEnd := form.currentPeriodEnd
    updatedAt := now }

def addSubscription (db : Db) (form : SubscriptionForm) (now : Int) : Db :=
  if form.isValid db none then
    let s : Subscription :=
      { organization := form.organization, plan := form.plan, updatedAt := now }
    { db with subscriptions := db.subscriptions.insert (form.apply now s) }
  else db

def changeSubscription (db : Db) (subscription : Nat) (form : SubscriptionForm) (now : Int) : Db :=
  if form.isValid db (some subscription) then
    { db with subscriptions := db.subscriptions.modify subscription (form.apply now) }
  else db

/-! ## The ledger -/

/-- The add form of `WebhookEventAdmin`, all of whose fields are read-only: an event without an id,
of which the column holds one. -/
def addWebhookEvent (db : Db) (now : Int) : Db :=
  if db.webhookEvents.any (·.val.stripeEventId == "") then db
  else { db with webhookEvents := db.webhookEvents.insert ⟨"", "", now⟩ }

/-! ## The forms as one -/

inductive AdminForm where
  | addUser (email password salt : String) (now : Int)
  | changeUser (user : Nat) (form : UserForm)
  | addOrganization (form : OrganizationForm) (now : Int)
  | changeOrganization (org : Nat) (form : OrganizationForm)
  | deleteOrganization (org : Nat)
  | addMembership (user organization : Nat) (role : Role) (now : Int)
  | addInline (org : Nat) (rows : List (Nat × Role)) (now : Int)
  | changeInvitation (invitation : Nat) (form : InvitationForm)
  | deleteInvitation (invitation : Nat)
  | addPlan (form : PlanForm)
  | changePlan (plan : Nat) (form : PlanForm)
  | deletePlan (plan : Nat)
  | addSubscription (form : SubscriptionForm) (now : Int)
  | changeSubscription (subscription : Nat) (form : SubscriptionForm) (now : Int)
  | deleteSubscription (subscription : Nat)
  | addWebhookEvent (now : Int)
  | deleteWebhookEvent (event : Nat)
  | addProject (form : ProjectForm) (now : Int)
  | changeProject (project : Nat) (form : ProjectForm)
  | deleteProject (project : Nat)

/-- The database after a form was submitted. -/
def AdminForm.step (E : Env) (form : AdminForm) (db : Db) : Db :=
  match form with
  | .addUser email password salt now => Bastiq.addUser E db email password salt now
  | .changeUser user form => editUser E db user form
  | .addOrganization form now => Bastiq.addOrganization db form now
  | .changeOrganization org form => Bastiq.changeOrganization db org form
  | .deleteOrganization org => Bastiq.deleteOrganization db org
  | .addMembership user organization role now =>
      Bastiq.addMembership db user organization role now
  | .addInline org rows now => Bastiq.addInline db org rows now
  | .changeInvitation invitation form => Bastiq.changeInvitation E db invitation form
  | .deleteInvitation invitation =>
      { db with invitations := db.invitations.delete (·.id == invitation) }
  | .addPlan form => Bastiq.addPlan db form
  | .changePlan plan form => Bastiq.changePlan db plan form
  | .deletePlan plan => Bastiq.deletePlan db plan
  | .addSubscription form now => Bastiq.addSubscription db form now
  | .changeSubscription subscription form now =>
      Bastiq.changeSubscription db subscription form now
  | .deleteSubscription subscription =>
      { db with subscriptions := db.subscriptions.delete (·.id == subscription) }
  | .addWebhookEvent now => Bastiq.addWebhookEvent db now
  | .deleteWebhookEvent event =>
      { db with webhookEvents := db.webhookEvents.delete (·.id == event) }
  | .addProject form now => Bastiq.addProject db form now
  | .changeProject project form => Bastiq.changeProject db project form
  | .deleteProject project => { db with projects := db.projects.delete (·.id == project) }

end Bastiq
