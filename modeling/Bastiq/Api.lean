import Bastiq.Transition.Run
import Bastiq.Accounts.Register
import Bastiq.Billing.Checkout
import Bastiq.Organizations.Invitations
import Bastiq.Organizations.Members
import Bastiq.Projects.Views

/-!
# The API as one system

A call is a request with the token it carries and what surrounds it. `respond` routes it to its
view; `Change` says once what a call can leave behind, and what is proved about whole runs is proved
from there.

Requests that only read are left out of `Request`: they leave the database as it was. The endpoints
that act on a signed token or a password are here as the write they make when they accept
(`AccountWrite`), for any account, which is more than they can do.
-/

namespace Bastiq

open Relational View

/-! ## Calls -/

/-- What `/auth/verify-email`, `/auth/password-reset/confirm` and `/auth/login` write to an
account. -/
inductive AccountWrite where
  | verified
  | password (hash : String)
  | loggedIn (now : Int)

def AccountWrite.apply : AccountWrite → User → User
  | .verified, u => { u with isEmailVerified := true }
  | .password hash, u => { u with password := hash }
  | .loggedIn now, u => { u with lastLogin := some now }

theorem AccountWrite.apply_email (w : AccountWrite) (u : User) : (w.apply u).email = u.email := by
  cases w <;> rfl

inductive Request where
  | organization (a : OrganizationAction)
  | member (pk memberPk : String) (a : MemberAction)
  | invite (pk : String) (data : RequestData)
  | accept (data : RequestData)
  | project (header : Option String) (query : List (String × String)) (data : RequestData)
      (a : ProjectAction)
  | checkout (header : Option String) (data : RequestData) (stripe : StripeApi)
  | register (data : RequestData)
  | webhook (d : Delivery)
  | account (user : Nat) (w : AccountWrite)

/-- A request, the user its access token names, and what surrounds it. -/
structure Call where
  bearer  : Option Nat
  request : Request
  ambient : Ambient

/-- The caller: the user the token names, when there is one and they are active. -/
def authenticate (db : Db) (bearer : Option Nat) : Option (Row User) :=
  (bearer.bind db.users.get?).filter fun u => u.val.isActive

/-- A view behind `IsAuthenticated`: its status, and the database it leaves. -/
def authenticated {β : Type} (db : Db) (bearer : Option Nat)
    (view : Row User → View β (Response β × Db)) : Nat × Db :=
  match authenticate db bearer with
  | none => (401, db)
  | some user => ((perform db (view user)).1.status, (perform db (view user)).2)

/-- The status a call is answered with, and the database it leaves. -/
def Call.respond (E : Env) (c : Call) (db : Db) : Nat × Db :=
  match c.request with
  | .organization a => authenticated db c.bearer fun user =>
      organizationAction E db user.id c.ambient.now a
  | .member pk memberPk a => authenticated db c.bearer fun user =>
      memberRequest db user.id pk memberPk a
  | .invite pk data => authenticated db c.bearer fun user =>
      inviteMember E db user.id pk data c.ambient
  | .accept data => authenticated db c.bearer fun user =>
      acceptInvitation E db user data c.ambient.now
  | .project header query data a =>
      let req : ProjectRequest := ⟨(authenticate db c.bearer).map Row.id, header, query, data⟩
      let out := projectViewSet E req a c.ambient.now db
      (out.1.status, out.2)
  | .checkout header data stripe => authenticated db c.bearer fun user =>
      Bastiq.checkout db user.id header data stripe
  | .register data =>
      let out := perform db (Bastiq.register E db data c.ambient)
      (out.1.status, out.2)
  | .webhook d => ((postWebhook d db).1.status, (postWebhook d db).2)
  | .account user w => (200, { db with users := db.users.modify user w.apply })

/-- The database after a call. -/
def Call.step (E : Env) (c : Call) (db : Db) : Db := (c.respond E db).2

/-! ## What a call can leave behind -/

/-- The caller's role in an organization. -/
def HasRole (db : Db) (user org : Nat) (role : Role) : Prop :=
  ∃ m, membershipIn db user org = some m ∧ m.val.role = role

/-- The changes a call can make, each with what the caller was allowed to make it by. -/
inductive Change (E : Env) (c : Call) (db : Db) : Db → Prop where
  | none : Change E c db db
  | created {user : Nat} {name slug : String} {org : Row Organization} {db' : Db}
      (hcaller : c.bearer = some user) (huser : ∃ u ∈ db.users.rows, u.id = user)
      (hinsert : insertOrganization db user name slug c.ambient.now = .ok (org, db')) :
      Change E c db db'
  | saved {user : Nat} {org : Row Organization} {role : Role} {saved : Organization}
      (hcaller : c.bearer = some user) (horg : org ∈ db.organizations.rows)
      (hrole : HasRole db user org.id role) (hmanager : managerRoles.contains role = true) :
      Change E c db { db with organizations := db.organizations.modify org.id fun _ => saved }
  | destroyed {user org : Nat} (hcaller : c.bearer = some user)
      (hrole : HasRole db user org .owner) : Change E c db (deleteOrganization db org)
  | removed {user : Nat} {actor : Role} {target : Row Membership} (hcaller : c.bearer = some user)
      (htarget : target ∈ db.memberships.rows)
      (hrole : HasRole db user target.val.organization actor)
      (hmanage : canManageMember actor target.val.role = true)
      (hlast : isLastOwner db target = false) :
      Change E c db { db with memberships := db.memberships.delete (·.id == target.id) }
  | roleSet {user : Nat} {actor new : Role} {target : Row Membership}
      (hcaller : c.bearer = some user) (htarget : target ∈ db.memberships.rows)
      (hrole : HasRole db user target.val.organization actor)
      (hmanage : canManageMember actor target.val.role = true)
      (hassign : canAssignRole actor new = true)
      (hlast : target.val.role = .owner → new ≠ .owner → isLastOwner db target = false) :
      Change E c db (saveRole db target new)
  | invited {user : Nat} {org : Row Organization} {actor new : Role} {email : String}
      (hcaller : c.bearer = some user) (hrequest : ∃ pk data, c.request = .invite pk data)
      (horg : org ∈ db.organizations.rows)
      (hrole : HasRole db user org.id actor) (hassign : canAssignRole actor new = true)
      (hmember : hasMember E db org.id email = false)
      (hpending : hasPending E db org.id email = false)
      (hroom : below (memberCount db org.id + pendingCount db org.id)
        (limit db org.id "max_members") = true)
      (htoken : ∀ j ∈ db.invitations.rows, j.val.token ≠ c.ambient.nonce) :
      Change E c db { db with
        invitations := db.invitations.insert (newInvitation E org.id user email new c.ambient) }
  | expired {i : Row Invitation} (hi : i ∈ db.invitations.rows) (hstatus : i.val.status = .pending) :
      Change E c db (setInvitationStatus db i.id .expired)
  | used {user : Row User} {i : Row Invitation} (hcaller : c.bearer = some user.id)
      (huser : user ∈ db.users.rows) (hi : i ∈ db.invitations.rows)
      (hstatus : i.val.status = .pending)
      (hemail : E.lower user.val.email = E.lower i.val.email)
      (hmember : ∃ m, membershipIn db user.id i.val.organization = some m) :
      Change E c db (setInvitationStatus db i.id .accepted)
  | joined {user : Row User} {i : Row Invitation} (hcaller : c.bearer = some user.id)
      (huser : user ∈ db.users.rows) (hi : i ∈ db.invitations.rows)
      (hstatus : i.val.status = .pending)
      (hemail : E.lower user.val.email = E.lower i.val.email)
      (hmember : membershipIn db user.id i.val.organization = Option.none) :
      Change E c db (setInvitationStatus
        (insertMembership db ⟨user.id, i.val.organization, i.val.role, c.ambient.now⟩) i.id
        .accepted)
  | projectCreated {user : Nat} {header : Option String} {m : Row Membership} {p : Project}
      (hcaller : c.bearer = some user) (hmember : isOrganizationMember db user header = some m)
      (horg : p.organization = m.val.organization) (hcreator : p.createdBy = some user) :
      Change E c db { db with projects := db.projects.insert p }
  | projectSaved {user : Nat} {header : Option String} {m : Row Membership} {p : Row Project}
      {name description : String} (hcaller : c.bearer = some user)
      (hmember : isOrganizationMember db user header = some m) (hp : p ∈ db.projects.rows)
      (horg : p.val.organization = m.val.organization) (hwrite : canWriteProject m user p = true) :
      Change E c db { db with
        projects := db.projects.modify p.id fun _ =>
          { p.val with name := name, description := description } }
  | projectDeleted {user : Nat} {header : Option String} {m : Row Membership} {p : Row Project}
      (hcaller : c.bearer = some user) (hmember : isOrganizationMember db user header = some m)
      (hp : p ∈ db.projects.rows) (horg : p.val.organization = m.val.organization)
      (hwrite : canWriteProject m user p = true) :
      Change E c db { db with projects := db.projects.delete (·.id == p.id) }
  | registered {user : User} (hnew : emailTaken E db user.email = false) :
      Change E c db { db with users := db.users.insert user }
  | accountWritten {user : Nat} {w : AccountWrite} (hrequest : c.request = .account user w) :
      Change E c db { db with users := db.users.modify user w.apply }
  | customer {sub : Row Subscription} {customer : String}
      (hsub : subscriptionOf db sub.val.organization = some sub)
      (hblank : sub.val.stripeCustomerId = "") : Change E c db (saveCustomer db sub.id customer)
  | delivered {d : Delivery} {db' : Db} (hrequest : c.request = .webhook d)
      (hledger : ledgerRow db d.event.id = Option.none) (hprocess : d.process db = .ok db') :
      Change E c db db'

/-! ### One lemma for each kind of request -/

section Respond

variable {E : Env} {c : Call} {db : Db}

theorem authenticate_eq_some {bearer : Option Nat} {user : Row User}
    (h : authenticate db bearer = some user) : bearer = some user.id ∧ user ∈ db.users.rows := by
  obtain ⟨h, -⟩ := Option.filter_eq_some_iff.mp h
  obtain ⟨id, hbearer, hget⟩ := Option.bind_eq_some_iff.mp h
  rw [hbearer, Table.id_of_get? hget]
  exact ⟨rfl, Table.mem_of_get? hget⟩

/-- A view behind `IsAuthenticated` leaves the database it found, or the one it returns to a
caller it knows. -/
theorem authenticated_db_cases {β : Type} {bearer : Option Nat}
    {view : Row User → View β (Response β × Db)} (motive : Db → Prop) (hsame : motive db)
    (h : ∀ user r db', authenticate db bearer = some user → view user = .ok (r, db') →
      motive db') : motive (authenticated db bearer view).2 := by
  unfold authenticated
  cases hcaller : authenticate db bearer with
  | none => exact hsame
  | some user =>
      exact perform_db_cases (motive := motive) db (view user) hsame fun r db' hview =>
        h user r db' hcaller hview

/-- A view behind `IsAuthenticated` changes nothing, or what it returns to a caller it knows. -/
theorem change_authenticated {β : Type} {view : Row User → View β (Response β × Db)}
    (h : ∀ user r db', c.bearer = some user.id → user ∈ db.users.rows →
      view user = .ok (r, db') → Change E c db db') :
    Change E c db (authenticated db c.bearer view).2 := by
  refine authenticated_db_cases (Change E c db) .none fun user r db' hcaller hview => ?_
  obtain ⟨hbearer, huser⟩ := authenticate_eq_some hcaller
  exact h user r db' hbearer huser hview

theorem change_organization (a : OrganizationAction) :
    Change E c db (authenticated db c.bearer fun user =>
      organizationAction E db user.id c.ambient.now a).2 := by
  refine change_authenticated fun user r db' hcaller huser hview => ?_
  rcases organizationAction_cases hview with ⟨name, slug, org, hinsert⟩ |
    ⟨org, role, saved, horg, hrole, hmanager, rfl⟩ | ⟨org, hrole, rfl⟩
  · exact .created hcaller ⟨user, huser, rfl⟩ hinsert
  · exact .saved hcaller horg hrole hmanager
  · exact .destroyed hcaller hrole

theorem change_member (pk memberPk : String) (a : MemberAction) :
    Change E c db (authenticated db c.bearer fun user =>
      memberRequest db user.id pk memberPk a).2 := by
  refine change_authenticated fun user r db' hcaller _ hview => ?_
  obtain ⟨actor, target, htarget, hrole, hmanage, hwrite⟩ := memberRequest_cases hview
  rcases hwrite with ⟨hlast, rfl⟩ | ⟨new, hassign, hlast, rfl⟩
  · exact .removed hcaller htarget hrole hmanage hlast
  · exact .roleSet hcaller htarget hrole hmanage hassign hlast

theorem change_invite (pk : String) (data : RequestData) (hrequest : c.request = .invite pk data) :
    Change E c db (authenticated db c.bearer fun user =>
      inviteMember E db user.id pk data c.ambient).2 := by
  refine change_authenticated fun user r db' hcaller _ hview => ?_
  obtain ⟨org, horg, actor, email, new, hrole, hassign, hmember, hpending, hroom, htoken, rfl⟩ :=
    inviteMember_cases hview
  exact .invited hcaller ⟨pk, data, hrequest⟩ horg hrole hassign hmember hpending hroom htoken

theorem change_accept (data : RequestData) :
    Change E c db (authenticated db c.bearer fun user =>
      acceptInvitation E db user data c.ambient.now).2 := by
  refine change_authenticated fun user r db' hcaller huser hview => ?_
  obtain ⟨i, hi, hstatus, rfl | ⟨hemail, ⟨hmember, rfl⟩ | ⟨hmember, rfl⟩⟩⟩ :=
    acceptInvitation_cases hview
  · exact .expired hi hstatus
  · exact .used hcaller huser hi hstatus hemail hmember
  · exact .joined hcaller huser hi hstatus hemail hmember

theorem change_checkout (header : Option String) (data : RequestData) (stripe : StripeApi) :
    Change E c db (authenticated db c.bearer fun user =>
      Bastiq.checkout db user.id header data stripe).2 := by
  refine change_authenticated fun user r db' _ _ hview => ?_
  rcases checkout_cases hview with rfl | ⟨sub, customer, hsub, hblank, -, rfl⟩
  · exact .none
  · exact .customer hsub hblank

theorem change_register (data : RequestData) :
    Change E c db (perform db (Bastiq.register E db data c.ambient)).2 := by
  refine perform_db_cases (motive := Change E c db) db _ .none fun r db' hview => ?_
  obtain ⟨reg, user, -, hcreate⟩ := register_cases hview
  obtain ⟨hdb, -, -, -, -, -, hnew⟩ := createUser_eq_ok hcreate
  rw [hdb]
  exact .registered hnew

theorem change_webhook (d : Delivery) (hrequest : c.request = .webhook d) :
    Change E c db (postWebhook d db).2 := by
  rcases postWebhook_cases d db with hsame | ⟨hledger, hprocess⟩
  · rw [hsame]
    exact .none
  · exact .delivered hrequest hledger hprocess

theorem change_project (header : Option String) (query : List (String × String))
    (data : RequestData) (a : ProjectAction) :
    let req : ProjectRequest := ⟨(authenticate db c.bearer).map Row.id, header, query, data⟩
    Change E c db (projectViewSet E req a c.ambient.now db).2 := by
  intro req
  refine perform_db_cases (motive := Change E c db) db _ .none fun r db' hview => ?_
  rcases projectView_cases hview with hsame | ⟨user, m, huser, hm, hchange⟩
  · rw [hsame]
    exact .none
  · obtain ⟨u, hu, rfl⟩ := Option.map_eq_some_iff.mp huser
    obtain ⟨hcaller, -⟩ := authenticate_eq_some hu
    rcases hchange with ⟨p, horg, hcreator, hdb⟩ | ⟨p, hp, horg, hwrite, hdb⟩
    · rw [hdb]
      exact .projectCreated hcaller hm horg hcreator
    · rcases hdb with ⟨name, description, hdb⟩ | hdb
      · rw [hdb]
        exact .projectSaved hcaller hm hp horg hwrite
      · rw [hdb]
        exact .projectDeleted hcaller hm hp horg hwrite

end Respond

/-- **What a call can leave behind.** -/
theorem Call.change (E : Env) (c : Call) (db : Db) : Change E c db (c.step E db) := by
  unfold Call.step Call.respond
  cases hrequest : c.request with
  | organization a => exact change_organization a
  | member pk memberPk a => exact change_member pk memberPk a
  | invite pk data => exact change_invite pk data hrequest
  | accept data => exact change_accept data
  | project header query data a => exact change_project header query data a
  | checkout header data stripe => exact change_checkout header data stripe
  | register data => exact change_register data
  | webhook d => exact change_webhook d hrequest
  | account user w => exact .accountWritten hrequest

end Bastiq
