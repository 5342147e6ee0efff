import Bastiq.Projects.Authorization
import Bastiq.Writes

/-!
# Who writes to a tenant's rows

The rows of an organization stand in five tables. Each table has its own guards, spread over the
endpoints that write to it. Here they are one table of permissions, and every call of the API keeps
to it, whatever the state it finds.
-/

namespace Bastiq

open Relational View Transition

/-- The tables with the rows of the tenants. -/
inductive TenantTable where
  | organizations
  | memberships
  | invitations
  | projects
  | subscriptions
  deriving DecidableEq, Repr

/-- The rows of the organization in the table are the same. -/
def TenantTable.Same (db db' : Db) (org : Nat) : TenantTable → Prop
  | .organizations => db'.organizations.get? org = db.organizations.get? org
  | .memberships => db'.memberships.select (·.val.organization == org) =
      db.memberships.select (·.val.organization == org)
  | .invitations => db'.invitations.select (·.val.organization == org) =
      db.invitations.select (·.val.organization == org)
  | .projects => db'.projects.select (·.val.organization == org) =
      db.projects.select (·.val.organization == org)
  | .subscriptions => db'.subscriptions.select (·.val.organization == org) =
      db.subscriptions.select (·.val.organization == org)

/-! ## Permissions -/

/-- The caller is a member of the organization, at a role that is allowed. -/
def ActsAs (db : Db) (c : Call) (org : Nat) (allowed : Role → Bool) : Prop :=
  ∃ user role, authenticate db c.bearer = some user ∧ HasRole db user.id org role ∧
    allowed role = true

/-- The caller presents the token of a pending invitation to the organization. -/
def PresentsInvitation (db : Db) (c : Call) (user : Row User) (i : Row Invitation) : Prop :=
  authenticate db c.bearer = some user ∧ ∃ data token, c.request = .accept data ∧
    validateToken (β := OrganizationPayload) data = .ok token ∧
    invitationByToken db token = some i ∧ i.val.status = .pending

/-- Whose call may write to the organization's rows in a table. -/
def PermittedWrite (E : Env) (db : Db) (c : Call) (org : Nat) : TenantTable → Prop
  | .organizations => ActsAs db c org managerRoles.contains
  | .memberships => ActsAs db c org managerRoles.contains ∨
      ∃ user i, PresentsInvitation db c user i ∧ i.val.organization = org ∧
        E.iexact user.val.email i.val.email = true
  | .invitations => ActsAs db c org managerRoles.contains ∨
      ∃ user i, PresentsInvitation db c user i ∧ i.val.organization = org
  | .projects => ActsAs db c org fun _ => true
  | .subscriptions => ActsAs db c org (· == .owner) ∨
      ∃ d sub, c.request = .webhook d ∧ d.event.find db = .ok (some sub) ∧
        sub.val.organization = org

/-! ## What a request does not touch -/

def Request.mayTouch : Request → TenantTable → Bool
  | .organization _, _ => true
  | .member _ _ _, .memberships => true
  | .invite _ _, .invitations => true
  | .accept _, .memberships => true
  | .accept _, .invitations => true
  | .project _ _ _ _, .projects => true
  | .checkout _ _ _, .subscriptions => true
  | .webhook _, .subscriptions => true
  | _, _ => false

section Tables

variable {E : Env} {c : Call} {db db' : Db} {org : Nat} {t : TenantTable}

theorem TenantTable.same_self (db : Db) (org : Nat) (t : TenantTable) : t.Same db db org := by
  cases t <;> rfl

/-- A table that the request does not touch is as it was. -/
theorem Written.same (h : Written E c db db') (htouch : c.request.mayTouch t = false) :
    t.Same db db' org := by
  cases h with
  | nothing => exact t.same_self db org
  | organization hrequest =>
      rw [hrequest] at htouch
      cases htouch
  | member hrequest _ hview =>
      rw [hrequest] at htouch
      obtain ⟨actor, target, -, -, -, ⟨-, rfl⟩ | ⟨new, -, -, rfl⟩⟩ := memberRequest_cases hview <;>
        cases t <;> first | rfl | cases htouch
  | invite hrequest _ hview =>
      rw [hrequest] at htouch
      obtain ⟨o, -, actor, email, new, -, -, -, -, -, -, rfl⟩ := inviteMember_cases hview
      cases t <;> first | rfl | cases htouch
  | accept hrequest _ hview =>
      rw [hrequest] at htouch
      obtain ⟨i, -, -, rfl | ⟨-, ⟨-, rfl⟩ | ⟨-, rfl⟩⟩⟩ := acceptInvitation_cases hview <;>
        cases t <;> first | rfl | cases htouch
  | project hrequest hview =>
      rw [hrequest] at htouch
      rcases projectView_cases hview with rfl | ⟨user, m, -, -, ⟨p, -, -, rfl⟩ |
        ⟨p, -, -, -, ⟨name, description, rfl⟩ | rfl⟩⟩ <;>
        cases t <;> first | rfl | cases htouch
  | checkout hrequest _ hview =>
      rw [hrequest] at htouch
      rcases checkout_cases hview with rfl | ⟨sub, customer, -, -, -, rfl⟩ <;>
        cases t <;> first | rfl | cases htouch
  | register _ hview =>
      obtain ⟨reg, user, -, hcreate⟩ := register_cases hview
      obtain ⟨rfl, -⟩ := createUser_eq_ok hcreate
      cases t <;> rfl
  | webhook hrequest _ hprocess =>
      rw [hrequest] at htouch
      obtain ⟨-, rfl⟩ | ⟨sub, save, -, rfl⟩ := Delivery.process_cases hprocess <;>
        cases t <;> first | rfl | cases htouch
  | account => cases t <;> rfl

/-! ## The endpoints that do -/

theorem ActsAs.mono {allowed allowed' : Role → Bool} (h : ActsAs db c org allowed)
    (himp : ∀ role, allowed role = true → allowed' role = true) : ActsAs db c org allowed' := by
  obtain ⟨user, role, hcaller, hrole, hallowed⟩ := h
  exact ⟨user, role, hcaller, hrole, himp role hallowed⟩

/-- An Owner may write everything. -/
theorem permittedWrite_of_owner (h : ActsAs db c org (· == .owner)) (t : TenantTable) :
    PermittedWrite E db c org t := by
  have hmanager : ActsAs db c org managerRoles.contains := h.mono fun role howner => by
    rw [beq_iff_eq.mp howner]
    rfl
  cases t with
  | organizations => exact hmanager
  | memberships => exact .inl hmanager
  | invitations => exact .inl hmanager
  | projects => exact h.mono fun _ _ => rfl
  | subscriptions => exact .inl h

/-- The rows of an organization that was there do not change when another is created. -/
theorem same_of_created {user : Nat} {name slug : String} {now : Int} {new : Row Organization}
    (hinsert : insertOrganization db user name slug now = .ok (new, db'))
    (horg : org < db.organizations.nextId) (t : TenantTable) : t.Same db db' org := by
  obtain ⟨hnew, subs, rfl, hsubs⟩ := insertOrganization_eq_ok hinsert
  have hne : new.id ≠ org := by
    rw [hnew]
    exact Nat.ne_of_gt horg
  cases t with
  | organizations =>
      refine Table.first?_insert_of_neg _ ?_
      simpa using Nat.ne_of_gt horg
  | memberships => exact Table.select_insert_of_neg _ (beq_false_of_ne hne)
  | invitations => rfl
  | projects => rfl
  | subscriptions =>
      show subs.select _ = _
      rw [hsubs]
      unfold createFreeSubscription
      split
      · exact Table.select_insert_of_neg _ (beq_false_of_ne hne)
      · rfl

/-- The rows of an organization do not go when another goes. -/
theorem same_of_destroyed {other : Nat} (hne : other ≠ org) (t : TenantTable) :
    t.Same db (deleteOrganization db other) org := by
  have hdisjoint : ∀ k, (k == org) = true → (k == other) = false := by
    intro k hk
    rw [beq_iff_eq] at hk
    rw [hk]
    exact beq_false_of_ne hne.symm
  cases t with
  | organizations => exact Table.get?_delete_of_ne _ hne.symm
  | memberships => exact Table.select_delete_of_disjoint _ fun r _ => hdisjoint _
  | invitations => exact Table.select_delete_of_disjoint _ fun r _ => hdisjoint _
  | projects => exact Table.select_delete_of_disjoint _ fun r _ => hdisjoint _
  | subscriptions => exact Table.select_delete_of_disjoint _ fun r _ => hdisjoint _

theorem permittedWrite_of_organization {user : Row User} {a : OrganizationAction} {now : Int}
    {r : Response OrganizationPayload} (hcaller : authenticate db c.bearer = some user)
    (hview : organizationAction E db user.id now a = .ok (r, db'))
    (horg : org < db.organizations.nextId) (hchanged : ¬ t.Same db db' org) :
    PermittedWrite E db c org t := by
  rcases organizationAction_cases hview with ⟨name, slug, new, hinsert⟩ |
    ⟨o, role, saved, -, hrole, hmanager, rfl⟩ | ⟨o, hrole, rfl⟩
  · exact absurd (same_of_created hinsert horg t) hchanged
  · cases t with
    | organizations =>
        by_cases hid : o.id = org
        · rw [← hid]
          exact ⟨user, role, hcaller, hrole, hmanager⟩
        · exact absurd (Table.get?_modify_of_ne _ (Ne.symm hid) _) hchanged
    | _ => exact absurd rfl hchanged
  · by_cases hid : o = org
    · rw [← hid]
      exact permittedWrite_of_owner ⟨user, .owner, hcaller, hrole, rfl⟩ t
    · exact absurd (same_of_destroyed hid t) hchanged

theorem isManager_of_ne_member {actor : Role} (h : actor ≠ .member) :
    managerRoles.contains actor = true := by
  cases actor with
  | owner => rfl
  | admin => rfl
  | member => exact absurd rfl h

theorem permittedWrite_of_member {user : Row User} {pk memberPk : String} {a : MemberAction}
    {r : Response OrganizationPayload} (hcaller : authenticate db c.bearer = some user)
    (hview : memberRequest db user.id pk memberPk a = .ok (r, db'))
    (hchanged : ¬ TenantTable.memberships.Same db db' org) :
    PermittedWrite E db c org .memberships := by
  obtain ⟨actor, target, htarget, hrole, hmanage, hwrite⟩ := memberRequest_cases hview
  by_cases hid : target.val.organization = org
  · rw [← hid]
    exact .inl ⟨user, actor, hcaller, hrole,
      isManager_of_ne_member (canManageMember_iff.mp hmanage).1⟩
  · have hother : ∀ m ∈ db.memberships.rows, m.id = target.id →
        (m.val.organization == org) = false := by
      intro m hm heq
      rw [db.memberships.eq_of_id_eq hm htarget heq]
      exact beq_false_of_ne hid
    refine absurd ?_ hchanged
    rcases hwrite with ⟨-, rfl⟩ | ⟨new, -, -, rfl⟩
    · refine Table.select_delete_of_disjoint _ fun m hm horg => ?_
      by_contra heq
      rw [hother m hm (by simpa using heq)] at horg
      cases horg
    · exact Table.select_modify_of_neg _ fun m hm heq => ⟨hother m hm heq, hother m hm heq⟩

theorem permittedWrite_of_invite {user : Row User} {pk : String} {data : RequestData} {A : Ambient}
    {r : Response OrganizationPayload} (hcaller : authenticate db c.bearer = some user)
    (hview : inviteMember E db user.id pk data A = .ok (r, db'))
    (hchanged : ¬ TenantTable.invitations.Same db db' org) :
    PermittedWrite E db c org .invitations := by
  obtain ⟨o, -, actor, email, new, hrole, hassign, -, -, -, -, rfl⟩ := inviteMember_cases hview
  by_cases hid : o.id = org
  · rw [← hid]
    exact .inl ⟨user, actor, hcaller, hrole,
      isManager_of_ne_member (canAssignRole_iff.mp hassign).1⟩
  · refine absurd ?_ hchanged
    exact Table.select_insert_of_neg _ (beq_false_of_ne hid)

theorem permittedWrite_of_accept {user : Row User} {data : RequestData}
    {r : Response OrganizationPayload} (hrequest : c.request = .accept data)
    (hcaller : authenticate db c.bearer = some user)
    (hview : acceptInvitation E db user data c.ambient.now = .ok (r, db'))
    (htouch : c.request.mayTouch t = true) (hchanged : ¬ t.Same db db' org) :
    PermittedWrite E db c org t := by
  obtain ⟨token, i, status, htoken, hi, hpending, hinvitations, hmemberships⟩ :=
    acceptInvitation_shows hview
  have hpresents : PresentsInvitation db c user i :=
    ⟨hcaller, data, token, hrequest, htoken, hi, hpending⟩
  have hi := Table.mem_of_first? hi
  rw [hrequest] at htouch
  cases t with
  | memberships =>
      rcases hmemberships with hsame | ⟨hemail, hinsert⟩
      · refine absurd ?_ hchanged
        show db'.memberships.select _ = _
        rw [hsame]
      · by_cases hid : i.val.organization = org
        · exact .inr ⟨user, i, hpresents, hid, hemail⟩
        · refine absurd ?_ hchanged
          show db'.memberships.select _ = _
          rw [hinsert]
          exact Table.select_insert_of_neg _ (beq_false_of_ne hid)
  | invitations =>
      by_cases hid : i.val.organization = org
      · exact .inr ⟨user, i, hpresents, hid⟩
      · refine absurd ?_ hchanged
        show db'.invitations.select _ = _
        rw [hinvitations]
        refine Table.select_modify_of_neg _ fun j hj heq => ?_
        rw [db.invitations.eq_of_id_eq hj hi heq]
        exact ⟨beq_false_of_ne hid, beq_false_of_ne hid⟩
  | organizations | projects | subscriptions => cases htouch

theorem permittedWrite_of_project {header : Option String} {query : List (String × String)}
    {data : RequestData} {a : ProjectAction} {r : Response ProjectPayload}
    (hrequest : c.request = .project header query data a)
    (hview : projectView E ⟨(authenticate db c.bearer).map Row.id, header, query, data⟩ a
      c.ambient.now db = .ok (r, db'))
    (hchanged : ¬ TenantTable.projects.Same db db' org) : PermittedWrite E db c org .projects := by
  rcases projectView_cases hview with rfl | ⟨id, m, huser, hm, hwrite⟩
  · exact absurd rfl hchanged
  · obtain ⟨user, hcaller, rfl⟩ := Option.map_eq_some_iff.mp huser
    have hacts := actsIn_of_isOrganizationMember hrequest hcaller hm
    by_cases hid : m.val.organization = org
    · rw [← hid]
      exact ⟨user, m.val.role, hcaller, ⟨m, hacts.member, rfl⟩, rfl⟩
    · refine absurd ?_ hchanged
      rcases hwrite with ⟨p, horg, -, rfl⟩ | ⟨p, hp, horg, -, ⟨name, description, rfl⟩ | rfl⟩
      · exact Table.select_insert_of_neg _ (beq_false_of_ne (horg ▸ hid))
      · refine Table.select_modify_of_neg _ fun q hq heq => ?_
        rw [db.projects.eq_of_id_eq hq hp heq]
        exact ⟨beq_false_of_ne (horg ▸ hid), beq_false_of_ne (horg ▸ hid)⟩
      · refine Table.select_delete_of_disjoint _ fun q hq hq_org => ?_
        by_contra heq
        rw [db.projects.eq_of_id_eq hq hp (by simpa using heq), beq_iff_eq, horg] at hq_org
        exact hid hq_org

theorem membershipIn_of_isOrganizationMember {user : Nat} {header : Option String}
    {m : Row Membership} (h : isOrganizationMember db user header = some m) :
    membershipIn db user m.val.organization = some m := by
  unfold isOrganizationMember at h
  split at h
  · cases h
  · have hrow := organization_of_membershipIn h
    rw [hrow]
    exact h

theorem permittedWrite_of_checkout {user : Row User} {header : Option String} {data : RequestData}
    {stripe : StripeApi} {r : Response String} (hcaller : authenticate db c.bearer = some user)
    (hview : checkout db user.id header data stripe = .ok (r, db'))
    (hchanged : ¬ TenantTable.subscriptions.Same db db' org) :
    PermittedWrite E db c org .subscriptions := by
  obtain ⟨m, hm, h⟩ := bind_eq_ok.mp hview
  obtain ⟨_, howner, h⟩ := bind_eq_ok.mp h
  obtain ⟨plan, -, h⟩ := bind_eq_ok.mp h
  obtain ⟨sub, hsub, h⟩ := bind_eq_ok.mp h
  have hsub := orElse_eq_ok.mp hsub
  have hrow : sub.val.organization = m.val.organization := by
    simpa using Table.pos_of_first? hsub
  by_cases hid : m.val.organization = org
  · have hmember : membershipIn db user.id m.val.organization = some m :=
      membershipIn_of_isOrganizationMember (orElse_eq_ok.mp hm)
    rw [← hid]
    exact .inl ⟨user, m.val.role, hcaller, ⟨m, hmember, rfl⟩, require_eq_ok.mp howner⟩
  · refine absurd ?_ hchanged
    split at h
    · cases h
    · split at h
      · cases h
      · next customer after hensure =>
        cases h
        rcases ensureCustomer_cases hensure with rfl | ⟨-, -, rfl⟩
        · rfl
        · refine Table.select_modify_of_neg _ fun s hs heq => ?_
          rw [db.subscriptions.eq_of_id_eq hs (Table.mem_of_first? hsub) heq, hrow]
          exact ⟨beq_false_of_ne hid, beq_false_of_ne (hrow ▸ hid)⟩

theorem permittedWrite_of_webhook {d : Delivery} (hrequest : c.request = .webhook d)
    (hprocess : d.process db = .ok db')
    (hchanged : ¬ TenantTable.subscriptions.Same db db' org) :
    PermittedWrite E db c org .subscriptions := by
  obtain ⟨-, rfl⟩ | ⟨sub, save, hdecision, rfl⟩ := Delivery.process_cases hprocess
  · exact absurd rfl hchanged
  · obtain ⟨hfind, -⟩ := StripeEvent.decision_eq_some hdecision
    by_cases hid : sub.val.organization = org
    · exact .inr ⟨d, sub, hrequest, hfind, hid⟩
    · refine absurd ?_ hchanged
      refine Table.select_modify_of_neg _ fun s hs heq => ?_
      rw [db.subscriptions.eq_of_id_eq hs (StripeEvent.mem_of_find hfind) heq,
        StripeEvent.decision_organization hdecision]
      exact ⟨beq_false_of_ne hid, beq_false_of_ne hid⟩

end Tables

/-- One call. -/
theorem Call.permitted (E : Env) (db : Db) (c : Call) {o : Row Organization}
    (ho : o ∈ db.organizations.rows) (t : TenantTable) :
    t.Same db (c.step E db) o.id ∨ PermittedWrite E db c o.id t := by
  by_cases hchanged : t.Same db (c.step E db) o.id
  · exact .inl hchanged
  right
  have hwritten := c.written E db
  have htouch : c.request.mayTouch t = true := by
    by_contra hnot
    exact hchanged (hwritten.same (by simpa using hnot))
  generalize c.step E db = db' at hwritten hchanged
  cases hwritten with
  | nothing => exact absurd (t.same_self db o.id) hchanged
  | organization _ hcaller hview =>
      exact permittedWrite_of_organization hcaller hview (db.organizations.fresh o ho) hchanged
  | accept hrequest hcaller hview =>
      exact permittedWrite_of_accept hrequest hcaller hview htouch hchanged
  | member hrequest hcaller hview =>
      rw [hrequest] at htouch
      cases t with
      | memberships => exact permittedWrite_of_member hcaller hview hchanged
      | _ => cases htouch
  | invite hrequest hcaller hview =>
      rw [hrequest] at htouch
      cases t with
      | invitations => exact permittedWrite_of_invite hcaller hview hchanged
      | _ => cases htouch
  | project hrequest hview =>
      have hkind := hrequest
      rw [hkind] at htouch
      cases t with
      | projects => exact permittedWrite_of_project hrequest hview hchanged
      | _ => cases htouch
  | checkout hrequest hcaller hview =>
      rw [hrequest] at htouch
      cases t with
      | subscriptions => exact permittedWrite_of_checkout hcaller hview hchanged
      | _ => cases htouch
  | webhook hrequest _ hprocess =>
      have hkind := hrequest
      rw [hkind] at htouch
      cases t with
      | subscriptions => exact permittedWrite_of_webhook hrequest hprocess hchanged
      | _ => cases htouch
  | register hrequest =>
      rw [hrequest] at htouch
      cases htouch
  | account hrequest =>
      rw [hrequest] at htouch
      cases htouch

/-- **Every write to a tenant's rows has a permission.** In every run of the API, from any state:
where a call leaves an organization that was there other rows in a table, the caller is a member at
a role the table asks for; or presents the token of a pending invitation to it, as the one it was
sent to if they become a member; or Stripe reports on its subscription. -/
theorem tenant_writes_permitted (E : Env) (db : Db) (calls : List Call) :
    Each (Call.step E) (fun db c => ∀ o ∈ db.organizations.rows, ∀ t : TenantTable,
      t.Same db (c.step E db) o.id ∨ PermittedWrite E db c o.id t) db calls :=
  each_of_forall (fun db c _ ho t => c.permitted E db ho t) calls db

end Bastiq
