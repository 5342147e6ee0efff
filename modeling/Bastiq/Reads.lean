import Mathlib.Data.List.TFAE
import Bastiq.Billing.Endpoints
import Bastiq.Listings
import Bastiq.Tenancy

/-!
# What a user is shown

The endpoints that only read. Each answers from the rows of the organizations that the caller is a
member of, and goes its own way about it: through a header, a queryset, a join or a serializer.

* `memberships_agree` — they agree on who is a member of what, and as what;
* `answers_change_by_permission` — what a user is shown changes by their own calls, and by writes to
  an organization of theirs that have a permission, and by nothing else.
-/

namespace Bastiq

open Relational View Paging Transition

/-! ## `/me` -/

/-- What `UserOrganizationSerializer` renders. -/
structure UserOrganizationData where
  id   : Nat
  name : String
  slug : String
  role : Role
  deriving DecidableEq, Repr

/-- The memberships of a user, joined with their organizations. -/
def joinedOrganizations (db : Db) (user : Nat) : List (Row Membership × Row Organization) :=
  (db.memberships.select (·.val.user == user)).filterMap fun m =>
    (db.organizations.get? m.val.organization).map fun o => (m, o)

def UserOrganizationData.ofJoined (mo : Row Membership × Row Organization) :
    UserOrganizationData :=
  ⟨mo.1.val.organization, mo.2.val.name, mo.2.val.slug, mo.1.val.role⟩

/-- `order_by("organization__name")`, by the collation of the database. -/
def byOrganizationName (collation : Ranking String) :
    Ranking (Row Membership × Row Organization) :=
  collation.comap fun mo => mo.2.val.name

/-! ## The endpoints that only read -/

/-- What they return. -/
inductive Shown where
  | me (account : UserData) (organizations : List UserOrganizationData)
  | organizations (listed : Listed OrganizationData)
  | organization (o : OrganizationData)
  | members (listed : Listed MembershipData)
  | invitations (listed : Listed InvitationData)
  | projects (listed : Listed ProjectData)
  | project (p : ProjectPayload)
  | subscription (s : SubscriptionData)
  | plans (listed : List PlanData)

inductive Read where
  | me
  | organizations
  | organization (pk : String)
  | members (pk : String)
  | invitations (pk : String)
  | projects (header : Option String)
  | project (header : Option String) (pk : String)
  | subscription (header : Option String)
  | plans

def Body.map {β γ : Type} (f : β → γ) : Body β → Body γ
  | .empty => .empty
  | .detail message => .detail message
  | .messages texts => .messages texts
  | .fieldErrors errors => .fieldErrors errors
  | .fieldMessage field message => .fieldMessage field message
  | .data b => .data (f b)

def Response.map {β γ : Type} (f : β → γ) (r : Response β) : Response γ := ⟨r.status, r.body.map f⟩

/-- The response a view ends with, whether it returns or raises it. -/
def settled {β : Type} : View β (Response β) → Response β
  | .ok r => r
  | .error r => r

/-- `OrganizationViewSet.retrieve`. -/
def retrieveOrganization (db : Db) (user : Nat) (pk : String) :
    View OrganizationData (Response OrganizationData) := do
  let (org, role) ← getOrganization db user pk
  .ok ⟨200, .data (Organization.serialize org role)⟩

/-- `ProjectViewSet.retrieve`, behind its gate. -/
def readProject (db : Db) (user : Nat) (header : Option String) (pk : String) :
    View ProjectPayload (Response ProjectPayload) := do
  let membership ← orElse (isOrganizationMember db user header) (forbidden notAMemberMessage)
  let (response, _) ← retrieveProject db membership.val.organization pk
  .ok response

section Answers

variable (E : Env) (collation : Ranking String) (db : Db) (query : List (String × String))

/-- A list endpoint may answer `r`: the database orders the rows as the ranking allows. -/
def Lists {α β : Type} (view : View (Listed β) (Listing α β)) (wrap : Listed β → Shown)
    (r : Response Shown) : Prop :=
  match view with
  | .error refusal => r = refusal.map wrap
  | .ok l => ∃ answer, l.ranking.Orders l.rows answer ∧
      r = (settled (l.respond E.pageSize query answer)).map wrap

/-- An endpoint may answer `r` to a caller it knows. -/
def Read.Shows (user : Row User) (r : Response Shown) : Read → Prop
  | .me => ∃ answer, (byOrganizationName collation).Orders (joinedOrganizations db user.id) answer ∧
      r = ⟨200, .data (.me (User.serialize user) (answer.map .ofJoined))⟩
  | .organizations => Lists E query (organizationListing collation db user.id) .organizations r
  | .organization pk => r = (settled (retrieveOrganization db user.id pk)).map .organization
  | .members pk => Lists E query (memberListing db user.id pk) .members r
  | .invitations pk => Lists E query (invitationListing db user.id pk) .invitations r
  | .projects header => Lists E query (projectListing db user.id header) .projects r
  | .project header pk => r = (settled (readProject db user.id header pk)).map .project
  | .subscription header => r = (settled (subscriptionView db user.id header)).map .subscription
  | .plans => r = (plansView db).map .plans

/-- **An endpoint may answer `r`**: negotiation, authentication, and then its view. -/
def Read.Answers (bearer : Option Nat) (r : Response Shown) (read : Read) : Prop :=
  match checkFormat query with
  | .error refusal => r = refusal
  | .ok () =>
      match authenticate db bearer with
      | none => r = unauthenticated
      | some user => read.Shows E collation db query user r

end Answers

/-! ## What the answers are made of -/

/-- The rows a user is shown are the same in two databases: their account, their memberships, the
rows of the organizations they are a member of, and the members as they are rendered. -/
structure SeesSame (user : Nat) (db db' : Db) : Prop where
  account : db'.users.get? user = db.users.get? user
  member  : ∀ org : Int, membershipIn db' user org = membershipIn db user org
  tenant  : ∀ m ∈ db.memberships.rows, m.val.user = user →
    ∀ t : TenantTable, t.Same db db' m.val.organization
  members : ∀ m ∈ db.memberships.rows, Membership.serialize db' m = Membership.serialize db m
  plans   : db'.plans = db.plans

/-- Two views of a list show the same. -/
def ListsAlike {α β : Type} : View (Listed β) (Listing α β) → View (Listed β) (Listing α β) → Prop
  | .error r, .error r' => r = r'
  | .ok l, .ok l' => l.rows.Perm l'.rows ∧ l.ranking = l'.ranking ∧
      ∀ x ∈ l.rows, l.serialize x = l'.serialize x
  | _, _ => False

section Alike

variable {α β : Type} {E : Env} {query : List (String × String)}

theorem orders_congr {R : Ranking α} {rows rows' answer : List α} (h : rows.Perm rows') :
    R.Orders rows answer ↔ R.Orders rows' answer :=
  ⟨fun ho => ⟨ho.perm.trans h, ho.sorted⟩, fun ho => ⟨ho.perm.trans h.symm, ho.sorted⟩⟩

theorem results_of_paginate {γ : Type} {pageSize : Nat} {rows : List α} {page : Page α}
    (h : paginate (β := γ) pageSize query rows = .ok (some page)) {x : α} (hx : x ∈ page.results) :
    x ∈ rows := by
  unfold paginate at h
  split at h
  · cases h
  · simp only at h
    split at h
    · cases h
    · split at h
      · cases h
      · cases h
        exact List.mem_of_mem_drop (List.mem_of_mem_take hx)

theorem respond_congr {l l' : Listing α β} {pageSize : Nat} {answer : List α}
    (h : ∀ x ∈ answer, l.serialize x = l'.serialize x) :
    l.respond pageSize query answer = l'.respond pageSize query answer := by
  unfold Listing.respond
  cases hpage : paginate (β := Listed β) pageSize query answer with
  | error r => rfl
  | ok page =>
      cases page with
      | none =>
          simp only [ok_bind]
          rw [List.map_congr_left h]
      | some page =>
          simp only [ok_bind]
          rw [List.map_congr_left fun x hx => h x (results_of_paginate hpage hx)]

theorem lists_congr {view view' : View (Listed β) (Listing α β)} (h : ListsAlike view view')
    (wrap : Listed β → Shown) (r : Response Shown) :
    Lists E query view wrap r ↔ Lists E query view' wrap r := by
  cases view with
  | error e =>
      cases view' with
      | error e' =>
          obtain rfl : e = e' := h
          rfl
      | ok l' => exact absurd h id
  | ok l =>
      cases view' with
      | error e' => exact absurd h id
      | ok l' =>
          obtain ⟨hrows, hranking, hserialize⟩ := h
          refine exists_congr fun answer => ?_
          rw [← hranking, orders_congr hrows]
          refine and_congr_right fun horders => ?_
          have hmem : ∀ x ∈ answer, l.serialize x = l'.serialize x := fun x hx =>
            hserialize x (hrows.mem_iff.mpr (horders.perm.mem_iff.mp hx))
          rw [respond_congr hmem]

end Alike

/-! ## The same rows, the same answers -/

/-- Of rows with different keys, one has a given key wherever it stands. -/
theorem find?_id_of_perm {ρ : Type} {rows rows' : List (Row ρ)} (hnodup : (rows.map Row.id).Nodup)
    (h : rows.Perm rows') (n : Int) :
    rows.find? (fun r => (r.id : Int) == n) = rows'.find? fun r => (r.id : Int) == n := by
  cases hfound : rows'.find? fun r => (r.id : Int) == n with
  | none =>
      rw [List.find?_eq_none] at hfound ⊢
      exact fun r hr => hfound r (h.mem_iff.mp hr)
  | some r =>
      have hr := h.mem_iff.mpr (List.mem_of_find?_eq_some hfound)
      have hrn : (r.id : Int) = n := by simpa using List.find?_some hfound
      cases hother : rows.find? fun r => (r.id : Int) == n with
      | none =>
          have hnone := List.find?_eq_none.mp hother r hr
          simp [hrn] at hnone
      | some s =>
          have hs := List.mem_of_find?_eq_some hother
          have hsn : (s.id : Int) = n := by simpa using List.find?_some hother
          have hid : s.id = r.id := by omega
          rw [List.inj_on_of_nodup_map hnodup hs hr hid]

theorem getObjectOr404_of_perm {β ρ : Type} {rows rows' : List (Row ρ)}
    (hnodup : (rows.map Row.id).Nodup) (h : rows.Perm rows') (model pk : String) :
    getObjectOr404 (β := β) model rows pk = getObjectOr404 model rows' pk := by
  unfold getObjectOr404
  split
  · rfl
  · rw [find?_id_of_perm hnodup h]

namespace SeesSame

variable {E : Env} {query : List (String × String)} {user : Nat} {db db' : Db}
  (h : SeesSame user db db')

include h

theorem tenant_of_member {org : Nat} {m : Row Membership}
    (hm : membershipIn db user org = some m) (t : TenantTable) : t.Same db db' org := by
  obtain ⟨hmem, huser, rfl⟩ := mem_of_membershipIn hm
  exact h.tenant m hmem huser t

theorem organizationsOf_perm :
    (organizationsOf db user).Perm (organizationsOf db' user) := by
  refine (List.perm_ext_iff_of_nodup ?_ ?_).mpr fun o => ?_
  · exact (List.Nodup.of_map _ db.organizations.nodup_ids).filter _
  · exact (List.Nodup.of_map _ db'.organizations.nodup_ids).filter _
  · unfold organizationsOf Table.select
    rw [List.mem_filter, List.mem_filter, h.member o.id]
    refine and_congr_left fun hsome => ?_
    obtain ⟨m, hm⟩ := Option.isSome_iff_exists.mp hsome
    have hsame : db'.organizations.get? o.id = db.organizations.get? o.id :=
      h.tenant_of_member hm .organizations
    have hrow := @Table.get?_eq_some_iff _ db.organizations o.id o
    have hrow' := @Table.get?_eq_some_iff _ db'.organizations o.id o
    simp only [and_true] at hrow hrow'
    rw [← hrow, ← hrow', hsame]

theorem getOrganization_eq {β : Type} (pk : String) :
    getOrganization (β := β) db user pk = getOrganization db' user pk := by
  have hnodup : ((organizationsOf db user).map Row.id).Nodup :=
    db.organizations.nodup_ids.sublist (List.filter_sublist.map Row.id)
  unfold getOrganization
  rw [getObjectOr404_of_perm hnodup h.organizationsOf_perm]
  simp only [h.member]

theorem organizationListing_alike (collation : Ranking String) :
    ListsAlike (organizationListing collation db user)
      (organizationListing collation db' user) := by
  refine ⟨?_, rfl, fun _ _ => rfl⟩
  show (annotatedOrganizations db user).Perm (annotatedOrganizations db' user)
  unfold annotatedOrganizations
  simp only [h.member]
  exact h.organizationsOf_perm.filterMap _

theorem memberListing_alike (pk : String) :
    ListsAlike (memberListing db user pk) (memberListing db' user pk) := by
  unfold memberListing
  rw [← h.getOrganization_eq]
  cases horg : getOrganization (β := Listed MembershipData) db user pk with
  | error r => rfl
  | ok out =>
      obtain ⟨-, m, hm, -⟩ := getOrganization_eq_ok horg
      have hsame : membersOf db' out.1.id = membersOf db out.1.id :=
        h.tenant_of_member hm .memberships
      refine ⟨?_, rfl, fun x hx => ?_⟩
      · show (membersOf db out.1.id).Perm (membersOf db' out.1.id)
        rw [hsame]
      · exact (h.members x (List.mem_of_mem_filter hx)).symm

theorem invitationListing_alike (pk : String) :
    ListsAlike (invitationListing db user pk) (invitationListing db' user pk) := by
  unfold invitationListing
  rw [← h.getOrganization_eq]
  cases horg : getOrganization (β := Listed InvitationData) db user pk with
  | error r => rfl
  | ok out =>
      obtain ⟨-, m, hm, -⟩ := getOrganization_eq_ok horg
      have hsame : invitationsOf db' out.1.id = invitationsOf db out.1.id :=
        h.tenant_of_member hm .invitations
      simp only [ok_bind]
      cases require (β := Listed InvitationData) (managerRoles.contains out.2)
        (forbidden "Only an owner or admin can manage invitations.") with
      | error r => rfl
      | ok _ =>
          refine ⟨?_, rfl, fun _ _ => rfl⟩
          show (invitationsOf db out.1.id).Perm (invitationsOf db' out.1.id)
          rw [hsame]

theorem isOrganizationMember_eq (header : Option String) :
    isOrganizationMember db' user header = isOrganizationMember db user header := by
  unfold isOrganizationMember
  split
  · rfl
  · exact h.member _

theorem tenant_of_gate {header : Option String} {m : Row Membership}
    (hm : isOrganizationMember db user header = some m) (t : TenantTable) :
    t.Same db db' m.val.organization :=
  h.tenant_of_member (membershipIn_of_isOrganizationMember hm) t

theorem projectsOf_eq {header : Option String} {m : Row Membership}
    (hm : isOrganizationMember db user header = some m) :
    projectsOf db' m.val.organization = projectsOf db m.val.organization :=
  h.tenant_of_gate hm .projects

theorem projectListing_alike (header : Option String) :
    ListsAlike (projectListing db user header) (projectListing db' user header) := by
  unfold projectListing
  rw [h.isOrganizationMember_eq]
  cases hm : isOrganizationMember db user header with
  | none => rfl
  | some m =>
      refine ⟨?_, rfl, fun _ _ => rfl⟩
      show (projectsOf db m.val.organization).Perm (projectsOf db' m.val.organization)
      rw [h.projectsOf_eq hm]

theorem readProject_eq (header : Option String) (pk : String) :
    readProject db' user header pk = readProject db user header pk := by
  unfold readProject retrieveProject
  rw [h.isOrganizationMember_eq]
  cases hm : isOrganizationMember db user header with
  | none => rfl
  | some m =>
      simp only [orElse_some, ok_bind]
      rw [h.projectsOf_eq hm]
      cases getObjectOr404 (β := ProjectPayload) "Project" (projectsOf db m.val.organization)
        pk with
      | error r => rfl
      | ok p => rfl

theorem subscriptionView_eq (header : Option String) :
    subscriptionView db' user header = subscriptionView db user header := by
  unfold subscriptionView
  rw [h.isOrganizationMember_eq]
  cases hm : isOrganizationMember db user header with
  | none => rfl
  | some m =>
      have hsame :
          subscriptionOf db' m.val.organization = subscriptionOf db m.val.organization := by
        unfold subscriptionOf
        rw [Table.first?_eq_head?, Table.first?_eq_head?]
        exact congrArg List.head? (h.tenant_of_gate hm .subscriptions)
      simp only [orElse_some, ok_bind]
      rw [hsame]
      unfold Subscription.serialize
      rw [h.plans]

/-- Where nobody is a member twice, the memberships of the user are the same rows. -/
theorem memberships_perm (hkey : UniqUserOrg db) (hkey' : UniqUserOrg db') :
    (db.memberships.select (·.val.user == user)).Perm
      (db'.memberships.select (·.val.user == user)) := by
  refine (List.perm_ext_iff_of_nodup ?_ ?_).mpr fun m => ?_
  · exact (List.Nodup.of_map _ db.memberships.nodup_ids).filter _
  · exact (List.Nodup.of_map _ db'.memberships.nodup_ids).filter _
  · unfold Table.select
    rw [List.mem_filter, List.mem_filter]
    refine and_congr_left fun huser => ?_
    have hrow := @UniqUserOrg.membershipIn_eq_some_iff db hkey user m.val.organization m
    have hrow' := @UniqUserOrg.membershipIn_eq_some_iff db' hkey' user m.val.organization m
    simp only [beq_iff_eq.mp huser, and_true] at hrow hrow'
    rw [← hrow, ← hrow', h.member]

theorem joinedOrganizations_perm (hkey : UniqUserOrg db) (hkey' : UniqUserOrg db') :
    (joinedOrganizations db user).Perm (joinedOrganizations db' user) := by
  unfold joinedOrganizations
  refine ((h.memberships_perm hkey hkey').filterMap _).trans (.of_eq ?_)
  refine List.filterMap_congr fun m hm => ?_
  obtain ⟨hm, huser⟩ := List.mem_filter.mp ((h.memberships_perm hkey hkey').mem_iff.mpr hm)
  have hsame :
      db'.organizations.get? m.val.organization = db.organizations.get? m.val.organization :=
    h.tenant m hm (by simpa using huser) .organizations
  rw [hsame]

/-- **The same rows make the same answers.** -/
theorem answers_iff (hkey : UniqUserOrg db) (hkey' : UniqUserOrg db') (collation : Ranking String)
    (r : Response Shown) (read : Read) :
    read.Answers E collation db query (some user) r ↔
      read.Answers E collation db' query (some user) r := by
  have hcaller : authenticate db' (some user) = authenticate db (some user) := by
    unfold authenticate
    rw [Option.bind_some, Option.bind_some, h.account]
  unfold Read.Answers
  rw [hcaller]
  split
  · rfl
  · split
    · rfl
    · next caller hauthenticated =>
      obtain ⟨hid, -⟩ := authenticate_eq_some hauthenticated
      obtain rfl := Option.some.inj hid
      cases read with
      | me =>
          refine exists_congr fun answer => ?_
          rw [orders_congr (h.joinedOrganizations_perm hkey hkey')]
      | organizations => exact lists_congr (h.organizationListing_alike collation) _ r
      | organization pk =>
          simp only [Read.Shows, retrieveOrganization, h.getOrganization_eq]
      | members pk => exact lists_congr (h.memberListing_alike pk) _ r
      | invitations pk => exact lists_congr (h.invitationListing_alike pk) _ r
      | projects header => exact lists_congr (h.projectListing_alike header) _ r
      | project header pk => simp only [Read.Shows, h.readProject_eq]
      | subscription header => simp only [Read.Shows, h.subscriptionView_eq]
      | plans => simp only [Read.Shows, plansView, h.plans]

end SeesSame

/-! ## What a call can change of them -/

section Calls

variable {E : Env} {db : Db} {user : Nat}

theorem UniqueKeys.uniqUserOrg (h : UniqueKeys E db) : UniqUserOrg db := by
  intro m hm m' hm' huser horg
  exact h.membership m hm m' hm' (Prod.ext huser horg)

/-- What of a call a user may notice: that it is their own, or a write to their account, or a write
with a permission to an organization of theirs. -/
inductive Noticeable (E : Env) (db : Db) (user : Nat) (c : Call) : Prop where
  | own (h : c.bearer = some user)
  | account {w : AccountWrite} (h : c.request = .account user w)
  | tenant {m : Row Membership} {t : TenantTable} (hm : m ∈ db.memberships.rows)
      (huser : m.val.user = user) (hchanged : ¬ t.Same db (c.step E db) m.val.organization)
      (hpermitted : PermittedWrite E db c m.val.organization t)

/-- Nobody becomes a member but by a call of their own. -/
theorem Call.newcomer_is_caller (E : Env) (c : Call) (db : Db) {m : Row Membership}
    (hm : m ∈ (c.step E db).memberships.rows) :
    (∃ m' ∈ db.memberships.rows, m'.val.user = m.val.user ∧
        m'.val.organization = m.val.organization) ∨ c.bearer = some m.val.user := by
  have hchange := c.change E db
  generalize c.step E db = db' at hchange hm
  cases hchange with
  | created hcaller _ hinsert =>
      obtain ⟨-, subs, rfl, -⟩ := insertOrganization_eq_ok hinsert
      rcases Table.mem_insert.mp hm with hm | rfl
      · exact .inl ⟨m, hm, rfl, rfl⟩
      · exact .inr hcaller
  | destroyed => exact .inl ⟨m, (Table.mem_delete.mp hm).1, rfl, rfl⟩
  | removed => exact .inl ⟨m, (Table.mem_delete.mp hm).1, rfl, rfl⟩
  | roleSet =>
      rcases Table.mem_modify.mp hm with ⟨hm, -⟩ | ⟨m', hm', -, rfl⟩
      · exact .inl ⟨m, hm, rfl, rfl⟩
      · exact .inl ⟨m', hm', rfl, rfl⟩
  | joined hcaller =>
      rcases Table.mem_insert.mp hm with hm | rfl
      · exact .inl ⟨m, hm, rfl, rfl⟩
      · exact .inr hcaller
  | delivered _ _ hprocess =>
      obtain ⟨-, -, write, -, rfl⟩ := Delivery.process_eq_ok.mp hprocess
      exact .inl ⟨m, hm, rfl, rfl⟩
  | _ => exact .inl ⟨m, hm, rfl, rfl⟩

/-- An account stays under its key, and what is rendered of it too; as a whole where no write to it
is asked for. -/
theorem Call.account_kept (E : Env) (c : Call) {u : Row User} (hu : u ∈ db.users.rows) :
    (∃ w, c.request = .account u.id w ∧
      (c.step E db).users.get? u.id = some ⟨u.id, w.apply u.val⟩) ∨
    (c.step E db).users.get? u.id = some u := by
  have hget : db.users.get? u.id = some u := Table.get?_eq_some_iff.mpr ⟨hu, rfl⟩
  have hchange := c.change E db
  generalize c.step E db = db' at hchange ⊢
  cases hchange with
  | created _ _ hinsert =>
      obtain ⟨-, subs, rfl, -⟩ := insertOrganization_eq_ok hinsert
      exact .inr hget
  | registered => exact .inr (Table.first?_insert_of_some _ hget)
  | @accountWritten id w hrequest =>
      by_cases hid : u.id = id
      · subst hid
        refine .inl ⟨w, hrequest, ?_⟩
        exact Table.get?_eq_some_iff.mpr ⟨Table.mem_modify.mpr (.inr ⟨u, hu, rfl, rfl⟩), rfl⟩
      · right
        show (db.users.modify id w.apply).get? u.id = some u
        rw [Table.get?_modify_of_ne _ hid, hget]
  | delivered _ _ hprocess =>
      obtain ⟨-, -, write, -, rfl⟩ := Delivery.process_eq_ok.mp hprocess
      exact .inr hget
  | _ => exact .inr hget

theorem Call.plans_same (E : Env) (c : Call) (db : Db) : (c.step E db).plans = db.plans := by
  have hchange := c.change E db
  generalize c.step E db = db' at hchange ⊢
  cases hchange with
  | created _ _ hinsert =>
      obtain ⟨-, subs, rfl, -⟩ := insertOrganization_eq_ok hinsert
      rfl
  | delivered _ _ hprocess => exact plans_of_process hprocess
  | _ => rfl

theorem AccountWrite.apply_rendered (w : AccountWrite) (u : User) :
    (w.apply u).email = u.email ∧ (w.apply u).fullName = u.fullName := by
  cases w <;> exact ⟨rfl, rfl⟩

/-- Members are rendered as they were. -/
theorem Call.serialize_same (c : Call) (h : Sound E db) {m : Row Membership}
    (hm : m ∈ db.memberships.rows) :
    Membership.serialize (c.step E db) m = Membership.serialize db m := by
  obtain ⟨u, hu, hid⟩ := h.references.membershipUser m hm m.val.user rfl
  have hget : db.users.get? m.val.user = some u := Table.get?_eq_some_iff.mpr ⟨hu, hid⟩
  unfold Membership.serialize
  rw [hget]
  rcases c.account_kept E hu with ⟨w, -, hafter⟩ | hafter
  · obtain ⟨hemail, hname⟩ := w.apply_rendered u.val
    rw [← hid, hafter]
    simp only [Option.map_some, hemail, hname]
  · rw [← hid, hafter]

/-- **A call is noticeable, or the user sees the same.** -/
theorem Call.seesSame (c : Call) (h : Sound E db) {u : Row User} (hu : u ∈ db.users.rows)
    (hnot : ¬ Noticeable E db u.id c) : SeesSame u.id db (c.step E db) := by
  have htenant : ∀ m ∈ db.memberships.rows, m.val.user = u.id →
      ∀ t : TenantTable, t.Same db (c.step E db) m.val.organization := by
    intro m hm huser t
    by_contra hchanged
    obtain ⟨o, ho, hid⟩ := h.references.membershipOrganization m hm m.val.organization rfl
    rcases c.permitted E db ho t with hsame | hpermitted
    · rw [hid] at hsame
      exact hchanged hsame
    · rw [hid] at hpermitted
      exact hnot (.tenant hm huser hchanged hpermitted)
  have hkey : UniqUserOrg db := h.unique.uniqUserOrg
  have hkey' : UniqUserOrg (c.step E db) := (h.step c).unique.uniqUserOrg
  have hrows : ∀ m : Row Membership, m.val.user = u.id →
      (m ∈ (c.step E db).memberships.rows ↔ m ∈ db.memberships.rows) := by
    intro m huser
    have hin : ∀ {m' : Row Membership}, m' ∈ db.memberships.rows → m'.val.user = u.id →
        m'.val.organization = m.val.organization →
        (m ∈ (c.step E db).memberships.rows ↔ m ∈ db.memberships.rows) := by
      intro m' hm' huser' horg
      have hsame : (c.step E db).memberships.select (·.val.organization == m.val.organization) =
          db.memberships.select (·.val.organization == m.val.organization) :=
        horg ▸ htenant m' hm' huser' .memberships
      have hmem := congrArg (m ∈ ·) hsame
      simpa [Table.select] using hmem
    constructor
    · intro hm
      rcases c.newcomer_is_caller E db hm with ⟨m', hm', huser', horg⟩ | hcaller
      · exact (hin hm' (huser'.trans huser) horg).mp hm
      · exact absurd (.own (huser ▸ hcaller)) hnot
    · intro hm
      exact (hin hm huser rfl).mpr hm
  exact {
    account := by
      rcases c.account_kept E hu with ⟨w, hrequest, -⟩ | hafter
      · exact absurd (.account hrequest) hnot
      · rw [hafter, Table.get?_eq_some_iff.mpr ⟨hu, rfl⟩]
    member := by
      intro org
      ext m
      constructor
      · intro hm
        obtain rfl := organization_of_membershipIn hm
        obtain ⟨hmem, huser, -⟩ := mem_of_membershipIn hm
        exact hkey.membershipIn_eq_some_iff.mpr ⟨(hrows m huser).mp hmem, huser, rfl⟩
      · intro hm
        obtain rfl := organization_of_membershipIn hm
        obtain ⟨hmem, huser, -⟩ := mem_of_membershipIn hm
        exact hkey'.membershipIn_eq_some_iff.mpr ⟨(hrows m huser).mpr hmem, huser, rfl⟩
    tenant := htenant
    members := fun m hm => c.serialize_same h hm
    plans := c.plans_same E db }

end Calls

/-- **What changes what a user is shown.** Take any call in any state that requests, webhooks, the
admin, the shell and the demo command can bring about, and any user: either every read endpoint
answers them after the call what it may have answered before; or the call is their own, or writes to
their account, or changes rows of an organization of theirs and has a permission for it. -/
theorem answers_change_by_permission (E : Env) (collation : Ranking String)
    (events : List SystemEvent) :
    States (SystemEvent.step E) (fun db => ∀ (c : Call) (u : Row User), u ∈ db.users.rows →
      (∀ read query r, Read.Answers E collation (c.step E db) query (some u.id) r read ↔
        Read.Answers E collation db query (some u.id) r read) ∨
      Noticeable E db u.id c) Db.migrated events := by
  refine (sound_states E events).mono fun db hsound c u hu => ?_
  by_cases hnoticeable : Noticeable E db u.id c
  · exact .inr hnoticeable
  · refine .inl fun read query r => ?_
    have hsame := c.seesSame hsound hu hnoticeable
    exact (hsame.answers_iff hsound.unique.uniqUserOrg (hsound.step c).unique.uniqUserOrg collation
      r read).symm

/-! ## One membership, seen from everywhere -/

section Agreement

variable {E : Env} {db : Db} {user org : Nat} {role : Role} {pk : String}

theorem hasRole_iff (hkey : UniqUserOrg db) : HasRole db user org role ↔
    ∃ m ∈ db.memberships.rows, m.val.user = user ∧ m.val.organization = org ∧
      m.val.role = role := by
  constructor
  · rintro ⟨m, hm, hrole⟩
    obtain ⟨hmem, huser, horg⟩ := mem_of_membershipIn hm
    exact ⟨m, hmem, huser, horg, hrole⟩
  · rintro ⟨m, hm, huser, horg, hrole⟩
    exact ⟨m, hkey.membershipIn_eq_some_iff.mpr ⟨hm, huser, horg⟩, hrole⟩

theorem role_of_gate {header : Option String} (hheader : headerOrg header = some org) :
    (isOrganizationMember db user header).map (·.val.role) = some role ↔
      HasRole db user org role := by
  unfold isOrganizationMember
  rw [hheader]
  exact Option.map_eq_some_iff

/-- An organization is where a membership says. -/
theorem Sound.organization_of_role (h : Sound E db) (hrole : HasRole db user org role) :
    ∃ o ∈ organizationsOf db user, o.id = org := by
  obtain ⟨m, hm, -⟩ := hrole
  obtain ⟨hmem, -, horg⟩ := mem_of_membershipIn hm
  obtain ⟨o, ho, hid⟩ := h.references.membershipOrganization m hmem _ rfl
  have hid : o.id = org := hid.trans horg
  refine ⟨o, List.mem_filter.mpr ⟨ho, ?_⟩, hid⟩
  rw [hid, hm]
  rfl

theorem getObjectOr404_of_mem {β ρ : Type} {rows : List (Row ρ)} {r : Row ρ} {model : String}
    (hnodup : (rows.map Row.id).Nodup) (hr : r ∈ rows) (hpk : Python.int? pk = some (r.id : Int)) :
    getObjectOr404 (β := β) model rows pk = .ok r := by
  have hfound : rows.find? (fun s => (s.id : Int) == r.id) = some r := by
    cases hfind : rows.find? fun s => (s.id : Int) == r.id with
    | none => exact absurd (List.find?_eq_none.mp hfind r hr) (by simp)
    | some s =>
        have hid : (s.id : Int) = r.id := by simpa using List.find?_some hfind
        rw [List.inj_on_of_nodup_map hnodup (List.mem_of_find?_eq_some hfind) hr (by omega)]
  simp only [getObjectOr404, hpk, hfound, orElse_some]

/-- A path with the key of an organization leads its members there, and to their role. -/
theorem Sound.getOrganization_of_role {β : Type} (h : Sound E db) (hrole : HasRole db user org role)
    (hpk : Python.int? pk = some (org : Int)) :
    ∃ o, o.id = org ∧ getOrganization (β := β) db user pk = .ok (o, role) := by
  obtain ⟨o, ho, rfl⟩ := h.organization_of_role hrole
  obtain ⟨m, hm, hmrole⟩ := hrole
  have hnodup : ((organizationsOf db user).map Row.id).Nodup :=
    db.organizations.nodup_ids.sublist (List.filter_sublist.map Row.id)
  refine ⟨o, rfl, ?_⟩
  unfold getOrganization
  rw [getObjectOr404_of_mem hnodup ho hpk]
  simp only [ok_bind, hm, orElse_some, hmrole]

theorem role_of_retrieve (h : Sound E db) (hpk : Python.int? pk = some (org : Int)) :
    (∃ o, retrieveOrganization db user pk = .ok ⟨200, .data o⟩ ∧ o.id = org ∧ o.role = role) ↔
      HasRole db user org role := by
  constructor
  · rintro ⟨o, hview, rfl, rfl⟩
    obtain ⟨⟨found, role⟩, hfound, hview⟩ := bind_eq_ok.mp hview
    obtain ⟨-, m, hm, hrole⟩ := getOrganization_eq_ok hfound
    cases hview
    exact ⟨m, hm, hrole⟩
  · intro hrole
    obtain ⟨o, rfl, hfound⟩ := h.getOrganization_of_role (β := OrganizationData) hrole hpk
    refine ⟨Organization.serialize o role, ?_, rfl, rfl⟩
    unfold retrieveOrganization
    rw [hfound]
    rfl

theorem role_of_organizations (h : Sound E db) :
    (∃ o ∈ (annotatedOrganizations db user).map fun o => Organization.serialize o.1 o.2,
      o.id = org ∧ o.role = role) ↔ HasRole db user org role := by
  constructor
  · rintro ⟨d, hd, rfl, rfl⟩
    obtain ⟨⟨o, role⟩, ho, rfl⟩ := List.mem_map.mp hd
    obtain ⟨o', -, hmap⟩ := List.mem_filterMap.mp ho
    obtain ⟨m, hm, heq⟩ := Option.map_eq_some_iff.mp hmap
    cases heq
    exact ⟨m, hm, rfl⟩
  · intro hrole
    obtain ⟨o, ho, rfl⟩ := h.organization_of_role hrole
    obtain ⟨m, hm, hmrole⟩ := hrole
    refine ⟨Organization.serialize o role, List.mem_map.mpr ⟨(o, role), ?_, rfl⟩, rfl, rfl⟩
    refine List.mem_filterMap.mpr ⟨o, ho, ?_⟩
    rw [hm, ← hmrole]
    rfl

theorem role_of_joined (h : Sound E db) :
    (∃ o ∈ (joinedOrganizations db user).map UserOrganizationData.ofJoined,
      o.id = org ∧ o.role = role) ↔ HasRole db user org role := by
  rw [hasRole_iff h.unique.uniqUserOrg]
  constructor
  · rintro ⟨d, hd, rfl, rfl⟩
    obtain ⟨⟨m, o⟩, hmo, rfl⟩ := List.mem_map.mp hd
    obtain ⟨m', hm', hmap⟩ := List.mem_filterMap.mp hmo
    obtain ⟨o', -, heq⟩ := Option.map_eq_some_iff.mp hmap
    cases heq
    obtain ⟨hmem, huser⟩ := List.mem_filter.mp hm'
    exact ⟨m, hmem, by simpa using huser, rfl, rfl⟩
  · rintro ⟨m, hm, huser, rfl, rfl⟩
    obtain ⟨o, ho, hid⟩ := h.references.membershipOrganization m hm _ rfl
    refine ⟨.ofJoined (m, o), List.mem_map.mpr ⟨(m, o), ?_, rfl⟩, rfl, rfl⟩
    refine List.mem_filterMap.mpr ⟨m, List.mem_filter.mpr ⟨hm, by simpa using huser⟩, ?_⟩
    rw [Table.get?_eq_some_iff.mpr ⟨ho, hid⟩]
    rfl

theorem role_of_members (h : Sound E db) (hpk : Python.int? pk = some (org : Int)) :
    (∃ l, memberListing db user pk = .ok l ∧
      ∃ d ∈ l.rows.map l.serialize, d.user.map (·.id) = some user ∧ d.role = role) ↔
      HasRole db user org role := by
  constructor
  · rintro ⟨l, hview, d, hd, huser, rfl⟩
    obtain ⟨⟨o, own⟩, hfound, hview⟩ := bind_eq_ok.mp hview
    cases hview
    obtain ⟨o', ho, hown⟩ := bind_eq_ok.mp hfound
    obtain ⟨m', -, heq⟩ := bind_eq_ok.mp hown
    cases heq
    have hid : (o.id : Int) = org := Option.some.inj ((int?_of_getObjectOr404 ho).symm.trans hpk)
    obtain ⟨m, hm, rfl⟩ := List.mem_map.mp hd
    obtain ⟨hmem, horg⟩ := List.mem_filter.mp hm
    rw [hasRole_iff h.unique.uniqUserOrg]
    refine ⟨m, hmem, ?_, ?_, rfl⟩
    · obtain ⟨data, hdata, rfl⟩ := Option.map_eq_some_iff.mp huser
      obtain ⟨u, hu, rfl⟩ := Option.map_eq_some_iff.mp hdata
      exact (Table.id_of_get? hu).symm
    · have horg : m.val.organization = o.id := by simpa using horg
      omega
  · intro hrole
    obtain ⟨o, rfl, hfound⟩ :=
      h.getOrganization_of_role (β := Listed MembershipData) hrole hpk
    obtain ⟨m, hm, rfl, horg, hmrole⟩ := (hasRole_iff h.unique.uniqUserOrg).mp hrole
    obtain ⟨u, hu, hid⟩ := h.references.membershipUser m hm _ rfl
    unfold memberListing
    rw [hfound]
    refine ⟨_, rfl, Membership.serialize db m, List.mem_map_of_mem ?_, ?_, hmrole⟩
    · exact List.mem_filter.mpr ⟨hm, by simpa using horg⟩
    · unfold Membership.serialize
      rw [Table.get?_eq_some_iff.mpr ⟨hu, hid⟩]
      simp [hid]

theorem role_of_me {u : Row User} (h : Sound E db) (hcaller : authenticate db (some u.id) = some u)
    (collation : Ranking String) :
    (∃ account listed, Read.Answers E collation db [] (some u.id)
      ⟨200, .data (.me account listed)⟩ .me ∧ ∃ o ∈ listed, o.id = org ∧ o.role = role) ↔
      HasRole db u.id org role := by
  have hanswers : ∀ r, Read.Answers E collation db [] (some u.id) r .me ↔
      Read.Shows E collation db [] u r .me := by
    intro r
    unfold Read.Answers
    rw [hcaller]
    rfl
  rw [← role_of_joined h]
  constructor
  · rintro ⟨account, listed, hanswer, o, ho, hrole⟩
    obtain ⟨answer, horders, heq⟩ := (hanswers _).mp hanswer
    cases heq
    exact ⟨o, (horders.perm.map _).mem_iff.mp ho, hrole⟩
  · rintro ⟨o, ho, hrole⟩
    obtain ⟨answer, horders⟩ :=
      (byOrganizationName collation).exists_orders (joinedOrganizations db u.id)
    refine ⟨_, _, (hanswers _).mpr ⟨answer, horders, rfl⟩, o, ?_, hrole⟩
    exact (horders.perm.map _).mem_iff.mpr ho

end Agreement

/-- **Everywhere the same membership.** In every state that requests, webhooks, the admin, the shell
and the demo command can bring about, for every active user, organization and role: a membership
says so exactly if the gate of the active organization does, and the organization's page, the list
of organizations, `/me`, and the list of members. -/
theorem memberships_agree (E : Env) (collation : Ranking String) (events : List SystemEvent) :
    States (SystemEvent.step E) (fun db => ∀ (u : Row User) (org : Nat) (role : Role)
      (header : Option String) (pk : String), authenticate db (some u.id) = some u →
      headerOrg header = some (org : Int) → Python.int? pk = some (org : Int) →
      List.TFAE [
        ∃ m ∈ db.memberships.rows, m.val.user = u.id ∧ m.val.organization = org ∧
          m.val.role = role,
        (isOrganizationMember db u.id header).map (·.val.role) = some role,
        ∃ o, retrieveOrganization db u.id pk = .ok ⟨200, .data o⟩ ∧ o.id = org ∧ o.role = role,
        ∃ l, organizationListing collation db u.id = .ok l ∧
          ∃ o ∈ l.rows.map l.serialize, o.id = org ∧ o.role = role,
        ∃ account listed, Read.Answers E collation db [] (some u.id)
          ⟨200, .data (.me account listed)⟩ .me ∧ ∃ o ∈ listed, o.id = org ∧ o.role = role,
        ∃ l, memberListing db u.id pk = .ok l ∧
          ∃ d ∈ l.rows.map l.serialize, d.user.map (·.id) = some u.id ∧ d.role = role])
      Db.migrated events := by
  refine (sound_states E events).mono fun db h u org role header pk hcaller hheader hpk => ?_
  rw [← hasRole_iff h.unique.uniqUserOrg, role_of_gate hheader, role_of_retrieve h hpk,
    role_of_me h hcaller, role_of_members h hpk]
  have hlisted : (∃ l, organizationListing collation db u.id = .ok l ∧
      ∃ o ∈ l.rows.map l.serialize, o.id = org ∧ o.role = role) ↔ HasRole db u.id org role := by
    rw [← role_of_organizations h]
    constructor
    · rintro ⟨l, hl, hrole⟩
      cases hl
      exact hrole
    · intro hrole
      exact ⟨_, rfl, hrole⟩
  rw [hlisted]
  exact List.tfae_of_forall (HasRole db u.id org role) _ (by simp)

end Bastiq
