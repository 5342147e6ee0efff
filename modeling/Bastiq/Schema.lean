import Bastiq.Relational.Constraints
import Bastiq.Api
import Bastiq.Organizations.Admin

/-!
# The constraints of the schema

Every foreign key of the models names a row, and every unique constraint holds. One lemma for each
statement says what keeps it so: that an inserted or saved row refers to what is there, under keys
that are free, and that what is deleted takes along, or is forgotten by, what refers to it.
-/

namespace Bastiq

open Relational

/-! ## The schema -/

/-- The foreign keys of the models. -/
structure ForeignKeys (db : Db) : Prop where
  organizationCreator      : db.organizations.References (·.createdBy) db.users
  membershipUser           : db.memberships.References (fun m => some m.user) db.users
  membershipOrganization   :
    db.memberships.References (fun m => some m.organization) db.organizations
  invitationOrganization   :
    db.invitations.References (fun i => some i.organization) db.organizations
  invitationInviter        : db.invitations.References (·.invitedBy) db.users
  subscriptionOrganization :
    db.subscriptions.References (fun s => some s.organization) db.organizations
  subscriptionPlan         : db.subscriptions.References (fun s => some s.plan) db.plans
  projectOrganization      : db.projects.References (fun p => some p.organization) db.organizations
  projectCreator           : db.projects.References (·.createdBy) db.users

/-- Their unique constraints. The one on addresses sees them in lower case. -/
structure UniqueKeys (E : Env) (db : Db) : Prop where
  email        : db.users.Unique fun u => E.lower u.email
  slug         : db.organizations.Unique (·.slug)
  membership   : db.memberships.Unique fun m => (m.user, m.organization)
  token        : db.invitations.Unique (·.token)
  planCode     : db.plans.Unique (·.code)
  subscription : db.subscriptions.Unique (·.organization)
  event        : db.webhookEvents.Unique (·.stripeEventId)

/-- What the database promises. -/
structure Sound (E : Env) (db : Db) : Prop where
  references : ForeignKeys db
  unique     : UniqueKeys E db

theorem sound_migrated (E : Env) : Sound E Db.migrated := by
  refine ⟨⟨?_, ?_, ?_, ?_, ?_, ?_, ?_, ?_, ?_⟩, ⟨?_, ?_, ?_, ?_, ?_, ?_, ?_⟩⟩
  case refine_14 =>
    intro p hp q hq
    revert p q
    decide
  all_goals
    intro r hr
    cases hr

/-! ## One statement -/

/-- The account a column names is there, if it names one. -/
def UserThere (db : Db) (user : Option Nat) : Prop :=
  ∀ id, user = some id → ∃ u ∈ db.users.rows, u.id = id

def OrganizationThere (db : Db) (org : Nat) : Prop := ∃ o ∈ db.organizations.rows, o.id = org

def PlanThere (db : Db) (plan : Nat) : Prop := ∃ p ∈ db.plans.rows, p.id = plan

theorem forall_some {P : Nat → Prop} {n : Nat} (h : P n) : ∀ k, some n = some k → P k := by
  rintro k ⟨⟩
  exact h

section Users

variable {E : Env} {db : Db}

theorem Sound.insertUser (h : Sound E db) {user : User}
    (hnew : emailTaken E db user.email = false) :
    Sound E { db with users := db.users.insert user } := by
  have hfree : ∀ u ∈ db.users.rows, E.lower u.val.email ≠ E.lower user.email := by
    intro u hu
    have htaken := Table.any_eq_false_iff.mp hnew u hu
    rwa [← Bool.not_eq_true, Env.iexact_iff] at htaken
  exact {
    references := { h.references with
      organizationCreator := h.references.organizationCreator.insert_target user
      membershipUser := h.references.membershipUser.insert_target user
      invitationInviter := h.references.invitationInviter.insert_target user
      projectCreator := h.references.projectCreator.insert_target user }
    unique := { h.unique with email := h.unique.email.insert hfree } }

/-- An account is saved, and its address stays apart from the others. -/
theorem Sound.modifyUser (h : Sound E db) {id : Nat} {f : User → User}
    (hemail : (db.users.modify id f).Unique fun u => E.lower u.email) :
    Sound E { db with users := db.users.modify id f } where
  references := { h.references with
    organizationCreator := h.references.organizationCreator.modify_target id f
    membershipUser := h.references.membershipUser.modify_target id f
    invitationInviter := h.references.invitationInviter.modify_target id f
    projectCreator := h.references.projectCreator.modify_target id f }
  unique := { h.unique with email := hemail }

theorem Sound.deleteUser (h : Sound E db) (user : Nat) : Sound E (deleteUser db user) := by
  unfold Bastiq.deleteUser
  split
  · exact h
  · exact {
      references := {
        organizationCreator := h.references.organizationCreator.setNull
          (fun o _ ho => by simp [ho]) fun _ => rfl
        membershipUser := h.references.membershipUser.cascade fun m _ hm => by simpa using hm
        membershipOrganization :=
          (h.references.membershipOrganization.delete _).update_target _ _
        invitationOrganization := by
          apply Table.References.update_target
          exact h.references.invitationOrganization.update_same fun _ => rfl
        invitationInviter := h.references.invitationInviter.setNull
          (fun i _ hi => by simp [hi]) fun _ => rfl
        subscriptionOrganization := h.references.subscriptionOrganization.update_target _ _
        subscriptionPlan := h.references.subscriptionPlan
        projectOrganization := by
          apply Table.References.update_target
          exact h.references.projectOrganization.update_same fun _ => rfl
        projectCreator := h.references.projectCreator.setNull
          (fun p _ hp => by simp [hp]) fun _ => rfl }
      unique := { h.unique with
        email := h.unique.email.delete _
        slug := h.unique.slug.update_same fun _ => rfl
        membership := h.unique.membership.delete _
        token := h.unique.token.update_same fun _ => rfl } }

end Users

section Organizations

variable {E : Env} {db : Db}

theorem Sound.insertOrganization (h : Sound E db) {o : Organization}
    (hcreator : UserThere db o.createdBy)
    (hslug : ∀ r ∈ db.organizations.rows, r.val.slug ≠ o.slug) :
    Sound E { db with organizations := db.organizations.insert o } where
  references := { h.references with
    organizationCreator := h.references.organizationCreator.insert hcreator
    membershipOrganization := h.references.membershipOrganization.insert_target o
    invitationOrganization := h.references.invitationOrganization.insert_target o
    subscriptionOrganization := h.references.subscriptionOrganization.insert_target o
    projectOrganization := h.references.projectOrganization.insert_target o }
  unique := { h.unique with slug := h.unique.slug.insert hslug }

/-- An organization is saved under the slug it has. -/
theorem Sound.modifyOrganization (h : Sound E db) {id : Nat} {f : Organization → Organization}
    (hslug : ∀ o ∈ db.organizations.rows, o.id = id → (f o.val).slug = o.val.slug)
    (hcreator : ∀ o ∈ db.organizations.rows, o.id = id → UserThere db (f o.val).createdBy) :
    Sound E { db with organizations := db.organizations.modify id f } where
  references := { h.references with
    organizationCreator :=
      h.references.organizationCreator.update fun o ho hid k hk =>
        .inr (hcreator o ho (beq_iff_eq.mp hid) k hk)
    membershipOrganization := h.references.membershipOrganization.modify_target id f
    invitationOrganization := h.references.invitationOrganization.modify_target id f
    subscriptionOrganization := h.references.subscriptionOrganization.modify_target id f
    projectOrganization := h.references.projectOrganization.modify_target id f }
  unique := { h.unique with
    slug := h.unique.slug.update fun o ho hid => hslug o ho (beq_iff_eq.mp hid) }

theorem Sound.deleteOrganization (h : Sound E db) (org : Nat) :
    Sound E (deleteOrganization db org) where
  references := { h.references with
    organizationCreator := h.references.organizationCreator.delete _
    membershipUser := h.references.membershipUser.delete _
    membershipOrganization :=
      h.references.membershipOrganization.cascade fun m _ hm => by simpa using hm
    invitationOrganization :=
      h.references.invitationOrganization.cascade fun i _ hi => by simpa using hi
    invitationInviter := h.references.invitationInviter.delete _
    subscriptionOrganization :=
      h.references.subscriptionOrganization.cascade fun s _ hs => by simpa using hs
    subscriptionPlan := h.references.subscriptionPlan.delete _
    projectOrganization :=
      h.references.projectOrganization.cascade fun p _ hp => by simpa using hp
    projectCreator := h.references.projectCreator.delete _ }
  unique := { h.unique with
    slug := h.unique.slug.delete _
    membership := h.unique.membership.delete _
    token := h.unique.token.delete _
    subscription := h.unique.subscription.delete _ }

end Organizations

section Memberships

variable {E : Env} {db : Db} {m : Membership}

theorem Sound.insertMembership (h : Sound E db) (huser : ∃ u ∈ db.users.rows, u.id = m.user)
    (horg : OrganizationThere db m.organization)
    (hnew : membershipIn db m.user m.organization = none) : Sound E (insertMembership db m) where
  references := { h.references with
    membershipUser := h.references.membershipUser.insert (forall_some huser)
    membershipOrganization := h.references.membershipOrganization.insert (forall_some horg) }
  unique := { h.unique with
    membership := h.unique.membership.insert fun r hr heq => by
      obtain ⟨hsame, horg⟩ := Prod.mk.inj heq
      exact membershipIn_eq_none_iff.mp hnew r hr hsame horg }

theorem Sound.deleteMembership (h : Sound E db) (p : Row Membership → Bool) :
    Sound E { db with memberships := db.memberships.delete p } where
  references := { h.references with
    membershipUser := h.references.membershipUser.delete p
    membershipOrganization := h.references.membershipOrganization.delete p }
  unique := { h.unique with membership := h.unique.membership.delete p }

theorem Sound.saveRole (h : Sound E db) (target : Row Membership) (role : Role) :
    Sound E (saveRole db target role) where
  references := { h.references with
    membershipUser := h.references.membershipUser.modify_same fun _ => rfl
    membershipOrganization := h.references.membershipOrganization.modify_same fun _ => rfl }
  unique := { h.unique with membership := h.unique.membership.modify_same fun _ => rfl }

/-- An instance is saved whose user and organization no other row has. -/
theorem Sound.saveInstance (h : Sound E db) {m : Row Membership}
    (huser : ∃ u ∈ db.users.rows, u.id = m.val.user)
    (horg : OrganizationThere db m.val.organization)
    (hnew : ∀ r ∈ db.memberships.rows, r.id ≠ m.id → r.val.user = m.val.user →
      r.val.organization ≠ m.val.organization) : Sound E (saveInstance db m) where
  references := { h.references with
    membershipUser := h.references.membershipUser.modify_row (forall_some huser)
    membershipOrganization := h.references.membershipOrganization.modify_row (forall_some horg) }
  unique := { h.unique with
    membership := h.unique.membership.modify fun r hr hid _ _ _ heq => by
      obtain ⟨hsame, horg⟩ := Prod.mk.inj heq
      exact hnew r hr hid hsame horg }

end Memberships

section Belongings

variable {E : Env} {db : Db}

theorem Sound.insertInvitation (h : Sound E db) {i : Invitation}
    (horg : OrganizationThere db i.organization) (hinviter : UserThere db i.invitedBy)
    (htoken : ∀ j ∈ db.invitations.rows, j.val.token ≠ i.token) :
    Sound E { db with invitations := db.invitations.insert i } where
  references := { h.references with
    invitationOrganization := h.references.invitationOrganization.insert (forall_some horg)
    invitationInviter := h.references.invitationInviter.insert hinviter }
  unique := { h.unique with token := h.unique.token.insert htoken }

theorem Sound.setInvitationStatus (h : Sound E db) (id : Nat) (status : InvitationStatus) :
    Sound E (setInvitationStatus db id status) where
  references := { h.references with
    invitationOrganization := h.references.invitationOrganization.modify_same fun _ => rfl
    invitationInviter := h.references.invitationInviter.modify_same fun _ => rfl }
  unique := { h.unique with token := h.unique.token.modify_same fun _ => rfl }

theorem Sound.modifyInvitation (h : Sound E db) {id : Nat} {f : Invitation → Invitation}
    (horg : ∀ i, OrganizationThere db (f i).organization)
    (hinviter : ∀ i, UserThere db (f i).invitedBy)
    (htoken : ∀ i, (f i).token = i.token) :
    Sound E { db with invitations := db.invitations.modify id f } where
  references := { h.references with
    invitationOrganization := h.references.invitationOrganization.update fun i _ _ =>
      forall_some (.inr (horg i.val))
    invitationInviter := h.references.invitationInviter.update fun i _ _ k hk =>
      .inr (hinviter i.val k hk) }
  unique := { h.unique with token := h.unique.token.modify_same htoken }

theorem Sound.deleteInvitation (h : Sound E db) (p : Row Invitation → Bool) :
    Sound E { db with invitations := db.invitations.delete p } where
  references := { h.references with
    invitationOrganization := h.references.invitationOrganization.delete p
    invitationInviter := h.references.invitationInviter.delete p }
  unique := { h.unique with token := h.unique.token.delete p }

theorem Sound.insertProject (h : Sound E db) {p : Project}
    (horg : OrganizationThere db p.organization) (hcreator : UserThere db p.createdBy) :
    Sound E { db with projects := db.projects.insert p } where
  references := { h.references with
    projectOrganization := h.references.projectOrganization.insert (forall_some horg)
    projectCreator := h.references.projectCreator.insert hcreator }
  unique := { h.unique with }

theorem Sound.modifyProject (h : Sound E db) {id : Nat} {f : Project → Project}
    (horg : ∀ p ∈ db.projects.rows, p.id = id → OrganizationThere db (f p.val).organization)
    (hcreator : ∀ p ∈ db.projects.rows, p.id = id → UserThere db (f p.val).createdBy) :
    Sound E { db with projects := db.projects.modify id f } where
  references := { h.references with
    projectOrganization := h.references.projectOrganization.update fun p hp hid =>
      forall_some (.inr (horg p hp (beq_iff_eq.mp hid)))
    projectCreator := h.references.projectCreator.update fun p hp hid k hk =>
      .inr (hcreator p hp (beq_iff_eq.mp hid) k hk) }
  unique := { h.unique with }

theorem Sound.deleteProject (h : Sound E db) (p : Row Project → Bool) :
    Sound E { db with projects := db.projects.delete p } where
  references := { h.references with
    projectOrganization := h.references.projectOrganization.delete p
    projectCreator := h.references.projectCreator.delete p }
  unique := { h.unique with }

end Belongings

section Billing

variable {E : Env} {db : Db}

theorem Sound.insertPlan (h : Sound E db) {plan : Plan}
    (hcode : ∀ p ∈ db.plans.rows, p.val.code ≠ plan.code) :
    Sound E { db with plans := db.plans.insert plan } where
  references := { h.references with
    subscriptionPlan := h.references.subscriptionPlan.insert_target plan }
  unique := { h.unique with planCode := h.unique.planCode.insert hcode }

theorem Sound.modifyPlan (h : Sound E db) {id : Nat} {f : Plan → Plan}
    (hcode : (db.plans.modify id f).Unique (·.code)) :
    Sound E { db with plans := db.plans.modify id f } where
  references := { h.references with
    subscriptionPlan := h.references.subscriptionPlan.modify_target id f }
  unique := { h.unique with planCode := hcode }

theorem Sound.deletePlan (h : Sound E db) {plan : Nat}
    (hfree : ∀ s ∈ db.subscriptions.rows, s.val.plan ≠ plan) :
    Sound E { db with plans := db.plans.delete (·.id == plan) } where
  references := { h.references with
    subscriptionPlan :=
      h.references.subscriptionPlan.protect fun s hs => by simpa using hfree s hs }
  unique := { h.unique with planCode := h.unique.planCode.delete _ }

theorem Sound.insertSubscription (h : Sound E db) {s : Subscription}
    (horg : OrganizationThere db s.organization) (hplan : PlanThere db s.plan)
    (hnew : ∀ r ∈ db.subscriptions.rows, r.val.organization ≠ s.organization) :
    Sound E { db with subscriptions := db.subscriptions.insert s } where
  references := { h.references with
    subscriptionOrganization := h.references.subscriptionOrganization.insert (forall_some horg)
    subscriptionPlan := h.references.subscriptionPlan.insert (forall_some hplan) }
  unique := { h.unique with subscription := h.unique.subscription.insert hnew }

theorem Sound.modifySubscription (h : Sound E db) {id : Nat} {f : Subscription → Subscription}
    (horg : ∀ s ∈ db.subscriptions.rows, s.id = id → OrganizationThere db (f s.val).organization)
    (hplan : ∀ s ∈ db.subscriptions.rows, s.id = id → PlanThere db (f s.val).plan)
    (hunique : (db.subscriptions.modify id f).Unique (·.organization)) :
    Sound E { db with subscriptions := db.subscriptions.modify id f } where
  references := { h.references with
    subscriptionOrganization := h.references.subscriptionOrganization.update fun s hs hid =>
      forall_some (.inr (horg s hs (beq_iff_eq.mp hid)))
    subscriptionPlan := h.references.subscriptionPlan.update fun s hs hid =>
      forall_some (.inr (hplan s hs (beq_iff_eq.mp hid))) }
  unique := { h.unique with subscription := hunique }

/-- A subscription that is saved stays with its organization. -/
theorem Sound.saveSubscription (h : Sound E db) {id : Nat} {f : Subscription → Subscription}
    (horg : ∀ s ∈ db.subscriptions.rows, s.id = id → (f s.val).organization = s.val.organization)
    (hplan : ∀ s ∈ db.subscriptions.rows, s.id = id → PlanThere db (f s.val).plan) :
    Sound E { db with subscriptions := db.subscriptions.modify id f } := by
  refine h.modifySubscription (fun s hs hid => ?_) hplan ?_
  · rw [horg s hs hid]
    exact h.references.subscriptionOrganization.row hs rfl
  · exact h.unique.subscription.update fun s hs hid => horg s hs (beq_iff_eq.mp hid)

theorem Sound.deleteSubscription (h : Sound E db) (p : Row Subscription → Bool) :
    Sound E { db with subscriptions := db.subscriptions.delete p } where
  references := { h.references with
    subscriptionOrganization := h.references.subscriptionOrganization.delete p
    subscriptionPlan := h.references.subscriptionPlan.delete p }
  unique := { h.unique with subscription := h.unique.subscription.delete p }

theorem Sound.insertWebhookEvent (h : Sound E db) {event : WebhookEvent}
    (hnew : ∀ r ∈ db.webhookEvents.rows, r.val.stripeEventId ≠ event.stripeEventId) :
    Sound E { db with webhookEvents := db.webhookEvents.insert event } where
  references := { h.references with }
  unique := { h.unique with event := h.unique.event.insert hnew }

theorem Sound.deleteWebhookEvent (h : Sound E db) (p : Row WebhookEvent → Bool) :
    Sound E { db with webhookEvents := db.webhookEvents.delete p } where
  references := { h.references with }
  unique := { h.unique with event := h.unique.event.delete p }

end Billing

end Bastiq
