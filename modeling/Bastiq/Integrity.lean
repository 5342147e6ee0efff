import Bastiq.Schema
import Bastiq.Administration
import Bastiq.Organizations.AdminOwners
import Bastiq.Organizations.Reseed
import Bastiq.Organizations.Seats
import Bastiq.Writes

/-!
# Whatever writes to the database keeps its constraints

The code checks or relies on the constraints of the schema piece by piece: a view looks a row up
before it refers to it, a form is validated, `get_or_create` asks first. Here the pieces are one
invariant, of everything that writes to the database: the API and the webhooks, the admin, and the
command that seeds the demo data.
-/

namespace Bastiq

open Relational View Transition

/-! ## Requests -/

section Requests

variable {E : Env} {db db' : Db} {c : Call}

/-- Only the organization endpoints write to the organizations. -/
theorem organizations_of_respond (horganization : ∀ a, c.request ≠ .organization a) :
    (c.step E db).organizations = db.organizations := by
  have hwritten := c.written E db
  generalize c.step E db = db' at hwritten ⊢
  cases hwritten with
  | nothing => rfl
  | organization hrequest => exact absurd hrequest (horganization _)
  | member _ _ hview =>
      obtain ⟨actor, target, -, -, -, ⟨-, rfl⟩ | ⟨new, -, -, rfl⟩⟩ := memberRequest_cases hview
      · rfl
      · rfl
  | invite _ _ hview =>
      obtain ⟨org, -, actor, email, new, -, -, -, -, -, -, rfl⟩ := inviteMember_cases hview
      rfl
  | accept _ _ hview =>
      obtain ⟨i, -, -, rfl | ⟨-, ⟨-, rfl⟩ | ⟨-, rfl⟩⟩⟩ := acceptInvitation_cases hview
      · rfl
      · rfl
      · rfl
  | project _ hview =>
      rcases projectView_cases hview with rfl | ⟨user, m, -, -, ⟨p, -, -, rfl⟩ |
        ⟨p, -, -, -, ⟨name, description, rfl⟩ | rfl⟩⟩
      · rfl
      · rfl
      · rfl
      · rfl
  | checkout _ _ hview =>
      rcases checkout_cases hview with rfl | ⟨sub, customer, -, -, -, rfl⟩
      · rfl
      · rfl
  | register _ hview =>
      obtain ⟨reg, user, -, hcreate⟩ := register_cases hview
      obtain ⟨rfl, -⟩ := createUser_eq_ok hcreate
      rfl
  | webhook _ _ hprocess =>
      obtain ⟨-, -, write, -, rfl⟩ := Delivery.process_eq_ok.mp hprocess
      rfl
  | account => rfl

theorem Sound.createFreeSubscription (h : Sound E db) {org : Nat} (horg : OrganizationThere db org)
    (now : Int) : Sound E (createFreeSubscription db org now) := by
  unfold Bastiq.createFreeSubscription
  split
  · next free hfree hnone =>
    refine h.insertSubscription (s := _) horg ⟨free, Table.mem_of_first? hfree, rfl⟩ ?_
    intro r hr
    simpa using Table.first?_eq_none_iff.mp hnone r hr
  · exact h

theorem membership_of_isOrganizationMember {user : Nat} {header : Option String}
    {m : Row Membership}
    (h : isOrganizationMember db user header = some m) :
    m ∈ db.memberships.rows ∧ m.val.user = user := by
  refine ⟨mem_of_isOrganizationMember h, ?_⟩
  unfold isOrganizationMember at h
  split at h
  · cases h
  · have hpos := Table.pos_of_first? h
    simp only [Bool.and_eq_true, beq_iff_eq] at hpos
    exact hpos.1

/-- An organization is created with its subscription and the membership of its Owner. -/
theorem Sound.created (h : Sound E db) {user : Nat} {name slug : String} {now : Int}
    {org : Row Organization} (huser : ∃ u ∈ db.users.rows, u.id = user)
    (hinsert : Bastiq.insertOrganization db user name slug now = .ok (org, db')) :
    Sound E db' := by
  unfold Bastiq.insertOrganization at hinsert
  split at hinsert
  · cases hinsert
  · split at hinsert
    · cases hinsert
    · next hslug =>
      cases hinsert
      have hfree := Table.any_eq_false_iff.mp (Bool.not_eq_true _ ▸ hslug)
      let o : Organization := ⟨name, slug, some user, now⟩
      have hcreated : Sound E { db with organizations := db.organizations.insert o } := by
        refine h.insertOrganization (forall_some huser) fun r hr => ?_
        simpa using hfree r hr
      have hthere : OrganizationThere { db with organizations := db.organizations.insert o }
          db.organizations.nextId := ⟨_, Table.mem_insert.mpr (.inr rfl), rfl⟩
      have hsubscribed := hcreated.createFreeSubscription hthere now
      rw [createFreeSubscription_eq] at hsubscribed ⊢
      refine hsubscribed.insertMembership huser hthere ?_
      -- no membership is of an organization that was not there
      apply membershipIn_eq_none_iff.mpr
      rintro m hm - heq
      obtain ⟨r, hr, hid⟩ := h.references.membershipOrganization.row hm rfl
      have hlt := db.organizations.fresh r hr
      have heq : m.val.organization = db.organizations.nextId := heq
      omega

/-- What an organization request leaves. -/
theorem Sound.organizationAction (h : Sound E db) {user : Nat} {now : Int} {a : OrganizationAction}
    {r : Response OrganizationPayload} (huser : ∃ u ∈ db.users.rows, u.id = user)
    (hview : organizationAction E db user now a = .ok (r, db')) : Sound E db' := by
  cases a with
  | create data =>
      obtain ⟨name, -, hview⟩ := bind_eq_ok.mp hview
      obtain ⟨⟨org, out⟩, hcreate, hview⟩ := bind_eq_ok.mp hview
      cases hview
      obtain ⟨slug, hinsert⟩ := createOrgWithOwner_eq_ok hcreate
      exact h.created huser hinsert
  | partialUpdate pk data =>
      obtain ⟨⟨org, role⟩, hget, hview⟩ := bind_eq_ok.mp hview
      obtain ⟨_, -, hview⟩ := bind_eq_ok.mp hview
      obtain ⟨name, -, hview⟩ := bind_eq_ok.mp hview
      cases hview
      obtain ⟨horg, -⟩ := getOrganization_eq_ok hget
      refine h.modifyOrganization (fun o ho hid => ?_) fun o _ _ => ?_
      · rw [db.organizations.eq_of_id_eq ho horg hid]
      · exact fun k hk => h.references.organizationCreator.row horg hk
  | destroy pk =>
      obtain ⟨⟨org, role⟩, -, hview⟩ := bind_eq_ok.mp hview
      obtain ⟨_, -, hview⟩ := bind_eq_ok.mp hview
      cases hview
      exact h.deleteOrganization org.id

/-- What a delivery leaves. The row it writes stays with its organization, on a plan that is
there. -/
theorem Sound.process (h : Sound E db) {d : Delivery} (hledger : ledgerRow db d.event.id = none)
    (hprocess : d.process db = .ok db') : Sound E db' := by
  have hrecorded : Sound E { db with
      webhookEvents := db.webhookEvents.insert (d.event.ledgerEntry d.now) } := by
    refine h.insertWebhookEvent fun r hr => ?_
    simpa [StripeEvent.ledgerEntry] using Table.first?_eq_none_iff.mp hledger r hr
  rcases Delivery.process_cases hprocess with ⟨-, rfl⟩ | ⟨sub, save, hdecision, rfl⟩
  · exact hrecorded
  · obtain ⟨hfind, -⟩ := StripeEvent.decision_eq_some hdecision
    have hsub := StripeEvent.mem_of_find hfind
    refine hrecorded.saveSubscription (fun s hs hid => ?_) fun s hs hid => ?_
    · obtain rfl := db.subscriptions.eq_of_id_eq hs hsub hid
      exact StripeEvent.decision_organization hdecision d.now
    · obtain rfl := db.subscriptions.eq_of_id_eq hs hsub hid
      obtain ⟨plan, hplan, hsaved⟩ := StripeEvent.decision_plan hdecision d.now
      rw [hsaved]
      cases plan with
      | none => exact h.references.subscriptionPlan.row hsub rfl
      | some plan =>
          have hthere : PlanThere db plan.id := ⟨plan, mem_of_namedPlan hplan, rfl⟩
          exact hthere

/-- **A request keeps the constraints.** -/
theorem Sound.step (h : Sound E db) (c : Call) : Sound E (c.step E db) := by
  by_cases horganization : ∃ a, c.request = .organization a
  · obtain ⟨a, hrequest⟩ := horganization
    simp only [Call.step, Call.respond, hrequest]
    refine authenticated_db_cases (Sound E) h fun user r db' hcaller hview => ?_
    obtain ⟨-, huser⟩ := authenticate_eq_some hcaller
    exact h.organizationAction ⟨user, huser, rfl⟩ hview
  · have horganizations : (c.step E db).organizations = db.organizations :=
      organizations_of_respond fun a hrequest => horganization ⟨a, hrequest⟩
    have hchange := c.change E db
    generalize c.step E db = db' at hchange horganizations ⊢
    cases hchange with
    | none => exact h
    | created _ huser hinsert => exact h.created huser hinsert
    | saved =>
        rw [show ({ db with organizations := _ } : Db) = db from
          congrArg (fun organizations => { db with organizations := organizations })
            horganizations]
        exact h
    | destroyed => exact h.deleteOrganization _
    | removed => exact h.deleteMembership _
    | roleSet => exact h.saveRole _ _
    | @invited user org actor new email _ _ horg hrole _ _ _ _ htoken =>
        obtain ⟨m, hmember, -⟩ := hrole
        obtain ⟨hm, rfl, -⟩ := mem_of_membershipIn hmember
        refine h.insertInvitation ⟨org, horg, rfl⟩ (forall_some ?_) htoken
        exact h.references.membershipUser.row hm rfl
    | expired => exact h.setInvitationStatus _ _
    | used => exact h.setInvitationStatus _ _
    | joined _ huser hi _ _ hmember =>
        refine (h.insertMembership (m := ⟨_, _, _, _⟩) ⟨_, huser, rfl⟩ ?_ hmember)
          |>.setInvitationStatus _ _
        exact h.references.invitationOrganization.row hi rfl
    | @projectCreated user header m p _ hmember horg hcreator =>
        obtain ⟨hm, huser⟩ := membership_of_isOrganizationMember hmember
        refine h.insertProject ?_ ?_
        · rw [horg]
          exact h.references.membershipOrganization.row hm rfl
        · rw [hcreator]
          exact forall_some (h.references.membershipUser.row hm (congrArg some huser))
    | @projectSaved user header m p name description _ _ hp _ _ =>
        refine h.modifyProject (fun _ _ _ => ?_) fun _ _ _ => ?_
        · exact h.references.projectOrganization.row hp rfl
        · exact fun k hk => h.references.projectCreator.row hp hk
    | projectDeleted => exact h.deleteProject _
    | registered hnew => exact h.insertUser hnew
    | @accountWritten user w =>
        refine h.modifyUser (h.unique.email.modify_same fun u => ?_)
        rw [w.apply_email]
    | customer =>
        refine h.saveSubscription (fun s hs _ => rfl) fun s hs _ => ?_
        exact h.references.subscriptionPlan.row hs rfl
    | delivered _ hledger hprocess => exact h.process hledger hprocess

end Requests

/-! ## The admin and the shell -/

section Admin

variable {E : Env} {db db' : Db}

/-- A membership that is clean: its keys name rows, and no other row has them both. -/
theorem fullClean_eq_nil {m : Row Membership} (h : fullClean db m = []) :
    (∃ u ∈ db.users.rows, u.id = m.val.user) ∧ OrganizationThere db m.val.organization ∧
      ∀ r ∈ db.memberships.rows, r.id ≠ m.id → r.val.user = m.val.user →
        r.val.organization ≠ m.val.organization := by
  obtain ⟨hclean, hconstraint⟩ := List.append_eq_nil_iff.mp h
  have hfields := (List.append_eq_nil_iff.mp hclean).1
  rw [hfields, List.isEmpty_nil, if_pos rfl] at hconstraint
  obtain ⟨huser, horg⟩ := List.append_eq_nil_iff.mp hfields
  refine ⟨?_, ?_, fun r hr hid hsame heq => ?_⟩
  · cases hget : db.users.get? m.val.user with
    | none => simp [hget] at huser
    | some u => exact ⟨u, Table.mem_of_get? hget, Table.id_of_get? hget⟩
  · cases hget : db.organizations.get? m.val.organization with
    | none => simp [hget] at horg
    | some o => exact ⟨o, Table.mem_of_get? hget, Table.id_of_get? hget⟩
  · unfold constraintErrors at hconstraint
    split at hconstraint
    · cases hconstraint
    · next hfree =>
      have hother := Table.any_eq_false_iff.mp (Bool.not_eq_true _ ▸ hfree) r hr
      simp [hid, hsame, heq] at hother

theorem Sound.editMembership (h : Sound E db) {pk user organization : Nat} {role : Role}
    (hok : editMembership db pk user organization role = .ok db') : Sound E db' := by
  unfold Bastiq.editMembership at hok
  split at hok
  · cases hok
    exact h
  · next current hget =>
    simp only at hok
    split at hok
    · next hclean =>
      cases hok
      obtain ⟨huser, horg, hfree⟩ := fullClean_eq_nil hclean
      exact h.saveInstance huser horg hfree
    · cases hok

theorem Sound.deleteInstance (h : Sound E db) {m : Row Membership}
    (hok : deleteInstance db m = .ok db') : Sound E db' := by
  unfold Bastiq.deleteInstance at hok
  split at hok
  · cases hok
  · cases hok
    exact h.deleteMembership _

/-- The entries of a valid submission that are saved: their users are there, no two of them name
one user, and no other row of the organization names one of theirs. -/
structure EntriesClean (org : Nat) (db : Db) (entries : List InlineEntry) : Prop where
  there : OrganizationThere db org
  users : ∀ e ∈ entries, e.delete = false → ∃ u ∈ db.users.rows, u.id = e.row.val.user
  apart : entries.Pairwise fun e e' =>
    e.delete = false → e'.delete = false → e.row.val.user ≠ e'.row.val.user
  free  : ∀ e ∈ entries, e.delete = false → ∀ r ∈ db.memberships.rows, r.id ≠ e.row.id →
    r.val.user = e.row.val.user → r.val.organization ≠ org
  stays : ∀ e ∈ entries, e.row.val.organization = org

/-- The entries after the first are as clean when it is done. -/
theorem EntriesClean.tail {org : Nat} {e : InlineEntry} {rest : List InlineEntry}
    (h : EntriesClean org db (e :: rest)) : EntriesClean org (e.apply db) rest := by
  obtain ⟨hfirst, hrest⟩ := List.pairwise_cons.mp h.apart
  have husers : (e.apply db).users = db.users := by
    unfold InlineEntry.apply
    split
    · rfl
    · rfl
  have horganizations : (e.apply db).organizations = db.organizations := by
    unfold InlineEntry.apply
    split
    · rfl
    · rfl
  refine ⟨?_, fun e' he' hkept => ?_, hrest, fun e' he' hkept r hr hid hsame => ?_,
    fun e' he' => h.stays e' (List.mem_cons_of_mem e he')⟩
  · unfold OrganizationThere
    rw [horganizations]
    exact h.there
  · rw [husers]
    exact h.users e' (List.mem_cons_of_mem e he') hkept
  · have hold := h.free e' (List.mem_cons_of_mem e he') hkept
    unfold InlineEntry.apply at hr
    split at hr
    · exact hold r (Table.mem_delete.mp hr).1 hid hsame
    · next hdelete =>
      rcases Table.mem_modify.mp hr with ⟨hr, -⟩ | ⟨s, -, -, rfl⟩
      · exact hold r hr hid hsame
      -- what the first entry saved names its own user
      · exact absurd hsame (hfirst e' he' (Bool.not_eq_true _ ▸ hdelete) hkept)

theorem Sound.saveExisting (h : Sound E db) {org : Nat} {entries : List InlineEntry}
    (hclean : EntriesClean org db entries) (hok : saveExisting db entries = .ok db') :
    Sound E db' := by
  induction entries generalizing db with
  | nil =>
      cases hok
      exact h
  | cons e rest ih =>
      rw [saveExisting_cons] at hok
      split at hok
      · cases hok
      · refine ih ?_ hclean.tail hok
        unfold InlineEntry.apply
        split
        · exact h.deleteMembership _
        · next hdelete =>
          have hkept : e.delete = false := Bool.not_eq_true _ ▸ hdelete
          have hstays := hclean.stays e List.mem_cons_self
          refine h.saveInstance (hclean.users e List.mem_cons_self hkept)
            (hstays ▸ hclean.there) fun r hr hid hsame => ?_
          rw [hstays]
          exact hclean.free e List.mem_cons_self hkept r hr hid hsame

theorem user_of_instance? {org : Nat} {f : InlineForm} {m : Row Membership}
    (h : f.instance? db org = some m) : m.val.user = f.user := by
  obtain ⟨r, -, rfl⟩ := Option.map_eq_some_iff.mp h
  rfl

/-- Forms that name different users have entries that do. -/
theorem pairwise_inlineEntries {org : Nat} {forms : List InlineForm}
    (h : ((forms.filter fun f => !f.delete).map InlineForm.user).Nodup) :
    (inlineEntries db org forms).Pairwise fun e e' =>
      e.delete = false → e'.delete = false → e.row.val.user ≠ e'.row.val.user := by
  induction forms with
  | nil => exact .nil
  | cons f forms ih =>
      have hrest : ((forms.filter fun f => !f.delete).map InlineForm.user).Nodup :=
        h.sublist (((List.sublist_cons_self f forms).filter _).map _)
      rw [inlineEntries, List.filterMap_cons]
      cases hm : f.instance? db org with
      | none => exact ih hrest
      | some m =>
          refine List.pairwise_cons.mpr ⟨fun e' he' hkept hkept' heq => ?_, ih hrest⟩
          have hkept : f.delete = false := hkept
          obtain ⟨f', hf', hdelete, hm'⟩ := mem_inlineEntries.mp he'
          rw [List.filter_cons_of_pos (by simp [hkept]), List.map_cons, List.nodup_cons] at h
          refine h.1 (List.mem_map.mpr ⟨f', List.mem_filter.mpr ⟨hf', ?_⟩, ?_⟩)
          · simp [hdelete, hkept']
          · rw [← user_of_instance? hm, ← user_of_instance? hm']
            exact heq.symm

theorem entriesClean_of_valid {org : Nat} {forms : List InlineForm}
    (hthere : OrganizationThere db org) (hvalid : formsetErrors db org forms = []) :
    EntriesClean org db (inlineEntries db org forms) := by
  simp only [formsetErrors] at hvalid
  split at hvalid
  · next herrors =>
    split at hvalid
    · next hnodup =>
      -- a form that is kept has a clean instance
      have hclean : ∀ e ∈ inlineEntries db org forms, e.delete = false →
          fullClean db e.row = [] := by
        intro e he hkept
        obtain ⟨f, hf, hdelete, hm⟩ := mem_inlineEntries.mp he
        have hnone := List.flatMap_eq_nil_iff.mp herrors f
          (List.mem_filter.mpr ⟨hf, by simp [hdelete, hkept]⟩)
        simpa [InlineForm.errors, hm] using hnone
      have hstays : ∀ e ∈ inlineEntries db org forms, e.row.val.organization = org := by
        intro e he
        obtain ⟨f, -, -, hm⟩ := mem_inlineEntries.mp he
        exact (instance?_eq_some hm).2.1
      refine ⟨hthere, fun e he hkept => (fullClean_eq_nil (hclean e he hkept)).1,
        pairwise_inlineEntries hnodup, fun e he hkept r hr hid hsame => ?_, hstays⟩
      rw [← hstays e he]
      exact (fullClean_eq_nil (hclean e he hkept)).2.2 r hr hid hsame
    · cases hvalid
  · next errors hne => exact absurd hvalid hne

theorem Sound.submitInline (h : Sound E db) {org : Nat} {formset : InlineFormset}
    (hok : submitInline db org formset = .ok db') : Sound E db' := by
  unfold Bastiq.submitInline at hok
  split at hok
  · cases hok
    exact h
  · next hsome =>
    split at hok
    · next hvalid =>
      have hthere : OrganizationThere db org := by
        cases hget : db.organizations.get? org with
        | none => simp [hget] at hsome
        | some o => exact ⟨o, Table.mem_of_get? hget, Table.id_of_get? hget⟩
      exact h.saveExisting (entriesClean_of_valid hthere hvalid) hok
    · cases hok

/-- An operation on memberships keeps the constraints. -/
theorem Sound.adminOp (h : Sound E db) (op : AdminOp) : Sound E (op.step db) := by
  unfold AdminOp.step
  split
  · next db' hok =>
    cases op with
    | edit pk user organization role => exact h.editMembership hok
    | delete m => exact h.deleteInstance hok
    | submit org formset => exact h.submitInline hok
    | deleteSelected pks =>
        cases hok
        exact h.deleteMembership _
    | deleteUser user =>
        cases hok
        exact h.deleteUser user
  · exact h

theorem userThere_of_userExists {user : Option Nat} (h : userExists db user = true) :
    UserThere db user := by
  rintro id rfl
  obtain ⟨u, hu⟩ := Option.isSome_iff_exists.mp h
  exact ⟨u, Table.mem_of_get? hu, Table.id_of_get? hu⟩

theorem organizationThere_of_isSome {org : Nat} (h : (db.organizations.get? org).isSome = true) :
    OrganizationThere db org := by
  obtain ⟨o, ho⟩ := Option.isSome_iff_exists.mp h
  exact ⟨o, Table.mem_of_get? ho, Table.id_of_get? ho⟩

theorem planForm_isValid {pk : Option Nat} {form : PlanForm} (h : form.isValid db pk = true) :
    ∀ p ∈ db.plans.rows, some p.id ≠ pk → p.val.code ≠ form.code := by
  simp only [PlanForm.isValid, Bool.and_eq_true, Bool.not_eq_true'] at h
  intro p hp hne heq
  have hother := Table.any_eq_false_iff.mp h.2 p hp
  simp [hne, heq] at hother

theorem subscriptionForm_isValid {pk : Option Nat} {form : SubscriptionForm}
    (h : form.isValid db pk = true) :
    OrganizationThere db form.organization ∧ PlanThere db form.plan ∧
      ∀ s ∈ db.subscriptions.rows, some s.id ≠ pk → s.val.organization ≠ form.organization := by
  simp only [SubscriptionForm.isValid, Bool.and_eq_true, Bool.not_eq_true'] at h
  obtain ⟨p, hp⟩ := Option.isSome_iff_exists.mp h.1.2
  refine ⟨organizationThere_of_isSome h.1.1, ⟨p, Table.mem_of_get? hp, Table.id_of_get? hp⟩,
    fun s hs hne heq => ?_⟩
  have hother := Table.any_eq_false_iff.mp h.2 s hs
  simp [hne, heq] at hother

/-! ### Form by form -/

theorem Sound.addUser (h : Sound E db) (email password salt : String) (now : Int) :
    Sound E (addUser E db email password salt now) := by
  unfold Bastiq.addUser
  split
  · next hvalid =>
    simp only [Bool.and_eq_true, Bool.not_eq_true'] at hvalid
    exact h.insertUser hvalid.2
  · exact h

theorem Sound.editUser (h : Sound E db) (user : Nat) (form : UserForm) :
    Sound E (editUser E db user form) := by
  unfold Bastiq.editUser
  split
  · next hvalid =>
    simp only [UserForm.isValid, Bool.and_eq_true, Bool.not_eq_true'] at hvalid
    have hfree := Table.any_eq_false_iff.mp hvalid.2
    refine h.modifyUser (h.unique.email.modify fun u hu hne v hv hid heq => ?_)
    have heq : E.lower u.val.email = E.lower form.email := heq
    have hother : E.iexact u.val.email form.email = false := by simpa [hne] using hfree u hu
    rw [Env.iexact_iff.mpr heq] at hother
    cases hother
  · exact h

theorem Sound.addOrganization (h : Sound E db) (form : OrganizationForm) (now : Int) :
    Sound E (addOrganization db form now) := by
  unfold Bastiq.addOrganization
  split
  · next hvalid =>
    simp only [OrganizationForm.isValid, Bool.and_eq_true, Bool.not_eq_true'] at hvalid
    have hslug := Table.any_eq_false_iff.mp hvalid.2
    refine (h.insertOrganization (userThere_of_userExists hvalid.1.2) fun r hr => ?_)
      |>.createFreeSubscription ⟨_, Table.mem_insert.mpr (.inr rfl), rfl⟩ now
    simpa using hslug r hr
  · exact h

theorem Sound.changeOrganization (h : Sound E db) (org : Nat) (form : OrganizationForm) :
    Sound E (changeOrganization db org form) := by
  unfold Bastiq.changeOrganization
  split
  · next hvalid =>
    simp only [OrganizationForm.isValid, Bool.and_eq_true] at hvalid
    exact h.modifyOrganization (fun _ _ _ => rfl) fun _ _ _ => userThere_of_userExists hvalid.2
  · exact h

theorem Sound.addMembership (h : Sound E db) (user organization : Nat) (role : Role) (now : Int) :
    Sound E (addMembership db user organization role now) := by
  simp only [Bastiq.addMembership]
  split
  · next hclean =>
    obtain ⟨huser, horg, hfree⟩ := fullClean_eq_nil hclean
    refine h.insertMembership huser horg (membershipIn_eq_none_iff.mpr fun r hr hsame => ?_)
    exact hfree r hr (Nat.ne_of_lt (db.memberships.fresh r hr)) hsame
  · exact h

/-- Rows for different users, none of whom is a member. -/
structure Joinable (org : Nat) (db : Db) (rows : List (Nat × Role)) : Prop where
  there : rows ≠ [] → OrganizationThere db org
  users : ∀ row ∈ rows, ∃ u ∈ db.users.rows, u.id = row.1
  apart : (rows.map Prod.fst).Nodup
  free  : ∀ row ∈ rows, membershipIn db row.1 org = none

theorem Sound.saveNew (h : Sound E db) {org : Nat} {rows : List (Nat × Role)} {now : Int}
    (hrows : Joinable org db rows) :
    Sound E (rows.foldl (fun db (user, role) =>
      Bastiq.insertMembership db ⟨user, org, role, now⟩) db) := by
  induction rows generalizing db with
  | nil => exact h
  | cons row rest ih =>
      obtain ⟨hother, hrest⟩ := List.nodup_cons.mp hrows.apart
      have hthere := hrows.there (List.cons_ne_nil row rest)
      refine ih (h.insertMembership (m := ⟨row.1, org, row.2, now⟩)
        (hrows.users row List.mem_cons_self) hthere (hrows.free row List.mem_cons_self))
        ⟨fun _ => hthere, fun row' hrow' => hrows.users row' (List.mem_cons_of_mem row hrow'),
          hrest, fun row' hrow' => membershipIn_eq_none_iff.mpr fun r hr hsame => ?_⟩
      rcases Table.mem_insert.mp hr with hr | rfl
      · have hfree := hrows.free row' (List.mem_cons_of_mem row hrow')
        exact membershipIn_eq_none_iff.mp hfree r hr hsame
      -- the row that was saved is another user's
      · exact absurd (List.mem_map.mpr ⟨row', hrow', hsame.symm⟩) hother

theorem Sound.addInline (h : Sound E db) (org : Nat) (rows : List (Nat × Role)) (now : Int) :
    Sound E (addInline db org rows now) := by
  simp only [Bastiq.addInline]
  split
  · next hvalid =>
    rw [Bool.and_eq_true, List.all_eq_true, decide_eq_true_iff] at hvalid
    obtain ⟨hclean, hapart⟩ := hvalid
    have hcleaned : ∀ row ∈ rows, (∃ u ∈ db.users.rows, u.id = row.1) ∧
        OrganizationThere db org ∧ membershipIn db row.1 org = none := by
      intro row hrow
      obtain ⟨huser, horg, hfree⟩ := fullClean_eq_nil (List.isEmpty_iff.mp (hclean row hrow))
      refine ⟨huser, horg, membershipIn_eq_none_iff.mpr fun r hr hsame => ?_⟩
      exact hfree r hr (Nat.ne_of_lt (db.memberships.fresh r hr)) hsame
    refine h.saveNew ⟨fun hne => ?_, fun row hrow => (hcleaned row hrow).1, hapart,
      fun row hrow => (hcleaned row hrow).2.2⟩
    obtain ⟨row, hrow⟩ := List.exists_mem_of_ne_nil rows hne
    exact (hcleaned row hrow).2.1
  · exact h

theorem Sound.changeInvitation (h : Sound E db) (invitation : Nat) (form : InvitationForm) :
    Sound E (changeInvitation E db invitation form) := by
  unfold Bastiq.changeInvitation
  split
  · next hvalid =>
    simp only [InvitationForm.isValid, Bool.and_eq_true] at hvalid
    exact h.modifyInvitation (fun _ => organizationThere_of_isSome hvalid.1.1.1)
      (fun _ => userThere_of_userExists hvalid.2) fun _ => rfl
  · exact h

theorem Sound.addProject (h : Sound E db) (form : ProjectForm) (now : Int) :
    Sound E (addProject db form now) := by
  unfold Bastiq.addProject
  split
  · next hvalid =>
    simp only [ProjectForm.isValid, Bool.and_eq_true] at hvalid
    exact h.insertProject (organizationThere_of_isSome hvalid.1.1.1.1)
      (userThere_of_userExists hvalid.2)
  · exact h

theorem Sound.changeProject (h : Sound E db) (project : Nat) (form : ProjectForm) :
    Sound E (changeProject db project form) := by
  unfold Bastiq.changeProject
  split
  · next hvalid =>
    simp only [ProjectForm.isValid, Bool.and_eq_true] at hvalid
    exact h.modifyProject (fun _ _ _ => organizationThere_of_isSome hvalid.1.1.1.1)
      fun _ _ _ => userThere_of_userExists hvalid.2
  · exact h

theorem Sound.addPlan (h : Sound E db) (form : PlanForm) : Sound E (addPlan db form) := by
  unfold Bastiq.addPlan
  split
  · next hvalid => exact h.insertPlan fun p hp => planForm_isValid hvalid p hp (by simp)
  · exact h

theorem Sound.changePlan (h : Sound E db) (plan : Nat) (form : PlanForm) :
    Sound E (changePlan db plan form) := by
  unfold Bastiq.changePlan
  split
  · next hvalid =>
    refine h.modifyPlan (h.unique.planCode.modify fun p hp hne q hq hid heq => ?_)
    exact planForm_isValid hvalid p hp (by simpa using hne) heq
  · exact h

theorem Sound.deletePlanUnlessProtected (h : Sound E db) (plan : Nat) :
    Sound E (Bastiq.deletePlan db plan) := by
  unfold Bastiq.deletePlan
  split
  · exact h
  · next hfree =>
    refine h.deletePlan fun s hs heq => ?_
    have hother := Table.any_eq_false_iff.mp (Bool.not_eq_true _ ▸ hfree) s hs
    simp [heq] at hother

theorem Sound.addSubscription (h : Sound E db) (form : SubscriptionForm) (now : Int) :
    Sound E (addSubscription db form now) := by
  unfold Bastiq.addSubscription
  split
  · next hvalid =>
    obtain ⟨horg, hplan, hfree⟩ := subscriptionForm_isValid hvalid
    exact h.insertSubscription horg hplan fun s hs => hfree s hs (by simp)
  · exact h

theorem Sound.changeSubscription (h : Sound E db) (subscription : Nat) (form : SubscriptionForm)
    (now : Int) : Sound E (changeSubscription db subscription form now) := by
  unfold Bastiq.changeSubscription
  split
  · next hvalid =>
    obtain ⟨horg, hplan, hfree⟩ := subscriptionForm_isValid hvalid
    refine h.modifySubscription (fun _ _ _ => horg) (fun _ _ _ => hplan) ?_
    exact h.unique.subscription.modify fun s hs hne _ _ _ => hfree s hs (by simpa using hne)
  · exact h

theorem Sound.addWebhookEvent (h : Sound E db) (now : Int) : Sound E (addWebhookEvent db now) := by
  unfold Bastiq.addWebhookEvent
  split
  · exact h
  · next hnone =>
    have hother := Table.any_eq_false_iff.mp (Bool.not_eq_true _ ▸ hnone)
    exact h.insertWebhookEvent fun r hr => by simpa using hother r hr

/-- A submitted form keeps the constraints. -/
theorem Sound.adminForm (h : Sound E db) (form : AdminForm) : Sound E (form.step E db) := by
  cases form with
  | addUser email password salt now => exact h.addUser email password salt now
  | changeUser user form => exact h.editUser user form
  | addOrganization form now => exact h.addOrganization form now
  | changeOrganization org form => exact h.changeOrganization org form
  | deleteOrganization org => exact h.deleteOrganization org
  | addMembership user organization role now => exact h.addMembership user organization role now
  | addInline org rows now => exact h.addInline org rows now
  | changeInvitation invitation form => exact h.changeInvitation invitation form
  | deleteInvitation invitation => exact h.deleteInvitation _
  | addProject form now => exact h.addProject form now
  | changeProject project form => exact h.changeProject project form
  | deleteProject project => exact h.deleteProject _
  | addPlan form => exact h.addPlan form
  | changePlan plan form => exact h.changePlan plan form
  | deletePlan plan => exact h.deletePlanUnlessProtected plan
  | addSubscription form now => exact h.addSubscription form now
  | changeSubscription subscription form now => exact h.changeSubscription subscription form now
  | deleteSubscription subscription => exact h.deleteSubscription _
  | addWebhookEvent now => exact h.addWebhookEvent now
  | deleteWebhookEvent event => exact h.deleteWebhookEvent _

end Admin

/-! ## The demo data -/

section Seed

variable {E : Env} {s : SeedRun} {db db' : Db}

theorem Sound.seedPlan (h : Sound E db) {spec : String × String × Limits}
    (hstep : seedPlan s spec db = .ok db') : Sound E db' := by
  obtain ⟨-, ⟨p, -, rfl⟩ | ⟨hnone, rfl⟩⟩ := seedPlan_eq_ok.mp hstep
  · exact h.modifyPlan (h.unique.planCode.modify_same fun _ => rfl)
  · refine h.insertPlan fun p hp => ?_
    simpa [SeedRun.planOf] using Table.first?_eq_none_iff.mp hnone p hp

theorem Sound.getOrCreateOrganization (h : Sound E db) (now : Int) :
    Sound E (getOrCreateOrganization db now).2 := by
  unfold Bastiq.getOrCreateOrganization
  split
  · exact h
  · next hnone =>
    refine (h.insertOrganization (o := ⟨"Acme Inc", demoSlug, none, now⟩) (fun _ hk => nomatch hk)
      fun r hr => ?_).createFreeSubscription ⟨_, Table.mem_insert.mpr (.inr rfl), rfl⟩ now
    simpa using Table.first?_eq_none_iff.mp hnone r hr

theorem Sound.getOrCreateUser (h : Sound E db) {d : DemoUser} {u : Row User}
    (hok : getOrCreateUser E s db d = .ok (u, db')) :
    Sound E db' ∧ u ∈ db'.users.rows ∧ (∀ v ∈ db.users.rows, v ∈ db'.users.rows) ∧
      db'.organizations = db.organizations := by
  unfold Bastiq.getOrCreateUser at hok
  split at hok
  · next user hfirst =>
    cases hok
    exact ⟨h, Table.mem_of_first? hfirst, fun v hv => hv, rfl⟩
  · split at hok
    · cases hok
    · next hfree =>
      cases hok
      exact ⟨h.insertUser (Bool.not_eq_true _ ▸ hfree), Table.mem_insert.mpr (.inr rfl),
        fun v hv => Table.mem_insert.mpr (.inl hv), rfl⟩

/-- What a turn of the loop over the users leaves: the constraints, the organization, and accounts
for the keys in the dictionary. -/
structure SeedSound (E : Env) (org : Nat) (st : SeedState) : Prop where
  sound : Sound E st.db
  there : OrganizationThere st.db org
  users : ∀ entry ∈ st.users, ∃ u ∈ st.db.users.rows, u.id = entry.2

theorem SeedSound.seedMember {st st' : SeedState} {org : Nat} {d : DemoUser}
    (h : SeedSound E org st) (hstep : seedMember E s org d st = .ok st') : SeedSound E org st' := by
  unfold Bastiq.seedMember at hstep
  split at hstep
  · cases hstep
  · next u found hok =>
    cases hstep
    obtain ⟨hfound, hu, hkeeps, horganizations⟩ := h.sound.getOrCreateUser hok
    have hsaved : Sound E { found with
        users := found.users.modify u.id (resetDemoUser E s d) } :=
      hfound.modifyUser (hfound.unique.email.modify_same fun _ => rfl)
    have hthere : OrganizationThere found org := by
      unfold OrganizationThere
      rw [horganizations]
      exact h.there
    have hkept : ∀ id, (∃ v ∈ found.users.rows, v.id = id) →
        ∃ v ∈ (found.users.modify u.id (resetDemoUser E s d)).rows, v.id = id := by
      rintro id ⟨v, hv, rfl⟩
      exact ⟨_, Table.mem_update.mpr ⟨v, hv, rfl⟩, Table.setRow_id _ _ _⟩
    have husers : ∀ entry ∈ (d.role, u.id) :: st.users,
        ∃ v ∈ (found.users.modify u.id (resetDemoUser E s d)).rows, v.id = entry.2 := by
      intro entry hentry
      rcases List.mem_cons.mp hentry with rfl | hentry
      · exact hkept u.id ⟨u, hu, rfl⟩
      · obtain ⟨v, hv, hid⟩ := h.users entry hentry
        exact hkept entry.2 ⟨v, hkeeps v hv, hid⟩
    rcases getOrCreateMembership_eq { found with
        users := found.users.modify u.id (resetDemoUser E s d) } u.id org d.role s.now with
      ⟨-, hdb⟩ | ⟨hnew, hdb⟩
    · simp only [hdb]
      exact ⟨hsaved, hthere, husers⟩
    · simp only [hdb]
      exact ⟨hsaved.insertMembership (m := ⟨_, _, _, _⟩) (hkept u.id ⟨u, hu, rfl⟩) hthere hnew,
        hthere, husers⟩

theorem Sound.setCreator (h : Sound E db) {org : Row Organization} {creator : Option Nat}
    (hcreator : UserThere db creator) : Sound E (setCreator org creator db) := by
  unfold Bastiq.setCreator
  split
  · exact h.modifyOrganization (fun _ _ _ => rfl) fun _ _ _ => hcreator
  · exact h

theorem Sound.seedProject (h : Sound E db) {org : Nat} {creator : Option Nat} {name : String}
    (horg : OrganizationThere db org) (hcreator : UserThere db creator)
    (hstep : seedProject s org creator name db = .ok db') :
    Sound E db' ∧ OrganizationThere db' org ∧ UserThere db' creator := by
  unfold Bastiq.seedProject at hstep
  split at hstep
  · cases hstep
    exact ⟨h.insertProject (p := ⟨_, _, _, _, _⟩) horg hcreator, horg, hcreator⟩
  · cases hstep
    exact ⟨h, horg, hcreator⟩
  · cases hstep

theorem Sound.seedDemo (h : Sound E db) (hrun : seedDemo E s db = .ok db') : Sound E db' := by
  obtain ⟨planned, st, hplans, hmembers, hprojects⟩ := seedDemo_eq_ok.mp hrun
  have hplanned : Sound E planned :=
    follow_keeps (fun spec _ _ _ hstep ht => ht.seedPlan hstep) hplans h
  have hfound := hplanned.getOrCreateOrganization s.now
  have hthere := Table.mem_of_first? (demoOrganization_getOrCreate planned s.now)
  generalize (Bastiq.getOrCreateOrganization planned s.now).1 = org at *
  generalize (Bastiq.getOrCreateOrganization planned s.now).2 = found at *
  have hst : SeedSound E org.id st := by
    refine follow_keeps (Q := SeedSound E org.id) ?_ hmembers
      ⟨hfound, ⟨org, hthere, rfl⟩, fun _ hentry => nomatch hentry⟩
    exact fun d _ t t' hstep ht => ht.seedMember hstep
  have hcreator : UserThere st.db (st.users.lookup .owner) := by
    intro id hid
    obtain ⟨pre, post, hlist, -⟩ := List.lookup_eq_some_iff.mp hid
    exact hst.users (.owner, id) (by simp [hlist])
  have horg : OrganizationThere (Bastiq.setCreator org (st.users.lookup .owner) st.db) org.id := by
    unfold Bastiq.setCreator
    split
    · obtain ⟨o, ho, hid⟩ := hst.there
      exact ⟨_, Table.mem_update.mpr ⟨o, ho, rfl⟩, (Table.setRow_id _ _ _).trans hid⟩
    · exact hst.there
  have hcreator' : UserThere (Bastiq.setCreator org (st.users.lookup .owner) st.db)
      (st.users.lookup .owner) := by
    rw [setCreator_eq]
    exact hcreator
  refine (follow_keeps (Q := fun t : Db => Sound E t ∧ OrganizationThere t org.id ∧
    UserThere t (st.users.lookup .owner)) ?_ hprojects
      ⟨hst.sound.setCreator hcreator, horg, hcreator'⟩).1
  rintro name - t t' hstep ⟨ht, horg, hcreator⟩
  exact ht.seedProject horg hcreator hstep

end Seed

/-! ## Everything that writes -/

inductive SystemEvent where
  | call (c : Call)
  | membership (op : AdminOp)
  | admin (form : AdminForm)
  | seed (s : SeedRun)

def SystemEvent.step (E : Env) (event : SystemEvent) (db : Db) : Db :=
  match event with
  | .call c => c.step E db
  | .membership op => op.step db
  | .admin form => form.step E db
  | .seed s => (DemoEvent.seed s).step E db

theorem sound_states (E : Env) (events : List SystemEvent) :
    States (SystemEvent.step E) (Sound E) Db.migrated events := by
  refine states_of_step (fun db event h => ?_) (sound_migrated E) events
  cases event with
  | call c => exact h.step c
  | membership op => exact h.adminOp op
  | admin form => exact h.adminForm form
  | seed s =>
      simp only [SystemEvent.step, DemoEvent.step]
      split
      · next db' hrun => exact h.seedDemo hrun
      · exact h

/-- **The constraints of the schema hold in every state** that requests, webhooks, the admin, the
shell and the demo command can bring about, in any order: every foreign key names a row, and every
unique key is one row's. -/
theorem constraints_hold (E : Env) (events : List SystemEvent) :
    States (SystemEvent.step E) (fun db => ForeignKeys db ∧ UniqueKeys E db) Db.migrated
      events :=
  (sound_states E events).mono fun _ h => ⟨h.references, h.unique⟩

end Bastiq
