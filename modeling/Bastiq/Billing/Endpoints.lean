import Bastiq.Billing.Checkout
import Bastiq.Billing.Ownership
import Bastiq.Integrity

/-!
# The billing endpoints of a member

The catalogue, the subscription of the active organization and the customer portal. What the
subscription endpoint shows is what the caps are enforced by, because every organization has exactly
one subscription, from the moment it is created and through everything that is asked of the API; and
what has once become a customer of Stripe stays one, so the portal does not close again.
-/

namespace Bastiq

open Relational View Transition

/-! ## The endpoints -/

/-- What `PlanSerializer` renders. -/
structure PlanData where
  code   : String
  name   : String
  limits : Limits
  deriving DecidableEq, Repr

/-- What `SubscriptionSerializer` renders. -/
structure SubscriptionData where
  plan             : Option PlanData
  status           : SubscriptionStatus
  currentPeriodEnd : Option Int
  updatedAt        : Int
  deriving DecidableEq, Repr

def Plan.serialize (p : Row Plan) : PlanData := ⟨p.val.code, p.val.name, p.val.limits⟩

def Subscription.serialize (db : Db) (s : Row Subscription) : SubscriptionData :=
  ⟨(db.plans.get? s.val.plan).map Plan.serialize, s.val.status, s.val.currentPeriodEnd,
    s.val.updatedAt⟩

/-- `PlansView`: the active plans, in the order of their keys. -/
def plansView (db : Db) : Response (List PlanData) :=
  ⟨200, .data ((db.plans.select (·.val.isActive)).map Plan.serialize)⟩

/-- `SubscriptionView.get` for an authenticated caller. -/
def subscriptionView (db : Db) (user : Nat) (header : Option String) :
    View SubscriptionData (Response SubscriptionData) := do
  let membership ← orElse (isOrganizationMember db user header) (forbidden notAMemberMessage)
  match subscriptionOf db membership.val.organization with
  | none => .ok ⟨404, .detail "No subscription for this organization."⟩
  | some sub => .ok ⟨200, .data (Subscription.serialize db sub)⟩

/-- Stripe, as the portal calls it. -/
structure PortalApi where
  /-- `STRIPE_SECRET_KEY` is set. -/
  configured    : Bool := true
  /-- The URL of a new session, or how `stripe.billing_portal.Session.create` fails. -/
  createSession : (customer : String) → Except Failure String

def noCustomerMessage : String := "No billing customer yet — subscribe first."

/-- `create_portal_session`, and the view's answer. -/
def portalResponse (stripe : PortalApi) (customer : String) : Response String :=
  if stripe.configured then
    match stripe.createSession customer with
    | .ok url => ⟨200, .data url⟩
    | .error _ => serverError
  else billingNotConfigured

/-- **`PortalView.post`** for an authenticated caller. -/
def portal (db : Db) (user : Nat) (header : Option String) (stripe : PortalApi) :
    View String (Response String) := do
  let membership ← orElse (isOrganizationMember db user header) (forbidden notAMemberMessage)
  require (membership.val.role == .owner) (forbidden ownerOnlyMessage)
  let sub ← orElse ((subscriptionOf db membership.val.organization).filter fun sub =>
    sub.val.stripeCustomerId != "") (badRequest noCustomerMessage)
  .ok (portalResponse stripe sub.val.stripeCustomerId)

/-! ## A subscription stays with its organization -/

section Kept

variable {E : Env} {db db' : Db}

/-- The row of the organization is still there, and what was a customer still is one. -/
def SubscriptionKept (s : Row Subscription) (db : Db) : Prop :=
  ∃ s' ∈ db.subscriptions.rows, s'.val.organization = s.val.organization ∧
    (s.val.stripeCustomerId ≠ "" → s'.val.stripeCustomerId ≠ "")

theorem SubscriptionKept.of_eq {s : Row Subscription} (hs : s ∈ db.subscriptions.rows)
    (heq : db'.subscriptions = db.subscriptions) : SubscriptionKept s db' :=
  ⟨s, heq ▸ hs, rfl, id⟩

/-- A row that is written keeps its organization, and a customer id that it had. -/
theorem subscriptionKept_modify {s : Row Subscription} (hs : s ∈ db.subscriptions.rows)
    {id : Nat} {f : Subscription → Subscription}
    (hsubs : db'.subscriptions = db.subscriptions.modify id f)
    (hf : s.id = id → (f s.val).organization = s.val.organization ∧
      (s.val.stripeCustomerId ≠ "" → (f s.val).stripeCustomerId ≠ "")) :
    SubscriptionKept s db' := by
  refine ⟨Table.setRow (·.id == id) f s, ?_, ?_⟩
  · rw [hsubs]
    exact Table.mem_update.mpr ⟨s, hs, rfl⟩
  · unfold Table.setRow
    split
    · next hid => exact hf (beq_iff_eq.mp hid)
    · exact ⟨rfl, fun h => h⟩

theorem getD_nonBlank {text : Option String} {old : String} (hold : old ≠ "") :
    (nonBlank text).getD old ≠ "" := by
  cases h : nonBlank text with
  | none => exact hold
  | some id => exact nonBlank_ne_blank h

/-- No event takes a customer id away. -/
theorem StripeEvent.decision_customer {event : StripeEvent} {sub : Row Subscription} {save : Save}
    (h : event.decision db = .ok (some (sub, save))) (now : Int)
    (hcustomer : sub.val.stripeCustomerId ≠ "") :
    (save.apply now sub.val).stripeCustomerId ≠ "" := by
  obtain ⟨-, plan, -, hd, hhd, hsave⟩ := decision_eq_some h
  rcases handler_cases hhd with ⟨-, rfl⟩ | ⟨-, rfl⟩ | ⟨-, rfl⟩ | ⟨-, rfl⟩
  · cases hsave
    exact getD_nonBlank hcustomer
  · obtain ⟨_, -, hsave⟩ := bind_eq_ok.mp hsave
    cases hsave
    exact hcustomer
  · cases hsave
    exact hcustomer
  · cases hsave
    exact hcustomer

/-- **A call keeps the subscription of an organization** that is there afterwards. -/
theorem Call.subscription_kept (E : Env) (c : Call) {s : Row Subscription}
    (hs : s ∈ db.subscriptions.rows) :
    SubscriptionKept s (c.step E db) ∨
      ∀ o ∈ (c.step E db).organizations.rows, o.id ≠ s.val.organization := by
  have hchange := c.change E db
  generalize c.step E db = db' at hchange ⊢
  cases hchange with
  | created _ _ hinsert =>
      obtain ⟨-, subs, rfl, hsubs⟩ := insertOrganization_eq_ok hinsert
      left
      refine ⟨s, ?_, rfl, id⟩
      show s ∈ subs.rows
      rw [hsubs]
      unfold createFreeSubscription
      split
      · exact Table.mem_insert.mpr (.inl hs)
      · exact hs
  | @destroyed user org _ _ =>
      by_cases horg : s.val.organization = org
      · right
        intro o ho hid
        have hkept := (Table.mem_delete.mp ho).2
        simp [hid, horg] at hkept
      · exact .inl ⟨s, Table.mem_delete.mpr ⟨hs, by simpa using horg⟩, rfl, id⟩
  | @customer sub customer hsub hblank =>
      left
      refine subscriptionKept_modify hs rfl fun hid => ⟨rfl, fun hold => ?_⟩
      obtain rfl := db.subscriptions.eq_of_id_eq hs (Table.mem_of_first? hsub) hid
      exact absurd hblank hold
  | @delivered d db' _ _ hprocess =>
      left
      rcases Delivery.process_cases hprocess with ⟨-, rfl⟩ | ⟨sub, save, hdecision, rfl⟩
      · exact ⟨s, hs, rfl, id⟩
      · obtain ⟨hfind, -⟩ := StripeEvent.decision_eq_some hdecision
        refine subscriptionKept_modify hs rfl fun hid => ?_
        obtain rfl := db.subscriptions.eq_of_id_eq hs (StripeEvent.mem_of_find hfind) hid
        exact ⟨StripeEvent.decision_organization hdecision d.now,
          StripeEvent.decision_customer hdecision d.now⟩
  | _ => exact .inl ⟨s, hs, rfl, id⟩

end Kept

/-! ## What becomes of organizations and subscriptions -/

/-- The Free plan is in the catalogue. -/
def HasFreePlan (db : Db) : Prop := ∃ p ∈ db.plans.rows, p.val.code = freePlanCode

def Subscribed (db : Db) (org : Nat) : Prop := ∃ s ∈ db.subscriptions.rows, s.val.organization = org

/-- What requests and boots leave of plans, organizations and subscriptions. -/
structure Evolves (db db' : Db) : Prop where
  free         : HasFreePlan db → HasFreePlan db'
  next         : db.organizations.nextId ≤ db'.organizations.nextId
  organization : ∀ o ∈ db'.organizations.rows, (∃ o' ∈ db.organizations.rows, o'.id = o.id) ∨
    (db.organizations.nextId ≤ o.id ∧ (HasFreePlan db → Subscribed db' o.id))
  subscription : ∀ s ∈ db.subscriptions.rows, s.val.organization < db.organizations.nextId →
    SubscriptionKept s db' ∨ ∀ o ∈ db'.organizations.rows, o.id ≠ s.val.organization

section Evolution

variable {E : Env} {s : SeedRun} {db db' : Db}

/-- A new organization has a subscription, where there is a Free plan. -/
theorem subscribed_createFreeSubscription (hfree : HasFreePlan db) (org : Nat) (now : Int) :
    Subscribed (createFreeSubscription db org now) org := by
  obtain ⟨p, hp, hcode⟩ := hfree
  unfold createFreeSubscription
  split
  · exact ⟨_, Table.mem_insert.mpr (.inr rfl), rfl⟩
  · next hnot =>
    cases hplan : freePlan db with
    | none => exact absurd (Table.first?_eq_none_iff.mp hplan p hp) (by simp [hcode])
    | some free =>
        cases hsub : subscriptionOf db org with
        | none => exact absurd hsub (hnot free hplan)
        | some sub =>
            have horg : sub.val.organization = org := by simpa using Table.pos_of_first? hsub
            exact ⟨sub, Table.mem_of_first? hsub, horg⟩

theorem mem_createFreeSubscription {sub : Row Subscription} (hsub : sub ∈ db.subscriptions.rows)
    (org : Nat) (now : Int) : sub ∈ (createFreeSubscription db org now).subscriptions.rows := by
  unfold createFreeSubscription
  split
  · exact Table.mem_insert.mpr (.inl hsub)
  · exact hsub

theorem organizations_back {f : Organization → Organization} {id : Nat} {o : Row Organization}
    (ho : o ∈ (db.organizations.modify id f).rows) :
    ∃ o' ∈ db.organizations.rows, o'.id = o.id := by
  obtain ⟨o', ho', rfl⟩ := Table.mem_update.mp ho
  exact ⟨o', ho', (Table.setRow_id _ _ _).symm⟩

theorem Call.evolves (E : Env) (c : Call) (db : Db) : Evolves db (c.step E db) := by
  have hkept : ∀ sub ∈ db.subscriptions.rows, sub.val.organization < db.organizations.nextId →
      SubscriptionKept sub (c.step E db) ∨
        ∀ o ∈ (c.step E db).organizations.rows, o.id ≠ sub.val.organization :=
    fun sub hsub _ => c.subscription_kept E hsub
  have hchange := c.change E db
  generalize c.step E db = db' at hchange hkept ⊢
  cases hchange with
  | @created user name slug org db' _ _ hinsert =>
      obtain ⟨horg, subs, rfl, hsubs⟩ := insertOrganization_eq_ok hinsert
      refine ⟨fun hfree => hfree, Nat.le_succ _, fun o ho => ?_, hkept⟩
      rcases Table.mem_insert.mp ho with ho | rfl
      · exact .inl ⟨o, ho, rfl⟩
      · right
        refine ⟨Nat.le_refl _, fun hfree => ?_⟩
        show ∃ sub ∈ subs.rows, sub.val.organization = db.organizations.nextId
        rw [hsubs, horg]
        have hcreated : HasFreePlan { db with
          organizations := db.organizations.insert ⟨name, slug, some user, c.ambient.now⟩ } := hfree
        exact subscribed_createFreeSubscription hcreated _ _
  | saved =>
      refine ⟨fun hfree => hfree, Nat.le_refl _, fun o ho => ?_, hkept⟩
      exact .inl (organizations_back ho)
  | destroyed =>
      refine ⟨fun hfree => hfree, Nat.le_refl _, fun o ho => ?_, hkept⟩
      exact .inl ⟨o, (Table.mem_delete.mp ho).1, rfl⟩
  | @delivered d db' _ _ hprocess =>
      obtain ⟨-, -, write, -, rfl⟩ := Delivery.process_eq_ok.mp hprocess
      exact ⟨fun hfree => hfree, Nat.le_refl _, fun o ho => .inl ⟨o, ho, rfl⟩, hkept⟩
  | _ => exact ⟨fun hfree => hfree, Nat.le_refl _, fun o ho => .inl ⟨o, ho, rfl⟩, hkept⟩

/-- Seeding the plans keeps those that are there, under their codes. -/
theorem hasFreePlan_of_seedPlan (h : follow (seedPlan s) defaultPlans db = .ok db')
    (hfree : HasFreePlan db) : HasFreePlan db' := by
  refine follow_keeps (Q := HasFreePlan) ?_ h hfree
  rintro spec - t t' hstep ⟨p, hp, hcode⟩
  obtain ⟨-, ⟨q, -, rfl⟩ | ⟨-, rfl⟩⟩ := seedPlan_eq_ok.mp hstep
  · refine ⟨_, Table.mem_update.mpr ⟨p, hp, rfl⟩, ?_⟩
    unfold Table.setRow
    split
    · exact hcode
    · exact hcode
  · exact ⟨p, Table.mem_insert.mpr (.inl hp), hcode⟩

/-- What touches neither the catalogue nor a subscription. -/
theorem Evolves.of_same (hplans : db'.plans = db.plans)
    (hsubscriptions : db'.subscriptions = db.subscriptions)
    (hnext : db'.organizations.nextId = db.organizations.nextId)
    (hback : ∀ o ∈ db'.organizations.rows, ∃ o' ∈ db.organizations.rows, o'.id = o.id) :
    Evolves db db' where
  free hfree := by
    rw [HasFreePlan, hplans]
    exact hfree
  next := hnext ▸ Nat.le_refl _
  organization o ho := .inl (hback o ho)
  subscription sub hsub _ := .inl (.of_eq hsub hsubscriptions)

theorem Evolves.refl (db : Db) : Evolves db db :=
  .of_same rfl rfl rfl fun o ho => ⟨o, ho, rfl⟩

theorem Evolves.trans {db'' : Db} (h : Evolves db db') (h' : Evolves db' db'') :
    Evolves db db'' where
  free hfree := h'.free (h.free hfree)
  next := Nat.le_trans h.next h'.next
  organization o ho := by
    rcases h'.organization o ho with ⟨o', ho', hid⟩ | ⟨hle, hsub⟩
    · rcases h.organization o' ho' with ⟨o₀, ho₀, hid₀⟩ | ⟨hle, hnew⟩
      · exact .inl ⟨o₀, ho₀, hid₀.trans hid⟩
      · refine .inr ⟨hid ▸ hle, fun hfree => ?_⟩
        obtain ⟨sub, hsub, horg⟩ := hnew hfree
        have hlt := db'.organizations.fresh o' ho'
        rcases h'.subscription sub hsub (horg ▸ hlt) with ⟨sub', hsub', horg', -⟩ | hgone
        · exact ⟨sub', hsub', by rw [horg', horg, hid]⟩
        · exact absurd (hid.symm.trans horg.symm) (hgone o ho)
    · exact .inr ⟨Nat.le_trans h.next hle, fun hfree => hsub (h.free hfree)⟩
  subscription sub hsub hlt := by
    rcases h.subscription sub hsub hlt with ⟨sub', hsub', horg, hcustomer⟩ | hgone
    · rcases h'.subscription sub' hsub' (horg ▸ Nat.lt_of_lt_of_le hlt h.next) with
        ⟨sub'', hsub'', horg', hcustomer'⟩ | hgone
      · exact .inl ⟨sub'', hsub'', horg'.trans horg, fun hne => hcustomer' (hcustomer hne)⟩
      · exact .inr (horg ▸ hgone)
    · right
      intro o ho heq
      rcases h'.organization o ho with ⟨o', ho', hid⟩ | ⟨hle, -⟩
      · exact hgone o' ho' (hid.trans heq)
      · -- keys are not used again
        have hnext := h.next
        omega

theorem getOrCreateOrganization_evolves (db : Db) (now : Int) :
    Evolves db (getOrCreateOrganization db now).2 := by
  unfold getOrCreateOrganization
  split
  · exact .refl db
  · let created : Db := { db with
      organizations := db.organizations.insert ⟨"Acme Inc", demoSlug, none, now⟩ }
    show Evolves db (createFreeSubscription created db.organizations.nextId now)
    have hsubscribed : HasFreePlan created → _ :=
      fun hfree => subscribed_createFreeSubscription hfree db.organizations.nextId now
    have hkept : ∀ sub ∈ created.subscriptions.rows, _ :=
      fun sub hsub => mem_createFreeSubscription hsub db.organizations.nextId now
    rw [createFreeSubscription_eq]
    refine ⟨fun hfree => hfree, Nat.le_succ _, fun o ho => ?_, fun sub hsub _ => ?_⟩
    · rcases Table.mem_insert.mp ho with ho | rfl
      · exact .inl ⟨o, ho, rfl⟩
      · exact .inr ⟨Nat.le_refl _, hsubscribed⟩
    · exact .inl ⟨sub, hkept sub hsub, rfl, id⟩

theorem setCreator_evolves (org : Row Organization) (creator : Option Nat) (db : Db) :
    Evolves db (setCreator org creator db) := by
  unfold setCreator
  split
  · exact .of_same rfl rfl rfl fun o ho => organizations_back ho
  · exact .refl db

theorem seedDemo_evolves (h : seedDemo E s db = .ok db') : Evolves db db' := by
  obtain ⟨planned, st, hplans, hmembers, hprojects⟩ := seedDemo_eq_ok.mp h
  obtain ⟨-, hplanned⟩ := follow_seedPlan hplans
  have hseeded : Evolves db planned := by
    refine ⟨hasFreePlan_of_seedPlan hplans, ?_, fun o ho => .inl ⟨o, ?_, rfl⟩,
      fun sub hsub _ => .inl (.of_eq hsub ?_)⟩
    · rw [hplanned]
    · rwa [hplanned] at ho
    · rw [hplanned]
  have hfound := hseeded.trans (getOrCreateOrganization_evolves planned s.now)
  refine hfound.trans ?_
  -- the rest touches users, memberships and projects
  have hst := follow_seedMember_eq hmembers
  have hjoined : Evolves (getOrCreateOrganization planned s.now).2 st.db := by
    rw [hst]
    exact .of_same rfl rfl rfl fun o ho => ⟨o, ho, rfl⟩
  have hset := hjoined.trans
    (setCreator_evolves (getOrCreateOrganization planned s.now).1 (st.users.lookup .owner) st.db)
  refine hset.trans ?_
  rw [(follow_seedProject hprojects).2]
  exact .of_same rfl rfl rfl fun o ho => ⟨o, ho, rfl⟩

theorem DemoEvent.evolves (E : Env) (event : DemoEvent) (db : Db) :
    Evolves db (event.step E db) := by
  cases event with
  | call c => exact c.evolves E db
  | seed s =>
      simp only [DemoEvent.step]
      split
      · next hrun => exact seedDemo_evolves hrun
      · exact .refl db

theorem Sound.demoEvent (h : Sound E db) (event : DemoEvent) : Sound E (event.step E db) := by
  cases event with
  | call c => exact h.step c
  | seed s =>
      simp only [DemoEvent.step]
      split
      · next hrun => exact h.seedDemo hrun
      · exact h

end Evolution

/-! ## What is shown is what is enforced -/

section Shown

variable {E : Env} {db db' : Db}

/-- Every organization has a subscription, and there is a Free plan for the next one. -/
structure Supplied (db : Db) : Prop where
  free       : HasFreePlan db
  subscribed : ∀ o ∈ db.organizations.rows, Subscribed db o.id

theorem Supplied.evolves (h : Supplied db) (hevolves : Evolves db db') : Supplied db' where
  free := hevolves.free h.free
  subscribed o ho := by
    rcases hevolves.organization o ho with ⟨o', ho', hid⟩ | ⟨-, hnew⟩
    · obtain ⟨sub, hsub, horg⟩ := h.subscribed o' ho'
      have hlt := db.organizations.fresh o' ho'
      rcases hevolves.subscription sub hsub (horg ▸ hlt) with ⟨sub', hsub', horg', -⟩ | hgone
      · exact ⟨sub', hsub', by rw [horg', horg, hid]⟩
      · exact absurd (hid.symm.trans horg.symm) (hgone o ho)
    · exact hnew h.free

/-- The subscription of an organization is the one row that it has. -/
theorem UniqueKeys.subscriptionOf_eq_some_iff (h : UniqueKeys E db) {org : Nat}
    {sub : Row Subscription} : subscriptionOf db org = some sub ↔
      sub ∈ db.subscriptions.rows ∧ sub.val.organization = org :=
  h.subscription.first?_eq_some_iff

/-- One row of the subscriptions, and no other, is the organization's, and it is on a plan that is
there; that plan's limits are the caps, and the members are shown the plan. -/
def ReportsCaps (db : Db) (o : Row Organization) : Prop :=
  ∃ sub ∈ db.subscriptions.rows, ∃ plan,
    (∀ s ∈ db.subscriptions.rows, s.val.organization = o.id ↔ s = sub) ∧
    db.plans.get? sub.val.plan = some plan ∧
    (∀ key, limit db o.id key = plan.val.limits.get key) ∧
    ∀ user header m, isOrganizationMember db user header = some m → m.val.organization = o.id →
      subscriptionView db user header = .ok ⟨200, .data
        ⟨some (Plan.serialize plan), sub.val.status, sub.val.currentPeriodEnd,
          sub.val.updatedAt⟩⟩

theorem Sound.reportsCaps (h : Sound E db) {o : Row Organization} (ho : Subscribed db o.id) :
    ReportsCaps db o := by
  obtain ⟨sub, hsub, horg⟩ := ho
  obtain ⟨plan, hplan, hid⟩ := h.references.subscriptionPlan.row hsub rfl
  have hget : db.plans.get? sub.val.plan = some plan := Table.get?_eq_some_iff.mpr ⟨hplan, hid⟩
  have hof := h.unique.subscriptionOf_eq_some_iff.mpr ⟨hsub, horg⟩
  refine ⟨sub, hsub, plan, fun s hs => ⟨fun hs_org => ?_, fun heq => heq ▸ horg⟩, hget,
    fun key => ?_, fun user header m hm hm_org => ?_⟩
  · exact h.unique.subscription s hs sub hsub (hs_org.trans horg.symm)
  · simp only [limit, hof, hget]
  · have hview : subscriptionView db user header =
        .ok ⟨200, .data (Subscription.serialize db sub)⟩ := by
      unfold subscriptionView
      rw [hm]
      show (match subscriptionOf db m.val.organization with
        | none => _
        | some sub => _) = _
      rw [hm_org, hof]
    rw [hview, Subscription.serialize, hget]
    rfl

/-- **What the subscription endpoint shows is what the caps are enforced by.** In every state that
requests, webhooks and boots can bring about, every organization has one subscription, on a plan
that is there; a member is shown that plan, and its limits are the caps. -/
theorem subscription_reports_caps (E : Env) (events : List DemoEvent) :
    States (DemoEvent.step E) (fun db => ∀ o ∈ db.organizations.rows, ReportsCaps db o)
      Db.migrated events := by
  have hstates : States (DemoEvent.step E) (fun db => Sound E db ∧ Supplied db) Db.migrated
      events := by
    refine states_of_step ?_ ⟨sound_migrated E, ?_, fun o ho => nomatch ho⟩ events
    · rintro db event ⟨hsound, hsupplied⟩
      exact ⟨hsound.demoEvent event, hsupplied.evolves (event.evolves E db)⟩
    · unfold HasFreePlan
      decide
  refine hstates.mono ?_
  rintro db ⟨hsound, hsupplied⟩ o ho
  exact hsound.reportsCaps (hsupplied.subscribed o ho)

end Shown

/-! ## The portal -/

section Portal

variable {E : Env} {db db' : Db}

/-- Whatever organization has this key has a subscription that is a customer of Stripe, and no other
organization will ever have the key. -/
structure Paying (org : Nat) (db : Db) : Prop where
  used     : org < db.organizations.nextId
  customer : ∀ o ∈ db.organizations.rows, o.id = org →
    ∃ sub ∈ db.subscriptions.rows, sub.val.organization = org ∧ sub.val.stripeCustomerId ≠ ""

theorem Paying.evolves {org : Nat} (h : Paying org db) (hevolves : Evolves db db') :
    Paying org db' where
  used := Nat.lt_of_lt_of_le h.used hevolves.next
  customer o ho hid := by
    have hused := h.used
    rcases hevolves.organization o ho with ⟨o', ho', hid'⟩ | ⟨hle, -⟩
    · obtain ⟨sub, hsub, horg, hcustomer⟩ := h.customer o' ho' (hid'.trans hid)
      rcases hevolves.subscription sub hsub (horg ▸ hused) with
        ⟨sub', hsub', horg', hcustomer'⟩ | hgone
      · exact ⟨sub', hsub', horg'.trans horg, hcustomer' hcustomer⟩
      · exact absurd (hid.trans horg.symm) (hgone o ho)
    · omega

theorem refused_of_purchasablePlan {β : Type} {data : RequestData} (r : Response β)
    (h : purchasablePlan db data = .error r) : 400 ≤ r.status := by
  refine refused_bind (fun r h => ?_) (fun code r h => ?_) r h
  · refine refused_bind (fun r => refused_of_bodyFields) (fun fields r h => ?_) r h
    split at h
    · cases h
    · cases h
      exact Nat.le_refl 400
  · split at h
    · cases h
      show 400 ≤ 500
      omega
    · cases h
      exact Nat.le_refl 400
    · refine refused_bind (refused_require (Nat.le_refl 400)) (fun _ r h => ?_) r h
      cases h

/-- A checkout raises nothing but errors. -/
theorem refused_of_checkout {user : Nat} {header : Option String} {data : RequestData}
    {stripe : StripeApi} (r : Response String)
    (h : checkout db user header data stripe = .error r) : 400 ≤ r.status := by
  refine refused_bind (refused_orElse (by decide)) (fun m r h => ?_) r h
  refine refused_bind (refused_require (by decide)) (fun _ r h => ?_) r h
  refine refused_bind refused_of_purchasablePlan (fun plan r h => ?_) r h
  refine refused_bind (refused_orElse (by decide)) (fun sub r h => ?_) r h
  split at h
  · cases h
    show 400 ≤ 503
    omega
  · split at h
    · cases h
      show 400 ≤ 500
      omega
    · cases h

/-- Making sure of a customer does. -/
theorem subscriptionOf_ensureCustomer {org : Nat} {sub : Row Subscription}
    {create : Except Failure String} {customer : String} (hsub : subscriptionOf db org = some sub)
    (hcreate : create ≠ .ok "") (h : ensureCustomer db sub create = .ok (customer, db')) :
    ∃ sub', subscriptionOf db' org = some sub' ∧ sub'.val.stripeCustomerId ≠ "" := by
  unfold ensureCustomer at h
  split at h
  · next hpaying =>
    cases h
    exact ⟨sub, hsub, by simpa using hpaying⟩
  · obtain ⟨customer', hcustomer, h⟩ := bind_eq_ok.mp h
    split at h
    · cases h
      rw [subscriptionOf_saveCustomer, hsub]
      refine ⟨_, rfl, ?_⟩
      rw [Table.setRow_of_pos (beq_self_eq_true sub.id)]
      rintro rfl
      exact hcreate hcustomer
    · cases h

/-- A checkout that is answered 200 leaves a customer of Stripe. -/
theorem customer_of_checkout {user : Nat} {header : Option String} {data : RequestData}
    {stripe : StripeApi} {m : Row Membership} {r : Response String}
    (hm : isOrganizationMember db user header = some m) (hcreate : stripe.createCustomer ≠ .ok "")
    (hview : checkout db user header data stripe = .ok (r, db')) :
    ∃ sub, subscriptionOf db' m.val.organization = some sub ∧ sub.val.stripeCustomerId ≠ "" := by
  obtain ⟨m', hm', hview⟩ := bind_eq_ok.mp hview
  obtain rfl : m' = m := by
    rw [orElse_eq_ok, hm] at hm'
    exact (Option.some.inj hm').symm
  obtain ⟨_, -, hview⟩ := bind_eq_ok.mp hview
  obtain ⟨plan, -, hview⟩ := bind_eq_ok.mp hview
  obtain ⟨sub, hsub, hview⟩ := bind_eq_ok.mp hview
  split at hview
  · cases hview
  · split at hview
    · cases hview
    · next customer found hensure =>
      cases hview
      exact subscriptionOf_ensureCustomer (orElse_eq_ok.mp hsub) hcreate hensure

/-- A call that checks out. -/
def checkoutCall (user : Nat) (header : Option String) (data : RequestData) (stripe : StripeApi)
    (A : Ambient) : Call := ⟨some user, .checkout header data stripe, A⟩

theorem customer_of_checkoutCall {user : Nat} {header : Option String} {data : RequestData}
    {stripe : StripeApi} {A : Ambient} {m : Row Membership}
    (hm : isOrganizationMember db user header = some m) (hcreate : stripe.createCustomer ≠ .ok "")
    (hanswer : ((checkoutCall user header data stripe A).respond E db).1 = 200) :
    ∃ sub, subscriptionOf ((checkoutCall user header data stripe A).step E db)
      m.val.organization = some sub ∧ sub.val.stripeCustomerId ≠ "" := by
  simp only [Call.step, Call.respond, checkoutCall, authenticated] at hanswer ⊢
  split at hanswer
  · cases hanswer
  · next u hu =>
    obtain ⟨hid, -⟩ := authenticate_eq_some hu
    obtain rfl := Option.some.inj hid
    cases hview : checkout db u.id header data stripe with
    | error r =>
        rw [hview] at hanswer
        have hrefused := refused_of_checkout r hview
        have hstatus : r.status = 200 := hanswer
        omega
    | ok out => exact customer_of_checkout hm hcreate hview

/-- **The portal stays open.** Once a checkout for an organization has been answered 200, its Owners
are asked to subscribe first no more, whatever else happens: every request of theirs for the portal
reaches Stripe with a customer, for as long as the organization is there. -/
theorem portal_stays_open (E : Env) (before after : List DemoEvent) (user : Nat)
    (header : Option String) (data : RequestData) (stripe : StripeApi) (A : Ambient)
    (m : Row Membership)
    (hm : isOrganizationMember (run (DemoEvent.step E) Db.migrated before) user header = some m)
    (hcreate : stripe.createCustomer ≠ .ok "")
    (hanswer : ((checkoutCall user header data stripe A).respond E
      (run (DemoEvent.step E) Db.migrated before)).1 = 200) :
    States (DemoEvent.step E) (fun db => ∀ owner header' m',
      isOrganizationMember db owner header' = some m' →
      m'.val.organization = m.val.organization → m'.val.role = .owner →
      ∃ customer, customer ≠ "" ∧ ∀ stripe', portal db owner header' stripe' =
        .ok (portalResponse stripe' customer))
      ((checkoutCall user header data stripe A).step E (run (DemoEvent.step E) Db.migrated before))
      after := by
  have hstep : ∀ db event, Sound E db → Sound E (DemoEvent.step E event db) :=
    fun db event h => h.demoEvent event
  have hsound := (states_of_step hstep (sound_migrated E) before).last
  generalize run (DemoEvent.step E) Db.migrated before = db at *
  have hsound' := hsound.step (checkoutCall user header data stripe A)
  have hnext := (checkoutCall user header data stripe A).evolves E db |>.next
  have hused : m.val.organization < db.organizations.nextId := by
    obtain ⟨o, ho, hid⟩ :=
      hsound.references.membershipOrganization.row (mem_of_isOrganizationMember hm) rfl
    exact hid ▸ db.organizations.fresh o ho
  have hpaying : Paying m.val.organization
      ((checkoutCall user header data stripe A).step E db) := by
    refine ⟨Nat.lt_of_lt_of_le hused hnext, fun o ho hid => ?_⟩
    obtain ⟨sub, hsub, hcustomer⟩ := customer_of_checkoutCall hm hcreate hanswer
    have horg : sub.val.organization = m.val.organization := by
      simpa using Table.pos_of_first? hsub
    exact ⟨sub, Table.mem_of_first? hsub, horg, hcustomer⟩
  have hkeep : ∀ db event, Sound E db ∧ Paying m.val.organization db →
      Sound E (DemoEvent.step E event db) ∧ Paying m.val.organization (DemoEvent.step E event db) :=
    fun db event h => ⟨h.1.demoEvent event, h.2.evolves (event.evolves E db)⟩
  refine (states_of_step hkeep ⟨hsound', hpaying⟩ after).mono ?_
  rintro db ⟨hsound, hpaying⟩ owner header' m' hm' horg howner
  obtain ⟨o, ho, hid⟩ :=
    hsound.references.membershipOrganization.row (mem_of_isOrganizationMember hm') rfl
  obtain ⟨sub, hsub, hsub_org, hcustomer⟩ := hpaying.customer o ho (hid.trans horg)
  have hof := hsound.unique.subscriptionOf_eq_some_iff.mpr ⟨hsub, hsub_org.trans horg.symm⟩
  refine ⟨sub.val.stripeCustomerId, hcustomer, fun stripe' => ?_⟩
  unfold portal
  rw [hm']
  show ((require (m'.val.role == .owner) (forbidden ownerOnlyMessage) : View String Unit) >>=
    fun _ => _) = _
  rw [howner]
  show (orElse _ _ >>= fun sub => _) = _
  rw [hof, Option.filter_some, if_pos (by simpa using hcustomer)]
  rfl

/-- Olivia, who owns Acme Inc, buys the Pro plan after the first boot. -/
def oliviaBuys : Call :=
  checkoutCall 1 (some "1") (.json (.obj [("plan_code", .str "pro")]))
    { createCustomer := .ok "cus_1", createSession := fun _ _ _ _ => .ok "https://stripe" }
    ⟨5, "n", true⟩

theorem portal_at_second_boot :
    ∃ customer, customer ≠ "" ∧ ∀ stripe',
      portal (run (DemoEvent.step Env.ascii) (oliviaBuys.step Env.ascii atFirstBoot)
        [.seed (bootAt 10)]) 1 (some "1") stripe' = .ok (portalResponse stripe' customer) :=
  (portal_stays_open Env.ascii [.seed (bootAt 0)] [.seed (bootAt 10)] 1 (some "1") _ _ _
    ⟨1, 1, 1, .owner, 0⟩ (by decide) (by decide) (by decide)).last 1 (some "1")
      ⟨1, 1, 1, .owner, 0⟩ (by decide) rfl rfl

end Portal

end Bastiq
