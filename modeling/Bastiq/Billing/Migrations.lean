import Bastiq.Billing.Endpoints
import Bastiq.Reads

/-!
# Billing comes to organizations that are there

The migrations of the billing app seed the plans and give a Free subscription to every organization
that was created before there was one to give. They are run, and taken back, on an installation that
is in use: before, between and after them organizations are created and deleted, Stripe delivers its
events, and boots seed the catalogue again. Whatever the order, an organization has its subscription
once the migrations are applied, and no migration moves a cap.
-/

namespace Bastiq

open Relational View Transition

/-! ## The migrations -/

/-- `seed_plans` of `0002_seed_plans`, for one plan of `PLANS`: `Plan.objects.update_or_create`. -/
def migratePlan (spec : String × String × Limits) (db : Db) : Db :=
  match db.plans.first? (·.val.code == spec.1) with
  | some p => { db with
      plans := db.plans.modify p.id fun plan =>
        { plan with name := spec.2.1, limits := spec.2.2, isActive := true } }
  | none => { db with plans := db.plans.insert ⟨spec.1, spec.2.1, "", spec.2.2, true⟩ }

/-- **`seed_plans`** of `0002_seed_plans`. -/
def seedPlans (db : Db) : Db := run migratePlan db defaultPlans

/-- `code__in=PLANS.keys()`. -/
def isDefaultPlan (p : Row Plan) : Bool := (defaultPlans.map Prod.fst).contains p.val.code

/-- **`unseed_plans`**. `ProtectedError` where a subscription is on one of the plans. -/
def unseedPlans (db : Db) : Except Failure Db :=
  if db.subscriptions.any fun s => (db.plans.select isDefaultPlan).any (·.id == s.val.plan) then
    .error .integrityError
  else .ok { db with plans := db.plans.delete isDefaultPlan }

/-- What a run of the migrations finds outside the database: the clock, and the order in which the
rows of a result come, which depends on the collation. -/
structure MigrationRun where
  now     : Row Organization → Int
  ordered : List (Row Organization) → List (Row Organization)
  perm    : ∀ rows, (ordered rows).Perm rows

/-- `Subscription.objects.get_or_create(organization=org, defaults={"plan": free})`. -/
def backfillOrganization (free : Row Plan) (m : MigrationRun) (org : Row Organization) (db : Db) :
    Db :=
  match subscriptionOf db org.id with
  | some _ => db
  | none =>
      let subscription : Subscription :=
        { organization := org.id, plan := free.id, updatedAt := m.now org }
      { db with subscriptions := db.subscriptions.insert subscription }

/-- `Organization.objects.filter(subscription__isnull=True)`. -/
def unsubscribed (db : Db) : List (Row Organization) :=
  db.organizations.select fun org => (subscriptionOf db org.id).isNone

/-- **`backfill`** of `0003_backfill_subscriptions`. -/
def backfill (m : MigrationRun) (db : Db) : Db :=
  match freePlan db with
  | none => db
  | some free => run (backfillOrganization free m) db (m.ordered (unsubscribed db))

/-- The migrations of the billing app. -/
inductive BillingMigration where
  | initial
  | seedPlans
  | backfillSubscriptions
  deriving DecidableEq, Repr

/-- A database, and the last migration that is applied to it. -/
structure Installation where
  db   : Db
  last : BillingMigration

/-- What happens to an installation: it is used, the next migration is applied, or the last one is
taken back. `0001_initial` stays, as without its tables nothing runs. -/
inductive InstallationEvent where
  | used (event : DemoEvent)
  | forwards (m : MigrationRun)
  | backwards

/-- A migration that fails leaves everything as it was. -/
def InstallationEvent.step (E : Env) (event : InstallationEvent) (i : Installation) :
    Installation :=
  match event with
  | .used event => { i with db := event.step E i.db }
  | .forwards m =>
      match i.last with
      | .initial => ⟨Bastiq.seedPlans i.db, .seedPlans⟩
      | .seedPlans => ⟨backfill m i.db, .backfillSubscriptions⟩
      | .backfillSubscriptions => i
  | .backwards =>
      match i.last with
      | .initial => i
      | .seedPlans =>
          match unseedPlans i.db with
          | .ok db => ⟨db, .initial⟩
          | .error _ => i
      -- `migrations.RunPython.noop`
      | .backfillSubscriptions => { i with last := .seedPlans }

/-- A database to which billing has just come: `0001_initial` has made empty tables. -/
structure Unbilled (E : Env) where
  db            : Db
  sound         : Sound E db
  plans         : db.plans = .empty
  subscriptions : db.subscriptions = .empty

/-- The installation that it is. -/
def Unbilled.installation {E : Env} (b : Unbilled E) : Installation := ⟨b.db, .initial⟩

/-- Any database, with the billing tables dropped and made anew. -/
def Sound.unbilled {E : Env} {db : Db} (h : Sound E db) : Unbilled E where
  db := { db with plans := .empty, subscriptions := .empty, webhookEvents := .empty }
  sound := {
    references := { h.references with
      subscriptionOrganization := nofun
      subscriptionPlan := nofun }
    unique := { h.unique with
      planCode := nofun
      subscription := nofun
      event := nofun } }
  plans := rfl
  subscriptions := rfl

/-! ## The catalogue and the caps -/

/-- Every plan has a code of the catalogue, and the limits that the catalogue gives it. -/
def Catalogued (db : Db) : Prop :=
  ∀ p ∈ db.plans.rows, ∃ spec ∈ defaultPlans, p.val.code = spec.1 ∧ p.val.limits = spec.2.2

/-- `db'` has the caps of `db`, for organizations that are there and for all others. -/
def SameCaps (db db' : Db) : Prop := ∀ org key, limit db' org key = limit db org key

theorem SameCaps.trans {db db' db'' : Db} (h : SameCaps db db') (h' : SameCaps db' db'') :
    SameCaps db db'' :=
  fun org key => (h' org key).trans (h org key)

section Caps

variable {E : Env} {s : SeedRun} {db db' : Db} {spec : String × String × Limits}

theorem sameCaps_of_eq (hsubs : db'.subscriptions = db.subscriptions)
    (hplans : db'.plans = db.plans) : SameCaps db db' := by
  intro org key
  apply limit_congr
  · rw [subscriptionOf, hsubs, subscriptionOf]
  · exact hplans

/-- Where the plans that subscriptions are on keep their limits, the caps stay. -/
theorem sameCaps_of_limits (hsubs : db'.subscriptions = db.subscriptions)
    (hplans : ∀ s ∈ db.subscriptions.rows, (db'.plans.get? s.val.plan).map (·.val.limits) =
      (db.plans.get? s.val.plan).map (·.val.limits)) : SameCaps db db' := by
  intro org key
  have hof : subscriptionOf db' org = subscriptionOf db org := by
    rw [subscriptionOf, hsubs, subscriptionOf]
  unfold limit
  rw [hof]
  cases hsub : subscriptionOf db org with
  | none => rfl
  | some sub =>
      have hlimits := hplans sub (Table.mem_of_first? hsub)
      show (match db'.plans.get? sub.val.plan with
        | none => _
        | some p => _) = (match db.plans.get? sub.val.plan with
        | none => _
        | some p => _)
      cases h : db.plans.get? sub.val.plan with
      | none =>
          rw [h, Option.map_none, Option.map_eq_none_iff] at hlimits
          rw [hlimits]
      | some p =>
          rw [h, Option.map_some, Option.map_eq_some_iff] at hlimits
          obtain ⟨p', hp', heq⟩ := hlimits
          rw [hp']
          show p'.val.limits.get key = p.val.limits.get key
          rw [heq]

/-- The catalogue has one entry for each code. -/
theorem Catalogued.limits_eq (h : Catalogued db) {p : Row Plan} (hp : p ∈ db.plans.rows)
    (hspec : spec ∈ defaultPlans) (hcode : p.val.code = spec.1) : p.val.limits = spec.2.2 := by
  obtain ⟨spec', hspec', hcode', hlimits⟩ := h p hp
  have heq : spec' = spec := by
    by_contra hne
    exact code_ne_of_ne hspec' hspec hne (hcode'.symm.trans hcode)
  rw [hlimits, heq]

/-- Seeding a plan again writes the limits that it has. -/
theorem Catalogued.seedPlan (h : Catalogued db) (hsound : Sound E db) (hspec : spec ∈ defaultPlans)
    (hstep : seedPlan s spec db = .ok db') : Catalogued db' ∧ SameCaps db db' := by
  obtain ⟨-, ⟨p, hp, rfl⟩ | ⟨hnone, rfl⟩⟩ := seedPlan_eq_ok.mp hstep
  · have hrow := Table.mem_of_first? hp
    have hcode : p.val.code = spec.1 := by simpa using Table.pos_of_first? hp
    have hkept : ∀ r ∈ db.plans.rows, r.id = p.id → r.val.limits = spec.2.2 := by
      intro r hr hid
      rw [db.plans.eq_of_id_eq hr hrow hid]
      exact h.limits_eq hrow hspec hcode
    constructor
    · intro r' hr'
      rcases Table.mem_modify.mp hr' with ⟨hr, -⟩ | ⟨r, hr, hid, rfl⟩
      · exact h r' hr
      · rw [db.plans.eq_of_id_eq hr hrow hid]
        exact ⟨spec, hspec, hcode, rfl⟩
    · refine sameCaps_of_limits rfl fun sub _ => ?_
      show ((db.plans.modify p.id (s.planOf spec)).get? sub.val.plan).map _ = _
      rw [Table.get?, Table.first?_modify _ fun _ _ _ => rfl, Option.map_map]
      refine Option.map_congr fun r hr => ?_
      show (Table.setRow (·.id == p.id) (s.planOf spec) r).val.limits = r.val.limits
      unfold Table.setRow
      split
      · next hid => exact (hkept r (Table.mem_of_first? hr) (by simpa using hid)).symm
      · rfl
  · constructor
    · intro r hr
      rcases Table.mem_insert.mp hr with hr | rfl
      · exact h r hr
      · exact ⟨spec, hspec, rfl, rfl⟩
    · refine sameCaps_of_limits rfl fun sub hsub => ?_
      obtain ⟨p, hp, hid⟩ := hsound.references.subscriptionPlan.row hsub rfl
      have hget : db.plans.get? sub.val.plan = some p := Table.get?_eq_some_iff.mpr ⟨hp, hid⟩
      rw [hget]
      exact congrArg _ (Table.first?_insert_of_some _ hget)

theorem Catalogued.follow_seedPlan (h : Catalogued db) (hsound : Sound E db)
    (hplans : follow (Bastiq.seedPlan s) defaultPlans db = .ok db') :
    Sound E db' ∧ Catalogued db' ∧ SameCaps db db' := by
  refine follow_keeps (Q := fun t => Sound E t ∧ Catalogued t ∧ SameCaps db t) ?_ hplans
    ⟨hsound, h, fun _ _ => rfl⟩
  rintro spec hspec t t' hstep ⟨ht, hcatalogued, hsame⟩
  obtain ⟨hcatalogued, hcaps⟩ := hcatalogued.seedPlan ht hspec hstep
  exact ⟨ht.seedPlan hstep, hcatalogued, hsame.trans hcaps⟩

/-- The plan that is called Free has the limits of an organization without a subscription. -/
theorem Catalogued.freePlan_limits (h : Catalogued db) {free : Row Plan}
    (hfree : freePlan db = some free) : free.val.limits = defaultFreeLimits := by
  have hcode : free.val.code = freePlanCode := by simpa using Table.pos_of_first? hfree
  have hspec : (freePlanCode, "Free", defaultFreeLimits) ∈ defaultPlans := by
    simp [defaultPlans, freePlanCode, defaultFreeLimits]
  exact h.limits_eq (Table.mem_of_first? hfree) hspec hcode

/-- **A Free subscription moves no cap**: the limits are those that held without one. -/
theorem Catalogued.createFreeSubscription (h : Catalogued db) (org : Nat) (now : Int) :
    SameCaps db (Bastiq.createFreeSubscription db org now) := by
  intro other key
  by_cases horg : org = other
  · subst horg
    unfold Bastiq.createFreeSubscription
    split
    · next free hfree hnone =>
      have hget : db.plans.get? free.id = some free :=
        Table.get?_eq_some_iff.mpr ⟨Table.mem_of_first? hfree, rfl⟩
      have hof : (db.subscriptions.insert { organization := org, plan := free.id, updatedAt := now
          }).first? (·.val.organization == org) = some ⟨db.subscriptions.nextId, _⟩ :=
        Table.first?_insert_of_none _ hnone (by simp)
      simp only [limit, subscriptionOf, hof, hget, h.freePlan_limits hfree]
      have hnone : db.subscriptions.first? (·.val.organization == org) = none := hnone
      rw [hnone]
    · rfl
  · apply limit_congr
    · exact subscriptionOf_createFreeSubscription db now horg
    · rw [createFreeSubscription_eq]

end Caps

/-! ## What is done to an installation -/

/-- An event of Stripe that is new moves the organization to the plan it names, and the cap is that
plan's limit. -/
def MovedByStripe (c : Call) (db db' : Db) (org : Nat) (key : String) : Prop :=
  ∃ d plan, c.request = .webhook d ∧ ledgerRow db d.event.id = none ∧ Reaches db d.event org ∧
    d.event.namedPlan db = .ok (some plan) ∧ limit db' org key = plan.val.limits.get key

section Steps

variable {E : Env} {s : SeedRun} {db db' : Db}

/-- **What a call makes of the caps** of the organizations that it leaves. -/
theorem Catalogued.call (h : Catalogued db) (c : Call) :
    Catalogued (c.step E db) ∧ ∀ o ∈ (c.step E db).organizations.rows, ∀ key,
      limit (c.step E db) o.id key = limit db o.id key ∨
        MovedByStripe c db (c.step E db) o.id key := by
  constructor
  · rw [Catalogued, c.plans_same E db]
    exact h
  intro o ho key
  have hchange := c.change E db
  generalize c.step E db = db' at hchange ho ⊢
  cases hchange with
  | @created user name slug org db' _ _ hinsert =>
      left
      obtain ⟨-, subs, rfl, hsubs⟩ := insertOrganization_eq_ok hinsert
      let created : Db := { db with organizations := db.organizations.insert org.val }
      have hcatalogued : Catalogued created := h
      have hcaps := hcatalogued.createFreeSubscription org.id c.ambient.now
      rw [createFreeSubscription_eq, ← hsubs] at hcaps
      exact hcaps o.id key
  | @destroyed user org _ _ =>
      -- the organization that is deleted is not there any more
      have hkept := (Table.mem_delete.mp ho).2
      have hsub : subscriptionOf (deleteOrganization db org) o.id = subscriptionOf db o.id := by
        refine Table.first?_delete_of_disjoint _ fun sub _ hsub => ?_
        rw [beq_iff_eq] at hsub
        rw [hsub]
        simpa using hkept
      exact .inl (limit_congr hsub rfl key)
  | customer => exact .inl (limit_saveCustomer db _ _ _ _)
  | delivered hrequest hledger hprocess =>
      rcases limit_of_process hprocess o.id key with heq | ⟨plan, hreaches, hplan, heq⟩
      · exact .inl heq
      · exact .inr ⟨_, plan, hrequest, hledger, hreaches, hplan, heq⟩
  | _ => exact .inl rfl

theorem Catalogued.getOrCreateOrganization (h : Catalogued db) (now : Int) :
    SameCaps db (Bastiq.getOrCreateOrganization db now).2 ∧
      (Bastiq.getOrCreateOrganization db now).2.plans = db.plans := by
  unfold Bastiq.getOrCreateOrganization
  split
  · exact ⟨fun _ _ => rfl, rfl⟩
  · let created : Db := { db with
      organizations := db.organizations.insert ⟨"Acme Inc", demoSlug, none, now⟩ }
    have hcatalogued : Catalogued created := h
    constructor
    · exact hcatalogued.createFreeSubscription _ _
    · show (Bastiq.createFreeSubscription created _ _).plans = _
      rw [createFreeSubscription_eq]

/-- A boot moves no cap. -/
theorem Catalogued.seedDemo (h : Catalogued db) (hsound : Sound E db)
    (hseed : Bastiq.seedDemo E s db = .ok db') : Catalogued db' ∧ SameCaps db db' := by
  obtain ⟨planned, st, hplans, hmembers, hprojects⟩ := seedDemo_eq_ok.mp hseed
  obtain ⟨-, hcatalogued, hseeded⟩ := h.follow_seedPlan hsound hplans
  obtain ⟨hfound, hkept⟩ := hcatalogued.getOrCreateOrganization s.now
  -- the rest touches neither plans nor subscriptions
  have hrest : db'.plans = (Bastiq.getOrCreateOrganization planned s.now).2.plans ∧
      db'.subscriptions = (Bastiq.getOrCreateOrganization planned s.now).2.subscriptions := by
    rw [(follow_seedProject hprojects).2, setCreator_eq, follow_seedMember_eq hmembers]
    exact ⟨rfl, rfl⟩
  constructor
  · rw [Catalogued, hrest.1, hkept]
    exact hcatalogued
  · exact (hseeded.trans hfound).trans (sameCaps_of_eq hrest.2 hrest.1)

/-- **A use of the installation** keeps the catalogue, and the caps unless it is an event of
Stripe's. -/
theorem Catalogued.demoEvent (h : Catalogued db) (hsound : Sound E db) (event : DemoEvent) :
    Catalogued (event.step E db) ∧ ∀ o ∈ (event.step E db).organizations.rows, ∀ key,
      limit (event.step E db) o.id key = limit db o.id key ∨
        ∃ c, event = .call c ∧ MovedByStripe c db (event.step E db) o.id key := by
  cases event with
  | call c =>
      obtain ⟨hcatalogued, hcaps⟩ := h.call (E := E) c
      refine ⟨hcatalogued, fun o ho key => ?_⟩
      exact (hcaps o ho key).imp_right fun hmoved => ⟨c, rfl, hmoved⟩
  | seed s =>
      simp only [DemoEvent.step]
      split
      · next db' hseed =>
        obtain ⟨hcatalogued, hsame⟩ := h.seedDemo hsound hseed
        exact ⟨hcatalogued, fun o _ key => .inl (hsame o.id key)⟩
      · exact ⟨h, fun _ _ _ => .inl rfl⟩

end Steps

/-! ## What the migrations do -/

/-- `seed_plans` as the command runs it where no prices are configured. -/
def unpriced : SeedRun := ⟨"", "", fun _ => "", 0⟩

section Migrations

variable {E : Env} {db db' : Db} {free : Row Plan} {m : MigrationRun}
  {orgs : List (Row Organization)}

theorem seedPlan_unpriced (spec : String × String × Limits) (db : Db) :
    seedPlan unpriced spec db = .ok (migratePlan spec db) := by
  have hprice : unpriced.price spec.1 = "" := by
    unfold SeedRun.price
    split
    · rfl
    · split <;> rfl
  have hplan : unpriced.planOf spec = fun plan =>
      { plan with name := spec.2.1, limits := spec.2.2, isActive := true } := by
    funext plan
    simp [SeedRun.planOf, hprice]
  have hfits : fits 255 (unpriced.price spec.1) = true := by
    rw [hprice]
    rfl
  unfold seedPlan migratePlan
  rw [if_pos hfits, hplan]
  cases db.plans.first? (·.val.code == spec.1) with
  | none => rfl
  | some p => rfl

/-- **The migration seeds what the command seeds**, and keeps the prices that are there. -/
theorem follow_unpriced (db : Db) :
    follow (seedPlan unpriced) defaultPlans db = .ok (seedPlans db) :=
  follow_eq_run (fun spec _ => seedPlan_unpriced spec) db

theorem hasFreePlan_seedPlans (db : Db) : HasFreePlan (seedPlans db) := by
  obtain ⟨hseeded, -⟩ := follow_seedPlan (follow_unpriced db)
  have hspec : (freePlanCode, "Free", defaultFreeLimits) ∈ defaultPlans := by
    simp [defaultPlans, freePlanCode, defaultFreeLimits]
  obtain ⟨p, hp, -⟩ := (hseeded _ hspec).row
  exact ⟨p, Table.mem_of_first? hp, by simpa using Table.pos_of_first? hp⟩

theorem backfillOrganization_eq (hfree : freePlan db = some free) (org : Row Organization) :
    backfillOrganization free m org db = createFreeSubscription db org.id (m.now org) := by
  unfold backfillOrganization createFreeSubscription
  rw [hfree]
  cases subscriptionOf db org.id with
  | none => rfl
  | some sub => rfl

/-- What the backfill has done when it has come through `orgs`. -/
structure BackfilledTo (E : Env) (orgs : List (Row Organization)) (db db' : Db) : Prop where
  sound      : Sound E db'
  same       : db' = { db with subscriptions := db'.subscriptions }
  kept       : ∀ sub ∈ db.subscriptions.rows, sub ∈ db'.subscriptions.rows
  subscribed : ∀ org ∈ orgs, Subscribed db' org.id
  caps       : SameCaps db db'

theorem backfilledTo_run (h : Sound E db) (hcatalogued : Catalogued db)
    (hfree : freePlan db = some free) (horgs : ∀ org ∈ orgs, OrganizationThere db org.id) :
    BackfilledTo E orgs db (run (backfillOrganization free m) db orgs) := by
  induction orgs generalizing db with
  | nil =>
      refine ⟨h, rfl, fun _ hsub => hsub, ?_, fun _ _ => rfl⟩
      intro org horg
      cases horg
  | cons org orgs ih =>
      rw [run_cons, backfillOrganization_eq hfree]
      have hplan : HasFreePlan db :=
        ⟨free, Table.mem_of_first? hfree, by simpa using Table.pos_of_first? hfree⟩
      have hsubscribed := subscribed_createFreeSubscription hplan org.id (m.now org)
      have hkept : ∀ sub ∈ db.subscriptions.rows, _ :=
        fun sub hsub => mem_createFreeSubscription hsub org.id (m.now org)
      have hcaps := hcatalogued.createFreeSubscription org.id (m.now org)
      have hnext := h.createFreeSubscription (horgs org List.mem_cons_self) (m.now org)
      have hsame := createFreeSubscription_eq db org.id (m.now org)
      generalize createFreeSubscription db org.id (m.now org) = next at *
      have hthere : ∀ org' ∈ orgs, OrganizationThere next org'.id := by
        intro org' horg'
        rw [hsame]
        exact horgs org' (List.mem_cons_of_mem org horg')
      have hrest : BackfilledTo E orgs next (run (backfillOrganization free m) next orgs) := by
        refine ih hnext ?_ ?_ hthere
        · rw [hsame]
          exact hcatalogued
        · rw [hsame]
          exact hfree
      refine ⟨hrest.sound, ?_, fun sub hsub => hrest.kept sub (hkept sub hsub), ?_,
        hcaps.trans hrest.caps⟩
      · rw [hrest.same, hsame]
      · intro org' horg'
        rcases List.mem_cons.mp horg' with rfl | horg'
        · -- what comes later keeps the subscription
          obtain ⟨sub, hsub, heq⟩ := hsubscribed
          exact ⟨sub, hrest.kept sub hsub, heq⟩
        · exact hrest.subscribed org' horg'

/-- **After the backfill every organization has a subscription**, and the caps it had. -/
theorem backfilledTo_backfill (h : Sound E db) (hcatalogued : Catalogued db)
    (hfree : HasFreePlan db) : BackfilledTo E db.organizations.rows db (backfill m db) := by
  obtain ⟨free, hplan⟩ : ∃ free, freePlan db = some free := by
    obtain ⟨p, hp, hcode⟩ := hfree
    apply Option.isSome_iff_exists.mp
    exact Table.isSome_first?_iff.mpr ⟨p, hp, by simpa using hcode⟩
  have hmem : ∀ org, org ∈ m.ordered (unsubscribed db) ↔ org ∈ unsubscribed db :=
    fun org => (m.perm _).mem_iff
  have hthere : ∀ org ∈ m.ordered (unsubscribed db), OrganizationThere db org.id := by
    intro org horg
    exact ⟨org, (List.mem_filter.mp ((hmem org).mp horg)).1, rfl⟩
  have hdone := backfilledTo_run (m := m) h hcatalogued hplan hthere
  have hbackfill : backfill m db =
      run (backfillOrganization free m) db (m.ordered (unsubscribed db)) := by
    rw [backfill, hplan]
  rw [hbackfill]
  refine { hdone with subscribed := fun org horg => ?_ }
  cases hsub : subscriptionOf db org.id with
  | none =>
      apply hdone.subscribed
      exact (hmem org).mpr (List.mem_filter.mpr ⟨horg, by rw [hsub]; rfl⟩)
  | some sub =>
      refine ⟨sub, hdone.kept sub (Table.mem_of_first? hsub), ?_⟩
      simpa using Table.pos_of_first? hsub

theorem unseedPlans_eq_ok (h : unseedPlans db = .ok db') :
    (∀ sub ∈ db.subscriptions.rows, ∀ p ∈ db.plans.rows, isDefaultPlan p = true →
      p.id ≠ sub.val.plan) ∧ db' = { db with plans := db.plans.delete isDefaultPlan } := by
  unfold unseedPlans at h
  split at h
  · cases h
  · next hfree =>
    cases h
    refine ⟨fun sub hsub p hp hdefault hid => hfree ?_, rfl⟩
    refine List.any_eq_true.mpr ⟨sub, hsub, List.any_eq_true.mpr ⟨p, ?_, by simpa using hid⟩⟩
    exact List.mem_filter.mpr ⟨hp, hdefault⟩

/-- **The plans can be taken back** where no organization has a subscription. -/
theorem Catalogued.unseedPlans_iff (h : Catalogued db) (hsound : Sound E db) :
    (∃ db', unseedPlans db = .ok db') ↔ db.subscriptions.rows = [] := by
  constructor
  · rintro ⟨db', hunseed⟩
    apply List.eq_nil_iff_forall_not_mem.mpr
    intro sub hsub
    obtain ⟨p, hp, hid⟩ := hsound.references.subscriptionPlan.row hsub rfl
    obtain ⟨spec, hspec, hcode, -⟩ := h p hp
    refine (unseedPlans_eq_ok hunseed).1 sub hsub p hp ?_ hid
    rw [isDefaultPlan, hcode]
    exact List.contains_iff_mem.mpr (List.mem_map_of_mem hspec)
  · intro hnone
    refine ⟨_, if_neg ?_⟩
    simp [Table.any, hnone]

end Migrations

/-! ## Every installation -/

/-- What holds of an installation, whatever has been done to it. -/
structure Billed (E : Env) (i : Installation) : Prop where
  sound      : Sound E i.db
  catalogued : Catalogued i.db
  free       : i.last ≠ .initial → HasFreePlan i.db
  subscribed : i.last = .backfillSubscriptions →
    ∀ o ∈ i.db.organizations.rows, Subscribed i.db o.id

section Installations

variable {E : Env} {i : Installation}

theorem Unbilled.billed (b : Unbilled E) : Billed E b.installation where
  sound := b.sound
  catalogued := by
    unfold Catalogued
    rw [show b.installation.db.plans = _ from b.plans]
    intro p hp
    cases hp
  free h := absurd rfl h
  subscribed := nofun

theorem Billed.used (h : Billed E i) (event : DemoEvent) :
    Billed E ((InstallationEvent.used event).step E i) := by
  have hevolves := event.evolves E i.db
  refine ⟨h.sound.demoEvent event, (h.catalogued.demoEvent h.sound event).1,
    fun hlast => hevolves.free (h.free hlast), fun hlast => ?_⟩
  have hlast : i.last = .backfillSubscriptions := hlast
  have hfree : HasFreePlan i.db := h.free (by simp [hlast])
  have hsupplied : Supplied i.db := ⟨hfree, h.subscribed hlast⟩
  exact (hsupplied.evolves hevolves).subscribed

/-- **A migration that is applied** keeps all caps. -/
theorem Billed.forwards (h : Billed E i) (m : MigrationRun) :
    Billed E ((InstallationEvent.forwards m).step E i) ∧
      SameCaps i.db ((InstallationEvent.forwards m).step E i).db := by
  obtain ⟨db, last⟩ := i
  cases last with
  | initial =>
      obtain ⟨hsound, hcatalogued, hcaps⟩ :=
        h.catalogued.follow_seedPlan h.sound (follow_unpriced db)
      exact ⟨⟨hsound, hcatalogued, fun _ => hasFreePlan_seedPlans db, nofun⟩, hcaps⟩
  | seedPlans =>
      have hfree := h.free nofun
      have hdone := backfilledTo_backfill (m := m) h.sound h.catalogued hfree
      have hsame := hdone.same
      refine ⟨⟨hdone.sound, ?_, fun _ => ?_, fun _ => ?_⟩, hdone.caps⟩
      · show Catalogued (backfill m db)
        rw [hsame]
        exact h.catalogued
      · show HasFreePlan (backfill m db)
        rw [hsame]
        exact hfree
      · show ∀ o ∈ (backfill m db).organizations.rows, Subscribed (backfill m db) o.id
        intro o ho
        rw [hsame] at ho
        exact hdone.subscribed o ho
  | backfillSubscriptions => exact ⟨h, fun _ _ => rfl⟩

/-- **A migration that is taken back** keeps all caps, too. -/
theorem Billed.backwards (h : Billed E i) :
    Billed E (InstallationEvent.backwards.step E i) ∧
      SameCaps i.db (InstallationEvent.backwards.step E i).db := by
  obtain ⟨db, last⟩ := i
  cases last with
  | initial => exact ⟨h, fun _ _ => rfl⟩
  | seedPlans =>
      simp only [InstallationEvent.step]
      cases hunseed : unseedPlans db with
      | error e => exact ⟨h, fun _ _ => rfl⟩
      | ok db' =>
          have hnone := (h.catalogued.unseedPlans_iff h.sound).mp ⟨db', hunseed⟩
          obtain ⟨-, rfl⟩ := unseedPlans_eq_ok hunseed
          refine ⟨⟨?_, ?_, fun hlast => absurd rfl hlast, nofun⟩, ?_⟩
          · exact {
              references := { h.sound.references with
                subscriptionPlan := fun sub hsub => by
                  have hsub : sub ∈ db.subscriptions.rows := hsub
                  rw [hnone] at hsub
                  cases hsub }
              unique := { h.sound.unique with
                planCode := h.sound.unique.planCode.delete _ } }
          · exact fun p hp => h.catalogued p (Table.mem_delete.mp hp).1
          · refine sameCaps_of_limits rfl fun sub hsub => ?_
            rw [hnone] at hsub
            cases hsub
  | backfillSubscriptions =>
      exact ⟨⟨h.sound, h.catalogued, fun _ => h.free nofun, nofun⟩, fun _ _ => rfl⟩

theorem Billed.step (h : Billed E i) (event : InstallationEvent) : Billed E (event.step E i) := by
  cases event with
  | used event => exact h.used event
  | forwards m => exact (h.forwards m).1
  | backwards => exact h.backwards.1

theorem billed_states (E : Env) (b : Unbilled E) (events : List InstallationEvent) :
    States (InstallationEvent.step E) (Billed E) b.installation events :=
  states_of_step (fun _ event h => h.step event) b.billed events

/-- **Every organization is supplied.** Billing comes to a database in which there may be
organizations. It is used, and its migrations are applied and taken back, in any order: whenever
they are applied every organization has one subscription, whose plan is shown and enforced, and the
plans can be taken back just as long as nobody has one. -/
theorem migrations_supply (E : Env) (b : Unbilled E) (events : List InstallationEvent) :
    States (InstallationEvent.step E) (fun i =>
      (i.last = .backfillSubscriptions → ∀ o ∈ i.db.organizations.rows, ReportsCaps i.db o) ∧
        ((∃ db, unseedPlans i.db = .ok db) ↔ i.db.subscriptions.rows = []))
      b.installation events := by
  refine (billed_states E b events).mono fun i h => ⟨fun hlast o ho => ?_, ?_⟩
  · exact h.sound.reportsCaps (h.subscribed hlast o ho)
  · exact h.catalogued.unseedPlans_iff h.sound

/-- Alice and her organization, from before there was billing. -/
def acmeUnbilled : Db where
  users := Table.empty.insert { email := "a@x.io", password := "p$password" }
  organizations := Table.empty.insert ⟨"Acme", "acme", some 1, 0⟩
  memberships := Table.empty.insert ⟨1, 1, .owner, 0⟩

theorem sound_acmeUnbilled : Sound Env.ascii acmeUnbilled := by
  refine ⟨⟨?_, ?_, ?_, ?_, ?_, ?_, ?_, ?_, ?_⟩, ⟨?_, ?_, ?_, ?_, ?_, ?_, ?_⟩⟩ <;>
    simp [Table.References, Table.Unique, acmeUnbilled, Table.insert, Table.empty]

/-- A run of the migrations at time 10. -/
def MigrationRun.plain : MigrationRun := ⟨fun _ => 10, id, fun _ => .refl _⟩

/-- The backfill is taken back and applied again. -/
theorem migrations_supply_acme :
    let i := run (InstallationEvent.step Env.ascii) sound_acmeUnbilled.unbilled.installation
      [.forwards .plain, .forwards .plain, .backwards, .forwards .plain]
    i.db.subscriptions.rows = [⟨1, { organization := 1, plan := 1, updatedAt := 10 }⟩] ∧
      (∀ o ∈ i.db.organizations.rows, ReportsCaps i.db o) ∧ ¬ ∃ db, unseedPlans i.db = .ok db := by
  intro i
  obtain ⟨hsupplied, hunseed⟩ := (migrations_supply Env.ascii sound_acmeUnbilled.unbilled
    [.forwards .plain, .forwards .plain, .backwards, .forwards .plain]).last
  have hrows : i.db.subscriptions.rows = [⟨1, { organization := 1, plan := 1, updatedAt := 10 }⟩] :=
    by decide +kernel
  refine ⟨hrows, hsupplied (by decide +kernel), fun h => ?_⟩
  have hnone := hunseed.mp h
  rw [hrows] at hnone
  cases hnone

/-- **Only Stripe moves a cap.** No request, no boot and no migration, applied or taken back, with
or without a subscription, gives an organization other caps; an event of Stripe's gives it those of
the plan that it names. -/
theorem caps_moved_by_stripe (E : Env) (b : Unbilled E) (events : List InstallationEvent) :
    Each (InstallationEvent.step E) (fun i event =>
      ∀ o ∈ (event.step E i).db.organizations.rows, ∀ key,
        limit (event.step E i).db o.id key = limit i.db o.id key ∨
          ∃ c, event = .used (.call c) ∧ MovedByStripe c i.db (event.step E i).db o.id key)
      b.installation events := by
  refine each_of_states (fun i event h _ o ho key => ?_) (billed_states E b events)
  cases event with
  | used event =>
      refine ((h.catalogued.demoEvent h.sound event).2 o ho key).imp_right ?_
      rintro ⟨c, rfl, hmoved⟩
      exact ⟨c, rfl, hmoved⟩
  | forwards m => exact .inl ((h.forwards m).2 o.id key)
  | backwards => exact .inl (h.backwards.2 o.id key)

/-- A checkout of plan Pro for the organization. -/
def acmeBuys : Call := ⟨none, .webhook (checkoutOf "evt_1" "sub_1"), ⟨20, "nonce", true⟩⟩

theorem caps_moved_by_stripe_acme :
    let i := run (InstallationEvent.step Env.ascii) sound_acmeUnbilled.unbilled.installation
      [.forwards .plain, .forwards .plain]
    limit i.db 1 "max_projects" = some 3 ∧
      limit (acmeBuys.step Env.ascii i.db) 1 "max_projects" = some 25 ∧
      MovedByStripe acmeBuys i.db (acmeBuys.step Env.ascii i.db) 1 "max_projects" := by
  intro i
  obtain ⟨-, -, hbuys, -⟩ := caps_moved_by_stripe Env.ascii sound_acmeUnbilled.unbilled
    [.forwards .plain, .forwards .plain, .used (.call acmeBuys)]
  have hbefore : limit i.db 1 "max_projects" = some 3 := by decide +kernel
  have hafter : limit (acmeBuys.step Env.ascii i.db) 1 "max_projects" = some 25 := by
    decide +kernel
  refine ⟨hbefore, hafter, ?_⟩
  rcases hbuys ⟨1, _⟩ (List.mem_singleton_self _) "max_projects" with hsame | ⟨c, hc, hmoved⟩
  · cases hbefore.symm.trans (hsame.symm.trans hafter)
  · cases hc
    exact hmoved

end Installations

end Bastiq
