import Bastiq.Accounts.Login
import Bastiq.Transition.Recipe

/-!
# The demo data

`seed_demo` brings the plan catalogue up to date, makes sure of the organization Acme Inc, of three
users with the documented password, of their memberships and of two projects, all in one
transaction. It runs at every boot of a deployment, on whatever its users have made of the data.

Slugs, e-mails and memberships are unique, so `get_or_create` finds one row or none. Project names
are not: with two projects of one name it raises.
-/

namespace Bastiq

open Relational View Transition

/-! ## The command -/

/-- `DEMO_PASSWORD`. -/
def demoPassword : String := "BastiqDemo!23"

structure DemoUser where
  email : String
  name  : String
  role  : Role
  deriving DecidableEq, Repr

/-- `DEMO_USERS`. -/
def demoUsers : List DemoUser :=
  [⟨"owner@acme.test", "Olivia Owner", .owner⟩,
   ⟨"admin@acme.test", "Adam Admin", .admin⟩,
   ⟨"member@acme.test", "Mia Member", .member⟩]

def demoSlug : String := "acme-inc"

def demoProjects : List String := ["Website Redesign", "Mobile App"]

/-- What a run of the command finds outside the database: the configured prices, fresh salts for the
three hashes, the clock. -/
structure SeedRun where
  pricePro      : String
  priceBusiness : String
  salt          : String → String
  now           : Int

/-- `getattr(settings, _PRICE_ENV[code], "")`, where `_PRICE_ENV` has the code. -/
def SeedRun.price (s : SeedRun) (code : String) : String :=
  if code == "pro" then s.pricePro else if code == "business" then s.priceBusiness else ""

/-- `name.partition(" ")`, without the blank. -/
def partitionName (name : String) : String × String :=
  (String.ofList (name.toList.takeWhile (· != ' ')),
    String.ofList ((name.toList.dropWhile (· != ' ')).drop 1))

example : partitionName "Olivia Owner" = ("Olivia", "Owner") := by decide

/-- `DEFAULT_PLANS` as `seed_plans` writes it over a row. -/
def SeedRun.planOf (s : SeedRun) (spec : String × String × Limits) (plan : Plan) : Plan :=
  { plan with
    name := spec.2.1
    limits := spec.2.2
    isActive := true
    stripePriceId := if s.price spec.1 == "" then plan.stripePriceId else s.price spec.1 }

/-- One plan of `seed_plans`: `Plan.objects.update_or_create(code=code, defaults=defaults)`. -/
def seedPlan (s : SeedRun) (spec : String × String × Limits) (db : Db) : Except Failure Db :=
  if fits 255 (s.price spec.1) then
    match db.plans.first? (·.val.code == spec.1) with
    | some p => .ok { db with plans := db.plans.modify p.id (s.planOf spec) }
    | none => .ok { db with plans := db.plans.insert (s.planOf spec ⟨spec.1, "", "", [], true⟩) }
  else .error .dataError

/-- The organization under the demo's slug. -/
def demoOrganization (db : Db) : Option (Row Organization) :=
  db.organizations.first? (·.val.slug == demoSlug)

/-- `Organization.objects.get_or_create(slug="acme-inc", ...)`. A new one gets its subscription. -/
def getOrCreateOrganization (db : Db) (now : Int) : Row Organization × Db :=
  match demoOrganization db with
  | some org => (org, db)
  | none =>
      let org : Row Organization :=
        ⟨db.organizations.nextId, "Acme Inc", demoSlug, none, now⟩
      (org, createFreeSubscription { db with organizations := db.organizations.insert org.val }
        org.id now)

/-- The defaults for a new user. The password is set afterwards. -/
def newDemoUser (s : SeedRun) (d : DemoUser) : User :=
  let (first, last) := partitionName d.name
  { email := d.email, password := "", firstName := first, lastName := last,
    isEmailVerified := true, dateJoined := s.now }

/-- `User.objects.get_or_create(email=email, ...)`. An address that differs in letter case only is
not found, and cannot be inserted either. -/
def getOrCreateUser (E : Env) (s : SeedRun) (db : Db) (d : DemoUser) :
    Except Failure (Row User × Db) :=
  match db.users.first? (·.val.email == d.email) with
  | some user => .ok (user, db)
  | none =>
      if emailTaken E db d.email then .error .integrityError
      else
        let user := newDemoUser s d
        .ok (⟨db.users.nextId, user⟩, { db with users := db.users.insert user })

/-- `user.set_password(DEMO_PASSWORD)` and `user.is_email_verified = True`. -/
def resetDemoUser (E : Env) (s : SeedRun) (d : DemoUser) (user : User) : User :=
  { user with password := E.makePassword demoPassword (s.salt d.email), isEmailVerified := true }

/-- The database, and the dictionary `users`. -/
structure SeedState where
  db    : Db
  users : List (Role × Nat) := []

/-- One turn of the loop over the demo users. -/
def seedMember (E : Env) (s : SeedRun) (org : Nat) (d : DemoUser) (st : SeedState) :
    Except Failure SeedState :=
  match getOrCreateUser E s st.db d with
  | .error e => .error e
  | .ok (user, db) =>
      let db := { db with users := db.users.modify user.id (resetDemoUser E s d) }
      .ok {
        db := (getOrCreateMembership db user.id org d.role s.now).2
        users := (d.role, user.id) :: st.users }

/-- `if org.created_by_id is None`. -/
def setCreator (org : Row Organization) (creator : Option Nat) (db : Db) : Db :=
  if org.val.createdBy.isNone then
    { db with
      organizations := db.organizations.modify org.id fun o => { o with createdBy := creator } }
  else db

/-- The projects of an organization under a name. -/
def namesakes (org : Nat) (name : String) (db : Db) : List (Row Project) :=
  db.projects.select fun p => p.val.organization == org && p.val.name == name

/-- `Project.objects.get_or_create(organization=org, name=name, ...)`. -/
def seedProject (s : SeedRun) (org : Nat) (creator : Option Nat) (name : String) (db : Db) :
    Except Failure Db :=
  match namesakes org name db with
  | [] => .ok { db with
      projects := db.projects.insert
        { organization := org, name := name, description := "Demo project.", createdBy := creator,
          createdAt := s.now } }
  | [_] => .ok db
  -- `MultipleObjectsReturned`
  | _ :: _ :: _ => .error .other

/-- **`seed_demo`.** What raises rolls everything back. -/
def seedDemo (E : Env) (s : SeedRun) (db : Db) : Except Failure Db := do
  let db ← follow (seedPlan s) defaultPlans db
  let (org, db) := getOrCreateOrganization db s.now
  let st ← follow (seedMember E s org.id) demoUsers { db := db }
  let creator := st.users.lookup .owner
  follow (seedProject s org.id creator) demoProjects (setCreator org creator st.db)

/-! ## The plans -/

/-- The plan of a specification is as `seed_plans` leaves it. -/
structure PlanSeeded (s : SeedRun) (spec : String × String × Limits) (db : Db) : Prop where
  width : fits 255 (s.price spec.1) = true
  row   : ∃ p, db.plans.first? (·.val.code == spec.1) = some p ∧ s.planOf spec p.val = p.val

/-- The configured prices fit their column. -/
def PricesFit (s : SeedRun) : Prop := ∀ spec ∈ defaultPlans, fits 255 (s.price spec.1) = true

section Plans

variable {s : SeedRun} {spec spec' : String × String × Limits} {db db' : Db}

theorem planOf_planOf (s : SeedRun) (spec : String × String × Limits) (plan : Plan) :
    s.planOf spec (s.planOf spec plan) = s.planOf spec plan := by
  unfold SeedRun.planOf
  cases s.price spec.1 == "" <;> simp

/-- What `seed_plans` does for one plan. -/
theorem seedPlan_eq_ok :
    seedPlan s spec db = .ok db' ↔ fits 255 (s.price spec.1) = true ∧
      ((∃ p, db.plans.first? (·.val.code == spec.1) = some p ∧
          db' = { db with plans := db.plans.modify p.id (s.planOf spec) }) ∨
        (db.plans.first? (·.val.code == spec.1) = none ∧
          db' = { db with
            plans := db.plans.insert (s.planOf spec ⟨spec.1, "", "", [], true⟩) })) := by
  unfold seedPlan
  cases fits 255 (s.price spec.1) with
  | false => simp
  | true =>
      cases db.plans.first? (·.val.code == spec.1) with
      | some p => simp [eq_comm]
      | none => simp [eq_comm]

/-- Writing a plan keeps the codes. -/
theorem first?_plans_modify {p : Row Plan} (code : String) :
    (db.plans.modify p.id (s.planOf spec)).first? (·.val.code == code) =
      (db.plans.first? (·.val.code == code)).map
        (Table.setRow (·.id == p.id) (s.planOf spec)) :=
  Table.first?_modify _ fun _ _ _ => rfl

theorem planSeeded_of_seedPlan (h : seedPlan s spec db = .ok db') : PlanSeeded s spec db' := by
  obtain ⟨hfits, ⟨p, hp, rfl⟩ | ⟨hnone, rfl⟩⟩ := seedPlan_eq_ok.mp h
  · refine ⟨hfits, ⟨p.id, s.planOf spec p.val⟩, ?_, planOf_planOf s spec p.val⟩
    rw [first?_plans_modify, hp]
    simp [Table.setRow]
  · refine ⟨hfits, _, Table.first?_insert_of_none _ hnone ?_, planOf_planOf s spec _⟩
    simp [SeedRun.planOf]

theorem PlanSeeded.keep (h : PlanSeeded s spec' db) (hne : spec.1 ≠ spec'.1)
    (hstep : seedPlan s spec db = .ok db') : PlanSeeded s spec' db' := by
  obtain ⟨p', hp', hplan⟩ := h.row
  refine ⟨h.width, p', ?_, hplan⟩
  obtain ⟨-, ⟨p, hp, rfl⟩ | ⟨hnone, rfl⟩⟩ := seedPlan_eq_ok.mp hstep
  · rw [first?_plans_modify, hp', Option.map_some, Table.setRow_of_neg]
    -- the rows of different codes are different rows
    have hcode : p.val.code = spec.1 := by simpa using Table.pos_of_first? hp
    have hcode' : p'.val.code = spec'.1 := by simpa using Table.pos_of_first? hp'
    refine beq_false_of_ne fun hid => hne ?_
    rw [← hcode, ← hcode',
      db.plans.eq_of_id_eq (Table.mem_of_first? hp') (Table.mem_of_first? hp) hid]
  · exact Table.first?_insert_of_some _ hp'

/-- A plan that is seeded is left alone. -/
theorem PlanSeeded.again (h : PlanSeeded s spec db) : seedPlan s spec db = .ok db := by
  obtain ⟨p, hp, hplan⟩ := h.row
  refine seedPlan_eq_ok.mpr ⟨h.width, .inl ⟨p, hp, ?_⟩⟩
  rw [Table.modify_eq_self]
  intro r hr hid
  rwa [db.plans.eq_of_id_eq hr (Table.mem_of_first? hp) hid]

theorem code_ne_of_ne (h : spec ∈ defaultPlans) (h' : spec' ∈ defaultPlans) (hne : spec ≠ spec') :
    spec.1 ≠ spec'.1 := by
  have hcodes : (defaultPlans.map Prod.fst).Nodup := by decide
  exact fun heq => hne (List.inj_on_of_nodup_map hcodes h h' heq)

/-- **What `seed_plans` leaves**: nothing but the plans has changed, and they are seeded. -/
theorem follow_seedPlan (h : follow (seedPlan s) defaultPlans db = .ok db') :
    (∀ spec ∈ defaultPlans, PlanSeeded s spec db') ∧ db' = { db with plans := db'.plans } := by
  constructor
  · refine follow_goals (by decide) (fun spec _ _ _ => planSeeded_of_seedPlan) ?_ h
    intro spec hspec spec' hspec' hne _ _ hstep h'
    exact h'.keep (code_ne_of_ne hspec hspec' hne) hstep
  · refine follow_keeps (Q := fun db' => db' = { db with plans := db'.plans }) ?_ h rfl
    intro spec _ t t' hstep ht
    obtain ⟨-, ⟨p, -, rfl⟩ | ⟨-, rfl⟩⟩ := seedPlan_eq_ok.mp hstep
    · rw [ht]
    · rw [ht]

theorem exists_follow_seedPlan_iff :
    (∃ db', follow (seedPlan s) defaultPlans db = .ok db') ↔ PricesFit s := by
  constructor
  · rintro ⟨db', h⟩ spec hspec
    exact ((follow_seedPlan h).1 spec hspec).width
  · intro hfits
    have hstep : ∀ spec ∈ defaultPlans, ∀ db, True →
        ∃ db', seedPlan s spec db = .ok db' ∧ True := by
      intro spec hspec db _
      cases hrow : db.plans.first? (·.val.code == spec.1) with
      | some p => exact ⟨_, seedPlan_eq_ok.mpr ⟨hfits spec hspec, .inl ⟨p, hrow, rfl⟩⟩, trivial⟩
      | none => exact ⟨_, seedPlan_eq_ok.mpr ⟨hfits spec hspec, .inr ⟨hrow, rfl⟩⟩, trivial⟩
    obtain ⟨db', h, -⟩ := follow_of_invariant hstep (s := db) trivial
    exact ⟨db', h⟩

theorem follow_seedPlan_again (h : ∀ spec ∈ defaultPlans, PlanSeeded s spec db) :
    follow (seedPlan s) defaultPlans db = .ok db :=
  follow_eq_self fun spec hspec => (h spec hspec).again

end Plans

/-! ## The users -/

/-- The accounts are active and in lower case, and each is alone under its address. -/
structure Tidy (E : Env) (users : Table User) : Prop where
  lower  : ∀ u ∈ users.rows, E.lower u.val.email = u.val.email
  active : ∀ u ∈ users.rows, u.val.isActive = true
  alone  : ∀ u ∈ users.rows, ∀ v ∈ users.rows, u.val.email = v.val.email → u = v

/-- What has become of the account under a demo address, and the key it has. -/
inductive DemoUserSaved (E : Env) (s : SeedRun) (d : DemoUser) (users : Table User) :
    Nat → Table User → Prop where
  | reset {u : Row User} (hfirst : users.first? (·.val.email == d.email) = some u) :
      DemoUserSaved E s d users u.id (users.modify u.id (resetDemoUser E s d))
  | created {v : User} (hnone : users.first? (·.val.email == d.email) = none)
      (hemail : v.email = d.email) (hactive : v.isActive = true) :
      DemoUserSaved E s d users users.nextId (users.insert (resetDemoUser E s d v))

section Users

variable {E : Env} {s : SeedRun} {d : DemoUser} {users users' : Table User} {id : Nat}

theorem Tidy.insert (h : Tidy E users) {v : User} (hlower : E.lower v.email = v.email)
    (hactive : v.isActive = true) (hnew : ∀ u ∈ users.rows, u.val.email ≠ v.email) :
    Tidy E (users.insert v) := by
  constructor
  · intro u hu
    rcases Table.mem_insert.mp hu with hu | rfl
    · exact h.lower u hu
    · exact hlower
  · intro u hu
    rcases Table.mem_insert.mp hu with hu | rfl
    · exact h.active u hu
    · exact hactive
  · intro u hu u' hu' heq
    rcases Table.mem_insert.mp hu with hu | rfl
    · rcases Table.mem_insert.mp hu' with hu' | rfl
      · exact h.alone u hu u' hu' heq
      · exact absurd heq (hnew u hu)
    · rcases Table.mem_insert.mp hu' with hu' | rfl
      · exact absurd heq.symm (hnew u' hu')
      · rfl

theorem Tidy.modify (h : Tidy E users) (id : Nat) {f : User → User}
    (hemail : ∀ u, (f u).email = u.email) (hactive : ∀ u, (f u).isActive = u.isActive) :
    Tidy E (users.modify id f) := by
  -- the rows are those that were, under the same addresses
  have hrow : ∀ u' ∈ (users.modify id f).rows, ∃ u ∈ users.rows, u.id = u'.id ∧
      u.val.email = u'.val.email ∧ u.val.isActive = u'.val.isActive := by
    intro u' hu'
    rcases Table.mem_modify.mp hu' with ⟨hu, -⟩ | ⟨u, hu, hid, rfl⟩
    · exact ⟨u', hu, rfl, rfl, rfl⟩
    · exact ⟨u, hu, hid, (hemail u.val).symm, (hactive u.val).symm⟩
  constructor
  · intro u' hu'
    obtain ⟨u, hu, -, heq, -⟩ := hrow u' hu'
    rw [← heq, h.lower u hu]
  · intro u' hu'
    obtain ⟨u, hu, -, -, heq⟩ := hrow u' hu'
    rw [← heq, h.active u hu]
  · intro u' hu' v' hv' heq
    obtain ⟨u, hu, hid, hu_email, -⟩ := hrow u' hu'
    obtain ⟨v, hv, hid', hv_email, -⟩ := hrow v' hv'
    have huv := h.alone u hu v hv (by rw [hu_email, hv_email, heq])
    exact (users.modify id f).eq_of_id_eq hu' hv' (by rw [← hid, ← hid', huv])

/-- Where addresses are in lower case, only the address itself is in the way of an account. -/
theorem Tidy.emailTaken {db : Db} (h : Tidy E db.users) (hlower : E.lower d.email = d.email)
    (hnone : db.users.first? (·.val.email == d.email) = none) :
    Bastiq.emailTaken E db d.email = false := by
  refine Table.any_eq_false_iff.mpr fun u hu => ?_
  have hne := Table.first?_eq_none_iff.mp hnone u hu
  rwa [Env.iexact, h.lower u hu, hlower]

theorem DemoUserSaved.tidy (h : DemoUserSaved E s d users id users') (htidy : Tidy E users)
    (hlower : E.lower d.email = d.email) : Tidy E users' := by
  cases h with
  | reset hfirst => exact htidy.modify _ (fun _ => rfl) fun _ => rfl
  | @created v hnone hemail hactive =>
      refine htidy.insert ?_ hactive fun u hu heq => ?_
      · show E.lower v.email = v.email
        rw [hemail, hlower]
      · have hne := Table.first?_eq_none_iff.mp hnone u hu
        have heq : u.val.email = v.email := heq
        simp [heq, hemail] at hne

/-- The account that is saved is the one under the address. -/
theorem DemoUserSaved.first? (h : DemoUserSaved E s d users id users') :
    ∃ u, users'.first? (·.val.email == d.email) = some u ∧ u.id = id ∧
      u.val.password = E.makePassword demoPassword (s.salt d.email) ∧
      u.val.isEmailVerified = true := by
  cases h with
  | @reset u hfirst =>
      refine ⟨⟨u.id, resetDemoUser E s d u.val⟩, ?_, rfl, rfl, rfl⟩
      rw [Table.first?_modify _ fun _ _ _ => rfl, hfirst]
      simp [Table.setRow]
  | @created v hnone hemail _ =>
      refine ⟨_, Table.first?_insert_of_none _ hnone ?_, rfl, rfl, rfl⟩
      simp [resetDemoUser, hemail]

/-- The accounts under other addresses are as they were. -/
theorem DemoUserSaved.other (h : DemoUserSaved E s d users id users') {email : String}
    (hne : email ≠ d.email) {u : Row User} (hu : users.first? (·.val.email == email) = some u) :
    users'.first? (·.val.email == email) = some u := by
  cases h with
  | @reset v hfirst =>
      rw [Table.first?_modify _ fun _ _ _ => rfl, hu, Option.map_some, Table.setRow_of_neg]
      have hemail : u.val.email = email := by simpa using Table.pos_of_first? hu
      have hdemo : v.val.email = d.email := by simpa using Table.pos_of_first? hfirst
      refine beq_false_of_ne fun hid => hne ?_
      rw [← hemail, ← hdemo, users.eq_of_id_eq (Table.mem_of_first? hu)
        (Table.mem_of_first? hfirst) hid]
  | created _ _ _ => exact Table.first?_insert_of_some _ hu

end Users

/-! ## The members -/

/-- The account under a demo address is verified and has a membership. -/
structure DemoMember (org : Nat) (d : DemoUser) (db : Db) (u : Row User) : Prop where
  found    : db.users.first? (·.val.email == d.email) = some u
  verified : u.val.isEmailVerified = true
  member   : ∃ m, membershipIn db u.id org = some m

/-- A demo user as the loop leaves them: with the documented password, and in the dictionary. -/
def MemberSeeded (E : Env) (s : SeedRun) (org : Nat) (d : DemoUser) (st : SeedState) : Prop :=
  ∃ u, DemoMember org d st.db u ∧
    u.val.password = E.makePassword demoPassword (s.salt d.email) ∧ (d.role, u.id) ∈ st.users

section Members

variable {E : Env} {s : SeedRun} {org : Nat} {d d' : DemoUser} {st st' : SeedState} {db : Db}

/-- Getting or creating a membership leaves memberships as they were, and there is one. -/
theorem membershipIn_getOrCreateMembership (user : Nat) (role : Role) (now : Int) :
    (∃ m, membershipIn (getOrCreateMembership db user org role now).2 user org = some m) ∧
      ∀ v m, membershipIn db v org = some m →
        membershipIn (getOrCreateMembership db user org role now).2 v org = some m := by
  rcases getOrCreateMembership_eq db user org role now with ⟨hm, hdb⟩ | ⟨hnone, hdb⟩
  · rw [hdb]
    exact ⟨hm, fun _ _ h => h⟩
  · rw [hdb]
    constructor
    · refine ⟨_, Table.first?_insert_of_none _ hnone ?_⟩
      simp
    · exact fun v m hm => Table.first?_insert_of_some _ hm

theorem users_getOrCreateMembership (user : Nat) (role : Role) (now : Int) :
    (getOrCreateMembership db user org role now).2.users = db.users := by
  rcases getOrCreateMembership_eq db user org role now with ⟨-, hdb⟩ | ⟨-, hdb⟩
  · rw [hdb]
  · rw [hdb]
    rfl

/-- What one turn of the loop does. -/
theorem seedMember_cases (h : seedMember E s org d st = .ok st') :
    ∃ id users, DemoUserSaved E s d st.db.users id users ∧ st' =
      ⟨(getOrCreateMembership { st.db with users := users } id org d.role s.now).2,
        (d.role, id) :: st.users⟩ := by
  unfold seedMember getOrCreateUser at h
  cases hfirst : st.db.users.first? (·.val.email == d.email) with
  | some u =>
      rw [hfirst] at h
      cases h
      exact ⟨u.id, _, .reset hfirst, rfl⟩
  | none =>
      rw [hfirst] at h
      simp only at h
      split at h
      · cases h
      · next heq =>
        split at heq
        · cases heq
        · cases heq
          cases h
          have hsaved : DemoUserSaved E s d st.db.users _ (st.db.users.insert
              (resetDemoUser E s d (newDemoUser s d))) := .created hfirst rfl rfl
          refine ⟨_, _, hsaved, ?_⟩
          simp only [Table.modify_insert]

theorem exists_seedMember (htidy : Tidy E st.db.users) (hlower : E.lower d.email = d.email) :
    ∃ st', seedMember E s org d st = .ok st' := by
  unfold seedMember getOrCreateUser
  cases hfirst : st.db.users.first? (·.val.email == d.email) with
  | some u => exact ⟨_, rfl⟩
  | none =>
      rw [htidy.emailTaken hlower hfirst]
      exact ⟨_, rfl⟩

theorem tidy_of_seedMember (hlower : E.lower d.email = d.email)
    (h : seedMember E s org d st = .ok st') (htidy : Tidy E st.db.users) :
    Tidy E st'.db.users := by
  obtain ⟨id, users, hsaved, rfl⟩ := seedMember_cases h
  rw [users_getOrCreateMembership]
  exact hsaved.tidy htidy hlower

theorem memberSeeded_of_seedMember (h : seedMember E s org d st = .ok st') :
    MemberSeeded E s org d st' := by
  obtain ⟨id, users, hsaved, rfl⟩ := seedMember_cases h
  obtain ⟨u, hu, rfl, hpassword, hverified⟩ := hsaved.first?
  refine ⟨u, ⟨?_, hverified, ?_⟩, hpassword, List.mem_cons_self⟩
  · rw [users_getOrCreateMembership]
    exact hu
  · exact (membershipIn_getOrCreateMembership u.id d.role s.now).1

/-- A demo user stays a member while another is seen to. -/
theorem DemoMember.keep {u : Row User} (h : DemoMember org d st.db u) (hne : d.email ≠ d'.email)
    (hstep : seedMember E s org d' st = .ok st') : DemoMember org d st'.db u := by
  obtain ⟨id, users, hsaved, rfl⟩ := seedMember_cases hstep
  obtain ⟨m, hm⟩ := h.member
  refine ⟨?_, h.verified, m, ?_⟩
  · rw [users_getOrCreateMembership]
    exact hsaved.other hne h.found
  · exact (membershipIn_getOrCreateMembership id d'.role s.now).2 u.id m hm

theorem MemberSeeded.keep (h : MemberSeeded E s org d st) (hne : d.email ≠ d'.email)
    (hstep : seedMember E s org d' st = .ok st') : MemberSeeded E s org d st' := by
  obtain ⟨u, hmember, hpassword, hlisted⟩ := h
  refine ⟨u, hmember.keep hne hstep, hpassword, ?_⟩
  obtain ⟨id, users, -, rfl⟩ := seedMember_cases hstep
  exact List.mem_cons_of_mem _ hlisted

theorem email_ne_of_ne (h : d ∈ demoUsers) (h' : d' ∈ demoUsers) (hne : d ≠ d') :
    d.email ≠ d'.email := by
  have hemails : (demoUsers.map DemoUser.email).Nodup := by decide
  exact fun heq => hne (List.inj_on_of_nodup_map hemails h h' heq)

/-- **The demo users after the loop.** -/
theorem follow_seedMember (h : follow (seedMember E s org) demoUsers st = .ok st') :
    ∀ d ∈ demoUsers, MemberSeeded E s org d st' := by
  refine follow_goals (by decide) (fun d _ _ _ => memberSeeded_of_seedMember) ?_ h
  intro d hd d' hd' hne _ _ hstep h'
  exact h'.keep (email_ne_of_ne hd' hd hne.symm) hstep

/-- **Nothing goes wrong** in the loop where the accounts are tidy, and they stay so. -/
theorem exists_follow_seedMember (hdemo : ∀ d ∈ demoUsers, E.lower d.email = d.email)
    (org : Nat) (st : SeedState) (htidy : Tidy E st.db.users) :
    ∃ st', follow (seedMember E s org) demoUsers st = .ok st' ∧ Tidy E st'.db.users := by
  have hstep : ∀ d ∈ demoUsers, ∀ st : SeedState, Tidy E st.db.users →
      ∃ st', seedMember E s org d st = .ok st' ∧ Tidy E st'.db.users := by
    intro d hd st htidy
    obtain ⟨st', h⟩ := exists_seedMember htidy (hdemo d hd)
    exact ⟨st', h, tidy_of_seedMember (hdemo d hd) h htidy⟩
  exact follow_of_invariant hstep htidy

end Members

/-! ## The projects -/

section Projects

variable {s : SeedRun} {org : Nat} {creator : Option Nat} {name name' : String} {db db' : Db}

theorem seedProject_cases (h : seedProject s org creator name db = .ok db') :
    (namesakes org name db = [] ∧ ∃ p : Project, p.organization = org ∧ p.name = name ∧
        db' = { db with projects := db.projects.insert p }) ∨
      ((∃ p, namesakes org name db = [p]) ∧ db' = db) := by
  unfold seedProject at h
  split at h
  · next hnone =>
    cases h
    exact .inl ⟨hnone, _, rfl, rfl, rfl⟩
  · next p hone =>
    cases h
    exact .inr ⟨⟨p, hone⟩, rfl⟩
  · cases h

/-- `get_or_create` takes no project or one; two are too many. -/
theorem exists_seedProject_iff :
    (∃ db', seedProject s org creator name db = .ok db') ↔ (namesakes org name db).length ≤ 1 := by
  unfold seedProject
  cases namesakes org name db with
  | nil => simp
  | cons p ps =>
      cases ps with
      | nil => simp
      | cons q qs => simp

theorem seedProject_of_one {p : Row Project} (h : namesakes org name db = [p]) :
    seedProject s org creator name db = .ok db := by
  simp only [seedProject, h]

theorem one_of_seedProject (h : seedProject s org creator name db = .ok db') :
    ∃ p, namesakes org name db' = [p] := by
  rcases seedProject_cases h with ⟨hnone, p, rfl, rfl, rfl⟩ | ⟨hone, rfl⟩
  · refine ⟨⟨db.projects.nextId, p⟩, ?_⟩
    have hinsert := db.projects.select_insert p
      fun q => q.val.organization == p.organization && q.val.name == p.name
    refine hinsert.trans ?_
    have hnone : db.projects.select
      (fun q => q.val.organization == p.organization && q.val.name == p.name) = [] := hnone
    simp [hnone]
  · exact hone

/-- The projects of another name are left alone. -/
theorem namesakes_of_seedProject (h : seedProject s org creator name db = .ok db')
    (hne : name' ≠ name) : namesakes org name' db' = namesakes org name' db := by
  rcases seedProject_cases h with ⟨-, p, -, rfl, rfl⟩ | ⟨-, rfl⟩
  · have hinsert := db.projects.select_insert p
      fun q => q.val.organization == org && q.val.name == name'
    refine hinsert.trans ?_
    simp [namesakes, hne.symm]
  · rfl

/-- Afterwards each demo project is there once, and nothing but projects has changed. -/
theorem follow_seedProject (h : follow (seedProject s org creator) demoProjects db = .ok db') :
    (∀ name ∈ demoProjects, ∃ p, namesakes org name db' = [p]) ∧
      db' = { db with projects := db'.projects } := by
  constructor
  · have hmake : ∀ name ∈ demoProjects, ∀ t t', seedProject s org creator name t = .ok t' →
        ∃ p, namesakes org name t' = [p] := fun _ _ _ _ => one_of_seedProject
    refine follow_goals (by decide) hmake ?_ h
    rintro name - name' - hne _ _ hstep ⟨p, hp⟩
    exact ⟨p, by rw [namesakes_of_seedProject hstep hne.symm, hp]⟩
  · refine follow_keeps (Q := fun db' => db' = { db with projects := db'.projects }) ?_ h rfl
    rintro name - t t' hstep ht
    rcases seedProject_cases hstep with ⟨-, p, -, -, rfl⟩ | ⟨-, rfl⟩
    · rw [ht]
    · exact ht

/-- **When the projects can be made sure of**: where no demo name is there twice. -/
theorem exists_follow_seedProject_iff :
    (∃ db', follow (seedProject s org creator) demoProjects db = .ok db') ↔
      ∀ name ∈ demoProjects, (namesakes org name db).length ≤ 1 := by
  constructor
  · rintro ⟨db', h⟩ name hname
    obtain ⟨p, hp⟩ := (follow_seedProject h).1 name hname
    -- projects do not go away
    have hle : (namesakes org name db).length ≤ (namesakes org name db').length := by
      refine follow_keeps (Q := fun t =>
        (namesakes org name db).length ≤ (namesakes org name t).length) ?_ h (Nat.le_refl _)
      intro name' _ t t' hstep ht
      by_cases heq : name = name'
      · subst heq
        obtain ⟨q, hq⟩ := one_of_seedProject hstep
        have hle := exists_seedProject_iff.mp ⟨t', hstep⟩
        rw [hq]
        exact ht.trans hle
      · rwa [namesakes_of_seedProject hstep heq]
    simpa [hp] using hle
  · intro hfew
    have hstep : ∀ name ∈ demoProjects, ∀ t : Db,
        (∀ name' ∈ demoProjects, (namesakes org name' t).length ≤ 1) →
        ∃ t', seedProject s org creator name t = .ok t' ∧
          ∀ name' ∈ demoProjects, (namesakes org name' t').length ≤ 1 := by
      intro name hname t hfew
      obtain ⟨t', ht'⟩ := exists_seedProject_iff.mpr (hfew name hname)
      refine ⟨t', ht', fun name' hname' => ?_⟩
      by_cases heq : name' = name
      · obtain ⟨p, hp⟩ := one_of_seedProject ht'
        simp [heq, hp]
      · rw [namesakes_of_seedProject ht' heq]
        exact hfew name' hname'
    obtain ⟨db', h, -⟩ := follow_of_invariant hstep hfew
    exact ⟨db', h⟩

/-- Projects that are there once are found. -/
theorem follow_seedProject_again
    (h : ∀ name ∈ demoProjects, ∃ p, namesakes org name db = [p]) :
    follow (seedProject s org creator) demoProjects db = .ok db := by
  refine follow_eq_self fun name hname => ?_
  obtain ⟨p, hp⟩ := h name hname
  exact seedProject_of_one hp

end Projects

/-! ## The organization -/

section Organization

variable {db : Db} {org : Row Organization} {creator : Option Nat} {now : Int}

/-- The organization is found, or one is created. -/
theorem getOrCreateOrganization_cases (db : Db) (now : Int) :
    (∃ org, demoOrganization db = some org ∧ getOrCreateOrganization db now = (org, db)) ∨
      (demoOrganization db = none ∧ ∃ subscriptions,
        getOrCreateOrganization db now =
          (⟨db.organizations.nextId, "Acme Inc", demoSlug, none, now⟩,
            { db with
              organizations := db.organizations.insert ⟨"Acme Inc", demoSlug, none, now⟩
              subscriptions := subscriptions })) := by
  unfold getOrCreateOrganization
  cases demoOrganization db with
  | some org => exact .inl ⟨org, rfl, rfl⟩
  | none =>
      let inserted : Db := { db with
        organizations := db.organizations.insert ⟨"Acme Inc", demoSlug, none, now⟩ }
      let out := createFreeSubscription inserted db.organizations.nextId now
      refine .inr ⟨rfl, out.subscriptions, ?_⟩
      exact congrArg (Prod.mk _) (createFreeSubscription_eq inserted _ now)

theorem demoOrganization_getOrCreate (db : Db) (now : Int) :
    demoOrganization (getOrCreateOrganization db now).2 =
      some (getOrCreateOrganization db now).1 := by
  rcases getOrCreateOrganization_cases db now with ⟨org, hfound, heq⟩ | ⟨hnone, subs, heq⟩
  · rw [heq, hfound]
  · rw [heq]
    exact Table.first?_insert_of_none _ hnone (by simp)

/-- The organization has somebody who created it, then. -/
theorem demoOrganization_setCreator (h : demoOrganization db = some org) (user : Nat) :
    ∃ org', demoOrganization (setCreator org (some user) db) = some org' ∧ org'.id = org.id ∧
      org'.val.createdBy.isSome = true := by
  unfold setCreator
  cases hcreated : org.val.createdBy with
  | some _ => exact ⟨org, h, rfl, by simp [hcreated]⟩
  | none =>
      refine ⟨⟨org.id, { org.val with createdBy := some user }⟩, ?_, rfl, rfl⟩
      have hfound : (db.organizations.first? fun o => o.val.slug == demoSlug) = some org := h
      show (db.organizations.modify org.id _).first? (fun o => o.val.slug == demoSlug) = _
      rw [Table.first?_modify _ fun _ _ _ => rfl, hfound]
      simp [Table.setRow]

theorem setCreator_of_isSome (h : org.val.createdBy.isSome = true) :
    setCreator org creator db = db := by
  simp [setCreator, Option.isNone_iff_eq_none, Option.isSome_iff_ne_none.mp h]

theorem setCreator_eq (org : Row Organization) (creator : Option Nat) (db : Db) :
    setCreator org creator db =
      { db with organizations := (setCreator org creator db).organizations } := by
  unfold setCreator
  split
  · rfl
  · rfl

end Organization

/-! ## The whole command -/

/-- Everything `seed_demo` is to make sure of, around the organization `org`. -/
structure Seeded (E : Env) (s : SeedRun) (org : Row Organization) (db : Db) : Prop where
  plans    : ∀ spec ∈ defaultPlans, PlanSeeded s spec db
  tidy     : Tidy E db.users
  found    : demoOrganization db = some org
  creator  : org.val.createdBy.isSome = true
  members  : ∀ d ∈ demoUsers, ∃ u, DemoMember org.id d db u ∧
    u.val.password = E.makePassword demoPassword (s.salt d.email)
  projects : ∀ name ∈ demoProjects, ∃ p, namesakes org.id name db = [p]

/-- What belongs to an organization belongs to one there has been. -/
structure Housed (db : Db) : Prop where
  members     : ∀ m ∈ db.memberships.rows, m.val.organization < db.organizations.nextId
  invitations : ∀ i ∈ db.invitations.rows, i.val.organization < db.organizations.nextId
  projects    : ∀ p ∈ db.projects.rows, p.val.organization < db.organizations.nextId

/-- No demo project is there twice. -/
def FewProjects (db : Db) : Prop :=
  ∀ org, demoOrganization db = some org →
    ∀ name ∈ demoProjects, (namesakes org.id name db).length ≤ 1

section Command

variable {E : Env} {s : SeedRun} {org : Row Organization} {db db' : Db}

theorem seedDemo_eq_ok :
    seedDemo E s db = .ok db' ↔ ∃ planned st,
      follow (seedPlan s) defaultPlans db = .ok planned ∧
      follow (seedMember E s (getOrCreateOrganization planned s.now).1.id) demoUsers
        { db := (getOrCreateOrganization planned s.now).2 } = .ok st ∧
      follow (seedProject s (getOrCreateOrganization planned s.now).1.id (st.users.lookup .owner))
        demoProjects
        (setCreator (getOrCreateOrganization planned s.now).1 (st.users.lookup .owner) st.db) =
          .ok db' := by
  constructor
  · intro h
    obtain ⟨planned, hplans, h⟩ := bind_eq_ok.mp h
    obtain ⟨st, hmembers, h⟩ := bind_eq_ok.mp h
    exact ⟨planned, st, hplans, hmembers, h⟩
  · rintro ⟨planned, st, hplans, hmembers, hprojects⟩
    exact bind_eq_ok.mpr ⟨planned, hplans, bind_eq_ok.mpr ⟨st, hmembers, hprojects⟩⟩

/-- The loop over the users touches nothing but users and memberships. -/
theorem follow_seedMember_eq {org : Nat} {st st' : SeedState}
    (h : follow (seedMember E s org) demoUsers st = .ok st') :
    st'.db = { st.db with users := st'.db.users, memberships := st'.db.memberships } := by
  refine follow_keeps (Q := fun st' : SeedState =>
    st'.db = { st.db with users := st'.db.users, memberships := st'.db.memberships }) ?_ h rfl
  rintro d - t t' hstep ht
  obtain ⟨id, users, -, rfl⟩ := seedMember_cases hstep
  rcases getOrCreateMembership_eq { t.db with users := users } id org d.role s.now with
    ⟨-, hdb⟩ | ⟨-, hdb⟩
  · simp only [hdb]
    rw [ht]
  · simp only [hdb, insertMembership]
    rw [ht]

theorem getOrCreateOrganization_eq (db : Db) (now : Int) :
    (getOrCreateOrganization db now).2 = { db with
      organizations := (getOrCreateOrganization db now).2.organizations
      subscriptions := (getOrCreateOrganization db now).2.subscriptions } := by
  rcases getOrCreateOrganization_cases db now with ⟨org, -, heq⟩ | ⟨-, subs, heq⟩
  · rw [heq]
  · rw [heq]

/-- What is read of users and memberships alone survives what touches neither. -/
theorem DemoMember.congr {d : DemoUser} {u : Row User} {id : Nat} (h : DemoMember id d db u)
    (husers : db'.users = db.users) (hmembers : db'.memberships = db.memberships) :
    DemoMember id d db' u := by
  refine ⟨husers ▸ h.found, h.verified, ?_⟩
  unfold membershipIn
  rw [hmembers]
  exact h.member

/-- **What a run leaves.** -/
theorem seeded_of_seedDemo (hdemo : ∀ d ∈ demoUsers, E.lower d.email = d.email)
    (htidy : Tidy E db.users) (h : seedDemo E s db = .ok db') : ∃ org, Seeded E s org db' := by
  obtain ⟨planned, st, hplans, hmembers, hprojects⟩ := seedDemo_eq_ok.mp h
  obtain ⟨hplans, hplanned⟩ := follow_seedPlan hplans
  have hfound := demoOrganization_getOrCreate planned s.now
  have hcreated := getOrCreateOrganization_eq planned s.now
  generalize (getOrCreateOrganization planned s.now).1 = org₀ at *
  generalize (getOrCreateOrganization planned s.now).2 = found at *
  have hst := follow_seedMember_eq hmembers
  -- the owner is in the dictionary, so the organization has its creator
  obtain ⟨owner, howner⟩ : ∃ owner, st.users.lookup .owner = some owner := by
    obtain ⟨u, -, -, hlisted⟩ := follow_seedMember hmembers
      ⟨"owner@acme.test", "Olivia Owner", .owner⟩ (by decide)
    exact Option.isSome_iff_exists.mp (List.lookup_isSome_iff.mpr ⟨_, hlisted, by simp⟩)
  rw [howner] at hprojects
  have hfound' : demoOrganization st.db = some org₀ := by rw [hst]; exact hfound
  obtain ⟨org, horg, hid, hcreator⟩ := demoOrganization_setCreator hfound' owner
  have hset := setCreator_eq org₀ (some owner) st.db
  obtain ⟨hprojects, hdb'⟩ := follow_seedProject hprojects
  have husers : db'.users = st.db.users := by rw [hdb', hset]
  refine ⟨org, ?_, ?_, ?_, hcreator, ?_, ?_⟩
  · intro spec hspec
    have hplans' : db'.plans = planned.plans := by rw [hdb', hset, hst, hcreated]
    obtain ⟨hwidth, hrow⟩ := hplans spec hspec
    exact ⟨hwidth, by rw [hplans']; exact hrow⟩
  · rw [husers]
    have hstart : found.users = db.users := by rw [hcreated, hplanned]
    refine follow_keeps (Q := fun st : SeedState => Tidy E st.db.users) ?_ hmembers ?_
    · exact fun d hd _ _ => tidy_of_seedMember (hdemo d hd)
    · exact hstart ▸ htidy
  · rw [hdb']
    exact horg
  · intro d hd
    obtain ⟨u, hmember, hpassword, -⟩ := follow_seedMember hmembers d hd
    exact ⟨u, hid ▸ hmember.congr husers (by rw [hdb', hset]), hpassword⟩
  · rw [hid]
    exact hprojects

theorem namesakes_congr {id : Nat} {name : String} (hprojects : db'.projects = db.projects) :
    namesakes id name db' = namesakes id name db := by
  rw [namesakes, namesakes, hprojects]

/-- A new organization has no projects. -/
theorem FewProjects.getOrCreate (h : FewProjects db) (hhoused : Housed db) (now : Int) :
    ∀ name ∈ demoProjects,
      (namesakes (getOrCreateOrganization db now).1.id name db).length ≤ 1 := by
  intro name hname
  rcases getOrCreateOrganization_cases db now with ⟨org, hfound, heq⟩ | ⟨-, subs, heq⟩
  · rw [heq]
    exact h org hfound name hname
  · have hnone : namesakes db.organizations.nextId name db = [] := by
      refine List.filter_eq_nil_iff.mpr fun p hp => ?_
      have hne := Nat.ne_of_lt (hhoused.projects p hp)
      simp [hne]
    rw [heq, hnone]
    simp

/-- **When the command completes.** -/
theorem exists_seedDemo_iff (hdemo : ∀ d ∈ demoUsers, E.lower d.email = d.email)
    (htidy : Tidy E db.users) (hhoused : Housed db) :
    (∃ db', seedDemo E s db = .ok db') ↔ PricesFit s ∧ FewProjects db := by
  constructor
  · rintro ⟨db', h⟩
    obtain ⟨planned, st, hplans, hmembers, hprojects⟩ := seedDemo_eq_ok.mp h
    obtain ⟨-, hplanned⟩ := follow_seedPlan hplans
    refine ⟨exists_follow_seedPlan_iff.mp ⟨planned, hplans⟩, fun org horg name hname => ?_⟩
    have hfew := exists_follow_seedProject_iff.mp ⟨db', hprojects⟩ name hname
    -- the organization that is found is the one the projects are looked for in
    have horg : demoOrganization planned = some org := by
      rw [hplanned]
      exact horg
    have hfound : getOrCreateOrganization planned s.now = (org, planned) := by
      simp only [getOrCreateOrganization, horg]
    rw [hfound] at hmembers hfew
    have hsame : (setCreator org (st.users.lookup .owner) st.db).projects = db.projects := by
      rw [setCreator_eq, follow_seedMember_eq hmembers, hplanned]
    rwa [namesakes_congr hsame] at hfew
  · rintro ⟨hprices, hfew⟩
    obtain ⟨planned, hplans⟩ := exists_follow_seedPlan_iff.mpr hprices
    obtain ⟨-, hplanned⟩ := follow_seedPlan hplans
    have hcreated := getOrCreateOrganization_eq planned s.now
    have htidy' : Tidy E (getOrCreateOrganization planned s.now).2.users := by
      rw [hcreated, hplanned]
      exact htidy
    have hhoused' : Housed planned := by
      rw [hplanned]
      exact ⟨hhoused.members, hhoused.invitations, hhoused.projects⟩
    have hfew' : FewProjects planned := by
      rw [hplanned]
      exact hfew
    obtain ⟨st, hmembers, -⟩ := exists_follow_seedMember (s := s) hdemo
      (getOrCreateOrganization planned s.now).1.id
      { db := (getOrCreateOrganization planned s.now).2 } htidy'
    have hsame : (setCreator (getOrCreateOrganization planned s.now).1 (st.users.lookup .owner)
        st.db).projects = planned.projects := by
      rw [setCreator_eq, follow_seedMember_eq hmembers, hcreated]
    have hfew'' := hfew'.getOrCreate hhoused' s.now
    simp only [← namesakes_congr hsame] at hfew''
    obtain ⟨db', hprojects⟩ := exists_follow_seedProject_iff.mpr hfew''
    exact ⟨db', seedDemo_eq_ok.mpr ⟨planned, st, hplans, hmembers, hprojects⟩⟩

end Command

end Bastiq
