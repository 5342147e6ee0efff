import Bastiq.Organizations.SeedDemo

/-!
# Seeding the demo data again

The command documents itself as idempotent and is run at every boot, between requests of anybody. It
is: a second run writes three hashes of the one password and nothing else. And it completes, unless
two projects of Acme Inc have come to bear the name of one of the demo's, which whoever may create
projects there is free to bring about.
-/

namespace Bastiq

open Relational View Transition

/-! ## A second run -/

/-- The documented password under the salts of a run, and nothing else. -/
def rehash (E : Env) (s : SeedRun) (db : Db) : Db :=
  { db with
    users := db.users.update (fun u => (demoUsers.map DemoUser.email).contains u.val.email) fun u =>
      { u with password := E.makePassword demoPassword (s.salt u.email) } }

/-- The same prices are configured. -/
def SamePrices (s s' : SeedRun) : Prop :=
  s'.pricePro = s.pricePro ∧ s'.priceBusiness = s.priceBusiness

section Again

variable {E : Env} {s s' : SeedRun} {org : Row Organization} {db : Db}

/-- Where the documented passwords are stored under the salts of the run, there is nothing to do. -/
theorem rehash_eq_self (htidy : Tidy E db.users)
    (hstored : ∀ d ∈ demoUsers, ∃ u, db.users.first? (·.val.email == d.email) = some u ∧
      u.val.password = E.makePassword demoPassword (s.salt d.email)) : rehash E s db = db := by
  have husers : (rehash E s db).users = db.users := by
    refine Table.update_eq_self _ fun r hr hdemo => ?_
    rw [List.contains_iff_mem] at hdemo
    obtain ⟨d, hd, hemail⟩ := List.mem_map.mp hdemo
    obtain ⟨u, hu, hpassword⟩ := hstored d hd
    have hu_email : u.val.email = d.email := by simpa using Table.pos_of_first? hu
    -- the row under the address is the one that is found
    obtain rfl := htidy.alone r hr u (Table.mem_of_first? hu) (by rw [hu_email, hemail])
    have hhash : E.makePassword demoPassword (s.salt r.val.email) = r.val.password := by
      rw [hpassword, hu_email]
    simp only [hhash]
  exact congrArg (fun users => { db with users := users }) husers

/-- What resets a verified account writes its hash only. -/
theorem resetDemoUser_of_verified {d : DemoUser} {u : User} (h : u.isEmailVerified = true) :
    resetDemoUser E s d u =
      { u with password := E.makePassword demoPassword (s.salt d.email) } := by
  rw [resetDemoUser, ← h]

theorem rehash_modify {id : Nat} {d : DemoUser} {u : Row User} (hd : d ∈ demoUsers)
    (h : DemoMember id d db u) :
    rehash E s { db with users := db.users.modify u.id (resetDemoUser E s d) } = rehash E s db := by
  have hemail : u.val.email = d.email := by simpa using Table.pos_of_first? h.found
  have hdemo : (demoUsers.map DemoUser.email).contains d.email = true := by
    rw [List.contains_iff_mem]
    exact List.mem_map_of_mem hd
  refine congrArg (fun users => { db with users := users }) (Table.update_modify _ ?_)
  intro r hr hid
  obtain rfl := db.users.eq_of_id_eq hr (Table.mem_of_first? h.found) hid
  rw [resetDemoUser_of_verified h.verified, Table.setRow_of_pos, Table.setRow_of_pos]
  · rw [hemail]
    exact hdemo
  · rw [hemail]
    exact hdemo

theorem seedMember_of_demoMember {id : Nat} {d : DemoUser} {st : SeedState} {u : Row User}
    (h : DemoMember id d st.db u) :
    seedMember E s id d st = .ok
      ⟨{ st.db with users := st.db.users.modify u.id (resetDemoUser E s d) },
        (d.role, u.id) :: st.users⟩ := by
  obtain ⟨m, hm⟩ := h.member
  have hm' : membershipIn { st.db with users := st.db.users.modify u.id (resetDemoUser E s d) }
      u.id id = some m := hm
  simp only [seedMember, getOrCreateUser, h.found, getOrCreateMembership, hm']

/-- The loop over users that are there writes their hashes. -/
theorem follow_seedMember_again {id : Nat} (hdemo : ∀ d ∈ demoUsers, E.lower d.email = d.email)
    (htidy : Tidy E db.users) (h : ∀ d ∈ demoUsers, ∃ u, DemoMember id d db u) :
    ∃ st, follow (seedMember E s id) demoUsers { db := db } = .ok st ∧ st.db = rehash E s db := by
  have hstep : ∀ d ∈ demoUsers, ∀ st : SeedState,
      (Tidy E st.db.users ∧ rehash E s st.db = rehash E s db ∧
        ∀ d ∈ demoUsers, ∃ u, DemoMember id d st.db u) →
      ∃ st', seedMember E s id d st = .ok st' ∧ Tidy E st'.db.users ∧
        rehash E s st'.db = rehash E s db ∧ ∀ d ∈ demoUsers, ∃ u, DemoMember id d st'.db u := by
    rintro d hd st ⟨htidy, hsame, hmembers⟩
    obtain ⟨u, hu⟩ := hmembers d hd
    have hrun := seedMember_of_demoMember hu (E := E) (s := s)
    refine ⟨_, hrun, tidy_of_seedMember (hdemo d hd) hrun htidy, ?_, fun d' hd' => ?_⟩
    · exact (rehash_modify hd hu).trans hsame
    · by_cases heq : d' = d
      · obtain ⟨v, hv, -⟩ := memberSeeded_of_seedMember hrun
        exact ⟨v, heq ▸ hv⟩
      · obtain ⟨v, hv⟩ := hmembers d' hd'
        exact ⟨v, hv.keep (email_ne_of_ne hd' hd heq) hrun⟩
  obtain ⟨st, hrun, htidy', hsame, -⟩ :=
    follow_of_invariant hstep (s := { db := db }) ⟨htidy, rfl, h⟩
  refine ⟨st, hrun, ?_⟩
  rw [← hsame]
  refine (rehash_eq_self htidy' fun d hd => ?_).symm
  obtain ⟨u, hu, hpassword, -⟩ := follow_seedMember hrun d hd
  exact ⟨u, hu.found, hpassword⟩

theorem PlanSeeded.congr {spec : String × String × Limits} (h : PlanSeeded s spec db)
    (hprices : SamePrices s s') : PlanSeeded s' spec db := by
  have hprice : s'.price spec.1 = s.price spec.1 := by
    rw [SeedRun.price, SeedRun.price, hprices.1, hprices.2]
  obtain ⟨p, hp, hplan⟩ := h.row
  have hsame : s'.planOf spec p.val = s.planOf spec p.val := by
    rw [SeedRun.planOf, SeedRun.planOf, hprice]
  exact ⟨hprice ▸ h.width, p, hp, hsame.trans hplan⟩

/-- **A second run** writes the three hashes, and nothing else. -/
theorem Seeded.again (h : Seeded E s org db)
    (hdemo : ∀ d ∈ demoUsers, E.lower d.email = d.email) (hprices : SamePrices s s') :
    seedDemo E s' db = .ok (rehash E s' db) := by
  have hfound : getOrCreateOrganization db s'.now = (org, db) := by
    simp only [getOrCreateOrganization, h.found]
  have hpresent : ∀ d ∈ demoUsers, ∃ u, DemoMember org.id d db u :=
    fun d hd => (h.members d hd).imp fun u hu => hu.1
  obtain ⟨st, hmembers, hst⟩ := follow_seedMember_again (s := s') hdemo h.tidy hpresent
  refine seedDemo_eq_ok.mpr ⟨db, st, ?_, ?_, ?_⟩
  · exact follow_seedPlan_again fun spec hspec => (h.plans spec hspec).congr hprices
  · rw [hfound]
    exact hmembers
  · rw [hfound, setCreator_of_isSome h.creator, hst]
    exact follow_seedProject_again fun name hname => h.projects name hname

end Again

/-! ## Requests of anybody, and boots -/

/-- A request, or a boot of the deployment, which runs the command. -/
inductive DemoEvent where
  | call (c : Call)
  | seed (s : SeedRun)

/-- A run that raises is rolled back. -/
def DemoEvent.step (E : Env) : DemoEvent → Db → Db
  | .call c, db => c.step E db
  | .seed s, db =>
      match seedDemo E s db with
      | .ok db' => db'
      | .error _ => db

section Users

variable {E : Env} {db db' : Db} {c : Call}

theorem lower_storedEmail (hidem : ∀ email, E.lower (E.lower email) = E.lower email)
    (email : String) : E.lower (storedEmail E email) = storedEmail E email := by
  simp only [storedEmail]
  split
  · exact hidem _
  · exact hidem _

theorem users_authenticated {β : Type} {bearer : Option Nat}
    {view : Row User → View β (Response β × Db)}
    (h : ∀ user r db', view user = .ok (r, db') → db'.users = db.users) :
    (authenticated db bearer view).2.users = db.users :=
  authenticated_db_cases (fun db' => db'.users = db.users) rfl
    fun user r db' _ hview => h user r db' hview

/-- The requests that touch no account. -/
theorem users_of_respond (hregister : ∀ data, c.request ≠ .register data)
    (haccount : ∀ user w, c.request ≠ .account user w) : (c.step E db).users = db.users := by
  unfold Call.step Call.respond
  cases hrequest : c.request with
  | organization a =>
      refine users_authenticated fun user r db' hview => ?_
      rcases organizationAction_cases hview with ⟨name, slug, org, hinsert⟩ |
        ⟨org, role, saved, -, -, -, rfl⟩ | ⟨org, -, rfl⟩
      · obtain ⟨-, subs, rfl, -⟩ := insertOrganization_eq_ok hinsert
        rfl
      · rfl
      · rfl
  | member pk memberPk a =>
      refine users_authenticated fun user r db' hview => ?_
      obtain ⟨actor, target, -, -, -, ⟨-, rfl⟩ | ⟨new, -, -, rfl⟩⟩ := memberRequest_cases hview
      · rfl
      · rfl
  | invite pk data =>
      refine users_authenticated fun user r db' hview => ?_
      obtain ⟨org, -, actor, email, new, -, -, -, -, -, -, rfl⟩ := inviteMember_cases hview
      rfl
  | accept data =>
      refine users_authenticated fun user r db' hview => ?_
      obtain ⟨i, -, -, rfl | ⟨-, ⟨-, rfl⟩ | ⟨-, rfl⟩⟩⟩ := acceptInvitation_cases hview
      · rfl
      · rfl
      · rfl
  | project header query data a =>
      refine perform_db_cases (motive := fun db' => db'.users = db.users) db _ rfl
        fun r db' hview => ?_
      rcases projectView_cases hview with rfl | ⟨user, m, -, -, ⟨p, -, -, rfl⟩ |
        ⟨p, -, -, -, ⟨name, description, rfl⟩ | rfl⟩⟩
      · rfl
      · rfl
      · rfl
      · rfl
  | checkout header data stripe =>
      refine users_authenticated fun user r db' hview => ?_
      rcases checkout_cases hview with rfl | ⟨sub, customer, -, -, -, rfl⟩
      · rfl
      · rfl
  | register data => exact absurd hrequest (hregister data)
  | webhook d =>
      rcases postWebhook_cases d db with hsame | ⟨-, hprocess⟩
      · simp only [hsame]
      · obtain ⟨-, -, write, -, hdb⟩ := Delivery.process_eq_ok.mp hprocess
        simp only [hdb]
        rfl
  | account user w => exact absurd hrequest (haccount user w)

/-- Whatever is asked of the API, the accounts stay tidy. -/
theorem Tidy.step (hidem : ∀ email, E.lower (E.lower email) = E.lower email)
    (h : Tidy E db.users) (c : Call) : Tidy E (c.step E db).users := by
  cases hrequest : c.request with
  | register data =>
      simp only [Call.step, Call.respond, hrequest]
      refine perform_db_cases (motive := fun db' => Tidy E db'.users) db _ h fun r db' hview => ?_
      obtain ⟨reg, user, -, hcreate⟩ := register_cases hview
      obtain ⟨rfl, -, hemail, -, hactive, -, hfree⟩ := createUser_eq_ok hcreate
      refine h.insert ?_ hactive fun u hu heq => ?_
      · rw [hemail]
        exact lower_storedEmail hidem reg.email
      · have hne := Table.any_eq_false_iff.mp hfree u hu
        simp [Env.iexact, heq] at hne
  | account user w =>
      simp only [Call.step, Call.respond, hrequest]
      refine h.modify user w.apply_email fun u => ?_
      cases w <;> rfl
  | _ =>
      rw [users_of_respond]
      · exact h
      · simp [hrequest]
      · simp [hrequest]

end Users

section Houses

variable {E : Env} {s : SeedRun} {db db' : Db}

theorem mem_of_isOrganizationMember {user : Nat} {header : Option String} {m : Row Membership}
    (h : isOrganizationMember db user header = some m) : m ∈ db.memberships.rows := by
  unfold isOrganizationMember at h
  split at h
  · cases h
  · exact Table.mem_of_first? h

theorem Housed.setInvitationStatus (h : Housed db) (id : Nat) (status : InvitationStatus) :
    Housed (setInvitationStatus db id status) := by
  refine ⟨h.members, fun i hi => ?_, h.projects⟩
  rcases Table.mem_modify.mp hi with ⟨hi, -⟩ | ⟨i', hi', -, rfl⟩
  · exact h.invitations i hi
  · exact h.invitations i' hi'

theorem Housed.insertMembership (h : Housed db) {m : Membership}
    (hm : m.organization < db.organizations.nextId) : Housed (insertMembership db m) := by
  refine ⟨fun r hr => ?_, h.invitations, h.projects⟩
  rcases Table.mem_insert.mp hr with hr | rfl
  · exact h.members r hr
  · exact hm

theorem Housed.insertProject (h : Housed db) {p : Project}
    (hp : p.organization < db.organizations.nextId) :
    Housed { db with projects := db.projects.insert p } := by
  refine ⟨h.members, h.invitations, fun r hr => ?_⟩
  rcases Table.mem_insert.mp hr with hr | rfl
  · exact h.projects r hr
  · exact hp

/-- There is room for what belongs to a new organization. -/
theorem Housed.insertOrganization (h : Housed db) (org : Organization)
    (subscriptions : Table Subscription) :
    Housed { db with
      organizations := db.organizations.insert org, subscriptions := subscriptions } :=
  ⟨fun m hm => Nat.lt_succ_of_lt (h.members m hm),
    fun i hi => Nat.lt_succ_of_lt (h.invitations i hi),
    fun p hp => Nat.lt_succ_of_lt (h.projects p hp)⟩

theorem Housed.step (h : Housed db) (c : Call) : Housed (c.step E db) := by
  have hchange := c.change E db
  generalize c.step E db = db' at hchange ⊢
  cases hchange with
  | none => exact h
  | created _ _ hinsert =>
      obtain ⟨horg, subs, rfl, -⟩ := insertOrganization_eq_ok hinsert
      refine (h.insertOrganization _ subs).insertMembership ?_
      rw [horg]
      exact Nat.lt_succ_self _
  | destroyed =>
      exact ⟨fun m hm => h.members m (Table.mem_delete.mp hm).1,
        fun i hi => h.invitations i (Table.mem_delete.mp hi).1,
        fun p hp => h.projects p (Table.mem_delete.mp hp).1⟩
  | removed =>
      exact ⟨fun m hm => h.members m (Table.mem_delete.mp hm).1, h.invitations, h.projects⟩
  | roleSet =>
      refine ⟨fun m hm => ?_, h.invitations, h.projects⟩
      rcases Table.mem_modify.mp hm with ⟨hm, -⟩ | ⟨m', hm', -, rfl⟩
      · exact h.members m hm
      · exact h.members m' hm'
  | @invited user org actor new email _ _ horg =>
      refine ⟨h.members, fun i hi => ?_, h.projects⟩
      rcases Table.mem_insert.mp hi with hi | rfl
      · exact h.invitations i hi
      · exact db.organizations.fresh org horg
  | expired => exact h.setInvitationStatus _ _
  | used => exact h.setInvitationStatus _ _
  | @joined user i _ _ hi =>
      exact (h.insertMembership (m := ⟨_, _, _, _⟩) (h.invitations i hi)).setInvitationStatus _ _
  | projectCreated _ hmember horg _ =>
      refine h.insertProject ?_
      rw [horg]
      exact h.members _ (mem_of_isOrganizationMember hmember)
  | @projectSaved user header m p name description _ _ hp horg _ =>
      refine ⟨h.members, h.invitations, fun q hq => ?_⟩
      rcases Table.mem_modify.mp hq with ⟨hq, -⟩ | ⟨q, hq, -, rfl⟩
      · exact h.projects q hq
      · exact h.projects p hp
  | projectDeleted =>
      exact ⟨h.members, h.invitations, fun p hp => h.projects p (Table.mem_delete.mp hp).1⟩
  | delivered _ _ hprocess =>
      obtain ⟨-, -, write, -, rfl⟩ := Delivery.process_eq_ok.mp hprocess
      exact ⟨h.members, h.invitations, h.projects⟩
  | _ => exact ⟨h.members, h.invitations, h.projects⟩

/-! The command adds to the one organization only, which is there by then. -/

theorem Housed.seedMember {st st' : SeedState} {d : DemoUser} {org : Nat} (h : Housed st.db)
    (hlt : org < st.db.organizations.nextId) (hstep : seedMember E s org d st = .ok st') :
    Housed st'.db ∧ org < st'.db.organizations.nextId := by
  obtain ⟨id, users, -, rfl⟩ := seedMember_cases hstep
  have hsaved : Housed { st.db with users := users } := ⟨h.members, h.invitations, h.projects⟩
  rcases getOrCreateMembership_eq { st.db with users := users } id org d.role s.now with
    ⟨-, hdb⟩ | ⟨-, hdb⟩
  · simp only [hdb]
    exact ⟨hsaved, hlt⟩
  · simp only [hdb]
    exact ⟨hsaved.insertMembership hlt, hlt⟩

theorem Housed.setCreator {org : Row Organization} {creator : Option Nat} (h : Housed db)
    (hlt : org.id < db.organizations.nextId) :
    Housed (setCreator org creator db) ∧
      org.id < (setCreator org creator db).organizations.nextId := by
  unfold Bastiq.setCreator
  split
  · exact ⟨⟨h.members, h.invitations, h.projects⟩, hlt⟩
  · exact ⟨h, hlt⟩

theorem Housed.seedProject {org : Nat} {creator : Option Nat} {name : String} (h : Housed db)
    (hlt : org < db.organizations.nextId) (hstep : seedProject s org creator name db = .ok db') :
    Housed db' ∧ org < db'.organizations.nextId := by
  rcases seedProject_cases hstep with ⟨-, p, horg, -, rfl⟩ | ⟨-, rfl⟩
  · exact ⟨h.insertProject (horg ▸ hlt), hlt⟩
  · exact ⟨h, hlt⟩

theorem Housed.seedDemo (h : Housed db) (hrun : seedDemo E s db = .ok db') : Housed db' := by
  obtain ⟨planned, st, hplans, hmembers, hprojects⟩ := seedDemo_eq_ok.mp hrun
  obtain ⟨-, hplanned⟩ := follow_seedPlan hplans
  have hhoused : Housed planned := by
    rw [hplanned]
    exact ⟨h.members, h.invitations, h.projects⟩
  have hfound : Housed (getOrCreateOrganization planned s.now).2 := by
    rcases getOrCreateOrganization_cases planned s.now with ⟨org, -, heq⟩ | ⟨-, subs, heq⟩
    · rw [heq]
      exact hhoused
    · rw [heq]
      exact hhoused.insertOrganization _ subs
  have hthere := Table.mem_of_first? (demoOrganization_getOrCreate planned s.now)
  have hlt := (getOrCreateOrganization planned s.now).2.organizations.fresh _ hthere
  generalize (getOrCreateOrganization planned s.now).1 = org at *
  generalize (getOrCreateOrganization planned s.now).2 = found at *
  have hst : Housed st.db ∧ org.id < st.db.organizations.nextId := by
    refine follow_keeps (Q := fun st : SeedState =>
      Housed st.db ∧ org.id < st.db.organizations.nextId) ?_ hmembers ⟨hfound, hlt⟩
    exact fun d _ t t' hstep ht => ht.1.seedMember ht.2 hstep
  obtain ⟨hst, hlt⟩ := hst
  refine (follow_keeps (Q := fun t : Db => Housed t ∧ org.id < t.organizations.nextId) ?_
    hprojects (hst.setCreator hlt)).1
  exact fun name _ t t' hstep ht => ht.1.seedProject ht.2 hstep

end Houses

/-! ## What the command is for -/

/-- **What `seed_demo` promises.** It completes, its users can log in with the documented password,
and doing it again at once writes new hashes of that password and nothing else. -/
def SeedsWell (E : Env) (checkPassword : String → String → Bool) (s : SeedRun) (db : Db) : Prop :=
  ∃ db', seedDemo E s db = .ok db' ∧
    (∀ d ∈ demoUsers, ∀ data, Carries data d.email demoPassword → ∀ requireVerified now,
      (perform db' (login checkPassword requireVerified db' data now)).1.status = 200) ∧
    rehash E s db' = db' ∧ ∀ s', SamePrices s s' → seedDemo E s' db' = .ok (rehash E s' db')

section Promise

variable {E : Env} {checkPassword : String → String → Bool} {s : SeedRun} {org : Row Organization}
  {db : Db}

/-- The documented credentials are as the login reads them. -/
theorem demo_credentials {d : DemoUser} (hd : d ∈ demoUsers) :
    loginEmail.run false (some (.str d.email)) = .value (Python.strip d.email) ∧
      Python.strip d.email = d.email ∧
      loginPassword.run false (some (.str demoPassword)) = .value (Python.strip demoPassword) ∧
      Python.strip demoPassword = demoPassword := by
  have htexts : (demoPassword :: demoUsers.map DemoUser.email).all (fun text =>
      Python.strip text == text && text != "" && !text.toList.contains (Char.ofNat 0)) = true := by
    decide
  have htext : ∀ text ∈ demoPassword :: demoUsers.map DemoUser.email,
      ({} : CharField).run false (some (.str text)) = .value (Python.strip text) ∧
        Python.strip text = text := by
    intro text hmem
    have h := List.all_eq_true.mp htexts text hmem
    simp only [Bool.and_eq_true, beq_iff_eq, bne_iff_ne, Bool.not_eq_true'] at h
    obtain ⟨⟨hstrip, hblank⟩, hnul⟩ := h
    refine ⟨CharField.run_str_eq_value.mpr ⟨rfl, ?_, ?_⟩, hstrip⟩
    · rwa [hstrip]
    · rwa [hstrip]
  obtain ⟨hemail, hstrip⟩ := htext d.email (List.mem_cons_of_mem _ (List.mem_map_of_mem hd))
  obtain ⟨hpassword, hstrip'⟩ := htext demoPassword List.mem_cons_self
  exact ⟨hemail, hstrip, hpassword, hstrip'⟩

theorem Seeded.login (h : Seeded E s org db)
    (hcheck : ∀ password salt, checkPassword password (E.makePassword password salt) = true)
    {d : DemoUser} (hd : d ∈ demoUsers) {data : RequestData}
    (hsent : Carries data d.email demoPassword) (requireVerified : Bool) (now : Int) :
    (perform db (login checkPassword requireVerified db data now)).1.status = 200 := by
  obtain ⟨u, hmember, hhash⟩ := h.members d hd
  obtain ⟨hemail, hstrip, hpassword, hstrip'⟩ := demo_credentials hd
  have hfound : modelBackend checkPassword db (Python.strip d.email) (Python.strip demoPassword) =
      some u := by
    rw [hstrip, hstrip', modelBackend, Option.filter_eq_some_iff]
    refine ⟨hmember.found, ?_⟩
    simp [hhash, hcheck, h.tidy.active u (Table.mem_of_first? hmember.found)]
  rw [login_found hsent hemail hpassword hfound requireVerified (fun _ => hmember.verified) now]

/-- Whatever is asked of the API, and whenever the command is run. -/
theorem tidy_housed_of_run (hidem : ∀ email, E.lower (E.lower email) = E.lower email)
    (hdemo : ∀ d ∈ demoUsers, E.lower d.email = d.email) (events : List DemoEvent) :
    let db := run (DemoEvent.step E) Db.migrated events
    Tidy E db.users ∧ Housed db := by
  refine (states_of_step (Q := fun db => Tidy E db.users ∧ Housed db) ?_ ?_ events).last
  · rintro db event ⟨htidy, hhoused⟩
    cases event with
    | call c => exact ⟨htidy.step hidem c, hhoused.step c⟩
    | seed s =>
        simp only [DemoEvent.step]
        cases hrun : seedDemo E s db with
        | error e => exact ⟨htidy, hhoused⟩
        | ok db' =>
            obtain ⟨org, hseeded⟩ := seeded_of_seedDemo hdemo htidy hrun
            exact ⟨hseeded.tidy, hhoused.seedDemo hrun⟩
  · refine ⟨⟨?_, ?_, ?_⟩, ?_, ?_, ?_⟩
    all_goals
      intro r hr
      cases hr

/-- **When `seed_demo` does what it promises.** After any requests of anybody and any earlier runs,
exactly when the configured prices fit their column and no project of Acme Inc has the name of one
of the demo's beside another. -/
theorem seed_demo_iff (E : Env) (hidem : ∀ email, E.lower (E.lower email) = E.lower email)
    (hdemo : ∀ d ∈ demoUsers, E.lower d.email = d.email) (checkPassword : String → String → Bool)
    (hcheck : ∀ password salt, checkPassword password (E.makePassword password salt) = true)
    (events : List DemoEvent) (s : SeedRun) :
    let db := run (DemoEvent.step E) Db.migrated events
    SeedsWell E checkPassword s db ↔ PricesFit s ∧ FewProjects db := by
  intro db
  obtain ⟨htidy, hhoused⟩ := tidy_housed_of_run hidem hdemo events
  rw [← exists_seedDemo_iff hdemo htidy hhoused]
  constructor
  · rintro ⟨db', hrun, -⟩
    exact ⟨db', hrun⟩
  · rintro ⟨db', hrun⟩
    obtain ⟨org, hseeded⟩ := seeded_of_seedDemo hdemo htidy hrun
    refine ⟨db', hrun, fun d hd data hsent => hseeded.login hcheck hd hsent, ?_, ?_⟩
    · refine rehash_eq_self hseeded.tidy fun d hd => ?_
      obtain ⟨u, hmember, hpassword⟩ := hseeded.members d hd
      exact ⟨u, hmember.found, hpassword⟩
    · exact fun s' hprices => hseeded.again hdemo hprices

end Promise

/-! ## A project of the same name -/

def bootAt (now : Int) : SeedRun where
  pricePro := "price_pro"
  priceBusiness := "price_business"
  salt _ := "salt"
  now := now

def atFirstBoot : Db := run (DemoEvent.step Env.ascii) Db.migrated [.seed (bootAt 0)]

/-- Olivia, who owns Acme Inc, creates a project there. -/
def oliviaCreates (name : String) : Call :=
  ⟨some 1, .project (some "1") [] (.json (.obj [("name", .str name)])) .create, ⟨5, "n", true⟩⟩

/-- A second "Mobile App" is within the cap of the Free plan, and from then on no boot seeds. -/
theorem namesake_stops_seed_demo :
    let after := (oliviaCreates "Mobile App").step Env.ascii atFirstBoot
    ((oliviaCreates "Mobile App").respond Env.ascii atFirstBoot).1 = 201 ∧
      seedDemo Env.ascii (bootAt 10) after = .error .other ∧
      ¬ SeedsWell Env.ascii Env.asciiCheck (bootAt 10) after := by
  intro after
  have hraises : seedDemo Env.ascii (bootAt 10) after = .error .other := by rfl
  refine ⟨by decide, hraises, ?_⟩
  rintro ⟨db', hrun, -⟩
  rw [hraises] at hrun
  cases hrun

theorem seed_demo_at_second_boot :
    SeedsWell Env.ascii Env.asciiCheck (bootAt 10)
      ((oliviaCreates "Roadmap").step Env.ascii atFirstBoot) := by
  have hlower : demoUsers.all (fun d => Env.ascii.lower d.email == d.email) = true := by decide
  have hprices : defaultPlans.all (fun spec => fits 255 ((bootAt 10).price spec.1)) = true := by
    decide
  have hfound : (demoOrganization ((oliviaCreates "Roadmap").step Env.ascii atFirstBoot)).map
      Row.id = some 1 := by decide
  have hfew : demoProjects.all (fun name =>
      (namesakes 1 name ((oliviaCreates "Roadmap").step Env.ascii atFirstBoot)).length == 1) =
        true := by decide
  refine (seed_demo_iff Env.ascii lowerLaws_ascii.idem ?_ Env.asciiCheck asciiCheck_makePassword
    [.seed (bootAt 0), .call (oliviaCreates "Roadmap")] (bootAt 10)).mpr ⟨?_, ?_⟩
  · intro d hd
    simpa using List.all_eq_true.mp hlower d hd
  · exact fun spec hspec => List.all_eq_true.mp hprices spec hspec
  · intro org horg name hname
    have hone := List.all_eq_true.mp hfew name hname
    have horg : demoOrganization ((oliviaCreates "Roadmap").step Env.ascii atFirstBoot) =
        some org := horg
    rw [horg] at hfound
    obtain hid := Option.some.inj hfound
    show (namesakes org.id name ((oliviaCreates "Roadmap").step Env.ascii atFirstBoot)).length ≤ 1
    rw [hid, beq_iff_eq.mp hone]

end Bastiq
