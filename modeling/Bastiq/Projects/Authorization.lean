import Bastiq.Api

/-!
# Who may write a project

Along a run of the API roles change, members come and go and organizations are deleted. What is
followed here is one row of the projects table: which calls can change it or take it away, and what
of it no call can change.

`ProjectsChange` says what one call can do to the table, with what its caller was allowed to do it
by. The rest is read off from there: for a step by cases, for a run by the invariant rule.
-/

namespace Bastiq

open Relational View Transition

/-! ## Authority -/

/-- The call is a request to the project endpoints, with `org` as its active organization, of a
caller who is a member there. -/
structure ActsIn (c : Call) (db : Db) (org : Nat) (user : Row User) (m : Row Membership) :
    Prop where
  request : ∃ header query data a, c.request = .project header query data a ∧
    headerOrg header = some (org : Int)
  caller  : authenticate db c.bearer = some user
  member  : membershipIn db user.id org = some m

/-- The caller acts in the organization of `p`, as an Owner or Admin of it or as the creator
of `p`. -/
def MayWriteProject (c : Call) (db : Db) (p : Row Project) : Prop :=
  ∃ user m, ActsIn c db p.val.organization user m ∧
    (m.val.role = .owner ∨ m.val.role = .admin ∨ p.val.createdBy = some user.id)

/-- The call is the deletion of `org` by one of its Owners. -/
def DeletesOrganization (c : Call) (db : Db) (org : Nat) : Prop :=
  ∃ pk user m, c.request = .organization (.destroy pk) ∧ Python.int? pk = some (org : Int) ∧
    authenticate db c.bearer = some user ∧ membershipIn db user.id org = some m ∧
    m.val.role = .owner

/-- What a call can do to the projects. -/
inductive ProjectsChange (c : Call) (db db' : Db) : Prop where
  | kept (h : db'.projects = db.projects)
  | created {user : Row User} {m : Row Membership} {p : Project}
      (hacts : ActsIn c db p.organization user m) (hcreator : p.createdBy = some user.id)
      (h : db'.projects = db.projects.insert p)
  | saved {p : Row Project} {name description : String} (hp : p ∈ db.projects.rows)
      (hmay : MayWriteProject c db p)
      (h : db'.projects = db.projects.modify p.id fun _ =>
        { p.val with name := name, description := description })
  | deleted {p : Row Project} (hp : p ∈ db.projects.rows) (hmay : MayWriteProject c db p)
      (h : db'.projects = db.projects.delete (·.id == p.id))
  | destroyed {org : Nat} (hdeletes : DeletesOrganization c db org)
      (h : db'.projects = db.projects.delete (·.val.organization == org))

/-! ## What each kind of request does to the projects -/

section Requests

variable {E : Env} {c : Call} {db : Db}

theorem mayWriteProject_of_canWriteProject {user : Row User} {m : Row Membership} {p : Row Project}
    (hacts : ActsIn c db p.val.organization user m) (h : canWriteProject m user.id p = true) :
    MayWriteProject c db p := by
  refine ⟨user, m, hacts, ?_⟩
  simpa [canWriteProject, or_assoc] using h

/-- The gate is passed by those who act in the organization it resolves. -/
theorem actsIn_of_isOrganizationMember {header : Option String} {query : List (String × String)}
    {data : RequestData} {a : ProjectAction} {user : Row User} {m : Row Membership}
    (hrequest : c.request = .project header query data a)
    (hcaller : authenticate db c.bearer = some user)
    (hmember : isOrganizationMember db user.id header = some m) :
    ActsIn c db m.val.organization user m := by
  unfold isOrganizationMember at hmember
  cases horg : headerOrg header with
  | none =>
      rw [horg] at hmember
      cases hmember
  | some org =>
      rw [horg] at hmember
      have heq := organization_of_membershipIn hmember
      subst heq
      exact ⟨⟨header, query, data, a, hrequest, horg⟩, hcaller, hmember⟩

theorem projectsChange_project {header : Option String} {query : List (String × String)}
    {data : RequestData} {a : ProjectAction} (hrequest : c.request = .project header query data a) :
    let req : ProjectRequest := ⟨(authenticate db c.bearer).map Row.id, header, query, data⟩
    ProjectsChange c db (projectViewSet E req a c.ambient.now db).2 := by
  intro req
  refine perform_db_cases (motive := ProjectsChange c db) db _ (.kept rfl) fun r db' hview => ?_
  rcases projectView_cases hview with hsame | ⟨id, m, huser, hm, hchange⟩
  · exact .kept (by rw [hsame])
  · obtain ⟨user, hcaller, rfl⟩ := Option.map_eq_some_iff.mp huser
    have hacts := actsIn_of_isOrganizationMember hrequest hcaller hm
    rcases hchange with ⟨p, horg, hcreator, hdb⟩ | ⟨p, hp, horg, hwrite, hdb⟩
    · rw [← horg] at hacts
      exact .created hacts hcreator (by rw [hdb])
    · rw [← horg] at hacts
      have hmay := mayWriteProject_of_canWriteProject hacts hwrite
      rcases hdb with ⟨name, description, hdb⟩ | hdb
      · exact .saved hp hmay (by rw [hdb])
      · exact .deleted hp hmay (by rw [hdb])

theorem projectsChange_organization {a : OrganizationAction}
    (hrequest : c.request = .organization a) :
    ProjectsChange c db (authenticated db c.bearer fun user =>
      organizationAction E db user.id c.ambient.now a).2 := by
  refine authenticated_db_cases (ProjectsChange c db) (.kept rfl) fun user r db' hcaller hview => ?_
  cases a with
  | create data =>
      obtain ⟨name, -, h⟩ := bind_eq_ok.mp hview
      obtain ⟨⟨org, after⟩, hcreate, h⟩ := bind_eq_ok.mp h
      cases h
      obtain ⟨slug, hinsert⟩ := createOrgWithOwner_eq_ok hcreate
      obtain ⟨-, subs, hdb, -⟩ := insertOrganization_eq_ok hinsert
      exact .kept (by rw [hdb])
  | partialUpdate pk data =>
      obtain ⟨⟨org, role⟩, -, h⟩ := bind_eq_ok.mp hview
      obtain ⟨_, -, h⟩ := bind_eq_ok.mp h
      obtain ⟨name, -, h⟩ := bind_eq_ok.mp h
      cases h
      exact .kept rfl
  | destroy pk =>
      obtain ⟨⟨org, role⟩, hget, h⟩ := bind_eq_ok.mp hview
      obtain ⟨_, hrole, h⟩ := bind_eq_ok.mp h
      cases h
      obtain ⟨org', hobject, hget⟩ := bind_eq_ok.mp hget
      obtain ⟨m, hm, hget⟩ := bind_eq_ok.mp hget
      cases hget
      have howner : m.val.role = .owner := by simpa using require_eq_ok.mp hrole
      exact .destroyed ⟨pk, user, m, hrequest, int?_of_getObjectOr404 hobject, hcaller,
        orElse_eq_ok.mp hm, howner⟩ rfl

theorem projects_member (bearer : Option Nat) (pk memberPk : String) (a : MemberAction) :
    (authenticated db bearer fun user => memberRequest db user.id pk memberPk a).2.projects =
      db.projects := by
  refine authenticated_db_cases (fun db' => db'.projects = db.projects) rfl
    fun user r db' _ hview => ?_
  obtain ⟨actor, target, -, -, -, ⟨-, rfl⟩ | ⟨new, -, -, rfl⟩⟩ := memberRequest_cases hview
  · rfl
  · rfl

theorem projects_invite (bearer : Option Nat) (pk : String) (data : RequestData) (A : Ambient) :
    (authenticated db bearer fun user => inviteMember E db user.id pk data A).2.projects =
      db.projects := by
  refine authenticated_db_cases (fun db' => db'.projects = db.projects) rfl
    fun user r db' _ hview => ?_
  obtain ⟨org, -, actor, email, new, -, -, -, -, -, -, rfl⟩ := inviteMember_cases hview
  rfl

theorem projects_accept (bearer : Option Nat) (data : RequestData) (now : Int) :
    (authenticated db bearer fun user => acceptInvitation E db user data now).2.projects =
      db.projects := by
  refine authenticated_db_cases (fun db' => db'.projects = db.projects) rfl
    fun user r db' _ hview => ?_
  obtain ⟨i, -, -, rfl | ⟨-, ⟨-, rfl⟩ | ⟨-, rfl⟩⟩⟩ := acceptInvitation_cases hview
  · rfl
  · rfl
  · rfl

theorem projects_checkout (bearer : Option Nat) (header : Option String) (data : RequestData)
    (stripe : StripeApi) :
    (authenticated db bearer fun user =>
      Bastiq.checkout db user.id header data stripe).2.projects = db.projects := by
  refine authenticated_db_cases (fun db' => db'.projects = db.projects) rfl
    fun user r db' _ hview => ?_
  rcases checkout_cases hview with rfl | ⟨sub, customer, -, -, -, rfl⟩
  · rfl
  · rfl

theorem projects_register (data : RequestData) (A : Ambient) :
    (perform db (Bastiq.register E db data A)).2.projects = db.projects := by
  refine perform_db_cases (motive := fun db' => db'.projects = db.projects) db _ rfl
    fun r db' hview => ?_
  obtain ⟨reg, user, -, hcreate⟩ := register_cases hview
  obtain ⟨hdb, -⟩ := createUser_eq_ok hcreate
  rw [hdb]

theorem projects_webhook (d : Delivery) : (postWebhook d db).2.projects = db.projects := by
  rcases postWebhook_cases d db with hsame | ⟨-, hprocess⟩
  · rw [hsame]
  · rcases Delivery.process_cases hprocess with ⟨-, hdb⟩ | ⟨sub, save, -, hdb⟩
    · rw [hdb]
    · rw [hdb]

end Requests

/-- **What a call can do to the projects.** -/
theorem Call.projectsChange (E : Env) (c : Call) (db : Db) :
    ProjectsChange c db (c.step E db) := by
  unfold Call.step Call.respond
  cases hrequest : c.request with
  | organization a => exact projectsChange_organization hrequest
  | member pk memberPk a => exact .kept (projects_member _ pk memberPk a)
  | invite pk data => exact .kept (projects_invite _ pk data c.ambient)
  | accept data => exact .kept (projects_accept _ data c.ambient.now)
  | project header query data a => exact projectsChange_project hrequest
  | checkout header data stripe => exact .kept (projects_checkout _ header data stripe)
  | register data => exact .kept (projects_register data c.ambient)
  | webhook d => exact .kept (projects_webhook d)
  | account user w => exact .kept rfl

/-! ## One row -/

namespace ProjectsChange

variable {c : Call} {db db' : Db}

/-- The sequence of keys never goes back. -/
theorem nextId_le (h : ProjectsChange c db db') : db.projects.nextId ≤ db'.projects.nextId := by
  cases h with
  | kept h => rw [h]
  | created _ _ h => simp [h]
  | saved _ _ h => simp [h, Table.modify]
  | deleted _ _ h => simp [h]
  | destroyed _ h => simp [h]

/-- **A row is changed or taken away by who may.** -/
theorem authorized (h : ProjectsChange c db db') {p : Row Project} (hp : p ∈ db.projects.rows)
    (hgone : p ∉ db'.projects.rows) :
    MayWriteProject c db p ∨ DeletesOrganization c db p.val.organization := by
  cases h with
  | kept h =>
      rw [h] at hgone
      exact absurd hp hgone
  | created _ _ h =>
      rw [h, Table.mem_insert] at hgone
      exact absurd (.inl hp) hgone
  | @saved q _ _ hq hmay h =>
      by_cases hid : p.id = q.id
      · rw [db.projects.eq_of_id_eq hp hq hid]
        exact .inl hmay
      · rw [h, Table.mem_modify] at hgone
        exact absurd (.inl ⟨hp, hid⟩) hgone
  | @deleted q hq hmay h =>
      by_cases hid : p.id = q.id
      · rw [db.projects.eq_of_id_eq hp hq hid]
        exact .inl hmay
      · rw [h, Table.mem_delete] at hgone
        exact absurd ⟨hp, by simpa using hid⟩ hgone
  | @destroyed org hdeletes h =>
      by_cases horg : p.val.organization = org
      · rw [horg]
        exact .inr hdeletes
      · rw [h, Table.mem_delete] at hgone
        exact absurd ⟨hp, by simpa using horg⟩ hgone

/-- **Where a row comes from**: it was there with its organization and its creator, or it is the new
one, and its creator acts in its organization. -/
theorem origin (h : ProjectsChange c db db') {q : Row Project} (hq : q ∈ db'.projects.rows) :
    (∃ p ∈ db.projects.rows, p.id = q.id ∧ q.val.organization = p.val.organization ∧
        q.val.createdBy = p.val.createdBy) ∨
      (q.id = db.projects.nextId ∧ ∃ user m, ActsIn c db q.val.organization user m ∧
        q.val.createdBy = some user.id) := by
  cases h with
  | kept h =>
      rw [h] at hq
      exact .inl ⟨q, hq, rfl, rfl, rfl⟩
  | @created user m p hacts hcreator h =>
      rw [h] at hq
      rcases Table.mem_insert.mp hq with hq | rfl
      · exact .inl ⟨q, hq, rfl, rfl, rfl⟩
      · exact .inr ⟨rfl, user, m, hacts, hcreator⟩
  | @saved p _ _ hp _ h =>
      rw [h] at hq
      rcases Table.mem_modify.mp hq with ⟨hq, -⟩ | ⟨p', -, -, rfl⟩
      · exact .inl ⟨q, hq, rfl, rfl, rfl⟩
      · exact .inl ⟨p, hp, rfl, rfl, rfl⟩
  | deleted _ _ h =>
      rw [h] at hq
      exact .inl ⟨q, (Table.mem_delete.mp hq).1, rfl, rfl, rfl⟩
  | destroyed _ h =>
      rw [h] at hq
      exact .inl ⟨q, (Table.mem_delete.mp hq).1, rfl, rfl, rfl⟩

end ProjectsChange

/-! ## Runs -/

/-- Where `p` is still stored it belongs to the same organization and has the same creator, and its
key is given to no other row. -/
structure SameOrigin (p : Row Project) (db : Db) : Prop where
  fresh : p.id < db.projects.nextId
  same  : ∀ q ∈ db.projects.rows, q.id = p.id →
    q.val.organization = p.val.organization ∧ q.val.createdBy = p.val.createdBy

theorem sameOrigin_of_mem {p : Row Project} {db : Db} (hp : p ∈ db.projects.rows) :
    SameOrigin p db := by
  refine ⟨db.projects.fresh p hp, fun q hq hid => ?_⟩
  rw [db.projects.eq_of_id_eq hq hp hid]
  exact ⟨rfl, rfl⟩

theorem SameOrigin.step {E : Env} {p : Row Project} {db : Db} (h : SameOrigin p db) (c : Call) :
    SameOrigin p (c.step E db) := by
  have hchange := c.projectsChange E db
  refine ⟨Nat.lt_of_lt_of_le h.fresh hchange.nextId_le, fun q hq hid => ?_⟩
  rcases hchange.origin hq with ⟨r, hr, hrid, horg, hcreator⟩ | ⟨hnew, -⟩
  · rw [horg, hcreator]
    exact h.same r hr (hrid.trans hid)
  · have hfresh := h.fresh
    omega

theorem SameOrigin.run {E : Env} {p : Row Project} {db : Db} (h : SameOrigin p db)
    (cs : List Call) : SameOrigin p (Transition.run (Call.step E) db cs) := by
  apply States.last
  exact states_of_step (Q := SameOrigin p) (fun _ c hp => hp.step c) h cs

/-- A row that a run has brought about was created along it by a member of its organization. -/
theorem created_by_member {E : Env} {db : Db} {cs : List Call} {q : Row Project}
    (hq : q ∈ (run (Call.step E) db cs).projects.rows)
    (hnew : ∀ p ∈ db.projects.rows, p.id ≠ q.id) :
    ∃ pre c post, cs = pre ++ c :: post ∧
      (∀ p ∈ (run (Call.step E) db pre).projects.rows, p.id ≠ q.id) ∧
      ∃ user m, ActsIn c (run (Call.step E) db pre) q.val.organization user m ∧
        q.val.createdBy = some user.id := by
  obtain ⟨pre, c, post, rfl, hpre, r, hr, hrid⟩ := exists_turn
    (Q := fun db : Db => ∃ r ∈ db.projects.rows, r.id = q.id)
    (by rintro ⟨p, hp, hid⟩; exact hnew p hp hid) ⟨q, hq, rfl⟩
  refine ⟨pre, c, post, rfl, fun p hp hid => hpre ⟨p, hp, hid⟩, ?_⟩
  rw [run_append, run_cons] at hq
  obtain ⟨horg, hcreator⟩ := ((sameOrigin_of_mem hr).run post).same q hq hrid.symm
  rw [horg, hcreator]
  rcases (c.projectsChange E _).origin hr with ⟨p, hp, hid, -⟩ | ⟨-, hacts⟩
  · exact absurd ⟨p, hp, hid.trans hrid⟩ hpre
  · exact hacts

/-- **Projects are written with authority, over whole runs.** Along every run of calls, from any
database:

* a call after which a stored project has changed or is gone is a project request of a caller who
  may write it, or the deletion of its organization by one of its Owners;
* a project keeps its organization and its creator for as long as it is stored;
* a project that was not there at first was created by one of the calls, and its creator was at that
  moment a member of its organization. -/
theorem project_writes_authorized (E : Env) (db : Db) (cs : List Call) :
    Each (Call.step E) (fun db c => ∀ p ∈ db.projects.rows, p ∉ (c.step E db).projects.rows →
      MayWriteProject c db p ∨ DeletesOrganization c db p.val.organization) db cs ∧
    States (Call.step E) (fun db' => ∀ p ∈ db.projects.rows, ∀ q ∈ db'.projects.rows,
      q.id = p.id → q.val.organization = p.val.organization ∧
        q.val.createdBy = p.val.createdBy) db cs ∧
    ∀ q ∈ (run (Call.step E) db cs).projects.rows, (∀ p ∈ db.projects.rows, p.id ≠ q.id) →
      ∃ pre c post, cs = pre ++ c :: post ∧
        (∀ p ∈ (run (Call.step E) db pre).projects.rows, p.id ≠ q.id) ∧
        ∃ user m, ActsIn c (run (Call.step E) db pre) q.val.organization user m ∧
          q.val.createdBy = some user.id := by
  refine ⟨?_, ?_, fun q hq hnew => created_by_member hq hnew⟩
  · apply each_of_forall
    intro db c p hp hgone
    exact (c.projectsChange E db).authorized hp hgone
  · have horigins : States (Call.step E)
        (fun db' => ∀ p ∈ db.projects.rows, SameOrigin p db') db cs :=
      states_of_step (fun _ c h p hp => (h p hp).step c) (fun _ hp => sameOrigin_of_mem hp) cs
    exact horigins.mono fun db' h p hp => (h p hp).same

end Bastiq
