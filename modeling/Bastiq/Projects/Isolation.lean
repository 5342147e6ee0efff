import Bastiq.Projects.Views

/-!
# Tenant isolation

Two databases that agree on what a caller may see of one organization are indistinguishable through
the project endpoints, and no request reaches another organization's projects.

The argument runs two databases side by side. `SameOutcome` lists what a pair of runs can end in:
the same refusal, the same answer, or the same write to a row of the one organization. Everything
below reads its conclusion off that list.
-/

namespace Bastiq

open Relational View

/-! ## What a caller may see -/

/-- Two databases hold the same data of one organization, as far as the project endpoints go. -/
structure SameTenant (org : Nat) (db₁ db₂ : Db) : Prop where
  organization : db₁.organizations.get? org = db₂.organizations.get? org
  subscription : subscriptionOf db₁ org = subscriptionOf db₂ org
  plan         : ∀ s, subscriptionOf db₁ org = some s →
    db₁.plans.get? s.val.plan = db₂.plans.get? s.val.plan
  projects     : projectsOf db₁ org = projectsOf db₂ org

/-- Two databases agree on a caller in an organization: the caller has the same role there, or is
no member in either, and where there is a membership the organization's data is the same. -/
structure AgreeOn (user : Nat) (org : Int) (db₁ db₂ : Db) : Prop where
  role   : (membershipIn db₁ user org).map (·.val.role) =
    (membershipIn db₂ user org).map (·.val.role)
  tenant : ∀ m, membershipIn db₁ user org = some m → SameTenant m.val.organization db₁ db₂

theorem SameTenant.limit_eq {org : Nat} {db₁ db₂ : Db} (h : SameTenant org db₁ db₂)
    (key : String) : limit db₁ org key = limit db₂ org key := by
  unfold limit
  rw [← h.subscription]
  cases hs : subscriptionOf db₁ org with
  | none => rfl
  | some s => simp only [h.plan s hs]

theorem SameTenant.projectCount_eq {org : Nat} {db₁ db₂ : Db} (h : SameTenant org db₁ db₂) :
    projectCount db₁ org = projectCount db₂ org := by
  have hp := congrArg List.length h.projects
  rw [projectsOf, projectsOf, ← Table.count_eq_length, ← Table.count_eq_length] at hp
  exact hp

theorem SameTenant.checkCanCreateProject_eq {β : Type} {org : Nat} {db₁ db₂ : Db}
    (h : SameTenant org db₁ db₂) :
    checkCanCreateProject (β := β) db₁ org = checkCanCreateProject db₂ org := by
  unfold checkCanCreateProject
  rw [h.limit_eq, h.projectCount_eq]

/-- The gate lets both through or neither, and as the same role in the same organization. -/
theorem AgreeOn.membership {user : Nat} {org : Int} {db₁ db₂ : Db}
    (h : AgreeOn user org db₁ db₂) :
    (membershipIn db₁ user org = none ∧ membershipIn db₂ user org = none) ∨
    ∃ m₁ m₂, membershipIn db₁ user org = some m₁ ∧ membershipIn db₂ user org = some m₂ ∧
      m₁.val.role = m₂.val.role ∧ m₁.val.organization = m₂.val.organization := by
  have hrole := h.role
  cases h₁ : membershipIn db₁ user org with
  | none =>
      rw [h₁, Option.map_none, eq_comm, Option.map_eq_none_iff] at hrole
      exact .inl ⟨rfl, hrole⟩
  | some m₁ =>
      rw [h₁, Option.map_some, eq_comm, Option.map_eq_some_iff] at hrole
      obtain ⟨m₂, h₂, hr⟩ := hrole
      have ho := (organization_of_membershipIn h₁).trans (organization_of_membershipIn h₂).symm
      exact .inr ⟨m₁, m₂, rfl, h₂, hr.symm, Int.ofNat.inj ho⟩

theorem organization_of_mem_projectsOf {org : Nat} {db : Db} {p : Row Project}
    (hp : p ∈ projectsOf db org) : p.val.organization = org := by
  simpa [inOrg] using (List.mem_filter.mp hp).2

/-! ## Two runs side by side -/

/-- The outcomes a pair of runs can end in, at an organization `org`. -/
inductive SameOutcome (org : Nat) (db₁ db₂ : Db) : ProjectView → ProjectView → Prop where
  | raised (r : Response ProjectPayload) : SameOutcome org db₁ db₂ (.error r) (.error r)
  | read (r : Response ProjectPayload) :
      SameOutcome org db₁ db₂ (.ok (r, db₁)) (.ok (r, db₂))
  | created (p : Project) (now₁ now₂ : Int) (hp : p.organization = org) :
      SameOutcome org db₁ db₂
        (.ok (⟨201, .data (.project (Project.serialize
            ⟨db₁.projects.nextId, { p with createdAt := now₁ }⟩))⟩,
          { db₁ with projects := db₁.projects.insert { p with createdAt := now₁ } }))
        (.ok (⟨201, .data (.project (Project.serialize
            ⟨db₂.projects.nextId, { p with createdAt := now₂ }⟩))⟩,
          { db₂ with projects := db₂.projects.insert { p with createdAt := now₂ } }))
  | saved (r : Response ProjectPayload) (row : Row Project) (p : Project)
      (h₁ : row ∈ projectsOf db₁ org) (h₂ : row ∈ projectsOf db₂ org) (hp : p.organization = org) :
      SameOutcome org db₁ db₂
        (.ok (r, { db₁ with projects := db₁.projects.modify row.id fun _ => p }))
        (.ok (r, { db₂ with projects := db₂.projects.modify row.id fun _ => p }))
  | removed (r : Response ProjectPayload) (row : Row Project)
      (h₁ : row ∈ projectsOf db₁ org) (h₂ : row ∈ projectsOf db₂ org) :
      SameOutcome org db₁ db₂
        (.ok (r, { db₁ with projects := db₁.projects.delete (·.id == row.id) }))
        (.ok (r, { db₂ with projects := db₂.projects.delete (·.id == row.id) }))

/-- A step that both runs take with the same result leaves the rest to compare. -/
theorem SameOutcome.bind {α : Type} {org : Nat} {db₁ db₂ : Db} (x : View ProjectPayload α)
    {f₁ f₂ : α → ProjectView} (h : ∀ a, x = .ok a → SameOutcome org db₁ db₂ (f₁ a) (f₂ a)) :
    SameOutcome org db₁ db₂ (x >>= f₁) (x >>= f₂) := by
  cases x with
  | error r => exact .raised r
  | ok a => exact h a rfl

section Actions

variable {org : Nat} {db₁ db₂ : Db} (h : SameTenant org db₁ db₂)

include h

theorem SameTenant.list (E : Env) (query : List (String × String)) :
    SameOutcome org db₁ db₂ (listProjects E db₁ org query) (listProjects E db₂ org query) := by
  unfold listProjects
  rw [h.projects]
  refine .bind _ fun page _ => ?_
  cases page with
  | none => exact .read _
  | some page => exact .read _

theorem SameTenant.create (user : Nat) (data : RequestData) (now₁ now₂ : Int) :
    SameOutcome org db₁ db₂ (createProject db₁ org user data now₁)
      (createProject db₂ org user data now₂) := by
  unfold createProject
  refine .bind _ fun fields _ => ?_
  rw [h.checkCanCreateProject_eq]
  refine .bind _ fun _ _ => ?_
  exact .created ⟨org, fields.name.getD "", fields.description.getD "", some user, now₁⟩
    now₁ now₂ rfl

theorem SameTenant.retrieve (pk : String) :
    SameOutcome org db₁ db₂ (retrieveProject db₁ org pk) (retrieveProject db₂ org pk) := by
  unfold retrieveProject
  rw [h.projects]
  exact .bind _ fun p _ => .read _

variable {m₁ m₂ : Row Membership} (ho₁ : m₁.val.organization = org)
  (ho₂ : m₂.val.organization = org) (hrole : m₁.val.role = m₂.val.role)

include ho₁ ho₂ hrole

theorem SameTenant.writableProject_eq {β : Type} (user : Nat) (pk : String) :
    writableProject (β := β) db₁ m₁ user pk = writableProject db₂ m₂ user pk := by
  unfold writableProject canWriteProject
  rw [ho₁, ho₂, h.projects, hrole]

omit h ho₂ hrole in
theorem mem_of_writableProject {β : Type} {user : Nat} {pk : String} {p : Row Project}
    (hp : writableProject (β := β) db₁ m₁ user pk = .ok p) : p ∈ projectsOf db₁ org := by
  obtain ⟨q, hq, hrest⟩ := bind_eq_ok.mp hp
  obtain ⟨_, _, hqp⟩ := bind_eq_ok.mp hrest
  cases hqp
  rw [ho₁] at hq
  exact getObjectOr404_eq_ok hq

theorem SameTenant.update (user : Nat) (pk : String) (partially : Bool) (data : RequestData) :
    SameOutcome org db₁ db₂ (updateProject db₁ m₁ user pk partially data)
      (updateProject db₂ m₂ user pk partially data) := by
  unfold updateProject
  rw [← h.writableProject_eq ho₁ ho₂ hrole]
  refine .bind _ fun p hp => .bind _ fun fields _ => ?_
  have hmem := mem_of_writableProject ho₁ hp
  exact .saved _ p _ hmem (h.projects ▸ hmem)
    (organization_of_mem_projectsOf hmem)

theorem SameTenant.destroy (user : Nat) (pk : String) :
    SameOutcome org db₁ db₂ (destroyProject db₁ m₁ user pk) (destroyProject db₂ m₂ user pk) := by
  unfold destroyProject
  rw [← h.writableProject_eq ho₁ ho₂ hrole]
  refine .bind _ fun p hp => ?_
  have hmem := mem_of_writableProject ho₁ hp
  exact .removed _ p hmem (h.projects ▸ hmem)

/-- **Behind the gate the six actions cannot tell the two databases apart.** -/
theorem SameTenant.action (E : Env) (user : Nat) (req : ProjectRequest) (now₁ now₂ : Int)
    (a : ProjectAction) :
    SameOutcome org db₁ db₂ (projectAction E db₁ m₁ user req now₁ a)
      (projectAction E db₂ m₂ user req now₂ a) := by
  cases a with
  | list => simpa only [projectAction, ho₁, ho₂] using h.list E req.query
  | create => simpa only [projectAction, ho₁, ho₂] using h.create user req.data now₁ now₂
  | retrieve pk => simpa only [projectAction, ho₁, ho₂] using h.retrieve pk
  | update pk => exact h.update ho₁ ho₂ hrole user pk false req.data
  | partialUpdate pk => exact h.update ho₁ ho₂ hrole user pk true req.data
  | destroy pk => exact h.destroy ho₁ ho₂ hrole user pk

end Actions

/-- **Two agreeing databases end a request alike**: refused alike at the door, or the same outcome
in the organization the header names. -/
theorem sameOutcome_projectView (E : Env) (req : ProjectRequest) (action : ProjectAction)
    (now₁ now₂ : Int) {db₁ db₂ : Db}
    (hagree : ∀ user org, req.user = some user → headerOrg req.header = some org →
      AgreeOn user org db₁ db₂) :
    (∃ r, projectView E req action now₁ db₁ = .error r ∧
      projectView E req action now₂ db₂ = .error r) ∨
    ∃ org : Nat, headerOrg req.header = some (org : Int) ∧
      SameOutcome org db₁ db₂ (projectView E req action now₁ db₁)
        (projectView E req action now₂ db₂) := by
  unfold projectView isOrganizationMember
  cases checkFormat (β := ProjectPayload) req.query with
  | error r => exact .inl ⟨r, rfl, rfl⟩
  | ok _ =>
      cases huser : req.user with
      | none => exact .inl ⟨unauthenticated, rfl, rfl⟩
      | some user =>
          cases horg : headerOrg req.header with
          | none => exact .inl ⟨forbidden notAMemberMessage, rfl, rfl⟩
          | some org =>
              have hseen := hagree user org huser horg
              rcases hseen.membership with ⟨h₁, h₂⟩ | ⟨m₁, m₂, h₁, h₂, hrole, ho⟩
              · exact .inl ⟨forbidden notAMemberMessage, by simp only [ok_bind, orElse_some, h₁,
                  orElse_none, error_bind], by simp only [ok_bind, orElse_some, h₂, orElse_none,
                  error_bind]⟩
              · refine .inr ⟨m₁.val.organization, by rw [organization_of_membershipIn h₁], ?_⟩
                simp only [ok_bind, orElse_some, h₁, h₂]
                exact (hseen.tenant m₁ h₁).action rfl ho.symm hrole E user req now₁ now₂ action

/-! ## What the outcomes have in common -/

/-- A response without the key and the time stamp of a project it created. -/
def Response.forgetFresh (r : Response ProjectPayload) : Response ProjectPayload :=
  match r.status, r.body with
  | 201, .data (.project p) => ⟨201, .data (.project { p with id := 0, createdAt := 0 })⟩
  | _, _ => r

/-- A row, without its key and its time stamp when it was inserted since the sequence stood at
`since`. -/
def forgetFreshRow (since : Nat) (r : Row Project) : Row Project :=
  if r.id < since then r else ⟨0, { r.val with createdAt := 0 }⟩

/-- The projects of `org` a request left, up to what is fresh in a created one. -/
def projectsAfter (before after : Db) (org : Nat) : List (Row Project) :=
  (projectsOf after org).map (forgetFreshRow before.projects.nextId)

/-- Where nothing was inserted there is nothing fresh to forget. -/
theorem projectsAfter_eq {before after : Db} (h : after.projects.nextId = before.projects.nextId)
    (n : Nat) : projectsAfter before after n = projectsOf after n := by
  rw [projectsAfter]
  conv_rhs => rw [← List.map_id (projectsOf after n)]
  refine List.map_congr_left fun r hr => ?_
  rw [forgetFreshRow, if_pos (h ▸ Table.lt_nextId_of_mem_select hr), id]

theorem projectsAfter_insert (db : Db) (p : Project) (n : Nat) :
    projectsAfter db { db with projects := db.projects.insert p } n =
      projectsOf db n ++ if p.organization = n then [⟨0, { p with createdAt := 0 }⟩] else [] := by
  have hold : (projectsOf db n).map (forgetFreshRow db.projects.nextId) = projectsOf db n :=
    @projectsAfter_eq db db rfl n
  rw [projectsAfter, projectsOf, Table.select_insert, List.map_append]
  congr 1
  by_cases h : p.organization = n
  · simp [inOrg, h, forgetFreshRow]
  · simp [inOrg, h]

/-- Saving a project of `org` changes no queryset but that of `org`, and there only the saved
row. -/
theorem projectsOf_modify {db : Db} {org : Nat} {row : Row Project} {p : Project}
    (hrow : row ∈ projectsOf db org) (hp : p.organization = org) (n : Nat) :
    projectsOf { db with projects := db.projects.modify row.id fun _ => p } n =
      (projectsOf db n).map (Table.setRow (·.id == row.id) fun _ => p) := by
  refine Table.select_update _ fun r hr => ?_
  by_cases hid : r.id = row.id
  · have heq := db.projects.eq_of_id_eq hr (List.mem_of_mem_filter hrow) hid
    rw [Table.setRow_of_pos (by simpa using hid), heq]
    simp only [inOrg, hp, organization_of_mem_projectsOf hrow]
  · rw [Table.setRow_of_neg (by simpa using hid)]

theorem projectsOf_delete (db : Db) (id n : Nat) :
    projectsOf { db with projects := db.projects.delete (·.id == id) } n =
      (projectsOf db n).filter fun r => !(r.id == id) :=
  Table.select_delete _ _ _

/-- A row of `org` carries a key that no row of another organization has. -/
theorem id_ne_of_other {db : Db} {org n : Nat} {row r : Row Project}
    (hrow : row ∈ projectsOf db org) (hr : r ∈ projectsOf db n) (hn : n ≠ org) :
    r.id ≠ row.id := by
  intro hid
  have heq := db.projects.eq_of_id_eq (List.mem_of_mem_filter hr) (List.mem_of_mem_filter hrow) hid
  apply hn
  rw [← organization_of_mem_projectsOf hr, heq, organization_of_mem_projectsOf hrow]

namespace SameOutcome

variable {org : Nat} {db₁ db₂ : Db} {v₁ v₂ : ProjectView}

theorem symm (h : SameOutcome org db₁ db₂ v₁ v₂) : SameOutcome org db₂ db₁ v₂ v₁ := by
  cases h with
  | raised r => exact .raised r
  | read r => exact .read r
  | created p now₁ now₂ hp => exact .created p now₂ now₁ hp
  | saved r row p h₁ h₂ hp => exact .saved r row p h₂ h₁ hp
  | removed r row h₁ h₂ => exact .removed r row h₂ h₁

/-- The two responses are the same, up to what is fresh in a created project. -/
theorem response_eq (h : SameOutcome org db₁ db₂ v₁ v₂) :
    (perform db₁ v₁).1.forgetFresh = (perform db₂ v₂).1.forgetFresh := by
  cases h <;> rfl

/-- No run writes outside the projects table. -/
theorem only_projects (h : SameOutcome org db₁ db₂ v₁ v₂) :
    (perform db₁ v₁).2 = { db₁ with projects := (perform db₁ v₁).2.projects } := by
  cases h <;> rfl

/-- No run touches a project of another organization. -/
theorem confined (h : SameOutcome org db₁ db₂ v₁ v₂) {n : Nat} (hn : n ≠ org) :
    projectsOf (perform db₁ v₁).2 n = projectsOf db₁ n := by
  cases h with
  | raised r => rfl
  | read r => rfl
  | created p now₁ now₂ hp =>
      rw [perform_ok, projectsOf, Table.select_insert]
      simp [inOrg, hp, Ne.symm hn, projectsOf]
  | saved r row p h₁ h₂ hp =>
      rw [perform_ok, projectsOf_modify h₁ hp]
      conv_rhs => rw [← List.map_id (projectsOf db₁ n)]
      refine List.map_congr_left fun s hs => Table.setRow_of_neg ?_
      simpa using id_ne_of_other h₁ hs hn
  | removed r row h₁ h₂ =>
      rw [perform_ok, projectsOf_delete, List.filter_eq_self]
      intro s hs
      simpa using id_ne_of_other h₁ hs hn

/-- Querysets that were equal before are equal after, up to what is fresh in a created project. -/
theorem projects_eq (h : SameOutcome org db₁ db₂ v₁ v₂) {n : Nat}
    (hn : projectsOf db₁ n = projectsOf db₂ n) :
    projectsAfter db₁ (perform db₁ v₁).2 n = projectsAfter db₂ (perform db₂ v₂).2 n := by
  cases h with
  | raised r =>
      rw [perform_error, perform_error, projectsAfter_eq (by rfl), projectsAfter_eq (by rfl), hn]
  | read r => rw [perform_ok, perform_ok, projectsAfter_eq (by rfl), projectsAfter_eq (by rfl), hn]
  | created p now₁ now₂ hp =>
      rw [perform_ok, perform_ok, projectsAfter_insert, projectsAfter_insert, hn]
  | saved r row p h₁ h₂ hp =>
      rw [perform_ok, perform_ok, projectsAfter_eq (by rfl), projectsAfter_eq (by rfl),
        projectsOf_modify h₁ hp, projectsOf_modify h₂ hp, hn]
  | removed r row h₁ h₂ =>
      rw [perform_ok, perform_ok, projectsAfter_eq (by rfl), projectsAfter_eq (by rfl), projectsOf_delete,
        projectsOf_delete, hn]

end SameOutcome

/-! ## Keys of other tenants -/

/-- A request about one project whose key names none of the organization's projects is a 404, the
same for every such key. -/
theorem projectAction_of_absent {E : Env} {db : Db} {m : Row Membership} {user : Nat}
    {req : ProjectRequest} {now : Int} {a : ProjectAction} {pk : String} {k : Int}
    (hpk : a.pk? = some pk) (hk : Python.int? pk = some k)
    (habsent : ∀ r ∈ projectsOf db m.val.organization, (r.id : Int) ≠ k) :
    projectAction E db m user req now a =
      .error (notFound "No Project matches the given query.") := by
  have hget : getObjectOr404 (β := ProjectPayload) "Project" (projectsOf db m.val.organization) pk =
      .error (notFound "No Project matches the given query.") :=
    getObjectOr404_of_absent hk habsent
  have hwrite : writableProject (β := ProjectPayload) db m user pk =
      .error (notFound "No Project matches the given query.") := by
    rw [writableProject, hget, error_bind]
  cases a with
  | list => cases hpk
  | create => cases hpk
  | retrieve _ => cases hpk; rw [projectAction, retrieveProject, hget, error_bind]
  | update _ => cases hpk; rw [projectAction, updateProject, hwrite, error_bind]
  | partialUpdate _ => cases hpk; rw [projectAction, updateProject, hwrite, error_bind]
  | destroy _ => cases hpk; rw [projectAction, destroyProject, hwrite, error_bind]

theorem ProjectAction.pk?_withPk {a : ProjectAction} {pk : String} (hpk : a.pk? = some pk)
    (pk' : String) : (a.withPk pk').pk? = some pk' := by
  cases a with
  | list => cases hpk
  | create => cases hpk
  | retrieve _ => rfl
  | update _ => rfl
  | partialUpdate _ => rfl
  | destroy _ => rfl

theorem projectView_of_absent {E : Env} {db : Db} {req : ProjectRequest} {now : Int}
    {a : ProjectAction} {pk pk' : String} {k k' : Int} (hpk : a.pk? = some pk)
    (hk : Python.int? pk = some k) (hk' : Python.int? pk' = some k')
    (habsent : ∀ r ∈ db.projects.rows, (r.id : Int) = k →
      headerOrg req.header ≠ some (r.val.organization : Int))
    (habsent' : ∀ r ∈ db.projects.rows, (r.id : Int) ≠ k') :
    projectView E req a now db = projectView E req (a.withPk pk') now db := by
  unfold projectView isOrganizationMember
  cases checkFormat (β := ProjectPayload) req.query with
  | error r => rfl
  | ok _ =>
      cases req.user with
      | none => rfl
      | some user =>
          cases horg : headerOrg req.header with
          | none => rfl
          | some org =>
              cases hm : membershipIn db user org with
              | none => simp only [ok_bind, orElse_some, hm, orElse_none, error_bind]
              | some m =>
                  -- absent for both requests, for the first because its row is another tenant's
                  have ho := organization_of_membershipIn hm
                  simp only [ok_bind, orElse_some, hm]
                  rw [projectAction_of_absent hpk hk, projectAction_of_absent
                    (ProjectAction.pk?_withPk hpk pk') hk']
                  · exact fun r hr => habsent' r (List.mem_of_mem_filter hr)
                  · intro r hr hid
                    apply habsent r (List.mem_of_mem_filter hr) hid
                    rw [horg, organization_of_mem_projectsOf hr, ho]

/-- A caller the gate turns away gets one answer, whatever the database holds. -/
theorem projectView_of_nonmember {E : Env} {db : Db} {req : ProjectRequest} {a : ProjectAction}
    {now : Int}
    (hm : ∀ user, req.user = some user → isOrganizationMember db user req.header = none) :
    projectView E req a now db = (do
      checkFormat req.query
      let _ ← orElse req.user unauthenticated
      .error (forbidden notAMemberMessage)) := by
  unfold projectView
  congr 1
  funext _
  cases huser : req.user with
  | none => rfl
  | some user => simp only [orElse_some, ok_bind, hm user huser, orElse_none, error_bind]

/-- Who is turned away from one database is turned away from the other. -/
theorem nonmember_of_agree {user : Nat} {header : Option String} {db₁ db₂ : Db}
    (hagree : ∀ org, headerOrg header = some org → AgreeOn user org db₁ db₂)
    (h : isOrganizationMember db₁ user header = none) :
    isOrganizationMember db₂ user header = none := by
  unfold isOrganizationMember at h ⊢
  cases horg : headerOrg header with
  | none => rfl
  | some org =>
      have hrole := (hagree org horg).role
      rw [horg] at h
      rw [show membershipIn db₁ user org = none from h, Option.map_none, eq_comm,
        Option.map_eq_none_iff] at hrole
      exact hrole

/-! ## Isolation -/

/-- **The project endpoints keep tenants apart.** Take two databases that agree on the caller in
the organization the header names, and the same request to both. Then

* the responses are the same and the organization's projects end up the same, up to the key and
  the time stamp of a project created now;
* neither run writes outside the projects table or touches another organization's projects;
* a caller who is no member there gets the same response from both, and writes nothing, whatever
  either database holds of that organization;
* a key of another tenant's project is answered as a key that no project has. -/
theorem projectViewSet_isolated (E : Env) (req : ProjectRequest) (action : ProjectAction)
    (now₁ now₂ : Int) (db₁ db₂ : Db)
    (hagree : ∀ user org, req.user = some user → headerOrg req.header = some org →
      AgreeOn user org db₁ db₂) :
    let out₁ := projectViewSet E req action now₁ db₁
    let out₂ := projectViewSet E req action now₂ db₂
    out₁.1.forgetFresh = out₂.1.forgetFresh ∧
    (∀ n, projectsOf db₁ n = projectsOf db₂ n →
      projectsAfter db₁ out₁.2 n = projectsAfter db₂ out₂.2 n) ∧
    (out₁.2 = { db₁ with projects := out₁.2.projects } ∧
      out₂.2 = { db₂ with projects := out₂.2.projects }) ∧
    (∀ n : Nat, headerOrg req.header ≠ some (n : Int) →
      projectsOf out₁.2 n = projectsOf db₁ n ∧ projectsOf out₂.2 n = projectsOf db₂ n) ∧
    ((∀ user, req.user = some user → isOrganizationMember db₁ user req.header = none) →
      out₁.1 = out₂.1 ∧ out₁.2 = db₁ ∧ out₂.2 = db₂) ∧
    (∀ pk pk' k k', action.pk? = some pk → Python.int? pk = some k → Python.int? pk' = some k' →
      (∀ r ∈ db₁.projects.rows, (r.id : Int) = k →
        headerOrg req.header ≠ some (r.val.organization : Int)) →
      (∀ r ∈ db₁.projects.rows, (r.id : Int) ≠ k') →
      out₁ = projectViewSet E req (action.withPk pk') now₁ db₁) := by
  intro out₁ out₂
  have hpk : ∀ pk pk' k k', action.pk? = some pk → Python.int? pk = some k →
      Python.int? pk' = some k' →
      (∀ r ∈ db₁.projects.rows, (r.id : Int) = k →
        headerOrg req.header ≠ some (r.val.organization : Int)) →
      (∀ r ∈ db₁.projects.rows, (r.id : Int) ≠ k') →
      out₁ = projectViewSet E req (action.withPk pk') now₁ db₁ := by
    intro pk pk' k k' h hk hk' habsent habsent'
    show perform db₁ _ = perform db₁ _
    rw [projectView_of_absent h hk hk' habsent habsent']
  have hnon : (∀ user, req.user = some user → isOrganizationMember db₁ user req.header = none) →
      out₁.1 = out₂.1 ∧ out₁.2 = db₁ ∧ out₂.2 = db₂ := by
    intro h₁
    have h₂ : ∀ user, req.user = some user → isOrganizationMember db₂ user req.header = none :=
      fun user huser => nonmember_of_agree (hagree user · huser) (h₁ user huser)
    show (perform db₁ _).1 = (perform db₂ _).1 ∧ (perform db₁ _).2 = db₁ ∧ (perform db₂ _).2 = db₂
    rw [projectView_of_nonmember h₁, projectView_of_nonmember h₂]
    cases checkFormat (β := ProjectPayload) req.query with
    | error r => exact ⟨rfl, rfl, rfl⟩
    | ok _ => cases req.user <;> exact ⟨rfl, rfl, rfl⟩
  rcases sameOutcome_projectView E req action now₁ now₂ hagree with
    ⟨r, h₁, h₂⟩ | ⟨org, horg, h⟩
  · have ho₁ : out₁ = (r, db₁) := by
      show perform db₁ _ = _
      rw [h₁, perform_error]
    have ho₂ : out₂ = (r, db₂) := by
      show perform db₂ _ = _
      rw [h₂, perform_error]
    refine ⟨by rw [ho₁, ho₂], ?_, by rw [ho₁, ho₂]; exact ⟨rfl, rfl⟩, ?_, hnon, hpk⟩
    · intro n hn
      rw [ho₁, ho₂, projectsAfter_eq (by rfl), projectsAfter_eq (by rfl), hn]
    · intro n _
      rw [ho₁, ho₂]
      exact ⟨rfl, rfl⟩
  · refine ⟨h.response_eq, fun n hn => h.projects_eq hn, ⟨h.only_projects, h.symm.only_projects⟩,
      ?_, hnon, hpk⟩
    intro n hn
    have hne : n ≠ org := by
      rintro rfl
      exact hn horg
    exact ⟨h.confined hne, h.symm.confined hne⟩

/-- User 1 is a member of organization 1, which has one project; `others` are further projects in
the same table. -/
def oneTenant (others : List Project) : Db where
  organizations := Table.empty.insert ⟨"Acme", "acme", some 1, 0⟩
  memberships := Table.empty.insert ⟨1, 1, .member, 0⟩
  projects := others.foldl Table.insert (Table.empty.insert ⟨1, "Site", "", some 1, 0⟩)

theorem projectViewSet_isolated_create :
    let req : ProjectRequest :=
      ⟨some 1, some "1", [], .json (.obj [("name", .str "App"), ("organization", .int 2)])⟩
    let db₁ := oneTenant []
    let db₂ := oneTenant [⟨2, "Secret", "", some 2, 0⟩]
    (projectViewSet Env.ascii req .create 5 db₁).1.forgetFresh =
        (projectViewSet Env.ascii req .create 9 db₂).1.forgetFresh ∧
      projectsOf (projectViewSet Env.ascii req .create 9 db₂).2 2 = projectsOf db₂ 2 := by
  intro req db₁ db₂
  have hagree : ∀ user org, req.user = some user → headerOrg req.header = some org →
      AgreeOn user org db₁ db₂ := by
    intro user org huser horg
    obtain rfl : 1 = user := Option.some.inj huser
    obtain rfl : (1 : Int) = org :=
      Option.some.inj ((show headerOrg req.header = some 1 by decide).symm.trans horg)
    refine ⟨by decide, fun m hm => ?_⟩
    obtain rfl : (⟨1, 1, 1, .member, 0⟩ : Row Membership) = m :=
      Option.some.inj ((show membershipIn db₁ 1 1 = some ⟨1, 1, 1, .member, 0⟩ by decide).symm.trans
        hm)
    exact ⟨by decide, by decide, by decide, by decide⟩
  obtain ⟨hresponse, -, -, hothers, -⟩ :=
    projectViewSet_isolated Env.ascii req .create 5 9 db₁ db₂ hagree
  exact ⟨hresponse, (hothers 2 (by decide)).2⟩

end Bastiq
