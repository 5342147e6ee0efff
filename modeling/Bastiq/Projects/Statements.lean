import Bastiq.Concurrency.Machine
import Bastiq.Api

/-!
# Project requests as transactions

Creating and deleting a project as the database sees it, one statement at a time, under READ
COMMITTED. `perform_create` locks the organization's subscription row, reads the row and its plan
again, counts, inserts, and commits; `billing` is the key under which the row of a subscription is
locked. A deletion has no transaction around it but its own statement.
-/

namespace Bastiq

open Relational View Concurrency

/-! ## Statements -/

inductive ProjectWrite where
  | create
  | destroy (pk : String)

/-- A POST to the projects, or a DELETE of one. -/
structure ProjectCall where
  bearer : Option Nat
  header : Option String
  query  : List (String × String)
  data   : RequestData
  write  : ProjectWrite
  now    : Int

/-- The committed database, and the locks of open transactions. -/
structure LockedDb (κ ι : Type) where
  db    : Db
  locks : Locks κ ι

/-- Where a request stands. The project of a creation is the one it is about to insert. -/
inductive ProjectProgress where
  | start
  | authenticated (user : Nat)
  /-- the caller may create this project; the billing row is locked next -/
  | permitted (new : Project)
  | locked (new : Project)
  /-- the subscription row is read, its plan is next -/
  | subscribed (new : Project) (sub : Option (Row Subscription))
  | capped (new : Project) (cap : Int)
  /-- the limit allows one more -/
  | allowed (new : Project)
  /-- the row is inserted, the commit is next -/
  | inserted (new : Project)
  /-- the caller is a member; the project to delete is looked up next -/
  | member (m : Row Membership) (user : Nat) (pk : String)
  /-- the caller may delete this project -/
  | found (p : Row Project)
  | done (status : Nat)

/-- The row a creation inserts. -/
def newProject (org user : Nat) (fields : ProjectFields) (now : Int) : Project :=
  { organization := org, name := fields.name.getD "", description := fields.description.getD "",
    createdBy := some user, createdAt := now }

/-- What a request does in memory once its caller is a member. -/
def ProjectCall.admitted (q : ProjectCall) (user : Nat) (m : Row Membership) : ProjectProgress :=
  match q.write with
  | .create =>
      match validateProject (β := ProjectPayload) false q.data with
      | .error r => .done r.status
      | .ok fields => .permitted (newProject m.val.organization user fields q.now)
  | .destroy pk => .member m user pk

/-- `_limit` on the subscription row that was read. -/
def planLimit (db : Db) (sub : Option (Row Subscription)) (key : String) : Option Int :=
  match sub with
  | none => defaultFreeLimits.get key
  | some s => match db.plans.get? s.val.plan with
      | none => defaultFreeLimits.get key
      | some p => p.val.limits.get key

theorem planLimit_congr {db db' : Db} (h : db'.plans = db.plans) (sub : Option (Row Subscription))
    (key : String) : planLimit db' sub key = planLimit db sub key := by
  unfold planLimit
  rw [h]

theorem limit_eq (db : Db) (org : Nat) (key : String) :
    limit db org key = planLimit db (subscriptionOf db org) key := rfl

variable {κ ι : Type} [DecidableEq κ] [DecidableEq ι]

/-- A transaction ends, and what it holds is free. -/
def LockedDb.release (s : LockedDb κ ι) (i : ι) : LockedDb κ ι :=
  { s with locks := s.locks.release i }

/-- The next statement of a project request. -/
def projectStep (billing : Nat → κ) (q : ProjectCall) (i : ι) :
    ProjectProgress → LockedDb κ ι → Option (ProjectProgress × LockedDb κ ι)
  | .start, s =>
      match checkFormat (β := ProjectPayload) q.query with
      | .error r => some (.done r.status, s)
      | .ok _ => match authenticate s.db q.bearer with
          | none => some (.done 401, s)
          | some user => some (.authenticated user.id, s)
  | .authenticated user, s =>
      match isOrganizationMember s.db user q.header with
      | none => some (.done 403, s)
      | some m => some (q.admitted user m, s)
  | .permitted new, s =>
      match subscriptionOf s.db new.organization with
      -- there is no row to lock
      | none => some (.locked new, s)
      | some sub => match s.locks.acquire i (billing sub.id) with
          | none => none
          | some locks => some (.locked new, { s with locks := locks })
  | .locked new, s => some (.subscribed new (subscriptionOf s.db new.organization), s)
  | .subscribed new sub, s =>
      match planLimit s.db sub "max_projects" with
      | none => some (.allowed new, s)
      | some l => some (.capped new l, s)
  | .capped new l, s =>
      if below (projectCount s.db new.organization) (some l) then some (.allowed new, s)
      else some (.done 402, s.release i)
  | .allowed new, s => some (.inserted new, s)
  | .inserted new, s =>
      some (.done 201, { s.release i with db := { s.db with projects := s.db.projects.insert new } })
  | .member m user pk, s =>
      match writableProject (β := ProjectPayload) s.db m user pk with
      | .error r => some (.done r.status, s)
      | .ok p => some (.found p, s)
  | .found p, s =>
      some (.done 204, { s with
        db := { s.db with projects := s.db.projects.delete (·.id == p.id) } })
  | .done _, _ => none

/-- The requests side by side. -/
def projectMachine (billing : Nat → κ) (calls : ι → ProjectCall) :
    Machine ι (LockedDb κ ι) ProjectProgress where
  step i := projectStep billing (calls i) i

/-! ## What one statement can do -/

/-- The request has nothing locked, and writes nothing next. -/
def ProjectProgress.isFree : ProjectProgress → Bool
  | .start => true
  | .authenticated _ => true
  | .member _ _ _ => true
  | _ => false

/-- The moves of a project request. All but the commit of a creation and the deletion leave the
database as it is. -/
inductive ProjectMove (billing : Nat → κ) (i : ι) (s : LockedDb κ ι) :
    ProjectProgress → ProjectProgress → LockedDb κ ι → Prop where
  | refused {l : ProjectProgress} {status : Nat} (hl : l.isFree = true) :
      ProjectMove billing i s l (.done status) s
  | known {user : Nat} : ProjectMove billing i s .start (.authenticated user) s
  | permitted {user : Nat} {new : Project} :
      ProjectMove billing i s (.authenticated user) (.permitted new) s
  | member {user : Nat} {m : Row Membership} {pk : String} :
      ProjectMove billing i s (.authenticated user) (.member m user pk) s
  | unlocked {new : Project} (hsub : subscriptionOf s.db new.organization = none) :
      ProjectMove billing i s (.permitted new) (.locked new) s
  | locked {new : Project} {sub : Row Subscription} {locks : Locks κ ι}
      (hsub : subscriptionOf s.db new.organization = some sub)
      (hlocks : s.locks.acquire i (billing sub.id) = some locks) :
      ProjectMove billing i s (.permitted new) (.locked new) { s with locks := locks }
  | subscribed {new : Project} : ProjectMove billing i s (.locked new)
      (.subscribed new (subscriptionOf s.db new.organization)) s
  | unlimited {new : Project} {sub : Option (Row Subscription)}
      (h : planLimit s.db sub "max_projects" = none) :
      ProjectMove billing i s (.subscribed new sub) (.allowed new) s
  | capped {new : Project} {sub : Option (Row Subscription)} {l : Int}
      (h : planLimit s.db sub "max_projects" = some l) :
      ProjectMove billing i s (.subscribed new sub) (.capped new l) s
  | allowed {new : Project} {l : Int}
      (h : below (projectCount s.db new.organization) (some l) = true) :
      ProjectMove billing i s (.capped new l) (.allowed new) s
  | full {new : Project} {l : Int} {status : Nat} :
      ProjectMove billing i s (.capped new l) (.done status) (s.release i)
  | inserted {new : Project} : ProjectMove billing i s (.allowed new) (.inserted new) s
  | created {new : Project} : ProjectMove billing i s (.inserted new) (.done 201)
      { s.release i with db := { s.db with projects := s.db.projects.insert new } }
  | found {m : Row Membership} {user : Nat} {pk : String} {p : Row Project} :
      ProjectMove billing i s (.member m user pk) (.found p) s
  | destroyed {p : Row Project} : ProjectMove billing i s (.found p) (.done 204)
      { s with db := { s.db with projects := s.db.projects.delete (·.id == p.id) } }

variable {billing : Nat → κ} {i : ι} {s s' : LockedDb κ ι} {l l' : ProjectProgress}

theorem ProjectMove.admitted {q : ProjectCall} {user : Nat} {m : Row Membership} :
    ProjectMove billing i s (.authenticated user) (q.admitted user m) s := by
  unfold ProjectCall.admitted
  split
  · split
    · exact .refused rfl
    · exact .permitted
  · exact .member

/-- A step of the machine is a move. -/
theorem projectMove_of_step {q : ProjectCall} (h : projectStep billing q i l s = some (l', s')) :
    ProjectMove billing i s l l' s' := by
  cases l with
  | start =>
      simp only [projectStep] at h
      split at h
      · cases h; exact .refused rfl
      · split at h
        · cases h; exact .refused rfl
        · cases h; exact .known
  | authenticated user =>
      simp only [projectStep] at h
      split at h
      · cases h; exact .refused rfl
      · cases h; exact .admitted
  | permitted new =>
      simp only [projectStep] at h
      split at h
      · next hsub => cases h; exact .unlocked hsub
      · next sub hsub =>
        split at h
        · cases h
        · next locks hlocks => cases h; exact .locked hsub hlocks
  | locked new => cases h; exact .subscribed
  | subscribed new sub =>
      simp only [projectStep] at h
      split at h
      · next hlimit => cases h; exact .unlimited hlimit
      · next l hlimit => cases h; exact .capped hlimit
  | capped new l =>
      simp only [projectStep] at h
      split at h
      · next hbelow => cases h; exact .allowed hbelow
      · cases h; exact .full
  | allowed new => cases h; exact .inserted
  | inserted new => cases h; exact .created
  | member m user pk =>
      simp only [projectStep] at h
      split at h
      · cases h; exact .refused rfl
      · cases h; exact .found
  | found p => cases h; exact .destroyed
  | done status => cases h

/-- A statement changes nothing but the projects. -/
theorem ProjectMove.frame (h : ProjectMove billing i s l l' s') :
    s'.db = { s.db with projects := s'.db.projects } := by
  cases h <;> rfl

theorem ProjectMove.lock_kept {j : ι} (h : ProjectMove billing i s l l' s') (hne : j ≠ i) {k : κ}
    (hk : s.locks k = some j) : s'.locks k = some j := by
  cases h with
  | full => exact Locks.release_held hk hne
  | locked hsub hlocks => exact Locks.acquire_held hlocks hk
  | created => exact Locks.release_held hk hne
  | _ => exact hk

theorem projectCount_insert (db : Db) (new : Project) (org : Nat) :
    projectCount { db with projects := db.projects.insert new } org =
      projectCount db org + if new.organization = org then 1 else 0 := by
  have hcount := db.projects.count_insert new fun p => p.val.organization == org
  simpa [projectCount] using hcount

/-- **Only the commit of a creation adds a project.** -/
theorem ProjectMove.projectCount_le {org : Nat} (h : ProjectMove billing i s l l' s')
    (hl : ∀ new, l = .inserted new → new.organization ≠ org) :
    projectCount s'.db org ≤ projectCount s.db org := by
  cases h with
  | created =>
      rw [projectCount_insert, if_neg (hl _ rfl)]
      exact Nat.le_refl _
  | destroyed => exact Table.count_delete_le _ _ _
  | _ => exact Nat.le_refl _

/-! ## A request left alone -/

/-- The request as the API routes it. -/
def ProjectWrite.action : ProjectWrite → ProjectAction
  | .create => .create
  | .destroy pk => .destroy pk

/-- What a creation does once its project is valid. -/
theorem createProject_eq (db : Db) (org user : Nat) (data : RequestData) (now : Int) :
    createProject db org user data now = (do
      let fields ← validateProject false data
      checkCanCreateProject db org
      let new := newProject org user fields now
      .ok (⟨201, .data (.project (Project.serialize ⟨db.projects.nextId, new⟩))⟩,
        { db with projects := db.projects.insert new })) := rfl

/-- Left alone, request `i` answers and leaves a database as `out` says, in `n` statements. -/
def Settles (billing : Nat → κ) (calls : ι → ProjectCall) (i : ι) (n : Nat) (l : ProjectProgress)
    (s : LockedDb κ ι) (out : Nat × Db) : Prop :=
  ∃ s', (projectMachine billing calls).alone i n l s = (.done out.1, s') ∧ s'.db = out.2

section Alone

variable {calls : ι → ProjectCall} {n : Nat} {out : Nat × Db} {new : Project}

theorem Settles.step (l' : ProjectProgress) (s' : LockedDb κ ι)
    (h : projectStep billing (calls i) i l s = some (l', s'))
    (hrest : Settles billing calls i n l' s' out) : Settles billing calls i (n + 1) l s out := by
  obtain ⟨s'', halone, hdb⟩ := hrest
  exact ⟨s'', (Machine.alone_succ h).trans halone, hdb⟩

theorem Settles.done {status : Nat} (hout : out = (status, s.db)) :
    Settles billing calls i n (.done status) s out := by
  subst hout
  exact ⟨s, Machine.alone_of_none rfl n, rfl⟩

theorem settles_allowed : Settles billing calls i (n + 2) (.allowed new) s
    (201, { s.db with projects := s.db.projects.insert new }) :=
  .step _ s rfl (.step _ _ rfl (.done rfl))

/-- A creation that may be made. -/
theorem settles_permitted (hheld : s.locks.HeldBy i) :
    Settles billing calls i 6 (.permitted new) s
      (match checkCanCreateProject (β := ProjectPayload) s.db new.organization with
        | .error r => (r.status, s.db)
        | .ok _ => (201, { s.db with projects := s.db.projects.insert new })) := by
  have hlocked : ∃ s', projectStep billing (calls i) i (.permitted new) s = some (.locked new, s') ∧
      s'.db = s.db := by
    simp only [projectStep]
    cases subscriptionOf s.db new.organization with
    | none => exact ⟨s, rfl, rfl⟩
    | some sub =>
        obtain ⟨locks, hlocks⟩ := hheld.acquire (billing sub.id)
        exact ⟨{ s with locks := locks }, by simp only [hlocks], rfl⟩
  obtain ⟨s', hstep, hdb⟩ := hlocked
  refine .step _ s' hstep (.step _ s' rfl ?_)
  rw [← hdb]
  cases hlimit : planLimit s'.db (subscriptionOf s'.db new.organization) "max_projects" with
  | none =>
      have hcheck : checkCanCreateProject (β := ProjectPayload) s'.db new.organization = .ok () := by
        simp [checkCanCreateProject, limit_eq, hlimit]
      rw [hcheck]
      refine .step (.allowed new) s' (by simp [projectStep, hlimit]) ?_
      exact settles_allowed
  | some l =>
      refine .step (.capped new l) s' (by simp [projectStep, hlimit]) ?_
      have hcheck : checkCanCreateProject (β := ProjectPayload) s'.db new.organization =
          require (below (projectCount s'.db new.organization) (some l)) (planLimitExceeded
            s!"Your plan allows at most {l} projects. Upgrade to create more.") := by
        simp only [checkCanCreateProject, limit_eq, hlimit]
      rw [hcheck]
      cases hbelow : below (projectCount s'.db new.organization) (some l) with
      | false =>
          exact .step (.done 402) (s'.release i) (by simp [projectStep, hbelow]) (.done rfl)
      | true =>
          refine .step (.allowed new) s' (by simp [projectStep, hbelow]) ?_
          exact settles_allowed

/-- A request that is admitted does what its action does. -/
theorem settles_admitted (E : Env) (hheld : s.locks.HeldBy i) (user : Nat) (m : Row Membership)
    {req : ProjectRequest} (hdata : req.data = (calls i).data) :
    Settles billing calls i 6 ((calls i).admitted user m) s
      (let out := perform s.db (projectAction E s.db m user req (calls i).now
        (calls i).write.action)
      (out.1.status, out.2)) := by
  unfold ProjectCall.admitted
  cases hwrite : (calls i).write with
  | create =>
      simp only [ProjectWrite.action, projectAction, createProject_eq, hdata]
      cases hfields : validateProject (β := ProjectPayload) false (calls i).data with
      | error r => exact .done rfl
      | ok fields =>
          simp only [ok_bind]
          let new := newProject m.val.organization user fields (calls i).now
          have hsettles : Settles billing calls i 6 (.permitted new) s
              (match checkCanCreateProject (β := ProjectPayload) s.db m.val.organization with
                | .error r => (r.status, s.db)
                | .ok _ => (201, { s.db with projects := s.db.projects.insert new })) :=
            settles_permitted hheld
          cases hcheck : checkCanCreateProject (β := ProjectPayload) s.db m.val.organization with
          | error r =>
              rw [hcheck] at hsettles
              exact hsettles
          | ok u =>
              rw [hcheck] at hsettles
              exact hsettles
  | destroy pk =>
      simp only [ProjectWrite.action, projectAction, destroyProject]
      cases hfound : writableProject (β := ProjectPayload) s.db m user pk with
      | error r => exact .step (.done r.status) s (by simp only [projectStep, hfound]) (.done rfl)
      | ok p =>
          exact .step (.found p) s (by simp only [projectStep, hfound]) (.step _ _ rfl (.done rfl))

end Alone

theorem settles_start (E : Env) (calls : ι → ProjectCall) (i : ι) (db : Db) :
    let q := calls i
    let req : ProjectRequest := ⟨(authenticate db q.bearer).map Row.id, q.header, q.query, q.data⟩
    let out := projectViewSet E req q.write.action q.now db
    Settles billing calls i 8 .start ⟨db, Locks.free⟩ (out.1.status, out.2) := by
  intro q req out
  let s : LockedDb κ ι := ⟨db, Locks.free⟩
  have hout : out = perform db (projectView E req q.write.action q.now db) := rfl
  clear_value out
  simp only [projectView, req] at hout
  cases hformat : checkFormat (β := ProjectPayload) q.query with
  | error r =>
      rw [hformat, error_bind] at hout
      rw [hout]
      exact .step (.done r.status) s (by simp only [projectStep, s, q, hformat]) (.done rfl)
  | ok u =>
  rw [hformat, ok_bind] at hout
  cases huser : authenticate db q.bearer with
  | none =>
      rw [huser] at hout
      rw [hout]
      exact .step (.done 401) s (by simp only [projectStep, s, q, hformat, huser]) (.done rfl)
  | some user =>
  simp only [huser, Option.map_some, orElse_some, ok_bind] at hout
  refine .step (.authenticated user.id) s (by simp only [projectStep, s, q, hformat, huser]) ?_
  cases hmember : isOrganizationMember db user.id q.header with
  | none =>
      rw [hmember] at hout
      rw [hout]
      exact .step (.done 403) s (by simp only [projectStep, s, q, hmember]) (.done rfl)
  | some m =>
  simp only [hmember, orElse_some, ok_bind] at hout
  rw [hout]
  exact .step (q.admitted user.id m) s (by simp only [projectStep, s, q, hmember])
    (settles_admitted (s := s) E (Locks.heldBy_free i) user.id m rfl)

/-- **A project request left alone** answers as `ProjectViewSet` does, and leaves the database it
leaves, in eight statements at most. -/
theorem project_alone (E : Env) (billing : Nat → κ) (calls : ι → ProjectCall) (i : ι) (db : Db) :
    let q := calls i
    let req : ProjectRequest := ⟨(authenticate db q.bearer).map Row.id, q.header, q.query, q.data⟩
    let out := projectViewSet E req q.write.action q.now db
    let start : Config ι (LockedDb κ ι) ProjectProgress := ⟨⟨db, Locks.free⟩, fun _ => .start⟩
    let final := (projectMachine billing calls).run start (List.replicate 8 i)
    final.loc i = .done out.1.status ∧ final.store.db = out.2 := by
  intro q req out start final
  have hsettles : Settles billing calls i 8 .start ⟨db, Locks.free⟩ (out.1.status, out.2) :=
    settles_start E calls i db
  obtain ⟨s', halone, hdb⟩ := hsettles
  have hrun : (final.loc i, final.store) =
      (projectMachine billing calls).alone i 8 .start ⟨db, Locks.free⟩ :=
    Machine.run_replicate start i 8
  rw [halone, Prod.mk.injEq] at hrun
  refine ⟨hrun.1, ?_⟩
  rw [hrun.2, hdb]

end Bastiq
