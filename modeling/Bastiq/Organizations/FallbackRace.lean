import Bastiq.Organizations.InviteRace
import Bastiq.Projects.Statements

/-!
# Organizations without a subscription row

The limits of an organization without a subscription row are those of the Free plan, but there is
no row for `lock_billing` to lock. Creations of projects and invitations run side by side then, and
a count that was within the cap may not be when the row it allowed is inserted. This file says that
the caps are kept exactly when each commit still finds the room its check found (`FitsFree`), and
that it does when no commit comes between the check and the commit of another (`InTurn`).
-/

namespace Bastiq

open Relational Transition Concurrency

/-! ## The machine -/

/-- A project request, or a POST to the invitations of an organization. -/
inductive FallbackOp where
  | project (q : ProjectCall)
  | invite (bearer : Option Nat) (pk : String) (data : RequestData) (A : Ambient)

inductive FallbackProgress where
  | project (l : ProjectProgress)
  | invite (l : InvitationProgress)

variable {ι : Type} [DecidableEq ι]

/-- The store as a project request uses it. -/
def InvitationStore.locked (s : InvitationStore ι) : LockedDb LockKey ι := ⟨s.db, s.locks⟩

def InvitationStore.ofLocked (t : LockedDb LockKey ι) : InvitationStore ι := ⟨t.db, t.locks⟩

/-- The next statement of an operation. -/
def fallbackStep (E : Env) (op : FallbackOp) (i : ι) :
    FallbackProgress → InvitationStore ι → Option (FallbackProgress × InvitationStore ι)
  | .project l, s => match op with
      | .project q => (projectStep .subscription q i l s.locked).map fun out =>
          (.project out.1, .ofLocked out.2)
      | .invite _ _ _ _ => none
  | .invite l, s => match op with
      | .invite bearer pk data A => (invitationStep E ⟨bearer, .post pk data, A⟩ i l s).map fun out =>
          (.invite out.1, out.2)
      | .project _ => none

/-- The operations side by side. -/
def fallbackMachine (E : Env) (ops : ι → FallbackOp) :
    Machine ι (InvitationStore ι) FallbackProgress where
  step i := fallbackStep E (ops i) i

def FallbackOp.start : FallbackOp → FallbackProgress
  | .project _ => .project .start
  | .invite _ _ _ _ => .invite .start

/-- Nothing has started. -/
def fallbackStart (ops : ι → FallbackOp) (db : Db) :
    Config ι (InvitationStore ι) FallbackProgress :=
  ⟨⟨db, Locks.free⟩, fun i => (ops i).start⟩

/-- Where a POST can stand: it never gets to where an accept does, and what it inserts is PENDING. -/
def InvitationProgress.Posting : InvitationProgress → Prop
  | .permitted new => new.status = .pending
  | .locked new => new.status = .pending
  | .noMember new => new.status = .pending
  | .noPending new => new.status = .pending
  | .capped new _ => new.status = .pending
  | .membersCounted new _ _ => new.status = .pending
  | .allowed new => new.status = .pending
  | .inserted new => new.status = .pending
  | .creating _ _ => False
  | .marking _ _ _ => False
  | .marked _ _ _ => False
  | _ => True

/-- Where an operation can stand. -/
def FallbackOp.CanBeAt : FallbackOp → FallbackProgress → Prop
  | .project _, .project _ => True
  | .invite _ _ _ _, .invite l => l.Posting
  | _, _ => False

/-- The moves of an operation: those of a project request, and those of a POST. -/
inductive FallbackMove (E : Env) (i : ι) (s : InvitationStore ι) :
    FallbackProgress → FallbackProgress → InvitationStore ι → Prop where
  | project {m m' : ProjectProgress} {t : LockedDb LockKey ι}
      (h : ProjectMove .subscription i s.locked m m' t) :
      FallbackMove E i s (.project m) (.project m') (.ofLocked t)
  | invite {m m' : InvitationProgress} {s' : InvitationStore ι} (h : InvitationMove E i s m m' s') :
      FallbackMove E i s (.invite m) (.invite m') s'

omit [DecidableEq ι] in
theorem posting_postStep (E : Env) (A : Ambient) (user : Row User) (pk : String)
    (data : RequestData) (s : InvitationStore ι) :
    (postStep E A user pk data s).Posting := by
  unfold postStep
  split
  · trivial
  · split
    · trivial
    · rfl

/-- **A step of the machine** is a move, and a POST stays one. -/
theorem fallbackMove_of_step {E : Env} {op : FallbackOp} {i : ι} {l l' : FallbackProgress}
    {s s' : InvitationStore ι} (hl : op.CanBeAt l) (h : fallbackStep E op i l s = some (l', s')) :
    FallbackMove E i s l l' s' ∧ op.CanBeAt l' := by
  cases l with
  | project m =>
      cases op with
      | invite bearer pk data A => cases h
      | project q =>
          obtain ⟨⟨m', t⟩, hstep, hout⟩ := Option.map_eq_some_iff.mp h
          cases hout
          exact ⟨.project (projectMove_of_step hstep), trivial⟩
  | invite m =>
      cases op with
      | project q => cases h
      | invite bearer pk data A =>
          obtain ⟨⟨m', t⟩, hstep, hout⟩ := Option.map_eq_some_iff.mp h
          cases hout
          have hmove := invitationMove_of_step hstep
          refine ⟨.invite hmove, ?_⟩
          cases m with
          | authenticated user =>
              -- the request is a POST, so nothing is accepted
              cases hstep
              exact posting_postStep E A user pk data s
          | creating user inv => cases hl
          | marking inv joins status => cases hl
          | marked inv joins status => cases hl
          | start => cases hmove <;> trivial
          | permitted new => cases hmove <;> trivial
          | locked new => cases hmove <;> trivial
          | noMember new => cases hmove <;> trivial
          | noPending new => cases hmove <;> trivial
          | capped new l => cases hmove <;> trivial
          | membersCounted new l n => cases hmove <;> trivial
          | allowed new => cases hmove <;> trivial
          | inserted new => cases hmove <;> trivial
          | done status => cases hstep

/-! ## The caps of the Free plan -/

/-- A cap of the Free plan. -/
abbrev freeCap (key : String) : Option Int := defaultFreeLimits.get key

/-- Projects and seats are within the caps of the Free plan, and PENDING invitations are to
different addresses. -/
structure WithinFree (E : Env) (org : Nat) (db : Db) : Prop where
  projects : Within (projectCount db org) (freeCap "max_projects")
  seats : Within (seats db org) (freeCap "max_members")
  distinct : DistinctPending E org db

/-- **If operation `i` is about to commit**, there is at this moment room for what it commits, and no
PENDING invitation to its address. -/
def FitsFree (E : Env) (org : Nat) (c : Config ι (InvitationStore ι) FallbackProgress) (i : ι) :
    Prop :=
  (∀ new, c.loc i = .project (.inserted new) → new.organization = org →
    below (projectCount c.store.db org) (freeCap "max_projects") = true) ∧
  ∀ new, c.loc i = .invite (.inserted new) → new.organization = org →
    below (Bastiq.seats c.store.db org) (freeCap "max_members") = true ∧
      hasPending E c.store.db org new.email = false

theorem within_succ_iff {n : Nat} {cap : Option Int} : Within (n + 1) cap ↔ below n cap = true :=
  ⟨fun h => below_of_within h (Nat.lt_succ_self n), within_of_below⟩

section Commit

variable {E : Env} {org : Nat} {db : Db}

theorem seats_insert (new : Invitation) (hpending : new.status = .pending) :
    seats { db with invitations := db.invitations.insert new } org =
      seats db org + if new.organization = org then 1 else 0 := by
  rw [seats, pendingCount_insert db hpending]
  exact (Nat.add_assoc _ _ _).symm

/-- The commit of a creation. -/
theorem withinFree_project_iff (h : WithinFree E org db) (new : Project) :
    WithinFree E org { db with projects := db.projects.insert new } ↔
      (new.organization = org → below (projectCount db org) (freeCap "max_projects") = true) := by
  have hcount := projectCount_insert db new org
  by_cases horg : new.organization = org
  · rw [if_pos horg] at hcount
    constructor
    · intro hafter _
      rw [← within_succ_iff, ← hcount]
      exact hafter.projects
    · intro hroom
      refine ⟨?_, h.seats, h.distinct⟩
      rw [hcount, within_succ_iff]
      exact hroom horg
  · rw [if_neg horg] at hcount
    refine iff_of_true ⟨?_, h.seats, h.distinct⟩ fun heq => absurd heq horg
    rw [hcount]
    exact h.projects

/-- The commit of an invitation. -/
theorem withinFree_invite_iff (h : WithinFree E org db) {new : Invitation}
    (hpending : new.status = .pending) :
    WithinFree E org { db with invitations := db.invitations.insert new } ↔
      (new.organization = org → below (seats db org) (freeCap "max_members") = true ∧
        hasPending E db org new.email = false) := by
  have hseats : seats { db with invitations := db.invitations.insert new } org =
      seats db org + if new.organization = org then 1 else 0 := seats_insert new hpending
  have hdistinct := distinctPending_insert_iff h.distinct hpending
  by_cases horg : new.organization = org
  · rw [if_pos horg] at hseats
    constructor
    · intro hafter _
      refine ⟨?_, hdistinct.mp hafter.distinct horg⟩
      rw [← within_succ_iff, ← hseats]
      exact hafter.seats
    · intro hfits
      refine ⟨h.projects, ?_, hdistinct.mpr fun _ => (hfits horg).2⟩
      rw [hseats, within_succ_iff]
      exact (hfits horg).1
  · rw [if_neg horg] at hseats
    refine iff_of_true ⟨h.projects, ?_, hdistinct.mpr fun heq => absurd heq horg⟩
      fun heq => absurd heq horg
    rw [hseats]
    exact h.seats

end Commit

section Race

variable {E : Env} {org : Nat} {i j : ι} {s s' : InvitationStore ι} {l l' other : FallbackProgress}

omit [DecidableEq ι] in
/-- A project request has to fit where it is about to insert. -/
theorem fitsFree_project_iff {c : Config ι (InvitationStore ι) FallbackProgress}
    {m : ProjectProgress} (hloc : c.loc i = .project m) :
    FitsFree E org c i ↔ ∀ new, m = .inserted new → new.organization = org →
      below (projectCount c.store.db org) (freeCap "max_projects") = true := by
  constructor
  · rintro hfits new rfl
    exact hfits.1 new hloc
  · intro hroom
    constructor
    · intro new hl
      exact hroom new (FallbackProgress.project.inj (hloc.symm.trans hl))
    · intro new hl
      cases hloc.symm.trans hl

omit [DecidableEq ι] in
/-- A POST has to fit where it is about to insert. -/
theorem fitsFree_invite_iff {c : Config ι (InvitationStore ι) FallbackProgress}
    {m : InvitationProgress} (hloc : c.loc i = .invite m) :
    FitsFree E org c i ↔ ∀ new, m = .inserted new → new.organization = org →
      below (seats c.store.db org) (freeCap "max_members") = true ∧
        hasPending E c.store.db org new.email = false := by
  constructor
  · rintro hfits new rfl
    exact hfits.2 new hloc
  · intro hroom
    constructor
    · intro new hl
      cases hloc.symm.trans hl
    · intro new hl
      exact hroom new (FallbackProgress.invite.inj (hloc.symm.trans hl))

/-- **One move** stays within the caps exactly when it is no commit, or one that fits. -/
theorem withinFree_move_iff {c : Config ι (InvitationStore ι) FallbackProgress}
    {op : FallbackOp} (hl : op.CanBeAt (c.loc i)) (h : WithinFree E org c.store.db)
    (hmove : FallbackMove E i c.store (c.loc i) l' s') :
    WithinFree E org s'.db ↔ FitsFree E org c i := by
  generalize hloc : c.loc i = l at hl hmove
  cases hmove with
  | @project m m' t hmove =>
      rw [fitsFree_project_iff hloc]
      cases hmove with
      -- the commit of a creation: it fits exactly when the bound survives it
      | @created new =>
          refine (withinFree_project_iff h new).trans ⟨fun hroom => ?_, fun hfits => hfits new rfl⟩
          rintro new' ⟨⟩
          exact hroom
      -- a deletion only makes room
      | destroyed =>
          refine iff_of_true ⟨?_, h.seats, h.distinct⟩ fun new hnew => by cases hnew
          exact h.projects.mono (Table.count_delete_le _ _ _)
      | refused hfree =>
          refine iff_of_true h ?_
          rintro new rfl
          cases hfree
      | _ => exact iff_of_true h fun new hnew => by cases hnew
  | @invite m m' s' hmove =>
      rw [fitsFree_invite_iff hloc]
      cases hmove with
      | @posted new =>
          have hpending : new.status = .pending := by
            cases op with
            | project q => cases hl
            | invite bearer pk data A => exact hl
          refine (withinFree_invite_iff h hpending).trans
            ⟨fun hroom => ?_, fun hfits => hfits new rfl⟩
          rintro new' ⟨⟩
          exact hroom
      -- an accept is none of the operations here
      | accepted =>
          cases op with
          | project q => cases hl
          | invite bearer pk data A => cases hl
      | refused hfree =>
          refine iff_of_true h ?_
          rintro new rfl
          cases hfree
      | rolledBack hopen =>
          refine iff_of_true h ?_
          rintro new rfl
          cases hopen
      | _ => exact iff_of_true h fun new hnew => by cases hnew

theorem withinFree_next_iff {ops : ι → FallbackOp}
    {c : Config ι (InvitationStore ι) FallbackProgress} (hl : (ops i).CanBeAt (c.loc i))
    (h : WithinFree E org c.store.db) :
    WithinFree E org ((fallbackMachine E ops).next c i).store.db ↔ FitsFree E org c i := by
  cases hstep : (fallbackMachine E ops).step i (c.loc i) c.store with
  | none =>
      -- a commit is never blocked
      rw [Machine.next_of_none hstep]
      change fallbackStep E (ops i) i (c.loc i) c.store = none at hstep
      refine iff_of_true h ⟨fun new hloc => ?_, fun new hloc => ?_⟩
      · rw [hloc] at hstep hl
        cases hop : ops i with
        | project q => rw [hop] at hstep; cases hstep
        | invite bearer pk data A => rw [hop] at hl; cases hl
      · rw [hloc] at hstep hl
        cases hop : ops i with
        | project q => rw [hop] at hl; cases hl
        | invite bearer pk data A => rw [hop] at hstep; cases hstep
  | some out =>
      rw [Machine.next_of_some hstep, Config.move_store]
      exact withinFree_move_iff hl h (fallbackMove_of_step hl hstep).1

omit [DecidableEq ι] in
theorem canBeAt_start (op : FallbackOp) : op.CanBeAt op.start := by
  cases op <;> trivial

theorem canBeAt_next {ops : ι → FallbackOp} {c : Config ι (InvitationStore ι) FallbackProgress}
    (h : ∀ j, (ops j).CanBeAt (c.loc j)) (i j : ι) :
    (ops j).CanBeAt (((fallbackMachine E ops).next c i).loc j) := by
  apply Machine.knows_next (M := fallbackMachine E ops) (K := fun j _ l => (ops j).CanBeAt l) h
  · intro l s hstep
    exact (fallbackMove_of_step (h i) hstep).2
  · intro l s _ j _
    exact h j

/-! ## Taking turns -/

/-- The count that lets a project of `org` in is made, the commit is not. -/
def ProjectProgress.counted (org : Nat) : ProjectProgress → Bool
  | .allowed new => new.organization == org
  | .inserted new => new.organization == org
  | _ => false

/-- What an invitation to `email` would change is looked at: the address, or the seats of `org`. -/
def InvitationProgress.looked (E : Env) (org : Nat) (email : String) : InvitationProgress → Bool
  | .noPending new => new.organization == org && E.iexact new.email email
  | .capped new _ => new.organization == org && E.iexact new.email email
  | .membersCounted new _ _ => new.organization == org && E.iexact new.email email
  | .allowed new => new.organization == org
  | .inserted new => new.organization == org
  | _ => false

/-- The first is about to commit for `org` what the second has looked at and not found. -/
def overtakes (E : Env) (org : Nat) : FallbackProgress → FallbackProgress → Bool
  | .project (.inserted new), .project other => new.organization == org && other.counted org
  | .invite (.inserted new), .invite other =>
      new.organization == org && other.looked E org new.email
  | _, _ => false

/-- Operation `i` overtakes nobody. -/
def InTurn (E : Env) (org : Nat) (c : Config ι (InvitationStore ι) FallbackProgress) (i : ι) :
    Prop :=
  ∀ j, j ≠ i → overtakes E org (c.loc i) (c.loc j) = false

instance [Fintype ι] (E : Env) (org : Nat) (c : Config ι (InvitationStore ι) FallbackProgress)
    (i : ι) : Decidable (InTurn E org c i) :=
  inferInstanceAs (Decidable (∀ j, j ≠ i → _))

/-- What an operation has found is so. -/
def FallbackKnown (E : Env) (org : Nat) (db : Db) : FallbackProgress → Prop
  | .project (.subscribed new sub) => new.organization = org → sub = none
  | .project (.capped new l) => new.organization = org → freeCap "max_projects" = some l
  | .project (.allowed new) =>
      new.organization = org → below (projectCount db org) (freeCap "max_projects") = true
  | .project (.inserted new) =>
      new.organization = org → below (projectCount db org) (freeCap "max_projects") = true
  | .invite (.noPending new) => new.organization = org → hasPending E db org new.email = false
  | .invite (.capped new l) => new.organization = org → hasPending E db org new.email = false ∧
      freeCap "max_members" = some l
  | .invite (.membersCounted new l n) =>
      new.organization = org → hasPending E db org new.email = false ∧
        freeCap "max_members" = some l ∧ n = memberCount db org
  | .invite (.allowed new) => new.organization = org → hasPending E db org new.email = false ∧
      below (seats db org) (freeCap "max_members") = true
  | .invite (.inserted new) => new.organization = org → hasPending E db org new.email = false ∧
      below (seats db org) (freeCap "max_members") = true
  | _ => True

omit [DecidableEq ι] in
theorem limit_of_no_row {db : Db} (hnone : subscriptionOf db org = none) (key : String) :
    limit db org key = freeCap key := by
  rw [limit_eq, hnone]
  rfl

/-- **An operation finds what is so.** -/
theorem FallbackKnown.of_move (h : FallbackKnown E org s.db l)
    (hnone : subscriptionOf s.db org = none)
    (hmove : FallbackMove E i s l l' s') : FallbackKnown E org s'.db l' := by
  cases hmove with
  | project hmove =>
      cases hmove with
      | subscribed => rintro rfl; exact hnone
      | unlimited hlimit =>
          intro horg
          obtain rfl := h horg
          have hfree : freeCap "max_projects" = none := hlimit
          rw [hfree]
          rfl
      | capped hlimit =>
          intro horg
          obtain rfl := h horg
          exact hlimit
      | allowed hbelow =>
          rintro rfl
          rw [h rfl]
          exact hbelow
      | inserted => exact h
      | _ => trivial
  | invite hmove =>
      cases hmove with
      | noPending hpending => rintro rfl; exact hpending
      | unlimited hlimit =>
          rintro rfl
          rw [limit_of_no_row hnone] at hlimit
          refine ⟨h rfl, ?_⟩
          rw [hlimit]
          rfl
      | capped hlimit =>
          rintro rfl
          rw [limit_of_no_row hnone] at hlimit
          exact ⟨h rfl, hlimit⟩
      | counted =>
          rintro rfl
          exact ⟨(h rfl).1, (h rfl).2, rfl⟩
      | allowed hbelow =>
          rintro rfl
          -- the seats are the members it counted before and the invitations it counts now
          obtain ⟨hpending, hlimit, rfl⟩ := h rfl
          refine ⟨hpending, ?_⟩
          rw [hlimit]
          exact hbelow
      | inserted => exact h
      | _ => trivial

/-- What a POST can leave behind. -/
theorem InvitationMove.db_of_posting {m m' : InvitationProgress} (hm : m.Posting)
    (hmove : InvitationMove E i s m m' s') :
    s'.db = s.db ∨ ∃ new, m = .inserted new ∧ new.status = .pending ∧
      s'.db = { s.db with invitations := s.db.invitations.insert new } := by
  cases hmove with
  | posted => exact .inr ⟨_, rfl, hm, rfl⟩
  | accepted => cases hm
  | _ => exact .inl rfl

/-- Other projects do not matter to those who have not counted them, nor do fewer. -/
theorem FallbackKnown.with_projects {db : Db} {projects : Table Project}
    (h : FallbackKnown E org db other)
    (hcount : ∀ m, other = .project m → m.counted org = true →
      projectCount { db with projects := projects } org ≤ projectCount db org) :
    FallbackKnown E org { db with projects := projects } other := by
  cases other with
  | invite m => cases m <;> exact h
  | project m =>
      cases m with
      | allowed new =>
          intro horg
          have hle := hcount _ rfl (by simpa [ProjectProgress.counted] using horg)
          exact below_of_le hle (h horg)
      | inserted new =>
          intro horg
          have hle := hcount _ rfl (by simpa [ProjectProgress.counted] using horg)
          exact below_of_le hle (h horg)
      | _ => exact h

/-- Nor does one more invitation to those who have not looked. -/
theorem FallbackKnown.with_invitation {db : Db} {new : Invitation}
    (h : FallbackKnown E org db other) (hpending : new.status = .pending)
    (hlooked : ∀ m, other = .invite m → new.organization = org →
      m.looked E org new.email = false) :
    FallbackKnown E org { db with invitations := db.invitations.insert new } other := by
  -- another address stays free
  have hfree : ∀ sent : Invitation, hasPending E db org sent.email = false →
      (new.organization = org → E.iexact sent.email new.email = false) →
      hasPending E { db with invitations := db.invitations.insert new } org sent.email = false := by
    intro sent hsent hother
    rw [hasPending_insert, hsent, Bool.false_or, Bool.and_eq_false_iff]
    by_cases horg : new.organization = org
    · right
      rw [← hother horg, Env.iexact, Env.iexact, Bool.beq_comm]
    · left
      simp [pendingFor, horg]
  cases other with
  | project m => cases m <;> exact h
  | invite m =>
      -- who has counted the seats of `org` sees no invitation to `org` inserted
      have hseats : ∀ sent : Invitation, sent.organization = org →
          m.looked E org new.email = (sent.organization == org) →
          hasPending E db org sent.email = false ∧
            below (seats db org) (freeCap "max_members") = true →
          hasPending E { db with invitations := db.invitations.insert new } org sent.email = false ∧
            below (seats { db with invitations := db.invitations.insert new } org)
              (freeCap "max_members") = true := by
        rintro sent hsent hm ⟨hsentFree, hroom⟩
        have hne : new.organization ≠ org := by
          intro horg
          rw [hlooked m rfl horg, hsent, BEq.rfl] at hm
          cases hm
        refine ⟨hfree sent hsentFree fun horg => absurd horg hne, ?_⟩
        rw [seats_insert new hpending, if_neg hne]
        exact hroom
      -- who has looked for an address sees no invitation to it inserted
      have haddress : ∀ sent : Invitation, sent.organization = org →
          m.looked E org new.email =
            (sent.organization == org && E.iexact sent.email new.email) →
          hasPending E db org sent.email = false →
          hasPending E { db with invitations := db.invitations.insert new } org sent.email =
            false := by
        intro sent hsent hm hsentFree
        apply hfree sent hsentFree
        intro horg
        rw [hlooked m rfl horg, hsent, BEq.rfl, Bool.true_and] at hm
        exact hm.symm
      cases m with
      | noPending sent => exact fun hsent => haddress sent hsent rfl (h hsent)
      | capped sent l => exact fun hsent => ⟨haddress sent hsent rfl (h hsent).1, (h hsent).2⟩
      | membersCounted sent l n =>
          exact fun hsent => ⟨haddress sent hsent rfl (h hsent).1, (h hsent).2⟩
      | allowed sent => exact fun hsent => hseats sent hsent rfl (h hsent)
      | inserted sent => exact fun hsent => hseats sent hsent rfl (h hsent)
      | _ => trivial

/-- **What an operation has found stays so** while nobody overtakes it. -/
theorem FallbackKnown.of_other {op : FallbackOp} (h : FallbackKnown E org s.db other)
    (hl : op.CanBeAt l) (hturn : overtakes E org l other = false)
    (hmove : FallbackMove E i s l l' s') : FallbackKnown E org s'.db other := by
  cases hmove with
  | @project m m' t hmove =>
      have hframe : (InvitationStore.ofLocked t).db = { s.db with projects := t.db.projects } :=
        hmove.frame
      have hle : (∀ new, m = .inserted new → new.organization ≠ org) →
          projectCount (InvitationStore.ofLocked t).db org ≤ projectCount s.db org :=
        hmove.projectCount_le
      rw [hframe] at hle ⊢
      apply h.with_projects
      rintro other rfl hcounted
      apply hle
      rintro new rfl horg
      simp [overtakes, horg, hcounted] at hturn
  | @invite m m' s' hmove =>
      have hposting : m.Posting := by
        cases op with
        | project q => cases hl
        | invite bearer pk data A => exact hl
      rcases hmove.db_of_posting hposting with hsame | ⟨new, rfl, hpending, hdb⟩
      · rw [hsame]
        exact h
      · rw [hdb]
        apply h.with_invitation hpending
        rintro other rfl horg
        simpa [overtakes, horg] using hturn

end Race

/-! ## Runs -/

/-- Everybody has found what is so, and there is still no subscription row. -/
structure FallbackInv (E : Env) (ops : ι → FallbackOp) (org : Nat)
    (c : Config ι (InvitationStore ι) FallbackProgress) : Prop where
  place : ∀ i, (ops i).CanBeAt (c.loc i)
  known : ∀ i, FallbackKnown E org c.store.db (c.loc i)
  noRow : subscriptionOf c.store.db org = none

section Runs

variable {E : Env} {ops : ι → FallbackOp} {org : Nat}
  {c : Config ι (InvitationStore ι) FallbackProgress} {i : ι}

theorem FallbackMove.subscriptions {s s' : InvitationStore ι} {l l' : FallbackProgress}
    (h : FallbackMove E i s l l' s') : s'.db.subscriptions = s.db.subscriptions := by
  cases h with
  | @project m m' t hmove =>
      have hframe : (InvitationStore.ofLocked t).db = { s.db with projects := t.db.projects } :=
        hmove.frame
      rw [hframe]
  | invite hmove => exact hmove.frame.2.1

omit [DecidableEq ι] in
theorem fallbackInv_start {db : Db} (hnone : subscriptionOf db org = none) :
    FallbackInv E ops org (fallbackStart ops db) := by
  refine ⟨fun i => canBeAt_start (ops i), fun i => ?_, hnone⟩
  change FallbackKnown E org db (ops i).start
  cases ops i <;> trivial

theorem FallbackInv.next (h : FallbackInv E ops org c) (hturn : InTurn E org c i) :
    FallbackInv E ops org ((fallbackMachine E ops).next c i) := by
  refine ⟨canBeAt_next h.place i, ?_, ?_⟩
  · apply Machine.knows_next
      (K := fun _ (s : InvitationStore ι) => FallbackKnown E org s.db) h.known
    · intro l s hstep
      exact (h.known i).of_move h.noRow (fallbackMove_of_step (h.place i) hstep).1
    · intro l s hstep j hj
      exact (h.known j).of_other (h.place i) (hturn j hj)
        (fallbackMove_of_step (h.place i) hstep).1
  · refine Machine.next_cases (M := fallbackMachine E ops)
      (motive := fun c' => subscriptionOf c'.store.db org = none) c i h.noRow fun l s hstep => ?_
    obtain ⟨hmove, -⟩ := fallbackMove_of_step (h.place i) hstep
    rw [Config.move_store, subscriptionOf, hmove.subscriptions]
    exact h.noRow

omit [DecidableEq ι] in
theorem FallbackInv.fitsFree (h : FallbackInv E ops org c) (i : ι) : FitsFree E org c i := by
  have hknown := h.known i
  refine ⟨?_, ?_⟩
  · intro new hl horg
    rw [hl] at hknown
    exact hknown horg
  · intro new hl horg
    rw [hl] at hknown
    exact ⟨(hknown horg).2, (hknown horg).1⟩

/-- **When the fallback caps hold under concurrency**: in every committed state exactly when every
commit still fits; and that is so, for an organization without a subscription row, where nobody is
overtaken. -/
theorem fallback_caps_hold_iff (E : Env) (ops : ι → FallbackOp) (org : Nat) {db : Db}
    (h : WithinFree E org db) (sched : List ι) :
    ((fallbackMachine E ops).Always (fun c => WithinFree E org c.store.db) (fallbackStart ops db)
        sched ↔
      (fallbackMachine E ops).Along (FitsFree E org) (fallbackStart ops db) sched) ∧
    (subscriptionOf db org = none →
      (fallbackMachine E ops).Along (InTurn E org) (fallbackStart ops db) sched →
      (fallbackMachine E ops).Always (fun c => WithinFree E org c.store.db) (fallbackStart ops db)
        sched) := by
  have hplace : (fallbackMachine E ops).Along (fun c _ => ∀ j, (ops j).CanBeAt (c.loc j))
      (fallbackStart ops db) sched := by
    have hrun : (fallbackMachine E ops).Always (fun c => ∀ j, (ops j).CanBeAt (c.loc j))
        (fallbackStart ops db) sched := by
      apply states_of_step
      · intro c i hc
        exact canBeAt_next hc i
      · exact fun j => canBeAt_start (ops j)
    exact each_of_states (fun _ _ hc _ => hc) hrun
  have hiff : (fallbackMachine E ops).Always (fun c => WithinFree E org c.store.db)
      (fallbackStart ops db) sched ↔
      (fallbackMachine E ops).Along (FitsFree E org) (fallbackStart ops db) sched := by
    apply states_iff_each (R := fun c _ => ∀ j, (ops j).CanBeAt (c.loc j))
    · intro c i hkept hc
      exact withinFree_next_iff (hc i) hkept
    · exact h
    · exact hplace
  refine ⟨hiff, fun hnone hturn => hiff.mpr ?_⟩
  have hrun := hturn.and_invariant (fun _ _ hc hturn => hc.next hturn) (fallbackInv_start hnone)
  exact hrun.mono fun c i hc => hc.2.fitsFree i

end Runs

/-! ## Two at a time -/

/-- Organization 1, two projects, one invitation and no subscription row. -/
def unbilled : Db where
  users := Table.empty.insert { email := "a@x.io", password := "" }
  organizations := Table.empty.insert ⟨"Acme", "acme", some 1, 0⟩
  memberships := Table.empty.insert ⟨1, 1, .owner, 0⟩
  invitations := Table.empty.insert ⟨1, "b@x.io", .member, "first", .pending, some 1, 0, 1000⟩
  projects := (Table.empty.insert ⟨1, "One", "", some 1, 0⟩).insert ⟨1, "Two", "", some 1, 0⟩

instance (n : Nat) (cap : Option Int) : Decidable (Within n cap) :=
  match cap with
  | none => isTrue fun _ h => nomatch h
  | some l => decidable_of_iff ((n : Int) ≤ l) ⟨by rintro h _ ⟨⟩; exact h, fun h => h l rfl⟩

instance (E : Env) (org : Nat) (db : Db) : Decidable (DistinctPending E org db) :=
  inferInstanceAs (Decidable (∀ inv ∈ db.invitations.rows, ∀ other ∈ db.invitations.rows, _))

instance (E : Env) (org : Nat) (db : Db) : Decidable (WithinFree E org db) :=
  decidable_of_iff (Within (projectCount db org) (freeCap "max_projects") ∧
      Within (seats db org) (freeCap "max_members") ∧ DistinctPending E org db)
    ⟨fun h => ⟨h.1, h.2.1, h.2.2⟩, fun h => ⟨h.projects, h.seats, h.distinct⟩⟩

/-- The Owner creates a project. -/
def createProjectOp : FallbackOp :=
  .project ⟨some 1, some "1", [], .json (.obj [("name", .str "Three")]), .create, 10⟩

/-- The Owner invites one more. -/
def inviteOp (email token : String) : FallbackOp :=
  .invite (some 1) "1" (.json (.obj [("email", .str email)])) ⟨10, token, true⟩

/-- Two creations count two projects each, and then there are four. Two invitations to one address
count two seats each, and then there are four, and two to that address. -/
theorem fallback_caps_exceeded :
    let together : List Bool := List.replicate 9 true ++ List.replicate 9 false ++ [true, false]
    let created := (fallbackMachine Env.ascii fun _ : Bool => createProjectOp).run
      (fallbackStart (fun _ => createProjectOp) unbilled)
      (List.replicate 7 true ++ List.replicate 7 false ++ [true, false])
    let invited := (fallbackMachine Env.ascii fun i : Bool =>
        inviteOp "c@x.io" (if i then "second" else "third")).run
      (fallbackStart (fun i => inviteOp "c@x.io" (if i then "second" else "third")) unbilled) together
    WithinFree Env.ascii 1 unbilled ∧ subscriptionOf unbilled 1 = none ∧
      projectCount created.store.db 1 = 4 ∧ seats invited.store.db 1 = 4 ∧
      ¬ WithinFree Env.ascii 1 created.store.db ∧
      ¬ DistinctPending Env.ascii 1 invited.store.db := by
  decide

/-- A creation that has read the cap, and not yet counted, is overtaken by another one. It counts
three projects, and is refused. -/
theorem fallback_caps_hold_iff_in_turn :
    let sched := List.replicate 5 false ++ List.replicate 8 true ++ List.replicate 3 false
    (fallbackMachine Env.ascii fun _ : Bool => createProjectOp).Always
      (fun c => WithinFree Env.ascii 1 c.store.db)
      (fallbackStart (fun _ => createProjectOp) unbilled) sched := by
  intro sched
  have hturn : (fallbackMachine Env.ascii fun _ : Bool => createProjectOp).Along
      (InTurn Env.ascii 1) (fallbackStart (fun _ => createProjectOp) unbilled) sched := by decide
  have hstart : WithinFree Env.ascii 1 unbilled := by decide
  exact (fallback_caps_hold_iff Env.ascii _ 1 hstart sched).2 (by decide) hturn

end Bastiq
