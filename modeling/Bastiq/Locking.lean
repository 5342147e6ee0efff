import Bastiq.Concurrency.Progress
import Bastiq.Billing.Delivery
import Bastiq.Organizations.AcceptRace
import Bastiq.Projects.Statements

/-!
# The requests that lock, all at once

Creations and deletions of projects, invitations, accepts, webhook deliveries and checkouts on one
database. Each keeps rows locked, or unique keys inserted, from one statement to the next, and waits
for what another one keeps. Here they are one machine, with the lock that their own machines leave
out: the row of the organization, to which an inserted project or invitation points, and which an
accept locks along with its invitation, whatever it then finds that to be.

They take what they lock in one order: ledger keys, then subscriptions and invitations, then the
tokens of new invitations, then organizations, then memberships. So nobody waits in a circle, and
every one of them is answered (`locking_requests_end`).
-/

namespace Bastiq

open Relational View Transition Concurrency

/-! ## The machine -/

inductive LockingOp where
  | project (q : ProjectCall)
  | invite (bearer : Option Nat) (pk : String) (data : RequestData) (ambient : Ambient)
  | accept (q : AcceptCall)
  | billing (op : BillingOp)

/-- Where an operation stands, as in its own machine. -/
inductive LockingPlace where
  | project (l : ProjectProgress)
  | invite (l : InvitationProgress)
  | accept (l : AcceptProgress)
  /-- an accept has locked its invitation, and asks for the row of the organization -/
  | asking (user : Row User) (inv : Row Invitation)
  | billing (l : Progress)

/-- With whether it has locked an organization's row. -/
structure LockingProgress where
  place  : LockingPlace
  locked : Bool

/-- The committed database, and what open transactions hold: rows and unique keys, ledger keys, and
rows of organizations, each locked by one for update or by many that point to it. -/
structure LockingStore (ι : Type) where
  db        : Db
  locks     : Locks LockKey ι
  events    : Locks String ι
  exclusive : Locks Nat ι
  shared    : List (Nat × ι)

def LockingOp.start : LockingOp → LockingPlace
  | .project _ => .project .start
  | .invite _ _ _ _ => .invite .start
  | .accept _ => .accept (.call .start)
  | .billing _ => .billing .start

/-- The operation is over. -/
def LockingPlace.ended : LockingPlace → Bool
  | .project (.done _) => true
  | .invite (.done _) => true
  | .accept (.call (.done _)) => true
  | .billing l => l.ended
  | _ => false

inductive RowLock where
  | forUpdate
  | forKeyShare
  deriving DecidableEq

/-- The organization whose row is locked next. An accept locks it by the query that has locked the
invitation; an insert makes sure of the row that it points to. -/
def LockingPlace.lockNext : LockingPlace → Option (Nat × RowLock)
  | .project (.inserted new) => some (new.organization, .forKeyShare)
  | .invite (.inserted new) => some (new.organization, .forKeyShare)
  | .asking _ inv => some (inv.val.organization, .forUpdate)
  | _ => none

variable {ι : Type} [DecidableEq ι]

namespace LockingStore

/-- The organization's row is locked, or another operation has it. -/
def lockOrganization (s : LockingStore ι) (i : ι) (org : Nat) : RowLock → Option (LockingStore ι)
  | .forUpdate =>
      match s.exclusive.acquire i org with
      | none => none
      | some exclusive =>
          if s.shared.any (fun p => p.1 == org && p.2 != i) then none
          else some { s with exclusive := exclusive }
  | .forKeyShare =>
      match s.exclusive org with
      | none => some { s with shared := (org, i) :: s.shared }
      | some _ => none

/-- The rows of organizations are free again when an operation ends. -/
def leaveOrganizations (s : LockingStore ι) (i : ι) : LockingStore ι :=
  { s with
    exclusive := s.exclusive.release i
    shared := s.shared.filter fun p => p.2 != i }

/-- The part of the store that a project request uses. -/
def projects (s : LockingStore ι) : LockedDb LockKey ι := ⟨s.db, s.locks⟩

def withProjects (s : LockingStore ι) (t : LockedDb LockKey ι) : LockingStore ι :=
  { s with db := t.db, locks := t.locks }

/-- The part that invitations and accepts use. -/
def invitations (s : LockingStore ι) : InvitationStore ι := ⟨s.db, s.locks⟩

def withInvitations (s : LockingStore ι) (t : InvitationStore ι) : LockingStore ι :=
  { s with db := t.db, locks := t.locks }

/-- The part that deliveries and checkouts use. -/
def billing (s : LockingStore ι) : BillingStore ι :=
  ⟨s.db, s.events, fun id => s.locks (.subscription id)⟩

def withBilling (s : LockingStore ι) (t : BillingStore ι) : LockingStore ι :=
  { s with
    db := t.db
    events := t.events
    locks := fun
      | .subscription id => t.rows id
      | k => s.locks k }

end LockingStore

/-! ### An accept's query

`select_for_update().select_related("organization")` locks two rows, one after the other, and
returns when it has both. -/

/-- The first row: the invitation under the token. -/
def findInvitation (user : Row User) (data : RequestData) (i : ι) (s : InvitationStore ι) :
    Option (LockingPlace × InvitationStore ι) :=
  match validateToken (β := OrganizationPayload) data with
  | .error r => some (.accept (.call (.done r.status)), s)
  | .ok token =>
      match invitationByToken s.db token with
      | none => some (.accept (.call (.done 400)), s)
      | some inv =>
          match s.locks.acquire i (.invitation inv.id) with
          | none => none
          | some locks => some (.asking user inv, { s with locks := locks })

/-- What the view reads off the invitation, when both rows are locked. -/
def readInvitation (E : Env) (A : Ambient) (user : Row User) (inv : Row Invitation) (i : ι)
    (s : InvitationStore ι) : LockingPlace × InvitationStore ι :=
  if inv.val.status != .pending then (.accept (.call (.done 400)), s.release i)
  else if inv.val.isExpired A.now then (.accept (.call (.marking inv none .expired)), s)
  else if E.iexact user.val.email inv.val.email then (.accept (.call (.creating user inv)), s)
  else (.accept (.call (.done 400)), s.release i)

/-- The next statement of an accept. -/
def acceptStatement (E : Env) (q : AcceptCall) (i : ι) :
    LockingPlace → InvitationStore ι → Option (LockingPlace × InvitationStore ι)
  | .accept (.call (.authenticated user)), s => findInvitation user q.data i s
  | .asking user inv, s => some (readInvitation E q.ambient user inv i s)
  | .accept l, s => (acceptStep E q i l s).map fun out => (.accept out.1, out.2)
  | _, _ => none

/-- Nothing else tells it from an accept in its own machine: where nothing comes between, finding
the invitation and reading it is the one statement that it is there. -/
theorem acceptStep_authenticated {E : Env} {q : AcceptCall} {i : ι} {user : Row User}
    {s : InvitationStore ι} (hnothing : ∀ k, s.locks k ≠ some i) :
    (acceptStep E q i (.call (.authenticated user)) s).map (fun out =>
        (LockingPlace.accept out.1, out.2)) =
      (findInvitation user q.data i s).map fun out =>
        match out.1 with
        | .asking user inv => readInvitation E q.ambient user inv i out.2
        | _ => out := by
  have hstep : acceptStep E q i (.call (.authenticated user)) s =
      (lockInvitation E q.ambient user q.data i s).map fun out => (.call out.1, out.2) := rfl
  rw [hstep]
  unfold lockInvitation findInvitation
  cases htoken : validateToken (β := OrganizationPayload) q.data with
  | error r => rfl
  | ok token =>
      simp only
      cases hinv : invitationByToken s.db token with
      | none => rfl
      | some inv =>
          simp only
          cases hlocks : s.locks.acquire i (.invitation inv.id) with
          | none => rfl
          | some locks =>
              have hrelease : ({ s with locks := locks } : InvitationStore ι).release i = s := by
                simp [InvitationStore.release, Locks.release_acquire hlocks hnothing]
              simp only [Option.map_some, readInvitation, hrelease]
              split
              · rfl
              · split
                · rfl
                · split <;> rfl

/-- The next statement of an operation, as in its own machine. -/
def lockingStatement (E : Env) (op : LockingOp) (i : ι) :
    LockingPlace → LockingStore ι → Option (LockingPlace × LockingStore ι)
  | .project l, s => match op with
      | .project q => (projectStep .subscription q i l s.projects).map fun out =>
          (.project out.1, s.withProjects out.2)
      | _ => none
  | .invite l, s => match op with
      | .invite bearer pk data A =>
          (invitationStep E ⟨bearer, .post pk data, A⟩ i l s.invitations).map fun out =>
            (.invite out.1, s.withInvitations out.2)
      | _ => none
  | .accept l, s => match op with
      | .accept q => (acceptStatement E q i (.accept l) s.invitations).map fun out =>
          (out.1, s.withInvitations out.2)
      | _ => none
  | .asking user inv, s => match op with
      | .accept q => (acceptStatement E q i (.asking user inv) s.invitations).map fun out =>
          (out.1, s.withInvitations out.2)
      | _ => none
  | .billing l, s => match op with
      | .billing op => ((billingMachine fun _ => op).step i l s.billing).map fun out =>
          (.billing out.1, s.withBilling out.2)
      | _ => none

/-- After a statement: an operation that has ended holds no organization's row. -/
def LockingStore.settle (i : ι) (locked : Bool) (out : LockingPlace × LockingStore ι) :
    LockingProgress × LockingStore ι :=
  if out.1.ended then (⟨out.1, false⟩, out.2.leaveOrganizations i) else (⟨out.1, locked⟩, out.2)

/-- What an operation does next. -/
def lockingStep (E : Env) (op : LockingOp) (i : ι) (p : LockingProgress) (s : LockingStore ι) :
    Option (LockingProgress × LockingStore ι) :=
  match p.locked, p.place.lockNext with
  | false, some (org, lock) => (s.lockOrganization i org lock).map fun s => (⟨p.place, true⟩, s)
  | _, _ => (lockingStatement E op i p.place s).map (LockingStore.settle i p.locked)

/-- The operations side by side. -/
def lockingMachine (E : Env) (ops : ι → LockingOp) :
    Machine ι (LockingStore ι) LockingProgress where
  step i := lockingStep E (ops i) i

/-- Nothing has started. -/
def lockingStart (ops : ι → LockingOp) (db : Db) : Config ι (LockingStore ι) LockingProgress :=
  ⟨⟨db, Locks.free, Locks.free, Locks.free, []⟩, fun i => ⟨(ops i).start, false⟩⟩

/-! ## The order of the keys -/

inductive LockingKey where
  | event (id : String)
  | row (k : LockKey)
  | organization (id : Nat)

def LockKey.rank : LockKey → Nat
  | .subscription _ => 1
  | .invitation _ => 1
  | .token _ => 2
  | .membership _ _ => 4

def LockingKey.rank : LockingKey → Nat
  | .event _ => 0
  | .row k => k.rank
  | .organization _ => 3

def LockingStore.Holds (s : LockingStore ι) : LockingKey → ι → Prop
  | .event id, i => s.events id = some i
  | .row k, i => s.locks k = some i
  | .organization id, i => s.exclusive id = some i ∨ (id, i) ∈ s.shared

/-- What a project request holds where it stands ranks below this. -/
def ProjectProgress.level : ProjectProgress → Nat
  | .locked _ => 2
  | .subscribed _ _ => 2
  | .capped _ _ => 2
  | .allowed _ => 2
  | .inserted _ => 2
  | _ => 0

def InvitationProgress.level : InvitationProgress → Nat
  | .locked _ => 2
  | .noMember _ => 2
  | .noPending _ => 2
  | .capped _ _ => 2
  | .membersCounted _ _ _ => 2
  | .allowed _ => 2
  | .inserted _ => 3
  | .creating _ _ => 2
  | .marking _ none _ => 2
  | .marked _ none _ => 2
  | .marking _ (some _) _ => 5
  | .marked _ (some _) _ => 5
  | _ => 0

def AcceptProgress.level : AcceptProgress → Nat
  | .call l => l.level
  | .inserting _ _ => 2
  | .refinding _ _ => 2

def Progress.level : Progress → Nat
  | .looking _ _ => 1
  | .decided _ _ => 1
  | .ready _ => 2
  | _ => 0

def LockingPlace.level : LockingPlace → Nat
  | .project l => l.level
  | .invite l => l.level
  | .accept l => l.level
  | .asking _ _ => 2
  | .billing l => l.level

/-- An accept stands here, in its own machine or between the two rows of its query. -/
def LockingPlace.isAccept : LockingPlace → Bool
  | .accept _ => true
  | .asking _ _ => true
  | _ => false

/-! Where an operation may have an organization's row. -/

def ProjectProgress.isLate : ProjectProgress → Bool
  | .inserted _ => true
  | _ => false

def InvitationProgress.isLate : InvitationProgress → Bool
  | .inserted _ => true
  | .creating _ _ => true
  | .marking _ _ _ => true
  | .marked _ _ _ => true
  | _ => false

def AcceptProgress.isLate : AcceptProgress → Bool
  | .call l => l.isLate
  | .inserting _ _ => true
  | .refinding _ _ => true

def LockingPlace.isLate : LockingPlace → Bool
  | .project l => l.isLate
  | .invite l => l.isLate
  | .accept l => l.isLate
  | .asking _ _ => true
  | .billing _ => false

def LockingProgress.level (p : LockingProgress) : Nat :=
  if p.locked then max 4 p.place.level else p.place.level

/-! ## What is left to do -/

def ProjectProgress.left : ProjectProgress → Nat
  | .start => 8
  | .authenticated _ => 7
  | .permitted _ => 6
  | .locked _ => 5
  | .subscribed _ _ => 4
  | .capped _ _ => 3
  | .allowed _ => 2
  | .inserted _ => 1
  | .member _ _ _ => 2
  | .found _ => 1
  | .done _ => 0

def InvitationProgress.left : InvitationProgress → Nat
  | .start => 10
  | .authenticated _ => 9
  | .permitted _ => 8
  | .locked _ => 7
  | .noMember _ => 6
  | .noPending _ => 5
  | .capped _ _ => 4
  | .membersCounted _ _ _ => 3
  | .allowed _ => 2
  | .inserted _ => 1
  | .creating _ _ => 5
  | .marking _ _ _ => 2
  | .marked _ _ _ => 1
  | .done _ => 0

def AcceptProgress.left : AcceptProgress → Nat
  | .call l => l.left
  | .inserting _ _ => 4
  | .refinding _ _ => 3

def Progress.left : Progress → Nat
  | .start => 8
  | .absent => 7
  | .looking _ queries => queries.length + 3
  | .decided _ _ => 2
  | .ready _ => 1
  | .calling _ => 1
  | _ => 0

def LockingPlace.left : LockingPlace → Nat
  | .project l => l.left
  | .invite l => l.left
  | .accept l => l.left
  | .asking _ _ => 6
  | .billing l => l.left

def LockingProgress.left (p : LockingProgress) : Nat :=
  2 * p.place.left - (if p.locked then 1 else 0)

theorem LockingProgress.left_pos (p : LockingProgress) (h : p.place.left ≠ 0) : 0 < p.left := by
  unfold LockingProgress.left
  split <;> omega

theorem LockingPlace.ended_iff (l : LockingPlace) : l.ended = true ↔ l.left = 0 := by
  cases l with
  | project l => cases l <;> simp [ended, left, ProjectProgress.left]
  | invite l => cases l <;> simp [ended, left, InvitationProgress.left]
  | accept l =>
      cases l with
      | call l => cases l <;> simp [ended, left, AcceptProgress.left, InvitationProgress.left]
      | _ => simp [ended, left, AcceptProgress.left]
  | asking user inv => simp [ended, left]
  | billing l => cases l <;> simp [ended, left, Progress.ended, Progress.left]

theorem LockingPlace.level_of_ended {l : LockingPlace} (h : l.ended = true) : l.level = 0 := by
  cases l with
  | project l => cases l <;> first | rfl | cases h
  | invite l => cases l <;> first | rfl | cases h
  | accept l =>
      cases l with
      | call l => cases l <;> first | rfl | cases h
      | _ => cases h
  | asking user inv => cases h
  | billing l => cases l <;> first | rfl | cases h

/-! ## One statement of each kind -/

section Statements

variable {E : Env} {i : ι}

open Locks

theorem ProjectMove.locks {l l' : ProjectProgress} {s s' : LockedDb LockKey ι}
    (h : ProjectMove .subscription i s l l' s') (hleft : l.left ≠ 0) :
    l'.left < l.left ∧ Changes LockKey.rank i l.level l'.level s.locks s'.locks := by
  cases h with
  | refused hfree =>
      refine ⟨Nat.pos_of_ne_zero hleft, .same rfl ?_⟩
      cases l <;> first | exact Nat.le_refl _ | cases hfree
  | known | permitted | member | subscribed | unlimited _ | capped _ | allowed _ | inserted | found
  | destroyed => exact ⟨by simp [ProjectProgress.left], .same rfl (Nat.le_refl _)⟩
  | unlocked _ => exact ⟨by simp [ProjectProgress.left], .same rfl (Nat.zero_le _)⟩
  | locked _ hlocks =>
      exact ⟨by simp [ProjectProgress.left], .taken hlocks (Nat.zero_le _) (Nat.lt_succ_self _)⟩
  | full | created => exact ⟨by simp [ProjectProgress.left], .released rfl⟩

theorem projectStep_locks {q : ProjectCall} {l l' : ProjectProgress} {s s' : LockedDb LockKey ι}
    (h : projectStep .subscription q i l s = some (l', s')) :
    l'.left < l.left ∧ Changes LockKey.rank i l.level l'.level s.locks s'.locks := by
  refine (projectMove_of_step h).locks ?_
  cases l with
  | done status => cases h
  | _ => exact Nat.succ_ne_zero _

theorem projectStep_waits {q : ProjectCall} {l : ProjectProgress} {s : LockedDb LockKey ι}
    (hleft : l.left ≠ 0) (h : projectStep .subscription q i l s = none) :
    ∃ k j, s.locks k = some j ∧ l.level ≤ k.rank ∧ (l.isLate = true → 4 ≤ k.rank) := by
  cases l with
  | permitted new =>
      simp only [projectStep] at h
      split at h
      · cases h
      · split at h
        · next hlocks =>
          obtain ⟨j, hj⟩ := exists_holder_of_acquire hlocks
          exact ⟨_, j, hj, Nat.zero_le _, fun hlate => absurd hlate Bool.false_ne_true⟩
        · cases h
  | done status => exact absurd rfl hleft
  | start =>
      simp only [projectStep] at h
      split at h
      · cases h
      · split at h <;> cases h
  | authenticated user =>
      simp only [projectStep] at h
      split at h <;> cases h
  | subscribed new sub =>
      simp only [projectStep] at h
      split at h <;> cases h
  | capped new cap =>
      simp only [projectStep] at h
      split at h <;> cases h
  | member m user pk =>
      simp only [projectStep] at h
      split at h <;> cases h
  | _ => cases h

theorem late_of_projectStep {q : ProjectCall} {l l' : ProjectProgress} {s s' : LockedDb LockKey ι}
    (hlate : l.isLate = true) (h : projectStep .subscription q i l s = some (l', s')) :
    l'.isLate = true ∨ l'.left = 0 := by
  cases l with
  | inserted new =>
      cases h
      exact .inr rfl
  | _ => cases hlate

/-- What a transaction holds when it is about to commit is no more than what it has locked. -/
theorem level_marked (inv : Row Invitation) (joins : Option Membership)
    (status status' : InvitationStatus) :
    (InvitationProgress.marked inv joins status).level =
      (InvitationProgress.marking inv joins status').level := by
  cases joins <;> rfl

theorem InvitationMove.locks {l l' : InvitationProgress} {s s' : InvitationStore ι}
    (h : InvitationMove E i s l l' s') (hleft : l.left ≠ 0) :
    l'.left < l.left ∧ Changes LockKey.rank i l.level l'.level s.locks s'.locks := by
  cases h with
  | refused hfree =>
      refine ⟨Nat.pos_of_ne_zero hleft, .same rfl ?_⟩
      cases l <;> first | exact Nat.le_refl _ | cases hfree
  | known _ | permitted _ | noMember _ | noPending _ | unlimited _ | capped _ | counted | allowed _
  | member => exact ⟨by simp [InvitationProgress.left], .same rfl (Nat.le_refl _)⟩
  | unlocked _ => exact ⟨by simp [InvitationProgress.left], .same rfl (Nat.zero_le _)⟩
  | @marked inv joins status =>
      exact ⟨by simp [InvitationProgress.left], .same rfl (level_marked inv joins _ _).ge⟩
  | locked _ hlocks | lapsed _ _ hlocks | matched _ _ _ hlocks =>
      exact ⟨by simp [InvitationProgress.left], .taken hlocks (Nat.zero_le _) (Nat.lt_succ_self _)⟩
  | inserted hlocks =>
      exact ⟨by simp [InvitationProgress.left], .taken hlocks (Nat.le_succ _) (Nat.lt_succ_self _)⟩
  | joins _ hlocks =>
      exact ⟨by simp [InvitationProgress.left],
        .taken hlocks (Nat.le_add_right 2 3) (Nat.lt_succ_self _)⟩
  | rolledBack _ | posted | accepted =>
      refine ⟨Nat.pos_of_ne_zero hleft, .released rfl⟩

theorem invitationStep_locks {q : InvitationCall} {l l' : InvitationProgress}
    {s s' : InvitationStore ι} (h : invitationStep E q i l s = some (l', s')) :
    l'.left < l.left ∧ Changes LockKey.rank i l.level l'.level s.locks s'.locks := by
  refine (invitationMove_of_step h).locks ?_
  cases l with
  | done status => cases h
  | _ => exact Nat.succ_ne_zero _

/-- An accept that finds its invitation locked waits. -/
theorem lockInvitation_waits {A : Ambient} {user : Row User} {data : RequestData}
    {s : InvitationStore ι} (h : lockInvitation E A user data i s = none) :
    ∃ k j, s.locks k = some j := by
  unfold lockInvitation at h
  split at h
  · cases h
  split at h
  · cases h
  split at h
  · next hlocks => exact ⟨_, exists_holder_of_acquire hlocks⟩
  split at h
  · cases h
  split at h
  · cases h
  split at h <;> cases h

theorem invitationStep_waits {q : InvitationCall} {l : InvitationProgress} {s : InvitationStore ι}
    (hleft : l.left ≠ 0) (h : invitationStep E q i l s = none) :
    ∃ k j, s.locks k = some j ∧ l.level ≤ k.rank ∧ (l.isLate = true → 4 ≤ k.rank) := by
  cases l with
  | authenticated user =>
      simp only [invitationStep] at h
      split at h
      · cases h
      · obtain ⟨k, j, hj⟩ := lockInvitation_waits h
        exact ⟨k, j, hj, Nat.zero_le _, fun hlate => absurd hlate Bool.false_ne_true⟩
  | permitted new =>
      simp only [invitationStep] at h
      split at h
      · cases h
      · split at h
        · next hlocks =>
          obtain ⟨j, hj⟩ := exists_holder_of_acquire hlocks
          exact ⟨_, j, hj, Nat.zero_le _, fun hlate => absurd hlate Bool.false_ne_true⟩
        · cases h
  | allowed new =>
      simp only [invitationStep] at h
      split at h
      · split at h
        · next hlocks =>
          obtain ⟨j, hj⟩ := exists_holder_of_acquire hlocks
          exact ⟨_, j, hj, Nat.le_refl _, fun hlate => absurd hlate Bool.false_ne_true⟩
        · split at h <;> cases h
      · cases h
  | creating user inv =>
      simp only [invitationStep] at h
      split at h
      · cases h
      · split at h
        · next hlocks =>
          obtain ⟨j, hj⟩ := exists_holder_of_acquire hlocks
          exact ⟨_, j, hj, Nat.le_add_right 2 2, fun _ => Nat.le_refl _⟩
        · cases h
  | start =>
      simp only [invitationStep] at h
      split at h <;> cases h
  | locked new =>
      simp only [invitationStep] at h
      split at h <;> cases h
  | noMember new =>
      simp only [invitationStep] at h
      split at h <;> cases h
  | noPending new =>
      simp only [invitationStep] at h
      split at h <;> cases h
  | membersCounted new cap n =>
      simp only [invitationStep] at h
      split at h <;> cases h
  | done status => exact absurd rfl hleft
  | _ => cases h

theorem late_of_invitationStep {q : InvitationCall} {l l' : InvitationProgress}
    {s s' : InvitationStore ι} (hlate : l.isLate = true)
    (h : invitationStep E q i l s = some (l', s')) : l'.isLate = true ∨ l'.left = 0 := by
  cases l with
  | inserted new =>
      cases h
      exact .inr rfl
  | creating user inv =>
      simp only [invitationStep] at h
      split at h
      · cases h
        exact .inl rfl
      · split at h
        · cases h
        · cases h
          exact .inl rfl
  | marking inv joins status =>
      cases h
      exact .inl rfl
  | marked inv joins status =>
      cases h
      exact .inr rfl
  | _ => cases hlate

theorem acceptStep_locks {q : AcceptCall} {l l' : AcceptProgress} {s s' : InvitationStore ι}
    (h : acceptStep E q i l s = some (l', s')) :
    l'.left < l.left ∧ Changes LockKey.rank i l.level l'.level s.locks s'.locks := by
  cases l with
  | inserting user inv =>
      simp only [acceptStep] at h
      split at h
      · cases h
      · next hlocks =>
        split at h
        · cases h
          exact ⟨by simp [AcceptProgress.left], .same rfl (Nat.le_refl _)⟩
        · cases h
          exact ⟨by simp [AcceptProgress.left, InvitationProgress.left],
            .taken hlocks (Nat.le_add_right 2 3) (Nat.lt_succ_self _)⟩
  | refinding user inv =>
      simp only [acceptStep] at h
      split at h
      · cases h
        exact ⟨by simp [AcceptProgress.left, InvitationProgress.left], .same rfl (Nat.le_refl _)⟩
      · cases h
        exact ⟨by simp [AcceptProgress.left, InvitationProgress.left], .released rfl⟩
  | call l =>
      by_cases hcreating : ∃ user inv, l = .creating user inv
      · obtain ⟨user, inv, rfl⟩ := hcreating
        simp only [acceptStep] at h
        split at h
        · cases h
          exact ⟨by simp [AcceptProgress.left, InvitationProgress.left],
            .same rfl (Nat.le_refl _)⟩
        · cases h
          exact ⟨by simp [AcceptProgress.left, InvitationProgress.left],
            .same rfl (Nat.le_refl _)⟩
      · rw [acceptStep_call fun user inv heq => hcreating ⟨user, inv, heq⟩] at h
        obtain ⟨out, hstep, hout⟩ := Option.map_eq_some_iff.mp h
        cases hout
        exact invitationStep_locks hstep

theorem acceptStep_waits {q : AcceptCall} {l : AcceptProgress} {s : InvitationStore ι}
    (hleft : l.left ≠ 0) (h : acceptStep E q i l s = none) :
    ∃ k j, s.locks k = some j ∧ l.level ≤ k.rank ∧ (l.isLate = true → 4 ≤ k.rank) := by
  cases l with
  | inserting user inv =>
      simp only [acceptStep] at h
      split at h
      · next hlocks =>
        obtain ⟨j, hj⟩ := exists_holder_of_acquire hlocks
        exact ⟨_, j, hj, Nat.le_add_right 2 2, fun _ => Nat.le_refl _⟩
      · split at h <;> cases h
  | refinding user inv =>
      simp only [acceptStep] at h
      split at h <;> cases h
  | call l =>
      by_cases hcreating : ∃ user inv, l = .creating user inv
      · obtain ⟨user, inv, rfl⟩ := hcreating
        simp only [acceptStep] at h
        split at h <;> cases h
      · rw [acceptStep_call fun user inv heq => hcreating ⟨user, inv, heq⟩] at h
        exact invitationStep_waits hleft (Option.map_eq_none_iff.mp h)

theorem late_of_acceptStep {q : AcceptCall} {l l' : AcceptProgress} {s s' : InvitationStore ι}
    (hlate : l.isLate = true) (h : acceptStep E q i l s = some (l', s')) :
    l'.isLate = true ∨ l'.left = 0 := by
  cases l with
  | inserting user inv =>
      simp only [acceptStep] at h
      split at h
      · cases h
      · split at h
        · cases h
          exact .inl rfl
        · cases h
          exact .inl rfl
  | refinding user inv =>
      simp only [acceptStep] at h
      split at h
      · cases h
        exact .inl rfl
      · cases h
        exact .inr rfl
  | call l =>
      by_cases hcreating : ∃ user inv, l = .creating user inv
      · obtain ⟨user, inv, rfl⟩ := hcreating
        simp only [acceptStep] at h
        split at h
        · cases h
          exact .inl rfl
        · cases h
          exact .inl rfl
      · rw [acceptStep_call fun user inv heq => hcreating ⟨user, inv, heq⟩] at h
        obtain ⟨out, hstep, hout⟩ := Option.map_eq_some_iff.mp h
        cases hout
        exact late_of_invitationStep hlate hstep

/-- What a statement of an accept has done. -/
structure AcceptDone (i : ι) (l l' : LockingPlace) (s s' : InvitationStore ι) : Prop where
  left   : l'.left < l.left
  late   : l.isLate = true → l'.isLate = true ∨ l'.left = 0
  stands : l'.isAccept = true
  locks  : Changes LockKey.rank i l.level l'.level s.locks s'.locks

theorem acceptDone_of_find {user : Row User} {data : RequestData} {l' : LockingPlace}
    {s s' : InvitationStore ι} (h : findInvitation user data i s = some (l', s')) :
    AcceptDone i (.accept (.call (.authenticated user))) l' s s' := by
  have hdone : ∀ status, AcceptDone i (.accept (.call (.authenticated user)))
      (.accept (.call (.done status))) s s := fun status =>
    ⟨Nat.succ_pos 8, nofun, rfl, .same rfl (Nat.le_refl 0)⟩
  unfold findInvitation at h
  split at h
  · cases h
    exact hdone _
  split at h
  · cases h
    exact hdone _
  split at h
  · cases h
  · next hlocks =>
    cases h
    refine ⟨?_, nofun, rfl, .taken hlocks (Nat.zero_le _) (Nat.lt_succ_self _)⟩
    show 6 < 9
    omega

theorem acceptDone_of_read {A : Ambient} {user : Row User} {inv : Row Invitation}
    {s : InvitationStore ι} :
    AcceptDone i (.asking user inv) (readInvitation E A user inv i s).1 s
      (readInvitation E A user inv i s).2 := by
  unfold readInvitation
  split
  · exact ⟨Nat.succ_pos 5, fun _ => .inr rfl, rfl, .released rfl⟩
  split
  · refine ⟨?_, fun _ => .inl rfl, rfl, .same rfl (Nat.le_refl 2)⟩
    show 2 < 6
    omega
  split
  · exact ⟨Nat.lt_succ_self 5, fun _ => .inl rfl, rfl, .same rfl (Nat.le_refl 2)⟩
  · exact ⟨Nat.succ_pos 5, fun _ => .inr rfl, rfl, .released rfl⟩

theorem acceptStatement_accept {q : AcceptCall} {l : AcceptProgress} {s : InvitationStore ι}
    (hl : ∀ user, l ≠ .call (.authenticated user)) :
    acceptStatement E q i (.accept l) s =
      (acceptStep E q i l s).map fun out => (.accept out.1, out.2) := by
  cases l with
  | call l =>
      cases l with
      | authenticated user => exact absurd rfl (hl user)
      | _ => rfl
  | _ => rfl

theorem acceptDone_of_statement {q : AcceptCall} {l l' : LockingPlace} {s s' : InvitationStore ι}
    (h : acceptStatement E q i l s = some (l', s')) : AcceptDone i l l' s s' := by
  cases l with
  | accept l =>
      by_cases hfinding : ∃ user, l = .call (.authenticated user)
      · obtain ⟨user, rfl⟩ := hfinding
        exact acceptDone_of_find h
      · rw [acceptStatement_accept fun user heq => hfinding ⟨user, heq⟩] at h
        obtain ⟨out, hstep, hout⟩ := Option.map_eq_some_iff.mp h
        cases hout
        obtain ⟨hleft, hlocks⟩ := acceptStep_locks hstep
        exact ⟨hleft, fun hlate => late_of_acceptStep hlate hstep, rfl, hlocks⟩
  | asking user inv =>
      obtain ⟨hl', hs'⟩ := Prod.mk.inj (Option.some.inj h)
      rw [← hl', ← hs']
      exact acceptDone_of_read
  | _ => cases h

theorem acceptStatement_waits {q : AcceptCall} {l : AcceptProgress} {s : InvitationStore ι}
    (hleft : l.left ≠ 0) (h : acceptStatement E q i (.accept l) s = none) :
    ∃ k j, s.locks k = some j ∧ l.level ≤ k.rank ∧ (l.isLate = true → 4 ≤ k.rank) := by
  by_cases hfinding : ∃ user, l = .call (.authenticated user)
  · obtain ⟨user, rfl⟩ := hfinding
    have h : findInvitation user q.data i s = none := h
    unfold findInvitation at h
    split at h
    · cases h
    split at h
    · cases h
    split at h
    · next hlocks =>
      obtain ⟨j, hj⟩ := exists_holder_of_acquire hlocks
      exact ⟨_, j, hj, Nat.zero_le _, nofun⟩
    · cases h
  · rw [acceptStatement_accept fun user heq => hfinding ⟨user, heq⟩] at h
    exact acceptStep_waits hleft (Option.map_eq_none_iff.mp h)

/-- What a statement of a delivery or a checkout does to the two lock tables it uses. -/
structure BillingLocks (i : ι) (l l' : Progress) (s s' : BillingStore ι) : Prop where
  left   : l'.left < l.left
  events : Changes (fun _ => 0) i l.level l'.level s.events s'.events
  rows   : Changes (fun _ => 1) i l.level l'.level s.rows s'.rows

theorem BillingLocks.of_same {l l' : Progress} {s : BillingStore ι} {db : Db}
    (hleft : l'.left < l.left) (hlevel : l.level ≤ l'.level) :
    BillingLocks i l l' s { s with db := db } :=
  ⟨hleft, .same rfl hlevel, .same rfl hlevel⟩

theorem BillingLocks.of_release {l l' : Progress} {s : BillingStore ι} {db : Db}
    (hleft : l'.left < l.left) : BillingLocks i l l' s { s.release i with db := db } :=
  ⟨hleft, .released rfl, .released rfl⟩

theorem StripeEvent.handling_left (event : StripeEvent) :
    event.handling.left < 7 ∧ 0 < event.handling.level := by
  unfold StripeEvent.handling
  split
  · exact ⟨by simp [Progress.left], Nat.zero_lt_two⟩
  · exact ⟨by simp [Progress.left, Handler.lookups, lookups], Nat.zero_lt_one⟩

theorem webhookStep_locks {d : Delivery} {l l' : Progress} {s s' : BillingStore ι}
    (h : webhookStep d i l s = some (l', s')) : BillingLocks i l l' s s' := by
  cases l with
  | start =>
      simp only [webhookStep] at h
      split at h
      · cases h
        exact .of_same (by simp [Progress.left]) (Nat.le_refl _)
      · split at h
        · cases h
          exact .of_same (by simp [Progress.left]) (Nat.le_refl _)
        · cases h
          exact .of_same (by simp [Progress.left]) (Nat.le_refl _)
  | absent =>
      simp only [webhookStep] at h
      split at h
      · split at h
        · cases h
        · next hevents =>
          split at h
          · cases h
            exact .of_same (by simp [Progress.left]) (Nat.le_refl _)
          · cases h
            obtain ⟨hleft, hlevel⟩ := d.event.handling_left
            exact ⟨hleft, .taken hevents (Nat.zero_le _) hlevel, .same rfl (Nat.zero_le _)⟩
      · cases h
        exact .of_same (by simp [Progress.left]) (Nat.le_refl _)
  | looking hd queries =>
      cases queries with
      | nil =>
          cases h
          exact .of_same (by simp [Progress.left]) (Nat.le_succ _)
      | cons query queries =>
          simp only [webhookStep] at h
          split at h
          · cases h
            exact .of_release (by simp [Progress.left])
          · cases h
            exact .of_same (by simp [Progress.left]) (Nat.le_refl _)
          · split at h
            · cases h
              exact .of_release (by simp [Progress.left])
            · cases h
              exact .of_same (by simp [Progress.left]) (Nat.le_refl _)
  | decided sub save =>
      simp only [webhookStep] at h
      split at h
      · split at h
        · cases h
        · next hrows =>
          cases h
          exact ⟨by simp [Progress.left], .same rfl (Nat.le_succ _),
            .taken hrows (Nat.le_succ _) (Nat.lt_succ_self _)⟩
      · cases h
        exact .of_release (by simp [Progress.left])
  | ready write =>
      simp only [webhookStep] at h
      split at h
      · cases h
        exact .of_release (by simp [Progress.left])
      · cases h
        exact .of_release (by simp [Progress.left])
  | _ => cases h

theorem ensureCustomerStep_locks {org : Nat} {create : Except Failure String} {l l' : Progress}
    {s s' : BillingStore ι} (h : ensureCustomerStep org create i l s = some (l', s')) :
    BillingLocks i l l' s s' := by
  cases l with
  | start =>
      simp only [ensureCustomerStep] at h
      split at h
      · cases h
        exact .of_same (by simp [Progress.left]) (Nat.le_refl _)
      · split at h
        · cases h
          exact .of_same (by simp [Progress.left]) (Nat.le_refl _)
        · cases h
          exact .of_same (by simp [Progress.left]) (Nat.le_refl _)
  | calling sub =>
      simp only [ensureCustomerStep] at h
      split at h
      · cases h
        exact .of_same (by simp [Progress.left]) (Nat.le_refl _)
      · split at h
        · split at h
          · cases h
          · cases h
            exact .of_same (by simp [Progress.left]) (Nat.le_refl _)
        · cases h
          exact .of_same (by simp [Progress.left]) (Nat.le_refl _)
  | _ => cases h

theorem billingStep_locks {op : BillingOp} {l l' : Progress} {s s' : BillingStore ι}
    (h : (billingMachine fun _ => op).step i l s = some (l', s')) : BillingLocks i l l' s s' := by
  cases op with
  | webhook d => exact webhookStep_locks h
  | ensureCustomer org create => exact ensureCustomerStep_locks h

theorem webhookStep_waits {d : Delivery} {l : Progress} {s : BillingStore ι}
    (hlevel : l.left ≠ 0) (hcalling : ∀ sub, l ≠ .calling sub) (h : webhookStep d i l s = none) :
    (∃ id j, s.events id = some j ∧ l.level = 0) ∨ ∃ id j, s.rows id = some j ∧ l.level ≤ 1 := by
  cases l with
  | absent =>
      simp only [webhookStep] at h
      split at h
      · split at h
        · next hevents =>
          obtain ⟨j, hj⟩ := exists_holder_of_acquire hevents
          exact .inl ⟨_, j, hj, rfl⟩
        · split at h <;> cases h
      · cases h
  | decided sub save =>
      simp only [webhookStep] at h
      split at h
      · split at h
        · next hrows =>
          obtain ⟨j, hj⟩ := exists_holder_of_acquire hrows
          exact .inr ⟨_, j, hj, Nat.le_refl _⟩
        · cases h
      · cases h
  | start =>
      simp only [webhookStep] at h
      split at h
      · cases h
      · split at h <;> cases h
  | looking hd queries =>
      cases queries with
      | nil => cases h
      | cons query queries =>
          simp only [webhookStep] at h
          split at h
          · cases h
          · cases h
          · split at h <;> cases h
  | ready write =>
      simp only [webhookStep] at h
      split at h <;> cases h
  | calling sub => exact absurd rfl (hcalling sub)
  | _ => exact absurd rfl hlevel

theorem ensureCustomerStep_waits (org : Nat) {create : Except Failure String}
    {sub : Row Subscription} {s : BillingStore ι}
    (h : ensureCustomerStep org create i (.calling sub) s = none) :
    ∃ id j, s.rows id = some j := by
  simp only [ensureCustomerStep] at h
  split at h
  · cases h
  · split at h
    · split at h
      · next hrows => exact ⟨_, exists_holder_of_acquire hrows⟩
      · cases h
    · cases h

end Statements

/-! ## What an operation holds where it stands -/

/-- The operation stands at a place of its own. -/
def LockingOp.standsAt : LockingOp → LockingPlace → Bool
  | .project _, .project _ => true
  | .invite _ _ _ _, .invite _ => true
  | .accept _, l => l.isAccept
  | .billing (.webhook _), .billing (.calling _) => false
  | .billing (.webhook _), .billing _ => true
  | .billing (.ensureCustomer _ _), .billing .absent => false
  | .billing (.ensureCustomer _ _), .billing l => !l.isOpen
  | _, _ => false

def LockingPlace.isBilling : LockingPlace → Bool
  | .billing _ => true
  | _ => false

/-- Ledger keys are held by deliveries only. -/
def LockingPlace.eventLevel : LockingPlace → Nat
  | .billing l => l.level
  | _ => 0

structure LockingKnown (op : LockingOp) (i : ι) (s : LockingStore ι) (p : LockingProgress) :
    Prop where
  stands        : op.standsAt p.place = true
  late          : p.locked = true → p.place.isLate = true
  rows          : ∀ k, s.locks k = some i → k.rank < p.place.level
  subscriptions : p.place.isBilling = true → ∀ k, s.locks k = some i → ∃ id, k = .subscription id
  events        : ∀ id, s.events id = some i → 0 < p.place.eventLevel
  organizations : ∀ id, s.Holds (.organization id) i → p.locked = true

/-- What a statement has done when it leads from `l` to `l'`. -/
structure StatementDone (op : LockingOp) (i : ι) (l l' : LockingPlace) (s s' : LockingStore ι) :
    Prop where
  left          : l'.left < l.left
  late          : l.isLate = true → l'.isLate = true ∨ l'.left = 0
  stands        : op.standsAt l' = true
  taker         : ∀ k j, s'.Holds k j → j = i ∨ s.Holds k j
  rows          : ∀ k, s'.locks k = some i → k.rank < l'.level
  subscriptions : l'.isBilling = true → ∀ k, s'.locks k = some i → ∃ id, k = .subscription id
  events        : ∀ id, s'.events id = some i → 0 < l'.eventLevel
  organizations : ∀ id j, s'.Holds (.organization id) j ↔ s.Holds (.organization id) j

section Known

variable {E : Env} {op : LockingOp} {i : ι} {s s' : LockingStore ι} {p p' : LockingProgress}

open Locks

/-- A statement that uses the row locks only. -/
theorem StatementDone.of_locks {l l' : LockingPlace} {db : Db} {locks : Locks LockKey ι}
    (hleft : l'.left < l.left) (hlate : l.isLate = true → l'.isLate = true ∨ l'.left = 0)
    (hstands : op.standsAt l' = true) (hbilling : l'.isBilling = false)
    (hevents : ∀ id, s.events id ≠ some i) (hrows : ∀ k, s.locks k = some i → k.rank < l.level)
    (hlocks : Changes LockKey.rank i l.level l'.level s.locks locks) :
    StatementDone op i l l' s { s with db := db, locks := locks } where
  left := hleft
  late := hlate
  stands := hstands
  taker k j hj := by
    cases k with
    | event id => exact .inr hj
    | row k => exact hlocks.taker hj
    | organization id => exact .inr hj
  rows k hk := hlocks.own hrows hk
  subscriptions h := by
    rw [hbilling] at h
    cases h
  events id hid := absurd hid (hevents id)
  organizations _ _ := Iff.rfl

omit [DecidableEq ι] in
theorem LockingKnown.no_event (h : LockingKnown op i s p) (hplace : p.place.eventLevel = 0)
    (id : String) : s.events id ≠ some i := by
  intro hid
  have hpos := h.events id hid
  omega

theorem standsAt_webhook {d : Delivery} {l l' : Progress} {t t' : BillingStore ι}
    (h : webhookStep d i l t = some (l', t')) :
    (LockingOp.billing (.webhook d)).standsAt (.billing l') = true := by
  have hmove := deliveryMove_of_step h
  cases hmove with
  | record =>
      unfold StripeEvent.handling
      split <;> rfl
  | work hl hl' => cases l' <;> first | rfl | cases hl'
  | _ => rfl

theorem standsAt_ensureCustomer {org : Nat} {create : Except Failure String} {l l' : Progress}
    {t t' : BillingStore ι} (h : ensureCustomerStep org create i l t = some (l', t')) :
    (LockingOp.billing (.ensureCustomer org create)).standsAt (.billing l') = true := by
  have hmove := customerMove_of_step h
  cases hmove <;> rfl

theorem standsAt_billing {op : BillingOp} {l l' : Progress} {t t' : BillingStore ι}
    (h : (billingMachine fun _ => op).step i l t = some (l', t')) :
    (LockingOp.billing op).standsAt (.billing l') = true := by
  cases op with
  | webhook d => exact standsAt_webhook h
  | ensureCustomer org create => exact standsAt_ensureCustomer h

/-- A statement of a delivery or a checkout. -/
theorem StatementDone.of_billing {bop : BillingOp} {l l' : Progress} {t : BillingStore ι}
    (hp : p.place = .billing l) (hknown : LockingKnown (.billing bop) i s p)
    (h : (billingMachine fun _ => bop).step i l s.billing = some (l', t)) :
    StatementDone (.billing bop) i (.billing l) (.billing l') s (s.withBilling t) := by
  have hlocks := billingStep_locks h
  have hsubs : ∀ k, s.locks k = some i → ∃ id, k = .subscription id :=
    hknown.subscriptions (by rw [hp]; rfl)
  have hrows : ∀ id, s.locks (.subscription id) = some i → 1 < l.level := by
    intro id hid
    have hrank := hknown.rows _ hid
    rw [hp] at hrank
    exact hrank
  have hevents : ∀ id, s.events id = some i → 0 < l.level := by
    intro id hid
    have hpos := hknown.events id hid
    rw [hp] at hpos
    exact hpos
  exact {
    left := hlocks.left
    late := nofun
    stands := standsAt_billing h
    taker := by
      intro k j hj
      cases k with
      | event id => exact hlocks.events.taker hj
      | row k =>
          cases k with
          | subscription id => exact hlocks.rows.taker hj
          | _ => exact .inr hj
      | organization id => exact .inr hj
    rows := by
      intro k hk
      cases k with
      | subscription id => exact hlocks.rows.own hrows hk
      | _ =>
          obtain ⟨id, heq⟩ := hsubs _ hk
          cases heq
    subscriptions := by
      intro _ k hk
      cases k with
      | subscription id => exact ⟨id, rfl⟩
      | _ => exact hsubs _ hk
    events := fun id hid => hlocks.events.own hevents hid
    organizations := fun _ _ => Iff.rfl }

theorem LockingPlace.billing_of_isAccept {l : LockingPlace} (h : l.isAccept = true) :
    l.isBilling = false ∧ l.eventLevel = 0 := by
  cases l with
  | accept l => exact ⟨rfl, rfl⟩
  | asking user inv => exact ⟨rfl, rfl⟩
  | _ => cases h

/-- A statement of an accept. -/
theorem StatementDone.of_accept {q : AcceptCall} {l l' : LockingPlace} (hp : p.place = l)
    (hstands : l.isAccept = true) (hknown : LockingKnown (.accept q) i s p)
    (h : (acceptStatement E q i l s.invitations).map (fun out =>
      (out.1, s.withInvitations out.2)) = some (l', s')) :
    StatementDone (.accept q) i l l' s s' := by
  obtain ⟨out, hstatement, hout⟩ := Option.map_eq_some_iff.mp h
  cases hout
  have hdone := acceptDone_of_statement hstatement
  refine .of_locks hdone.left hdone.late hdone.stands
    (LockingPlace.billing_of_isAccept hdone.stands).1 (hknown.no_event ?_) ?_ hdone.locks
  · rw [hp]
    exact (LockingPlace.billing_of_isAccept hstands).2
  · intro k hk
    rw [← hp]
    exact hknown.rows k hk

/-- **One statement.** -/
theorem statementDone_of_statement (hknown : LockingKnown op i s p) {l' : LockingPlace}
    (h : lockingStatement E op i p.place s = some (l', s')) :
    StatementDone op i p.place l' s s' := by
  cases hp : p.place with
  | project l =>
      rw [hp] at h
      cases op with
      | project q =>
          obtain ⟨out, hstep, hout⟩ := Option.map_eq_some_iff.mp h
          cases hout
          obtain ⟨hleft, hlocks⟩ := projectStep_locks hstep
          refine .of_locks hleft (fun hlate => late_of_projectStep hlate hstep) rfl rfl
            (hknown.no_event (by rw [hp]; rfl)) ?_ hlocks
          intro k hk
          rw [← hp]
          exact hknown.rows k hk
      | _ => cases h
  | invite l =>
      rw [hp] at h
      cases op with
      | invite bearer pk data A =>
          obtain ⟨out, hstep, hout⟩ := Option.map_eq_some_iff.mp h
          cases hout
          obtain ⟨hleft, hlocks⟩ := invitationStep_locks hstep
          refine .of_locks hleft (fun hlate => late_of_invitationStep hlate hstep) rfl rfl
            (hknown.no_event (by rw [hp]; rfl)) ?_ hlocks
          intro k hk
          rw [← hp]
          exact hknown.rows k hk
      | _ => cases h
  | accept l =>
      rw [hp] at h
      cases op with
      | accept q => exact .of_accept hp rfl hknown h
      | _ => cases h
  | asking user inv =>
      rw [hp] at h
      cases op with
      | accept q => exact .of_accept hp rfl hknown h
      | _ => cases h
  | billing l =>
      rw [hp] at h
      cases op with
      | billing bop =>
          obtain ⟨out, hstep, hout⟩ := Option.map_eq_some_iff.mp h
          cases hout
          exact .of_billing hp hknown hstep
      | _ => cases h

/-! ### The organization's row -/

theorem lockOrganization_eq_some {org : Nat} {lock : RowLock}
    (h : s.lockOrganization i org lock = some s') :
    s'.locks = s.locks ∧ s'.events = s.events ∧
      ∀ id j, s'.Holds (.organization id) j → j = i ∨ s.Holds (.organization id) j := by
  cases lock with
  | forUpdate =>
      simp only [LockingStore.lockOrganization] at h
      split at h
      · cases h
      next exclusive hexclusive =>
      split at h
      · cases h
      cases h
      refine ⟨rfl, rfl, fun id j hj => ?_⟩
      rcases hj with hj | hj
      · have hj : exclusive id = some j := hj
        by_cases hid : id = org
        · rw [hid, acquire_self hexclusive] at hj
          exact .inl (Option.some.inj hj).symm
        · rw [acquire_of_ne hexclusive hid] at hj
          exact .inr (.inl hj)
      · exact .inr (.inr hj)
  | forKeyShare =>
      simp only [LockingStore.lockOrganization] at h
      split at h
      · cases h
        refine ⟨rfl, rfl, fun id j hj => ?_⟩
        rcases hj with hj | hj
        · exact .inr (.inl hj)
        · rcases List.mem_cons.mp hj with heq | hj
          · exact .inl (congrArg Prod.snd heq)
          · exact .inr (.inr hj)
      · cases h

theorem lockOrganization_waits {org : Nat} {lock : RowLock}
    (h : s.lockOrganization i org lock = none) : ∃ j, s.Holds (.organization org) j := by
  cases lock with
  | forUpdate =>
      simp only [LockingStore.lockOrganization] at h
      split at h
      · next hexclusive =>
        obtain ⟨j, hj⟩ := exists_holder_of_acquire hexclusive
        exact ⟨j, .inl hj⟩
      · split at h
        · next hshared =>
          obtain ⟨⟨id, j⟩, hmem, heq⟩ := List.any_eq_true.mp hshared
          obtain ⟨rfl, -⟩ : id = org ∧ j ≠ i := by simpa using heq
          exact ⟨j, .inr hmem⟩
        · cases h
  | forKeyShare =>
      simp only [LockingStore.lockOrganization] at h
      split at h
      · cases h
      · next j hj => exact ⟨j, .inl hj⟩

/-- Where an organization's row is locked next, what is held ranks below it. -/
theorem LockingPlace.lockNext_cases {l : LockingPlace} {org : Nat} {lock : RowLock}
    (h : l.lockNext = some (org, lock)) : l.isLate = true ∧ l.level ≤ 3 ∧ l.left ≠ 0 := by
  unfold LockingPlace.lockNext at h
  split at h
  · exact ⟨rfl, Nat.le_succ 2, Nat.one_ne_zero⟩
  · exact ⟨rfl, Nat.le_refl 3, Nat.one_ne_zero⟩
  · exact ⟨rfl, Nat.le_succ 2, Nat.succ_ne_zero 5⟩
  · cases h

theorem not_holds_leaveOrganizations (id : Nat) :
    ¬ (s.leaveOrganizations i).Holds (.organization id) i := by
  rintro (h | h)
  · exact release_self s.exclusive i id h
  · simp [LockingStore.leaveOrganizations] at h

theorem holds_of_leaveOrganizations {k : LockingKey} {j : ι}
    (h : (s.leaveOrganizations i).Holds k j) : s.Holds k j := by
  cases k with
  | event id => exact h
  | row k => exact h
  | organization id =>
      rcases h with h | h
      · left
        simp only [LockingStore.leaveOrganizations, release] at h
        split at h
        · cases h
        · exact h
      · exact .inr (List.mem_of_mem_filter h)

/-! ### One step -/

/-- An operation locks an organization's row, or takes its next statement. -/
theorem lockingStep_cases (h : lockingStep E op i p s = some (p', s')) :
    (∃ org lock, p.locked = false ∧ p.place.lockNext = some (org, lock) ∧
      s.lockOrganization i org lock = some s' ∧ p' = ⟨p.place, true⟩) ∨
    ∃ out, lockingStatement E op i p.place s = some out ∧
      LockingStore.settle i p.locked out = (p', s') := by
  unfold lockingStep at h
  split at h
  · next org lock hlocked hnext =>
    obtain ⟨t, ht, hout⟩ := Option.map_eq_some_iff.mp h
    cases hout
    exact .inl ⟨org, lock, hlocked, hnext, ht, rfl⟩
  · exact .inr (Option.map_eq_some_iff.mp h)

theorem lockingStep_eq_none (h : lockingStep E op i p s = none) :
    (∃ org lock, p.locked = false ∧ p.place.lockNext = some (org, lock) ∧
      s.lockOrganization i org lock = none) ∨ lockingStatement E op i p.place s = none := by
  unfold lockingStep at h
  split at h
  · next org lock hlocked hnext =>
    exact .inl ⟨org, lock, hlocked, hnext, Option.map_eq_none_iff.mp h⟩
  · exact .inr (Option.map_eq_none_iff.mp h)

/-- What a step does to its own operation and to the others. -/
structure StepDone (op : LockingOp) (i : ι) (p p' : LockingProgress) (s s' : LockingStore ι) :
    Prop where
  left  : p'.left < p.left
  taker : ∀ k j, s'.Holds k j → j = i ∨ s.Holds k j
  known : LockingKnown op i s' p'

theorem StepDone.of_lock (hknown : LockingKnown op i s p) {org : Nat} {lock : RowLock}
    (hlocked : p.locked = false) (hnext : p.place.lockNext = some (org, lock))
    (h : s.lockOrganization i org lock = some s') : StepDone op i p ⟨p.place, true⟩ s s' := by
  obtain ⟨hlocks, hevents, htaker⟩ := lockOrganization_eq_some h
  obtain ⟨hlate, -, hleft⟩ := LockingPlace.lockNext_cases hnext
  refine ⟨?_, fun k j hj => ?_, ⟨hknown.stands, fun _ => hlate, ?_, ?_, ?_, fun _ _ => rfl⟩⟩
  · simp only [LockingProgress.left, hlocked]
    simp only [if_true, Bool.false_eq_true, if_false]
    omega
  · cases k with
    | event id =>
        right
        show s.events id = some j
        rw [← hevents]
        exact hj
    | row k =>
        right
        show s.locks k = some j
        rw [← hlocks]
        exact hj
    | organization id => exact htaker id j hj
  · rw [hlocks]
    exact hknown.rows
  · rw [hlocks]
    exact hknown.subscriptions
  · rw [hevents]
    exact hknown.events

theorem StepDone.of_statement (hknown : LockingKnown op i s p)
    {out : LockingPlace × LockingStore ι} (h : lockingStatement E op i p.place s = some out)
    (hsettle : LockingStore.settle i p.locked out = (p', s')) : StepDone op i p p' s s' := by
  obtain ⟨l', t⟩ := out
  have hdone := statementDone_of_statement hknown h
  have hleft := hdone.left
  unfold LockingStore.settle at hsettle
  split at hsettle
  · next hended =>
    cases hsettle
    have hzero : l'.left = 0 := l'.ended_iff.mp hended
    refine ⟨?_, fun k j hj => hdone.taker k j (holds_of_leaveOrganizations hj),
      ⟨hdone.stands, nofun, hdone.rows, hdone.subscriptions, hdone.events, ?_⟩⟩
    · have hend : (⟨l', false⟩ : LockingProgress).left = 0 := by simp [LockingProgress.left, hzero]
      rw [hend]
      exact p.left_pos (by omega)
    · exact fun id hid => absurd hid (not_holds_leaveOrganizations id)
  · next hended =>
    cases hsettle
    have hnonzero : l'.left ≠ 0 := fun hzero => hended (l'.ended_iff.mpr hzero)
    refine ⟨?_, hdone.taker,
      ⟨hdone.stands, fun hlocked => ?_, hdone.rows, hdone.subscriptions, hdone.events, ?_⟩⟩
    · simp only [LockingProgress.left]
      split <;> omega
    · exact (hdone.late (hknown.late hlocked)).resolve_right hnonzero
    · exact fun id hid => hknown.organizations id ((hdone.organizations id i).mp hid)

theorem stepDone_of_step (hknown : LockingKnown op i s p)
    (h : lockingStep E op i p s = some (p', s')) : StepDone op i p p' s s' := by
  rcases lockingStep_cases h with ⟨org, lock, hlocked, hnext, hlock, rfl⟩ | ⟨out, hout, hsettle⟩
  · exact .of_lock hknown hlocked hnext hlock
  · exact .of_statement hknown hout hsettle

omit [DecidableEq ι] in
/-- What an operation knows of what it holds stays so while it keeps no more than that. -/
theorem LockingKnown.of_holds (hknown : LockingKnown op i s p)
    (h : ∀ k, s'.Holds k i → s.Holds k i) : LockingKnown op i s' p where
  stands := hknown.stands
  late := hknown.late
  rows k hk := hknown.rows k (h (.row k) hk)
  subscriptions hp k hk := hknown.subscriptions hp k (h (.row k) hk)
  events id hid := hknown.events id (h (.event id) hid)
  organizations id hid := hknown.organizations id (h (.organization id) hid)

/-! ### Waiting -/

theorem LockingPlace.eventLevel_le (l : LockingPlace) : l.eventLevel ≤ l.level := by
  cases l with
  | billing l => exact Nat.le_refl _
  | _ => exact Nat.zero_le _

omit [DecidableEq ι] in
/-- What is held ranks below a key that is not below the place. -/
theorem LockingKnown.rank_lt (hknown : LockingKnown op i s p) {bound : Nat}
    (hlevel : p.place.level ≤ bound) (hlocked : p.locked = true → 4 ≤ bound) {k : LockingKey}
    (hk : s.Holds k i) : k.rank < bound := by
  cases k with
  | event id =>
      have hpos := hknown.events id hk
      have hle := p.place.eventLevel_le
      show 0 < bound
      omega
  | row k => exact Nat.lt_of_lt_of_le (hknown.rows k hk) hlevel
  | organization id => exact hlocked (hknown.organizations id hk)

theorem statement_waits (hknown : LockingKnown op i s p) (hleft : p.place.left ≠ 0)
    (h : lockingStatement E op i p.place s = none) :
    ∃ k j, s.Holds k j ∧ p.place.level ≤ k.rank ∧ (p.place.isLate = true → 4 ≤ k.rank) := by
  have hstands := hknown.stands
  cases hp : p.place with
  | project l =>
      rw [hp] at h hleft hstands
      cases op with
      | project q =>
          obtain ⟨k, j, hj, hwaits⟩ := projectStep_waits hleft (Option.map_eq_none_iff.mp h)
          exact ⟨.row k, j, hj, hwaits⟩
      | billing bop => cases bop <;> cases hstands
      | _ => cases hstands
  | invite l =>
      rw [hp] at h hleft hstands
      cases op with
      | invite bearer pk data A =>
          obtain ⟨k, j, hj, hwaits⟩ := invitationStep_waits hleft (Option.map_eq_none_iff.mp h)
          exact ⟨.row k, j, hj, hwaits⟩
      | billing bop => cases bop <;> cases hstands
      | _ => cases hstands
  | accept l =>
      rw [hp] at h hleft hstands
      cases op with
      | accept q =>
          obtain ⟨k, j, hj, hwaits⟩ :=
            acceptStatement_waits hleft (Option.map_eq_none_iff.mp h)
          exact ⟨.row k, j, hj, hwaits⟩
      | billing bop => cases bop <;> cases hstands
      | _ => cases hstands
  | asking user inv =>
      -- the view has both rows: what it reads makes nobody wait
      rw [hp] at h hstands
      cases op with
      | accept q => cases h
      | billing bop => cases bop <;> cases hstands
      | _ => cases hstands
  | billing l =>
      rw [hp] at h hleft hstands
      cases op with
      | billing bop =>
          have h := Option.map_eq_none_iff.mp h
          cases bop with
          | webhook d =>
              have hcalling : ∀ sub, l ≠ .calling sub := by
                rintro sub rfl
                cases hstands
              rcases webhookStep_waits hleft hcalling h with ⟨id, j, hj, hzero⟩ |
                ⟨id, j, hj, hone⟩
              · exact ⟨.event id, j, hj, hzero.le, fun hlate => absurd hlate Bool.false_ne_true⟩
              · exact ⟨.row (.subscription id), j, hj, hone,
                  fun hlate => absurd hlate Bool.false_ne_true⟩
          | ensureCustomer org create =>
              cases l with
              | start =>
                  simp only [billingMachine, ensureCustomerStep] at h
                  split at h
                  · cases h
                  · split at h <;> cases h
              | calling sub =>
                  obtain ⟨id, j, hj⟩ := ensureCustomerStep_waits org h
                  exact ⟨.row (.subscription id), j, hj, Nat.zero_le _,
                    fun hlate => absurd hlate Bool.false_ne_true⟩
              | committed | duplicate | failed => exact absurd rfl hleft
              | _ => cases hstands
      | _ => cases hstands

end Known

/-! ## Everybody is answered -/

theorem LockingPlace.left_of_isLate {l : LockingPlace} (h : l.isLate = true) : l.left ≠ 0 := by
  cases l with
  | project l => cases l <;> first | exact Nat.succ_ne_zero _ | cases h
  | invite l => cases l <;> first | exact Nat.succ_ne_zero _ | cases h
  | accept l =>
      cases l with
      | call l => cases l <;> first | exact Nat.succ_ne_zero _ | cases h
      | _ => exact Nat.succ_ne_zero _
  | asking user inv => exact Nat.succ_ne_zero 5
  | billing l => cases h

theorem LockingPlace.left_of_level {l : LockingPlace} (h : 0 < l.level) : l.left ≠ 0 := by
  intro hzero
  have hlevel := level_of_ended (l.ended_iff.mpr hzero)
  omega

/-- How the operations take their locks. -/
def lockingDiscipline (E : Env) (ops : ι → LockingOp) :
    Discipline (lockingMachine E ops) LockingKey where
  inv c := ∀ i, LockingKnown (ops i) i c.store (c.loc i)
  holds := LockingStore.Holds
  rank := LockingKey.rank
  top := 4
  left _ p := p.left
  next_inv c i hinv := by
    refine Machine.knows_next (K := fun j s p => LockingKnown (ops j) j s p) hinv ?_ ?_
    · intro p s hstep
      exact (stepDone_of_step (hinv i) hstep).known
    · intro p s hstep j hj
      refine (hinv j).of_holds fun k hk => ?_
      exact ((stepDone_of_step (hinv i) hstep).taker k j hk).resolve_left hj
  rank_le k := by
    cases k with
    | row k => cases k <;> simp [LockingKey.rank, LockKey.rank]
    | _ => simp [LockingKey.rank]
  left_lt c hinv i p s hstep := (stepDone_of_step (hinv i) hstep).left
  taker c hinv i p s hstep := (stepDone_of_step (hinv i) hstep).taker
  holder c hinv k i hk := by
    refine (LockingProgress.left_pos _ ?_).ne'
    have hknown := hinv i
    cases k with
    | event id =>
        have hpos := hknown.events id hk
        exact LockingPlace.left_of_level (Nat.lt_of_lt_of_le hpos (LockingPlace.eventLevel_le _))
    | row k =>
        have hrank := hknown.rows k hk
        exact LockingPlace.left_of_level (by omega)
    | organization id =>
        exact LockingPlace.left_of_isLate (hknown.late (hknown.organizations id hk))
  waits c hinv i hleft hstep := by
    have hknown := hinv i
    rcases lockingStep_eq_none hstep with ⟨org, lock, hlocked, hnext, hlock⟩ | hstatement
    · obtain ⟨j, hj⟩ := lockOrganization_waits hlock
      obtain ⟨-, hlevel, -⟩ := LockingPlace.lockNext_cases hnext
      refine ⟨.organization org, j, hj, fun k hk => hknown.rank_lt hlevel ?_ hk⟩
      intro hheld
      rw [hlocked] at hheld
      cases hheld
    · have hplace : (c.loc i).place.left ≠ 0 := by
        intro hzero
        apply hleft
        simp [LockingProgress.left, hzero]
      obtain ⟨k, j, hj, hlevel, hlate⟩ := statement_waits hknown hplace hstatement
      exact ⟨k, j, hj, fun k' hk' => hknown.rank_lt hlevel (fun hl => hlate (hknown.late hl)) hk'⟩

omit [DecidableEq ι] in
theorem lockingKnown_start (ops : ι → LockingOp) (db : Db) (i : ι) :
    LockingKnown (ops i) i (lockingStart ops db).store ((lockingStart ops db).loc i) where
  stands := by
    show (ops i).standsAt (ops i).start = true
    cases ops i with
    | billing op => cases op <;> rfl
    | _ => rfl
  late := nofun
  rows := nofun
  subscriptions := nofun
  events := nofun
  organizations id h := by
    rcases h with h | h
    · cases h
    · cases h

theorem left_start (op : LockingOp) : (⟨op.start, false⟩ : LockingProgress).left ≤ 20 := by
  cases op <;>
    simp [LockingProgress.left, LockingPlace.left, LockingOp.start, ProjectProgress.left,
      AcceptProgress.left, InvitationProgress.left, Progress.left]

/-- **Every request is answered.** Take any interleaving of creations and deletions of projects,
invitations, accepts, webhook deliveries and checkouts, as far as it has come; `F` are those that
are under way, and as many others as you like. Whatever they hold and wait for, there is no
deadlock: rounds that pick each of them, in any order and however often, bring all of them to an
answer, and twenty rounds for each of them are enough. -/
theorem locking_requests_end (E : Env) (ops : ι → LockingOp) (db : Db) (past : List ι)
    (F : Finset ι) (hpast : ∀ i ∈ past, i ∈ F) (rounds : List (List ι))
    (hrounds : ∀ round ∈ rounds, ∀ i, i ∈ round ↔ i ∈ F)
    (henough : 20 * F.card ≤ rounds.length) :
    ∀ i ∈ F, (((lockingMachine E ops).run (lockingStart ops db)
      (past ++ rounds.flatten)).loc i).place.ended = true := by
  intro i hi
  have hstart : (lockingDiscipline E ops).inv (lockingStart ops db) := lockingKnown_start ops db
  have hfree : (lockingDiscipline E ops).Within (lockingStart ops db).store F := by
    intro k j hj
    cases k with
    | event id => cases hj
    | row k => cases hj
    | organization id =>
        rcases hj with hj | hj
        · cases hj
        · cases hj
  obtain ⟨hinv, hwithin, hle⟩ := (lockingDiscipline E ops).run_keeps hstart hfree hpast
  have hbound : (lockingDiscipline E ops).total F (lockingStart ops db) ≤ F.card * 20 :=
    Finset.sum_le_card_nsmul F _ 20 fun j _ => left_start (ops j)
  rw [Machine.run_append, LockingPlace.ended_iff]
  have hleft := (lockingDiscipline E ops).all_end hinv hwithin hrounds (by omega) hi
  by_contra hnot
  have hpos := LockingProgress.left_pos _ hnot
  exact absurd hleft hpos.ne'

/-- Two accepts by one user, of two invitations to one organization. -/
def bothAccept (i : Bool) : LockingOp := .accept (acceptsBoth i)

/-- `true` has locked the organization's row and `false` waits for it when the rounds begin. -/
theorem locking_requests_end_both :
    let M := lockingMachine Env.ascii bothAccept
    let rounds := List.replicate 40 [false, true]
    let after := M.run (lockingStart bothAccept invitedTwice)
      ([true, true, true, false, false] ++ rounds.flatten)
    (after.loc false).place.ended = true ∧ (after.loc true).place.ended = true := by
  have hend : ∀ i ∈ (Finset.univ : Finset Bool),
      (((lockingMachine Env.ascii bothAccept).run (lockingStart bothAccept invitedTwice)
        ([true, true, true, false, false] ++ (List.replicate 40 [false, true]).flatten)).loc
          i).place.ended = true := by
    apply locking_requests_end
    · intro i _
      exact Finset.mem_univ i
    · intro round hround i
      rw [List.eq_of_mem_replicate hround]
      cases i <;> simp
    · simp
  exact ⟨hend false (Finset.mem_univ false), hend true (Finset.mem_univ true)⟩

end Bastiq
