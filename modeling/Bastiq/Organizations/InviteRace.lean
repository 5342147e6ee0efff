import Mathlib.Data.Fintype.Basic
import Bastiq.Organizations.InviteStatements
import Bastiq.Organizations.Seats

/-!
# Inviting while invitations are accepted

A POST makes four separate reads under a lock that an accept does not take, so an accept can commit
between two of them: after the members were looked at, and before the PENDING invitations were. Then
the unit that moves from the invitations to the members is seen in neither place.

This file says exactly when the two facts a POST is to keep are kept (`SafeCommit`), and that they
are when no accept commits in one of the two gaps (`OutsideGaps`).
-/

namespace Bastiq

open Relational Transition Concurrency

/-- What inviting is to keep: the members and PENDING invitations of `org` are within `cap`, and
nobody who is a member is invited. -/
def SeatsKept (E : Env) (org : Nat) (cap : Int) (db : Db) : Prop :=
  (seats db org : Int) ≤ cap ∧
    ∀ inv ∈ db.invitations.rows, pendingFor org inv = true →
      hasMember E db org inv.val.email = false

instance (E : Env) (org : Nat) (cap : Int) (db : Db) : Decidable (SeatsKept E org cap db) :=
  inferInstanceAs (Decidable (_ ∧ _))

/-! ## What a commit does -/

section Commit

variable {E : Env} {db : Db} {org : Nat}

theorem hasMember_insert (m : Membership) (email : String) :
    hasMember E (insertMembership db m) org email = (hasMember E db org email ||
      (m.organization == org && (db.users.get? m.user).any fun u => E.iexact u.val.email email)) := by
  simp [hasMember, insertMembership, Table.any]

theorem hasPending_insert (new : Invitation) (email : String) :
    hasPending E { db with invitations := db.invitations.insert new } org email =
      (hasPending E db org email ||
        (pendingFor org ⟨db.invitations.nextId, new⟩ && E.iexact new.email email)) := by
  simp [hasPending, Table.any]

theorem hasPending_eq_false {email : String} (h : hasPending E db org email = false)
    {inv : Row Invitation} (hinv : inv ∈ db.invitations.rows) (hpending : pendingFor org inv = true) :
    E.lower inv.val.email ≠ E.lower email := by
  intro heq
  have hrow := Table.any_eq_false_iff.mp h inv hinv
  rw [hpending, Bool.true_and, Env.iexact_iff.mpr heq] at hrow
  cases hrow

/-! ### A POST -/

variable {new : Invitation} {cap : Int}

theorem pendingFor_insert {inv : Row Invitation} (hpending : new.status = .pending) :
    inv ∈ (db.invitations.insert new).rows ∧ pendingFor org inv = true ↔
      (inv ∈ db.invitations.rows ∧ pendingFor org inv = true) ∨
        (inv = ⟨db.invitations.nextId, new⟩ ∧ new.organization = org) := by
  rw [Table.mem_insert, or_and_right]
  refine or_congr_right (and_congr_right fun hinv => ?_)
  subst hinv
  simp [pendingFor, hpending]

/-- **A POST commits safely** exactly when at that moment a seat is free and no member has the
address. -/
theorem seatsKept_insert_iff (h : SeatsKept E org cap db) (hpending : new.status = .pending) :
    SeatsKept E org cap { db with invitations := db.invitations.insert new } ↔
      (new.organization = org →
        hasMember E db org new.email = false ∧ (seats db org : Int) < cap) := by
  have hseats : seats { db with invitations := db.invitations.insert new } org =
      seats db org + if new.organization = org then 1 else 0 := by
    have hcount := pendingCount_insert db hpending org
    show memberCount db org + _ = _
    rw [hcount, seats, Nat.add_assoc]
  constructor
  · rintro ⟨hle, hfree⟩ horg
    rw [hseats, if_pos horg] at hle
    let added : Row Invitation := ⟨db.invitations.nextId, new⟩
    have hadded : added ∈ (db.invitations.insert new).rows ∧ pendingFor org added = true :=
      (pendingFor_insert hpending).mpr (.inr ⟨rfl, horg⟩)
    exact ⟨hfree added hadded.1 hadded.2, by omega⟩
  · intro hsafe
    refine ⟨?_, fun inv hinv hpend => ?_⟩
    · rw [hseats]
      split
      · next horg =>
        have hlt := (hsafe horg).2
        omega
      · exact h.1
    · rcases (pendingFor_insert hpending).mp ⟨hinv, hpend⟩ with ⟨hinv, hpend⟩ | ⟨rfl, horg⟩
      · exact h.2 inv hinv hpend
      · exact (hsafe horg).1

/-! ### An accept -/

variable {inv : Row Invitation} {joins : Option Membership} {status : InvitationStatus}

/-- The member an accept adds is whom the invitation is for. -/
def JoinsBy (E : Env) (db : Db) (inv : Row Invitation) (m : Membership) : Prop :=
  m.organization = inv.val.organization ∧
    ∃ user, db.users.get? m.user = some user ∧ E.lower user.val.email = E.lower inv.val.email

/-- Does an accept add a member of `org`? -/
def joinsOrg (org : Nat) (joins : Option Membership) : Bool := joins.any (·.organization == org)

/-- Who joins `org` was invited to it. -/
theorem organization_of_joinsOrg (hjoins : ∀ m ∈ joins, JoinsBy E db inv m)
    (h : joinsOrg org joins = true) : inv.val.organization = org := by
  cases joins with
  | none => cases h
  | some m =>
      have hm : m.organization = org := by simpa [joinsOrg] using h
      rw [← (hjoins m rfl).1, hm]

theorem pendingCount_commitAccept (joins : Option Membership) (hinv : inv ∈ db.invitations.rows)
    (hpending : inv.val.status = .pending) (hstatus : status ≠ .pending) (org : Nat) :
    pendingCount (commitAccept db inv joins status) org +
      (if inv.val.organization = org then 1 else 0) = pendingCount db org := by
  cases joins <;> exact pendingCount_setStatus hinv hpending hstatus org

theorem memberCount_commitAccept (db : Db) (inv : Row Invitation) (joins : Option Membership)
    (status : InvitationStatus) (org : Nat) :
    memberCount (commitAccept db inv joins status) org =
      memberCount db org + if joinsOrg org joins then 1 else 0 := by
  cases joins with
  | none => rfl
  | some m =>
      have hcount := memberCount_insert db m org
      show memberCount (insertMembership db m) org = _
      rw [hcount]
      simp [joinsOrg]

/-- Accepting takes no seat that was not reserved. -/
theorem seats_commitAccept_le (hinv : inv ∈ db.invitations.rows)
    (hpending : inv.val.status = .pending) (hstatus : status ≠ .pending)
    (hjoins : ∀ m ∈ joins, JoinsBy E db inv m) (org : Nat) :
    seats (commitAccept db inv joins status) org ≤ seats db org := by
  have hpend := pendingCount_commitAccept joins hinv hpending hstatus org
  have hmember := memberCount_commitAccept db inv joins status org
  have hle : (if joinsOrg org joins then 1 else 0) ≤
      (if inv.val.organization = org then 1 else 0) := by
    cases joins with
    | none => simp [joinsOrg]
    | some m => simp [joinsOrg, (hjoins m rfl).1]
  unfold seats
  omega

theorem hasMember_commitAccept (hjoins : ∀ m ∈ joins, JoinsBy E db inv m)
    (status : InvitationStatus) (org : Nat) (email : String) :
    hasMember E (commitAccept db inv joins status) org email =
      (hasMember E db org email || (joinsOrg org joins && E.iexact inv.val.email email)) := by
  cases joins with
  | none => simp only [joinsOrg, Option.any_none, Bool.false_and, Bool.or_false]; rfl
  | some m =>
      obtain ⟨-, user, huser, hemail⟩ := hjoins m rfl
      -- whoever joins has the address of the invitation, up to case
      have hsame : E.iexact user.val.email email = E.iexact inv.val.email email := by
        unfold Env.iexact
        rw [hemail]
      have hinsert : hasMember E (insertMembership db m) org email = _ := hasMember_insert m email
      rw [huser, Option.any_some, hsame] at hinsert
      exact hinsert

theorem invitations_commitAccept (db : Db) (inv : Row Invitation) (joins : Option Membership)
    (status : InvitationStatus) : (commitAccept db inv joins status).invitations =
      db.invitations.modify inv.id fun i => { i with status := status } := by
  cases joins <;> rfl

theorem pendingFor_commitAccept {other : Row Invitation} (hstatus : status ≠ .pending) :
    other ∈ (commitAccept db inv joins status).invitations.rows ∧ pendingFor org other = true ↔
      (other ∈ db.invitations.rows ∧ pendingFor org other = true) ∧ other.id ≠ inv.id := by
  rw [invitations_commitAccept, Table.mem_modify]
  constructor
  · rintro ⟨⟨hother, hne⟩ | ⟨i, -, -, rfl⟩, hpending⟩
    · exact ⟨⟨hother, hpending⟩, hne⟩
    · simp [pendingFor, hstatus] at hpending
  · rintro ⟨⟨hother, hpending⟩, hne⟩
    exact ⟨.inl ⟨hother, hne⟩, hpending⟩

/-- **An accept commits safely** exactly when no other PENDING invitation is to the same address. -/
theorem seatsKept_commitAccept_iff (h : SeatsKept E org cap db) (hinv : inv ∈ db.invitations.rows)
    (hpending : inv.val.status = .pending) (hstatus : status ≠ .pending)
    (hjoins : ∀ m ∈ joins, JoinsBy E db inv m) :
    SeatsKept E org cap (commitAccept db inv joins status) ↔
      (joinsOrg org joins = true → ∀ other ∈ db.invitations.rows, pendingFor org other = true →
        other.id ≠ inv.id → E.lower inv.val.email ≠ E.lower other.val.email) := by
  have hmember := hasMember_commitAccept hjoins status org
  constructor
  · rintro ⟨-, hfree⟩ horg other hother hpend hne heq
    have hkept : other ∈ (commitAccept db inv joins status).invitations.rows ∧ _ :=
      (pendingFor_commitAccept hstatus).mpr ⟨⟨hother, hpend⟩, hne⟩
    have hnone := hfree other hkept.1 hpend
    rw [hmember, horg, Env.iexact_iff.mpr heq, Bool.true_and, Bool.or_true] at hnone
    cases hnone
  · intro hsafe
    refine ⟨?_, fun other hother hpend => ?_⟩
    · have hle := seats_commitAccept_le hinv hpending hstatus hjoins org
      have hcap := h.1
      omega
    · obtain ⟨⟨hother, hpend⟩, hne⟩ := (pendingFor_commitAccept hstatus).mp ⟨hother, hpend⟩
      rw [hmember, h.2 other hother hpend, Bool.false_or, Bool.and_eq_false_iff]
      by_cases horg : joinsOrg org joins = true
      · right
        have hne := hsafe horg other hother hpend hne
        rw [← Bool.not_eq_true, Env.iexact_iff]
        exact hne
      · exact .inl (Bool.eq_false_iff.mpr horg)

end Commit

/-! ## What a call knows by its locks -/

variable {ι : Type} [DecidableEq ι]

/-- `i` holds a PENDING invitation. -/
structure Holds (i : ι) (s : InvitationStore ι) (inv : Row Invitation) : Prop where
  mem     : inv ∈ s.db.invitations.rows
  pending : inv.val.status = .pending
  lock    : s.locks (.invitation inv.id) = some i

/-- What is so where a call stands, whatever the others do. -/
def Standing (E : Env) (i : ι) (s : InvitationStore ι) : InvitationProgress → Prop
  | .start => True
  | .authenticated user => user ∈ s.db.users.rows
  | .permitted new => new.status = .pending
  | .locked new => new.status = .pending
  | .noMember new => new.status = .pending
  | .noPending new => new.status = .pending
  | .capped new _ => new.status = .pending
  | .membersCounted new _ _ => new.status = .pending
  | .allowed new => new.status = .pending
  | .inserted new => new.status = .pending
  | .creating user inv => user ∈ s.db.users.rows ∧ Holds i s inv ∧
      E.lower user.val.email = E.lower inv.val.email
  | .marking inv joins status =>
      Holds i s inv ∧ status ≠ .pending ∧ ∀ m ∈ joins, JoinsBy E s.db inv m
  | .marked inv joins status =>
      Holds i s inv ∧ status ≠ .pending ∧ ∀ m ∈ joins, JoinsBy E s.db inv m
  | .done _ => True

section Standing

variable {E : Env} {i j : ι} {s s' : InvitationStore ι} {l l' : InvitationProgress}

theorem commitAccept_frame (db : Db) (inv : Row Invitation) (joins : Option Membership)
    (status : InvitationStatus) :
    (commitAccept db inv joins status).users = db.users ∧
      (commitAccept db inv joins status).subscriptions = db.subscriptions ∧
      (commitAccept db inv joins status).plans = db.plans := by
  cases joins <;> exact ⟨rfl, rfl, rfl⟩

/-- No call writes users, subscriptions or plans. -/
theorem InvitationMove.frame (h : InvitationMove E i s l l' s') :
    s'.db.users = s.db.users ∧ s'.db.subscriptions = s.db.subscriptions ∧
      s'.db.plans = s.db.plans := by
  cases h with
  | accepted => exact commitAccept_frame _ _ _ _
  | _ => exact ⟨rfl, rfl, rfl⟩

/-- Nobody takes a key away from its holder. -/
theorem InvitationMove.lock_kept (h : InvitationMove E i s l l' s') (hne : j ≠ i) {k : LockKey}
    (hk : s.locks k = some j) : s'.locks k = some j := by
  cases h with
  | rolledBack => exact Locks.release_held hk hne
  | locked _ hlocks => exact Locks.acquire_held hlocks hk
  | inserted hlocks => exact Locks.acquire_held hlocks hk
  | lapsed _ _ hlocks => exact Locks.acquire_held hlocks hk
  | matched _ _ _ hlocks => exact Locks.acquire_held hlocks hk
  | joins _ hlocks => exact Locks.acquire_held hlocks hk
  | posted => exact Locks.release_held hk hne
  | accepted => exact Locks.release_held hk hne
  | _ => exact hk

/-- An invitation stays as it is while another call holds it. -/
theorem Holds.of_other {inv : Row Invitation} (h : Holds j s inv) (hne : j ≠ i)
    (hl : Standing E i s l) (hmove : InvitationMove E i s l l' s') : Holds j s' inv := by
  refine ⟨?_, h.pending, hmove.lock_kept hne h.lock⟩
  cases hmove with
  | posted => exact Table.mem_insert.mpr (.inl h.mem)
  | @accepted inv' joins status =>
      -- the invitation that is marked is held by `i`, so it is another one
      have hid : inv.id ≠ inv'.id := by
        intro hid
        have hlock := hl.1.lock
        rw [← hid, h.lock] at hlock
        exact hne (Option.some.inj hlock)
      cases joins <;> exact Table.mem_modify.mpr (.inl ⟨h.mem, hid⟩)
  | _ => exact h.mem

theorem Holds.acquired {inv : Row Invitation} {locks : Locks LockKey ι}
    (hinv : inv ∈ s.db.invitations.rows) (hpending : inv.val.status = .pending)
    (hlocks : s.locks.acquire i (.invitation inv.id) = some locks) :
    Holds i { s with locks := locks } inv :=
  ⟨hinv, hpending, Locks.acquire_self hlocks⟩

/-- What a call goes on to is so. -/
theorem Standing.of_move (hl : Standing E i s l) (hmove : InvitationMove E i s l l' s') :
    Standing E i s' l' := by
  cases hmove with
  | known huser => exact huser
  | refused => trivial
  | rolledBack => trivial
  | permitted hstatus => exact hstatus
  | lapsed hinv hstatus hlocks =>
      refine ⟨.acquired hinv hstatus hlocks, by decide, ?_⟩
      intro m hm
      cases hm
  | matched hinv hstatus hemail hlocks =>
      exact ⟨hl, .acquired hinv hstatus hlocks, hemail⟩
  | member =>
      refine ⟨hl.2.1, by decide, ?_⟩
      intro m hm
      cases hm
  | joins hm hlocks =>
      obtain ⟨huser, hheld, hemail⟩ := hl
      -- the lock on the seats comes on top of the one on the invitation
      refine ⟨⟨hheld.mem, hheld.pending, Locks.acquire_held hlocks hheld.lock⟩, by decide, ?_⟩
      intro m' hm'
      cases hm'
      refine ⟨hm.2, _, ?_, hemail⟩
      rw [hm.1]
      exact Table.get?_eq_some_iff.mpr ⟨huser, rfl⟩
  | posted => trivial
  | accepted => trivial
  | _ => exact hl

/-- What another call knows stays so. -/
theorem Standing.of_other {other : InvitationProgress} (h : Standing E j s other) (hne : j ≠ i)
    (hl : Standing E i s l) (hmove : InvitationMove E i s l l' s') : Standing E j s' other := by
  obtain ⟨husers, -, -⟩ := hmove.frame
  have hjoins : ∀ {inv : Row Invitation} {m : Membership}, JoinsBy E s.db inv m →
      JoinsBy E s'.db inv m := by
    intro inv m hm
    unfold JoinsBy
    rw [husers]
    exact hm
  cases other with
  | authenticated user =>
      show user ∈ s'.db.users.rows
      rw [husers]
      exact h
  | creating user inv =>
      refine ⟨?_, h.2.1.of_other hne hl hmove, h.2.2⟩
      rw [husers]
      exact h.1
  | marking inv joins status =>
      exact ⟨h.1.of_other hne hl hmove, h.2.1, fun m hm => hjoins (h.2.2 m hm)⟩
  | marked inv joins status =>
      exact ⟨h.1.of_other hne hl hmove, h.2.1, fun m hm => hjoins (h.2.2 m hm)⟩
  | start => trivial
  | done status => trivial
  | _ => exact h

end Standing

section Race

variable {E : Env} {calls : ι → InvitationCall} {org : Nat} {cap : Int}
  {c : Config ι (InvitationStore ι) InvitationProgress} {i : ι}

theorem standing_next (h : ∀ j, Standing E j c.store (c.loc j)) (i j : ι) :
    Standing E j ((invitationMachine E calls).next c i).store
      (((invitationMachine E calls).next c i).loc j) := by
  apply Machine.knows_next (K := Standing E) h
  · intro l s hstep
    exact (h i).of_move (invitationMove_of_step hstep)
  · intro l s hstep j hj
    exact (h j).of_other hj (h i) (invitationMove_of_step hstep)

theorem along_standing (E : Env) (calls : ι → InvitationCall) (db : Db) (sched : List ι) :
    (invitationMachine E calls).Along (fun c _ => ∀ j, Standing E j c.store (c.loc j))
      (invitationStart db) sched := by
  have hstart : ∀ j : ι, Standing E j ⟨db, Locks.free⟩ .start := fun _ => trivial
  have hrun : (invitationMachine E calls).Always (fun c => ∀ j, Standing E j c.store (c.loc j))
      (invitationStart db) sched := by
    apply states_of_step
    · intro c i hc
      exact standing_next hc i
    · exact hstart
  exact each_of_states (fun _ _ hc _ => hc) hrun

/-! ## When the two facts are kept -/

/-- If call `i` is about to commit, what its checks are for is so at this moment: for an invitation
to `org`, that no member has its address and that a seat is free; for a new member of `org`, that
no other PENDING invitation is to their address. -/
def SafeCommit (E : Env) (org : Nat) (cap : Int)
    (c : Config ι (InvitationStore ι) InvitationProgress) (i : ι) : Prop :=
  (∀ new, c.loc i = .inserted new → new.organization = org →
    hasMember E c.store.db org new.email = false ∧ (seats c.store.db org : Int) < cap) ∧
  ∀ inv joins status, c.loc i = .marked inv joins status → joinsOrg org joins = true →
    ∀ other ∈ c.store.db.invitations.rows, pendingFor org other = true → other.id ≠ inv.id →
      E.lower inv.val.email ≠ E.lower other.val.email

/-- **One statement** keeps the two facts exactly when it is no commit, or a safe one. -/
theorem seatsKept_next_iff (hstanding : ∀ j, Standing E j c.store (c.loc j))
    (h : SeatsKept E org cap c.store.db) :
    SeatsKept E org cap ((invitationMachine E calls).next c i).store.db ↔
      SafeCommit E org cap c i := by
  have hi := hstanding i
  cases hstep : (invitationMachine E calls).step i (c.loc i) c.store with
  | none =>
      rw [Machine.next_of_none hstep]
      refine iff_of_true h ⟨fun new hl => ?_, fun inv joins status hl => ?_⟩
      · rw [hl] at hstep
        cases hstep
      · rw [hl] at hstep
        cases hstep
  | some ls =>
      obtain ⟨l', s'⟩ := ls
      rw [Machine.next_of_some hstep, Config.move_store]
      have hmove := invitationMove_of_step hstep
      unfold SafeCommit
      generalize c.loc i = l at hi hmove
      cases hmove with
      | @posted new =>
          rw [seatsKept_insert_iff h hi]
          constructor
          · intro hsafe
            refine ⟨fun new' hl => ?_, fun _ _ _ hl => nomatch hl⟩
            cases hl
            exact hsafe
          · exact fun hsafe => hsafe.1 new rfl
      | @accepted inv joins status =>
          rw [seatsKept_commitAccept_iff h hi.1.mem hi.1.pending hi.2.1 hi.2.2]
          constructor
          · intro hsafe
            refine ⟨(fun _ hl => nomatch hl), fun _ _ _ hl => ?_⟩
            cases hl
            exact hsafe
          · exact fun hsafe => hsafe.2 inv joins status rfl
      | refused hl | rolledBack hl =>
          refine iff_of_true h ⟨fun _ hl' => ?_, fun _ _ _ hl' => ?_⟩
          · rw [hl'] at hl
            cases hl
          · rw [hl'] at hl
            cases hl
      | _ => exact iff_of_true h ⟨(fun _ hl => nomatch hl), fun _ _ _ hl => nomatch hl⟩

end Race

/-! ## When no accept commits in a gap -/

/-- Between the two looks for an address, or between the two counts of `org`: an accept of the
invitation to `email` that commits now is seen by neither. -/
def InvitationProgress.misses (E : Env) (org : Nat) (email : String) : InvitationProgress → Bool
  | .noMember new => new.organization == org && E.iexact email new.email
  | .membersCounted new _ _ => new.organization == org
  | _ => false

/-- The invitation whose acceptance, committing next, adds a member of `org`. -/
def InvitationProgress.joining (org : Nat) : InvitationProgress → Option (Row Invitation)
  | .marked inv joins _ => if joinsOrg org joins then some inv else none
  | _ => none

/-- If call `i` is about to commit a new member of `org`, no POST is where it misses them. -/
def OutsideGaps (E : Env) (org : Nat) (c : Config ι (InvitationStore ι) InvitationProgress)
    (i : ι) : Prop :=
  ∀ inv ∈ (c.loc i).joining org, ∀ j, (c.loc j).misses E org inv.val.email = false

instance [Fintype ι] (E : Env) (org : Nat) (c : Config ι (InvitationStore ι) InvitationProgress)
    (i : ι) : Decidable (OutsideGaps E org c i) :=
  inferInstanceAs (Decidable (∀ inv ∈ (c.loc i).joining org,
    ∀ j, (c.loc j).misses E org inv.val.email = false))

/-- PENDING invitations of `org` are to different addresses. -/
def DistinctPending (E : Env) (org : Nat) (db : Db) : Prop :=
  ∀ inv ∈ db.invitations.rows, ∀ other ∈ db.invitations.rows, pendingFor org inv = true →
    pendingFor org other = true → E.lower inv.val.email = E.lower other.val.email →
    inv.id = other.id

/-- One more PENDING invitation leaves the addresses different exactly when its own is free. -/
theorem distinctPending_insert_iff {E : Env} {org : Nat} {db : Db} {new : Invitation}
    (h : DistinctPending E org db) (hpending : new.status = .pending) :
    DistinctPending E org { db with invitations := db.invitations.insert new } ↔
      (new.organization = org → hasPending E db org new.email = false) := by
  constructor
  · intro hdistinct horg
    -- the new invitation meets each old one under a key of its own
    let added : Row Invitation := ⟨db.invitations.nextId, new⟩
    have hadded : added ∈ (db.invitations.insert new).rows ∧ pendingFor org added = true :=
      (pendingFor_insert hpending).mpr (.inr ⟨rfl, horg⟩)
    refine Table.any_eq_false_iff.mpr fun inv hinv => ?_
    rw [Bool.and_eq_false_iff, ← Bool.not_eq_true, ← Bool.not_eq_true, Env.iexact_iff]
    by_cases hpend : pendingFor org inv = true
    · right
      intro heq
      have hmem : inv ∈ (db.invitations.insert new).rows := Table.mem_insert.mpr (.inl hinv)
      have hid := hdistinct inv hmem added hadded.1 hpend hadded.2 heq
      exact absurd hid (Nat.ne_of_lt (db.invitations.fresh inv hinv))
    · exact .inl hpend
  · intro hfree inv hinv other hother hpend hpend' heq
    rcases (pendingFor_insert hpending).mp ⟨hinv, hpend⟩ with ⟨hinv, hpend⟩ | ⟨rfl, horg⟩
    · rcases (pendingFor_insert hpending).mp ⟨hother, hpend'⟩ with ⟨hother, hpend'⟩ | ⟨rfl, horg⟩
      · exact h inv hinv other hother hpend hpend' heq
      · exact absurd heq (hasPending_eq_false (hfree horg) hinv hpend)
    · rcases (pendingFor_insert hpending).mp ⟨hother, hpend'⟩ with ⟨hother, hpend'⟩ | ⟨rfl, -⟩
      · exact absurd heq.symm (hasPending_eq_false (hfree horg) hother hpend')
      · rfl

/-- One PENDING invitation less leaves them different. -/
theorem DistinctPending.accepted {E : Env} {org : Nat} {db : Db} {inv : Row Invitation}
    {joins : Option Membership} {status : InvitationStatus} (h : DistinctPending E org db)
    (hstatus : status ≠ .pending) :
    DistinctPending E org (commitAccept db inv joins status) := by
  intro inv hinv other hother hpend hpend' heq
  obtain ⟨⟨hinv, -⟩, -⟩ := (pendingFor_commitAccept hstatus).mp ⟨hinv, hpend⟩
  obtain ⟨⟨hother, -⟩, -⟩ := (pendingFor_commitAccept hstatus).mp ⟨hother, hpend'⟩
  exact h inv hinv other hother hpend hpend' heq

/-- Nobody of `org` has the address, and no PENDING invitation has it. -/
def AddressFree (E : Env) (org : Nat) (db : Db) (email : String) : Prop :=
  hasMember E db org email = false ∧ hasPending E db org email = false

/-- What a POST to `org` has found is so, and `billing` is locked by it. -/
def Checked (E : Env) (org : Nat) (cap : Int) (billing : LockKey) (i : ι)
    (s : InvitationStore ι) : InvitationProgress → Prop
  | .locked new => new.organization = org → s.locks billing = some i
  | .noMember new => new.organization = org → s.locks billing = some i ∧
      hasMember E s.db org new.email = false
  | .noPending new => new.organization = org → s.locks billing = some i ∧
      AddressFree E org s.db new.email
  | .capped new l => new.organization = org → s.locks billing = some i ∧
      AddressFree E org s.db new.email ∧ l = cap
  | .membersCounted new l n => new.organization = org → s.locks billing = some i ∧
      AddressFree E org s.db new.email ∧ l = cap ∧ n = memberCount s.db org
  | .allowed new => new.organization = org → s.locks billing = some i ∧
      AddressFree E org s.db new.email ∧ (seats s.db org : Int) < cap
  | .inserted new => new.organization = org → s.locks billing = some i ∧
      AddressFree E org s.db new.email ∧ (seats s.db org : Int) < cap
  | _ => True

section Checked

variable {E : Env} {org : Nat} {cap : Int} {sub : Row Subscription} {i j : ι}
  {s s' : InvitationStore ι} {l l' : InvitationProgress}

/-- A POST finds what is so. -/
theorem Checked.of_move (h : Checked E org cap (.subscription sub.id) i s l)
    (hsub : subscriptionOf s.db org = some sub) (hlimit : limit s.db org "max_members" = some cap)
    (hmove : InvitationMove E i s l l' s') :
    Checked E org cap (.subscription sub.id) i s' l' := by
  cases hmove with
  | unlocked hnone =>
      rintro rfl
      rw [hsub] at hnone
      cases hnone
  | locked hsome hlocks =>
      rintro rfl
      rw [hsub] at hsome
      obtain rfl := Option.some.inj hsome
      exact Locks.acquire_self hlocks
  | noMember hfree =>
      rintro rfl
      exact ⟨h rfl, hfree⟩
  | noPending hfree =>
      rintro rfl
      exact ⟨(h rfl).1, (h rfl).2, hfree⟩
  | unlimited hnone =>
      rintro rfl
      rw [hlimit] at hnone
      cases hnone
  | capped hsome =>
      rintro rfl
      rw [hlimit] at hsome
      exact ⟨(h rfl).1, (h rfl).2, (Option.some.inj hsome).symm⟩
  | counted =>
      rintro rfl
      exact ⟨(h rfl).1, (h rfl).2.1, (h rfl).2.2, rfl⟩
  | allowed hbelow =>
      rintro rfl
      obtain ⟨hlock, hfree, rfl, rfl⟩ := h rfl
      exact ⟨hlock, hfree, of_decide_eq_true hbelow⟩
  | inserted hlocks =>
      intro horg
      obtain ⟨hlock, hfree, hlt⟩ := h horg
      exact ⟨Locks.acquire_held hlocks hlock, hfree, hlt⟩
  | _ => trivial

/-- What another call's statement must leave alone for the checks of `j`, which stands at `l`. -/
structure KeepsChecked (E : Env) (org : Nat) (billing : LockKey) (j : ι) (l : InvitationProgress)
    (s s' : InvitationStore ι) : Prop where
  lock   : s'.locks billing = some j
  free   : ∀ email, AddressFree E org s.db email → AddressFree E org s'.db email
  seats  : seats s'.db org ≤ seats s.db org
  member : ∀ new, l = .noMember new → new.organization = org →
    hasMember E s.db org new.email = false → hasMember E s'.db org new.email = false
  count  : ∀ new cap n, l = .membersCounted new cap n → new.organization = org →
    memberCount s'.db org = memberCount s.db org

omit [DecidableEq ι] in
theorem Checked.keep {billing : LockKey} (h : Checked E org cap billing j s l)
    (hkeep : s.locks billing = some j → KeepsChecked E org billing j l s s') :
    Checked E org cap billing j s' l := by
  cases l with
  | locked new =>
      intro horg
      exact (hkeep (h horg)).lock
  | noMember new =>
      intro horg
      obtain ⟨hlock, hfree⟩ := h horg
      exact ⟨(hkeep hlock).lock, (hkeep hlock).member new rfl horg hfree⟩
  | noPending new =>
      intro horg
      obtain ⟨hlock, hfree⟩ := h horg
      exact ⟨(hkeep hlock).lock, (hkeep hlock).free _ hfree⟩
  | capped new l =>
      intro horg
      obtain ⟨hlock, hfree, hl⟩ := h horg
      exact ⟨(hkeep hlock).lock, (hkeep hlock).free _ hfree, hl⟩
  | membersCounted new l n =>
      intro horg
      obtain ⟨hlock, hfree, hl, hn⟩ := h horg
      exact ⟨(hkeep hlock).lock, (hkeep hlock).free _ hfree, hl,
        hn.trans ((hkeep hlock).count new l n rfl horg).symm⟩
  | allowed new =>
      intro horg
      obtain ⟨hlock, hfree, hlt⟩ := h horg
      have hle := (hkeep hlock).seats
      exact ⟨(hkeep hlock).lock, (hkeep hlock).free _ hfree, by omega⟩
  | inserted new =>
      intro horg
      obtain ⟨hlock, hfree, hlt⟩ := h horg
      have hle := (hkeep hlock).seats
      exact ⟨(hkeep hlock).lock, (hkeep hlock).free _ hfree, by omega⟩
  | _ => trivial

omit [DecidableEq ι] in
/-- A statement that is no commit. -/
theorem KeepsChecked.of_db_eq {billing : LockKey} (hlock : s'.locks billing = some j)
    (hdb : s'.db = s.db) : KeepsChecked E org billing j l s s' := by
  refine ⟨hlock, ?_, ?_, ?_, ?_⟩
  · rw [hdb]; exact fun _ => id
  · rw [hdb]
  · rw [hdb]; exact fun _ _ _ => id
  · rw [hdb]; exact fun _ _ _ _ _ => rfl

omit [DecidableEq ι] in
/-- A POST to another organization. -/
theorem KeepsChecked.of_insert {billing : LockKey} (hlock : s'.locks billing = some j)
    {new : Invitation} (hdb : s'.db = { s.db with invitations := s.db.invitations.insert new })
    (horg : new.organization ≠ org) : KeepsChecked E org billing j l s s' := by
  have hother : pendingFor org ⟨s.db.invitations.nextId, new⟩ = false := by
    simp [pendingFor, horg]
  have hpending : ∀ email, hasPending E s'.db org email = hasPending E s.db org email := by
    intro email
    rw [hdb, hasPending_insert, hother, Bool.false_and, Bool.or_false]
  have hcount : pendingCount s'.db org = pendingCount s.db org := by
    rw [hdb]
    have hinsert := s.db.invitations.count_insert new (pendingFor org)
    rw [hother] at hinsert
    exact hinsert
  refine ⟨hlock, fun email hfree => ⟨?_, (hpending email).trans hfree.2⟩, ?_, ?_, ?_⟩
  · rw [hdb]; exact hfree.1
  · unfold Bastiq.seats
    rw [hcount, hdb]
    exact Nat.le_refl _
  · rw [hdb]; exact fun _ _ _ => id
  · rw [hdb]; exact fun _ _ _ _ _ => rfl

omit [DecidableEq ι] in
/-- An accept that is not missed. -/
theorem KeepsChecked.of_accept {billing : LockKey} (hlock : s'.locks billing = some j)
    {inv : Row Invitation} {joins : Option Membership} {status : InvitationStatus}
    (hdb : s'.db = commitAccept s.db inv joins status) (hinv : inv ∈ s.db.invitations.rows)
    (hpending : inv.val.status = .pending) (hstatus : status ≠ .pending)
    (hjoins : ∀ m ∈ joins, JoinsBy E s.db inv m)
    (hquiet : joinsOrg org joins = true → l.misses E org inv.val.email = false) :
    KeepsChecked E org billing j l s s' := by
  have hmember := hasMember_commitAccept hjoins status org
  refine ⟨hlock, fun email hfree => ⟨?_, ?_⟩, ?_, ?_, ?_⟩
  · rw [hdb, hmember, hfree.1, Bool.false_or, Bool.and_eq_false_iff]
    by_cases horg : joinsOrg org joins = true
    · -- the invitation that is accepted is PENDING, so it is to another address
      right
      have hpend : pendingFor org inv = true := by
        simp [pendingFor, hpending, organization_of_joinsOrg hjoins horg]
      rw [← Bool.not_eq_true, Env.iexact_iff]
      exact hasPending_eq_false hfree.2 hinv hpend
    · exact .inl (Bool.eq_false_iff.mpr horg)
  · rw [hdb]
    refine Table.any_eq_false_iff.mpr fun other hother => ?_
    by_cases hpend : pendingFor org other = true
    · obtain ⟨⟨hother, -⟩, -⟩ := (pendingFor_commitAccept hstatus).mp ⟨hother, hpend⟩
      exact Table.any_eq_false_iff.mp hfree.2 other hother
    · rw [Bool.not_eq_true] at hpend
      rw [hpend, Bool.false_and]
  · rw [hdb]
    exact seats_commitAccept_le hinv hpending hstatus hjoins org
  · rintro new rfl rfl hfree
    rw [hdb, hmember, hfree, Bool.false_or, Bool.and_eq_false_iff]
    by_cases horg : joinsOrg new.organization joins = true
    · right
      have hmiss := hquiet horg
      simpa [InvitationProgress.misses] using hmiss
    · exact .inl (Bool.eq_false_iff.mpr horg)
  · rintro new cap n rfl rfl
    rw [hdb, memberCount_commitAccept]
    by_cases horg : joinsOrg new.organization joins = true
    · have hmiss := hquiet horg
      simp [InvitationProgress.misses] at hmiss
    · simp [horg]

/-- What a POST has found stays so while another call moves. -/
theorem Checked.of_other {other : InvitationProgress}
    (h : Checked E org cap (.subscription sub.id) j s other) (hne : j ≠ i)
    (hl : Standing E i s l) (hchecked : Checked E org cap (.subscription sub.id) i s l)
    (hquiet : ∀ inv ∈ l.joining org, other.misses E org inv.val.email = false)
    (hmove : InvitationMove E i s l l' s') :
    Checked E org cap (.subscription sub.id) j s' other := by
  refine h.keep fun hlock => ?_
  have hkept := hmove.lock_kept hne hlock
  cases hmove with
  | @posted new =>
      refine .of_insert hkept rfl fun horg => hne ?_
      -- the other POST to `org` would hold the lock of `j`
      have hheld := (hchecked horg).1
      rw [hlock] at hheld
      exact Option.some.inj hheld
  | @accepted inv joins status =>
      refine .of_accept hkept rfl hl.1.mem hl.1.pending hl.2.1 hl.2.2 fun horg => hquiet inv ?_
      simp [InvitationProgress.joining, horg]
  | _ => exact .of_db_eq hkept rfl

end Checked

section Race

variable {E : Env} {calls : ι → InvitationCall} {org : Nat} {cap : Int} {sub : Row Subscription}
  {c : Config ι (InvitationStore ι) InvitationProgress} {i : ι}

/-- What holds throughout a run in which no accept commits in a gap. -/
structure RaceInv (E : Env) (org : Nat) (cap : Int) (sub : Row Subscription)
    (c : Config ι (InvitationStore ι) InvitationProgress) : Prop where
  standing : ∀ j, Standing E j c.store (c.loc j)
  checked  : ∀ j, Checked E org cap (.subscription sub.id) j c.store (c.loc j)
  distinct : DistinctPending E org c.store.db
  billing  : subscriptionOf c.store.db org = some sub
  limited  : limit c.store.db org "max_members" = some cap

omit [DecidableEq ι] in
/-- Every commit is safe. -/
theorem RaceInv.safeCommit (h : RaceInv E org cap sub c) (i : ι) : SafeCommit E org cap c i := by
  constructor
  · intro new hl horg
    have hchecked := h.checked i
    rw [hl] at hchecked
    obtain ⟨-, hfree, hlt⟩ := hchecked horg
    exact ⟨hfree.1, hlt⟩
  · intro inv joins status hl horg other hother hpend hne heq
    have hstanding := h.standing i
    rw [hl] at hstanding
    obtain ⟨hheld, -, hjoins⟩ := hstanding
    have hinvpend : pendingFor org inv = true := by
      simp [pendingFor, hheld.pending, organization_of_joinsOrg hjoins horg]
    exact hne (h.distinct inv hheld.mem other hother hinvpend hpend heq).symm

/-- Addresses stay different. -/
theorem DistinctPending.of_move {s s' : InvitationStore ι} {l l' : InvitationProgress}
    (h : DistinctPending E org s.db) (hl : Standing E i s l)
    (hchecked : Checked E org cap (.subscription sub.id) i s l)
    (hmove : InvitationMove E i s l l' s') : DistinctPending E org s'.db := by
  cases hmove with
  | posted =>
      apply (distinctPending_insert_iff h hl).mpr
      intro horg
      exact (hchecked horg).2.1.2
  | accepted => exact h.accepted hl.2.1
  | _ => exact h

theorem RaceInv.checked_next (h : RaceInv E org cap sub c) (hquiet : OutsideGaps E org c i)
    (j : ι) :
    Checked E org cap (.subscription sub.id) j ((invitationMachine E calls).next c i).store
      (((invitationMachine E calls).next c i).loc j) := by
  apply Machine.knows_next (K := Checked E org cap (.subscription sub.id)) h.checked
  · intro l s hstep
    exact (h.checked i).of_move h.billing h.limited (invitationMove_of_step hstep)
  · intro l s hstep j hj
    exact (h.checked j).of_other hj (h.standing i) (h.checked i)
      (fun inv hinv => hquiet inv hinv j) (invitationMove_of_step hstep)

theorem RaceInv.next (h : RaceInv E org cap sub c) (hquiet : OutsideGaps E org c i) :
    RaceInv E org cap sub ((invitationMachine E calls).next c i) := by
  have hstore := Machine.next_cases (M := invitationMachine E calls)
    (motive := fun c' => DistinctPending E org c'.store.db ∧
      subscriptionOf c'.store.db org = some sub ∧ limit c'.store.db org "max_members" = some cap)
    c i ⟨h.distinct, h.billing, h.limited⟩ fun l s hstep => by
      have hmove := invitationMove_of_step hstep
      obtain ⟨-, hsubs, hplans⟩ := hmove.frame
      have hbilling : subscriptionOf s.db org = subscriptionOf c.store.db org := by
        unfold subscriptionOf
        rw [hsubs]
      exact ⟨h.distinct.of_move (h.standing i) (h.checked i) hmove, hbilling.trans h.billing,
        (limit_congr hbilling hplans _).trans h.limited⟩
  exact ⟨standing_next h.standing i, h.checked_next hquiet, hstore.1, hstore.2.1, hstore.2.2⟩

/-- **When interleaved invitations stay within the cap**: the two facts hold in every committed
state exactly when every commit is safe; and that is so, for an organization with a billing row,
where no accept commits in a gap of a POST. -/
theorem invitations_keep_seats_iff (E : Env) (calls : ι → InvitationCall) (org : Nat) {cap : Int}
    {db : Db} (h : SeatsKept E org cap db) (sched : List ι) :
    ((invitationMachine E calls).Always (fun c => SeatsKept E org cap c.store.db)
        (invitationStart db) sched ↔
      (invitationMachine E calls).Along (SafeCommit E org cap) (invitationStart db) sched) ∧
    (∀ sub, subscriptionOf db org = some sub → limit db org "max_members" = some cap →
      DistinctPending E org db →
      (invitationMachine E calls).Along (OutsideGaps E org) (invitationStart db) sched →
      (invitationMachine E calls).Always (fun c => SeatsKept E org cap c.store.db)
        (invitationStart db) sched) := by
  have hiff : (invitationMachine E calls).Always (fun c => SeatsKept E org cap c.store.db)
        (invitationStart db) sched ↔
      (invitationMachine E calls).Along (SafeCommit E org cap) (invitationStart db) sched := by
    apply states_iff_each (R := fun c _ => ∀ j, Standing E j c.store (c.loc j))
    · intro c i hkept hstanding
      exact seatsKept_next_iff hstanding hkept
    · exact h
    · exact along_standing E calls db sched
  refine ⟨hiff, fun sub hsub hlimit hdistinct hquiet => hiff.mpr ?_⟩
  have hstart : RaceInv E org cap sub (invitationStart (ι := ι) db) :=
    ⟨fun _ => trivial, fun _ => trivial, hdistinct, hsub, hlimit⟩
  have hrun := hquiet.and_invariant (fun _ _ hc hquiet => hc.next hquiet) hstart
  exact hrun.mono fun c i hc => hc.2.safeCommit i

end Race

/-! ## An accept between two reads -/

/-- Organization 1 is on plan Free, whose three seats are an Owner's, a member's and an
invitation's. -/
def reservedSeat : Db where
  users := ((Table.empty.insert { email := "a@x.io", password := "" }).insert
    { email := "b@x.io", password := "" }).insert { email := "c@x.io", password := "" }
  organizations := Table.empty.insert ⟨"Acme", "acme", some 1, 0⟩
  memberships := (Table.empty.insert ⟨1, 1, .owner, 0⟩).insert ⟨2, 1, .member, 0⟩
  plans := smallBilling.plans
  subscriptions := Table.empty.insert { organization := 1, plan := 1, updatedAt := 0 }
  invitations := Table.empty.insert ⟨1, "c@x.io", .member, "secret", .pending, some 1, 0, 1000⟩

/-- User 3 accepts the invitation while the Owner invites one more. -/
def inviteWhileAccepting : Bool → InvitationCall
  | true => ⟨some 1, .post "1" (.json (.obj [("email", .str "d@x.io")])), ⟨10, "token", true⟩⟩
  | false => ⟨some 3, .accept (.json (.obj [("token", .str "secret")])), ⟨10, "", true⟩⟩

/-- The accept commits after the members were counted, and before the PENDING invitations were:
two and none make room for one more, and then there are four. -/
theorem invited_over_cap :
    SeatsKept Env.ascii 1 3 reservedSeat ∧
      let sched := [true, true, true, true, true, true, true, false, false, false, false, false,
        true, true, true]
      ¬ SeatsKept Env.ascii 1 3
        ((invitationMachine Env.ascii inviteWhileAccepting).run (invitationStart reservedSeat)
          sched).store.db := by
  refine ⟨by decide, ?_⟩
  intro sched
  decide

/-- The accept commits before the members are counted, and the invitation is refused. -/
theorem invitations_keep_seats_iff_counted :
    let sched := [true, true, true, true, true, true, false, false, false, false, false, true, true]
    (invitationMachine Env.ascii inviteWhileAccepting).Always
      (fun c => SeatsKept Env.ascii 1 3 c.store.db) (invitationStart reservedSeat) sched := by
  intro sched
  have hquiet : (invitationMachine Env.ascii inviteWhileAccepting).Along
      (OutsideGaps Env.ascii 1) (invitationStart reservedSeat) sched := by decide
  have hstart : SeatsKept Env.ascii 1 3 reservedSeat := by decide
  have hdistinct : DistinctPending Env.ascii 1 reservedSeat := by
    unfold DistinctPending
    decide
  exact (invitations_keep_seats_iff Env.ascii inviteWhileAccepting 1 hstart sched).2 _ rfl rfl
    hdistinct hquiet

end Bastiq
