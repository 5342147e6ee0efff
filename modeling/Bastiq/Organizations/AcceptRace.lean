import Bastiq.Organizations.AcceptStatements
import Bastiq.Organizations.InviteRace

/-!
# Accepting, interleaved

An accept holds its invitation from the look at it to the commit, so nobody else marks it meanwhile;
and it holds the key of the membership it inserted. From what an accept knows by the two
(`AcceptKnown`) it follows that an invitation is used once, and by whom it is for.
-/

namespace Bastiq

open Relational View Transition Concurrency

variable {ι : Type} [DecidableEq ι]

/-! ## What an accept knows by its locks -/

/-- `i` holds a PENDING invitation that its caller may accept. -/
structure Invited (E : Env) (q : AcceptCall) (i : ι) (s : InvitationStore ι) (user : Row User)
    (inv : Row Invitation) : Prop where
  caller : authenticate s.db q.bearer = some user
  asked  : q.invitation s.db = some inv
  held   : Holds i s inv
  live   : inv.val.isExpired q.ambient.now = false
  email  : E.lower user.val.email = E.lower inv.val.email

/-- The caller has a membership, or `i` has inserted it. -/
def Joined (q : AcceptCall) (i : ι) (s : InvitationStore ι) (user : Row User)
    (inv : Row Invitation) : Option Membership → Prop
  | none => ∃ m, membershipIn s.db user.id inv.val.organization = some m
  | some m => m = acceptedMembership user inv q.ambient.now ∧
      membershipIn s.db user.id inv.val.organization = none ∧
      s.locks (.membership user.id inv.val.organization) = some i

/-- What `i` is about to make of the invitation is right. -/
def Marks (E : Env) (q : AcceptCall) (i : ι) (s : InvitationStore ι) (inv : Row Invitation)
    (joins : Option Membership) : InvitationStatus → Prop
  | .expired => joins = none ∧ q.invitation s.db = some inv ∧ Holds i s inv ∧
      inv.val.isExpired q.ambient.now = true
  | .accepted => ∃ user, Invited E q i s user inv ∧ Joined q i s user inv joins
  | _ => False

/-- What is so where an accept stands, whatever the others do. -/
def AcceptKnown (E : Env) (q : AcceptCall) (i : ι) (s : InvitationStore ι) : AcceptProgress → Prop
  | .call .start => True
  | .call (.authenticated user) => authenticate s.db q.bearer = some user
  | .call (.creating user inv) => Invited E q i s user inv
  | .inserting user inv => Invited E q i s user inv
  | .refinding user inv => Invited E q i s user inv ∧ Joined q i s user inv none
  | .call (.marking inv joins status) => Marks E q i s inv joins status
  | .call (.marked inv joins status) => Marks E q i s inv joins status
  | .call (.done _) => True
  | .call _ => False

section Commit

variable {db : Db} {inv : Row Invitation} {joins : Option Membership} {status : InvitationStatus}

theorem membershipIn_insert {m : Membership} {user org : Nat} :
    membershipIn (insertMembership db m) user org =
      (membershipIn db user org).or
        (if m.user = user ∧ m.organization = org then some ⟨db.memberships.nextId, m⟩
          else none) := by
  have hinsert := db.memberships.first?_insert m
    fun m => m.val.user == user && (m.val.organization : Int) == org
  refine hinsert.trans ?_
  simp only [membershipIn, Bool.and_eq_true, beq_iff_eq, Int.natCast_inj]

/-- A membership that is there stays. -/
theorem membershipIn_commitAccept {user org : Nat} {m : Row Membership}
    (h : membershipIn db user org = some m) :
    membershipIn (commitAccept db inv joins status) user org = some m := by
  cases joins with
  | none => exact h
  | some new =>
      have hinsert : membershipIn (insertMembership db new) user org = some m := by
        rw [membershipIn_insert, h, Option.some_or]
      exact hinsert

/-- An invitation is found under its token as before, and at its new status if it is the one. -/
theorem invitation_commitAccept (q : AcceptCall) :
    q.invitation (commitAccept db inv joins status) =
      (q.invitation db).map
        (Table.setRow (·.id == inv.id) fun i => { i with status := status }) := by
  unfold AcceptCall.invitation
  cases validateToken (β := OrganizationPayload) q.data with
  | error r => rfl
  | ok token =>
      have hupdate := db.invitations.first?_update
        (p := (·.id == inv.id)) (q := (·.val.token == token))
        (f := fun i => { i with status := status }) fun r _ => by
          unfold Table.setRow
          split <;> rfl
      cases joins <;> exact hupdate

theorem mem_of_invitation {q : AcceptCall} (h : q.invitation db = some inv) :
    inv ∈ db.invitations.rows := by
  unfold AcceptCall.invitation at h
  split at h
  · cases h
  · exact Table.mem_of_first? h

end Commit

section Known

variable {E : Env} {q r : AcceptCall} {i j : ι} {s s' : InvitationStore ι} {l l' : AcceptProgress}

/-- What `j` knows by its locks is the same in `s` and `s'`. -/
structure KeepsHeld (j : ι) (s s' : InvitationStore ι) : Prop where
  users : s'.db.users = s.db.users
  held  : ∀ inv, Holds j s inv → Holds j s' inv
  asked : ∀ (q : AcceptCall) inv, Holds j s inv → q.invitation s.db = some inv →
    q.invitation s'.db = some inv
  found : ∀ (user org : Nat) m, membershipIn s.db user org = some m →
    membershipIn s'.db user org = some m
  fresh : ∀ user org : Nat, s.locks (.membership user org) = some j →
    membershipIn s.db user org = none →
    s'.locks (.membership user org) = some j ∧ membershipIn s'.db user org = none

omit [DecidableEq ι] in
theorem KeepsHeld.of_db_eq (hdb : s'.db = s.db)
    (hlocks : ∀ k, s.locks k = some j → s'.locks k = some j) : KeepsHeld j s s' := by
  constructor
  · rw [hdb]
  · intro inv hheld
    refine ⟨?_, hheld.pending, hlocks _ hheld.lock⟩
    rw [hdb]
    exact hheld.mem
  · intro q inv _ hasked
    rw [hdb]
    exact hasked
  · intro user org m hm
    rw [hdb]
    exact hm
  · intro user org hkey hm
    refine ⟨hlocks _ hkey, ?_⟩
    rw [hdb]
    exact hm

omit [DecidableEq ι] in
theorem Invited.keep {user : Row User} {inv : Row Invitation} (h : Invited E q j s user inv)
    (hkeep : KeepsHeld j s s') : Invited E q j s' user inv := by
  refine ⟨?_, hkeep.asked q inv h.held h.asked, hkeep.held inv h.held, h.live, h.email⟩
  have hcaller := h.caller
  unfold authenticate at hcaller ⊢
  rw [hkeep.users]
  exact hcaller

omit [DecidableEq ι] in
theorem Joined.keep {user : Row User} {inv : Row Invitation} {joins : Option Membership}
    (h : Joined q j s user inv joins) (hkeep : KeepsHeld j s s') :
    Joined q j s' user inv joins := by
  cases joins with
  | none =>
      obtain ⟨m, hm⟩ := h
      exact ⟨m, hkeep.found _ _ m hm⟩
  | some m =>
      obtain ⟨rfl, hm, hkey⟩ := h
      obtain ⟨hkey, hm⟩ := hkeep.fresh _ _ hkey hm
      exact ⟨rfl, hm, hkey⟩

omit [DecidableEq ι] in
theorem Marks.keep {inv : Row Invitation} {joins : Option Membership} {status : InvitationStatus}
    (h : Marks E q j s inv joins status) (hkeep : KeepsHeld j s s') :
    Marks E q j s' inv joins status := by
  cases status with
  | expired =>
      obtain ⟨hjoins, hasked, hheld, hexpired⟩ := h
      exact ⟨hjoins, hkeep.asked q inv hheld hasked, hkeep.held inv hheld, hexpired⟩
  | accepted =>
      obtain ⟨user, hinvited, hjoined⟩ := h
      exact ⟨user, hinvited.keep hkeep, hjoined.keep hkeep⟩
  | pending => exact h
  | revoked => exact h

omit [DecidableEq ι] in
theorem AcceptKnown.keep (h : AcceptKnown E q j s l) (hkeep : KeepsHeld j s s') :
    AcceptKnown E q j s' l := by
  cases l with
  | inserting user inv => exact Invited.keep h hkeep
  | refinding user inv => exact ⟨Invited.keep h.1 hkeep, Joined.keep h.2 hkeep⟩
  | call l =>
      cases l with
      | authenticated user =>
          have hcaller : authenticate s.db q.bearer = some user := h
          show authenticate s'.db q.bearer = some user
          unfold authenticate at hcaller ⊢
          rw [hkeep.users]
          exact hcaller
      | creating user inv => exact Invited.keep h hkeep
      | marking inv joins status => exact Marks.keep h hkeep
      | marked inv joins status => exact Marks.keep h hkeep
      | _ => exact h

omit [DecidableEq ι] in
/-- An invitation that is about to be marked is held, and will not be PENDING. -/
theorem Marks.held {inv : Row Invitation} {joins : Option Membership} {status : InvitationStatus}
    (h : Marks E q i s inv joins status) :
    Holds i s inv ∧ q.invitation s.db = some inv ∧ status ≠ .pending := by
  cases status with
  | expired => exact ⟨h.2.2.1, h.2.1, by simp⟩
  | accepted =>
      obtain ⟨user, hinvited, -⟩ := h
      exact ⟨hinvited.held, hinvited.asked, by simp⟩
  | pending => cases h
  | revoked => cases h

/-- A commit leaves alone what others hold. -/
theorem KeepsHeld.of_commit {inv : Row Invitation} {joins : Option Membership}
    {status : InvitationStatus} (hne : j ≠ i) (h : Marks E q i s inv joins status) :
    KeepsHeld j s { s.release i with db := commitAccept s.db inv joins status } := by
  -- what `j` holds is another invitation
  have hother : ∀ other, Holds j s other → other.id ≠ inv.id := by
    intro other hheld hid
    have hlock := hheld.lock
    rw [hid, h.held.1.lock] at hlock
    exact hne (Option.some.inj hlock).symm
  constructor
  · exact (commitAccept_frame _ _ _ _).1
  · intro other hheld
    refine ⟨?_, hheld.pending, Locks.release_held hheld.lock hne⟩
    show other ∈ (commitAccept s.db inv joins status).invitations.rows
    rw [invitations_commitAccept]
    exact Table.mem_modify.mpr (.inl ⟨hheld.mem, hother other hheld⟩)
  · intro r other hheld hasked
    show r.invitation (commitAccept s.db inv joins status) = some other
    rw [invitation_commitAccept, hasked, Option.map_some, Table.setRow_of_neg]
    simpa using hother other hheld
  · intro user org m hm
    exact membershipIn_commitAccept hm
  · intro user org hkey hm
    refine ⟨Locks.release_held hkey hne, ?_⟩
    cases joins with
    | none => exact hm
    | some m =>
        cases status with
        | expired => cases h.1
        | accepted =>
            obtain ⟨caller, hinvited, rfl, -, hlock⟩ := h
            show membershipIn (insertMembership s.db _) user org = none
            rw [membershipIn_insert, hm, Option.none_or, if_neg]
            -- the key of the membership that is inserted is held by `i`
            rintro ⟨rfl, rfl⟩
            have hkey : s.locks (.membership caller.id inv.val.organization) = some j := hkey
            rw [hlock] at hkey
            exact hne (Option.some.inj hkey).symm
        | pending => cases h
        | revoked => cases h

/-- What others know stays so. -/
theorem AcceptMove.keepsHeld (hmove : AcceptMove E q i s l l' s') (hl : AcceptKnown E q i s l)
    (hne : j ≠ i) : KeepsHeld j s s' := by
  cases hmove with
  | refused _ hlocks =>
      refine .of_db_eq rfl fun k hk => ?_
      rcases hlocks with rfl | rfl
      · exact hk
      · exact Locks.release_held hk hne
  | lapsed _ _ _ hlocks => exact .of_db_eq rfl fun k hk => Locks.acquire_held hlocks hk
  | matched _ _ _ _ hlocks => exact .of_db_eq rfl fun k hk => Locks.acquire_held hlocks hk
  | inserted _ hlocks => exact .of_db_eq rfl fun k hk => Locks.acquire_held hlocks hk
  | committed => exact .of_commit hne hl
  | _ => exact .of_db_eq rfl fun _ hk => hk

/-- What an accept goes on to is so. -/
theorem AcceptKnown.of_move (hl : AcceptKnown E q i s l) (hmove : AcceptMove E q i s l l' s') :
    AcceptKnown E q i s' l' := by
  cases hmove with
  | known huser => exact huser
  | refused => trivial
  | lapsed hinv hpending hexpired hlocks =>
      exact ⟨rfl, hinv, .acquired (mem_of_invitation hinv) hpending hlocks, hexpired⟩
  | matched hinv hpending hlive hemail hlocks =>
      exact ⟨hl, hinv, .acquired (mem_of_invitation hinv) hpending hlocks, hlive, hemail⟩
  | found hl' hm =>
      rcases hl' with rfl | rfl
      · exact ⟨_, hl, _, hm⟩
      · exact ⟨_, hl.1, _, hm⟩
  | missing => exact hl
  | beaten hm => exact ⟨hl, _, hm⟩
  | inserted hm hlocks =>
      refine ⟨_, Invited.keep hl ?_, rfl, hm, Locks.acquire_self hlocks⟩
      exact .of_db_eq rfl fun k hk => Locks.acquire_held hlocks hk
  | marked => exact hl
  | committed => trivial

omit [DecidableEq ι] in
theorem AcceptKnown.isPosting_eq_false (h : AcceptKnown E q i s l) (l₀ : InvitationProgress)
    (hl : l = .call l₀) : l₀.isPosting = false := by
  subst hl
  cases l₀ with
  | start => rfl
  | authenticated user => rfl
  | creating user inv => rfl
  | marking inv joins status => rfl
  | marked inv joins status => rfl
  | done status => rfl
  | _ => cases h

/-- A move leaves the database and is not answered 200, or it is the commit. -/
theorem AcceptMove.commit_cases (hmove : AcceptMove E q i s l l' s') :
    (s'.db = s.db ∧ l' ≠ .call (.done 200)) ∨
      ∃ inv joins status, l = .call (.marked inv joins status) ∧
        l' = .call (.done (if status = .expired then 400 else 200)) ∧
        s'.db = commitAccept s.db inv joins status := by
  cases hmove with
  | refused hstatus =>
      left
      refine ⟨rfl, ?_⟩
      intro hl
      cases hl
      omega
  | committed => exact .inr ⟨_, _, _, rfl, rfl, rfl⟩
  | _ => exact .inl ⟨rfl, by simp⟩

end Known

/-! ## What a run of accepts does to the database -/

/-- From `before` to `after` an invitation stays as it is, unless it was PENDING and has become
ACCEPTED or EXPIRED. -/
def UsedUp (before after : Db) : Prop :=
  ∀ inv ∈ before.invitations.rows, inv ∈ after.invitations.rows ∨
    inv.val.status = .pending ∧ ∃ status, (status = .accepted ∨ status = .expired) ∧
      ⟨inv.id, { inv.val with status := status }⟩ ∈ after.invitations.rows

/-- From `before` to `after` nobody loses or changes a membership. -/
def MembersStay (before after : Db) : Prop :=
  ∀ (user org : Nat) m, membershipIn before user org = some m → membershipIn after user org = some m

theorem UsedUp.refl (db : Db) : UsedUp db db := fun _ hinv => .inl hinv

/-- What is used stays used. -/
theorem UsedUp.trans {a b c : Db} (hab : UsedUp a b) (hbc : UsedUp b c) : UsedUp a c := by
  intro inv hinv
  rcases hab inv hinv with hinv | ⟨hpending, status, hstatus, hused⟩
  · exact hbc inv hinv
  · right
    refine ⟨hpending, status, hstatus, ?_⟩
    rcases hbc _ hused with hused | ⟨hpending', -⟩
    · exact hused
    · rcases hstatus with rfl | rfl <;> cases hpending'

theorem usedUp_commitAccept {db : Db} {inv : Row Invitation} {joins : Option Membership}
    {status : InvitationStatus} (hinv : inv ∈ db.invitations.rows)
    (hpending : inv.val.status = .pending) (hstatus : status = .accepted ∨ status = .expired) :
    UsedUp db (commitAccept db inv joins status) := by
  intro other hother
  rw [invitations_commitAccept]
  by_cases hid : other.id = inv.id
  · obtain rfl := db.invitations.eq_of_id_eq hother hinv hid
    exact .inr ⟨hpending, status, hstatus, Table.mem_modify.mpr (.inr ⟨other, hother, rfl, rfl⟩)⟩
  · exact .inl (Table.mem_modify.mpr (.inl ⟨hother, hid⟩))

/-- Two calls that ask for different invitations do so after a commit. -/
theorem invitation_inj {db : Db} {inv a b : Row Invitation} {joins : Option Membership}
    {status : InvitationStatus} {q r : AcceptCall} (hq : q.invitation db = some a)
    (hr : r.invitation db = some b)
    (h : q.invitation (commitAccept db inv joins status) =
      r.invitation (commitAccept db inv joins status)) : a = b := by
  rw [invitation_commitAccept, invitation_commitAccept, hq, hr] at h
  have hid := congrArg Row.id (Option.some.inj h)
  rw [Table.setRow_id, Table.setRow_id] at hid
  exact db.invitations.eq_of_id_eq (mem_of_invitation hq) (mem_of_invitation hr) hid

section Run

variable {E : Env} {calls : ι → AcceptCall} {db : Db}
  {c : Config ι (InvitationStore ι) AcceptProgress} {i : ι}

/-- What holds throughout a run of accepts. -/
structure AcceptInv (E : Env) (calls : ι → AcceptCall)
    (c : Config ι (InvitationStore ι) AcceptProgress) : Prop where
  known : ∀ j, AcceptKnown E (calls j) j c.store (c.loc j)
  uniq  : UniqUserOrg c.store.db
  /-- the invitation of a call that was answered 200 is used -/
  used  : ∀ j, c.loc j = .call (.done 200) →
    ∃ inv, (calls j).invitation c.store.db = some inv ∧ inv.val.status ≠ .pending
  /-- and nobody else was answered 200 for it -/
  once  : ∀ j k, c.loc j = .call (.done 200) → c.loc k = .call (.done 200) →
    (calls j).invitation c.store.db = (calls k).invitation c.store.db → j = k

/-- What call `i` does when it is picked: nothing that shows in the database, or its commit. -/
theorem AcceptInv.next_cases (h : AcceptInv E calls c) (i : ι) :
    (((acceptMachine E calls).next c i).store.db = c.store.db ∧
      ∀ j, ((acceptMachine E calls).next c i).loc j = .call (.done 200) →
        c.loc j = .call (.done 200)) ∨
      ∃ inv joins status, c.loc i = .call (.marked inv joins status) ∧
        Marks E (calls i) i c.store inv joins status ∧
        ((acceptMachine E calls).next c i).store.db = commitAccept c.store.db inv joins status ∧
        ((acceptMachine E calls).next c i).loc =
          Function.update c.loc i (.call (.done (if status = .expired then 400 else 200))) := by
  cases hstep : (acceptMachine E calls).step i (c.loc i) c.store with
  | none =>
      rw [Machine.next_of_none hstep]
      exact .inl ⟨rfl, fun _ hj => hj⟩
  | some ls =>
      obtain ⟨l', s'⟩ := ls
      rw [Machine.next_of_some hstep]
      have hmove := acceptMove_of_step (h.known i).isPosting_eq_false hstep
      rcases hmove.commit_cases with ⟨hdb, hl'⟩ | ⟨inv, joins, status, hl, hl', hdb⟩
      · refine .inl ⟨hdb, fun j hj => ?_⟩
        by_cases hji : j = i
        · subst hji
          rw [Config.move_loc_self] at hj
          exact absurd hj hl'
        · rwa [c.move_loc_of_ne hji] at hj
      · have hmarks := h.known i
        rw [hl] at hmarks
        refine .inr ⟨inv, joins, status, hl, hmarks, hdb, ?_⟩
        rw [hl']
        rfl

theorem AcceptInv.known_next (h : AcceptInv E calls c) (i j : ι) :
    AcceptKnown E (calls j) j ((acceptMachine E calls).next c i).store
      (((acceptMachine E calls).next c i).loc j) := by
  apply Machine.knows_next (K := fun j => AcceptKnown E (calls j) j) h.known
  · intro l s hstep
    exact (h.known i).of_move (acceptMove_of_step (h.known i).isPosting_eq_false hstep)
  · intro l s hstep j hj
    have hmove := acceptMove_of_step (h.known i).isPosting_eq_false hstep
    exact (h.known j).keep (hmove.keepsHeld (h.known i) hj)

omit [DecidableEq ι] in
theorem Marks.status_eq {q : AcceptCall} {s : InvitationStore ι} {inv : Row Invitation}
    {joins : Option Membership} {status : InvitationStatus} (h : Marks E q i s inv joins status) :
    status = .accepted ∨ status = .expired := by
  cases status with
  | accepted => exact .inl rfl
  | expired => exact .inr rfl
  | pending => cases h
  | revoked => cases h

omit [DecidableEq ι] in
/-- A commit adds no second membership. -/
theorem Marks.uniqUserOrg {q : AcceptCall} {s : InvitationStore ι} {inv : Row Invitation}
    {joins : Option Membership} {status : InvitationStatus} (h : Marks E q i s inv joins status)
    (huniq : UniqUserOrg s.db) : UniqUserOrg (commitAccept s.db inv joins status) := by
  cases joins with
  | none => exact huniq
  | some m =>
      rcases h.status_eq with rfl | rfl
      · obtain ⟨user, -, rfl, hnew, -⟩ := h
        have hinsert := huniq.insert (m := acceptedMembership user inv q.ambient.now) hnew
        exact hinsert
      · cases h.1

/-- Who is answered 200 has used up their invitation, and nobody else has. -/
theorem AcceptInv.next (h : AcceptInv E calls c) (i : ι) :
    AcceptInv E calls ((acceptMachine E calls).next c i) := by
  have hknown := h.known_next i
  generalize hc : (acceptMachine E calls).next c i = c' at hknown
  have hcases := h.next_cases i
  rw [hc] at hcases
  rcases hcases with ⟨hdb, hdone⟩ | ⟨inv, joins, status, hl, hmarks, hdb, hloc⟩
  · constructor
    · exact hknown
    · rw [hdb]
      exact h.uniq
    · rw [hdb]
      exact fun j hj => h.used j (hdone j hj)
    · rw [hdb]
      exact fun j k hj hk => h.once j k (hdone j hj) (hdone k hk)
  · obtain ⟨hheld, hasked, hstatus⟩ := hmarks.held
    -- who was answered before asked for another invitation, since this one was PENDING
    have hother : ∀ j, j ≠ i → c'.loc j = .call (.done 200) → c.loc j = .call (.done 200) ∧
        ∃ inv', (calls j).invitation c.store.db = some inv' ∧ inv' ≠ inv := by
      intro j hji hj
      rw [hloc, Function.update_of_ne hji] at hj
      obtain ⟨inv', hinv', hused⟩ := h.used j hj
      refine ⟨hj, inv', hinv', ?_⟩
      rintro rfl
      exact hused hheld.pending
    constructor
    · exact hknown
    · rw [hdb]
      exact hmarks.uniqUserOrg h.uniq
    · intro j hj
      rw [hdb]
      by_cases hji : j = i
      · subst hji
        refine ⟨⟨inv.id, { inv.val with status := status }⟩, ?_, hstatus⟩
        rw [invitation_commitAccept, hasked, Option.map_some, Table.setRow_of_pos (by simp)]
      · obtain ⟨hj, inv', hinv', hne⟩ := hother j hji hj
        obtain ⟨inv₀, hinv₀, hused⟩ := h.used j hj
        refine ⟨inv₀, ?_, hused⟩
        rw [hinv₀] at hinv'
        obtain rfl := Option.some.inj hinv'
        rw [invitation_commitAccept, hinv₀, Option.map_some, Table.setRow_of_neg]
        have hid : inv₀.id ≠ inv.id := fun hid =>
          hne (c.store.db.invitations.eq_of_id_eq (mem_of_invitation hinv₀) hheld.mem hid)
        simpa using hid
    · intro j k hj hk heq
      rw [hdb] at heq
      by_cases hji : j = i
      · by_cases hki : k = i
        · rw [hji, hki]
        · obtain ⟨-, inv', hinv', hne⟩ := hother k hki hk
          subst hji
          exact absurd (invitation_inj hasked hinv' heq).symm hne
      · obtain ⟨hj, inv', hinv', hne⟩ := hother j hji hj
        by_cases hki : k = i
        · subst hki
          exact absurd (invitation_inj hinv' hasked heq) hne
        · obtain ⟨hk, inv'', hinv'', -⟩ := hother k hki hk
          apply h.once j k hj hk
          rw [hinv', hinv'', invitation_inj hinv' hinv'' heq]

omit [DecidableEq ι] in
theorem AcceptInv.start (E : Env) (calls : ι → AcceptCall) (huniq : UniqUserOrg db) :
    AcceptInv E calls (acceptStart db) := by
  constructor
  · exact fun _ => trivial
  · exact huniq
  · intro j hj
    cases hj
  · intro j k hj
    cases hj

/-- From any point of a run on, used invitations stay used and members stay members. -/
theorem AcceptInv.run (h : AcceptInv E calls c) (sched : List ι) :
    AcceptInv E calls ((acceptMachine E calls).run c sched) ∧
      UsedUp c.store.db ((acceptMachine E calls).run c sched).store.db ∧
      MembersStay c.store.db ((acceptMachine E calls).run c sched).store.db := by
  have hrun : (acceptMachine E calls).Always (fun c' => AcceptInv E calls c' ∧
      UsedUp c.store.db c'.store.db ∧ MembersStay c.store.db c'.store.db) c sched := by
    apply states_of_step
    · rintro c' i ⟨hinv, hused, hstay⟩
      refine ⟨hinv.next i, ?_⟩
      rcases hinv.next_cases i with ⟨hdb, -⟩ | ⟨inv, joins, status, -, hmarks, hdb, -⟩
      · rw [hdb]
        exact ⟨hused, hstay⟩
      · rw [hdb]
        obtain ⟨hheld, -, -⟩ := hmarks.held
        refine ⟨hused.trans (usedUp_commitAccept hheld.mem hheld.pending hmarks.status_eq), ?_⟩
        intro user org m hm
        exact membershipIn_commitAccept (hstay user org m hm)
    · exact ⟨h, UsedUp.refl _, fun _ _ _ hm => hm⟩
  exact hrun.last

/-! ### The machine that is refined -/

/-- Where the accept stands among the coarser statements: all of `get_or_create` is one. -/
def AcceptProgress.coarse : AcceptProgress → InvitationProgress
  | .call l => l
  | .inserting user inv => .creating user inv
  | .refinding user inv => .creating user inv

/-- A statement of an accept is one of the invitation machine, or is not seen there. -/
theorem acceptStep_refines {q : AcceptCall} {s s' : InvitationStore ι} {l l' : AcceptProgress}
    (hl : AcceptKnown E q i s l) (h : acceptStep E q i l s = some (l', s')) :
    (l'.coarse = l.coarse ∧ s' = s) ∨
      invitationStep E q.toCall i l.coarse s = some (l'.coarse, s') := by
  cases l with
  | inserting user inv =>
      simp only [acceptStep] at h
      split at h
      · cases h
      next locks hlocks =>
      split at h
      · cases h
        exact .inl ⟨rfl, rfl⟩
      next hm =>
      cases h
      right
      simp only [AcceptProgress.coarse, invitationStep, hm, hlocks]
      rfl
  | refinding user inv =>
      obtain ⟨m, hm⟩ := hl.2
      simp only [acceptStep, hm] at h
      cases h
      right
      simp only [AcceptProgress.coarse, invitationStep, hm]
  | call l =>
      by_cases hcreating : ∃ user inv, l = .creating user inv
      · obtain ⟨user, inv, rfl⟩ := hcreating
        simp only [acceptStep] at h
        split at h
        · next m hm =>
          cases h
          right
          simp only [AcceptProgress.coarse, invitationStep, hm]
        · cases h
          exact .inl ⟨rfl, rfl⟩
      · rw [acceptStep_call fun user inv hl => hcreating ⟨user, inv, hl⟩] at h
        obtain ⟨ls, hstep, hls⟩ := Option.map_eq_some_iff.mp h
        cases hls
        exact .inr hstep

/-- **The finer accepts do what the coarser ones do**: every interleaving of them leads where some of
its picks lead the invitation machine. -/
theorem accepts_refine (E : Env) (calls : ι → AcceptCall) {db : Db} (huniq : UniqUserOrg db)
    (sched : List ι) : ∃ picks, picks.Sublist sched ∧
      let final := (acceptMachine E calls).run (acceptStart db) sched
      (⟨final.store, fun i => (final.loc i).coarse⟩ : Config ι _ _) =
        (invitationMachine E fun i => (calls i).toCall).run (invitationStart db) picks := by
  refine exists_sublist_run (Q := AcceptInv E calls) (fun c i hc => hc.next i) ?_
    (f := fun c : Config ι (InvitationStore ι) AcceptProgress =>
      (⟨c.store, fun i => (c.loc i).coarse⟩ : Config ι _ _)) (.start E calls huniq)
  intro c i hc
  cases hstep : (acceptMachine E calls).step i (c.loc i) c.store with
  | none =>
      rw [Machine.next_of_none hstep]
      exact .inl rfl
  | some ls =>
      obtain ⟨l', s'⟩ := ls
      rw [Machine.next_of_some hstep]
      have hcoarse : (fun j => ((c.move i l' s').loc j).coarse) =
          Function.update (fun j => (c.loc j).coarse) i l'.coarse := by
        funext j
        by_cases hj : j = i
        · subst hj
          rw [Config.move_loc_self, Function.update_self]
        · rw [c.move_loc_of_ne hj, Function.update_of_ne hj]
      rw [hcoarse, Config.move_store]
      rcases acceptStep_refines (hc.known i) hstep with ⟨hl, rfl⟩ | hmove
      · left
        rw [hl, Function.update_eq_self]
      · right
        rw [Machine.next_of_some hmove]
        rfl

/-! ## What the answers say -/

/-- A 200 was right: when it was decided, in `before`, the caller's address was that of a PENDING
invitation that had not expired; and in `after` the caller has one membership in its organization,
the one they had or else one at the invitation's role. -/
def RightlyAccepted (E : Env) (q : AcceptCall) (before after : Db) : Prop :=
  ∃ user inv, authenticate before q.bearer = some user ∧ q.invitation before = some inv ∧
    inv.val.status = .pending ∧ inv.val.isExpired q.ambient.now = false ∧
    E.lower user.val.email = E.lower inv.val.email ∧
    ∃ m, (∀ m', (m' ∈ after.memberships.rows ∧ m'.val.user = user.id ∧
        m'.val.organization = inv.val.organization) ↔ m' = m) ∧
      (∀ old, membershipIn before user.id inv.val.organization = some old → m = old) ∧
      (membershipIn before user.id inv.val.organization = none → m.val.role = inv.val.role)

/-- Nothing has changed but that a PENDING invitation whose time has passed may be EXPIRED now. -/
def OnlyExpires (q : AcceptCall) (before after : Db) : Prop :=
  after = before ∨ ∃ inv ∈ before.invitations.rows, inv.val.status = .pending ∧
    inv.val.isExpired q.ambient.now = true ∧ after = setInvitationStatus before inv.id .expired

/-- The commit that a 200 answers. -/
theorem AcceptInv.rightlyAccepted (h : AcceptInv E calls c)
    (hbefore : c.loc i ≠ .call (.done 200))
    (hafter : ((acceptMachine E calls).next c i).loc i = .call (.done 200)) (post : List ι) :
    RightlyAccepted E (calls i) c.store.db
      ((acceptMachine E calls).run ((acceptMachine E calls).next c i) post).store.db := by
  obtain ⟨hfinal, -, hstay⟩ := (h.next i).run post
  rcases h.next_cases i with ⟨-, hdone⟩ | ⟨inv, joins, status, -, hmarks, hdb, hloc⟩
  · exact absurd (hdone i hafter) hbefore
  -- the invitation was not expired
  have hstatus : status = .accepted := by
    rcases hmarks.status_eq with rfl | rfl
    · rfl
    · rw [hloc, Function.update_self] at hafter
      cases hafter
  subst hstatus
  obtain ⟨user, hinvited, hjoined⟩ := hmarks
  refine ⟨user, inv, hinvited.caller, hinvited.asked, hinvited.held.pending, hinvited.live,
    hinvited.email, ?_⟩
  rw [hdb] at hstay
  cases joins with
  | none =>
      obtain ⟨m, hm⟩ := hjoined
      -- the caller was a member already, and stays the one they were
      have hlast := hstay _ _ m (membershipIn_commitAccept hm)
      refine ⟨m, fun m' => ?_, ?_, ?_⟩
      · rw [← hfinal.uniq.membershipIn_eq_some_iff, hlast, Option.some.injEq, eq_comm]
      · intro old hold
        rw [hm] at hold
        exact Option.some.inj hold
      · intro hnone
        rw [hm] at hnone
        cases hnone
  | some new =>
      obtain ⟨rfl, hnone, -⟩ := hjoined
      let m : Row Membership :=
        ⟨c.store.db.memberships.nextId, acceptedMembership user inv (calls i).ambient.now⟩
      -- the caller was no member, so the row that is inserted is the only one
      have hinsert : membershipIn (insertMembership c.store.db m.val) user.id
          inv.val.organization = some m := by
        rw [membershipIn_insert, hnone, Option.none_or, if_pos ⟨rfl, rfl⟩]
      have hlast := hstay _ _ m hinsert
      refine ⟨m, fun m' => ?_, ?_, ?_⟩
      · rw [← hfinal.uniq.membershipIn_eq_some_iff, hlast, Option.some.injEq, eq_comm]
      · intro old hold
        rw [hnone] at hold
        cases hold
      · intro _
        rfl

/-- A statement of call `i` that leads to no 200 writes nothing but EXPIRED. -/
theorem AcceptInv.onlyExpires (h : AcceptInv E calls c)
    (hafter : ((acceptMachine E calls).next c i).loc i ≠ .call (.done 200)) :
    OnlyExpires (calls i) c.store.db ((acceptMachine E calls).next c i).store.db := by
  rcases h.next_cases i with ⟨hdb, -⟩ | ⟨inv, joins, status, -, hmarks, hdb, hloc⟩
  · exact .inl hdb
  · rcases hmarks.status_eq with rfl | rfl
    · rw [hloc, Function.update_self] at hafter
      exact absurd rfl hafter
    · obtain ⟨rfl, -, hheld, hexpired⟩ := hmarks
      exact .inr ⟨inv, hheld.mem, hheld.pending, hexpired, hdb⟩

omit [DecidableEq ι] in
theorem ne_of_done {c : Config ι (InvitationStore ι) AcceptProgress} {status : Nat}
    (h : c.loc i = .call (.done status)) (hne : status ≠ 200) : c.loc i ≠ .call (.done 200) := by
  rw [h]
  simpa using hne

/-- A 200 stays a 200. -/
theorem done_next (j : ι) (h : c.loc i = .call (.done 200)) :
    ((acceptMachine E calls).next c j).loc i = .call (.done 200) := by
  rw [Machine.loc_next_of_final, h]
  intro s
  rw [h]
  rfl

/-- Only the call that is picked is answered. -/
theorem eq_of_answered {j : ι} (hbefore : c.loc i ≠ .call (.done 200))
    (hafter : ((acceptMachine E calls).next c j).loc i = .call (.done 200)) : j = i := by
  by_contra hne
  apply hbefore
  rw [← hafter]
  refine Machine.next_cases (M := acceptMachine E calls)
    (motive := fun c' => c.loc i = c'.loc i) c j rfl fun l s _ => ?_
  exact (c.move_loc_of_ne (Ne.symm hne) l s).symm

/-- **An invitation is used once.** However accepts interleave: from any point of the run to its end
an invitation only leaves PENDING, and that once; no two calls that ask for the same invitation are
both answered 200; every 200 was right; and a call that is answered otherwise has written nothing
but EXPIRED over a PENDING invitation whose time had passed. -/
theorem accepts_single_use (E : Env) (calls : ι → AcceptCall) {db : Db} (huniq : UniqUserOrg db)
    (sched : List ι) :
    let M := acceptMachine E calls
    let final := M.run (acceptStart db) sched
    (∀ pre post, sched = pre ++ post →
      UsedUp (M.run (acceptStart db) pre).store.db final.store.db) ∧
    (∀ i j, final.loc i = .call (.done 200) → final.loc j = .call (.done 200) →
      (calls i).invitation final.store.db = (calls j).invitation final.store.db → i = j) ∧
    (∀ i, final.loc i = .call (.done 200) → ∃ pre post, sched = pre ++ i :: post ∧
      (M.run (acceptStart db) pre).loc i ≠ .call (.done 200) ∧
      (M.run (acceptStart db) (pre ++ [i])).loc i = .call (.done 200) ∧
      RightlyAccepted E (calls i) (M.run (acceptStart db) pre).store.db final.store.db) ∧
    (∀ i status, final.loc i = .call (.done status) → status ≠ 200 →
      M.Along (fun c j => j = i → OnlyExpires (calls i) c.store.db (M.next c i).store.db)
        (acceptStart db) sched) := by
  intro M final
  have hstart : AcceptInv E calls (acceptStart db) := .start E calls huniq
  refine ⟨?_, (hstart.run sched).1.once, ?_, ?_⟩
  · rintro pre post rfl
    obtain ⟨-, hused, -⟩ := (hstart.run pre).1.run post
    show UsedUp _ (M.run (acceptStart db) (pre ++ post)).store.db
    rw [Machine.run_append]
    exact hused
  · intro i hi
    have hnot : (acceptStart (ι := ι) db).loc i ≠ .call (.done 200) := by simp [acceptStart]
    -- the statement at which the answer came is the commit of that call
    obtain ⟨pre, j, post, rfl, hbefore, hafter⟩ := exists_turn
      (Q := fun c : Config ι (InvitationStore ι) AcceptProgress => c.loc i = .call (.done 200))
      hnot hi
    obtain rfl := eq_of_answered hbefore hafter
    refine ⟨pre, post, rfl, hbefore, ?_, ?_⟩
    · rw [Machine.run_append]
      exact hafter
    · show RightlyAccepted E _ _ (M.run (acceptStart db) (pre ++ j :: post)).store.db
      rw [Machine.run_append]
      exact (hstart.run pre).1.rightlyAccepted hbefore hafter post
  · intro i status hi hne
    have hinv : M.Along (fun c _ => AcceptInv E calls c) (acceptStart db) sched := by
      apply each_of_states (Q := AcceptInv E calls)
      · intro c j hc _
        exact hc
      · apply states_of_step
        · intro c j hc
          exact hc.next j
        · exact hstart
    have hnever : M.Along (fun c j => j = i → (M.next c i).loc i ≠ .call (.done 200))
        (acceptStart db) sched := by
      -- a call that was answered 200 would be so at the end
      apply each_of_last (Q := fun c : Config ι (InvitationStore ι) AcceptProgress =>
        c.loc i = .call (.done 200))
      · intro c j hbad
        push Not at hbad
        obtain ⟨rfl, hdone⟩ := hbad
        exact hdone
      · intro c j hdone
        exact done_next j hdone
      · exact ne_of_done hi hne
    refine (hinv.and hnever).mono fun c j hc hj => ?_
    exact hc.1.onlyExpires (hc.2 hj)

end Run

/-- Two invitations of organization 1 to one address, which differ in case only. -/
def invitedTwice : Db :=
  { reservedSeat with
    invitations := reservedSeat.invitations.insert
      ⟨1, "C@x.io", .admin, "other", .pending, some 1, 0, 1000⟩ }

/-- User 3 accepts both. -/
def acceptsBoth : Bool → AcceptCall
  | true => ⟨some 3, .json (.obj [("token", .str "secret")]), ⟨10, "", true⟩⟩
  | false => ⟨some 3, .json (.obj [("token", .str "other")]), ⟨10, "", true⟩⟩

/-- Neither finds a membership, both insert one, and the second finds the first's. -/
theorem accepts_single_use_both :
    let sched := [true, true, false, false, true, false, true, false, true, true, false, false,
      false, false]
    let final := (acceptMachine Env.ascii acceptsBoth).run (acceptStart invitedTwice) sched
    final.loc true = .call (.done 200) ∧ final.loc false = .call (.done 200) ∧
      UsedUp invitedTwice final.store.db := by
  intro sched final
  have huniq : UniqUserOrg invitedTwice := by decide
  refine ⟨rfl, rfl, ?_⟩
  exact (accepts_single_use Env.ascii acceptsBoth huniq sched).1 [] sched rfl

end Bastiq
