import Bastiq.Organizations.AcceptRace
import Bastiq.Organizations.Bookkeeping

/-!
# Removed members stay out

Removing a member looks at no invitation. Still nothing that was sent before lets them back in: a
member is never invited (`Booked.free`), so when somebody goes nothing is outstanding under their
address, and what they come back by was sent later, by an Owner or Admin of that time.
-/

namespace Bastiq

open Relational Transition

/-- The user is a member of the organization. -/
def IsMember (db : Db) (user org : Nat) : Prop := (membershipIn db user org).isSome = true

instance (db : Db) (user org : Nat) : Decidable (IsMember db user org) :=
  inferInstanceAs (Decidable (_ = _))

/-- The user's address up to letter case. -/
def addressOf (E : Env) (db : Db) (user : Nat) : Option String :=
  (db.users.get? user).map fun u => E.lower u.val.email

/-- A PENDING invitation of `org` to an address. -/
def invitedUnder (E : Env) (org : Nat) (address : String) (inv : Row Invitation) : Bool :=
  pendingFor org inv && E.lower inv.val.email == address

/-- By this call an Owner or Admin of `org` invites the user. -/
def InvitesBack (E : Env) (user org : Nat) (db : Db) (c : Call) : Prop :=
  (∃ actor role, c.bearer = some actor ∧ HasRole db actor org role ∧
    (role = .owner ∨ role = .admin)) ∧
  ∃ new : Invitation, new.organization = org ∧ new.status = .pending ∧
    addressOf E db user = some (E.lower new.email) ∧
    c.step E db = { db with invitations := db.invitations.insert new }

section Facts

variable {E : Env} {db db' : Db} {user org : Nat} {address : String}

theorem not_isMember_iff : ¬ IsMember db user org ↔ membershipIn db user org = none := by
  simp [IsMember]

theorem isMember_iff : IsMember db user org ↔
    ∃ m ∈ db.memberships.rows, m.val.user = user ∧ m.val.organization = org := by
  constructor
  · intro h
    obtain ⟨m, hm⟩ := Option.isSome_iff_exists.mp h
    exact ⟨m, mem_of_membershipIn hm⟩
  · rintro ⟨m, hm, huser, horg⟩
    by_contra hnot
    exact membershipIn_eq_none_iff.mp (not_isMember_iff.mp hnot) m hm huser horg

theorem addressOf_eq_some : addressOf E db user = some address ↔
    ∃ u, db.users.get? user = some u ∧ E.lower u.val.email = address := by
  simp [addressOf]

/-- Nobody is invited to where they are a member. -/
theorem Booked.invitedUnder_eq_false (h : Booked E db) (hmember : IsMember db user org)
    (haddress : addressOf E db user = some address) {inv : Row Invitation}
    (hinv : inv ∈ db.invitations.rows) : invitedUnder E org address inv = false := by
  obtain ⟨m, hm, rfl, rfl⟩ := isMember_iff.mp hmember
  obtain ⟨u, hu, hemail⟩ := addressOf_eq_some.mp haddress
  rw [invitedUnder, Bool.and_eq_false_iff, beq_eq_false_iff_ne]
  by_cases hpend : pendingFor m.val.organization inv = true
  · right
    intro heq
    have hfree := h.free _ inv hinv hpend
    exact hasMember_eq_false_iff.mp hfree m hm rfl u hu (hemail.trans heq.symm)
  · exact .inl (Bool.eq_false_iff.mpr hpend)

/-- An account keeps its address, whatever happens. -/
theorem addressOf_step (h : addressOf E db user = some address) (c : Call) :
    addressOf E (c.step E db) user = some address := by
  obtain ⟨u, hu, hemail⟩ := addressOf_eq_some.mp h
  have hexists : ∃ u ∈ db.users.rows, u.id = user :=
    ⟨u, Table.mem_of_get? hu, Table.id_of_get? hu⟩
  have hchange := c.bookChange E db
  generalize c.step E db = db' at hchange ⊢
  have hsame : db'.users = db.users → addressOf E db' user = some address := by
    intro husers
    rw [addressOf, husers]
    exact h
  cases hchange with
  | nobody hadds =>
      obtain ⟨u₁, u', hu₁, hu', hemail'⟩ := hadds.emails user hexists
      rw [hu] at hu₁
      obtain rfl := Option.some.inj hu₁
      refine addressOf_eq_some.mpr ⟨u', hu', ?_⟩
      rw [hemail', hemail]
  | founded _ hinsert =>
      obtain ⟨-, subs, rfl, -⟩ := insertOrganization_eq_ok hinsert
      exact hsame rfl
  | invited => exact hsame rfl
  | answered => exact hsame (commitAccept_frame _ _ _ _).1

end Facts

/-! ## Away, and how one comes back -/

section Away

variable {E : Env} {db : Db} {user org n : Nat} {address : String} {c : Call}

/-- The user, who has that address, is not a member and not invited. -/
structure Away (E : Env) (user org : Nat) (address : String) (db : Db) : Prop where
  gone      : membershipIn db user org = none
  uninvited : ∀ inv ∈ db.invitations.rows, invitedUnder E org address inv = false

/-- The invitations to that address are none of the first `n`. -/
structure InvitedSince (E : Env) (user org : Nat) (address : String) (n : Nat) (db : Db) :
    Prop where
  booked  : Booked E db
  named   : addressOf E db user = some address
  founded : org < db.organizations.nextId
  counted : n ≤ db.invitations.nextId
  since   : ∀ inv ∈ db.invitations.rows, invitedUnder E org address inv = true → n ≤ inv.id

/-- Nothing that was sent before comes back. -/
theorem InvitedSince.step (h : InvitedSince E user org address n db) (c : Call) :
    InvitedSince E user org address n (c.step E db) := by
  have hbooked := h.booked.step c
  have hnamed := addressOf_step h.named c
  have hchange := c.bookChange E db
  generalize c.step E db = db' at hbooked hnamed hchange ⊢
  cases hchange with
  | nobody hadds =>
      refine ⟨hbooked, hnamed, h.founded.trans_le hadds.orgs, h.counted.trans hadds.keys, ?_⟩
      intro inv hinv
      exact h.since inv (hadds.invited inv hinv)
  | founded _ hinsert =>
      obtain ⟨-, subs, rfl, -⟩ := insertOrganization_eq_ok hinsert
      exact ⟨hbooked, hnamed, Nat.lt_succ_of_lt h.founded, h.counted, h.since⟩
  | invited =>
      refine ⟨hbooked, hnamed, h.founded, Nat.le_succ_of_le h.counted, ?_⟩
      intro inv hinv hunder
      rcases Table.mem_insert.mp hinv with hinv | rfl
      · exact h.since inv hinv hunder
      · exact h.counted
  | @answered inv joins status _ _ hstatus _ _ =>
      have hkeys : (commitAccept db inv joins status).organizations = db.organizations ∧
          (commitAccept db inv joins status).invitations.nextId = db.invitations.nextId := by
        cases joins <;> exact ⟨rfl, rfl⟩
      refine ⟨hbooked, hnamed, hkeys.1 ▸ h.founded, hkeys.2 ▸ h.counted, ?_⟩
      intro other hother hunder
      have hunder' := hunder
      rw [invitedUnder, Bool.and_eq_true] at hunder'
      obtain ⟨⟨hother, -⟩, -⟩ :=
        (pendingFor_commitAccept (ne_pending_of_answered hstatus)).mp ⟨hother, hunder'.1⟩
      exact h.since other hother hunder

/-- An invitation that is answered lets nobody in but the one it was sent to. -/
theorem Away.answered (h : Away E user org address db) (hnamed : addressOf E db user = some address)
    {inv : Row Invitation} {joins : Option Membership} {status : InvitationStatus}
    (hinv : inv ∈ db.invitations.rows) (hpending : inv.val.status = .pending)
    (hstatus : status ≠ .pending) (hjoins : ∀ m ∈ joins, JoinsBy E db inv m) :
    Away E user org address (commitAccept db inv joins status) := by
  constructor
  · cases joins with
    | none => exact h.gone
    | some m =>
        show membershipIn (insertMembership db m) user org = none
        rw [membershipIn_insert, h.gone, Option.none_or, if_neg]
        -- whoever joins was invited under their own address
        rintro ⟨rfl, rfl⟩
        obtain ⟨horg, u, hu, hemail⟩ := hjoins m rfl
        obtain ⟨u', hu', rfl⟩ := addressOf_eq_some.mp hnamed
        rw [hu] at hu'
        obtain rfl := Option.some.inj hu'
        have huninvited := h.uninvited inv hinv
        simp [invitedUnder, pendingFor, hpending, horg, hemail] at huninvited
  · intro other hother
    by_cases hpend : pendingFor org other = true
    · obtain ⟨⟨hother, -⟩, -⟩ := (pendingFor_commitAccept hstatus).mp ⟨hother, hpend⟩
      exact h.uninvited other hother
    · rw [invitedUnder, Bool.eq_false_iff.mpr hpend, Bool.false_and]

/-- **Who is away stays away**, unless they are invited back; and even then they are not back yet. -/
theorem Away.step (h : Away E user org address db) (hnamed : addressOf E db user = some address)
    (horg : org < db.organizations.nextId) (c : Call) :
    (Away E user org address (c.step E db) ∨ InvitesBack E user org db c) ∧
      ¬ IsMember (c.step E db) user org := by
  rw [not_isMember_iff]
  have hchange := c.bookChange E db
  generalize hdb' : c.step E db = db' at hchange ⊢
  have hstays : membershipIn db' user org = none →
      (∀ inv ∈ db'.invitations.rows, invitedUnder E org address inv = false) →
      (Away E user org address db' ∨ InvitesBack E user org db c) ∧
        membershipIn db' user org = none :=
    fun hgone huninvited => ⟨.inl ⟨hgone, huninvited⟩, hgone⟩
  have hgone := membershipIn_eq_none_iff.mp h.gone
  cases hchange with
  | nobody hadds =>
      apply hstays
      · apply membershipIn_eq_none_iff.mpr
        intro m' hm' huser
        obtain ⟨m, hm, -, huser', horg'⟩ := hadds.members m' hm'
        rw [← horg']
        exact hgone m hm (huser'.trans huser)
      · intro inv hinv
        exact h.uninvited inv (hadds.invited inv hinv)
  | @founded founder _ _ o _ _ hinsert =>
      obtain ⟨ho, subs, rfl, -⟩ := insertOrganization_eq_ok hinsert
      apply hstays
      · apply membershipIn_eq_none_iff.mpr
        intro m hm huser
        rcases Table.mem_insert.mp hm with hm | rfl
        · exact hgone m hm huser
        · -- the organization that is founded is a new one
          show o.id ≠ org
          rw [ho]
          exact Nat.ne_of_gt horg
      · exact h.uninvited
  | @invited new _ hcaller hpending _ _ _ _ =>
      refine ⟨?_, h.gone⟩
      -- the one call after which they may come back
      by_cases hback : new.organization = org ∧ E.lower new.email = address
      · right
        obtain ⟨rfl, rfl⟩ := hback
        obtain ⟨actor, role, hactor, hrole, hmanager⟩ := hcaller
        refine ⟨⟨actor, role, hactor, hrole, ?_⟩, new, rfl, hpending, hnamed, hdb'⟩
        cases role with
        | owner => exact .inl rfl
        | admin => exact .inr rfl
        | member => exact absurd rfl hmanager
      · left
        refine ⟨h.gone, fun inv hinv => ?_⟩
        rcases Table.mem_insert.mp hinv with hinv | rfl
        · exact h.uninvited inv hinv
        · refine Bool.eq_false_iff.mpr fun hunder => hback ?_
          simpa [invitedUnder, pendingFor, hpending] using hunder
  | answered hinv hpending hstatus hjoins _ =>
      have haway := h.answered hnamed hinv hpending (ne_pending_of_answered hstatus) hjoins
      exact hstays haway.gone haway.uninvited

/-- When somebody goes, nothing is outstanding under their address. -/
theorem Booked.away_of_removed (h : Booked E db) (hmember : IsMember db user org)
    (hnamed : addressOf E db user = some address) (hgone : ¬ IsMember (c.step E db) user org) :
    Away E user org address (c.step E db) := by
  have huninvited : ∀ inv ∈ db.invitations.rows, invitedUnder E org address inv = false :=
    fun inv hinv => h.invitedUnder_eq_false hmember hnamed hinv
  have hchange := c.bookChange E db
  generalize c.step E db = db' at hchange hgone ⊢
  have hnone := not_isMember_iff.mp hgone
  cases hchange with
  | nobody hadds => exact ⟨hnone, fun inv hinv => huninvited inv (hadds.invited inv hinv)⟩
  | founded _ hinsert =>
      obtain ⟨-, subs, rfl, -⟩ := insertOrganization_eq_ok hinsert
      exact ⟨hnone, huninvited⟩
  | invited => exact absurd hmember hgone
  | answered =>
      obtain ⟨m, hm⟩ := Option.isSome_iff_exists.mp hmember
      rw [membershipIn_commitAccept hm] at hnone
      cases hnone

/-- Who comes back has accepted a PENDING invitation under their address. -/
theorem InvitedSince.joins (h : InvitedSince E user org address n db)
    (hout : ¬ IsMember db user org) (hin : IsMember (c.step E db) user org) :
    ∃ inv ∈ db.invitations.rows, invitedUnder E org address inv = true ∧ n ≤ inv.id ∧
      ∃ m, m.user = user ∧ m.organization = org ∧
        c.step E db = commitAccept db inv (some m) .accepted := by
  have hnone := membershipIn_eq_none_iff.mp (not_isMember_iff.mp hout)
  obtain ⟨r, hr, huser, horg⟩ := isMember_iff.mp hin
  have hchange := c.bookChange E db
  generalize c.step E db = db' at hchange hr ⊢
  cases hchange with
  | nobody hadds =>
      obtain ⟨m, hm, -, huser', horg'⟩ := hadds.members r hr
      exact absurd (horg'.trans horg) (hnone m hm (huser'.trans huser))
  | @founded _ _ _ o _ _ hinsert =>
      obtain ⟨ho, subs, rfl, -⟩ := insertOrganization_eq_ok hinsert
      rcases Table.mem_insert.mp hr with hr | rfl
      · exact absurd horg (hnone r hr huser)
      · -- the organization that is founded is a new one
        have hnew : o.id = org := horg
        rw [ho] at hnew
        exact absurd hnew (Nat.ne_of_gt h.founded)
  | invited => exact absurd horg (hnone r hr huser)
  | @answered inv joins status hinv hpending hstatus hjoins _ =>
      cases joins with
      | none => exact absurd horg (hnone r hr huser)
      | some m =>
          rcases Table.mem_insert.mp hr with hr | rfl
          · exact absurd horg (hnone r hr huser)
          · obtain rfl : status = .accepted := by
              rcases hstatus with hstatus | ⟨-, hjoins⟩
              · exact hstatus
              · cases hjoins
            obtain ⟨horg', u, hu, hemail⟩ := hjoins m rfl
            obtain ⟨u', hu', haddress⟩ := addressOf_eq_some.mp h.named
            have hsame : u = u' := by
              rw [show m.user = user from huser, hu'] at hu
              exact (Option.some.inj hu).symm
            have hunder : invitedUnder E org address inv = true := by
              rw [hsame] at hemail
              simp [invitedUnder, pendingFor, hpending, ← haddress, hemail, ← horg', ← horg]
            exact ⟨inv, hinv, hunder, h.since inv hinv hunder, m, huser, horg, rfl⟩

/-- **Removal is effective.** In every run from a migrated database: if a user's membership goes at
call `c`, and they are a member again after the calls `later`, then one of these was an invitation to
their address by an Owner or Admin, made before they were back; and whenever they come back, it is
by an invitation that was not there when they were removed. -/
theorem removed_until_invited (E : Env) (before later : List Call) (c : Call) (user org : Nat)
    (hmember : IsMember (run (Call.step E) Db.migrated before) user org)
    (hgone : ¬ IsMember (run (Call.step E) Db.migrated (before ++ [c])) user org) :
    let removed := run (Call.step E) Db.migrated (before ++ [c])
    (IsMember (run (Call.step E) removed later) user org →
      ∃ between invite rest, later = between ++ invite :: rest ∧
        InvitesBack E user org (run (Call.step E) removed between) invite ∧
        ¬ IsMember (run (Call.step E) removed (between ++ [invite])) user org) ∧
    (∀ between join rest, later = between ++ join :: rest →
      ¬ IsMember (run (Call.step E) removed between) user org →
      IsMember (run (Call.step E) removed (between ++ [join])) user org →
      ∃ inv ∈ (run (Call.step E) removed between).invitations.rows,
        (∀ old ∈ removed.invitations.rows, old.id ≠ inv.id) ∧
        ∃ m, m.user = user ∧ m.organization = org ∧
          run (Call.step E) removed (between ++ [join]) =
            commitAccept (run (Call.step E) removed between) inv (some m) .accepted) := by
  intro removed
  have hbooked : ∀ calls, Booked E (run (Call.step E) Db.migrated calls) := by
    intro calls
    exact (states_of_step (fun db c hdb => hdb.step c) (booked_migrated E) calls).last
  have hremoved : removed = c.step E (run (Call.step E) Db.migrated before) := run_append ..
  obtain ⟨address, hnamed⟩ : ∃ address,
      addressOf E (run (Call.step E) Db.migrated before) user = some address := by
    obtain ⟨m, hm, rfl, -⟩ := isMember_iff.mp hmember
    obtain ⟨u, hu, hid⟩ := (hbooked before).known m hm
    exact ⟨_, addressOf_eq_some.mpr ⟨u, Table.get?_eq_some_iff.mpr ⟨hu, hid⟩, rfl⟩⟩
  have haway : Away E user org address removed := by
    rw [hremoved]
    apply (hbooked before).away_of_removed hmember hnamed
    rw [← hremoved]
    exact hgone
  have hsince : InvitedSince E user org address removed.invitations.nextId removed := by
    have hfounded : InvitedSince E user org address 0 (run (Call.step E) Db.migrated before) := by
      refine ⟨hbooked before, hnamed, ?_, Nat.zero_le _, fun _ _ _ => Nat.zero_le _⟩
      obtain ⟨m, hm, -, rfl⟩ := isMember_iff.mp hmember
      exact (hbooked before).founded m hm
    obtain ⟨hb, hnamed', horg, -, -⟩ := hfounded.step c
    rw [← hremoved] at hb hnamed' horg
    refine ⟨hb, hnamed', horg, Nat.le_refl _, fun inv hinv hunder => ?_⟩
    rw [haway.uninvited inv hinv] at hunder
    cases hunder
  have hrun : ∀ calls, InvitedSince E user org address removed.invitations.nextId
      (run (Call.step E) removed calls) := by
    intro calls
    exact (states_of_step (fun db c hdb => hdb.step c) hsince calls).last
  constructor
  · intro hback
    have hnot : ¬ Away E user org address (run (Call.step E) removed later) :=
      fun h => not_isMember_iff.mpr h.gone hback
    obtain ⟨between, invite, rest, hlater, hout, hturn⟩ :=
      exists_turn (Q := fun db => ¬ Away E user org address db) (not_not.mpr haway) hnot
    obtain ⟨hstep, hstill⟩ := (not_not.mp hout).step (hrun between).named (hrun between).founded
      invite
    refine ⟨between, invite, rest, hlater, hstep.resolve_left hturn, ?_⟩
    rw [run_append]
    exact hstill
  · intro between join rest _ hout hin
    rw [run_append] at hin ⊢
    obtain ⟨inv, hinv, -, hnew, hm⟩ := (hrun between).joins hout hin
    refine ⟨inv, hinv, fun old hold => ?_, hm⟩
    have hlt := removed.invitations.fresh old hold
    omega

end Away

/-! ## Removed, and invited again -/

/-- User 2 registers, is invited to organization 1, and accepts. -/
def bobJoins : List Call :=
  [⟨none, .register (.json (.obj [("email", .str "b@x.io"), ("password", .str "long enough")])),
      ⟨0, "salt", true⟩⟩,
    ⟨some 1, .invite "1" (.json (.obj [("email", .str "b@x.io")])), ⟨0, "first", true⟩⟩,
    ⟨some 2, .accept (.json (.obj [("token", .str "first")])), ⟨10, "", true⟩⟩]

/-- User 1 removes user 2. -/
def removesBob : Call := ⟨some 1, .member "1" "2" .delete, ⟨20, "", true⟩⟩

/-- User 2 is invited and accepts once more. -/
def bobReturns : List Call :=
  [⟨some 1, .invite "1" (.json (.obj [("email", .str "B@x.io")])), ⟨30, "second", true⟩⟩,
    ⟨some 2, .accept (.json (.obj [("token", .str "second")])), ⟨40, "", true⟩⟩]

theorem removed_until_invited_again :
    let removed := run (Call.step Env.ascii) Db.migrated
      (foundsOrganization ++ bobJoins ++ [removesBob])
    IsMember (run (Call.step Env.ascii) removed bobReturns) 2 1 ∧
      ∃ between invite rest, bobReturns = between ++ invite :: rest ∧
        InvitesBack Env.ascii 2 1 (run (Call.step Env.ascii) removed between) invite ∧
        ¬ IsMember (run (Call.step Env.ascii) removed (between ++ [invite])) 2 1 := by
  intro removed
  have hback : IsMember (run (Call.step Env.ascii) removed bobReturns) 2 1 := by decide +kernel
  refine ⟨hback, ?_⟩
  exact (removed_until_invited Env.ascii (foundsOrganization ++ bobJoins) bobReturns removesBob 2 1
    (by decide +kernel) (by decide +kernel)).1 hback

end Bastiq
