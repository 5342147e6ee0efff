import Bastiq.Integrity
import Bastiq.Organizations.Removal

/-!
# Where members come from

Nobody becomes a member of an organization but by creating it or by accepting an invitation, and
nobody is invited but by a member. The invitations that were accepted stay on record, each with who
sent it; so from every member a chain of them leads back to the creator. What makes the chain end is
that whoever sends an invitation was there before it: the keys go down along it.
-/

namespace Bastiq

open Relational Transition

/-- The user created the organization. -/
def Created (db : Db) (org user : Nat) : Prop :=
  ∃ o ∈ db.organizations.rows, o.id = org ∧ o.val.createdBy = some user

/-- The invitation was accepted by the user, going by the address. -/
structure AcceptedBy (E : Env) (db : Db) (user : Nat) (i : Row Invitation) : Prop where
  row      : i ∈ db.invitations.rows
  accepted : i.val.status = .accepted
  address  : addressOf E db user = some (E.lower i.val.email)

/-- The user created the organization, or accepted an invitation that somebody of whom this holds
has sent. -/
inductive TracesToCreator (E : Env) (db : Db) (org : Nat) : Nat → Prop where
  | creator {user : Nat} (h : Created db org user) : TracesToCreator E db org user
  | invited {user inviter : Nat} {i : Row Invitation} (h : AcceptedBy E db user i)
      (horg : i.val.organization = org) (hinviter : i.val.invitedBy = some inviter)
      (htrace : TracesToCreator E db org inviter) : TracesToCreator E db org user

/-- The user created the organization, or accepted an invitation to it with a key below `n`. -/
def Admitted (E : Env) (db : Db) (org user n : Nat) : Prop :=
  Created db org user ∨ ∃ i, AcceptedBy E db user i ∧ i.val.organization = org ∧ i.id < n

/-- Every member was admitted, and everybody who sends an invitation was admitted before it. -/
structure Vouched (E : Env) (db : Db) : Prop where
  members  : ∀ m ∈ db.memberships.rows,
    Admitted E db m.val.organization m.val.user db.invitations.nextId
  inviters : ∀ i ∈ db.invitations.rows, ∃ inviter, i.val.invitedBy = some inviter ∧
    Admitted E db i.val.organization inviter i.id

section Vouching

variable {E : Env} {db db' : Db} {org user n n' : Nat} {c : Call}

theorem Admitted.mono (h : Admitted E db org user n) (hle : n ≤ n') : Admitted E db org user n' :=
  h.imp_right fun ⟨i, hi, horg, hlt⟩ => ⟨i, hi, horg, Nat.lt_of_lt_of_le hlt hle⟩

/-- Along the invitations the keys go down. -/
theorem Vouched.traces (h : Vouched E db) (hadmitted : Admitted E db org user n) :
    TracesToCreator E db org user := by
  induction n using Nat.strongRecOn generalizing user with
  | ind n ih =>
      rcases hadmitted with hcreated | ⟨i, hi, rfl, hlt⟩
      · exact .creator hcreated
      · obtain ⟨inviter, hinviter, hbefore⟩ := h.inviters i hi.row
        exact .invited hi rfl hinviter (ih i.id hlt hbefore)

/-! ## What a call leaves of it -/

/-- Nothing of the organization is left that a member or an invitation could be of. -/
def Gone (db : Db) (org : Nat) : Prop :=
  (∀ m ∈ db.memberships.rows, m.val.organization ≠ org) ∧
    ∀ i ∈ db.invitations.rows, i.val.organization ≠ org

theorem gone_deleteOrganization (db : Db) (org : Nat) : Gone (deleteOrganization db org) org := by
  constructor
  · intro m hm
    simpa using (Table.mem_delete.mp hm).2
  · intro i hi
    simpa using (Table.mem_delete.mp hi).2

/-- Who created an organization stays on record for as long as it is there. -/
theorem Created.step (h : Created db org user) (c : Call) :
    Created (c.step E db) org user ∨ Gone (c.step E db) org := by
  obtain ⟨o, ho, rfl, hcreator⟩ := h
  by_cases horganization : ∃ a, c.request = .organization a
  · obtain ⟨a, hrequest⟩ := horganization
    simp only [Call.step, Call.respond, hrequest]
    refine authenticated_db_cases (fun db' => Created db' o.id user ∨ Gone db' o.id)
      (.inl ⟨o, ho, rfl, hcreator⟩) fun caller r db' _ hview => ?_
    cases a with
    | create data =>
        obtain ⟨name, -, hview⟩ := bind_eq_ok.mp hview
        obtain ⟨⟨org, out⟩, hcreate, hview⟩ := bind_eq_ok.mp hview
        cases hview
        obtain ⟨slug, hinsert⟩ := createOrgWithOwner_eq_ok hcreate
        obtain ⟨-, subs, rfl, -⟩ := insertOrganization_eq_ok hinsert
        exact .inl ⟨o, Table.mem_insert.mpr (.inl ho), rfl, hcreator⟩
    | partialUpdate pk data =>
        obtain ⟨⟨org, role⟩, hget, hview⟩ := bind_eq_ok.mp hview
        obtain ⟨_, -, hview⟩ := bind_eq_ok.mp hview
        obtain ⟨name, -, hview⟩ := bind_eq_ok.mp hview
        cases hview
        obtain ⟨horg, -⟩ := getOrganization_eq_ok hget
        refine .inl ⟨_, Table.mem_update.mpr ⟨o, ho, rfl⟩, Table.setRow_id _ _ _, ?_⟩
        unfold Table.setRow
        split
        · next hid =>
          obtain rfl := db.organizations.eq_of_id_eq ho horg (beq_iff_eq.mp hid)
          exact hcreator
        · exact hcreator
    | destroy pk =>
        obtain ⟨⟨org, role⟩, -, hview⟩ := bind_eq_ok.mp hview
        obtain ⟨_, -, hview⟩ := bind_eq_ok.mp hview
        cases hview
        by_cases hid : o.id = org.id
        · right
          rw [hid]
          exact gone_deleteOrganization db org.id
        · exact .inl ⟨o, Table.mem_delete.mpr ⟨ho, beq_false_of_ne hid⟩, rfl, hcreator⟩
  · left
    refine ⟨o, ?_, rfl, hcreator⟩
    rwa [organizations_of_respond fun a hrequest => horganization ⟨a, hrequest⟩]

theorem mem_setInvitationStatus {i j : Row Invitation} (hi : i ∈ db.invitations.rows)
    (hj : j ∈ db.invitations.rows) (haccepted : i.val.status = .accepted)
    (hpending : j.val.status = .pending) (status : InvitationStatus) :
    i ∈ (setInvitationStatus db j.id status).invitations.rows := by
  refine Table.mem_modify.mpr (.inl ⟨hi, fun hid => ?_⟩)
  rw [db.invitations.eq_of_id_eq hi hj hid, hpending] at haccepted
  cases haccepted

/-- An accepted invitation stays on record for as long as its organization is there. -/
theorem AcceptedBy.step {i : Row Invitation} (h : AcceptedBy E db user i) (c : Call) :
    AcceptedBy E (c.step E db) user i ∨ Gone (c.step E db) i.val.organization := by
  have haddress := addressOf_step h.address c
  have hkept : i ∈ (c.step E db).invitations.rows ∨ Gone (c.step E db) i.val.organization := by
    have hchange := c.change E db
    generalize c.step E db = db' at hchange ⊢
    cases hchange with
    | created _ _ hinsert =>
        obtain ⟨-, subs, rfl, -⟩ := insertOrganization_eq_ok hinsert
        exact .inl h.row
    | @destroyed caller org _ _ =>
        by_cases horg : i.val.organization = org
        · right
          rw [horg]
          exact gone_deleteOrganization db org
        · exact .inl (Table.mem_delete.mpr ⟨h.row, beq_false_of_ne horg⟩)
    | invited => exact .inl (Table.mem_insert.mpr (.inl h.row))
    | expired hj hpending => exact .inl (mem_setInvitationStatus h.row hj h.accepted hpending _)
    | used _ _ hj hpending => exact .inl (mem_setInvitationStatus h.row hj h.accepted hpending _)
    | joined _ _ hj hpending =>
        exact .inl (mem_setInvitationStatus h.row hj h.accepted hpending _)
    | delivered _ _ hprocess =>
        obtain ⟨-, -, write, -, rfl⟩ := Delivery.process_eq_ok.mp hprocess
        exact .inl h.row
    | _ => exact .inl h.row
  exact hkept.imp_left fun hrow => ⟨hrow, h.accepted, haddress⟩

theorem Admitted.step (h : Admitted E db org user n) (c : Call) :
    Admitted E (c.step E db) org user n ∨ Gone (c.step E db) org := by
  rcases h with hcreated | ⟨i, hi, rfl, hlt⟩
  · exact (hcreated.step c).imp_left .inl
  · exact (hi.step c).imp_left fun hi => .inr ⟨i, hi, rfl, hlt⟩

/-! ## Every call keeps the vouchers -/

theorem Call.invitations_nextId_le (E : Env) (c : Call) (db : Db) :
    db.invitations.nextId ≤ (c.step E db).invitations.nextId := by
  have hchange := c.change E db
  generalize c.step E db = db' at hchange ⊢
  cases hchange with
  | created _ _ hinsert =>
      obtain ⟨-, subs, rfl, -⟩ := insertOrganization_eq_ok hinsert
      exact Nat.le_refl _
  | invited => exact Nat.le_succ _
  | delivered _ _ hprocess =>
      obtain ⟨-, -, write, -, rfl⟩ := Delivery.process_eq_ok.mp hprocess
      exact Nat.le_refl _
  | _ => exact Nat.le_refl _

/-- The members after a call: those that were, who created an organization, who accepted an
invitation. -/
theorem Call.member_cases (E : Env) (c : Call) {m : Row Membership}
    (hm : m ∈ (c.step E db).memberships.rows) :
    (∃ m' ∈ db.memberships.rows, m'.val.organization = m.val.organization ∧
        m'.val.user = m.val.user) ∨
      Admitted E (c.step E db) m.val.organization m.val.user (c.step E db).invitations.nextId := by
  have haddress := fun address user (h : addressOf E db user = some address) => addressOf_step h c
  have hchange := c.change E db
  generalize c.step E db = db' at hchange hm haddress ⊢
  cases hchange with
  | @created user name slug o _ _ _ hinsert =>
      obtain ⟨horg, subs, rfl, -⟩ := insertOrganization_eq_ok hinsert
      rcases Table.mem_insert.mp hm with hm | rfl
      · exact .inl ⟨m, hm, rfl, rfl⟩
      · right
        left
        refine ⟨_, Table.mem_insert.mpr (.inr rfl), ?_, ?_⟩
        · rw [horg]
        · rw [horg]
  | destroyed => exact .inl ⟨m, (Table.mem_delete.mp hm).1, rfl, rfl⟩
  | removed => exact .inl ⟨m, (Table.mem_delete.mp hm).1, rfl, rfl⟩
  | roleSet =>
      rcases Table.mem_modify.mp hm with ⟨hm, -⟩ | ⟨m', hm', -, rfl⟩
      · exact .inl ⟨m, hm, rfl, rfl⟩
      · exact .inl ⟨m', hm', rfl, rfl⟩
  | @joined user i _ huser hi _ hemail _ =>
      rcases Table.mem_insert.mp hm with hm | rfl
      · exact .inl ⟨m, hm, rfl, rfl⟩
      · right
        right
        refine ⟨⟨i.id, { i.val with status := .accepted }⟩, ⟨?_, rfl, ?_⟩, rfl,
          db.invitations.fresh i hi⟩
        · exact Table.mem_modify.mpr (.inr ⟨i, hi, rfl, rfl⟩)
        · refine haddress _ _ (addressOf_eq_some.mpr ⟨user, ?_, hemail⟩)
          exact Table.get?_eq_some_iff.mpr ⟨huser, rfl⟩
  | delivered _ _ hprocess =>
      obtain ⟨-, -, write, -, rfl⟩ := Delivery.process_eq_ok.mp hprocess
      exact .inl ⟨m, hm, rfl, rfl⟩
  | _ => exact .inl ⟨m, hm, rfl, rfl⟩

/-- The invitations after a call: those that were, and one that a member has sent. -/
theorem Call.invitation_cases (E : Env) (c : Call) {i : Row Invitation}
    (hi : i ∈ (c.step E db).invitations.rows) :
    (∃ i' ∈ db.invitations.rows, i'.id = i.id ∧ i'.val.organization = i.val.organization ∧
        i'.val.invitedBy = i.val.invitedBy) ∨
      (i.id = db.invitations.nextId ∧ ∃ m ∈ db.memberships.rows,
        m.val.organization = i.val.organization ∧ i.val.invitedBy = some m.val.user) := by
  have hset : ∀ id status, i ∈ (setInvitationStatus db id status).invitations.rows →
      ∃ i' ∈ db.invitations.rows, i'.id = i.id ∧ i'.val.organization = i.val.organization ∧
        i'.val.invitedBy = i.val.invitedBy := by
    intro id status hi
    rcases Table.mem_modify.mp hi with ⟨hi, -⟩ | ⟨i', hi', rfl, rfl⟩
    · exact ⟨i, hi, rfl, rfl, rfl⟩
    · exact ⟨i', hi', rfl, rfl, rfl⟩
  have hchange := c.change E db
  generalize c.step E db = db' at hchange hi ⊢
  cases hchange with
  | created _ _ hinsert =>
      obtain ⟨-, subs, rfl, -⟩ := insertOrganization_eq_ok hinsert
      exact .inl ⟨i, hi, rfl, rfl, rfl⟩
  | destroyed => exact .inl ⟨i, (Table.mem_delete.mp hi).1, rfl, rfl, rfl⟩
  | @invited user org actor new email _ _ horg hrole =>
      rcases Table.mem_insert.mp hi with hi | rfl
      · exact .inl ⟨i, hi, rfl, rfl, rfl⟩
      · obtain ⟨m, hmember, -⟩ := hrole
        obtain ⟨hm, huser, hm_org⟩ := mem_of_membershipIn hmember
        exact .inr ⟨rfl, m, hm, hm_org, congrArg some huser.symm⟩
  | expired => exact .inl (hset _ _ hi)
  | used => exact .inl (hset _ _ hi)
  | joined => exact .inl (hset _ _ hi)
  | delivered _ _ hprocess =>
      obtain ⟨-, -, write, -, rfl⟩ := Delivery.process_eq_ok.mp hprocess
      exact .inl ⟨i, hi, rfl, rfl, rfl⟩
  | _ => exact .inl ⟨i, hi, rfl, rfl, rfl⟩

theorem Vouched.step (h : Vouched E db) (c : Call) : Vouched E (c.step E db) where
  members m hm := by
    rcases c.member_cases E hm with ⟨m', hm', horg, huser⟩ | hadmitted
    · rcases (h.members m' hm').step c with hadmitted | hgone
      · rw [← horg, ← huser]
        exact hadmitted.mono (c.invitations_nextId_le E db)
      · exact absurd horg.symm (hgone.1 m hm)
    · exact hadmitted
  inviters i hi := by
    rcases c.invitation_cases E hi with ⟨i', hi', hid, horg, hinviter⟩ | ⟨hid, m, hm, horg, hm_user⟩
    · obtain ⟨inviter, hi'_inviter, hadmitted⟩ := h.inviters i' hi'
      rcases hadmitted.step c with hadmitted | hgone
      · refine ⟨inviter, hinviter ▸ hi'_inviter, ?_⟩
        rwa [← horg, ← hid]
      · exact absurd horg.symm (hgone.2 i hi)
    · rcases (h.members m hm).step c with hadmitted | hgone
      · refine ⟨m.val.user, hm_user, ?_⟩
        rwa [← horg, hid]
      · exact absurd horg.symm (hgone.2 i hi)

end Vouching

/-- **Every membership traces back to the creator.** In every state that requests and webhooks can
bring about, whoever is a member of an organization created it, or accepted an invitation to it,
still on record and sent to their address, by somebody of whom the same is true; and the chain
ends. -/
theorem members_trace_to_creator (E : Env) (calls : List Call) :
    States (Call.step E) (fun db => ∀ m ∈ db.memberships.rows,
      TracesToCreator E db m.val.organization m.val.user) Db.migrated calls := by
  have hvouched : States (Call.step E) (Vouched E) Db.migrated calls := by
    refine states_of_step (fun db c h => h.step c) ⟨?_, ?_⟩ calls
    · intro m hm
      cases hm
    · intro i hi
      cases hi
  exact hvouched.mono fun db h m hm => h.traces (h.members m hm)

end Bastiq
