import Bastiq.Api

/-!
# No escalation

Whoever acts in an organization at a rank of at most `r`, alone or together and over any run, can
lift nobody above `r` there and touch nobody who is above `r`. The invariant is `Contained`: the
memberships above `r` are the ones of the start, and no PENDING invitation promises more than `r`.
-/

namespace Bastiq

open Relational Transition

/-- A membership of `org` at a rank above `r`. -/
def Outranks (org : Nat) (r : Role) (m : Row Membership) : Prop :=
  m.val.organization = org ∧ r.rank < m.val.role.rank

/-- What those at rank `r` and below have made of `start`. -/
structure Contained (org : Nat) (r : Role) (start db : Db) : Prop where
  exists_org : ∃ o ∈ db.organizations.rows, o.id = org ∧
    (r = .member → ∀ o₀ ∈ start.organizations.rows, o₀.id = org → o.val.name = o₀.val.name)
  above   : ∀ m, Outranks org r m → (m ∈ db.memberships.rows ↔ m ∈ start.memberships.rows)
  pending : ∀ i ∈ db.invitations.rows, i.val.organization = org → i.val.status = .pending →
    i.val.role.rank ≤ r.rank
  invited : r = .member → ∀ i ∈ db.invitations.rows, i.val.organization = org →
    ∃ i₀ ∈ start.invitations.rows, i₀.id = i.id

/-- The caller has at the start no role in `org`, or one of at most `r`. -/
def AtMost (start : Db) (org : Nat) (r : Role) (c : Call) : Prop :=
  ∀ user, c.bearer = some user → ∀ m ∈ start.memberships.rows, m.val.user = user →
    m.val.organization = org → m.val.role.rank ≤ r.rank

theorem mem_of_hasRole {db : Db} {user org : Nat} {role : Role} (h : HasRole db user org role) :
    ∃ m ∈ db.memberships.rows, m.val.user = user ∧ m.val.organization = org ∧
      m.val.role = role := by
  obtain ⟨m, hm, hrole⟩ := h
  have hp := Table.pos_of_first? hm
  simp only [Bool.and_eq_true, beq_iff_eq] at hp
  exact ⟨m, Table.mem_of_first? hm, hp.1, Int.ofNat.inj hp.2, hrole⟩

section Contained

variable {org : Nat} {r : Role} {start db : Db}

theorem contained_start (horg : ∃ o ∈ start.organizations.rows, o.id = org)
    (hpending : ∀ i ∈ start.invitations.rows, i.val.organization = org →
      i.val.status = .pending → i.val.role.rank ≤ r.rank) : Contained org r start start := by
  obtain ⟨o, ho, hid⟩ := horg
  refine ⟨⟨o, ho, hid, fun _ o₀ ho₀ hid₀ => ?_⟩, fun _ _ => Iff.rfl, hpending,
    fun _ i hi _ => ⟨i, hi, rfl⟩⟩
  rw [start.organizations.eq_of_id_eq ho ho₀ (hid.trans hid₀.symm)]

/-- **A caller's rank stays at most `r`**: above it are only those who were above it at the start. -/
theorem Contained.rank_le (h : Contained org r start db) {c : Call} (hc : AtMost start org r c)
    {user : Nat} (huser : c.bearer = some user) {role : Role} (hrole : HasRole db user org role) :
    role.rank ≤ r.rank := by
  obtain ⟨m, hm, hmuser, hmorg, rfl⟩ := mem_of_hasRole hrole
  by_contra habove
  have hstart := (h.above m ⟨hmorg, Nat.lt_of_not_le habove⟩).mp hm
  exact habove (hc user huser m hstart hmuser hmorg)

/-! ### One table at a time -/

theorem Contained.congr {db' : Db} (h : Contained org r start db)
    (horgs : db'.organizations = db.organizations) (hmembers : db'.memberships = db.memberships)
    (hinvites : db'.invitations = db.invitations) : Contained org r start db' := by
  refine ⟨?_, ?_, ?_, ?_⟩
  · rw [horgs]; exact h.exists_org
  · rw [hmembers]; exact h.above
  · rw [hinvites]; exact h.pending
  · rw [hinvites]; exact h.invited

/-- The members change, but none above `r`. -/
theorem Contained.withMemberships (h : Contained org r start db) {t : Table Membership}
    (ht : ∀ m, Outranks org r m → (m ∈ t.rows ↔ m ∈ db.memberships.rows)) :
    Contained org r start { db with memberships := t } :=
  ⟨h.exists_org, fun m hm => (ht m hm).trans (h.above m hm), h.pending, h.invited⟩

theorem Contained.insertMembership (h : Contained org r start db) {m : Membership}
    (hm : m.organization = org → m.role.rank ≤ r.rank) :
    Contained org r start (insertMembership db m) := by
  refine h.withMemberships fun m' hm' => ?_
  rw [Table.mem_insert]
  refine or_iff_left ?_
  rintro rfl
  exact absurd (hm hm'.1) (Nat.not_le.mpr hm'.2)

theorem Contained.setInvitationStatus (h : Contained org r start db) (id : Nat)
    {status : InvitationStatus} (hstatus : status ≠ .pending) :
    Contained org r start (setInvitationStatus db id status) := by
  refine ⟨h.exists_org, h.above, ?_, ?_⟩
  · intro i hi horg hpending
    rcases Table.mem_modify.mp hi with ⟨hi, -⟩ | ⟨i₀, hi₀, hid, rfl⟩
    · exact h.pending i hi horg hpending
    · exact absurd hpending hstatus
  · intro hr i hi horg
    rcases Table.mem_modify.mp hi with ⟨hi, -⟩ | ⟨i₀, hi₀, hid, rfl⟩
    · exact h.invited hr i hi horg
    · obtain ⟨i₁, hi₁, hid₁⟩ := h.invited hr i₀ hi₀ horg
      exact ⟨i₁, hi₁, hid₁.trans hid⟩

theorem Contained.insertInvitation (h : Contained org r start db) {i : Invitation}
    (hi : i.organization = org → i.role.rank ≤ r.rank ∧ r ≠ .member) :
    Contained org r start { db with invitations := db.invitations.insert i } := by
  refine ⟨h.exists_org, h.above, ?_, ?_⟩
  · intro j hj horg hpending
    rcases Table.mem_insert.mp hj with hj | rfl
    · exact h.pending j hj horg hpending
    · exact (hi horg).1
  · intro hr j hj horg
    rcases Table.mem_insert.mp hj with hj | rfl
    · exact h.invited hr j hj horg
    · exact absurd hr (hi horg).2

/-- Another organization goes. -/
theorem Contained.deleteOrganization (h : Contained org r start db) {other : Nat}
    (hother : other ≠ org) : Contained org r start (deleteOrganization db other) := by
  refine ⟨?_, ?_, ?_, ?_⟩
  · obtain ⟨o, ho, hid, hname⟩ := h.exists_org
    refine ⟨o, Table.mem_delete.mpr ⟨ho, ?_⟩, hid, hname⟩
    rw [hid]
    simpa using hother.symm
  · intro m hm
    refine Iff.trans ?_ (h.above m hm)
    show m ∈ (db.memberships.delete _).rows ↔ _
    rw [Table.mem_delete]
    refine and_iff_left ?_
    rw [hm.1]
    simpa using hother.symm
  · intro i hi
    exact h.pending i (Table.mem_delete.mp hi).1
  · intro hr i hi
    exact h.invited hr i (Table.mem_delete.mp hi).1

/-- A new organization has a key of its own. -/
theorem Contained.created (h : Contained org r start db) {user : Nat} {name slug : String}
    {now : Int} {o : Row Organization} {db' : Db}
    (hinsert : insertOrganization db user name slug now = .ok (o, db')) :
    Contained org r start db' := by
  obtain ⟨ho, subs, rfl, -⟩ := insertOrganization_eq_ok hinsert
  obtain ⟨o', ho', hid, hname⟩ := h.exists_org
  -- the key of the new organization was never handed out before
  have hne : o.id ≠ org := by
    have hlt := db.organizations.fresh o' ho'
    rw [ho]
    show db.organizations.nextId ≠ org
    omega
  have hmembers := h.insertMembership (m := ⟨user, o.id, .owner, now⟩) (fun horg => absurd horg hne)
  exact ⟨⟨o', Table.mem_insert.mpr (.inl ho'), hid, hname⟩, hmembers.above, h.pending, h.invited⟩

/-- An organization is saved by one of its managers. -/
theorem Contained.saved (h : Contained org r start db) {o : Row Organization} {saved : Organization}
    (ho : o ∈ db.organizations.rows) (hrank : o.id = org → r ≠ .member) :
    Contained org r start
      { db with organizations := db.organizations.modify o.id fun _ => saved } := by
  refine ⟨?_, h.above, h.pending, h.invited⟩
  obtain ⟨o', ho', hid, hname⟩ := h.exists_org
  by_cases hsame : o.id = org
  · obtain rfl := db.organizations.eq_of_id_eq ho' ho (hid.trans hsame.symm)
    exact ⟨⟨o'.id, saved⟩, Table.mem_modify.mpr (.inr ⟨o', ho', rfl, rfl⟩), hid,
      fun hr => absurd hr (hrank hsame)⟩
  · refine ⟨o', Table.mem_modify.mpr (.inl ⟨ho', ?_⟩), hid, hname⟩
    rw [hid]
    exact fun heq => hsame heq.symm

/-- A member at most at `r` goes, or is given a role of at most `r`. -/
theorem Contained.removed (h : Contained org r start db) {target : Row Membership}
    (htarget : target ∈ db.memberships.rows)
    (hrank : target.val.organization = org → target.val.role.rank ≤ r.rank) :
    Contained org r start
      { db with memberships := db.memberships.delete (·.id == target.id) } := by
  refine h.withMemberships fun m hm => ?_
  rw [Table.mem_delete]
  refine and_iff_left_of_imp fun hmem => ?_
  rw [beq_eq_false_iff_ne]
  intro hid
  obtain rfl := db.memberships.eq_of_id_eq hmem htarget hid
  exact absurd (hrank hm.1) (Nat.not_le.mpr hm.2)

theorem Contained.roleSet (h : Contained org r start db) {target : Row Membership} {new : Role}
    (htarget : target ∈ db.memberships.rows)
    (hrank : target.val.organization = org →
      target.val.role.rank ≤ r.rank ∧ new.rank ≤ r.rank) :
    Contained org r start (saveRole db target new) := by
  refine h.withMemberships fun m hm => ?_
  rw [Table.mem_modify]
  constructor
  · rintro (⟨hmem, -⟩ | ⟨s, hs, hid, rfl⟩)
    · exact hmem
    · obtain rfl := db.memberships.eq_of_id_eq hs htarget hid
      exact absurd (hrank hm.1).2 (Nat.not_le.mpr hm.2)
  · intro hmem
    refine .inl ⟨hmem, fun hid => ?_⟩
    obtain rfl := db.memberships.eq_of_id_eq hmem htarget hid
    exact absurd (hrank hm.1).1 (Nat.not_le.mpr hm.2)

end Contained

/-! ## One call, and the run -/

theorem eq_member_of_rank_le {role : Role} (h : role.rank ≤ Role.member.rank) :
    role = .member := by
  cases role with
  | member => rfl
  | owner => exact absurd h (by decide)
  | admin => exact absurd h (by decide)

/-- **What one call keeps contained.** -/
theorem Contained.step {E : Env} {org : Nat} {r : Role} {start db : Db} {c : Call}
    (hr : r ≠ .owner) (h : Contained org r start db) (hc : AtMost start org r c) :
    Contained org r start (c.step E db) := by
  have hchange := c.change E db
  generalize c.step E db = db' at hchange ⊢
  cases hchange with
  | none => exact h
  | created _ _ hinsert => exact h.created hinsert
  | saved hcaller horg hrole hmanager =>
      refine h.saved horg fun heq hmember => ?_
      -- a manager outranks a Member, so where `r` is Member the caller is none
      have hrank := h.rank_le hc hcaller (heq ▸ hrole)
      rw [hmember] at hrank
      rw [eq_member_of_rank_le hrank] at hmanager
      exact absurd hmanager (by decide)
  -- only an Owner deletes, and no caller is one in `org`
  | @destroyed user other hcaller hrole =>
      refine h.deleteOrganization ?_
      rintro rfl
      have hrank := h.rank_le hc hcaller hrole
      cases r with
      | owner => exact hr rfl
      | admin => exact absurd hrank (by decide)
      | member => exact absurd hrank (by decide)
  | removed hcaller htarget hrole hmanage _ =>
      refine h.removed htarget fun heq => ?_
      exact (canManageMember_iff.mp hmanage).2.trans (h.rank_le hc hcaller (heq ▸ hrole))
  | roleSet hcaller htarget hrole hmanage hassign _ =>
      refine h.roleSet htarget fun heq => ?_
      have hrank := h.rank_le hc hcaller (heq ▸ hrole)
      exact ⟨(canManageMember_iff.mp hmanage).2.trans hrank,
        (canAssignRole_iff.mp hassign).2.trans hrank⟩
  | @invited _ o _ _ _ hcaller _ _ hrole hassign _ _ _ _ =>
      refine h.insertInvitation fun (heq : o.id = org) => ?_
      have hrank := h.rank_le hc hcaller (heq ▸ hrole)
      obtain ⟨hmember, hnew⟩ := canAssignRole_iff.mp hassign
      refine ⟨hnew.trans hrank, ?_⟩
      rintro rfl
      exact hmember (eq_member_of_rank_le hrank)
  | expired => exact h.setInvitationStatus _ (by decide)
  | used => exact h.setInvitationStatus _ (by decide)
  -- who joins gets the role of a PENDING invitation
  | joined _ _ hi hstatus _ _ =>
      refine Contained.setInvitationStatus (h.insertMembership fun heq => ?_) _ (by decide)
      exact h.pending _ hi heq hstatus
  | projectCreated => exact h.congr rfl rfl rfl
  | projectSaved => exact h.congr rfl rfl rfl
  | projectDeleted => exact h.congr rfl rfl rfl
  | registered => exact h.congr rfl rfl rfl
  | accountWritten => exact h.congr rfl rfl rfl
  | customer => exact h.congr rfl rfl rfl
  | delivered _ _ hprocess =>
      obtain ⟨-, -, write, -, hdb⟩ := Delivery.process_eq_ok.mp hprocess
      rw [hdb]
      exact h.congr rfl rfl rfl

/-- **No escalation by any coalition over any run.** Let everyone who makes a request hold at the
start no role in `org` or one of at most `r`, Member or Admin, and let no PENDING invitation to `org`
promise more than `r`. Then `org` is still there at the end, the memberships above `r` are those of
the start, each as it was, and where `r` is Member the organization has its name and nobody has been
invited. -/
theorem no_escalation (E : Env) (org : Nat) (r : Role) (hr : r ≠ .owner) (start : Db)
    (calls : List Call) (horg : ∃ o ∈ start.organizations.rows, o.id = org)
    (hcallers : ∀ c ∈ calls, AtMost start org r c)
    (hpending : ∀ i ∈ start.invitations.rows, i.val.organization = org →
      i.val.status = .pending → i.val.role.rank ≤ r.rank) :
    let final := run (Call.step E) start calls
    (∃ o ∈ final.organizations.rows, o.id = org ∧
      (r = .member → ∀ o₀ ∈ start.organizations.rows, o₀.id = org → o.val.name = o₀.val.name)) ∧
    (∀ m, Outranks org r m → (m ∈ final.memberships.rows ↔ m ∈ start.memberships.rows)) ∧
    (r = .member → ∀ i ∈ final.invitations.rows, i.val.organization = org →
      ∃ i₀ ∈ start.invitations.rows, i₀.id = i.id) := by
  intro final
  have h : Contained org r start final :=
    (states_of_each (fun db c h hc => h.step hr hc) (contained_start horg hpending)
      (each_of_mem hcallers start)).last
  exact ⟨h.exists_org, h.above, h.invited⟩

/-! ## An Admin and an outsider -/

/-- Organization 1 with Owner 1 and Admin 2; user 3 is not in it. -/
def acme : Db where
  users := ((Table.empty.insert { email := "a@x.io", password := "" }).insert
    { email := "b@x.io", password := "" }).insert { email := "c@x.io", password := "" }
  organizations := Table.empty.insert ⟨"Acme", "acme", some 1, 0⟩
  memberships := (Table.empty.insert ⟨1, 1, .owner, 0⟩).insert ⟨2, 1, .admin, 0⟩

/-- The Admin invites user 3 as another Admin, who accepts and tries to demote the Owner. -/
def takeover : List Call :=
  let invitation := RequestData.json (.obj [("email", .str "c@x.io"), ("role", .str "admin")])
  let token := RequestData.json (.obj [("token", .str "secret")])
  let demotion := RequestData.json (.obj [("role", .str "member")])
  [⟨some 2, .invite "1" invitation, ⟨0, "secret", true⟩⟩,
   ⟨some 3, .accept token, ⟨1, "", true⟩⟩,
   ⟨some 3, .member "1" "1" (.patch demotion), ⟨2, "", true⟩⟩]

/-- The outsider is in, and the Owner is still what they were. -/
theorem no_escalation_takeover :
    let final := run (Call.step Env.ascii) acme takeover
    memberCount final 1 = 3 ∧ ⟨1, ⟨1, 1, .owner, 0⟩⟩ ∈ final.memberships.rows := by
  intro final
  have hbearer : ∀ c ∈ takeover, c.bearer = some 2 ∨ c.bearer = some 3 := by decide
  have hrank : ∀ m ∈ acme.memberships.rows, m.val.user = 2 ∨ m.val.user = 3 →
      m.val.role.rank ≤ Role.admin.rank := by decide
  have hcallers : ∀ c ∈ takeover, AtMost acme 1 .admin c := by
    intro c hc user huser m hm hmuser _
    refine hrank m hm ?_
    rcases hbearer c hc with h | h
    · exact .inl (hmuser.trans (Option.some.inj (huser.symm.trans h)))
    · exact .inr (hmuser.trans (Option.some.inj (huser.symm.trans h)))
  obtain ⟨-, habove, -⟩ := no_escalation Env.ascii 1 .admin (by decide) acme takeover
    (by decide) hcallers (by decide)
  exact ⟨by decide, (habove _ ⟨rfl, by decide⟩).mpr (by decide)⟩

end Bastiq
