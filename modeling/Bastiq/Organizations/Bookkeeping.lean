import Bastiq.Organizations.InviteRace

/-!
# Who is invited, and who is a member

One request after another, starting from what the migrations leave. Nobody is invited twice, nobody
who is a member is invited, and nobody is a member twice: the three hold together (`Booked`).
Whoever accepts an invitation takes the seat it had. So an organization asks for one seat more only
when an invitation is sent, and then there is one.
-/

namespace Bastiq

open Relational Transition

/-- The books of all organizations are right. -/
structure Booked (E : Env) (db : Db) : Prop where
  distinct : ∀ org, DistinctPending E org db
  /-- nobody who is a member is invited -/
  free     : ∀ org, ∀ inv ∈ db.invitations.rows, pendingFor org inv = true →
    hasMember E db org inv.val.email = false
  uniq     : UniqUserOrg db
  known    : ∀ m ∈ db.memberships.rows, ∃ u ∈ db.users.rows, u.id = m.val.user
  founded  : ∀ m ∈ db.memberships.rows, m.val.organization < db.organizations.nextId
  placed   : ∀ inv ∈ db.invitations.rows, inv.val.organization < db.organizations.nextId

theorem booked_migrated (E : Env) : Booked E Db.migrated := by
  constructor
  · intro org inv hinv
    cases hinv
  · intro org inv hinv
    cases hinv
  · intro m hm
    cases hm
  · intro m hm
    cases hm
  · intro m hm
    cases hm
  · intro inv hinv
    cases hinv

section Members

variable {E : Env} {db db' : Db}

theorem hasMember_eq_false_iff {org : Nat} {email : String} :
    hasMember E db org email = false ↔
      ∀ m ∈ db.memberships.rows, m.val.organization = org →
        ∀ u, db.users.get? m.val.user = some u → E.lower u.val.email ≠ E.lower email := by
  rw [hasMember, Table.any_eq_false_iff]
  refine forall_congr' fun m => forall_congr' fun _ => ?_
  rw [Bool.and_eq_false_iff, beq_eq_false_iff_ne, ← imp_iff_not_or]
  refine imp_congr_right fun _ => ?_
  cases db.users.get? m.val.user with
  | none => simp
  | some u => simp [Env.iexact]

/-- Everybody who is a member or invited in `after` is so in `before`, under the same address. -/
structure AddsNobody (before after : Db) : Prop where
  members : ∀ m' ∈ after.memberships.rows, ∃ m ∈ before.memberships.rows, m.id = m'.id ∧
    m.val.user = m'.val.user ∧ m.val.organization = m'.val.organization
  invited : ∀ inv ∈ after.invitations.rows, inv ∈ before.invitations.rows
  emails  : ∀ id, (∃ u ∈ before.users.rows, u.id = id) →
    ∃ u u', before.users.get? id = some u ∧ after.users.get? id = some u' ∧
      u'.val.email = u.val.email
  orgs    : before.organizations.nextId ≤ after.organizations.nextId
  keys    : before.invitations.nextId ≤ after.invitations.nextId

/-- Users who are not touched have the address they had. -/
theorem emails_of_users_eq (husers : db'.users = db.users) (id : Nat)
    (hid : ∃ u ∈ db.users.rows, u.id = id) : ∃ u u', db.users.get? id = some u ∧
      db'.users.get? id = some u' ∧ u'.val.email = u.val.email := by
  obtain ⟨u, hu, rfl⟩ := hid
  have hget : db.users.get? u.id = some u := Table.get?_eq_some_iff.mpr ⟨hu, rfl⟩
  rw [husers]
  exact ⟨u, u, hget, hget, rfl⟩

/-- Users, members, invitations and the keys of organizations are the same. -/
theorem AddsNobody.of_eq (husers : db'.users = db.users)
    (hmembers : db'.memberships = db.memberships)
    (hinvites : db'.invitations = db.invitations)
    (horgs : db'.organizations.nextId = db.organizations.nextId) : AddsNobody db db' := by
  constructor
  · intro m hm
    rw [hmembers] at hm
    exact ⟨m, hm, rfl, rfl, rfl⟩
  · rw [hinvites]
    exact fun inv hinv => hinv
  · exact emails_of_users_eq husers
  · exact horgs.ge
  · rw [hinvites]

theorem AddsNobody.hasMember (h : AddsNobody db db')
    (hknown : ∀ m ∈ db.memberships.rows, ∃ u ∈ db.users.rows, u.id = m.val.user) {org : Nat}
    {email : String} (hfree : hasMember E db org email = false) :
    Bastiq.hasMember E db' org email = false := by
  rw [hasMember_eq_false_iff] at hfree ⊢
  intro m' hm' horg u' hu'
  obtain ⟨m, hm, -, huser, hmorg⟩ := h.members m' hm'
  obtain ⟨u, u₁, hu, hu₁, hemail⟩ := h.emails _ (hknown m hm)
  rw [huser, hu'] at hu₁
  obtain rfl := Option.some.inj hu₁
  rw [hemail]
  exact hfree m hm (hmorg.trans horg) u hu

theorem Booked.of_addsNobody (h : Booked E db) (hadds : AddsNobody db db') : Booked E db' := by
  constructor
  · intro org inv hinv other hother hpend hpend' heq
    exact h.distinct org inv (hadds.invited inv hinv) other (hadds.invited other hother) hpend
      hpend' heq
  · intro org inv hinv hpend
    exact hadds.hasMember h.known (h.free org inv (hadds.invited inv hinv) hpend)
  · intro m₁ hm₁ m₂ hm₂ huser horg
    obtain ⟨n₁, hn₁, hid₁, huser₁, horg₁⟩ := hadds.members m₁ hm₁
    obtain ⟨n₂, hn₂, hid₂, huser₂, horg₂⟩ := hadds.members m₂ hm₂
    have heq : n₁ = n₂ := h.uniq n₁ hn₁ n₂ hn₂ (by rw [huser₁, huser₂, huser])
      (by rw [horg₁, horg₂, horg])
    apply db'.memberships.eq_of_id_eq hm₁ hm₂
    rw [← hid₁, ← hid₂, heq]
  · intro m' hm'
    obtain ⟨m, hm, -, huser, -⟩ := hadds.members m' hm'
    obtain ⟨u, u', -, hu', -⟩ := hadds.emails _ (h.known m hm)
    exact ⟨u', Table.mem_of_get? hu', (Table.id_of_get? hu').trans huser⟩
  · intro m' hm'
    obtain ⟨m, hm, -, -, horg⟩ := hadds.members m' hm'
    rw [← horg]
    exact (h.founded m hm).trans_le hadds.orgs
  · intro inv hinv
    exact (h.placed inv (hadds.invited inv hinv)).trans_le hadds.orgs

theorem AddsNobody.seats_le (h : AddsNobody db db') (org : Nat) : seats db' org ≤ seats db org := by
  have hmembers : memberCount db' org ≤ memberCount db org := by
    apply Table.count_le_of_ids
    intro m' hm' horg
    obtain ⟨m, hm, hid, -, heq⟩ := h.members m' hm'
    refine ⟨m, hm, ?_, hid⟩
    rw [heq]
    exact horg
  have hinvites : pendingCount db' org ≤ pendingCount db org := by
    apply Table.count_le_of_ids
    intro inv hinv hpend
    exact ⟨inv, h.invited inv hinv, hpend, rfl⟩
  unfold seats
  omega

/-! ### What adds nobody -/

theorem addsNobody_delete (pm : Row Membership → Bool) (pi : Row Invitation → Bool)
    (hmembers : db'.memberships = db.memberships.delete pm)
    (hinvites : db'.invitations = db.invitations.delete pi) (husers : db'.users = db.users)
    (horgs : db'.organizations.nextId = db.organizations.nextId) : AddsNobody db db' := by
  constructor
  · intro m hm
    rw [hmembers] at hm
    exact ⟨m, (Table.mem_delete.mp hm).1, rfl, rfl, rfl⟩
  · intro inv hinv
    rw [hinvites] at hinv
    exact (Table.mem_delete.mp hinv).1
  · exact emails_of_users_eq husers
  · exact horgs.ge
  · rw [hinvites]
    exact Nat.le_refl _

theorem addsNobody_deleteOrganization (db : Db) (org : Nat) :
    AddsNobody db (deleteOrganization db org) :=
  addsNobody_delete _ _ rfl rfl rfl rfl

theorem addsNobody_removed (db : Db) (id : Nat) :
    AddsNobody db { db with memberships := db.memberships.delete (·.id == id) } := by
  refine ⟨?_, fun _ hinv => hinv, emails_of_users_eq rfl, Nat.le_refl _, Nat.le_refl _⟩
  intro m hm
  exact ⟨m, (Table.mem_delete.mp hm).1, rfl, rfl, rfl⟩

theorem addsNobody_saveRole (db : Db) (target : Row Membership) (role : Role) :
    AddsNobody db (saveRole db target role) := by
  refine ⟨?_, fun _ hinv => hinv, emails_of_users_eq rfl, Nat.le_refl _, Nat.le_refl _⟩
  intro m' hm'
  rcases Table.mem_modify.mp hm' with ⟨hm, -⟩ | ⟨m, hm, hid, rfl⟩
  · exact ⟨m', hm, rfl, rfl, rfl⟩
  · exact ⟨m, hm, hid, rfl, rfl⟩

/-- A new account is nobody's member yet. -/
theorem addsNobody_registered (db : Db) (user : User) :
    AddsNobody db { db with users := db.users.insert user } := by
  refine ⟨fun m hm => ⟨m, hm, rfl, rfl, rfl⟩, fun _ hinv => hinv, ?_, Nat.le_refl _,
    Nat.le_refl _⟩
  rintro id ⟨u, hu, rfl⟩
  -- whoever had an account keeps it
  refine ⟨u, u, Table.get?_eq_some_iff.mpr ⟨hu, rfl⟩, ?_, rfl⟩
  exact Table.get?_eq_some_iff.mpr ⟨Table.mem_insert.mpr (.inl hu), rfl⟩

/-- An account keeps its address. -/
theorem addsNobody_accountWritten (db : Db) (user : Nat) (w : AccountWrite) :
    AddsNobody db { db with users := db.users.modify user w.apply } := by
  refine ⟨fun m hm => ⟨m, hm, rfl, rfl, rfl⟩, fun _ hinv => hinv, ?_, Nat.le_refl _,
    Nat.le_refl _⟩
  rintro id ⟨u, hu, rfl⟩
  have hget : db.users.get? u.id = some u := Table.get?_eq_some_iff.mpr ⟨hu, rfl⟩
  by_cases hid : u.id = user
  · refine ⟨u, ⟨user, w.apply u.val⟩, hget, ?_, w.apply_email u.val⟩
    exact Table.get?_eq_some_iff.mpr ⟨Table.mem_modify.mpr (.inr ⟨u, hu, hid, rfl⟩), hid.symm⟩
  · refine ⟨u, u, hget, ?_, rfl⟩
    exact Table.get?_eq_some_iff.mpr ⟨Table.mem_modify.mpr (.inl ⟨hu, hid⟩), rfl⟩

end Members

/-! ## What adds somebody -/

section Adds

variable {E : Env} {db : Db}

/-- The other organizations have the seats they had. -/
theorem seats_insertOrganization {user : Nat} {name slug : String} {now : Int}
    {o : Row Organization} {db' : Db}
    (hinsert : insertOrganization db user name slug now = .ok (o, db')) {org : Nat}
    (horg : org < db.organizations.nextId) : seats db' org = seats db org := by
  obtain ⟨ho, subs, rfl, -⟩ := insertOrganization_eq_ok hinsert
  let m : Membership := ⟨user, o.id, .owner, now⟩
  have hne : m.organization ≠ org := by
    show o.id ≠ org
    rw [ho]
    exact Nat.ne_of_gt horg
  have hcount := memberCount_insert db m org
  rw [if_neg hne] at hcount
  exact congrArg (· + pendingCount db org) hcount

/-- Whoever founds an organization is its first member. -/
theorem Booked.created (h : Booked E db) {user : Nat} {name slug : String} {now : Int}
    {o : Row Organization} {db' : Db} (huser : ∃ u ∈ db.users.rows, u.id = user)
    (hinsert : insertOrganization db user name slug now = .ok (o, db')) : Booked E db' := by
  obtain ⟨ho, subs, hdb, -⟩ := insertOrganization_eq_ok hinsert
  have hid : o.id = db.organizations.nextId := by rw [ho]
  let m : Membership := ⟨user, o.id, .owner, now⟩
  have hmembers : db'.memberships = (insertMembership db m).memberships := by rw [hdb]; rfl
  have husers : db'.users = (insertMembership db m).users := by rw [hdb]; rfl
  have hinvites : db'.invitations = db.invitations := by rw [hdb]
  have horgs : db'.organizations.nextId = db.organizations.nextId + 1 := by rw [hdb]; rfl
  -- no membership is of an organization that is yet to come
  have hnew : membershipIn db m.user m.organization = none := by
    apply membershipIn_eq_none_iff.mpr
    intro r hr _ heq
    have hlt := h.founded r hr
    have heq : r.val.organization = o.id := heq
    omega
  constructor
  · intro org
    unfold DistinctPending
    rw [hinvites]
    exact h.distinct org
  · intro org inv hinv hpend
    rw [hinvites] at hinv
    -- nobody is invited to the new organization yet
    have hother : m.organization ≠ org := by
      have hlt := h.placed inv hinv
      simp only [pendingFor, Bool.and_eq_true, beq_iff_eq] at hpend
      show o.id ≠ org
      omega
    have hmember : hasMember E (insertMembership db m) org inv.val.email =
        (hasMember E db org inv.val.email || (m.organization == org &&
          (db.users.get? m.user).any fun u => E.iexact u.val.email inv.val.email)) :=
      hasMember_insert m inv.val.email
    rw [h.free org inv hinv hpend, beq_false_of_ne hother, Bool.false_and, Bool.or_false] at hmember
    unfold hasMember at hmember ⊢
    rw [hmembers, husers]
    exact hmember
  · have huniq := h.uniq.insert hnew
    unfold UniqUserOrg at huniq ⊢
    rw [hmembers]
    exact huniq
  · intro r hr
    rw [hmembers] at hr
    rw [husers]
    rcases Table.mem_insert.mp hr with hr | rfl
    · exact h.known r hr
    · exact huser
  · intro r hr
    rw [hmembers] at hr
    rw [horgs]
    rcases Table.mem_insert.mp hr with hr | rfl
    · exact Nat.lt_succ_of_lt (h.founded r hr)
    · show o.id < _
      omega
  · intro inv hinv
    rw [hinvites] at hinv
    rw [horgs]
    exact Nat.lt_succ_of_lt (h.placed inv hinv)

/-- An invitation is to an address that is free. -/
theorem Booked.invited (h : Booked E db) {new : Invitation} (hpending : new.status = .pending)
    (horg : new.organization < db.organizations.nextId)
    (hmember : hasMember E db new.organization new.email = false)
    (hfree : hasPending E db new.organization new.email = false) :
    Booked E { db with invitations := db.invitations.insert new } := by
  constructor
  · intro org
    apply (distinctPending_insert_iff (h.distinct org) hpending).mpr
    rintro rfl
    exact hfree
  · intro org inv hinv hpend
    rcases (pendingFor_insert hpending).mp ⟨hinv, hpend⟩ with ⟨hinv, hpend⟩ | ⟨rfl, rfl⟩
    · exact h.free org inv hinv hpend
    · exact hmember
  · exact h.uniq
  · exact h.known
  · exact h.founded
  · intro inv hinv
    rcases Table.mem_insert.mp hinv with hinv | rfl
    · exact h.placed inv hinv
    · exact horg

variable {inv : Row Invitation} {joins : Option Membership} {status : InvitationStatus}

/-- Accepting takes the seat of the invitation, and nobody else was invited under the address. -/
theorem Booked.accepted (h : Booked E db) (hinv : inv ∈ db.invitations.rows)
    (hpending : inv.val.status = .pending) (hstatus : status ≠ .pending)
    (hjoins : ∀ m ∈ joins, JoinsBy E db inv m)
    (hnew : ∀ m ∈ joins, membershipIn db m.user m.organization = none) :
    Booked E (commitAccept db inv joins status) := by
  constructor
  · intro org
    exact (h.distinct org).accepted hstatus
  · intro org
    -- the commit is a safe one, since PENDING invitations are to different addresses
    have hkept : SeatsKept E org (seats db org) db := ⟨Int.le_refl _, h.free org⟩
    refine ((seatsKept_commitAccept_iff hkept hinv hpending hstatus hjoins).mpr ?_).2
    intro horg other hother hpend hne heq
    have hinvpend : pendingFor org inv = true := by
      simp [pendingFor, hpending, organization_of_joinsOrg hjoins horg]
    exact hne (h.distinct org inv hinv other hother hinvpend hpend heq).symm
  · cases joins with
    | none => exact h.uniq
    | some m => exact h.uniq.insert (hnew m rfl)
  · intro m hm
    rw [(commitAccept_frame _ _ _ _).1]
    cases joins with
    | none => exact h.known m hm
    | some new =>
        rcases Table.mem_insert.mp hm with hm | rfl
        · exact h.known m hm
        · obtain ⟨-, u, hu, -⟩ := hjoins new rfl
          exact ⟨u, Table.mem_of_get? hu, Table.id_of_get? hu⟩
  · intro m hm
    cases joins with
    | none => exact h.founded m hm
    | some new =>
        rcases Table.mem_insert.mp hm with hm | rfl
        · exact h.founded m hm
        · obtain ⟨horg, -⟩ := hjoins new rfl
          show new.organization < _
          rw [horg]
          exact h.placed inv hinv
  · intro other hother
    rw [invitations_commitAccept] at hother
    have hplaced : other.val.organization < db.organizations.nextId := by
      rcases Table.mem_modify.mp hother with ⟨hother, -⟩ | ⟨i, hi, -, rfl⟩
      · exact h.placed other hother
      · exact h.placed i hi
    cases joins <;> exact hplaced

end Adds

/-! ## One call after another -/

/-- The call sends an invitation to `org`, and there is a seat for it. -/
structure SendsInvitation (E : Env) (org : Nat) (db : Db) (c : Call) : Prop where
  request : ∃ pk data, c.request = .invite pk data
  sent    : ∃ new : Invitation, new.organization = org ∧ new.status = .pending ∧
    c.step E db = { db with invitations := db.invitations.insert new }
  room    : below (seats db org) (limit db org "max_members") = true

section Run

variable {E : Env} {db : Db} {c : Call}

/-- What a call does to the books. -/
inductive BookChange (E : Env) (c : Call) (db : Db) : Db → Prop where
  | nobody {db' : Db} (hadds : AddsNobody db db') : BookChange E c db db'
  | founded {user : Nat} {name slug : String} {o : Row Organization} {db' : Db}
      (huser : ∃ u ∈ db.users.rows, u.id = user)
      (hinsert : insertOrganization db user name slug c.ambient.now = .ok (o, db')) :
      BookChange E c db db'
  | invited {new : Invitation} (hrequest : ∃ pk data, c.request = .invite pk data)
      (hcaller : ∃ user role, c.bearer = some user ∧ HasRole db user new.organization role ∧
        role ≠ .member)
      (hpending : new.status = .pending) (horg : new.organization < db.organizations.nextId)
      (hmember : hasMember E db new.organization new.email = false)
      (hfree : hasPending E db new.organization new.email = false)
      (hroom : below (seats db new.organization) (limit db new.organization "max_members") = true) :
      BookChange E c db { db with invitations := db.invitations.insert new }
  | answered {inv : Row Invitation} {joins : Option Membership} {status : InvitationStatus}
      (hinv : inv ∈ db.invitations.rows) (hpending : inv.val.status = .pending)
      (hstatus : status = .accepted ∨ status = .expired ∧ joins = none)
      (hjoins : ∀ m ∈ joins, JoinsBy E db inv m)
      (hnew : ∀ m ∈ joins, membershipIn db m.user m.organization = none) :
      BookChange E c db (commitAccept db inv joins status)

/-- Nobody joins by it. -/
theorem bookChange_unjoined {inv : Row Invitation} {status : InvitationStatus}
    (hinv : inv ∈ db.invitations.rows) (hpending : inv.val.status = .pending)
    (hstatus : status = .accepted ∨ status = .expired) :
    BookChange E c db (setInvitationStatus db inv.id status) := by
  have hanswered : BookChange E c db (commitAccept db inv none status) := by
    refine .answered hinv hpending (hstatus.imp_right fun h => ⟨h, rfl⟩) ?_ ?_
    · intro m hm
      cases hm
    · intro m hm
      cases hm
  exact hanswered

theorem Call.bookChange (E : Env) (c : Call) (db : Db) : BookChange E c db (c.step E db) := by
  have hchange := c.change E db
  generalize c.step E db = db' at hchange ⊢
  cases hchange with
  | created _ huser hinsert => exact .founded huser hinsert
  | destroyed => exact .nobody (addsNobody_deleteOrganization _ _)
  | removed => exact .nobody (addsNobody_removed _ _)
  | roleSet => exact .nobody (addsNobody_saveRole _ _ _)
  | @invited user org actor new email hcaller hrequest horg hrole hassign hmember hpending hroom _ =>
      have hmanager := (canAssignRole_iff.mp hassign).1
      exact .invited hrequest ⟨user, actor, hcaller, hrole, hmanager⟩ rfl
        (db.organizations.fresh org horg) hmember hpending hroom
  | expired hi hstatus => exact bookChange_unjoined hi hstatus (.inr rfl)
  | used _ _ hi hstatus => exact bookChange_unjoined hi hstatus (.inl rfl)
  | @joined user i _ huser hi hstatus hemail hmember =>
      let m : Membership := ⟨user.id, i.val.organization, i.val.role, c.ambient.now⟩
      have hanswered : BookChange E c db (commitAccept db i (some m) .accepted) := by
        refine .answered hi hstatus (.inl rfl) ?_ ?_
        · intro m' hm'
          cases hm'
          exact ⟨rfl, user, Table.get?_eq_some_iff.mpr ⟨huser, rfl⟩, hemail⟩
        · intro m' hm'
          cases hm'
          exact hmember
      exact hanswered
  | registered => exact .nobody (addsNobody_registered db _)
  | accountWritten => exact .nobody (addsNobody_accountWritten db _ _)
  | delivered _ _ hprocess =>
      obtain ⟨-, -, write, -, rfl⟩ := Delivery.process_eq_ok.mp hprocess
      exact .nobody (.of_eq rfl rfl rfl rfl)
  | _ => exact .nobody (.of_eq rfl rfl rfl rfl)

/-- An invitation that is answered is PENDING no more. -/
theorem ne_pending_of_answered {joins : Option Membership} {status : InvitationStatus}
    (h : status = .accepted ∨ status = .expired ∧ joins = none) : status ≠ .pending := by
  rcases h with rfl | ⟨rfl, -⟩
  · simp
  · simp

theorem Booked.of_bookChange (h : Booked E db) {db' : Db} (hchange : BookChange E c db db') :
    Booked E db' := by
  cases hchange with
  | nobody hadds => exact h.of_addsNobody hadds
  | founded huser hinsert => exact h.created huser hinsert
  | invited _ _ hpending horg hmember hfree _ => exact h.invited hpending horg hmember hfree
  | answered hinv hpending hstatus hjoins hnew =>
      exact h.accepted hinv hpending (ne_pending_of_answered hstatus) hjoins hnew

theorem Booked.step (h : Booked E db) (c : Call) : Booked E (c.step E db) :=
  h.of_bookChange (c.bookChange E db)

/-- No organization that is there has more seats than before a call, unless the call sends an
invitation to it. -/
theorem Call.seats_step (E : Env) (c : Call) {o : Row Organization}
    (ho : o ∈ db.organizations.rows) :
    seats (c.step E db) o.id ≤ seats db o.id ∨ SendsInvitation E o.id db c := by
  have hchange := c.bookChange E db
  generalize hdb' : c.step E db = db' at hchange ⊢
  cases hchange with
  | nobody hadds => exact .inl (hadds.seats_le o.id)
  | founded huser hinsert =>
      exact .inl (seats_insertOrganization hinsert (db.organizations.fresh o ho)).le
  | @invited new hrequest _ hpending _ _ _ hroom =>
      have hcount := pendingCount_insert db hpending o.id
      by_cases hid : new.organization = o.id
      · rw [hid] at hroom
        exact .inr ⟨hrequest, ⟨new, hid, hpending, hdb'⟩, hroom⟩
      · left
        rw [if_neg hid] at hcount
        exact Nat.add_le_add_left hcount.le (memberCount db o.id)
  | answered hinv hpending hstatus hjoins =>
      exact .inl (seats_commitAccept_le hinv hpending (ne_pending_of_answered hstatus) hjoins o.id)

/-- A POST that leaves an invitation behind is answered 201, if its e-mail task is taken. -/
theorem SendsInvitation.answer {org : Nat} (h : SendsInvitation E org db c)
    (hbroker : c.ambient.brokerIsUp = true) : (c.respond E db).1 = 201 := by
  obtain ⟨pk, data, hrequest⟩ := h.request
  obtain ⟨new, -, -, hsent⟩ := h.sent
  have hchanged : c.step E db ≠ db := by
    rw [hsent]
    intro heq
    exact Table.insert_ne _ _ (congrArg Db.invitations heq)
  unfold Call.step at hchanged
  simp only [Call.respond, hrequest, authenticated] at hchanged ⊢
  cases hcaller : authenticate db c.bearer with
  | none =>
      rw [hcaller] at hchanged
      exact absurd rfl hchanged
  | some user =>
      rw [hcaller] at hchanged
      cases hview : inviteMember E db user.id pk data c.ambient with
      | error r =>
          simp only [hview, View.perform_error] at hchanged
          exact absurd rfl hchanged
      | ok out =>
          have hstatus := inviteMember_status hview
          rw [if_pos hbroker] at hstatus
          simpa only [hview, View.perform_ok] using hstatus

/-- **The books stay right.** In every run from a migrated database no organization has two PENDING
invitations to one address or one to a member of it, and nobody has two memberships in it; and a
call leaves an organization with more members and PENDING invitations only where it sends an
invitation to it while they are below the cap. It is answered 201 then, if its e-mail task is
taken. -/
theorem seats_grow_by_invitation (E : Env) (calls : List Call) :
    States (Call.step E) (fun db => (∀ org, DistinctPending E org db) ∧
      (∀ org, ∀ inv ∈ db.invitations.rows, pendingFor org inv = true →
        hasMember E db org inv.val.email = false) ∧ UniqUserOrg db) Db.migrated calls ∧
    Each (Call.step E) (fun db c => ∀ o ∈ db.organizations.rows,
      seats db o.id < seats (c.step E db) o.id → SendsInvitation E o.id db c ∧
        (c.ambient.brokerIsUp = true → (c.respond E db).1 = 201)) Db.migrated calls := by
  constructor
  · have hbooked : States (Call.step E) (Booked E) Db.migrated calls := by
      apply states_of_step
      · intro db c hdb
        exact hdb.step c
      · exact booked_migrated E
    exact hbooked.mono fun db hdb => ⟨hdb.distinct, hdb.free, hdb.uniq⟩
  -- that seats are only taken by an invitation holds in any state
  · apply each_of_forall
    intro db c o ho hgrows
    rcases c.seats_step E ho with hle | hsends
    · exact absurd hgrows (Nat.not_lt.mpr hle)
    · exact ⟨hsends, hsends.answer⟩

end Run

/-! ## A broker that does not answer -/

/-- User 1 registers and creates organization 1. -/
def foundsOrganization : List Call :=
  [⟨none, .register (.json (.obj [("email", .str "a@x.io"), ("password", .str "long enough")])),
      ⟨0, "salt", true⟩⟩,
    ⟨some 1, .organization (.create (.json (.obj [("name", .str "Acme")]))), ⟨0, "", true⟩⟩]

/-- User 1 invites while the broker is down. -/
def invitesUnheard : Call :=
  ⟨some 1, .invite "1" (.json (.obj [("email", .str "b@x.io")])), ⟨0, "secret", false⟩⟩

/-- The POST is answered 500, and the invitation is there. -/
theorem invitation_outlives_failure :
    let db := run (Call.step Env.ascii) Db.migrated foundsOrganization
    (invitesUnheard.respond Env.ascii db).1 = 500 ∧
      ¬ Each (Call.step Env.ascii) (fun db c => ∀ o ∈ db.organizations.rows,
        seats db o.id < seats (c.step Env.ascii db) o.id →
          (∃ pk data, c.request = .invite pk data) ∧ (c.respond Env.ascii db).1 = 201 ∧
            below (seats db o.id) (limit db o.id "max_members") = true)
        Db.migrated (foundsOrganization ++ [invitesUnheard]) := by
  intro db
  refine ⟨by decide, fun h => ?_⟩
  obtain ⟨-, -, hpost, -⟩ := h
  have hgrows := hpost ⟨1, "Acme", "acme", some 1, 0⟩ (by decide) (by decide)
  exact absurd hgrows.2.1 (by decide)

end Bastiq
