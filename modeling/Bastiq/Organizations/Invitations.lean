import Bastiq.Accounts.Email
import Bastiq.Organizations.Views

/-!
# Invitations

An invitation reserves a seat for an e-mail address at a role; accepting its token turns the seat
into a membership. This file has requests that run alone, so neither the lock on the billing row
nor the one on the invitation row shows.
-/

namespace Bastiq

open Relational View

/-! ## Inviting -/

def invitationRole : ChoiceField Role := { choices := Role.choices, default := some .member }

/-- `InvitationCreateSerializer.is_valid(raise_exception=True)`. -/
def validateInvitation {β : Type} (E : Env) (data : RequestData) : View β (String × Role) := do
  let fields ← bodyFields data
  let email := (emailField E (fields.lookup "email")).andThen fun e => .value (normalizeEmail E e)
  let role := invitationRole.run (fields.lookup "role")
  match email, role with
  | .value email, .value role => .ok (email, role)
  | _, _ => .error (invalid (email.named "email" ++ role.named "role"))

/-- `Membership.objects.filter(organization=org, user__email__iexact=email).exists()`. -/
def hasMember (E : Env) (db : Db) (org : Nat) (email : String) : Bool :=
  db.memberships.any fun m => m.val.organization == org &&
    (db.users.get? m.val.user).any fun u => E.iexact u.val.email email

/-- `org.invitations.filter(email__iexact=email, status=PENDING).exists()`. -/
def hasPending (E : Env) (db : Db) (org : Nat) (email : String) : Bool :=
  db.invitations.any fun i => pendingFor org i && E.iexact i.val.email email

def alreadyMemberMessage : String := "That user is already a member of this organization."

def alreadyPendingMessage : String := "An invitation is already pending for that email."

/-- The row a POST inserts. -/
def newInvitation (E : Env) (org user : Nat) (email : String) (role : Role) (A : Ambient) :
    Invitation where
  organization := org
  email        := email
  role         := role
  token        := A.nonce
  status       := .pending
  invitedBy    := some user
  createdAt    := A.now
  expiresAt    := A.now + E.invitationTimeoutDays * 86400

/-- `Invitation.objects.create`: the e-mail must fit its column, and the token must be new. -/
def insertInvitation {β : Type} (db : Db) (i : Invitation) : View β Db := do
  require (fits 254 i.email && !db.invitations.any (·.val.token == i.token)) serverError
  .ok { db with invitations := db.invitations.insert i }

/-- What a POST checks before it opens its transaction. -/
def invitationParams {β : Type} (E : Env) (role : Role) (data : RequestData) :
    View β (String × Role) := do
  require (managerRoles.contains role)
    (forbidden "Only an owner or admin can manage invitations.")
  let (email, new) ← validateInvitation E data
  require (canAssignRole role new)
    (forbidden "You can't invite someone at a role higher than your own.")
  .ok (email, new)

/-- **`OrganizationViewSet.invitations`, POST.** The invitation is committed before the e-mail task
is handed to the broker, so a broker that does not answer makes the request a 500 that leaves it
behind. -/
def inviteMember (E : Env) (db : Db) (user : Nat) (pk : String) (data : RequestData) (A : Ambient) :
    OrganizationView := do
  let (org, role) ← getOrganization db user pk
  let (email, new) ← invitationParams E role data
  require (!hasMember E db org.id email) (badRequest alreadyMemberMessage)
  require (!hasPending E db org.id email) (badRequest alreadyPendingMessage)
  checkCanInviteMember db org.id
  let i := newInvitation E org.id user email new A
  let after ← insertInvitation db i
  if A.brokerIsUp then
    .ok (⟨201, .data (.invitation (Invitation.serialize ⟨db.invitations.nextId, i⟩))⟩, after)
  else .ok (serverError, after)

/-! ## Accepting -/

def invitationToken : CharField := {}

/-- `InvitationAcceptSerializer.is_valid(raise_exception=True)`. -/
def validateToken {β : Type} (data : RequestData) : View β String := do
  let fields ← bodyFields data
  match invitationToken.run false (fields.lookup "token") with
  | .value token => .ok token
  | result => .error (invalid (result.named "token"))

/-- `InvitationAcceptView._INVALID`. -/
def invalidTokenMessage : String := "This invitation is invalid or has already been used."

/-- `invitation.save(update_fields=["status"])`. -/
def setInvitationStatus (db : Db) (id : Nat) (status : InvitationStatus) : Db :=
  { db with invitations := db.invitations.modify id fun i => { i with status := status } }

/-- `Membership.objects.create`. -/
def insertMembership (db : Db) (m : Membership) : Db :=
  { db with memberships := db.memberships.insert m }

/-- `Membership.objects.get_or_create(user=..., organization=..., defaults={"role": ...})`. -/
def getOrCreateMembership (db : Db) (user org : Nat) (role : Role) (now : Int) :
    Row Membership × Db :=
  match membershipIn db user org with
  | some m => (m, db)
  | none =>
      let m : Membership := ⟨user, org, role, now⟩
      (⟨db.memberships.nextId, m⟩, insertMembership db m)

/-- The invitation under a token. -/
def invitationByToken (db : Db) (token : String) : Option (Row Invitation) :=
  db.invitations.first? (·.val.token == token)

/-- **`InvitationAcceptView.post`.** An expired invitation is marked so and the request is refused;
the mark stays. -/
def acceptInvitation (E : Env) (db : Db) (user : Row User) (data : RequestData) (now : Int) :
    OrganizationView := do
  let token ← validateToken data
  let i ← orElse (invitationByToken db token) (badRequest invalidTokenMessage)
  require (i.val.status == .pending) (badRequest invalidTokenMessage)
  if i.val.isExpired now then
    .ok (badRequest "This invitation has expired.", setInvitationStatus db i.id .expired)
  else
    require (E.iexact user.val.email i.val.email) (badRequest invalidTokenMessage)
    let (m, db) := getOrCreateMembership db user.id i.val.organization i.val.role now
    let after := setInvitationStatus db i.id .accepted
    .ok (⟨200, .data (.membership (Membership.serialize after m))⟩, after)

/-! ## What they leave behind -/

theorem invitationParams_eq_ok {β : Type} {E : Env} {role new : Role} {data : RequestData}
    {email : String} (h : invitationParams (β := β) E role data = .ok (email, new)) :
    canAssignRole role new = true := by
  obtain ⟨_, -, h⟩ := bind_eq_ok.mp h
  obtain ⟨⟨e, r⟩, -, h⟩ := bind_eq_ok.mp h
  obtain ⟨_, hassign, h⟩ := bind_eq_ok.mp h
  cases h
  exact require_eq_ok.mp hassign

theorem insertInvitation_eq_ok {β : Type} {db db' : Db} {i : Invitation} :
    insertInvitation (β := β) db i = .ok db' ↔
      fits 254 i.email = true ∧ (∀ j ∈ db.invitations.rows, j.val.token ≠ i.token) ∧
        db' = { db with invitations := db.invitations.insert i } := by
  have hnew : (!db.invitations.any (·.val.token == i.token)) = true ↔
      ∀ j ∈ db.invitations.rows, j.val.token ≠ i.token := by
    rw [Bool.not_eq_true', Table.any_eq_false_iff]
    simp
  constructor
  · intro h
    obtain ⟨_, hfree, h⟩ := bind_eq_ok.mp h
    cases h
    have hfree := require_eq_ok.mp hfree
    rw [Bool.and_eq_true, hnew] at hfree
    exact ⟨hfree.1, hfree.2, rfl⟩
  · rintro ⟨hfits, htoken, rfl⟩
    simp [insertInvitation, require, hfits, hnew.mpr htoken]

section

variable {E : Env} {db db' : Db} {user : Nat} {pk : String} {data : RequestData} {A : Ambient}
  {r : Response OrganizationPayload}

/-- An invitation that every check of a POST lets through, and the database takes. -/
structure InvitationDue (E : Env) (db : Db) (user : Nat) (pk : String) (data : RequestData)
    (A : Ambient) (org : Row Organization) (actor : Role) (email : String) (new : Role) :
    Prop where
  sender  : getOrganization (β := OrganizationPayload) db user pk = .ok (org, actor)
  fields  : invitationParams (β := OrganizationPayload) E actor data = .ok (email, new)
  member  : hasMember E db org.id email = false
  pending : hasPending E db org.id email = false
  room    : below (memberCount db org.id + pendingCount db org.id)
    (limit db org.id "max_members") = true
  width   : fits 254 email = true
  token   : ∀ j ∈ db.invitations.rows, j.val.token ≠ A.nonce

/-- **When a POST to the invitations does not raise.** The row is stored then, and the answer is
the broker's to decide. -/
theorem inviteMember_eq_ok :
    inviteMember E db user pk data A = .ok (r, db') ↔
      ∃ org actor email new, InvitationDue E db user pk data A org actor email new ∧
        db' = { db with
          invitations := db.invitations.insert (newInvitation E org.id user email new A) } ∧
        r = if A.brokerIsUp then
            ⟨201, .data (.invitation (Invitation.serialize
              ⟨db.invitations.nextId, newInvitation E org.id user email new A⟩))⟩
          else serverError := by
  constructor
  · intro h
    obtain ⟨⟨org, actor⟩, hget, h⟩ := bind_eq_ok.mp h
    obtain ⟨⟨email, new⟩, hparams, h⟩ := bind_eq_ok.mp h
    obtain ⟨_, hmember, h⟩ := bind_eq_ok.mp h
    obtain ⟨_, hpending, h⟩ := bind_eq_ok.mp h
    obtain ⟨_, hcap, h⟩ := bind_eq_ok.mp h
    obtain ⟨after, hinsert, h⟩ := bind_eq_ok.mp h
    obtain ⟨hwidth, htoken, hafter⟩ := insertInvitation_eq_ok.mp hinsert
    refine ⟨org, actor, email, new, ⟨hget, hparams, by simpa using require_eq_ok.mp hmember,
      by simpa using require_eq_ok.mp hpending, checkCanInviteMember_eq_ok.mp hcap, hwidth,
      htoken⟩, ?_⟩
    split at h
    · next hbroker =>
      cases h
      exact ⟨hafter, (if_pos hbroker).symm⟩
    · next hbroker =>
      cases h
      exact ⟨hafter, (if_neg hbroker).symm⟩
  · rintro ⟨org, actor, email, new, h, rfl, rfl⟩
    have hcap : checkCanInviteMember (β := OrganizationPayload) db org.id = .ok () :=
      checkCanInviteMember_eq_ok.mpr h.room
    have hinsert := (insertInvitation_eq_ok (β := OrganizationPayload)
      (i := newInvitation E org.id user email new A)).mpr ⟨h.width, h.token, rfl⟩
    simp only [inviteMember, h.sender, h.fields, h.member, h.pending, hcap, hinsert, ok_bind,
      require, Bool.not_false, if_true]
    cases A.brokerIsUp with
    | true => rfl
    | false => rfl

/-- **What a POST to the invitations can leave behind**: one PENDING invitation more, at a role its
sender may grant, for an address with neither a member nor a PENDING invitation, below the cap. -/
theorem inviteMember_cases (h : inviteMember E db user pk data A = .ok (r, db')) :
    ∃ org ∈ db.organizations.rows, ∃ actor email new,
      (∃ m, membershipIn db user org.id = some m ∧ m.val.role = actor) ∧
      canAssignRole actor new = true ∧
      hasMember E db org.id email = false ∧ hasPending E db org.id email = false ∧
      below (memberCount db org.id + pendingCount db org.id) (limit db org.id "max_members") =
        true ∧
      (∀ j ∈ db.invitations.rows, j.val.token ≠ A.nonce) ∧
      db' = { db with
        invitations := db.invitations.insert (newInvitation E org.id user email new A) } := by
  obtain ⟨org, actor, email, new, hdue, hdb, -⟩ := inviteMember_eq_ok.mp h
  obtain ⟨hmem, hm⟩ := getOrganization_eq_ok hdue.sender
  exact ⟨org, hmem, actor, email, new, hm, invitationParams_eq_ok hdue.fields, hdue.member,
    hdue.pending, hdue.room, hdue.token, hdb⟩

/-- An invitation that is sent is answered 201, if its e-mail task is taken. -/
theorem inviteMember_status (h : inviteMember E db user pk data A = .ok (r, db')) :
    r.status = if A.brokerIsUp then 201 else 500 := by
  obtain ⟨org, actor, email, new, -, -, rfl⟩ := inviteMember_eq_ok.mp h
  cases A.brokerIsUp with
  | true => rfl
  | false => rfl

end

/-- A membership that is not there can be added. -/
theorem UniqUserOrg.insert {db : Db} (h : UniqUserOrg db) {m : Membership}
    (hnew : membershipIn db m.user m.organization = none) : UniqUserOrg (insertMembership db m) := by
  have hnew := membershipIn_eq_none_iff.mp hnew
  intro r hr r' hr' huser horg
  rcases Table.mem_insert.mp hr with hr | rfl
  · rcases Table.mem_insert.mp hr' with hr' | rfl
    · exact h r hr r' hr' huser horg
    · exact absurd horg (hnew r hr huser)
  · rcases Table.mem_insert.mp hr' with hr' | rfl
    · exact absurd horg.symm (hnew r' hr' huser.symm)
    · rfl

theorem getOrCreateMembership_eq (db : Db) (user org : Nat) (role : Role) (now : Int) :
    ((∃ m, membershipIn db user org = some m) ∧
        (getOrCreateMembership db user org role now).2 = db) ∨
      (membershipIn db user org = none ∧
        (getOrCreateMembership db user org role now).2 =
          insertMembership db ⟨user, org, role, now⟩) := by
  unfold getOrCreateMembership
  split
  · next m hm => exact .inl ⟨⟨m, hm⟩, rfl⟩
  · next hm => exact .inr ⟨hm, rfl⟩

/-- **What accepting can leave behind.** A PENDING invitation becomes EXPIRED, or it becomes
ACCEPTED and its user has a membership: the one they had, or a new one at the invitation's role. -/
theorem acceptInvitation_cases {E : Env} {db : Db} {user : Row User} {data : RequestData}
    {now : Int} {r : Response OrganizationPayload} {db' : Db}
    (h : acceptInvitation E db user data now = .ok (r, db')) :
    ∃ i ∈ db.invitations.rows, i.val.status = .pending ∧
      (db' = setInvitationStatus db i.id .expired ∨
        (E.lower user.val.email = E.lower i.val.email ∧
          ((∃ m, membershipIn db user.id i.val.organization = some m) ∧
              db' = setInvitationStatus db i.id .accepted ∨
            membershipIn db user.id i.val.organization = none ∧
              db' = setInvitationStatus
                (insertMembership db ⟨user.id, i.val.organization, i.val.role, now⟩) i.id
                .accepted))) := by
  obtain ⟨token, -, h⟩ := bind_eq_ok.mp h
  obtain ⟨i, hi, h⟩ := bind_eq_ok.mp h
  obtain ⟨_, hstatus, h⟩ := bind_eq_ok.mp h
  refine ⟨i, Table.mem_of_first? (orElse_eq_ok.mp hi), by simpa using require_eq_ok.mp hstatus, ?_⟩
  split at h
  · cases h; exact .inl rfl
  · obtain ⟨_, hemail, h⟩ := bind_eq_ok.mp h
    refine .inr ⟨Env.iexact_iff.mp (require_eq_ok.mp hemail), ?_⟩
    have hdb : setInvitationStatus
        (getOrCreateMembership db user.id i.val.organization i.val.role now).2 i.id .accepted = db' :=
      congrArg Prod.snd (Except.ok.inj h)
    rcases getOrCreateMembership_eq db user.id i.val.organization i.val.role now with
      ⟨hm, heq⟩ | ⟨hm, heq⟩
    · exact .inl ⟨hm, by rw [← hdb, heq]⟩
    · exact .inr ⟨hm, by rw [← hdb, heq]⟩

end Bastiq
