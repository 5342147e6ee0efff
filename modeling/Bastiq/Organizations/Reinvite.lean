import Bastiq.Organizations.Invitations

/-!
# Inviting again after an expiry

An invitation expires with the clock, but its row stays PENDING until somebody presents its token.
The accept path asks `is_expired`. The checks of a POST ask for the status alone, so an invitation
nobody can accept any more still blocks its address and still holds its seat.
-/

namespace Bastiq

open Relational View

/-- The PENDING invitations of `org` that can still be accepted at `now`. -/
def livePendingCount (db : Db) (org : Nat) (now : Int) : Nat :=
  db.invitations.count fun i => pendingFor org i && !i.val.isExpired now

section

variable {E : Env} {db : Db} {user : Nat} {pk : String} {data : RequestData} {A : Ambient}
  {org : Row Organization} {role new : Role} {email : String}

/-- **When an invitation is created**, once its sender and its fields are accepted and the address is
no member's: every check that follows counts PENDING rows, whatever the clock says. -/
theorem inviteMember_created_iff
    (horg : getOrganization (β := OrganizationPayload) db user pk = .ok (org, role))
    (hparams : invitationParams (β := OrganizationPayload) E role data = .ok (email, new))
    (hmember : hasMember E db org.id email = false) :
    let out := perform db (inviteMember E db user pk data A)
    (out.1.status = 201 ∧
        out.2.invitations = db.invitations.insert (newInvitation E org.id user email new A)) ↔
      hasPending E db org.id email = false ∧
        below (memberCount db org.id + pendingCount db org.id) (limit db org.id "max_members") =
          true ∧
        fits 254 email = true ∧ (∀ j ∈ db.invitations.rows, j.val.token ≠ A.nonce) ∧
        A.brokerIsUp = true := by
  intro out
  constructor
  · rintro ⟨hstatus, hstored⟩
    cases hview : inviteMember E db user pk data A with
    | error r =>
        -- a view that raises has stored nothing
        simp only [out, hview, perform_error] at hstored
        exact absurd hstored.symm (Table.insert_ne _ _)
    | ok answer =>
        obtain ⟨org', actor, email', new', hdue, -, hanswer⟩ := inviteMember_eq_ok.mp hview
        cases horg.symm.trans hdue.sender
        cases hparams.symm.trans hdue.fields
        refine ⟨hdue.pending, hdue.room, hdue.width, hdue.token, ?_⟩
        simp only [out, hview, perform_ok, hanswer] at hstatus
        by_contra hbroker
        simp [hbroker, serverError] at hstatus
  · rintro ⟨hpending, hroom, hwidth, htoken, hbroker⟩
    have hdue : InvitationDue E db user pk data A org role email new :=
      ⟨horg, hparams, hmember, hpending, hroom, hwidth, htoken⟩
    have hview := inviteMember_eq_ok.mpr ⟨org, role, email, new, hdue, rfl, rfl⟩
    simp [out, hview, hbroker]

end

/-- At `now` nothing stands in the way of inviting an address but what has expired: no member has
it, no PENDING invitation for it is live, and members and live invitations leave a seat. -/
structure OnlyExpired (E : Env) (db : Db) (org : Nat) (email : String) (now : Int) : Prop where
  member  : hasMember E db org email = false
  pending : ∀ i ∈ db.invitations.rows, pendingFor org i = true →
    E.iexact i.val.email email = true → i.val.isExpired now = true
  room    : below (memberCount db org + livePendingCount db org now)
    (limit db org "max_members") = true

/-- **Expired invitations block and hold seats.** An Owner or Admin sends a well-formed POST for an
address, at a role they may assign, when only expired invitations are in the way. The invitation is
created and answered 201 exactly when none is in the way at all: no PENDING row for the address is
stored, whatever its `expires_at`, all PENDING rows together leave a seat, and the new row can be
stored and its e-mail task handed over. -/
theorem reinvite_iff {E : Env} {db : Db} {user : Nat} {pk : String} {data : RequestData}
    {A : Ambient} {org : Row Organization} {role new : Role} {email : String}
    (horg : getOrganization (β := OrganizationPayload) db user pk = .ok (org, role))
    (hparams : invitationParams (β := OrganizationPayload) E role data = .ok (email, new))
    (h : OnlyExpired E db org.id email A.now) :
    let out := perform db (inviteMember E db user pk data A)
    (out.1.status = 201 ∧
        out.2.invitations = db.invitations.insert (newInvitation E org.id user email new A)) ↔
      (∀ i ∈ db.invitations.rows, pendingFor org.id i = true → E.iexact i.val.email email = false) ∧
        below (memberCount db org.id + pendingCount db org.id) (limit db org.id "max_members") =
          true ∧
        fits 254 email = true ∧ (∀ j ∈ db.invitations.rows, j.val.token ≠ A.nonce) ∧
        A.brokerIsUp = true := by
  intro out
  have hnone : hasPending E db org.id email = false ↔
      ∀ i ∈ db.invitations.rows, pendingFor org.id i = true →
        E.iexact i.val.email email = false := by
    rw [hasPending, Table.any_eq_false_iff]
    refine forall_congr' fun i => forall_congr' fun _ => ?_
    cases pendingFor org.id i <;> simp
  rw [← hnone]
  exact inviteMember_created_iff horg hparams h.member

/-- Organization 1 with its Owner, and invitations that expire at time 1000. -/
def invitedTo (emails : List String) : Db where
  users := Table.empty.insert { email := "a@x.io", password := "" }
  organizations := Table.empty.insert ⟨"Acme", "acme", some 1, 0⟩
  memberships := Table.empty.insert ⟨1, 1, .owner, 0⟩
  invitations := emails.foldl
    (fun rows email => rows.insert ⟨1, email, .member, email, .pending, some 1, 0, 1000⟩) .empty

def inviteBody (email : String) : RequestData := .json (.obj [("email", .str email)])

instance (E : Env) (db : Db) (org : Nat) (email : String) (now : Int) :
    Decidable (OnlyExpired E db org email now) :=
  decidable_of_iff (hasMember E db org email = false ∧
      (∀ i ∈ db.invitations.rows, pendingFor org i = true →
        E.iexact i.val.email email = true → i.val.isExpired now = true) ∧
      below (memberCount db org + livePendingCount db org now) (limit db org "max_members") = true)
    ⟨fun h => ⟨h.1, h.2.1, h.2.2⟩, fun h => ⟨h.member, h.pending, h.room⟩⟩

/-- After its invitation has expired, an address cannot be invited; and two that have expired
leave no seat for a third. -/
theorem expired_invitation_blocks :
    let A : Ambient := ⟨2000, "fresh", true⟩
    let invite db email := perform db (inviteMember Env.ascii db 1 "1" (inviteBody email) A)
    (OnlyExpired Env.ascii (invitedTo ["b@x.io"]) 1 "b@x.io" 2000 ∧
      (invite (invitedTo ["b@x.io"]) "b@x.io").1.status = 400) ∧
    OnlyExpired Env.ascii (invitedTo ["b@x.io", "c@x.io"]) 1 "d@x.io" 2000 ∧
      (invite (invitedTo ["b@x.io", "c@x.io"]) "d@x.io").1.status = 402 := by
  decide

theorem reinvite_iff_other_address :
    (perform (invitedTo ["b@x.io"]) (inviteMember Env.ascii (invitedTo ["b@x.io"]) 1 "1"
      (inviteBody "d@x.io") ⟨2000, "fresh", true⟩)).1.status = 201 := by
  have horg : getOrganization (β := OrganizationPayload) (invitedTo ["b@x.io"]) 1 "1" =
      .ok (⟨1, "Acme", "acme", some 1, 0⟩, .owner) := rfl
  have hparams : invitationParams (β := OrganizationPayload) Env.ascii .owner
      (inviteBody "d@x.io") = .ok ("d@x.io", .member) := rfl
  exact ((reinvite_iff (A := ⟨2000, "fresh", true⟩) horg hparams (by decide)).mpr
    (by decide)).1

end Bastiq
