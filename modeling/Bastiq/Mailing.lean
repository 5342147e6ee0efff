import Bastiq.Organizations.Reinvite
import Bastiq.Api

/-!
# Requests that store a row and then send an e-mail

Two requests hand an e-mail task to the broker after their row is committed: a POST to the
invitations and a registration. A broker that does not answer makes either of them a 500 that keeps
its row. The sender cannot tell this from a request that failed, and when they send it again it is
refused as a duplicate.
-/

namespace Bastiq

open Relational View

/-! ## The two requests -/

inductive Mailing where
  | invite (bearer : Option Nat) (pk : String) (data : RequestData)
  | register (data : RequestData)

/-- The request as a call. Who registers is not signed in. -/
def Mailing.call (A : Ambient) : Mailing → Call
  | .invite bearer pk data => ⟨bearer, .invite pk data, A⟩
  | .register data => ⟨none, .register data, A⟩

/-- Every check of the request lets it through, and the database takes its row. -/
def Mailing.Due (E : Env) (db : Db) (A : Ambient) : Mailing → Prop
  | .invite bearer pk data => ∃ caller, authenticate db bearer = some caller ∧
      ∃ org actor email new, InvitationDue E db caller.id pk data A org actor email new
  | .register data => ∃ reg, RegistrationDue E db data reg

/-- The two tables are as they were. -/
def SameRows (db db' : Db) : Prop :=
  db'.invitations = db.invitations ∧ db'.users = db.users

/-- An answer other than 201 has stored nothing. -/
def AllOrNothing (db : Db) (out : Nat × Db) : Prop := out.1 ≠ 201 → SameRows db out.2

/-! ## What each of them does -/

section

variable {E : Env} {db : Db} {A : Ambient}

/-- A request that is due stores its row, whatever the broker says; the broker decides what it is
answered. -/
theorem Mailing.respond_of_due {m : Mailing} (h : m.Due E db A) :
    ((m.call A).respond E db).1 = (if A.brokerIsUp then 201 else 500) ∧
      ¬ SameRows db ((m.call A).respond E db).2 := by
  cases m with
  | invite bearer pk data =>
      obtain ⟨caller, hcaller, org, actor, email, new, hdue⟩ := h
      have hview := inviteMember_eq_ok.mpr ⟨org, actor, email, new, hdue, rfl, rfl⟩
      have hstatus := inviteMember_status hview
      simp only [Mailing.call, Call.respond, authenticated, hcaller, hview, perform_ok]
      exact ⟨hstatus, fun hsame => Table.insert_ne _ _ hsame.1⟩
  | register data =>
      obtain ⟨reg, hdue⟩ := h
      obtain ⟨⟨r, after⟩, hview⟩ := hdue.exists_register (A := A)
      obtain ⟨reg, user, -, hcreate, rfl⟩ := register_eq_ok.mp hview
      obtain ⟨rfl, -⟩ := createUser_eq_ok hcreate
      simp only [Mailing.call, Call.respond, hview, perform_ok]
      refine ⟨?_, fun hsame => Table.insert_ne _ _ hsame.2⟩
      cases A.brokerIsUp with
      | true => rfl
      | false => rfl

/-- A request that is not due leaves the database as it was. -/
theorem Mailing.respond_of_not_due {m : Mailing} (h : ¬ m.Due E db A) :
    ((m.call A).respond E db).2 = db := by
  cases m with
  | invite bearer pk data =>
      simp only [Mailing.call, Call.respond, authenticated]
      cases hcaller : authenticate db bearer with
      | none => rfl
      | some caller =>
          cases hview : inviteMember E db caller.id pk data A with
          | error r => simp [hview]
          | ok out =>
              obtain ⟨org, actor, email, new, hdue, -⟩ := inviteMember_eq_ok.mp hview
              exact absurd ⟨caller, hcaller, org, actor, email, new, hdue⟩ h
  | register data =>
      simp only [Mailing.call, Call.respond]
      cases hview : Bastiq.register E db data A with
      | error r => rfl
      | ok out =>
          obtain ⟨reg, user, hdue, -⟩ := register_eq_ok.mp hview
          exact absurd ⟨reg, hdue⟩ h

/-- An invitation whose row was stored is refused when it is sent again, by then as a duplicate. -/
theorem inviteMember_again {user : Nat} {pk : String} {data : RequestData} {org : Row Organization}
    {actor new : Role} {email : String}
    (h : InvitationDue E db user pk data A org actor email new) (A' : Ambient) :
    let i := newInvitation E org.id user email new A
    inviteMember E { db with invitations := db.invitations.insert i } user pk data A' =
      .error (badRequest alreadyPendingMessage) := by
  intro i
  -- the organization, its members and the body are read from what the first request left alone
  have hsender : getOrganization (β := OrganizationPayload)
      { db with invitations := db.invitations.insert i } user pk = .ok (org, actor) := h.sender
  have hmember : hasMember E { db with invitations := db.invitations.insert i } org.id email =
      false := h.member
  have hpending : hasPending E { db with invitations := db.invitations.insert i } org.id email =
      true := by
    rw [hasPending, Table.any, List.any_eq_true]
    refine ⟨_, Table.mem_insert.mpr (.inr rfl), ?_⟩
    simp [i, newInvitation, pendingFor, Env.iexact]
  simp only [inviteMember, hsender, h.fields, hmember, hpending, ok_bind, error_bind, require,
    Bool.not_false, Bool.not_true, Bool.false_eq_true, if_true, if_false]

end

/-! ## All or nothing -/

/-- **When a request that fails has stored nothing.** For every database, caller, body and outcome
of handing over the task: exactly when the broker takes it, or the request is refused by one of its
checks or by the database before it comes to that. -/
theorem mailing_all_or_nothing_iff (E : Env) (db : Db) (m : Mailing) (A : Ambient) :
    AllOrNothing db ((m.call A).respond E db) ↔ A.brokerIsUp = true ∨ ¬ m.Due E db A := by
  by_cases hdue : m.Due E db A
  · obtain ⟨hstatus, hstored⟩ := Mailing.respond_of_due hdue
    cases hbroker : A.brokerIsUp with
    | true =>
        rw [hbroker, if_pos rfl] at hstatus
        exact iff_of_true (fun hne => absurd hstatus hne) (.inl rfl)
    | false =>
        simp only [hbroker, Bool.false_eq_true, if_false] at hstatus
        refine iff_of_false (fun h => hstored (h (by omega))) ?_
        simp [hdue]
  · refine iff_of_true (fun _ => ?_) (.inr hdue)
    rw [Mailing.respond_of_not_due hdue]
    exact ⟨rfl, rfl⟩

/-- With the broker down, an invitation and a registration are answered 500 and keep their rows;
with the broker back, the same requests are refused. -/
theorem broker_down_leaves_rows :
    let down : Ambient := ⟨0, "n", false⟩
    let up : Ambient := ⟨1, "m", true⟩
    let invite := Mailing.invite (some 1) "1" (inviteBody "b@x.io")
    let register := Mailing.register
      (.json (.obj [("email", .str "a@x.io"), ("password", .str "longenough")]))
    (¬ AllOrNothing (invitedTo []) ((invite.call down).respond Env.ascii (invitedTo [])) ∧
        ((invite.call up).respond Env.ascii
          ((invite.call down).step Env.ascii (invitedTo []))).1 = 400) ∧
      ¬ AllOrNothing Db.migrated ((register.call down).respond Env.ascii Db.migrated) ∧
        ((register.call up).respond Env.ascii
          ((register.call down).step Env.ascii Db.migrated)).1 = 400 := by
  intro down up invite register
  refine ⟨⟨fun h => ?_, by decide⟩, fun h => ?_, by decide⟩
  · have hsame := congrArg Table.nextId (h (by decide)).1
    exact absurd hsame (by decide)
  · have hsame := congrArg Table.nextId (h (by decide)).2
    exact absurd hsame (by decide)

end Bastiq
