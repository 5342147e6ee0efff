import Bastiq.Models

/-!
# The active organization

`IsOrganizationMember` is the one place where a request gets its organization: the number in the
`X-Organization-ID` header, if the caller has a membership there. Every denial looks the same.
-/

namespace Bastiq

open Relational

def orgIdHeader : String := "X-Organization-ID"

/-- `IsOrganizationMember.message`. -/
def notAMemberMessage : String :=
  "Provide a valid " ++ orgIdHeader ++ " header for an organization you belong to."

/-- The organization a header names: `int(raw)`, when there is a header and it is a number. -/
def headerOrg (header : Option String) : Option Int :=
  match header with
  | none => none
  | some raw => if raw == "" then none else Python.int? raw

/-- The caller's membership row in the organization with key `org`. -/
def membershipIn (db : Db) (user : Nat) (org : Int) : Option (Row Membership) :=
  db.memberships.first? fun m => m.val.user == user && (m.val.organization : Int) == org

/-- `IsOrganizationMember.has_permission` for an authenticated caller: the membership it attaches
to the request, or nothing when access is denied. -/
def isOrganizationMember (db : Db) (user : Nat) (header : Option String) :
    Option (Row Membership) :=
  match headerOrg header with
  | none => none
  | some org => membershipIn db user org

/-- `uniq_user_org`: nobody has two memberships in one organization. -/
def UniqUserOrg (db : Db) : Prop :=
  ∀ m ∈ db.memberships.rows, ∀ m' ∈ db.memberships.rows, m.val.user = m'.val.user →
    m.val.organization = m'.val.organization → m = m'

instance (db : Db) : Decidable (UniqUserOrg db) :=
  inferInstanceAs (Decidable (∀ m ∈ db.memberships.rows, ∀ m' ∈ db.memberships.rows, _ → _ → _))

theorem organization_of_membershipIn {db : Db} {user : Nat} {org : Int} {m : Row Membership}
    (h : membershipIn db user org = some m) : (m.val.organization : Int) = org := by
  have hp := Table.pos_of_first? h
  simp only [Bool.and_eq_true, beq_iff_eq] at hp
  exact hp.2

theorem mem_of_membershipIn {db : Db} {user org : Nat} {m : Row Membership}
    (h : membershipIn db user org = some m) :
    m ∈ db.memberships.rows ∧ m.val.user = user ∧ m.val.organization = org := by
  have hp := Table.pos_of_first? h
  simp only [Bool.and_eq_true, beq_iff_eq] at hp
  exact ⟨Table.mem_of_first? h, hp.1, by omega⟩

theorem membershipIn_eq_none_iff {db : Db} {user org : Nat} :
    membershipIn db user org = none ↔
      ∀ m ∈ db.memberships.rows, m.val.user = user → m.val.organization ≠ org := by
  rw [membershipIn, Table.first?_eq_none_iff]
  refine forall_congr' fun m => forall_congr' fun _ => ?_
  simp only [Bool.and_eq_false_imp, beq_iff_eq, beq_eq_false_iff_ne, ne_eq, Int.natCast_inj]

/-- Where memberships are unique, a membership is the one that is found. -/
theorem UniqUserOrg.membershipIn_eq_some_iff {db : Db} (h : UniqUserOrg db) {user org : Nat}
    {m : Row Membership} : membershipIn db user org = some m ↔
      m ∈ db.memberships.rows ∧ m.val.user = user ∧ m.val.organization = org := by
  constructor
  · exact mem_of_membershipIn
  · rintro ⟨hm, rfl, rfl⟩
    cases hfound : membershipIn db m.val.user m.val.organization with
    | none => exact absurd rfl (membershipIn_eq_none_iff.mp hfound m hm rfl)
    | some m' =>
        obtain ⟨hm', huser, horg⟩ := mem_of_membershipIn hfound
        rw [h m' hm' m hm huser horg]

end Bastiq
