import Bastiq.Organizations.Members

/-!
# What the member endpoint makes of its input

The path of a member request carries two keys. The organization's goes through the framework's
lookup, for which a key that is no number is a 404. The member's goes through Django's own, which
lets the `ValueError` escape. This file follows a request to every one of its exits and finds that
this is the only input it does not handle.
-/

namespace Bastiq

open Relational View

/-! ## Requests and what they should end in -/

/-- A DELETE, or a PATCH with a JSON body. -/
def MemberAction.ofBody : Option Json → MemberAction
  | none => .delete
  | some v => .patch (.json v)

/-- The path names an organization of which the caller is a member. -/
structure CallerIn (db : Db) (user : Nat) (pk : String) (org : Nat) : Prop where
  names  : Python.int? pk = some (org : Int)
  stored : ∃ o ∈ db.organizations.rows, o.id = org
  member : ∃ m, membershipIn db user org = some m

/-- The path names a membership of the organization. -/
structure NamesMember (db : Db) (org : Nat) (memberPk : String) (target : Row Membership) :
    Prop where
  names        : Python.int? memberPk = some (target.id : Int)
  stored       : target ∈ db.memberships.rows
  organization : target.val.organization = org

/-- A request that was handled: it ends in one of five statuses, in a 404 when the path names
nothing the caller may see, and changes at most the row the path names. -/
structure MemberHandled (db : Db) (user : Nat) (pk memberPk : String)
    (out : Response OrganizationPayload × Db) : Prop where
  status  : out.1.status ∈ [200, 204, 400, 403, 404]
  absent  : (∀ org target, CallerIn db user pk org → ¬ NamesMember db org memberPk target) →
    out.1.status = 404
  refused : out.1.status ≠ 200 → out.1.status ≠ 204 → out.2 = db
  written : out.1.status = 200 ∨ out.1.status = 204 → ∃ org target, CallerIn db user pk org ∧
    NamesMember db org memberPk target ∧
      (out.2 = { db with memberships := db.memberships.delete (·.id == target.id) } ∨
        ∃ role, out.2 = saveRole db target role)

/-! ## The lookups -/

section Lookups

variable {β : Type} {db : Db} {user : Nat} {pk memberPk : String}

theorem callerIn_of_getOrganization {org : Row Organization} {role : Role}
    (h : getOrganization (β := β) db user pk = .ok (org, role)) : CallerIn db user pk org.id := by
  obtain ⟨hmem, m, hm, -⟩ := getOrganization_eq_ok h
  obtain ⟨o, hobject, h⟩ := bind_eq_ok.mp h
  obtain ⟨_, -, h⟩ := bind_eq_ok.mp h
  cases h
  exact ⟨int?_of_getObjectOr404 hobject, ⟨org, hmem, rfl⟩, m, hm⟩

theorem getObjectOr404_eq_error {ρ : Type} {model : String} {queryset : List (Row ρ)}
    {r : Response β} (h : getObjectOr404 model queryset pk = .error r) :
    r.status = 404 ∧ ∀ o ∈ queryset, Python.int? pk ≠ some (o.id : Int) := by
  unfold getObjectOr404 at h
  split at h
  · next hpk =>
    cases h
    exact ⟨rfl, fun o _ hid => by simp [hpk] at hid⟩
  · next n hpk =>
    obtain ⟨hnone, hr⟩ := orElse_eq_error.mp h
    rw [← hr]
    refine ⟨rfl, fun o ho hid => ?_⟩
    have hne := List.find?_eq_none.mp hnone o ho
    rw [hpk] at hid
    simp [Option.some.inj hid] at hne

/-- Who is not let in gets a 404. -/
theorem getOrganization_eq_error {r : Response β}
    (h : getOrganization (β := β) db user pk = .error r) :
    r.status = 404 ∧ ∀ org, ¬ CallerIn db user pk org := by
  rcases bind_eq_error.mp h with h | ⟨o, ho, h⟩
  · obtain ⟨hstatus, hnone⟩ := getObjectOr404_eq_error h
    refine ⟨hstatus, fun org hcaller => ?_⟩
    obtain ⟨o, hmem, rfl⟩ := hcaller.stored
    obtain ⟨m, hm⟩ := hcaller.member
    exact hnone o (List.mem_filter.mpr ⟨hmem, by rw [hm]; rfl⟩) hcaller.names
  · -- the queryset has only organizations of the caller
    obtain ⟨-, hmember⟩ := List.mem_filter.mp (getObjectOr404_eq_ok ho)
    rcases bind_eq_error.mp h with h | ⟨m, -, h⟩
    · obtain ⟨hnone, -⟩ := orElse_eq_error.mp h
      simp [hnone] at hmember
    · cases h

theorem namesMember_of_getMember {org : Nat} {target : Row Membership}
    (h : getMember (β := β) db org memberPk = .ok target) :
    NamesMember db org memberPk target := by
  obtain ⟨hmem, horg⟩ := getMember_eq_ok h
  refine ⟨?_, hmem, horg⟩
  unfold getMember at h
  split at h
  · cases h
  · next n hn =>
    have hpos := Table.pos_of_first? (orElse_eq_ok.mp h)
    simp only [Bool.and_eq_true, beq_iff_eq] at hpos
    rw [hn, hpos.2]

/-- A number that names no membership of the organization is a 404, and what is no number is not
handled. -/
theorem getMember_eq_error {org : Nat} {r : Response β}
    (h : getMember (β := β) db org memberPk = .error r) :
    (Python.int? memberPk = none ∧ r = serverError) ∨
      ((Python.int? memberPk).isSome = true ∧ r.status = 404) := by
  unfold getMember at h
  split at h
  · next hn =>
    cases h
    exact .inl ⟨hn, rfl⟩
  · next n hn =>
    obtain ⟨-, hr⟩ := orElse_eq_error.mp h
    rw [← hr, hn]
    exact .inr ⟨rfl, rfl⟩

end Lookups

/-! ## The checks on a target that was found -/

/-- What a request ends in once its target is found. -/
inductive TargetOutcome (db : Db) (target : Row Membership) :
    Response OrganizationPayload × Db → Prop where
  | refused {r : Response OrganizationPayload} (h : r.status = 400 ∨ r.status = 403) :
      TargetOutcome db target (r, db)
  | removed : TargetOutcome db target
      (⟨204, .empty⟩, { db with memberships := db.memberships.delete (·.id == target.id) })
  | changed {r : Response OrganizationPayload} {role : Role} (h : r.status = 200) :
      TargetOutcome db target (r, saveRole db target role)

/-- A JSON body that asks for no role one may assign is a 400 or a 403. -/
theorem patchRole_eq_error {β : Type} {actor : Role} {v : Json} {r : Response β}
    (h : patchRole actor (.json v) = .error r) : r.status = 400 ∨ r.status = 403 := by
  rcases bind_eq_error.mp h with h | ⟨role, -, h⟩
  · left
    rcases bind_eq_error.mp h with h | ⟨fields, -, h⟩
    · simp only [bodyFields] at h
      split at h
      · cases h
      · cases h
        rfl
    · split at h
      · cases h
      · cases h
        rfl
  · right
    rcases bind_eq_error.mp h with h | ⟨_, -, h⟩
    · rw [← (require_eq_error.mp h).2]
      rfl
    · cases h

theorem targetOutcome {db : Db} {user : Nat} {pk memberPk : String} {org : Row Organization}
    {actor : Role} {target : Row Membership}
    (hget : getOrganization (β := OrganizationPayload) db user pk = .ok (org, actor))
    (htarget : getMember (β := OrganizationPayload) db org.id memberPk = .ok target)
    (body : Option Json) :
    TargetOutcome db target
      (perform db (memberRequest db user pk memberPk (.ofBody body))) := by
  cases hmanage : canManageMember actor target.val.role with
  | false =>
      have hview : memberRequest db user pk memberPk (.ofBody body) =
          .error (forbidden cannotManageMessage) := by
        simp only [memberRequest, hget, htarget, ok_bind, hmanage, require, Bool.false_eq_true,
          if_false, error_bind]
      rw [hview]
      exact .refused (.inr rfl)
  | true =>
      cases body with
      | none =>
          cases hlast : isLastOwner db target with
          | true =>
              have hview : memberRequest db user pk memberPk (.ofBody none) =
                  .error (badRequest "Cannot remove the last owner of the organization.") := by
                simp only [memberRequest, MemberAction.ofBody, hget, htarget, ok_bind, hmanage,
                  require, hlast, if_true, Bool.not_true, Bool.false_eq_true, if_false, error_bind]
              rw [hview]
              exact .refused (.inl rfl)
          | false =>
              -- the model's own guard asks the same question again, and has the same answer
              have hview : memberRequest db user pk memberPk (.ofBody none) =
                  .ok (⟨204, .empty⟩,
                    { db with memberships := db.memberships.delete (·.id == target.id) }) := by
                simp only [memberRequest, MemberAction.ofBody, hget, htarget, ok_bind, hmanage,
                  require, hlast, if_true, Bool.not_false, deleteMembership, deleteRefused_eq]
              rw [hview]
              exact .removed
      | some v =>
          have hview : memberRequest db user pk memberPk (.ofBody (some v)) = (do
              let new ← patchRole actor (.json v)
              require (!(target.val.role == .owner && new != .owner && isLastOwner db target))
                (badRequest "Cannot demote the last owner of the organization.")
              let saved : Row Membership := ⟨target.id, { target.val with role := new }⟩
              .ok (⟨200, .data (.membership (Membership.serialize db saved))⟩,
                saveRole db target new)) := by
            simp only [memberRequest, MemberAction.ofBody, hget, htarget, ok_bind, hmanage, require,
              if_true]
          rw [hview]
          cases hrole : patchRole (β := OrganizationPayload) actor (.json v) with
          | error r => exact .refused (patchRole_eq_error hrole)
          | ok new =>
              simp only [ok_bind, require]
              split
              · exact .changed rfl
              · exact .refused (.inl rfl)

/-! ## Every input -/

/-- A request whose target is found is handled. -/
theorem TargetOutcome.handled {db : Db} {user org : Nat} {pk memberPk : String}
    {target : Row Membership} {out : Response OrganizationPayload × Db}
    (h : TargetOutcome db target out) (hcaller : CallerIn db user pk org)
    (htarget : NamesMember db org memberPk target) : MemberHandled db user pk memberPk out := by
  have hnamed : ¬ ∀ org target, CallerIn db user pk org → ¬ NamesMember db org memberPk target :=
    fun hnone => hnone org target hcaller htarget
  cases h with
  | @refused r h =>
      have hwrite : ¬ (r.status = 200 ∨ r.status = 204) := by omega
      refine ⟨?_, fun hnone => absurd hnone hnamed, fun _ _ => rfl, fun hw => absurd hw hwrite⟩
      rcases h with h | h <;> simp [h]
  | removed =>
      refine ⟨by simp, fun hnone => absurd hnone hnamed, fun _ h => absurd rfl h, fun _ => ?_⟩
      exact ⟨org, target, hcaller, htarget, .inl rfl⟩
  | @changed r role h =>
      refine ⟨by simp [h], fun hnone => absurd hnone hnamed, fun hne => absurd h hne, fun _ => ?_⟩
      exact ⟨org, target, hcaller, htarget, .inr ⟨role, rfl⟩⟩

/-- A 404 that changes nothing is handled. -/
theorem handled_of_notFound {db : Db} {user : Nat} {pk memberPk : String}
    {r : Response OrganizationPayload} (h : r.status = 404) :
    MemberHandled db user pk memberPk (r, db) := by
  refine ⟨by simp [h], fun _ => h, fun _ _ => rfl, fun hw => ?_⟩
  simp [h] at hw

/-- **Which inputs the member endpoint handles.** For every database, caller, pair of keys and JSON
body, a PATCH or DELETE is handled exactly when the caller is no member of the organization its path
names, or the key of the member spells a number. -/
theorem member_request_handled_iff (db : Db) (user : Nat) (pk memberPk : String)
    (body : Option Json) :
    MemberHandled db user pk memberPk
        (perform db (memberRequest db user pk memberPk (.ofBody body))) ↔
      (∀ org, ¬ CallerIn db user pk org) ∨ (Python.int? memberPk).isSome = true := by
  cases hget : getOrganization (β := OrganizationPayload) db user pk with
  | error r =>
      obtain ⟨hstatus, hnone⟩ := getOrganization_eq_error hget
      have hview : memberRequest db user pk memberPk (.ofBody body) = .error r := by
        simp only [memberRequest, hget, error_bind]
      rw [hview]
      exact iff_of_true (handled_of_notFound hstatus) (.inl hnone)
  | ok out =>
      obtain ⟨org, actor⟩ := out
      have hcaller := callerIn_of_getOrganization hget
      cases htarget : getMember (β := OrganizationPayload) db org.id memberPk with
      | ok target =>
          have hnames := namesMember_of_getMember htarget
          refine iff_of_true ((targetOutcome hget htarget body).handled hcaller hnames) (.inr ?_)
          rw [hnames.names]
          rfl
      | error r =>
          have hview : memberRequest db user pk memberPk (.ofBody body) = .error r := by
            simp only [memberRequest, hget, htarget, ok_bind, error_bind]
          rw [hview]
          rcases getMember_eq_error htarget with ⟨hn, rfl⟩ | ⟨hn, hstatus⟩
          · refine iff_of_false (fun h => absurd h.status (by simp [serverError])) ?_
            rintro (hnone | hsome)
            · exact hnone org.id hcaller
            · rw [hn] at hsome
              cases hsome
          · exact iff_of_true (handled_of_notFound hstatus) (.inr hn)

/-- An Owner who names a member by a word gets a 500. -/
theorem member_request_raises_on_word :
    let db : Db :=
      { organizations := Table.empty.insert ⟨"Acme", "acme", some 1, 0⟩
        memberships := Table.empty.insert ⟨1, 1, .owner, 0⟩ }
    ¬ MemberHandled db 1 "1" "abc" (perform db (memberRequest db 1 "1" "abc" (.ofBody none))) := by
  intro db h
  exact absurd h.status (by decide)

end Bastiq
