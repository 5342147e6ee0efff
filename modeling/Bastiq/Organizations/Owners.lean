import Bastiq.Api
import Bastiq.Organizations.MemberRace

/-!
# Every organization keeps an Owner

One request after another, starting from what the migrations leave. An organization is founded with
its Owner, and the two writes that can take an Owner away are guarded; accepting an invitation only
adds members, and what goes with a deleted organization was its own. The endpoint's guard and the one
in `Membership.delete` agree, so the second never raises.
-/

namespace Bastiq

open Relational Transition View

/-- Every organization has an Owner. -/
def HaveOwners (db : Db) : Prop := ∀ o ∈ db.organizations.rows, HasOwner o.id db

section Change

variable {db db' : Db}

/-- No organization is new, and the members are the same. -/
theorem HaveOwners.congr (h : HaveOwners db) (hmembers : db'.memberships = db.memberships)
    (horgs : ∀ o' ∈ db'.organizations.rows, ∃ o ∈ db.organizations.rows, o.id = o'.id) :
    HaveOwners db' := by
  intro o' ho'
  obtain ⟨o, ho, hid⟩ := horgs o' ho'
  have howner := h o ho
  unfold HasOwner ownerCount at howner ⊢
  rw [hmembers, ← hid]
  exact howner

theorem HasOwner.insert {org : Nat} (h : HasOwner org db) (m : Membership) :
    HasOwner org (insertMembership db m) := by
  unfold HasOwner at h ⊢
  have hcount : ownerCount (insertMembership db m) org = ownerCount db org + _ :=
    db.memberships.count_insert m (ownerOf org)
  omega

/-- Whoever founds an organization is its Owner. -/
theorem HaveOwners.created (h : HaveOwners db) {user : Nat} {name slug : String} {now : Int}
    {o : Row Organization} (hinsert : insertOrganization db user name slug now = .ok (o, db')) :
    HaveOwners db' := by
  obtain ⟨ho, subs, rfl, -⟩ := insertOrganization_eq_ok hinsert
  intro o' ho'
  rcases Table.mem_insert.mp ho' with ho' | hnew
  · have hinsert : HasOwner o'.id (insertMembership db ⟨user, o.id, .owner, now⟩) :=
      (h o' ho').insert _
    exact hinsert
  · have hid : o'.id = o.id := by rw [hnew, ho]
    rw [hid]
    apply Table.count_pos_iff.mpr
    exact ⟨⟨db.memberships.nextId, user, o.id, .owner, now⟩, Table.mem_insert.mpr (.inr rfl),
      by simp [ownerOf]⟩

/-- With an organization go its own members only. -/
theorem HaveOwners.destroyed (h : HaveOwners db) (org : Nat) :
    HaveOwners (deleteOrganization db org) := by
  intro o ho
  obtain ⟨ho, hne⟩ := Table.mem_delete.mp ho
  have hcount : ownerCount (deleteOrganization db org) o.id = ownerCount db o.id := by
    refine Table.count_delete_of_disjoint _ fun m _ hm => ?_
    simp only [ownerOf, Bool.and_eq_true, beq_iff_eq] at hm
    rw [hm.1]
    exact hne
  unfold HasOwner
  rw [hcount]
  exact h o ho

/-- A guarded write leaves an Owner. -/
theorem HaveOwners.write (h : HaveOwners db) {target : Row Membership}
    (htarget : target ∈ db.memberships.rows) (new : Option Role)
    (hguard : target.val.role = .owner → demotes new = true → isLastOwner db target = false) :
    HaveOwners (writeMember db target new) := by
  intro o ho
  have ho : o ∈ db.organizations.rows := by
    cases new with
    | none => exact ho
    | some new => exact ho
  have hget : db.memberships.get? target.id = some target :=
    Table.get?_eq_some_iff.mpr ⟨htarget, rfl⟩
  -- the guard asks about the target's own organization, the others keep their Owners
  apply (hasOwner_write hget (h o ho)).mpr
  intro howner hdemotes
  simp only [ownerOf, Bool.and_eq_true, beq_iff_eq] at howner
  exact hguard howner.2 hdemotes

end Change

/-- **One call** leaves every organization with an Owner. -/
theorem HaveOwners.step {E : Env} {db : Db} (h : HaveOwners db) (c : Call) :
    HaveOwners (c.step E db) := by
  have hchange := c.change E db
  generalize c.step E db = db' at hchange ⊢
  have hsame : ∀ {db' : Db}, db'.memberships = db.memberships →
      db'.organizations = db.organizations → HaveOwners db' := by
    intro db' hmembers horgs
    refine h.congr hmembers fun o ho => ⟨o, ?_, rfl⟩
    rw [← horgs]
    exact ho
  cases hchange with
  | created _ _ hinsert => exact h.created hinsert
  -- a rename keeps the key
  | saved =>
      refine h.congr rfl fun o' ho' => ?_
      obtain ⟨o, ho, rfl⟩ := Table.mem_update.mp ho'
      exact ⟨o, ho, (Table.setRow_id ..).symm⟩
  | destroyed => exact h.destroyed _
  | @removed _ _ target _ htarget _ _ hlast =>
      have hwritten : HaveOwners (writeMember db target none) := by
        apply h.write htarget
        intro _ _
        exact hlast
      exact hwritten
  | @roleSet _ _ new target _ htarget _ _ _ hlast =>
      have hwritten : HaveOwners (writeMember db target (some new)) := by
        apply h.write htarget
        intro howner hdemotes
        apply hlast howner
        rintro rfl
        cases hdemotes
      exact hwritten
  | @joined user i _ _ _ _ _ _ =>
      intro o ho
      have hinsert := (h o ho).insert
        ⟨user.id, i.val.organization, i.val.role, c.ambient.now⟩
      exact hinsert
  | delivered _ _ hprocess =>
      obtain ⟨-, -, write, -, rfl⟩ := Delivery.process_eq_ok.mp hprocess
      exact hsame rfl rfl
  | _ => exact hsame rfl rfl

/-! ## Two guards -/

theorem status_of_getOrganization {β : Type} {db : Db} {user : Nat} {pk : String} {r : Response β}
    (h : getOrganization db user pk = .error r) : r.status = 404 := by
  rcases bind_eq_error.mp h with h | ⟨org, -, h⟩
  · unfold getObjectOr404 at h
    split at h
    · cases h
      rfl
    · rw [← (orElse_eq_error.mp h).2]
      rfl
  · rcases bind_eq_error.mp h with h | ⟨m, -, h⟩
    · rw [← (orElse_eq_error.mp h).2]
      rfl
    · cases h

theorem status_of_getMember {β : Type} {db : Db} {org : Nat} {pk : String} {r : Response β}
    (h : getMember db org pk = .error r) : Python.int? pk = none ∨ r.status = 404 := by
  unfold getMember at h
  split at h
  · next hpk => exact .inl hpk
  · right
    rw [← (orElse_eq_error.mp h).2]
    rfl

/-- **`Membership.delete` does not raise** where the endpoint lets it be called: a DELETE is answered
500 only for a key that is no number. -/
theorem status_of_delete {db : Db} {user : Nat} {pk memberPk : String}
    (h : (perform db (memberRequest db user pk memberPk .delete)).1.status = 500) :
    Python.int? memberPk = none := by
  cases hview : memberRequest db user pk memberPk .delete with
  | ok out =>
      rw [hview] at h
      obtain ⟨⟨org, actor⟩, -, hview⟩ := bind_eq_ok.mp hview
      obtain ⟨target, -, hview⟩ := bind_eq_ok.mp hview
      obtain ⟨_, -, hview⟩ := bind_eq_ok.mp hview
      obtain ⟨_, -, hview⟩ := bind_eq_ok.mp hview
      obtain ⟨db', -, hview⟩ := bind_eq_ok.mp hview
      cases hview
      cases h
  | error r =>
      rw [hview] at h
      have h : r.status = 500 := h
      rcases bind_eq_error.mp hview with hget | ⟨⟨org, actor⟩, -, hview⟩
      · rw [status_of_getOrganization hget] at h
        cases h
      rcases bind_eq_error.mp hview with hget | ⟨target, -, hview⟩
      · rcases status_of_getMember hget with hpk | hstatus
        · exact hpk
        · rw [hstatus] at h
          cases h
      rcases bind_eq_error.mp hview with hmanage | ⟨_, -, hview⟩
      · rw [← (require_eq_error.mp hmanage).2] at h
        cases h
      rcases bind_eq_error.mp hview with hlast | ⟨_, hpass, hview⟩
      · rw [← (require_eq_error.mp hlast).2] at h
        cases h
      -- the endpoint's guard has let the target pass, so the model's does
      rcases bind_eq_error.mp hview with hdelete | ⟨db', -, hview⟩
      · rcases bind_eq_error.mp hdelete with hraises | ⟨_, -, hview⟩
        · have hrefused := (require_eq_error.mp hraises).1
          rw [deleteRefused_eq, require_eq_ok.mp hpass] at hrefused
          cases hrefused
        · cases hview
      · cases hview

/-- **Every organization keeps an Owner, and the two guards agree.** In every run from a migrated
database every organization has an Owner in every state; and in every state `Membership.delete` lets
pass what `is_last_owner` lets pass, so that no DELETE of a member is answered 500 by it. -/
theorem organizations_keep_owner (E : Env) (calls : List Call) :
    States (Call.step E) (fun db =>
      (∀ o ∈ db.organizations.rows, HasOwner o.id db) ∧
      (∀ target ∈ db.memberships.rows, isLastOwner db target = false →
        deleteRefused db target = false) ∧
      ∀ (c : Call) pk memberPk, c.request = .member pk memberPk .delete →
        (c.respond E db).1 = 500 → Python.int? memberPk = none) Db.migrated calls := by
  have howned : States (Call.step E) HaveOwners Db.migrated calls := by
    apply states_of_step
    · intro db c hdb
      exact hdb.step c
    · intro o ho
      cases ho
  refine howned.mono fun db hdb => ⟨hdb, fun target _ hlast => hlast, ?_⟩
  intro c pk memberPk hrequest hstatus
  simp only [Call.respond, hrequest, authenticated] at hstatus
  cases hcaller : authenticate db c.bearer with
  | none =>
      rw [hcaller] at hstatus
      cases hstatus
  | some user =>
      rw [hcaller] at hstatus
      exact status_of_delete hstatus

end Bastiq
