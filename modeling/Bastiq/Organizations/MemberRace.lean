import Mathlib.Data.Fintype.Basic
import Bastiq.Concurrency.Machine
import Bastiq.Organizations.Members

/-!
# Concurrent member management

`OrganizationViewSet.member` as the database sees it: the caller's organization and role, the target
row, the Owner count of `is_last_owner`, for DELETE the count of `Membership.delete`, and the write,
each a statement of its own. No transaction is around them, so each write is committed at once and
each read sees what others have committed.

The guard of the last Owner is a count in one statement and a write in a later one. This file says
exactly when the two add up to what the guard is for: when the guard, asked again at the write about
the row as it is stored then, would still let the write pass.
-/

namespace Bastiq

open Relational View Transition Concurrency

/-! ## Statements -/

/-- A PATCH or DELETE on a member. -/
structure MemberRequest where
  user     : Nat
  pk       : String
  memberPk : String
  action   : MemberAction

/-- Where a request stands. A target is the row as it was read; no new role stands for DELETE. -/
inductive MemberProgress where
  | start
  /-- `get_object` has found the organization and the caller's role -/
  | permitted (org : Nat) (actor : Role)
  /-- `is_last_owner` is next -/
  | guarding (target : Row Membership) (new : Option Role)
  /-- the guard of `Membership.delete` is next -/
  | deleting (target : Row Membership)
  /-- the write is next -/
  | writing (target : Row Membership) (new : Option Role)
  | done (response : Response OrganizationPayload)

/-- The role a request is about to write: none for DELETE. -/
def MemberAction.newRole (actor : Role) : MemberAction → View OrganizationPayload (Option Role)
  | .delete => .ok none
  | .patch data => do
      let new ← patchRole actor data
      .ok (some new)

/-- What the guard answers when it refuses. -/
def lastOwnerRefusal : Option Role → Response OrganizationPayload
  | none => badRequest "Cannot remove the last owner of the organization."
  | some _ => badRequest "Cannot demote the last owner of the organization."

/-- The write: DELETE removes the row, PATCH sets its role. -/
def writeMember (db : Db) (target : Row Membership) : Option Role → Db
  | none => { db with memberships := db.memberships.delete (·.id == target.id) }
  | some new => saveRole db target new

/-- What a request answers after its write; `save(update_fields=...)` raises when the row is gone. -/
def writtenResponse (db : Db) (target : Row Membership) :
    Option Role → Response OrganizationPayload
  | none => ⟨204, .empty⟩
  | some new =>
      if (db.memberships.get? target.id).isNone then serverError
      else
        let saved : Row Membership := ⟨target.id, { target.val with role := new }⟩
        ⟨200, .data (.membership (Membership.serialize db saved))⟩

/-- The next statement of a request, with what the code does in memory before the one after it. -/
def memberStep (q : MemberRequest) : MemberProgress → Db → Option (MemberProgress × Db)
  | .start, db =>
      match getOrganization db q.user q.pk with
      | .error r => some (.done r, db)
      | .ok (org, actor) => some (.permitted org.id actor, db)
  | .permitted org actor, db =>
      match getMember db org q.memberPk with
      | .error r => some (.done r, db)
      | .ok target =>
          if canManageMember actor target.val.role then
            match q.action.newRole actor with
            | .error r => some (.done r, db)
            | .ok new => some (.guarding target new, db)
          else some (.done (forbidden cannotManageMessage), db)
  | .guarding target none, db =>
      if isLastOwner db target then some (.done (lastOwnerRefusal none), db)
      else some (.deleting target, db)
  | .guarding target (some new), db =>
      if target.val.role == .owner && new != .owner && isLastOwner db target then
        some (.done (lastOwnerRefusal (some new)), db)
      else some (.writing target (some new), db)
  | .deleting target, db =>
      if deleteRefused db target then some (.done serverError, db)
      else some (.writing target none, db)
  | .writing target new, db => some (.done (writtenResponse db target new), writeMember db target new)
  | .done _, _ => none

variable {ι : Type} [DecidableEq ι]

/-- The requests side by side. -/
def memberMachine (requests : ι → MemberRequest) : Machine ι Db MemberProgress where
  step i := memberStep (requests i)

/-- Nothing has started. -/
def memberStart (db : Db) : Config ι Db MemberProgress := ⟨db, fun _ => .start⟩

/-! ## Owners -/

/-- The organization has an Owner. -/
def HasOwner (org : Nat) (db : Db) : Prop := 0 < ownerCount db org

instance (org : Nat) (db : Db) : Decidable (HasOwner org db) :=
  inferInstanceAs (Decidable (0 < ownerCount db org))

/-- The write takes the row's Owner role away: it deletes the row, or gives it another role. -/
def demotes (new : Option Role) : Bool := new != some .owner

/-- **The guard still holds at the write**: when the next statement of process `i` deletes or demotes
a row that makes its user an Owner of `org`, that row, as it is stored now, is not the last. -/
def Guarded (org : Nat) (c : Config ι Db MemberProgress) (i : ι) : Prop :=
  ∀ target new r, c.loc i = .writing target new → c.store.memberships.get? target.id = some r →
    ownerOf org r = true → demotes new = true → isLastOwner c.store r = false

theorem isLastOwner_eq_false {org : Nat} {db : Db} {r : Row Membership} (h : ownerOf org r = true) :
    isLastOwner db r = false ↔ 1 < ownerCount db org := by
  simp only [ownerOf, Bool.and_eq_true, beq_iff_eq] at h
  simp only [isLastOwner, h.1, h.2, BEq.rfl, Bool.true_and, decide_eq_false_iff_not, Nat.not_le]

/-! ## One statement -/

/-- What one statement does to the database: nothing, or it is the write. -/
theorem memberStep_cases {q : MemberRequest} {l l' : MemberProgress} {db db' : Db}
    (h : memberStep q l db = some (l', db')) :
    (db' = db ∧ ∀ target new, l ≠ .writing target new) ∨
      ∃ target new, l = .writing target new ∧ db' = writeMember db target new := by
  cases l with
  | writing target new => cases h; exact .inr ⟨target, new, rfl, rfl⟩
  | start =>
      simp only [memberStep] at h
      refine .inl ⟨?_, fun _ _ hl => nomatch hl⟩
      split at h <;> cases h <;> rfl
  | permitted org actor =>
      simp only [memberStep] at h
      refine .inl ⟨?_, fun _ _ hl => nomatch hl⟩
      split at h
      · cases h; rfl
      · split at h
        · split at h <;> cases h <;> rfl
        · cases h; rfl
  | guarding target new =>
      refine .inl ⟨?_, fun _ _ hl => nomatch hl⟩
      cases new <;> simp only [memberStep] at h <;> split at h <;> cases h <;> rfl
  | deleting target =>
      simp only [memberStep] at h
      refine .inl ⟨?_, fun _ _ hl => nomatch hl⟩
      split at h <;> cases h <;> rfl
  | done r => cases h

theorem ownerOf_withRole {org : Nat} {r : Row Membership} (new : Role)
    (h : ownerOf org r = true) :
    ownerOf org ⟨r.id, { r.val with role := new }⟩ = (new == .owner) := by
  simp only [ownerOf, Bool.and_eq_true, beq_iff_eq] at h
  simp only [ownerOf, h.1, BEq.rfl, Bool.true_and]

/-- **What one write does to the Owners**: some are left exactly when the guard, asked now about the
row as it is stored, lets the write pass. -/
theorem hasOwner_write {org : Nat} {db : Db} {target r : Row Membership} {new : Option Role}
    (hget : db.memberships.get? target.id = some r) (h : HasOwner org db) :
    HasOwner org (writeMember db target new) ↔
      (ownerOf org r = true → demotes new = true → isLastOwner db r = false) := by
  have hr := Table.mem_of_get? hget
  have hid := Table.id_of_get? hget
  unfold HasOwner at h ⊢
  cases new with
  | none =>
      have hcount : ownerCount (writeMember db target none) org +
          (if ownerOf org r then 1 else 0) = ownerCount db org := by
        have := Table.count_delete_id hr (ownerOf org)
        rwa [hid] at this
      -- deleting an Owner's row takes one away, deleting another one none
      by_cases howner : ownerOf org r = true
      · rw [isLastOwner_eq_false howner]
        rw [if_pos howner] at hcount
        simp only [howner, demotes, bne_iff_ne, ne_eq, reduceCtorEq, not_false_eq_true,
          forall_const]
        omega
      · rw [if_neg howner] at hcount
        exact iff_of_true (by omega) (fun hpos => absurd hpos howner)
  | some new =>
      have hcount : ownerCount (writeMember db target (some new)) org +
          (if ownerOf org r then 1 else 0) = ownerCount db org +
          (if ownerOf org ⟨r.id, { r.val with role := new }⟩ then 1 else 0) := by
        have := Table.count_modify hr (fun m : Membership => { m with role := new }) (ownerOf org)
        rwa [hid] at this
      by_cases howner : ownerOf org r = true
      · rw [isLastOwner_eq_false howner]
        rw [if_pos howner, ownerOf_withRole new howner] at hcount
        -- an Owner who stays Owner counts as before
        by_cases hnew : new = .owner
        · subst hnew
          simp only [BEq.rfl, if_true] at hcount
          exact iff_of_true (by omega) (fun _ hdemotes => by cases hdemotes)
        · simp only [beq_iff_eq, hnew, if_false] at hcount
          simp only [howner, demotes, bne_iff_ne, ne_eq, Option.some.injEq, hnew,
            not_false_eq_true, forall_const]
          omega
      · rw [if_neg howner] at hcount
        exact iff_of_true (by omega) (fun hpos => absurd hpos howner)

/-- A write to a row that is gone changes nothing about the Owners. -/
theorem ownerCount_write_of_gone {db : Db} {target : Row Membership}
    (hget : db.memberships.get? target.id = none) (new : Option Role) (org : Nat) :
    ownerCount (writeMember db target new) org = ownerCount db org := by
  have hgone := Table.first?_eq_none_iff.mp hget
  cases new with
  | none => exact Table.count_delete_of_disjoint _ fun r hr _ => hgone r hr
  | some new =>
      refine Table.count_update _ fun r hr => ?_
      rw [Table.setRow_of_neg (hgone r hr)]

theorem hasOwner_next_iff {requests : ι → MemberRequest} {org : Nat} {c : Config ι Db MemberProgress}
    {i : ι} (h : HasOwner org c.store) :
    HasOwner org ((memberMachine requests).next c i).store ↔ Guarded org c i := by
  cases hstep : (memberMachine requests).step i (c.loc i) c.store with
  | none =>
      rw [Machine.next_of_none hstep]
      refine iff_of_true h fun target new r hl => ?_
      rw [hl] at hstep
      cases hstep
  | some ls =>
      obtain ⟨l, db⟩ := ls
      rw [Machine.next_of_some hstep, Config.move_store]
      rcases memberStep_cases hstep with ⟨rfl, hreads⟩ | ⟨target, new, hl, rfl⟩
      · exact iff_of_true h fun target new r hl => absurd hl (hreads target new)
      · cases hget : c.store.memberships.get? target.id with
        | none =>
            refine iff_of_true ?_ fun target' new' r hl' hr => ?_
            · unfold HasOwner
              rwa [ownerCount_write_of_gone hget]
            · rw [hl] at hl'
              cases hl'
              rw [hget] at hr
              cases hr
        | some r =>
            rw [hasOwner_write hget h]
            constructor
            · intro hguard target' new' r' hl' hr'
              rw [hl] at hl'
              cases hl'
              rw [hget] at hr'
              cases hr'
              exact hguard
            · intro hguard
              exact hguard target new r hl hget

/-! ## Undisturbed requests -/

/-- Between reading the target and writing it. -/
def MemberProgress.isActing : MemberProgress → Bool
  | .guarding _ _ => true
  | .deleting _ => true
  | .writing _ _ => true
  | _ => false

/-- If the next statement of process `i` changes the members, nobody else is acting. -/
def Undisturbed (requests : ι → MemberRequest) (c : Config ι Db MemberProgress) (i : ι) : Prop :=
  ((memberMachine requests).next c i).store.memberships = c.store.memberships ∨
    ∀ j, j ≠ i → (c.loc j).isActing = false

instance [Fintype ι] (requests : ι → MemberRequest) (c : Config ι Db MemberProgress) (i : ι) :
    Decidable (Undisturbed requests c i) :=
  inferInstanceAs (Decidable (_ ∨ _))

/-- What a request knows of its target is still so. -/
def UpToDateTarget (db : Db) : MemberProgress → Prop
  | .guarding target _ => target ∈ db.memberships.rows
  | .deleting target => target ∈ db.memberships.rows ∧ isLastOwner db target = false
  | .writing target new =>
      target ∈ db.memberships.rows ∧ (demotes new = true → isLastOwner db target = false)
  | _ => True

theorem upToDateTarget_of_not_acting {db : Db} {l : MemberProgress} (h : l.isActing = false) :
    UpToDateTarget db l := by
  cases l <;> trivial

theorem upToDateTarget_congr {db db' : Db} (h : db'.memberships = db.memberships)
    {l : MemberProgress} (hl : UpToDateTarget db l) : UpToDateTarget db' l := by
  have hlast : ∀ target, isLastOwner db' target = isLastOwner db target := by
    intro target
    rw [isLastOwner, isLastOwner, ownerCount, ownerCount, h]
  have hrows : ∀ target, target ∈ db.memberships.rows → target ∈ db'.memberships.rows := by
    intro target
    rw [h]
    exact id
  cases l with
  | guarding target new => exact hrows target hl
  | deleting target => exact ⟨hrows target hl.1, (hlast target).trans hl.2⟩
  | writing target new =>
      exact ⟨hrows target hl.1, fun hnew => (hlast target).trans (hl.2 hnew)⟩
  | _ => trivial

/-- A request that acts on what is so finds out what is so. -/
theorem upToDateTarget_of_step {q : MemberRequest} {l l' : MemberProgress} {db db' : Db}
    (hl : UpToDateTarget db l) (h : memberStep q l db = some (l', db')) :
    UpToDateTarget db' l' := by
  cases l with
  | start =>
      simp only [memberStep] at h
      split at h <;> cases h <;> trivial
  | permitted org actor =>
      simp only [memberStep] at h
      split at h
      · cases h; trivial
      · next target htarget =>
        split at h
        · split at h
          · cases h; trivial
          · cases h; exact (getMember_eq_ok htarget).1
        · cases h; trivial
  | guarding target new =>
      cases new with
      | none =>
          simp only [memberStep] at h
          split at h
          · cases h; trivial
          · next hlast => cases h; exact ⟨hl, Bool.eq_false_iff.mpr hlast⟩
      | some new =>
          simp only [memberStep] at h
          split at h
          · cases h; trivial
          · next hguard =>
            cases h
            refine ⟨hl, fun hnew => ?_⟩
            -- the guard let the write pass: no Owner is demoted, or not the last one
            simp only [demotes, bne_iff_ne, ne_eq, Option.some.injEq] at hnew
            simpa [isLastOwner, hnew] using hguard
  | deleting target =>
      simp only [memberStep] at h
      split at h
      · cases h; trivial
      · cases h; exact ⟨hl.1, fun _ => hl.2⟩
  | writing target new => cases h; trivial
  | done r => cases h

theorem upToDateTarget_next {requests : ι → MemberRequest} {c : Config ι Db MemberProgress} {i : ι}
    (hquiet : Undisturbed requests c i) (h : ∀ j, UpToDateTarget c.store (c.loc j)) (j : ι) :
    UpToDateTarget ((memberMachine requests).next c i).store
      (((memberMachine requests).next c i).loc j) := by
  unfold Undisturbed at hquiet
  apply Machine.knows_next (K := fun _ => UpToDateTarget) h
  · intro l db hstep
    exact upToDateTarget_of_step (h i) hstep
  · intro l db hstep j hj
    rw [Machine.next_of_some hstep, Config.move_store] at hquiet
    rcases hquiet with hsame | hquiet
    · exact upToDateTarget_congr hsame (h j)
    · exact upToDateTarget_of_not_acting (hquiet j hj)

/-- **Undisturbed requests are guarded**: where no member row changes while another request is
acting, the guard holds at every write. -/
theorem guarded_of_undisturbed {requests : ι → MemberRequest} {db : Db} {sched : List ι} (org : Nat)
    (h : (memberMachine requests).Along (Undisturbed requests) (memberStart db) sched) :
    (memberMachine requests).Along (Guarded org) (memberStart db) sched := by
  have hrun := h.and_invariant (Q := fun c => ∀ j, UpToDateTarget c.store (c.loc j))
    (fun c i hc hquiet j => upToDateTarget_next hquiet hc j)
    (fun _ => upToDateTarget_of_not_acting rfl)
  refine hrun.mono fun c i ⟨_, hc⟩ target new r hl hget _ hnew => ?_
  have hi := hc i
  rw [hl] at hi
  -- the row as it is stored is the row as it was read
  obtain rfl : r = target :=
    c.store.memberships.eq_of_id_eq (Table.mem_of_get? hget) hi.1 (Table.id_of_get? hget)
  exact hi.2 hnew

/-- **When no interleaving orphans an organization**: an organization that starts with an Owner has
one in every state reached exactly when the guard still holds at every write; and that is so where
no member row changes while another request is acting. -/
theorem members_keep_owner_iff (requests : ι → MemberRequest) (org : Nat) {db : Db}
    (h : HasOwner org db) (sched : List ι) :
    ((memberMachine requests).Always (fun c => HasOwner org c.store) (memberStart db) sched ↔
      (memberMachine requests).Along (Guarded org) (memberStart db) sched) ∧
    ((memberMachine requests).Along (Undisturbed requests) (memberStart db) sched →
      (memberMachine requests).Always (fun c => HasOwner org c.store) (memberStart db) sched) := by
  have hiff : (memberMachine requests).Always (fun c => HasOwner org c.store) (memberStart db)
      sched ↔ (memberMachine requests).Along (Guarded org) (memberStart db) sched :=
    states_iff_each (Q := fun c => HasOwner org c.store) (R := fun _ _ => True)
      (fun _ _ hc _ => hasOwner_next_iff hc) h
      (each_of_forall (fun _ _ => trivial) sched (memberStart db))
  exact ⟨hiff, fun hquiet => hiff.mpr (guarded_of_undisturbed org hquiet)⟩

/-! ## A request left alone -/

section Alone

variable {requests : ι → MemberRequest} {i : ι} {db : Db}

omit [DecidableEq ι] in
theorem alone_done (n : Nat) (r : Response OrganizationPayload) :
    (memberMachine requests).alone i n (.done r) db = (.done r, db) :=
  Machine.alone_of_none rfl n

omit [DecidableEq ι] in
theorem alone_read {n : Nat} {l : MemberProgress} (l' : MemberProgress)
    (h : memberStep (requests i) l db = some (l', db)) :
    (memberMachine requests).alone i (n + 1) l db = (memberMachine requests).alone i n l' db :=
  Machine.alone_succ h

omit [DecidableEq ι] in
theorem alone_write (n : Nat) (target : Row Membership) (new : Option Role) :
    (memberMachine requests).alone i (n + 1) (.writing target new) db =
      (.done (writtenResponse db target new), writeMember db target new) :=
  (Machine.alone_succ rfl).trans (alone_done n _)

omit [DecidableEq ι] in
theorem alone_delete (target : Row Membership) :
    (memberMachine requests).alone i 3 (.guarding target none) db =
      if isLastOwner db target then (.done (lastOwnerRefusal none), db)
      else (.done ⟨204, .empty⟩, writeMember db target none) := by
  by_cases hlast : isLastOwner db target = true
  · rw [alone_read (.done (lastOwnerRefusal none)) (by rw [memberStep, if_pos hlast]),
      alone_done, if_pos hlast]
  · rw [alone_read (.deleting target) (by rw [memberStep, if_neg hlast]),
      alone_read (.writing target none) (by rw [memberStep, deleteRefused_eq, if_neg hlast]),
      alone_write, if_neg hlast]
    rfl

omit [DecidableEq ι] in
theorem alone_patch (target : Row Membership) (new : Role) :
    (memberMachine requests).alone i 3 (.guarding target (some new)) db =
      if target.val.role == .owner && new != .owner && isLastOwner db target then
        (.done (lastOwnerRefusal (some new)), db)
      else (.done (writtenResponse db target (some new)), saveRole db target new) := by
  split
  · next hlast =>
    rw [alone_read (.done (lastOwnerRefusal (some new))) (by rw [memberStep, if_pos hlast]),
      alone_done]
  · next hlast =>
    rw [alone_read (.writing target (some new)) (by rw [memberStep, if_neg hlast]), alone_write]
    rfl

end Alone

omit [DecidableEq ι] in
theorem alone_memberRequest (requests : ι → MemberRequest) (i : ι) (db : Db) :
    let q := requests i
    let out := View.perform db (memberRequest db q.user q.pk q.memberPk q.action)
    (memberMachine requests).alone i 5 .start db = (.done out.1, out.2) := by
  intro q out
  have hout : out = View.perform db (memberRequest db q.user q.pk q.memberPk q.action) := rfl
  clear_value out
  unfold memberRequest at hout
  cases hget : getOrganization (β := OrganizationPayload) db q.user q.pk with
  | error r =>
      rw [hget, error_bind] at hout
      rw [alone_read (.done r) (by simp only [memberStep, q, hget]), alone_done, hout]
      rfl
  | ok found =>
  obtain ⟨org, actor⟩ := found
  rw [hget, ok_bind] at hout
  rw [alone_read (.permitted org.id actor) (by simp only [memberStep, q, hget])]
  cases htarget : getMember (β := OrganizationPayload) db org.id q.memberPk with
  | error r =>
      simp only [htarget, error_bind] at hout
      rw [alone_read (.done r) (by simp only [memberStep, q, htarget]), alone_done, hout]
      rfl
  | ok target =>
  simp only [htarget, ok_bind] at hout
  by_cases hmanage : canManageMember actor target.val.role = true
  · simp only [hmanage, require, if_true, ok_bind] at hout
    cases haction : q.action with
    | delete =>
        rw [haction] at hout
        rw [alone_read (.guarding target none)
          (by simp only [memberStep, q, htarget, hmanage]; simp only [q, haction]; rfl), alone_delete,
          hout]
        cases hlast : isLastOwner db target with
        | true => rfl
        | false => simp only [deleteMembership, deleteRefused_eq, hlast]; rfl
    | patch data =>
        simp only [haction] at hout
        cases hnew : patchRole (β := OrganizationPayload) actor data with
        | error r =>
            rw [hnew, error_bind] at hout
            rw [alone_read (.done r) (by
              simp only [memberStep, q, htarget, hmanage]
              simp only [q, haction, MemberAction.newRole, hnew, error_bind]
              rfl), alone_done, hout]
            rfl
        | ok new =>
            rw [hnew, ok_bind] at hout
            rw [alone_read (.guarding target (some new)) (by
              simp only [memberStep, q, htarget, hmanage]
              simp only [q, haction, MemberAction.newRole, hnew, ok_bind]
              rfl), alone_patch, hout]
            have hrow : (db.memberships.get? target.id).isNone = false := by
              rw [Table.get?_eq_some_iff.mpr ⟨(getMember_eq_ok htarget).1, rfl⟩]
              rfl
            cases target.val.role == .owner && new != .owner && isLastOwner db target with
            | true => rfl
            | false => simp only [writtenResponse, hrow]; rfl
  · rw [Bool.not_eq_true] at hmanage
    simp only [hmanage, require] at hout
    rw [alone_read (.done (forbidden cannotManageMessage))
      (by simp only [memberStep, q, htarget, hmanage]; rfl), alone_done, hout]
    rfl

/-- **A request left alone** does what `memberRequest` does, in five statements at most. -/
theorem member_alone (requests : ι → MemberRequest) (i : ι) (db : Db) :
    let q := requests i
    let out := View.perform db (memberRequest db q.user q.pk q.memberPk q.action)
    let final := (memberMachine requests).run (memberStart db) (List.replicate 5 i)
    final.loc i = .done out.1 ∧ final.store = out.2 := by
  intro q out final
  have hrun : (final.loc i, final.store) = (memberMachine requests).alone i 5 .start db :=
    Machine.run_replicate (memberStart db) i 5
  rw [alone_memberRequest, Prod.mk.injEq] at hrun
  exact hrun

/-! ## Two Owners who remove each other -/

/-- Organization 1, owned by users 1 and 2. -/
def twoOwners : Db where
  users := (Table.empty.insert { email := "a@x.io", password := "" }).insert
    { email := "b@x.io", password := "" }
  organizations := Table.empty.insert ⟨"Acme", "acme", some 1, 0⟩
  memberships := (Table.empty.insert ⟨1, 1, .owner, 0⟩).insert ⟨2, 1, .owner, 0⟩

/-- Each of the two removes the other. -/
def mutualRemoval : Bool → MemberRequest
  | true => ⟨1, "1", "2", .delete⟩
  | false => ⟨2, "1", "1", .delete⟩

/-- Both requests count two Owners, twice each, before either writes. -/
theorem owners_remove_each_other :
    HasOwner 1 twoOwners ∧
      let sched := [true, true, true, true, false, false, false, false, true, false]
      ¬ HasOwner 1 ((memberMachine mutualRemoval).run (memberStart twoOwners) sched).store := by
  refine ⟨by decide, ?_⟩
  intro sched
  decide

/-- One request after the other: the second one is refused. -/
theorem members_keep_owner_iff_in_turn :
    let sched := List.replicate 5 true ++ List.replicate 5 false
    (memberMachine mutualRemoval).Always (fun c => HasOwner 1 c.store) (memberStart twoOwners)
      sched := by
  intro sched
  have hquiet : (memberMachine mutualRemoval).Along (Undisturbed mutualRemoval)
      (memberStart twoOwners) sched := by decide
  have howned : HasOwner 1 twoOwners := by decide
  exact (members_keep_owner_iff mutualRemoval 1 howned sched).2 hquiet

end Bastiq
