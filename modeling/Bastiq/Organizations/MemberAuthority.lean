import Bastiq.Organizations.MemberRace

/-!
# Authority at the write

`can_manage_member` and `can_assign_role` are asked about the roles as they were read; the write
comes statements later and asks nothing. This file says when a write is still made with the
authority it was checked for: when no other write has come in between and taken that authority away,
by demoting or removing the caller or by promoting the target.
-/

namespace Bastiq

open Relational View Transition Concurrency

/-! ## Authority -/

/-- The caller may make this write now: wherever the target's row is still stored, the caller is a
member of its organization in a role that manages the role stored there, and may assign the new
one. -/
def MayWrite (db : Db) (user : Nat) (target : Row Membership) (new : Option Role) : Prop :=
  ∀ r, db.memberships.get? target.id = some r →
    ∃ m, membershipIn db user r.val.organization = some m ∧
      canManageMember m.val.role r.val.role = true ∧
      ∀ role, new = some role → canAssignRole m.val.role role = true

instance (db : Db) (user : Nat) (target : Row Membership) (new : Option Role) :
    Decidable (MayWrite db user target new) :=
  inferInstanceAs (Decidable (∀ r ∈ db.memberships.get? target.id,
    ∃ m ∈ membershipIn db user r.val.organization, _ ∧ ∀ role ∈ new, _))

variable {ι : Type}

/-- If the next statement of process `i` is its write, its caller may make it. -/
def AuthorizedWrite (requests : ι → MemberRequest) (c : Config ι Db MemberProgress) (i : ι) :
    Prop :=
  ∀ target new, c.loc i = .writing target new →
    MayWrite c.store (requests i).user target new

variable [DecidableEq ι]

/-- **No authority is lost on the way**: a request that ends its checks may make its write now, and
a write leaves the requests that are about to write with the right to do so. -/
def KeepsAuthority (requests : ι → MemberRequest) (c : Config ι Db MemberProgress) (i : ι) : Prop :=
  (∀ target new, ((memberMachine requests).next c i).loc i = .writing target new →
    MayWrite c.store (requests i).user target new) ∧
  ∀ target new, c.loc i = .writing target new → ∀ j, j ≠ i →
    ∀ target' new', c.loc j = .writing target' new' →
      MayWrite (writeMember c.store target new) (requests j).user target' new'

/-- The write is the last statement of a request. -/
theorem next_of_writing {requests : ι → MemberRequest} {c : Config ι Db MemberProgress} {i : ι}
    {target : Row Membership} {new : Option Role} (hl : c.loc i = .writing target new) :
    (memberMachine requests).next c i =
      c.move i (.done (writtenResponse c.store target new)) (writeMember c.store target new) := by
  apply Machine.next_of_some
  rw [hl]
  rfl

/-- Every other statement leaves the database as it is. -/
theorem store_next_of_not_writing {requests : ι → MemberRequest} {c : Config ι Db MemberProgress}
    {i : ι} (hl : ∀ target new, c.loc i ≠ .writing target new) :
    ((memberMachine requests).next c i).store = c.store := by
  refine Machine.next_cases (motive := fun c' => c'.store = c.store) c i rfl fun l s hstep => ?_
  rcases memberStep_cases hstep with ⟨hs, -⟩ | ⟨target, new, hwriting, -⟩
  · exact hs
  · exact absurd hwriting (hl target new)

theorem loc_next_of_ne {requests : ι → MemberRequest} (c : Config ι Db MemberProgress) {i j : ι}
    (hj : j ≠ i) : ((memberMachine requests).next c i).loc j = c.loc j :=
  Machine.next_cases (motive := fun c' => c'.loc j = c.loc j) c i rfl fun l s _ =>
    c.move_loc_of_ne hj l s

/-- **What one statement does to everybody's authority**: all who are about to write may do so after
it exactly when it loses none. -/
theorem authorized_next_iff {requests : ι → MemberRequest} {c : Config ι Db MemberProgress} {i : ι}
    (h : ∀ j, AuthorizedWrite requests c j) :
    (∀ j, AuthorizedWrite requests ((memberMachine requests).next c i) j) ↔
      KeepsAuthority requests c i := by
  by_cases hwriting : ∃ target new, c.loc i = .writing target new
  · obtain ⟨target, new, hl⟩ := hwriting
    have hnext : (memberMachine requests).next c i =
        c.move i (.done (writtenResponse c.store target new)) (writeMember c.store target new) :=
      next_of_writing hl
    constructor
    · intro hall
      refine ⟨fun target' new' hl' => ?_, fun target' new' hl' j hj target'' new'' hj' => ?_⟩
      · rw [hnext, Config.move_loc_self] at hl'
        cases hl'
      · rw [hl] at hl'
        cases hl'
        have hloc : ((memberMachine requests).next c i).loc j = c.loc j := loc_next_of_ne c hj
        have hauthorized := hall j target'' new'' (hloc.trans hj')
        rwa [hnext] at hauthorized
    · intro hkeeps j target' new' hl'
      by_cases hj : j = i
      · subst hj
        rw [hnext, Config.move_loc_self] at hl'
        cases hl'
      · rw [loc_next_of_ne c hj] at hl'
        rw [hnext]
        exact hkeeps.2 target new hl j hj target' new' hl'
  · have hreads : ∀ target new, c.loc i ≠ .writing target new :=
      fun target new hl => hwriting ⟨target, new, hl⟩
    have hstore : ((memberMachine requests).next c i).store = c.store :=
      store_next_of_not_writing hreads
    constructor
    · intro hall
      refine ⟨fun target new hl => ?_, fun target new hl => absurd hl (hreads target new)⟩
      have hauthorized := hall i target new hl
      rwa [hstore] at hauthorized
    · intro hkeeps j target new hl
      rw [hstore]
      by_cases hj : j = i
      · subst hj
        exact hkeeps.1 target new hl
      · rw [loc_next_of_ne c hj] at hl
        exact h j target new hl

/-! ## Entitlement -/

/-- What a request has read about its caller and its target still gives it the authority it gave
then. -/
def Entitled (db : Db) (user : Nat) : MemberProgress → Prop
  | .permitted org actor => ∃ m, membershipIn db user org = some m ∧ actor.rank ≤ m.val.role.rank
  | .guarding target new => MayWrite db user target new
  | .deleting target => MayWrite db user target none
  | .writing target new => MayWrite db user target new
  | _ => True

instance (db : Db) (user : Nat) : (l : MemberProgress) → Decidable (Entitled db user l)
  | .permitted org actor =>
      inferInstanceAs (Decidable (∃ m ∈ membershipIn db user org, actor.rank ≤ m.val.role.rank))
  | .guarding target new => inferInstanceAs (Decidable (MayWrite db user target new))
  | .deleting target => inferInstanceAs (Decidable (MayWrite db user target none))
  | .writing target new => inferInstanceAs (Decidable (MayWrite db user target new))
  | .start => isTrue trivial
  | .done _ => isTrue trivial

/-- The next statement of process `i` costs no other request its entitlement. -/
def KeepsEntitlement (requests : ι → MemberRequest) (c : Config ι Db MemberProgress) (i : ι) :
    Prop :=
  ∀ j, j ≠ i → Entitled c.store (requests j).user (c.loc j) →
    Entitled ((memberMachine requests).next c i).store (requests j).user (c.loc j)

instance [Fintype ι] (requests : ι → MemberRequest) (c : Config ι Db MemberProgress) (i : ι) :
    Decidable (KeepsEntitlement requests c i) :=
  inferInstanceAs (Decidable (∀ j, j ≠ i → _ → _))

theorem canManageMember_mono {actor better target : Role} (hrank : actor.rank ≤ better.rank)
    (h : canManageMember actor target = true) : canManageMember better target = true := by
  revert hrank h
  cases actor <;> cases better <;> cases target <;> decide

theorem canAssignRole_mono {actor better new : Role} (hrank : actor.rank ≤ better.rank)
    (h : canAssignRole actor new = true) : canAssignRole better new = true := by
  revert hrank h
  cases actor <;> cases better <;> cases new <;> decide

/-- The role a request is about to write is one its caller may assign. -/
theorem newRole_eq_ok {actor : Role} {a : MemberAction} {new : Option Role}
    (h : a.newRole actor = .ok new) : ∀ role, new = some role → canAssignRole actor role = true := by
  cases a with
  | delete => cases h; exact fun _ hrole => nomatch hrole
  | patch data =>
      obtain ⟨assigned, hassigned, h⟩ := bind_eq_ok.mp h
      cases h
      rintro role ⟨⟩
      exact patchRole_eq_ok hassigned

/-- **An entitled request stays so** by its own statements. -/
theorem entitled_of_step {q : MemberRequest} {l l' : MemberProgress} {db db' : Db}
    (hl : Entitled db q.user l) (h : memberStep q l db = some (l', db')) :
    Entitled db' q.user l' := by
  cases l with
  | start =>
      simp only [memberStep] at h
      split at h
      · cases h; trivial
      · next org actor hget =>
        cases h
        obtain ⟨-, m, hm, hrole⟩ := getOrganization_eq_ok hget
        exact ⟨m, hm, hrole ▸ Nat.le_refl _⟩
  | permitted org actor =>
      simp only [memberStep] at h
      split at h
      · cases h; trivial
      · next target htarget =>
        split at h
        · next hmanage =>
          split at h
          · cases h; trivial
          · next new hnew =>
            cases h
            obtain ⟨hmem, horg⟩ := getMember_eq_ok htarget
            obtain ⟨m, hm, hrank⟩ := hl
            intro r hr
            -- the target is stored as it was read just now
            obtain rfl : r = target :=
              db.memberships.eq_of_id_eq (Table.mem_of_get? hr) hmem (Table.id_of_get? hr)
            refine ⟨m, by rw [horg]; exact hm, canManageMember_mono hrank hmanage, ?_⟩
            intro role hrole
            exact canAssignRole_mono hrank (newRole_eq_ok hnew role hrole)
        · cases h; trivial
  | guarding target new =>
      cases new with
      | none =>
          simp only [memberStep] at h
          split at h
          · cases h; trivial
          · cases h; exact hl
      | some new =>
          simp only [memberStep] at h
          split at h
          · cases h; trivial
          · cases h; exact hl
  | deleting target =>
      simp only [memberStep] at h
      split at h
      · cases h; trivial
      · cases h; exact hl
  | writing target new => cases h; trivial
  | done r => cases h

theorem entitled_next {requests : ι → MemberRequest} {c : Config ι Db MemberProgress} {i : ι}
    (hkeeps : KeepsEntitlement requests c i) (h : ∀ j, Entitled c.store (requests j).user (c.loc j))
    (j : ι) :
    Entitled ((memberMachine requests).next c i).store (requests j).user
      (((memberMachine requests).next c i).loc j) := by
  apply Machine.knows_next (K := fun j db => Entitled db (requests j).user) h
  · intro l db hstep
    exact entitled_of_step (h i) hstep
  · intro l db hstep j hj
    have hentitled := hkeeps j hj (h j)
    rwa [Machine.next_of_some hstep] at hentitled

/-- Who stays entitled writes with authority. -/
theorem authorized_of_keepsEntitlement {requests : ι → MemberRequest} {db : Db} {sched : List ι}
    (h : (memberMachine requests).Along (KeepsEntitlement requests) (memberStart db) sched) :
    (memberMachine requests).Along (AuthorizedWrite requests) (memberStart db) sched := by
  have hstart : ∀ j, Entitled db (requests j).user MemberProgress.start := fun _ => trivial
  have hrun := h.and_invariant (Q := fun c => ∀ j, Entitled c.store (requests j).user (c.loc j))
    (fun c i hc hkeeps j => entitled_next hkeeps hc j) hstart
  apply hrun.mono
  rintro c i ⟨-, hc⟩ target new hl
  have hentitled := hc i
  rw [hl] at hentitled
  exact hentitled

/-- **When every write is made with authority**: in all interleavings exactly when none of them
loses authority on the way. A single interleaving in which none is lost, or in which no statement
costs another request its entitlement, has authorized writes only. -/
theorem writes_authorized_iff (requests : ι → MemberRequest) (db : Db) :
    ((∀ sched, (memberMachine requests).Along (AuthorizedWrite requests) (memberStart db) sched) ↔
      ∀ sched, (memberMachine requests).Along (KeepsAuthority requests) (memberStart db) sched) ∧
    ∀ sched,
      ((memberMachine requests).Along (KeepsAuthority requests) (memberStart db) sched →
        (memberMachine requests).Along (AuthorizedWrite requests) (memberStart db) sched) ∧
      ((memberMachine requests).Along (KeepsEntitlement requests) (memberStart db) sched →
        (memberMachine requests).Along (AuthorizedWrite requests) (memberStart db) sched) := by
  have hiff : ∀ sched, (memberMachine requests).Always
      (fun c => ∀ j, AuthorizedWrite requests c j) (memberStart db) sched ↔
      (memberMachine requests).Along (KeepsAuthority requests) (memberStart db) sched := by
    intro sched
    apply states_iff_each (R := fun _ _ => True)
    · intro c i hc _
      exact authorized_next_iff hc
    · intro j target new hl
      cases hl
    · exact each_of_forall (fun _ _ => trivial) sched (memberStart db)
  have hwrites : ∀ sched, (memberMachine requests).Along (KeepsAuthority requests)
      (memberStart db) sched →
      (memberMachine requests).Along (AuthorizedWrite requests) (memberStart db) sched := by
    intro sched hkeeps
    exact each_of_states (fun c i h _ => h i) ((hiff sched).mpr hkeeps)
  refine ⟨⟨fun hall sched => ?_, fun hkeeps sched => hwrites sched (hkeeps sched)⟩,
    fun sched => ⟨hwrites sched, authorized_of_keepsEntitlement⟩⟩
  exact (hiff sched).mp (states_of_forall_each hall sched)

/-! ## An Owner removed by an Admin -/

/-- Organization 1, with user 1 as Owner, user 2 as Admin and user 3 as Member. -/
def ownerAdminMember : Db where
  users := ((Table.empty.insert { email := "a@x.io", password := "" }).insert
    { email := "b@x.io", password := "" }).insert { email := "c@x.io", password := "" }
  organizations := Table.empty.insert ⟨"Acme", "acme", some 1, 0⟩
  memberships := ((Table.empty.insert ⟨1, 1, .owner, 0⟩).insert ⟨2, 1, .admin, 0⟩).insert
    ⟨3, 1, .member, 0⟩

/-- The Admin removes user 3; the Owner makes user 3 an Owner. -/
def removalAndPromotion : Bool → MemberRequest
  | true => ⟨2, "1", "3", .delete⟩
  | false => ⟨1, "1", "3", .patch (.json (.obj [("role", .str "owner")]))⟩

/-- The role of user 3, where they are a member. -/
def thirdRole (db : Db) : Option Role := (membershipIn db 3 1).map (·.val.role)

/-- The Admin's request has checked a Member when the Owner's promotes them; its write removes an
Owner. -/
theorem admin_removes_owner :
    let before := (memberMachine removalAndPromotion).run (memberStart ownerAdminMember)
      [true, true, true, true, false, false, false, false]
    thirdRole before.store = some .owner ∧
      thirdRole ((memberMachine removalAndPromotion).next before true).store = none ∧
      (membershipIn before.store 2 1).map (·.val.role) = some .admin ∧
      ¬ ∀ sched, (memberMachine removalAndPromotion).Along (AuthorizedWrite removalAndPromotion)
        (memberStart ownerAdminMember) sched := by
  intro before
  refine ⟨by decide, by decide, by decide, fun hall => ?_⟩
  have hbefore := (states_of_forall_each hall
    [true, true, true, true, false, false, false, false]).last true
  have hloc : before.loc true = .writing ⟨3, 3, 1, .member, 0⟩ none := by rfl
  obtain ⟨m, hm, hmanage, -⟩ := hbefore _ _ hloc ⟨3, 3, 1, .owner, 0⟩ (by rfl)
  have hadmin : membershipIn before.store 2 1 = some ⟨2, 2, 1, .admin, 0⟩ := by rfl
  rw [show m = ⟨2, 2, 1, .admin, 0⟩ from Option.some.inj (hm.symm.trans hadmin)] at hmanage
  cases hmanage

/-- The Admin's request is under way, and has not checked anything, when the Owner's is done with. The
Admin is refused. -/
theorem writes_authorized_iff_in_turn :
    let sched := true :: List.replicate 5 false ++ List.replicate 5 true
    (memberMachine removalAndPromotion).Along (AuthorizedWrite removalAndPromotion)
      (memberStart ownerAdminMember) sched := by
  intro sched
  have hkeeps : (memberMachine removalAndPromotion).Along (KeepsEntitlement removalAndPromotion)
      (memberStart ownerAdminMember) sched := by decide
  exact ((writes_authorized_iff removalAndPromotion ownerAdminMember).2 sched).2 hkeeps

end Bastiq
