import Bastiq.Api
import Bastiq.Billing.Lifecycle

/-!
# Seats

An invitation is checked against the member cap when it is sent, and accepting it is not: the seat
counts as reserved. A plan that shrinks in between takes the reservation back, but not the
invitation. This file follows members, PENDING invitations and cap through whole runs and shows that
this is the only way past the cap.
-/

namespace Bastiq

open Relational Transition

/-- `n` seats are within a cap. -/
def Within (n : Nat) (cap : Option Int) : Prop := ∀ l, cap = some l → (n : Int) ≤ l

/-- The members and PENDING invitations of an organization. -/
def seats (db : Db) (org : Nat) : Nat := memberCount db org + pendingCount db org

/-- An organization with PENDING invitations has its seats within its cap. -/
def Reserved (db : Db) (org : Nat) : Prop :=
  pendingCount db org = 0 ∨ Within (seats db org) (limit db org "max_members")

/-- Every seat that was promised is there, and invitations are to organizations that exist or
existed. -/
structure SeatsInv (db : Db) : Prop where
  reserved : ∀ org, Reserved db org
  placed   : ∀ i ∈ db.invitations.rows, i.val.organization < db.organizations.nextId

theorem Within.mono {n n' : Nat} {cap : Option Int} (h : Within n cap) (hle : n' ≤ n) :
    Within n' cap := by
  intro l hl
  have := h l hl
  omega

theorem within_of_below {n : Nat} {cap : Option Int} (h : below n cap = true) :
    Within (n + 1) cap := by
  rintro l rfl
  simp only [below, decide_eq_true_eq] at h
  omega

theorem below_of_within {n n' : Nat} {cap : Option Int} (h : Within n' cap) (hlt : n < n') :
    below n cap = true := by
  cases cap with
  | none => rfl
  | some l =>
      have := h l rfl
      simp only [below, decide_eq_true_eq]
      omega

/-! ## Members and PENDING invitations -/

theorem pendingCount_setStatus {db : Db} {i : Row Invitation} (hi : i ∈ db.invitations.rows)
    (hpending : i.val.status = .pending) {status : InvitationStatus} (hstatus : status ≠ .pending)
    (org : Nat) :
    pendingCount (setInvitationStatus db i.id status) org +
      (if i.val.organization = org then 1 else 0) = pendingCount db org := by
  have hcount := Table.count_modify hi (fun i : Invitation => { i with status := status })
    (pendingFor org)
  have hbefore : pendingFor org i = decide (i.val.organization = org) := by
    simp [pendingFor, hpending, beq_eq_decide]
  have hafter : pendingFor org ⟨i.id, { i.val with status := status }⟩ = false := by
    simp [pendingFor, hstatus]
  simp only [hbefore, hafter, decide_eq_true_eq, Bool.false_eq_true, if_false] at hcount
  exact hcount

theorem memberCount_insert (db : Db) (m : Membership) (org : Nat) :
    memberCount (insertMembership db m) org =
      memberCount db org + if m.organization = org then 1 else 0 := by
  have hcount : memberCount (insertMembership db m) org = memberCount db org + _ :=
    db.memberships.count_insert m fun m => m.val.organization == org
  simpa only [beq_iff_eq] using hcount

theorem pendingCount_insert (db : Db) {i : Invitation} (hpending : i.status = .pending)
    (org : Nat) :
    pendingCount { db with invitations := db.invitations.insert i } org =
      pendingCount db org + if i.organization = org then 1 else 0 := by
  have hcount : pendingCount { db with invitations := db.invitations.insert i } org =
      pendingCount db org + _ := db.invitations.count_insert i (pendingFor org)
  simpa only [pendingFor, hpending, BEq.rfl, Bool.and_true, beq_iff_eq] using hcount

/-! ## The cap -/

theorem limit_congr {db db' : Db} {org : Nat} (hsub : subscriptionOf db' org = subscriptionOf db org)
    (hplans : db'.plans = db.plans) (key : String) : limit db' org key = limit db org key := by
  unfold limit
  rw [hsub, hplans]

/-- A cap does not depend on who the customer is. -/
theorem limit_saveCustomer (db : Db) (id : Nat) (customer : String) (org : Nat) (key : String) :
    limit (saveCustomer db id customer) org key = limit db org key := by
  unfold limit
  rw [subscriptionOf_saveCustomer]
  cases subscriptionOf db org with
  | none => rfl
  | some sub =>
      have hplan : (Table.setRow (·.id == id) (fun s : Subscription =>
          { s with stripeCustomerId := customer }) sub).val.plan = sub.val.plan := by
        unfold Table.setRow
        split <;> rfl
      simp only [Option.map_some, hplan]
      rfl

/-- The plan an event names is in the catalogue. -/
theorem mem_of_namedPlan {event : StripeEvent} {db : Db} {plan : Row Plan}
    (h : event.namedPlan db = .ok (some plan)) : plan ∈ db.plans.rows := by
  have hactive : ∀ code, activePlan db code = .ok (some plan) → plan ∈ db.plans.rows := by
    intro code h
    cases code with
    | none => cases h
    | some code =>
        obtain ⟨_, -, h⟩ := bind_eq_ok.mp h
        exact Table.mem_of_first? (Except.ok.inj h)
  have hprice : ∀ price, planForPrice db price = .ok (some plan) → plan ∈ db.plans.rows := by
    intro price h
    cases price with
    | none => cases h
    | some price =>
        simp only [planForPrice] at h
        split at h
        · unfold planAtPrice at h
          split at h
          · cases h
          · obtain ⟨_, -, h⟩ := bind_eq_ok.mp h
            exact Table.mem_of_first? (Except.ok.inj h)
        · cases h
  unfold StripeEvent.namedPlan at h
  split at h
  · cases h
  · next hd hhd =>
    rcases StripeEvent.handler_cases hhd with ⟨-, rfl⟩ | ⟨-, rfl⟩ | ⟨-, rfl⟩ | ⟨-, rfl⟩
    · exact hactive _ h
    · exact hprice _ h
    · exact Table.mem_of_first? (Except.ok.inj h)
    · cases h

/-- **What a processed delivery does to the cap of an organization**: nothing, or the event finds
the organization's row and names the plan whose cap it is then. -/
theorem limit_of_process {d : Delivery} {db db' : Db} (h : d.process db = .ok db') (org : Nat)
    (key : String) :
    limit db' org key = limit db org key ∨
      ∃ plan, Reaches db d.event org ∧ d.event.namedPlan db = .ok (some plan) ∧
        limit db' org key = plan.val.limits.get key := by
  have hplans := plans_of_process h
  rcases d.row_after h org with ⟨sub, save, hdecision, hsub, hafter⟩ | ⟨-, hsame⟩
  · obtain ⟨plan, hplan, hsaved⟩ := StripeEvent.decision_plan hdecision d.now
    cases plan with
    | none =>
        left
        simp only [limit, hsub, hafter, hplans, hsaved]
        rfl
    | some plan =>
        refine .inr ⟨plan, ⟨sub, (StripeEvent.decision_eq_some hdecision).1, hsub⟩, hplan, ?_⟩
        have hget : db.plans.get? plan.id = some plan :=
          Table.get?_eq_some_iff.mpr ⟨mem_of_namedPlan hplan, rfl⟩
        simp only [limit, hafter, hplans, hsaved, Option.map_some, Option.getD_some, hget]
  · exact .inl (limit_congr hsame hplans key)

/-! ## One call -/

/-- The event of a processed delivery moves no organization to a plan with too few seats for its
members and PENDING invitations, if it has any of these. -/
def KeepsSeats (db : Db) (c : Call) : Prop :=
  ∀ d, c.request = .webhook d → Processed db d → ∀ org plan, Reaches db d.event org →
    d.event.namedPlan db = .ok (some plan) →
    pendingCount db org = 0 ∨ Within (seats db org) (plan.val.limits.get "max_members")

/-- Fewer seats are asked for under the same cap. -/
theorem Reserved.of_le {db db' : Db} {org : Nat} (h : Reserved db org)
    (hlimit : limit db' org "max_members" = limit db org "max_members")
    (hpending : pendingCount db' org ≤ pendingCount db org) (hseats : seats db' org ≤ seats db org) :
    Reserved db' org := by
  unfold Reserved
  rcases h with hnone | hwithin
  · exact .inl (by omega)
  · rw [hlimit]
    exact .inr (hwithin.mono hseats)

section Change

variable {db : Db}

theorem SeatsInv.setInvitationStatus (h : SeatsInv db) {i : Row Invitation}
    (hi : i ∈ db.invitations.rows) (hpending : i.val.status = .pending)
    {status : InvitationStatus} (hstatus : status ≠ .pending) :
    SeatsInv (setInvitationStatus db i.id status) := by
  constructor
  · intro org
    have hcount := pendingCount_setStatus hi hpending hstatus org
    refine (h.reserved org).of_le rfl (by omega) ?_
    show memberCount db org + _ ≤ memberCount db org + _
    omega
  · intro j hj
    rcases Table.mem_modify.mp hj with ⟨hj, -⟩ | ⟨j₀, hj₀, -, rfl⟩
    · exact h.placed j hj
    · exact h.placed j₀ hj₀

/-- A member takes the seat that the invitation reserved. -/
theorem SeatsInv.joined (h : SeatsInv db) {i : Row Invitation} (hi : i ∈ db.invitations.rows)
    (hpending : i.val.status = .pending) {m : Membership}
    (horg : m.organization = i.val.organization) :
    SeatsInv (Bastiq.setInvitationStatus (insertMembership db m) i.id .accepted) := by
  constructor
  · intro org
    -- one member more and one PENDING invitation less
    have haccepted : InvitationStatus.accepted ≠ .pending := by decide
    have hcount := pendingCount_setStatus hi hpending haccepted org
    have hmembers := memberCount_insert db m org
    rw [horg] at hmembers
    have hpend : pendingCount (Bastiq.setInvitationStatus (insertMembership db m) i.id .accepted)
        org = pendingCount (Bastiq.setInvitationStatus db i.id .accepted) org := rfl
    have hmem : memberCount (Bastiq.setInvitationStatus (insertMembership db m) i.id .accepted)
        org = memberCount (insertMembership db m) org := rfl
    refine (h.reserved org).of_le rfl (by omega) ?_
    unfold seats
    omega
  · intro j hj
    rcases Table.mem_modify.mp hj with ⟨hj, -⟩ | ⟨j₀, hj₀, -, rfl⟩
    · exact h.placed j hj
    · exact h.placed j₀ hj₀

/-- An invitation takes one of the seats that are left. -/
theorem SeatsInv.invited (h : SeatsInv db) {i : Invitation} (hpending : i.status = .pending)
    (hplaced : i.organization < db.organizations.nextId)
    (hroom : below (seats db i.organization) (limit db i.organization "max_members") = true) :
    SeatsInv { db with invitations := db.invitations.insert i } := by
  constructor
  · intro org
    have hcount := pendingCount_insert db hpending org
    by_cases horg : i.organization = org
    · subst horg
      rw [if_pos rfl] at hcount
      -- the room that was checked is for exactly this one
      refine .inr ((within_of_below hroom).mono ?_)
      show memberCount db i.organization + _ ≤ memberCount db i.organization + _ + 1
      omega
    · rw [if_neg horg] at hcount
      refine (h.reserved org).of_le rfl (by omega) ?_
      show memberCount db org + _ ≤ memberCount db org + _
      omega
  · intro j hj
    rcases Table.mem_insert.mp hj with hj | rfl
    · exact h.placed j hj
    · exact hplaced

theorem SeatsInv.withMemberships (h : SeatsInv db) {t : Table Membership}
    (ht : ∀ org, t.count (fun m => m.val.organization == org) ≤ memberCount db org) :
    SeatsInv { db with memberships := t } := by
  refine ⟨fun org => (h.reserved org).of_le rfl (Nat.le_refl _) ?_, h.placed⟩
  have := ht org
  show t.count _ + pendingCount db org ≤ _
  unfold seats
  omega

/-- Nothing that seats depend on has changed. -/
theorem SeatsInv.congr (h : SeatsInv db) {db' : Db} (horgs : db'.organizations = db.organizations)
    (hmembers : db'.memberships = db.memberships) (hinvites : db'.invitations = db.invitations)
    (hlimit : ∀ org, limit db' org "max_members" = limit db org "max_members") :
    SeatsInv db' := by
  have hpending : ∀ org, pendingCount db' org = pendingCount db org := by
    intro org
    rw [pendingCount, pendingCount, hinvites]
  have hseats : ∀ org, seats db' org = seats db org := by
    intro org
    rw [seats, seats, hpending, memberCount, memberCount, hmembers]
  constructor
  · intro org
    exact (h.reserved org).of_le (hlimit org) (hpending org).le (hseats org).le
  · rw [hinvites, horgs]
    exact h.placed

theorem SeatsInv.saved (h : SeatsInv db) (id : Nat) (saved : Organization) :
    SeatsInv { db with organizations := db.organizations.modify id fun _ => saved } :=
  ⟨h.reserved, h.placed⟩

/-- A new organization has no invitations, and nobody else's cap depends on it. -/
theorem SeatsInv.created (h : SeatsInv db) {user : Nat} {name slug : String} {now : Int}
    {o : Row Organization} {db' : Db}
    (hinsert : insertOrganization db user name slug now = .ok (o, db')) : SeatsInv db' := by
  obtain ⟨ho, subs, hdb, hsubs⟩ := insertOrganization_eq_ok hinsert
  have hid : o.id = db.organizations.nextId := by rw [ho]
  have hlimit : ∀ org, o.id ≠ org →
      limit db' org "max_members" = limit db org "max_members" := by
    intro org hnew
    refine limit_congr ?_ (by rw [hdb]) _
    rw [hdb]
    show subs.first? _ = _
    rw [hsubs]
    exact subscriptionOf_createFreeSubscription _ now hnew
  have hpending : ∀ org, pendingCount db' org = pendingCount db org := fun org => by rw [hdb]; rfl
  constructor
  · intro org
    by_cases hnew : o.id = org
    · refine .inl ?_
      rw [hpending]
      -- an invitation to it would be older than the organization
      refine Table.count_eq_zero_iff.mpr fun i hi => ?_
      have hlt := h.placed i hi
      have hne : i.val.organization ≠ org := by omega
      simp [pendingFor, hne]
    · have hmembers : memberCount db' org =
          memberCount db org + if o.id = org then 1 else 0 := by
        rw [hdb]
        exact memberCount_insert db ⟨user, o.id, .owner, now⟩ org
      rw [if_neg hnew] at hmembers
      refine (h.reserved org).of_le (hlimit org hnew) (hpending org).le ?_
      rw [seats, seats, hpending, hmembers]
      exact Nat.le_refl _
  · rw [hdb]
    exact fun i hi => Nat.lt_succ_of_lt (h.placed i hi)

/-- With an organization go its seats. -/
theorem SeatsInv.destroyed (h : SeatsInv db) (org : Nat) : SeatsInv (deleteOrganization db org) := by
  constructor
  · intro other
    have hpending : pendingCount (deleteOrganization db org) other ≤ pendingCount db other :=
      Table.count_delete_le _ _ _
    have hmembers : memberCount (deleteOrganization db org) other ≤ memberCount db other :=
      Table.count_delete_le _ _ _
    by_cases hother : org = other
    · refine .inl (Table.count_eq_zero_iff.mpr fun i hi => ?_)
      have hkept := (Table.mem_delete.mp hi).2
      rw [hother] at hkept
      simp [pendingFor, hkept]
    · have hlimit : subscriptionOf (deleteOrganization db org) other = subscriptionOf db other := by
        refine Table.first?_delete_of_disjoint _ fun sub _ hsub => ?_
        rw [beq_iff_eq] at hsub
        rw [hsub]
        simpa using fun heq => hother heq.symm
      refine (h.reserved other).of_le (limit_congr hlimit rfl _) hpending ?_
      unfold seats
      omega
  · intro i hi
    exact h.placed i (Table.mem_delete.mp hi).1

theorem SeatsInv.delivered (h : SeatsInv db) {d : Delivery} {db' : Db}
    (hprocess : d.process db = .ok db')
    (hkeeps : ∀ org plan, Reaches db d.event org → d.event.namedPlan db = .ok (some plan) →
      pendingCount db org = 0 ∨ Within (seats db org) (plan.val.limits.get "max_members")) :
    SeatsInv db' := by
  obtain ⟨-, -, write, -, hdb⟩ := Delivery.process_eq_ok.mp hprocess
  have hseats : ∀ org, seats db' org = seats db org ∧ pendingCount db' org = pendingCount db org ∧
      db'.organizations = db.organizations ∧ db'.invitations = db.invitations := by
    rw [hdb]
    exact fun org => ⟨rfl, rfl, rfl, rfl⟩
  constructor
  · intro org
    obtain ⟨heq, hpending, -⟩ := hseats org
    rcases limit_of_process hprocess org "max_members" with hlimit |
      ⟨plan, hreaches, hplan, hlimit⟩
    · exact (h.reserved org).of_le hlimit hpending.le heq.le
    · unfold Reserved
      rw [hpending, heq, hlimit]
      exact hkeeps org plan hreaches hplan
  · obtain ⟨-, -, horgs, hinvites⟩ := hseats 0
    rw [horgs, hinvites]
    exact h.placed

end Change

/-- **One call keeps what was promised**, unless it is an event that takes seats away. -/
theorem SeatsInv.step {E : Env} {db : Db} {c : Call} (h : SeatsInv db) (hkeeps : KeepsSeats db c) :
    SeatsInv (c.step E db) := by
  have hchange := c.change E db
  generalize c.step E db = db' at hchange ⊢
  cases hchange with
  | none => exact h
  | created _ _ hinsert => exact h.created hinsert
  | saved => exact h.saved _ _
  | destroyed => exact h.destroyed _
  | removed => exact h.withMemberships fun org => Table.count_delete_le _ _ _
  | roleSet =>
      refine h.withMemberships fun org => (Table.count_update _ fun r _ => ?_).le
      unfold Table.setRow
      split <;> rfl
  | invited _ _ horg _ _ _ _ hroom _ =>
      exact h.invited rfl (db.organizations.fresh _ horg) hroom
  | expired hi hstatus => exact h.setInvitationStatus hi hstatus (by decide)
  | used _ _ hi hstatus _ _ => exact h.setInvitationStatus hi hstatus (by decide)
  | joined _ _ hi hstatus _ _ => exact h.joined hi hstatus rfl
  | projectCreated => exact h.congr rfl rfl rfl fun _ => rfl
  | projectSaved => exact h.congr rfl rfl rfl fun _ => rfl
  | projectDeleted => exact h.congr rfl rfl rfl fun _ => rfl
  | registered => exact h.congr rfl rfl rfl fun _ => rfl
  | accountWritten => exact h.congr rfl rfl rfl fun _ => rfl
  | customer =>
      exact h.congr rfl rfl rfl fun org => limit_saveCustomer db _ _ org _
  | delivered hrequest hledger hprocess =>
      exact h.delivered hprocess (hkeeps _ hrequest ⟨hledger, _, hprocess⟩)

/-! ## Members who are added -/

/-- A step adds a membership of `org`. -/
def AddsMember (db db' : Db) (org : Nat) : Prop :=
  ∃ m ∈ db'.memberships.rows, m.val.organization = org ∧
    ∀ m₀ ∈ db.memberships.rows, m₀.id ≠ m.id

/-- If the call adds a member to an organization that exists, there is a seat for them. -/
def AddsWithinCap (E : Env) (db : Db) (c : Call) : Prop :=
  ∀ org, (∃ o ∈ db.organizations.rows, o.id = org) → AddsMember db (c.step E db) org →
    below (memberCount db org) (limit db org "max_members") = true

theorem not_addsMember {db db' : Db} {org : Nat}
    (h : ∀ m ∈ db'.memberships.rows, ∃ m₀ ∈ db.memberships.rows, m₀.id = m.id) :
    ¬ AddsMember db db' org := by
  rintro ⟨m, hm, -, hnew⟩
  obtain ⟨m₀, hm₀, hid⟩ := h m hm
  exact hnew m₀ hm₀ hid

theorem not_addsMember_of_eq {db db' : Db} {org : Nat} (h : db'.memberships = db.memberships) :
    ¬ AddsMember db db' org := by
  refine not_addsMember fun m hm => ?_
  rw [h] at hm
  exact ⟨m, hm, rfl⟩

/-- **Who is added has a seat**: a call adds a member to an organization that exists only when an
invitation is accepted, and then the seat was reserved. -/
theorem SeatsInv.addsWithinCap {E : Env} {db : Db} {c : Call} (h : SeatsInv db) :
    AddsWithinCap E db c := by
  intro org horg hadds
  have hchange := c.change E db
  generalize c.step E db = db' at hchange hadds
  cases hchange with
  | @joined user i _ _ hi hstatus _ _ =>
      obtain ⟨m, hm, hmorg, hnew⟩ := hadds
      rcases Table.mem_insert.mp hm with hm | rfl
      · exact absurd rfl (hnew m hm)
      · -- the invitation is one of the PENDING ones, so the seats are within the cap
        have hpending : 0 < pendingCount db org :=
          Table.count_pos_iff.mpr ⟨i, hi, by simpa [pendingFor, hstatus] using hmorg⟩
        rcases h.reserved org with hnone | hwithin
        · omega
        · refine below_of_within hwithin ?_
          unfold seats
          omega
  | created _ _ hinsert =>
      obtain ⟨ho, subs, rfl, -⟩ := insertOrganization_eq_ok hinsert
      obtain ⟨m, hm, hmorg, hnew⟩ := hadds
      rcases Table.mem_insert.mp hm with hm | rfl
      · exact absurd rfl (hnew m hm)
      · -- the organization of the new membership is new itself
        obtain ⟨o', ho', hid⟩ := horg
        have hlt := db.organizations.fresh o' ho'
        rw [ho] at hmorg
        have hmorg : db.organizations.nextId = org := hmorg
        omega
  | destroyed =>
      exact absurd hadds (not_addsMember fun m hm => ⟨m, (Table.mem_delete.mp hm).1, rfl⟩)
  | removed =>
      exact absurd hadds (not_addsMember fun m hm => ⟨m, (Table.mem_delete.mp hm).1, rfl⟩)
  | roleSet =>
      refine absurd hadds (not_addsMember fun m hm => ?_)
      obtain ⟨m₀, hm₀, rfl⟩ := Table.mem_update.mp hm
      exact ⟨m₀, hm₀, (Table.setRow_id ..).symm⟩
  | delivered _ _ hprocess =>
      obtain ⟨-, -, write, -, hdb⟩ := Delivery.process_eq_ok.mp hprocess
      exact absurd hadds (not_addsMember_of_eq (by rw [hdb]; rfl))
  | none => exact absurd hadds (not_addsMember_of_eq rfl)
  | saved => exact absurd hadds (not_addsMember_of_eq rfl)
  | invited => exact absurd hadds (not_addsMember_of_eq rfl)
  | expired => exact absurd hadds (not_addsMember_of_eq rfl)
  | used => exact absurd hadds (not_addsMember_of_eq rfl)
  | projectCreated => exact absurd hadds (not_addsMember_of_eq rfl)
  | projectSaved => exact absurd hadds (not_addsMember_of_eq rfl)
  | projectDeleted => exact absurd hadds (not_addsMember_of_eq rfl)
  | registered => exact absurd hadds (not_addsMember_of_eq rfl)
  | accountWritten => exact absurd hadds (not_addsMember_of_eq rfl)
  | customer => exact absurd hadds (not_addsMember_of_eq rfl)

/-- **When the member cap holds.** In every run in which no event moves an organization with PENDING
invitations to a plan with too few seats for them, every call that adds a member to an organization
finds it below the cap of its current plan. -/
theorem members_within_cap (E : Env) {db : Db} (hdb : SeatsInv db) (calls : List Call)
    (h : Each (Call.step E) KeepsSeats db calls) :
    Each (Call.step E) (AddsWithinCap E) db calls := by
  have hinv : States (Call.step E) SeatsInv db calls :=
    states_of_each (fun db c hdb hkeeps => hdb.step hkeeps) hdb h
  exact each_of_states (fun db c hdb _ => hdb.addsWithinCap) hinv

/-- Where nobody is invited, nothing is promised. -/
theorem seatsInv_of_no_invitations {db : Db} (h : db.invitations.rows = []) : SeatsInv db := by
  constructor
  · intro org
    refine .inl (Table.count_eq_zero_iff.mpr fun i hi => ?_)
    rw [h] at hi
    cases hi
  · intro i hi
    rw [h] at hi
    cases hi

/-! ## A plan that shrinks -/

/-- Organization 1 has three members and is on plan Pro. -/
def threeMembers : Db where
  users := (((Table.empty.insert { email := "a@x.io", password := "" }).insert
    { email := "b@x.io", password := "" }).insert { email := "c@x.io", password := "" }).insert
    { email := "d@x.io", password := "" }
  organizations := Table.empty.insert ⟨"Acme", "acme", some 1, 0⟩
  memberships := ((Table.empty.insert ⟨1, 1, .owner, 0⟩).insert ⟨2, 1, .member, 0⟩).insert
    ⟨3, 1, .member, 0⟩
  plans := smallBilling.plans
  subscriptions := Table.empty.insert
    { organization := 1, plan := 2, stripeSubscriptionId := "sub_1", updatedAt := 0 }

/-- The Owner invites user 4. -/
def invitesFourth : Call :=
  ⟨some 1, .invite "1" (.json (.obj [("email", .str "d@x.io")])), ⟨0, "secret", true⟩⟩

/-- User 4 accepts. -/
def fourthAccepts : Call :=
  ⟨some 4, .accept (.json (.obj [("token", .str "secret")])), ⟨50, "", true⟩⟩

/-- The paid subscription ends. -/
def paidPlanEnds : Call := ⟨none, .webhook (deletionOf "evt_1" "sub_1"), ⟨30, "", true⟩⟩

/-- The invitation is sent on plan Pro and accepted on Free, whose three seats are taken. -/
theorem accepted_over_cap :
    SeatsInv threeMembers ∧ ¬ Each (Call.step Env.ascii) (AddsWithinCap Env.ascii) threeMembers
      [invitesFourth, paidPlanEnds, fourthAccepts] := by
  refine ⟨seatsInv_of_no_invitations rfl, fun h => ?_⟩
  obtain ⟨-, -, hadds, -⟩ := h
  refine absurd (hadds 1 (by decide) ?_) (by decide)
  exact ⟨⟨4, 4, 1, .member, 50⟩, by decide, rfl, by decide⟩

/-- The paid subscription is renewed. -/
def paidPlanRenewed : Call :=
  ⟨none, .webhook (updateOf "evt_2" "sub_1" "active"), ⟨20, "", true⟩⟩

/-- Sent on plan Pro, which is renewed while there is room, and accepted on it. When the plan ends
nobody is invited any more. -/
theorem members_within_cap_accepted :
    let calls := [invitesFourth, paidPlanRenewed, fourthAccepts, paidPlanEnds]
    memberCount (run (Call.step Env.ascii) threeMembers calls) 1 = 4 ∧
      Each (Call.step Env.ascii) (AddsWithinCap Env.ascii) threeMembers calls := by
  intro calls
  have hrenewed : KeepsSeats (run (Call.step Env.ascii) threeMembers (calls.take 1))
      paidPlanRenewed := by
    rintro d ⟨⟩ - org plan ⟨sub, -, hsub⟩ hplan
    have hpro : (updateOf "evt_2" "sub_1" "active").event.namedPlan
        (run (Call.step Env.ascii) threeMembers (calls.take 1)) =
          .ok (smallBilling.plans.get? 2) := by rfl
    have hpos : (sub.val.organization == org) = true := Table.pos_of_first? hsub
    have horg := beq_iff_eq.mp hpos
    cases List.mem_singleton.mp (Table.mem_of_first? hsub)
    cases horg
    cases hpro.symm.trans hplan
    refine .inr fun l hl => ?_
    cases hl
    decide
  have hended : KeepsSeats (run (Call.step Env.ascii) threeMembers (calls.take 3))
      paidPlanEnds := by
    intro d _ _ org plan _ _
    refine .inl (Table.count_eq_zero_iff.mpr fun i hi => ?_)
    have hstatus : i.val.status = .accepted := by
      cases List.mem_singleton.mp hi
      rfl
    simp [pendingFor, hstatus]
  have hkeeps : Each (Call.step Env.ascii) KeepsSeats threeMembers calls :=
    ⟨(fun _ h => nomatch h), hrenewed, (fun _ h => nomatch h), hended, trivial⟩
  exact ⟨by decide, members_within_cap Env.ascii (seatsInv_of_no_invitations rfl) calls hkeeps⟩

end Bastiq
