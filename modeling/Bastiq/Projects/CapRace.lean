import Bastiq.Projects.Statements
import Bastiq.Billing.LostUpdate

/-!
# The project cap under concurrency

Creations, deletions and billing operations side by side, for an organization with a subscription
row. A creation holds that row locked from before it reads its plan until it commits, and both what
moves the plan and what adds a project must hold the row too; so what a creation has read and
counted is still so, or better, when it commits.
-/

namespace Bastiq

open Relational View Transition Concurrency

/-! ## The machine -/

inductive CapOp where
  | project (q : ProjectCall)
  | billing (op : BillingOp)

inductive CapProgress where
  | project (l : ProjectProgress)
  | billing (l : Progress)

variable {ι : Type} [DecidableEq ι]

/-- The part of the store that a project request uses. -/
def BillingStore.locked (s : BillingStore ι) : LockedDb Nat ι := ⟨s.db, s.rows⟩

def BillingStore.withLocked (s : BillingStore ι) (t : LockedDb Nat ι) : BillingStore ι :=
  { s with db := t.db, rows := t.locks }

/-- The next statement of an operation. A project request locks the rows that deliveries write. -/
def capStep (op : CapOp) (i : ι) :
    CapProgress → BillingStore ι → Option (CapProgress × BillingStore ι)
  | .project l, s => match op with
      | .project q => (projectStep id q i l s.locked).map fun out =>
          (.project out.1, s.withLocked out.2)
      | .billing _ => none
  | .billing l, s => match op with
      | .billing op => ((billingMachine fun _ => op).step i l s).map fun out =>
          (.billing out.1, out.2)
      | .project _ => none

/-- The operations side by side. -/
def capMachine (ops : ι → CapOp) : Machine ι (BillingStore ι) CapProgress where
  step i := capStep (ops i) i

def CapOp.start : CapOp → CapProgress
  | .project _ => .project .start
  | .billing _ => .billing .start

/-- Nothing has started. -/
def capStart (ops : ι → CapOp) (db : Db) : Config ι (BillingStore ι) CapProgress :=
  ⟨⟨db, Locks.free, Locks.free⟩, fun i => (ops i).start⟩

theorem capStep_eq_some {op : CapOp} {i : ι} {l l' : CapProgress} {s s' : BillingStore ι}
    (h : capStep op i l s = some (l', s')) :
    (∃ q m m' t, op = .project q ∧ l = .project m ∧ l' = .project m' ∧
      projectStep id q i m s.locked = some (m', t) ∧ s' = s.withLocked t) ∨
    ∃ b m m', op = .billing b ∧ l = .billing m ∧ l' = .billing m' ∧
      (billingMachine fun _ => b).step i m s = some (m', s') := by
  cases l with
  | project m =>
      cases op with
      | billing b => cases h
      | project q =>
          obtain ⟨⟨m', t⟩, hstep, hout⟩ := Option.map_eq_some_iff.mp h
          cases hout
          exact .inl ⟨q, m, m', t, rfl, rfl, rfl, hstep, rfl⟩
  | billing m =>
      cases op with
      | project q => cases h
      | billing b =>
          obtain ⟨⟨m', t⟩, hstep, hout⟩ := Option.map_eq_some_iff.mp h
          cases hout
          exact .inr ⟨b, m, m', rfl, rfl, rfl, hstep⟩

/-! ## Subscription rows stay with their organizations -/

/-- The subscription rows and the organizations they belong to. -/
def rowOwners (db : Db) : List (Nat × Nat) :=
  db.subscriptions.rows.map fun r => (r.id, r.val.organization)

theorem mem_rowOwners {db : Db} {r : Row Subscription} (h : r ∈ db.subscriptions.rows) :
    (r.id, r.val.organization) ∈ rowOwners db :=
  List.mem_map.mpr ⟨r, h, rfl⟩

/-- Which row an organization has depends on the owners only. -/
theorem subscriptionOf_id (db : Db) (org : Nat) :
    (subscriptionOf db org).map Row.id =
      ((rowOwners db).find? fun p => p.2 == org).map Prod.fst := by
  rw [rowOwners, List.find?_map, Option.map_map]
  rfl

/-- The write gives a row of the organization it was decided for to no other. -/
def KeepsOrganization (sub : Row Subscription) (save : Save) : Prop :=
  ∀ now x, x.organization = sub.val.organization →
    (save.apply now x).organization = x.organization

theorem keepsOrganization_of_decide {event : StripeEvent} {h : Handler} {db : Db}
    {sub : Row Subscription} {save : Save} (hh : event.handler = some h)
    (hdecide : h.decide db event.object sub.val = .ok save) : KeepsOrganization sub save := by
  obtain ⟨plan, -, hsave⟩ := bind_eq_ok.mp hdecide
  intro now x hx
  rcases StripeEvent.handler_cases hh with ⟨-, rfl⟩ | ⟨-, rfl⟩ | ⟨-, rfl⟩ | ⟨-, rfl⟩
  · cases hsave
    exact hx.symm
  · obtain ⟨periodEnd, -, hsave⟩ := bind_eq_ok.mp hsave
    cases hsave
    exact hx.symm
  · cases hsave
    exact hx.symm
  · cases hsave
    rfl

/-- What a billing operation knows: it looks where its handler looks, and the row it writes is one
of the rows there are, which it leaves to its organization. -/
def Rightful (owners : List (Nat × Nat)) : BillingOp → Progress → Prop
  | .webhook d, .looking h queries =>
      d.event.handler = some h ∧ queries ⊆ h.lookups d.event.object
  | .webhook _, .decided sub save =>
      (sub.id, sub.val.organization) ∈ owners ∧ KeepsOrganization sub save
  | .webhook _, .ready (some (sub, save)) =>
      (sub.id, sub.val.organization) ∈ owners ∧ KeepsOrganization sub save
  | _, _ => True

/-- Who is about to commit a write holds the row. -/
def HoldsRow (i : ι) (s : BillingStore ι) (l : Progress) : Prop :=
  ∀ sub save, l = .ready (some (sub, save)) → s.rows sub.id = some i

omit [DecidableEq ι] in
/-- Who has not got to a row yet, or is past it, holds what they like. -/
theorem rightful_of_not_open {owners : List (Nat × Nat)} {d : Delivery} {i : ι} {l : Progress}
    {s : BillingStore ι} (hl : l.isOpen = false) :
    Rightful owners (.webhook d) l ∧ HoldsRow i s l := by
  constructor
  · cases l with
    | looking hd queries => cases hl
    | decided sub save => cases hl
    | ready write => cases hl
    | _ => trivial
  · rintro sub save rfl
    cases hl

omit [DecidableEq ι] in
theorem holdsRow_of_ne {i : ι} {s : BillingStore ι} {l : Progress}
    (hl : ∀ write, l ≠ .ready (some write)) : HoldsRow i s l :=
  fun sub save hready => absurd hready (hl (sub, save))

omit [DecidableEq ι] in
theorem rightful_without_write {owners : List (Nat × Nat)} {d : Delivery} {i : ι}
    {s : BillingStore ι} :
    Rightful owners (.webhook d) (.ready none) ∧ HoldsRow i s (.ready none) :=
  ⟨trivial, holdsRow_of_ne fun _ hl => by cases hl⟩

theorem rightful_of_webhookStep {d : Delivery} {i : ι} {l l' : Progress} {s s' : BillingStore ι}
    (h : Rightful (rowOwners s.db) (.webhook d) l) (hstep : webhookStep d i l s = some (l', s')) :
    Rightful (rowOwners s.db) (.webhook d) l' ∧ HoldsRow i s' l' := by
  cases deliveryMove_of_step hstep with
  | record =>
      unfold StripeEvent.handling
      split
      · exact rightful_without_write
      · next hd hhd =>
        exact ⟨⟨hhd, List.Subset.refl _⟩, holdsRow_of_ne fun _ hl => by cases hl⟩
  | @work _ _ rows hl hl' hrows =>
      have hwork := workMove_of_step hstep hl hl'
      clear hstep hrows
      generalize ({ s with rows := rows } : BillingStore ι) = s' at hwork ⊢
      cases hwork with
      | unfound => exact rightful_without_write
      | @missed hd query queries hmissed =>
          obtain ⟨hhd, hqueries⟩ := h
          refine ⟨⟨hhd, fun q hq => hqueries (List.mem_cons_of_mem query hq)⟩, ?_⟩
          exact holdsRow_of_ne fun _ hl => by cases hl
      | found hfound hdecide =>
          -- the row that was found is locked from here on, and stays its organization's
          obtain ⟨hhd, hqueries⟩ := h
          have hsub := mem_of_lookup (hqueries List.mem_cons_self) hfound
          refine ⟨⟨mem_rowOwners hsub, keepsOrganization_of_decide hhd hdecide⟩, ?_⟩
          exact holdsRow_of_ne fun _ hl => by cases hl
      | locked hfits hacquire =>
          refine ⟨h, ?_⟩
          rintro sub save ⟨⟩
          exact Locks.acquire_self hacquire
  | _ => exact rightful_of_not_open rfl

theorem rightful_of_step {op : BillingOp} {i : ι} {l l' : Progress} {s s' : BillingStore ι}
    (h : Rightful (rowOwners s.db) op l)
    (hstep : (billingMachine fun _ => op).step i l s = some (l', s')) :
    Rightful (rowOwners s.db) op l' ∧ HoldsRow i s' l' := by
  cases op with
  | webhook d => exact rightful_of_webhookStep h hstep
  | ensureCustomer org create =>
      refine ⟨trivial, ?_⟩
      rintro sub save rfl
      cases customerMove_of_step hstep

/-- A statement of process `i` writes subscription rows only where no other process holds the row,
and leaves each row to its organization. -/
def RowWrite (i : ι) (s : BillingStore ι) (db' : Db) : Prop :=
  db'.subscriptions = s.db.subscriptions ∨
    ∃ k f, (∀ j, s.rows k = some j → j = i) ∧
      db'.subscriptions = s.db.subscriptions.modify k f ∧
      ∀ r ∈ s.db.subscriptions.rows, r.id = k → (f r.val).organization = r.val.organization

theorem rowWrite_of_customer {org : Nat} {create : Except Failure String} {i : ι} {l l' : Progress}
    {s s' : BillingStore ι} (hstep : ensureCustomerStep org create i l s = some (l', s')) :
    RowWrite i s s'.db := by
  cases l with
  | calling sub =>
      simp only [ensureCustomerStep] at hstep
      split at hstep
      · cases hstep; exact .inl rfl
      · split at hstep
        · split at hstep
          · cases hstep
          · next rows hacquire =>
            cases hstep
            exact .inr ⟨sub.id, _, fun j hj => Locks.acquire_holder hacquire hj, rfl,
              fun _ _ _ => rfl⟩
        · cases hstep; exact .inl rfl
  | start => cases customerMove_of_step hstep <;> exact .inl rfl
  | _ => cases customerMove_of_step hstep

theorem rowWrite_of_step {op : BillingOp} {i : ι} {l l' : Progress} {s s' : BillingStore ι}
    (h : Rightful (rowOwners s.db) op l) (hholds : HoldsRow i s l)
    (hstep : (billingMachine fun _ => op).step i l s = some (l', s')) : RowWrite i s s'.db := by
  cases op with
  | webhook d =>
      cases deliveryMove_of_step hstep with
      | commit hfault =>
          rename_i write
          cases write with
          | none => exact .inl rfl
          | some w =>
              obtain ⟨sub, save⟩ := w
              have hheld := hholds sub save rfl
              refine .inr ⟨sub.id, save.apply d.now, fun j hj => ?_, rfl, fun r hr hid => ?_⟩
              · rw [hheld] at hj
                exact (Option.some.inj hj).symm
              · obtain ⟨r₀, hr₀, hpair⟩ := List.mem_map.mp h.1
                obtain ⟨hid₀, horg₀⟩ := Prod.mk.inj hpair
                obtain rfl := s.db.subscriptions.eq_of_id_eq hr hr₀ (hid.trans hid₀.symm)
                exact h.2 d.now r.val horg₀
      | _ => exact .inl rfl
  | ensureCustomer org create => exact rowWrite_of_customer hstep

/-- Nobody takes a row from its holder. -/
theorem rows_kept_of_step {op : BillingOp} {i j : ι} {l l' : Progress} {s s' : BillingStore ι}
    (hstep : (billingMachine fun _ => op).step i l s = some (l', s')) (hne : j ≠ i) {k : Nat}
    (hk : s.rows k = some j) : s'.rows k = some j := by
  cases op with
  | webhook d =>
      cases deliveryMove_of_step hstep with
      | work _ _ hrows =>
          rcases hrows with rfl | ⟨k', hacquire⟩
          · exact hk
          · exact Locks.acquire_held hacquire hk
      | raised => exact Locks.release_held hk hne
      | commit => exact Locks.release_held hk hne
      | _ => exact hk
  | ensureCustomer org create =>
      cases customerMove_of_step hstep <;> exact hk

omit [DecidableEq ι] in
theorem RowWrite.rowOwners_eq {i : ι} {s : BillingStore ι} {db' : Db} (h : RowWrite i s db') :
    rowOwners db' = rowOwners s.db := by
  rcases h with hsame | ⟨k, f, -, hmodify, hkeeps⟩
  · rw [rowOwners, hsame, rowOwners]
  · rw [rowOwners, hmodify, Table.modify, Table.rows_update, List.map_map, rowOwners]
    apply List.map_congr_left
    intro r hr
    by_cases hid : r.id = k
    · rw [Function.comp_apply, Table.setRow_of_pos (by simpa using hid), hkeeps r hr hid]
    · rw [Function.comp_apply, Table.setRow_of_neg (by simpa using hid)]

omit [DecidableEq ι] in
/-- A row that another process holds is not written. -/
theorem RowWrite.subscriptionOf_eq {i j : ι} {s : BillingStore ι} {db' : Db} (h : RowWrite i s db')
    {org : Nat} {sub : Row Subscription} (hsub : subscriptionOf s.db org = some sub)
    (hheld : s.rows sub.id = some j) (hne : j ≠ i) :
    subscriptionOf db' org = subscriptionOf s.db org := by
  rcases h with hsame | ⟨k, f, hown, hmodify, hkeeps⟩
  · rw [subscriptionOf, hsame, subscriptionOf]
  · have hk : sub.id ≠ k := by
      rintro rfl
      exact hne (hown j hheld)
    have hupdate := s.db.subscriptions.first?_update (p := (·.id == k)) (f := f)
      (q := fun r => r.val.organization == org) fun r hr => by
        by_cases hid : r.id = k
        · rw [Table.setRow_of_pos (by simpa using hid), hkeeps r hr hid]
        · rw [Table.setRow_of_neg (by simpa using hid)]
    rw [subscriptionOf, hmodify, Table.modify, hupdate]
    change (subscriptionOf s.db org).map _ = _
    rw [hsub, Option.map_some, Table.setRow_of_neg (by simpa using hk)]

/-! ## What a creation knows -/

/-- The organization has a subscription row under key `k`. -/
def HasRow (org k : Nat) (db : Db) : Prop := ∃ sub, subscriptionOf db org = some sub ∧ sub.id = k

/-- One more project fits. -/
def HasRoom (org : Nat) (db : Db) : Prop :=
  below (projectCount db org) (limit db org "max_projects") = true

/-- What a creation for `org` knows from when it holds row `k` locked. -/
def Counted (org k : Nat) (i : ι) (s : BillingStore ι) : ProjectProgress → Prop
  | .locked new => new.organization = org → s.rows k = some i
  | .subscribed new sub =>
      new.organization = org → s.rows k = some i ∧ sub = subscriptionOf s.db org
  | .capped new l =>
      new.organization = org → s.rows k = some i ∧ limit s.db org "max_projects" = some l
  | .allowed new => new.organization = org → s.rows k = some i ∧ HasRoom org s.db
  | .inserted new => new.organization = org → s.rows k = some i ∧ HasRoom org s.db
  | _ => True

/-- What operation `i` knows. -/
def CapKnown (ops : ι → CapOp) (org k : Nat) (i : ι) (s : BillingStore ι) : CapProgress → Prop
  | .project l => Counted org k i s l
  | .billing l => ∀ op, ops i = .billing op → Rightful (rowOwners s.db) op l ∧ HoldsRow i s l

section Step

variable {ops : ι → CapOp} {org k : Nat} {i j : ι} {s s' : BillingStore ι}

omit [DecidableEq ι] in
theorem hasRow_of_rowOwners {db db' : Db} (h : HasRow org k db)
    (howners : rowOwners db' = rowOwners db) : HasRow org k db' := by
  obtain ⟨sub, hsub, hk⟩ := h
  have hid := subscriptionOf_id db' org
  rw [howners, ← subscriptionOf_id, hsub] at hid
  obtain ⟨sub', hsub', hk'⟩ := Option.map_eq_some_iff.mp hid
  exact ⟨sub', hsub', hk'.trans hk⟩

/-- **A creation learns what is so**, and learns it with the row in its hands. -/
theorem Counted.of_move {m m' : ProjectProgress} {t : LockedDb Nat ι} (h : Counted org k i s m)
    (hrow : HasRow org k s.db) (hmove : ProjectMove id i s.locked m m' t) :
    Counted org k i (s.withLocked t) m' := by
  obtain ⟨sub, hsub, hk⟩ := hrow
  cases hmove with
  | unlocked hnone =>
      rintro rfl
      change subscriptionOf s.db _ = none at hnone
      rw [hsub] at hnone
      cases hnone
  | locked hfound hlocks =>
      rintro rfl
      obtain rfl := Option.some.inj (hsub.symm.trans hfound)
      rw [← hk]
      exact Locks.acquire_self hlocks
  | subscribed =>
      rintro rfl
      exact ⟨h rfl, rfl⟩
  -- a plan without a cap has room for everybody
  | @unlimited new _ hlimit =>
      rintro rfl
      obtain ⟨hheld, rfl⟩ := h rfl
      have hnone : limit s.db new.organization "max_projects" = none := hlimit
      have hroom : HasRoom new.organization s.db := by
        rw [HasRoom, hnone]
        rfl
      exact ⟨hheld, hroom⟩
  | capped hlimit =>
      rintro rfl
      obtain ⟨hheld, rfl⟩ := h rfl
      exact ⟨hheld, hlimit⟩
  | @allowed new _ hbelow =>
      rintro rfl
      obtain ⟨hheld, hlimit⟩ := h rfl
      have hroom : HasRoom new.organization s.db := by
        rw [HasRoom, hlimit]
        exact hbelow
      exact ⟨hheld, hroom⟩
  | inserted => exact h
  | _ => trivial

/-- What a statement spares a process that holds row `k`: its locks, its organization's row and
plan, and the room it has counted. -/
structure Spares (org k : Nat) (j : ι) (s s' : BillingStore ι) : Prop where
  owners : rowOwners s'.db = rowOwners s.db
  plans : s'.db.plans = s.db.plans
  held : ∀ k', s.rows k' = some j → s'.rows k' = some j
  row : s.rows k = some j → subscriptionOf s'.db org = subscriptionOf s.db org
  count : s.rows k = some j → projectCount s'.db org ≤ projectCount s.db org

omit [DecidableEq ι] in
theorem Spares.limit_eq (h : Spares org k j s s') (hheld : s.rows k = some j) (key : String) :
    limit s'.db org key = limit s.db org key := by
  rw [Bastiq.limit_eq, Bastiq.limit_eq, h.row hheld, planLimit_congr h.plans]

omit [DecidableEq ι] in
theorem Spares.hasRoom (h : Spares org k j s s') (hheld : s.rows k = some j)
    (hroom : HasRoom org s.db) : HasRoom org s'.db := by
  rw [HasRoom, h.limit_eq hheld]
  exact below_of_le (h.count hheld) hroom

omit [DecidableEq ι] in
/-- **What a creation knows, a sparing statement leaves so.** -/
theorem CapKnown.of_other {l : CapProgress} (h : CapKnown ops org k j s l)
    (hspares : Spares org k j s s') : CapKnown ops org k j s' l := by
  cases l with
  | billing m =>
      intro op hop
      obtain ⟨hrightful, hholds⟩ := h op hop
      rw [hspares.owners]
      exact ⟨hrightful, fun sub save hl => hspares.held _ (hholds sub save hl)⟩
  | project m =>
      cases m with
      | locked new => exact fun horg => hspares.held k (h horg)
      | subscribed new sub =>
          intro horg
          obtain ⟨hheld, rfl⟩ := h horg
          exact ⟨hspares.held k hheld, (hspares.row hheld).symm⟩
      | capped new l =>
          intro horg
          obtain ⟨hheld, hlimit⟩ := h horg
          exact ⟨hspares.held k hheld, (hspares.limit_eq hheld _).trans hlimit⟩
      | allowed new =>
          intro horg
          obtain ⟨hheld, hroom⟩ := h horg
          exact ⟨hspares.held k hheld, hspares.hasRoom hheld hroom⟩
      | inserted new =>
          intro horg
          obtain ⟨hheld, hroom⟩ := h horg
          exact ⟨hspares.held k hheld, hspares.hasRoom hheld hroom⟩
      | _ => trivial

theorem spares_of_project {m m' : ProjectProgress} {t : LockedDb Nat ι} (h : Counted org k i s m)
    (hmove : ProjectMove id i s.locked m m' t) (hne : j ≠ i) :
    Spares org k j s (s.withLocked t) := by
  have hframe : (s.withLocked t).db = { s.db with projects := t.db.projects } := hmove.frame
  refine ⟨?_, ?_, fun k' => hmove.lock_kept hne, fun _ => ?_, fun hheld => ?_⟩
  · rw [hframe]
    rfl
  · rw [hframe]
  · rw [hframe]
    rfl
  · -- whoever commits a project of `org` holds the row, so it is not another's
    apply hmove.projectCount_le
    rintro new rfl horg
    have hown := (h horg).1
    rw [hheld] at hown
    exact hne (Option.some.inj hown)

theorem spares_of_billing {op : BillingOp} {m m' : Progress}
    (h : Rightful (rowOwners s.db) op m ∧ HoldsRow i s m) (hrow : HasRow org k s.db)
    (hstep : (billingMachine fun _ => op).step i m s = some (m', s')) (hne : j ≠ i) :
    Spares org k j s s' := by
  have hwrite := rowWrite_of_step h.1 h.2 hstep
  have hframe := db_of_step hstep
  obtain ⟨sub, hsub, rfl⟩ := hrow
  refine ⟨hwrite.rowOwners_eq, ?_, fun _ => rows_kept_of_step hstep hne, fun hheld => ?_,
    fun _ => ?_⟩
  · rw [hframe]
  · exact hwrite.subscriptionOf_eq hsub hheld hne
  · rw [hframe]
    exact Nat.le_refl _

/-- **What one statement does**: its process learns what is so, and the others are spared. -/
theorem capKnown_of_step {l l' : CapProgress} (h : CapKnown ops org k i s l)
    (hrow : HasRow org k s.db) (hstep : capStep (ops i) i l s = some (l', s')) :
    CapKnown ops org k i s' l' ∧ rowOwners s'.db = rowOwners s.db ∧
      ∀ j, j ≠ i → Spares org k j s s' := by
  rcases capStep_eq_some hstep with ⟨q, m, m', t, -, rfl, rfl, hproject, rfl⟩ |
    ⟨b, m, m', hop, rfl, rfl, hbilling⟩
  · have hmove := projectMove_of_step hproject
    have hframe : (s.withLocked t).db = { s.db with projects := t.db.projects } := hmove.frame
    refine ⟨Counted.of_move h hrow hmove, ?_, fun j hne => spares_of_project h hmove hne⟩
    rw [hframe]
    rfl
  · obtain ⟨hrightful, hholds⟩ := h b hop
    have howners := (rowWrite_of_step hrightful hholds hbilling).rowOwners_eq
    refine ⟨fun op hop' => ?_, howners,
      fun j hne => spares_of_billing ⟨hrightful, hholds⟩ hrow hbilling hne⟩
    obtain rfl : op = b := CapOp.billing.inj (hop'.symm.trans hop)
    rw [howners]
    exact rightful_of_step hrightful hbilling

end Step

/-! ## Runs -/

/-- Everybody knows what is so, and the organization still has its row. -/
structure CapInv (ops : ι → CapOp) (org k : Nat) (c : Config ι (BillingStore ι) CapProgress) :
    Prop where
  row : HasRow org k c.store.db
  known : ∀ i, CapKnown ops org k i c.store (c.loc i)

/-- A commit of a creation for `org` finds, under the plan its subscription row names then, room for
one more. -/
def CommitsBelowCap (org : Nat) (c : Config ι (BillingStore ι) CapProgress) (i : ι) : Prop :=
  ∀ new, c.loc i = .project (.inserted new) → new.organization = org →
    ∃ sub, subscriptionOf c.store.db org = some sub ∧
      below (projectCount c.store.db org)
        (planLimit c.store.db (some sub) "max_projects") = true

/-- A creation that fails its check is answered 402, and changes nothing. -/
def RefusesAtCap (ops : ι → CapOp) (c : Config ι (BillingStore ι) CapProgress) (i : ι) : Prop :=
  ∀ q new cap, ops i = .project q → c.loc i = .project (.capped new cap) →
    below (projectCount c.store.db new.organization) (some cap) = false →
    ((capMachine ops).next c i).loc i = .project (.done 402) ∧
      ((capMachine ops).next c i).store.db = c.store.db

section Runs

variable {ops : ι → CapOp} {org k : Nat} {c : Config ι (BillingStore ι) CapProgress}

omit [DecidableEq ι] in
theorem capInv_start {db : Db} (h : HasRow org k db) : CapInv ops org k (capStart ops db) := by
  refine ⟨h, fun i => ?_⟩
  change CapKnown ops org k i _ (ops i).start
  cases ops i with
  | project q => trivial
  | billing op =>
      intro op' _
      refine ⟨?_, ?_⟩
      · cases op' <;> trivial
      · intro sub save hl
        cases hl

theorem CapInv.next (h : CapInv ops org k c) (i : ι) :
    CapInv ops org k ((capMachine ops).next c i) := by
  have hmove := fun l s (hstep : (capMachine ops).step i (c.loc i) c.store = some (l, s)) =>
    capKnown_of_step (h.known i) h.row hstep
  constructor
  · refine Machine.next_cases (motive := fun c' => HasRow org k c'.store.db) c i h.row ?_
    intro l s hstep
    exact hasRow_of_rowOwners h.row (hmove l s hstep).2.1
  · apply Machine.knows_next h.known
    · intro l s hstep
      exact (hmove l s hstep).1
    · intro l s hstep j hj
      exact (h.known j).of_other ((hmove l s hstep).2.2 j hj)

omit [DecidableEq ι] in
theorem CapInv.commitsBelowCap (h : CapInv ops org k c) (i : ι) : CommitsBelowCap org c i := by
  intro new hl horg
  obtain ⟨sub, hsub, -⟩ := h.row
  have hknown := h.known i
  rw [hl] at hknown
  -- what it knows at its commit is what the plan in force says
  obtain ⟨-, hroom⟩ := hknown horg
  rw [HasRoom, limit_eq, hsub] at hroom
  exact ⟨sub, hsub, hroom⟩

omit [DecidableEq ι] in
theorem next_of_project [DecidableEq ι] {i : ι} {q : ProjectCall} {m m' : ProjectProgress}
    {t : LockedDb Nat ι} (hop : ops i = .project q) (hl : c.loc i = .project m)
    (hstep : projectStep id q i m c.store.locked = some (m', t)) :
    (capMachine ops).next c i = c.move i (.project m') (c.store.withLocked t) := by
  apply Machine.next_of_some
  rw [hl]
  simp only [capMachine, capStep, hop, hstep, Option.map_some]

theorem refusesAtCap (ops : ι → CapOp) (c : Config ι (BillingStore ι) CapProgress) (i : ι) :
    RefusesAtCap ops c i := by
  intro q new cap hop hl hfull
  have hstep : projectStep id q i (.capped new cap) c.store.locked =
      some (.done 402, c.store.locked.release i) := by
    simp only [projectStep, BillingStore.locked, hfull]
    rfl
  rw [next_of_project hop hl hstep]
  exact ⟨Config.move_loc_self .., rfl⟩

/-- A project request that changes the database is answered 201 or 204. -/
theorem store_next_of_project {i : ι} {q : ProjectCall} (hop : ops i = .project q) :
    ((capMachine ops).next c i).store.db = c.store.db ∨
      ((capMachine ops).next c i).loc i = .project (.done 201) ∨
      ((capMachine ops).next c i).loc i = .project (.done 204) := by
  refine Machine.next_cases (motive := fun c' => c'.store.db = c.store.db ∨
    c'.loc i = .project (.done 201) ∨ c'.loc i = .project (.done 204)) c i (.inl rfl) ?_
  intro l s hstep
  rw [Config.move_loc_self, Config.move_store]
  rcases capStep_eq_some hstep with ⟨q', m, m', t, -, -, rfl, hproject, rfl⟩ |
    ⟨b, m, m', hop', -, -, -⟩
  · cases projectMove_of_step hproject with
    | created => exact .inr (.inl rfl)
    | destroyed => exact .inr (.inr rfl)
    | _ => exact .inl rfl
  · have himpossible := hop.symm.trans hop'
    cases himpossible

theorem done_stays {i : ι} {status : Nat} (j : ι) (h : c.loc i = .project (.done status)) :
    ((capMachine ops).next c j).loc i = .project (.done status) := by
  rw [Machine.loc_next_of_final, h]
  intro s
  rw [h]
  simp only [capMachine, capStep]
  cases ops i <;> rfl

/-- **A creation that is answered 402 has changed nothing**, at any of its statements. -/
theorem refused_changes_nothing {i : ι} {q : ProjectCall} (hop : ops i = .project q) {db : Db}
    {sched : List ι} (hend : ((capMachine ops).run (capStart ops db) sched).loc i =
      .project (.done 402)) :
    (capMachine ops).Along
      (fun c j => j = i → ((capMachine ops).next c j).store.db = c.store.db) (capStart ops db)
      sched := by
  -- a statement that changes something ends in 201 or 204, and there the request stays
  apply each_of_last
    (Q := fun c => c.loc i = .project (.done 201) ∨ c.loc i = .project (.done 204))
  · intro c j hchanges
    obtain ⟨rfl, hdb⟩ := Classical.not_imp.mp hchanges
    exact (store_next_of_project hop).resolve_left hdb
  · rintro c j (hdone | hdone)
    · exact .inl (done_stays j hdone)
    · exact .inr (done_stays j hdone)
  · rintro (hdone | hdone)
    · rw [hdone] at hend
      cases hend
    · rw [hdone] at hend
      cases hend

/-- One step under a cap in force. -/
theorem projectCount_next_le {i : ι} {cap : Int} (h : CommitsBelowCap org c i)
    (hlimit : limit c.store.db org "max_projects" = some cap)
    (hle : (projectCount c.store.db org : Int) ≤ cap) :
    (projectCount ((capMachine ops).next c i).store.db org : Int) ≤ cap := by
  refine Machine.next_cases (motive := fun c' => (projectCount c'.store.db org : Int) ≤ cap) c i hle
    fun l s hstep => ?_
  rw [Config.move_store]
  rcases capStep_eq_some hstep with ⟨q, m, m', t, -, hl, -, hproject, rfl⟩ |
    ⟨b, m, m', -, -, -, hbilling⟩
  · by_cases hcommit : ∃ new, m = .inserted new ∧ new.organization = org
    · obtain ⟨new, rfl, horg⟩ := hcommit
      obtain ⟨sub, hsub, hroom⟩ := h new hl horg
      rw [limit_eq, hsub] at hlimit
      simp only [hlimit, below, decide_eq_true_eq] at hroom
      cases hproject
      -- the commit has found room for one more under the same cap
      have hcount := projectCount_insert c.store.db new org
      rw [if_pos horg] at hcount
      change (projectCount { c.store.db with projects := c.store.db.projects.insert new } org : Int)
        ≤ cap
      rw [hcount]
      omega
    · refine Int.le_trans (Int.ofNat_le.mpr ?_) hle
      apply (projectMove_of_step hproject).projectCount_le
      intro new hm horg
      exact hcommit ⟨new, hm, horg⟩
  · rw [db_of_step hbilling]
    exact hle

end Runs

/-- **The project cap holds under concurrency.** For an organization with a subscription row, in
every interleaving of creations, deletions, deliveries and checkouts: a commit of a creation finds
room under the plan in force, a creation that fails its check is answered 402 and inserts nothing,
and under a constant cap an organization that starts within it stays within it. -/
theorem project_cap_holds (ops : ι → CapOp) (org : Nat) {db : Db} {sub : Row Subscription}
    (hsub : subscriptionOf db org = some sub) (sched : List ι) :
    (capMachine ops).Along (CommitsBelowCap org) (capStart ops db) sched ∧
    (capMachine ops).Along (RefusesAtCap ops) (capStart ops db) sched ∧
    (∀ i q, ops i = .project q →
      ((capMachine ops).run (capStart ops db) sched).loc i = .project (.done 402) →
      (capMachine ops).Along
        (fun c j => j = i → ((capMachine ops).next c j).store.db = c.store.db) (capStart ops db)
        sched) ∧
    ∀ cap : Int, (projectCount db org : Int) ≤ cap →
      (capMachine ops).Always (fun c => limit c.store.db org "max_projects" = some cap)
        (capStart ops db) sched →
      (capMachine ops).Always (fun c => (projectCount c.store.db org : Int) ≤ cap)
        (capStart ops db) sched := by
  have hinv : (capMachine ops).Always (CapInv ops org sub.id) (capStart ops db) sched := by
    apply states_of_step
    · intro c i h
      exact h.next i
    · exact capInv_start ⟨sub, hsub, rfl⟩
  have hcommits : (capMachine ops).Along (CommitsBelowCap org) (capStart ops db) sched := by
    apply each_of_states (Q := CapInv ops org sub.id)
    · intro c i h _
      exact h.commitsBelowCap i
    · exact hinv
  refine ⟨hcommits, ?_, ?_, ?_⟩
  · apply each_of_forall
    intro c i
    exact refusesAtCap ops c i
  · intro i q hop hend
    exact refused_changes_nothing hop hend
  · intro cap hle hlimit
    have hinForce : (capMachine ops).Along
        (fun c _ => limit c.store.db org "max_projects" = some cap) (capStart ops db) sched := by
      apply each_of_states (Q := fun c => limit c.store.db org "max_projects" = some cap)
      · intro c i h _
        exact h
      · exact hlimit
    refine states_of_each
      (Q := fun c : Config ι (BillingStore ι) CapProgress =>
        (projectCount c.store.db org : Int) ≤ cap)
      ?_ hle (hcommits.and hinForce)
    intro c i hle h
    exact projectCount_next_le h.1 h.2 hle

/-- Organization 1 on a plan with one project, and user 1 as its Owner. -/
def oneProject : Db where
  users := Table.empty.insert { email := "a@x.io", password := "" }
  organizations := Table.empty.insert ⟨"Acme", "acme", some 1, 0⟩
  memberships := Table.empty.insert ⟨1, 1, .owner, 0⟩
  plans := Table.empty.insert ⟨"solo", "Solo", "", [("max_projects", some 1)], true⟩
  subscriptions := Table.empty.insert { organization := 1, plan := 1, updatedAt := 0 }

/-- Two creations at once: the second waits for the row, and finds no room. -/
theorem project_cap_holds_two_creations :
    let create : ProjectCall :=
      ⟨some 1, some "1", [], .json (.obj [("name", .str "Site")]), .create, 10⟩
    let ops : Bool → CapOp := fun _ => .project create
    let sched := [true, true, true, false, false, false, true, true, true, true, true, false, false,
      false, false]
    (capMachine ops).Along (CommitsBelowCap 1) (capStart ops oneProject) sched ∧
      projectCount ((capMachine ops).run (capStart ops oneProject) sched).store.db 1 = 1 := by
  intro create ops sched
  have hsub : subscriptionOf oneProject 1 =
      some ⟨1, { organization := 1, plan := 1, updatedAt := 0 }⟩ := by rfl
  exact ⟨(project_cap_holds ops 1 hsub sched).1, by decide⟩

end Bastiq
