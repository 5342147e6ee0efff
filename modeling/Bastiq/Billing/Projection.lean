import Bastiq.Transition.Purge
import Bastiq.Billing.Ownership

/-!
# The subscription of an organization depends on its own events only

Stripe delivers events late, repeatedly and in any order, those of all organizations through one
endpoint and into one ledger. What an organization's row becomes is decided by its own deliveries
and checkouts, in their order: those of others can be dropped, repeated and moved.
-/

namespace Bastiq

open Relational Transition

/-- The subscription rows of one organization. -/
def rowsOf (db : Db) (org : Nat) : List (Row Subscription) :=
  db.subscriptions.select fun r => r.val.organization == org

/-- The operations that concern an organization. An event is the one's that its id belongs to; a new
organization is not one that is there. -/
def TenancyOp.concerns (eventOrg : String → Nat) (org : Nat) : TenancyOp → Bool
  | .event d => eventOrg d.event.id == org
  | .createOrganization _ _ _ _ => false
  | .deleteOrganization o => o == org
  | .ensureCustomer o _ => o == org

/-- The operation is lawful, and an event carries the ids of the organization that its own id
belongs to. -/
def TenancyOp.Stamped (owners : Owners) (eventOrg : String → Nat) (op : TenancyOp) : Prop :=
  op.Lawful owners ∧ ∀ d, op = .event d → d.event.CarriedBy owners (eventOrg d.event.id)

/-- Nothing that concerns the organization tells the two databases apart. -/
structure SameFor (owners : Owners) (eventOrg : String → Nat) (org : Nat) (s t : Db) : Prop where
  owned  : Owned owners s ∧ Owned owners t
  used   : org < s.organizations.nextId ∧ org < t.organizations.nextId
  rows   : rowsOf s org = rowsOf t org
  plans  : s.plans = t.plans
  ledger : ∀ id, eventOrg id = org → (ledgerRow s id).isSome = (ledgerRow t id).isSome

section Same

variable {owners : Owners} {eventOrg : String → Nat} {org : Nat} {s t u : Db}

theorem SameFor.symm (h : SameFor owners eventOrg org s t) : SameFor owners eventOrg org t s :=
  ⟨h.owned.symm, h.used.symm, h.rows.symm, h.plans.symm, fun id hid => (h.ledger id hid).symm⟩

theorem SameFor.trans (h : SameFor owners eventOrg org s t) (h' : SameFor owners eventOrg org t u) :
    SameFor owners eventOrg org s u :=
  ⟨⟨h.owned.1, h'.owned.2⟩, ⟨h.used.1, h'.used.2⟩, h.rows.trans h'.rows, h.plans.trans h'.plans,
    fun id hid => (h.ledger id hid).trans (h'.ledger id hid)⟩

/-! ## What an event reads -/

/-- A query whose answers are rows of the organization reads the rows of the organization. -/
theorem first?_of_rowsOf {db : Db} {p : Row Subscription → Bool}
    (hp : ∀ r ∈ db.subscriptions.rows, p r = true → r.val.organization = org) :
    db.subscriptions.first? p = (rowsOf db org).find? p := by
  show db.subscriptions.rows.find? p = (db.subscriptions.rows.filter _).find? p
  rw [List.find?_filter]
  generalize db.subscriptions.rows = rows at hp
  induction rows with
  | nil => rfl
  | cons r rows ih =>
      obtain ⟨hr, hrows⟩ := List.forall_mem_cons.mp hp
      rw [List.find?_cons, List.find?_cons, ih hrows]
      cases hr_p : p r with
      | true => simp [hr hr_p]
      | false => simp

theorem whenGiven_congr {key : Option String}
    {query : Db → String → Except Failure (Option (Row Subscription))}
    (h : ∀ k, nonBlank key = some k → query s k = query t k) :
    whenGiven key query s = whenGiven key query t := by
  unfold whenGiven
  split
  · rfl
  · next k hk => exact h k hk

theorem textParam_congr {id : String} {query query' : String → Option (Row Subscription)}
    (h : query id = query' id) :
    (do let text ← textParam id; Except.ok (query text) : Except Failure _) =
      (do let text ← textParam id; Except.ok (query' text)) := by
  unfold textParam
  split
  · rfl
  · exact congrArg Except.ok h

theorem firstFound_congr {queries : List Lookup} (h : ∀ q ∈ queries, q s = q t) :
    firstFound queries s = firstFound queries t := by
  induction queries with
  | nil => rfl
  | cons q queries ih =>
      obtain ⟨hq, hqueries⟩ := List.forall_mem_cons.mp h
      simp only [firstFound, hq, ih hqueries]

/-- The column holds ids of the row's own organization. -/
theorem SameFor.first?_congr (h : SameFor owners eventOrg org s t) {p : Row Subscription → Bool}
    (hp : ∀ r, r.val.OwnedBy owners → p r = true → r.val.organization = org) :
    s.subscriptions.first? p = t.subscriptions.first? p := by
  rw [first?_of_rowsOf fun r hr => hp r (h.owned.1 r hr),
    first?_of_rowsOf fun r hr => hp r (h.owned.2 r hr), h.rows]

theorem SameFor.find_congr (h : SameFor owners eventOrg org s t) {event : StripeEvent}
    (hcarried : event.CarriedBy owners org) : event.find s = event.find t := by
  unfold StripeEvent.find
  cases hh : event.handler with
  | none => rfl
  | some hd =>
      refine firstFound_congr fun q hq => ?_
      simp only [lookups, List.mem_cons, List.not_mem_nil, or_false] at hq
      rcases hq with rfl | rfl | rfl
      · refine whenGiven_congr fun text htext => ?_
        unfold subscriptionNamed
        split
        · rfl
        · next n hn =>
          have hnamed : text = toString org := by
            obtain ⟨hmetadata, -⟩ := Option.filter_eq_some_iff.mp htext
            rcases hcarried.metadata with habsent | hnames
            · rw [habsent] at hmetadata
              cases hmetadata
            · rw [hnames] at hmetadata
              exact (Option.some.inj hmetadata).symm
          have hint := Python.int?_toString (hnamed ▸ hn)
          rw [h.first?_congr]
          intro r _ hr
          simp only [beq_iff_eq] at hr
          omega
      · refine whenGiven_congr fun id hid => textParam_congr ?_
        refine h.first?_congr fun r howned hr => ?_
        rw [beq_iff_eq] at hr
        rw [← howned.2 (hr ▸ nonBlank_ne_blank hid), hr]
        exact hcarried.handler_subscriptionId hh hid
      · refine whenGiven_congr fun id hid => textParam_congr ?_
        refine h.first?_congr fun r howned hr => ?_
        rw [beq_iff_eq] at hr
        rw [← howned.1 (hr ▸ nonBlank_ne_blank hid), hr]
        rw [StripeEvent.handler_customerId hh] at hid
        exact hcarried.customer id hid

theorem Handler.plan_congr (hplans : s.plans = t.plans) {event : StripeEvent} {hd : Handler}
    (hhd : event.handler = some hd) : hd.plan s event.object = hd.plan t event.object := by
  rcases StripeEvent.handler_cases hhd with ⟨-, rfl⟩ | ⟨-, rfl⟩ | ⟨-, rfl⟩ | ⟨-, rfl⟩
  · simp only [handleCheckoutCompleted, activePlan, hplans]
  · simp only [handleSubscriptionUpdated, planForPrice, planAtPrice, hplans]
  · simp only [handleSubscriptionDeleted, freePlan, hplans]
  · rfl

/-- An event decides the same for its organization. -/
theorem SameFor.decision_congr (h : SameFor owners eventOrg org s t) {event : StripeEvent}
    (hcarried : event.CarriedBy owners org) : event.decision s = event.decision t := by
  have hfind := h.find_congr hcarried
  unfold StripeEvent.find at hfind
  unfold StripeEvent.decision
  cases hhd : event.handler with
  | none => rfl
  | some hd =>
      simp only [hhd] at hfind
      simp only [Handler.decide, hfind, Handler.plan_congr h.plans hhd]

/-! ## What an operation writes -/

/-- The rows of an organization after one of them is written. -/
theorem rowsOf_modify {sub : Row Subscription} {f : Subscription → Subscription} {db : Db}
    (hsub : sub ∈ db.subscriptions.rows) (hf : (f sub.val).organization = sub.val.organization) :
    (db.subscriptions.modify sub.id f).select (fun r => r.val.organization == org) =
      (rowsOf db org).map (Table.setRow (·.id == sub.id) f) := by
  refine Table.select_update _ fun r hr => ?_
  unfold Table.setRow
  split
  · next hid => rw [db.subscriptions.eq_of_id_eq hr hsub (beq_iff_eq.mp hid), hf]
  · rfl

/-- A row of another organization is none of this one's. -/
theorem rowsOf_modify_of_ne {sub : Row Subscription} {f : Subscription → Subscription} {db : Db}
    (hsub : sub ∈ db.subscriptions.rows) (hf : (f sub.val).organization = sub.val.organization)
    (hne : sub.val.organization ≠ org) :
    (db.subscriptions.modify sub.id f).select (fun r => r.val.organization == org) =
      rowsOf db org := by
  rw [rowsOf_modify hsub hf]
  conv_rhs => rw [← List.map_id (rowsOf db org)]
  refine List.map_congr_left fun r hr => Table.setRow_of_neg (beq_false_of_ne fun hid => hne ?_)
  obtain ⟨hr, horg⟩ := List.mem_filter.mp hr
  rw [← db.subscriptions.eq_of_id_eq hr hsub hid]
  simpa using horg

/-- The ledger rows an operation may add are under the id of its event. -/
theorem isSome_ledgerRow_insert {db : Db} (event : StripeEvent) (now : Int) (id : String) :
    ((db.webhookEvents.insert (event.ledgerEntry now)).first? (·.val.stripeEventId == id)).isSome =
      ((ledgerRow db id).isSome || event.id == id) := by
  rw [Table.first?_insert]
  show ((ledgerRow db id).or _).isSome = _
  cases ledgerRow db id with
  | some r => rfl
  | none => cases h : event.id == id <;> simp [StripeEvent.ledgerEntry, h]

theorem rowsOf_commit {d : Delivery} {write : Option (Row Subscription × Save)} {db : Db}
    (h : d.Decides db write) : rowsOf (d.commit write db) org =
      (rowsOf db org).map fun r => (write.map fun w =>
        Table.setRow (·.id == w.1.id) (w.2.apply d.now) r).getD r := by
  cases write with
  | none => exact (List.map_id _).symm
  | some w =>
      obtain ⟨hfind, -⟩ := StripeEvent.decision_eq_some h.1
      exact rowsOf_modify (StripeEvent.mem_of_find hfind)
        (StripeEvent.decision_organization h.1 d.now)

theorem isSome_ledgerRow_commit (d : Delivery) (write : Option (Row Subscription × Save)) (db : Db)
    (id : String) : (ledgerRow (d.commit write db) id).isSome =
      ((ledgerRow db id).isSome || d.event.id == id) :=
  isSome_ledgerRow_insert d.event d.now id

/-- **A delivery of the organization's own** does the same to both. -/
theorem SameFor.deliver_seen (h : SameFor owners eventOrg org s t) {d : Delivery}
    (hcarried : d.event.CarriedBy owners org) (horg : eventOrg d.event.id = org) :
    SameFor owners eventOrg org (deliver d s) (deliver d t) := by
  have howned := And.intro (hcarried.owned_deliver h.owned.1) (hcarried.owned_deliver h.owned.2)
  have hledger := h.ledger d.event.id horg
  have hdecides : ∀ write, d.Decides s write ↔ d.Decides t write := by
    intro write
    rw [Delivery.Decides, Delivery.Decides, h.decision_congr hcarried]
  have hprocessed : Processed s d ↔ Processed t d := by
    have hnone : ledgerRow s d.event.id = none ↔ ledgerRow t d.event.id = none := by
      rw [← Option.not_isSome_iff_eq_none, ← Option.not_isSome_iff_eq_none, hledger]
    have hok : (∃ s', d.process s = .ok s') ↔ ∃ t', d.process t = .ok t' := by
      simp only [Delivery.process_eq_ok, hdecides]
      grind
    exact and_congr hnone hok
  by_cases hs : Processed s d
  · obtain ⟨hrecordable, hfault, write, hwrite, hdb⟩ := Delivery.process_eq_ok.mp hs.deliver_eq
    have ht : deliver d t = d.commit write t := by
      have hprocess : d.process t = .ok (d.commit write t) :=
        Delivery.process_eq_ok.mpr ⟨hrecordable, hfault, write, (hdecides write).mp hwrite, rfl⟩
      exact Except.ok.inj ((hprocessed.mp hs).deliver_eq.symm.trans hprocess)
    rw [hdb, ht] at howned ⊢
    refine ⟨howned, h.used, ?_, h.plans, fun id hid => ?_⟩
    · rw [rowsOf_commit hwrite, rowsOf_commit ((hdecides write).mp hwrite), h.rows]
    · rw [isSome_ledgerRow_commit, isSome_ledgerRow_commit, h.ledger id hid]
  · rw [deliver_of_not_processed hs, deliver_of_not_processed fun ht => hs (hprocessed.mpr ht)]
    exact h

/-- **A delivery of another organization's** is not seen. -/
theorem SameFor.deliver_unseen (h : SameFor owners eventOrg org s t) {d : Delivery}
    (hcarried : d.event.CarriedBy owners (eventOrg d.event.id)) (hne : eventOrg d.event.id ≠ org) :
    SameFor owners eventOrg org (deliver d s) t := by
  have howned := And.intro (hcarried.owned_deliver h.owned.1) h.owned.2
  by_cases hs : Processed s d
  · obtain ⟨-, -, write, hwrite, hdb⟩ := Delivery.process_eq_ok.mp hs.deliver_eq
    rw [hdb] at howned ⊢
    refine ⟨howned, h.used, ?_, h.plans, fun id hid => ?_⟩
    · rw [← h.rows]
      cases write with
      | none => rfl
      | some w =>
          obtain ⟨hfind, -⟩ := StripeEvent.decision_eq_some hwrite.1
          apply rowsOf_modify_of_ne (StripeEvent.mem_of_find hfind)
            (StripeEvent.decision_organization hwrite.1 d.now)
          rw [hcarried.organization_of_find h.owned.1 hfind]
          exact hne
    · rw [isSome_ledgerRow_commit, ← h.ledger id hid, beq_false_of_ne, Bool.or_false]
      rintro rfl
      exact hne hid
  · rw [deliver_of_not_processed hs]
    exact h

theorem rowsOf_createFreeSubscription {db : Db} {o : Nat} (hne : o ≠ org) (now : Int) :
    rowsOf (createFreeSubscription db o now) org = rowsOf db org := by
  unfold createFreeSubscription
  split
  · refine (db.subscriptions.select_insert _ _).trans ?_
    simp [rowsOf, hne]
  · rfl

/-- A new organization is not one that is there. -/
theorem SameFor.createOrganization (h : SameFor owners eventOrg org s t) {user : Nat}
    {name slug : String} {now : Int} :
    SameFor owners eventOrg org ((TenancyOp.createOrganization user name slug now).step s) t := by
  have howned : Owned owners ((TenancyOp.createOrganization user name slug now).step s) :=
    TenancyOp.Lawful.owned trivial h.owned.1
  simp only [TenancyOp.step] at howned ⊢
  split at howned
  · next o db' hinsert =>
    obtain ⟨horg, subs, rfl, hsubs⟩ := insertOrganization_eq_ok hinsert
    refine ⟨⟨howned, h.owned.2⟩, ⟨Nat.lt_succ_of_lt h.used.1, h.used.2⟩, ?_, h.plans, h.ledger⟩
    show subs.select (fun r => r.val.organization == org) = rowsOf t org
    rw [hsubs, ← h.rows]
    apply rowsOf_createFreeSubscription
    rw [horg]
    exact Nat.ne_of_gt h.used.1
  · exact h

theorem SameFor.deleteOrganization_seen (h : SameFor owners eventOrg org s t) :
    SameFor owners eventOrg org (deleteOrganization s org) (deleteOrganization t org) := by
  have hnone : ∀ db, rowsOf (deleteOrganization db org) org = [] := by
    intro db
    refine (db.subscriptions.select_delete _ _).trans (List.filter_eq_nil_iff.mpr fun r hr => ?_)
    rw [(List.mem_filter.mp hr).2]
    simp
  refine ⟨⟨fun r hr => ?_, fun r hr => ?_⟩, h.used, ?_, h.plans, h.ledger⟩
  · exact h.owned.1 r (Table.mem_delete.mp hr).1
  · exact h.owned.2 r (Table.mem_delete.mp hr).1
  · rw [hnone, hnone]

theorem SameFor.deleteOrganization_unseen (h : SameFor owners eventOrg org s t) {o : Nat}
    (hne : o ≠ org) : SameFor owners eventOrg org (deleteOrganization s o) t := by
  refine ⟨⟨fun r hr => ?_, h.owned.2⟩, h.used, ?_, h.plans, h.ledger⟩
  · exact h.owned.1 r (Table.mem_delete.mp hr).1
  · rw [← h.rows]
    refine s.subscriptions.select_delete_of_disjoint fun r _ hr => ?_
    rw [beq_iff_eq] at hr
    rw [hr]
    exact beq_false_of_ne (Ne.symm hne)

/-- The row a checkout reads is the organization's own. -/
theorem SameFor.subscriptionOf_congr (h : SameFor owners eventOrg org s t) :
    subscriptionOf s org = subscriptionOf t org := by
  have hfirst : ∀ db, subscriptionOf db org = (rowsOf db org).head? := fun db =>
    db.subscriptions.first?_eq_head? _
  rw [hfirst, hfirst, h.rows]

theorem rowsOf_saveCustomer {db : Db} {sub : Row Subscription} (hsub : sub ∈ db.subscriptions.rows)
    (customer : String) : rowsOf (saveCustomer db sub.id customer) org =
      (rowsOf db org).map
        (Table.setRow (·.id == sub.id) fun s => { s with stripeCustomerId := customer }) :=
  rowsOf_modify hsub rfl

/-- What making sure of a customer saves in the row of an organization, if anything. -/
theorem ensureCustomer_step_cases (sub : Row Subscription) (create : Except Failure String) :
    (∀ db, subscriptionOf db org = some sub →
        (TenancyOp.ensureCustomer org create).step db = db) ∨
      ∃ customer, ∀ db, subscriptionOf db org = some sub →
        (TenancyOp.ensureCustomer org create).step db = saveCustomer db sub.id customer := by
  simp only [TenancyOp.step, BillingOp.perform, ensureCustomer]
  cases hpaying : sub.val.stripeCustomerId != "" with
  | true => exact .inl fun db hsub => by simp [hsub, hpaying]
  | false =>
      cases create with
      | error e => exact .inl fun db hsub => by simp [hsub, hpaying]
      | ok customer =>
          cases hfits : fits 255 customer with
          | true => exact .inr ⟨customer, fun db hsub => by simp [hsub, hpaying, hfits]⟩
          | false => exact .inl fun db hsub => by simp [hsub, hpaying, hfits]

theorem SameFor.ensureCustomer_seen (h : SameFor owners eventOrg org s t)
    {create : Except Failure String}
    (hlawful : (TenancyOp.ensureCustomer org create).Lawful owners) :
    SameFor owners eventOrg org ((TenancyOp.ensureCustomer org create).step s)
      ((TenancyOp.ensureCustomer org create).step t) := by
  have howned := And.intro (hlawful.owned h.owned.1) (hlawful.owned h.owned.2)
  have hs := h.subscriptionOf_congr
  cases ht : subscriptionOf t org with
  | none =>
      have hnone : ∀ db, subscriptionOf db org = none →
          (TenancyOp.ensureCustomer org create).step db = db := by
        intro db hdb
        simp only [TenancyOp.step, BillingOp.perform, hdb]
      rw [hnone s (hs.trans ht), hnone t ht]
      exact h
  | some sub =>
      rw [ht] at hs
      rcases ensureCustomer_step_cases sub create with hsame | ⟨customer, hsaved⟩
      · rw [hsame s hs, hsame t ht]
        exact h
      · rw [hsaved s hs, hsaved t ht] at howned ⊢
        refine ⟨howned, h.used, ?_, h.plans, h.ledger⟩
        rw [rowsOf_saveCustomer (Table.mem_of_first? hs), rowsOf_saveCustomer
          (Table.mem_of_first? ht), h.rows]

theorem SameFor.ensureCustomer_unseen (h : SameFor owners eventOrg org s t) {o : Nat}
    {create : Except Failure String} (hlawful : (TenancyOp.ensureCustomer o create).Lawful owners)
    (hne : o ≠ org) :
    SameFor owners eventOrg org ((TenancyOp.ensureCustomer o create).step s) t := by
  have howned := hlawful.owned h.owned.1
  cases hs : subscriptionOf s o with
  | none =>
      simp only [TenancyOp.step, BillingOp.perform, hs]
      exact h
  | some sub =>
      rcases ensureCustomer_step_cases sub create with hsame | ⟨customer, hsaved⟩
      · rw [hsame s hs]
        exact h
      · rw [hsaved s hs] at howned ⊢
        refine ⟨⟨howned, h.owned.2⟩, h.used, ?_, h.plans, h.ledger⟩
        have hsub : sub.val.organization = o := by simpa using Table.pos_of_first? hs
        rw [← h.rows]
        exact rowsOf_modify_of_ne (Table.mem_of_first? hs) rfl (hsub ▸ hne)

end Same

/-! ## Whole runs -/

/-- One operation, seen from one organization. -/
theorem tenancyOp_unwinds (owners : Owners) (eventOrg : String → Nat) (org : Nat) :
    Unwinds TenancyOp.step (TenancyOp.Stamped owners eventOrg) (TenancyOp.concerns eventOrg org)
      (SameFor owners eventOrg org) where
  consistent := by
    rintro op s t ⟨hlawful, hstamped⟩ hconcerns h
    cases op with
    | event d =>
        have horg : eventOrg d.event.id = org := beq_iff_eq.mp hconcerns
        exact h.deliver_seen (horg ▸ hstamped d rfl) horg
    | createOrganization user name slug now => cases hconcerns
    | deleteOrganization o =>
        obtain rfl := beq_iff_eq.mp hconcerns
        exact h.deleteOrganization_seen
    | ensureCustomer o create =>
        obtain rfl := beq_iff_eq.mp hconcerns
        exact h.ensureCustomer_seen hlawful
  respects := by
    rintro op s t ⟨hlawful, hstamped⟩ hconcerns h
    cases op with
    | event d => exact h.deliver_unseen (hstamped d rfl) (beq_eq_false_iff_ne.mp hconcerns)
    | createOrganization user name slug now => exact h.createOrganization
    | deleteOrganization o => exact h.deleteOrganization_unseen (beq_eq_false_iff_ne.mp hconcerns)
    | ensureCustomer o create =>
        exact h.ensureCustomer_unseen hlawful (beq_eq_false_iff_ne.mp hconcerns)

/-- **What becomes of a subscription is decided by its organization's own operations.** Take two
runs of deliveries, checkouts, creations and deletions in which the operations that concern
an organization are the same, in the same order. However those of others are mixed in, repeated or
left out, they end with the same subscription rows for the organization. -/
theorem subscription_follows_own_events (owners : Owners) (eventOrg : String → Nat) {db : Db}
    (howned : Owned owners db) {org : Nat} (hthere : org < db.organizations.nextId)
    {ops ops' : List TenancyOp} (hops : ∀ op ∈ ops, op.Stamped owners eventOrg)
    (hops' : ∀ op ∈ ops', op.Stamped owners eventOrg)
    (hsame : ops.filter (TenancyOp.concerns eventOrg org) =
      ops'.filter (TenancyOp.concerns eventOrg org)) :
    rowsOf (run TenancyOp.step db ops) org = rowsOf (run TenancyOp.step db ops') org := by
  have hself : SameFor owners eventOrg org db db :=
    ⟨⟨howned, howned⟩, ⟨hthere, hthere⟩, rfl, rfl, fun _ _ => rfl⟩
  have hrun := (tenancyOp_unwinds owners eventOrg org).run_of_filter_eq
    (fun _ _ => SameFor.symm) (fun _ _ _ => SameFor.trans) hops hops' hsame hself
  exact hrun.rows

/-- Alpha has its subscription, as organization 1. -/
def alphaAlone : Db :=
  { smallBilling with organizations := Table.empty.insert ⟨"Alpha", "alpha", none, 0⟩ }

/-- A payment of organization 2 fails. -/
def failedPayment : Delivery :=
  ⟨⟨"evt_9", some "invoice.payment_failed",
    { customer := some "cus_2", metadata := some [("organization_id", "2")] }⟩, 15, none⟩

/-- Beta comes up and its payment fails between the two events of Alpha. -/
theorem subscription_follows_own_events_alpha :
    rowsOf (run TenancyOp.step alphaAlone
      [.event (checkoutOf "evt_1" "sub_1"), .createOrganization 1 "Beta" "beta" 12,
        .event failedPayment, .event (updateOf "evt_2" "sub_1" "past_due")]) 1 =
    rowsOf (run TenancyOp.step alphaAlone
      [.event (checkoutOf "evt_1" "sub_1"), .event (updateOf "evt_2" "sub_1" "past_due")]) 1 := by
  let owners : Owners := ⟨fun id => if id = "cus_1" then 1 else 2,
    fun id => if id = "sub_1" then 1 else 2⟩
  let eventOrg : String → Nat := fun id => if id = "evt_9" then 2 else 1
  have hown : ∀ d, d = checkoutOf "evt_1" "sub_1" ∨ d = updateOf "evt_2" "sub_1" "past_due" →
      (TenancyOp.event d).Stamped owners eventOrg := by
    have hcarried : ∀ d, d = checkoutOf "evt_1" "sub_1" ∨ d = updateOf "evt_2" "sub_1" "past_due" →
        eventOrg d.event.id = 1 ∧ d.event.CarriedBy owners 1 := by
      rintro d (rfl | rfl)
      · exact ⟨rfl, by rintro id ⟨⟩; rfl, by rintro id ⟨⟩; rfl, by decide, .inr rfl⟩
      · exact ⟨rfl, by rintro id ⟨⟩; rfl, by rintro id ⟨⟩, by rintro - id ⟨⟩; rfl, .inr rfl⟩
    intro d hd
    obtain ⟨horg, hd⟩ := hcarried d hd
    refine ⟨⟨1, hd⟩, ?_⟩
    rintro _ ⟨⟩
    rwa [horg]
  have hother : (TenancyOp.event failedPayment).Stamped owners eventOrg := by
    have hcarried : failedPayment.event.CarriedBy owners 2 :=
      ⟨by rintro id ⟨⟩; rfl, by rintro id ⟨⟩, by decide, .inr rfl⟩
    refine ⟨⟨2, hcarried⟩, ?_⟩
    rintro _ ⟨⟩
    exact hcarried
  have hcreate : (TenancyOp.createOrganization 1 "Beta" "beta" 12).Stamped owners eventOrg :=
    ⟨trivial, fun _ h => nomatch h⟩
  refine @subscription_follows_own_events owners eventOrg alphaAlone ?_ 1 (by decide) _ _ ?_ ?_
    (by rfl)
  · intro r hr
    obtain rfl := List.mem_singleton.mp hr
    exact ⟨fun hblank => absurd rfl hblank, fun hblank => absurd rfl hblank⟩
  · simp only [List.mem_cons, List.not_mem_nil, or_false]
    rintro op (rfl | rfl | rfl | rfl)
    · exact hown _ (.inl rfl)
    · exact hcreate
    · exact hother
    · exact hown _ (.inr rfl)
  · simp only [List.mem_cons, List.not_mem_nil, or_false]
    rintro op (rfl | rfl)
    · exact hown _ (.inl rfl)
    · exact hown _ (.inr rfl)

end Bastiq
