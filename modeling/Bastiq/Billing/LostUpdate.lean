import Mathlib.Data.Fintype.Basic
import Mathlib.Data.List.Permutation
import Bastiq.Concurrency.Serial
import Bastiq.Billing.Delivery
import Bastiq.Billing.Lifecycle

/-!
# Concurrent deliveries and lost updates

A handler reads its row without a lock and writes the whole row later, so what another operation
commits in between is overwritten. This file says when that does not happen: when every operation,
at the moment it takes effect, would decide on the same write if it looked again. Then the result is
that of the operations one after the other, in the order they ended.
-/

namespace Bastiq

open Relational Concurrency Machine

variable {ι : Type} [DecidableEq ι]

/-- The next statement of process `i` does not act on what is out of date:

* a delivery that is about to commit would decide on a write of the same effect now, and one whose
  handler is about to raise would raise now too;
* a checkout about to save a new customer would find the same row, still without a customer. -/
def UpToDate (ops : ι → BillingOp) (c : Config ι (BillingStore ι) Progress) (i : ι) : Prop :=
  match ops i, c.loc i with
  | .webhook d, .ready write => d.fault = none →
      ∃ write', d.Decides c.store.db write' ∧
        d.commit write' c.store.db = d.commit write c.store.db
  | .webhook d, l => ∀ s, l.isOpen = true → webhookStep d i l c.store = some (.failed, s) →
      ∀ write, ¬ d.Decides c.store.db write
  | .ensureCustomer org _, .calling sub =>
      ∃ sub', subscriptionOf c.store.db org = some sub' ∧ sub'.id = sub.id ∧
        sub'.val.stripeCustomerId = ""
  | .ensureCustomer _ _, _ => True

theorem deliver_eq_commit {d : Delivery} {db : Db} {write : Option (Row Subscription × Save)}
    (hledger : ledgerRow db d.event.id = none) (hrecordable : d.event.recordable = true)
    (hfault : d.fault = none) (hdecides : d.Decides db write) :
    deliver d db = d.commit write db := by
  have hprocess := Delivery.process_eq_ok.mpr ⟨hrecordable, hfault, write, hdecides, rfl⟩
  rw [deliver, postWebhook_of_process hledger hprocess]

theorem not_processed_of_not_decides {d : Delivery} {db : Db}
    (h : d.fault = none → ∀ write, ¬ d.Decides db write) : ¬ Processed db d := by
  rintro ⟨-, db', hprocess⟩
  obtain ⟨-, hfault, write, hdecides, -⟩ := Delivery.process_eq_ok.mp hprocess
  exact h hfault write hdecides

theorem not_processed_of_known {d : Delivery} {db : Db} {r : Row WebhookEvent}
    (h : ledgerRow db d.event.id = some r) : ¬ Processed db d := by
  rintro ⟨hnone, -⟩
  rw [h] at hnone
  cases hnone

theorem not_processed_of_unrecordable {d : Delivery} {db : Db} (h : d.event.recordable = false) :
    ¬ Processed db d := by
  rintro ⟨-, db', hprocess⟩
  obtain ⟨hrecordable, -⟩ := Delivery.process_eq_ok.mp hprocess
  rw [h] at hrecordable
  cases hrecordable

/-- `ensure_customer` on the row it finds in `db`. -/
theorem perform_ensureCustomer {db : Db} {org : Nat} {create : Except Failure String}
    {sub : Row Subscription} (hsub : subscriptionOf db org = some sub) :
    (BillingOp.ensureCustomer org create).perform db =
      match ensureCustomer db sub create with
      | .ok (_, db) => db
      | .error _ => db := by
  cases hensure : ensureCustomer db sub create with
  | ok out => simp only [BillingOp.perform, hsub, hensure]
  | error f => simp only [BillingOp.perform, hsub, hensure]

/-- A checkout that gets no customer from Stripe, or none that fits, changes nothing. -/
theorem perform_refused {db : Db} {org : Nat} {create : Except Failure String}
    (h : ∀ customer, create = .ok customer → fits 255 customer = false) :
    (BillingOp.ensureCustomer org create).perform db = db := by
  cases hsub : subscriptionOf db org with
  | none => simp only [BillingOp.perform, hsub]
  | some sub =>
      rw [perform_ensureCustomer hsub, ensureCustomer]
      by_cases hblank : (sub.val.stripeCustomerId != "") = true
      · rw [if_pos hblank]
      · rw [if_neg hblank]
        cases create with
        | error e => rfl
        | ok customer => rw [ok_bind, h customer rfl]; rfl

/-- **One statement, one operation**: an operation that is up to date takes effect when it ends, and
as it would alone. -/
theorem effectAtEnd_of_upToDate {ops : ι → BillingOp} {c : Config ι (BillingStore ι) Progress}
    {i : ι} {l : Progress} {s : BillingStore ι} (hdate : UpToDate ops c i) (hkeys : OpenKeys ops c)
    (hstep : (billingMachine ops).step i (c.loc i) c.store = some (l, s)) :
    EffectAtEnd Progress.ended BillingStore.db (fun i => (ops i).perform) i (c.loc i) l c.store
      s := by
  unfold UpToDate at hdate
  have hopen := hkeys i
  generalize hl : c.loc i = l₀ at hstep hdate hopen ⊢
  rcases billingMachine_step hstep with ⟨d, hd, hmove⟩ | ⟨org, create, ho, hmove⟩
  · have hunchanged : ¬ Processed c.store.db d → c.store.db = (ops i).perform c.store.db := by
      intro h
      rw [hd]
      exact (deliver_of_not_processed h).symm
    rw [hd] at hdate
    cases hmove with
    | badId h =>
        refine .atEnd rfl rfl (hunchanged (not_processed_of_unrecordable ?_))
        refine Bool.eq_false_iff.mpr fun hrecordable => ?_
        rw [textParam_of_recordable hrecordable] at h
        cases h
    | known h => exact .atEnd rfl rfl (hunchanged (not_processed_of_known h))
    | unknown => exact .before rfl rfl rfl
    | unrecordable h => exact .atEnd rfl rfl (hunchanged (not_processed_of_unrecordable h))
    | beaten h => exact .atEnd rfl rfl (hunchanged (not_processed_of_known h))
    | record => exact .before rfl (Progress.ended_of_isOpen d.event.handling_isOpen) rfl
    | work h h' => exact .before (Progress.ended_of_isOpen h) (Progress.ended_of_isOpen h') rfl
    | raised h hfault =>
        refine .atEnd (Progress.ended_of_isOpen h) rfl
          (hunchanged (not_processed_of_not_decides fun hnone => ?_))
        have hwebhook : webhookStep d i l₀ c.store = some (.failed, c.store.release i) := by
          rwa [billingMachine_webhook hd] at hstep
        cases l₀ with
        | looking hd queries => exact hdate _ rfl hwebhook
        | decided sub save => exact hdate _ rfl hwebhook
        | ready write => exact absurd hnone (hfault write rfl)
        | _ => cases h
    | commit hfault =>
        obtain ⟨write', hdecides, hsame⟩ := hdate hfault
        obtain ⟨-, hledger, hrecordable⟩ := hopen d hd rfl
        refine .atEnd rfl rfl ?_
        rw [hd]
        exact hsame.symm.trans (deliver_eq_commit hledger hrecordable hfault hdecides).symm
  · rw [ho] at hdate
    cases hmove with
    | missing h => exact .atEnd rfl rfl (by simp only [ho, BillingOp.perform, h])
    | present hsub h =>
        refine .atEnd rfl rfl ?_
        rw [ho, perform_ensureCustomer hsub, ensureCustomer, if_pos (by simpa using h)]
    | blank => exact .before rfl rfl rfl
    | refused h =>
        refine .atEnd rfl rfl ?_
        rw [ho, perform_refused h]
    | saved hcreate hfits =>
        obtain ⟨sub', hsub', hid, hblank⟩ := hdate
        refine .atEnd rfl rfl ?_
        rw [ho, perform_ensureCustomer hsub', ensureCustomer, if_neg (by simpa using hblank),
          hcreate, ok_bind, if_pos hfits, hid]

/-- **When no update is lost.** If every operation is up to date at the statement with which it
takes effect, the database is the one the ended operations leave one after the other, in the order
they ended. -/
theorem deliveries_serializable {ops : ι → BillingOp} {db : Db} {sched : List ι}
    (h : (billingMachine ops).Along (UpToDate ops) (billingStart db) sched) :
    let final := (billingMachine ops).run (billingStart db) sched
    ∃ order, EndedIn Progress.ended order final ∧
      final.store.db = serially (fun i => (ops i).perform) db order := by
  have hkeys := h.and_invariant (Q := OpenKeys ops) (fun c i hc _ => hc.next i)
    (openKeys_start ops db)
  refine exists_serial_order BillingStore.db (fun i => (ops i).perform) (fun c i l s hP hstep => ?_)
    (fun _ => rfl) hkeys
  exact effectAtEnd_of_upToDate hP.1 hP.2 hstep

/-! ## Undisturbed operations are up to date

An operation that no write to the subscription rows comes in the way of, from its first look at them
to its own end, acts on what is there. -/

/-- Between the first look at the subscription rows and the end. -/
def Progress.isReading : Progress → Bool
  | .calling _ => true
  | l => l.isOpen

/-- If the next statement of process `i` changes the subscription rows, nobody else is reading. -/
def Undisturbing (ops : ι → BillingOp) (c : Config ι (BillingStore ι) Progress) (i : ι) : Prop :=
  ((billingMachine ops).next c i).store.db.subscriptions = c.store.db.subscriptions ∨
    ∀ j, j ≠ i → (c.loc j).isReading = false

instance [Fintype ι] (ops : ι → BillingOp) (c : Config ι (BillingStore ι) Progress) (i : ι) :
    Decidable (Undisturbing ops c i) :=
  inferInstanceAs (Decidable (_ ∨ _))

/-- What an operation has found so far is what it would find now. -/
def Consistent (op : BillingOp) (l : Progress) (db : Db) : Prop :=
  match op, l with
  | .webhook d, .looking h queries => d.event.handler = some h ∧
      queries <:+ h.lookups d.event.object ∧ h.find d.event.object db = firstFound queries db
  | .webhook d, .decided sub save => d.event.decision db = .ok (some (sub, save))
  | .webhook d, .ready write => d.Decides db write
  | .ensureCustomer org _, .calling sub =>
      subscriptionOf db org = some sub ∧ sub.val.stripeCustomerId = ""
  | _, _ => True

theorem firstFound_withLedger {obj : StripeObject} {subId customerId : Option String} (db : Db)
    (w : Table WebhookEvent) {queries : List Lookup} (h : queries ⊆ lookups obj subId customerId) :
    firstFound queries { db with webhookEvents := w } = firstFound queries db := by
  induction queries with
  | nil => rfl
  | cons q queries ih =>
      have hq : q { db with webhookEvents := w } = q db := by
        have hmem := h List.mem_cons_self
        simp only [lookups, List.mem_cons, List.not_mem_nil, or_false] at hmem
        rcases hmem with rfl | rfl | rfl
        · rfl
        · rfl
        · rfl
      simp only [firstFound, hq, ih fun q' hq' => h (List.mem_cons_of_mem _ hq')]

theorem Consistent.withLedger {op : BillingOp} {l : Progress} {db : Db}
    (h : Consistent op l db) (w : Table WebhookEvent) :
    Consistent op l { db with webhookEvents := w } := by
  cases op with
  | webhook d =>
      cases l with
      | looking hd queries =>
          obtain ⟨hhd, hsuffix, hfind⟩ := h
          refine ⟨hhd, hsuffix, ?_⟩
          -- no query reads the ledger
          rw [firstFound_withLedger db w hsuffix.subset]
          exact (firstFound_withLedger db w (List.Subset.refl _)).trans hfind
      | decided sub save => exact (d.event.decision_withLedger db w).trans h
      | ready write => exact ⟨(d.event.decision_withLedger db w).trans h.1, h.2⟩
      | _ => trivial
  | ensureCustomer org create =>
      cases l with
      | calling sub => exact h
      | _ => trivial

theorem decision_of_find_none {event : StripeEvent} {h : Handler} {db : Db}
    (hh : event.handler = some h) (hfind : h.find event.object db = .ok none) :
    event.decision db = .ok none := by
  simp only [StripeEvent.decision, hh, hfind, ok_bind]

theorem decision_of_find_some {event : StripeEvent} {h : Handler} {db : Db}
    {sub : Row Subscription} (hh : event.handler = some h)
    (hfind : h.find event.object db = .ok (some sub)) :
    event.decision db = (do
      let save ← h.decide db event.object sub.val
      .ok (some (sub, save))) := by
  simp only [StripeEvent.decision, hh, hfind, ok_bind]

theorem decision_of_find_error {event : StripeEvent} {h : Handler} {db : Db} {e : Failure}
    (hh : event.handler = some h) (hfind : h.find event.object db = .error e) :
    event.decision db = .error e := by
  simp only [StripeEvent.decision, hh, hfind, error_bind]

theorem consistent_handling (d : Delivery) (db : Db) :
    Consistent (.webhook d) d.event.handling db := by
  unfold StripeEvent.handling
  split
  · next hnone =>
    refine ⟨?_, fun _ _ h => nomatch h⟩
    simp only [StripeEvent.decision, hnone]
  · next h hh => exact ⟨hh, List.suffix_refl _, rfl⟩

/-- A delivery that has found what it would find now finds the rest now. -/
theorem consistent_of_step {d : Delivery} {i : ι} {l l' : Progress} {s s' : BillingStore ι}
    (h : Consistent (.webhook d) l s.db) (hstep : webhookStep d i l s = some (l', s')) :
    Consistent (.webhook d) l' s'.db := by
  cases deliveryMove_of_step hstep with
  | record => exact consistent_handling d s.db
  | @work _ _ rows hl hl' hrows =>
      have hwork := workMove_of_step hstep hl hl'
      clear hstep hrows
      generalize ({ s with rows := rows } : BillingStore ι) = s' at hwork ⊢
      cases hwork with
      | unfound =>
          obtain ⟨hhd, hsuffix, hfind⟩ := h
          exact ⟨decision_of_find_none hhd hfind, fun _ _ h => nomatch h⟩
      | missed hmissed =>
          obtain ⟨hhd, hsuffix, hfind⟩ := h
          rw [firstFound, hmissed, ok_bind] at hfind
          exact ⟨hhd, (List.suffix_cons _ _).trans hsuffix, hfind⟩
      | found hfound hdecide =>
          -- what this lookup found is what the event finds, and the handler decides on it
          obtain ⟨hhd, hsuffix, hfind⟩ := h
          rw [firstFound, hfound, ok_bind] at hfind
          show d.event.decision s.db = _
          rw [decision_of_find_some hhd hfind, hdecide, ok_bind]
      | locked hfits hacquire =>
          refine ⟨h, ?_⟩
          rintro _ _ ⟨⟩
          exact hfits
  | _ => trivial

/-- Consistent operations are up to date. -/
theorem upToDate_of_consistent {ops : ι → BillingOp} {c : Config ι (BillingStore ι) Progress}
    {i : ι} (h : Consistent (ops i) (c.loc i) c.store.db) : UpToDate ops c i := by
  unfold UpToDate
  generalize hop : ops i = op at h ⊢
  generalize c.loc i = l at h ⊢
  cases op with
  | ensureCustomer org create =>
      cases l with
      | calling sub => exact ⟨sub, h.1, rfl, h.2⟩
      | _ => trivial
  | webhook d =>
      cases l with
      | ready write => exact fun _ => ⟨write, h, rfl⟩
      | decided sub save =>
          rintro s - hstep write ⟨hdecision, hfits⟩
          simp only [webhookStep] at hstep
          -- it would decide the same now, so it is the fault that stops it
          have hwrite : some (sub, save) = write :=
            Except.ok.inj ((show d.event.decision c.store.db = _ from h).symm.trans hdecision)
          rw [if_pos (hfits sub save hwrite.symm)] at hstep
          split at hstep
          · cases hstep
          · cases hstep
      | looking hd queries =>
          obtain ⟨hhd, -, hfind⟩ := h
          rintro s - hstep write ⟨hdecision, -⟩
          cases queries with
          | nil => cases hstep
          | cons query queries =>
              simp only [firstFound] at hfind
              simp only [webhookStep] at hstep
              split at hstep
              · next e hquery =>
                rw [hquery, error_bind] at hfind
                rw [decision_of_find_error hhd hfind] at hdecision
                cases hdecision
              · cases hstep
              · next sub hquery =>
                rw [hquery, ok_bind] at hfind
                split at hstep
                · next e hdecide =>
                  rw [decision_of_find_some hhd hfind, hdecide, error_bind] at hdecision
                  cases hdecision
                · cases hstep
      -- the others hold no ledger key open
      | start => intro s hl; cases hl
      | absent => intro s hl; cases hl
      | calling sub => intro s hl; cases hl
      | committed => intro s hl; cases hl
      | duplicate => intro s hl; cases hl
      | failed => intro s hl; cases hl

theorem consistent_of_not_reading {op : BillingOp} {l : Progress} (h : l.isReading = false)
    (db : Db) : Consistent op l db := by
  cases op <;> cases l <;> trivial

/-- A statement changes nothing but the ledger and the subscription rows. -/
theorem db_of_step {ops : ι → BillingOp} {i : ι} {l l' : Progress} {s s' : BillingStore ι}
    (hstep : (billingMachine ops).step i l s = some (l', s')) :
    s'.db = { s.db with
      webhookEvents := s'.db.webhookEvents, subscriptions := s'.db.subscriptions } := by
  rcases billingMachine_step hstep with ⟨d, -, hmove⟩ | ⟨org, create, -, hmove⟩
  · cases hmove <;> rfl
  · cases hmove <;> rfl

theorem consistent_next {ops : ι → BillingOp} {c : Config ι (BillingStore ι) Progress} {i : ι}
    (hquiet : Undisturbing ops c i) (h : ∀ j, Consistent (ops j) (c.loc j) c.store.db) (j : ι) :
    Consistent (ops j) (((billingMachine ops).next c i).loc j)
      ((billingMachine ops).next c i).store.db := by
  unfold Undisturbing at hquiet
  apply knows_next
    (K := fun j (s : BillingStore ι) l => Consistent (ops j) l s.db) h
  · intro l s hstep
    have hi := h i
    generalize c.loc i = l₀ at hstep hi
    cases hop : ops i with
    | webhook d =>
        rw [hop] at hi
        rw [billingMachine_webhook hop] at hstep
        exact consistent_of_step hi hstep
    | ensureCustomer org create =>
        rw [billingMachine_ensureCustomer hop] at hstep
        cases customerMove_of_step hstep with
        | blank hsub hblank => exact ⟨hsub, hblank⟩
        | _ => trivial
  · intro l s hstep j hj
    rw [next_of_some hstep, Config.move_store] at hquiet
    rcases hquiet with hsame | hquiet
    · rw [db_of_step hstep, hsame]
      exact (h j).withLedger _
    · exact consistent_of_not_reading (hquiet j hj) _

/-- **Undisturbed operations are up to date**: where no statement changes the subscription rows
while another operation is reading, every operation acts on what is there. -/
theorem upToDate_of_undisturbing {ops : ι → BillingOp} {db : Db} {sched : List ι}
    (h : (billingMachine ops).Along (Undisturbing ops) (billingStart db) sched) :
    (billingMachine ops).Along (UpToDate ops) (billingStart db) sched := by
  have hrun := h.and_invariant (Q := fun c => ∀ j, Consistent (ops j) (c.loc j) c.store.db)
    (fun c i hc hquiet j => consistent_next hquiet hc j)
    (fun j => consistent_of_not_reading rfl db)
  exact hrun.mono fun c i hc => upToDate_of_consistent (hc.2 i)

/-! ## An operation left alone -/

/-- How many statements are still to come, at most. -/
def Progress.remaining : Progress → Nat
  | .start => 7
  | .absent => 6
  | .looking _ queries => queries.length + 2
  | .decided _ _ => 2
  | .ready _ => 1
  | .calling _ => 1
  | _ => 0

/-- The operation has a place called `l`. -/
def BillingOp.visits : BillingOp → Progress → Bool
  | .webhook _, .calling _ => false
  | .webhook _, _ => true
  | .ensureCustomer _ _, .start => true
  | .ensureCustomer _ _, .calling _ => true
  | .ensureCustomer _ _, l => l.ended

/-- Nobody but `i` has started or holds anything. -/
structure Alone (ops : ι → BillingOp) (i : ι) (c : Config ι (BillingStore ι) Progress) :
    Prop where
  visits : (ops i).visits (c.loc i) = true
  events : c.store.events.HeldBy i
  rows   : c.store.rows.HeldBy i
  others : ∀ j, j ≠ i → c.loc j = .start

theorem Progress.ended_of_remaining {l : Progress} (h : l.remaining = 0) : l.ended = true := by
  cases l with
  | committed => rfl
  | duplicate => rfl
  | failed => rfl
  | _ => simp [remaining] at h

/-- Where nobody else holds anything, a delivery that has not ended takes its next statement, and
comes closer to its end. -/
theorem webhookStep_of_alone {d : Delivery} {i : ι} {l : Progress} {s : BillingStore ι}
    (hevents : s.events.HeldBy i) (hrows : s.rows.HeldBy i)
    (hl : (BillingOp.webhook d).visits l = true) (hremaining : l.remaining ≠ 0) :
    ∃ l' s', webhookStep d i l s = some (l', s') ∧ l'.remaining < l.remaining ∧
      (BillingOp.webhook d).visits l' = true := by
  cases l with
  | start =>
      simp only [webhookStep]
      split
      · exact ⟨_, _, rfl, by decide, rfl⟩
      · split
        · exact ⟨_, _, rfl, by decide, rfl⟩
        · exact ⟨_, _, rfl, by decide, rfl⟩
  | absent =>
      obtain ⟨events, hacquire⟩ := hevents.acquire d.event.id
      simp only [webhookStep, hacquire]
      split
      · split
        · exact ⟨_, _, rfl, by decide, rfl⟩
        · refine ⟨_, _, rfl, ?_, ?_⟩
          · unfold StripeEvent.handling
            split
            · exact by decide
            · show 3 + 2 < 6
              omega
          · unfold StripeEvent.handling
            split <;> rfl
      · exact ⟨_, _, rfl, by decide, rfl⟩
  | looking hd queries =>
      cases queries with
      | nil => exact ⟨_, _, rfl, Nat.lt_succ_self 1, rfl⟩
      | cons query queries =>
          simp only [webhookStep]
          split
          · exact ⟨_, _, rfl, Nat.succ_pos _, rfl⟩
          · exact ⟨_, _, rfl, Nat.lt_succ_self _, rfl⟩
          · split
            · exact ⟨_, _, rfl, Nat.succ_pos _, rfl⟩
            · refine ⟨_, _, rfl, ?_, rfl⟩
              show 2 < queries.length + 1 + 2
              omega
  | decided sub save =>
      obtain ⟨rows, hacquire⟩ := hrows.acquire sub.id
      simp only [webhookStep, hacquire]
      split
      · exact ⟨_, _, rfl, Nat.lt_succ_self 1, rfl⟩
      · exact ⟨_, _, rfl, Nat.succ_pos 1, rfl⟩
  | ready write =>
      simp only [webhookStep]
      split
      · exact ⟨_, _, rfl, Nat.succ_pos 0, rfl⟩
      · exact ⟨_, _, rfl, Nat.succ_pos 0, rfl⟩
  | calling sub => cases hl
  | committed => exact absurd rfl hremaining
  | duplicate => exact absurd rfl hremaining
  | failed => exact absurd rfl hremaining

theorem ensureCustomerStep_of_alone {org : Nat} {create : Except Failure String} {i : ι}
    {l : Progress} {s : BillingStore ι} (hrows : s.rows.HeldBy i)
    (hl : (BillingOp.ensureCustomer org create).visits l = true) (hremaining : l.remaining ≠ 0) :
    ∃ l' s', ensureCustomerStep org create i l s = some (l', s') ∧ l'.remaining < l.remaining ∧
      (BillingOp.ensureCustomer org create).visits l' = true := by
  cases l with
  | start =>
      simp only [ensureCustomerStep]
      split
      · exact ⟨_, _, rfl, by decide, rfl⟩
      · split
        · exact ⟨_, _, rfl, by decide, rfl⟩
        · exact ⟨_, _, rfl, Nat.lt_of_sub_eq_succ rfl, rfl⟩
  | calling sub =>
      obtain ⟨rows, hacquire⟩ := hrows.acquire sub.id
      simp only [ensureCustomerStep, hacquire]
      split
      · exact ⟨_, _, rfl, Nat.succ_pos 0, rfl⟩
      · split
        · exact ⟨_, _, rfl, Nat.succ_pos 0, rfl⟩
        · exact ⟨_, _, rfl, Nat.succ_pos 0, rfl⟩
  | absent => cases hl
  | looking hd queries => cases hl
  | decided sub save => cases hl
  | ready write => cases hl
  | committed => exact absurd rfl hremaining
  | duplicate => exact absurd rfl hremaining
  | failed => exact absurd rfl hremaining

theorem billingMachine_step_of_alone {ops : ι → BillingOp} {i : ι}
    {c : Config ι (BillingStore ι) Progress} (h : Alone ops i c)
    (hremaining : (c.loc i).remaining ≠ 0) :
    ∃ l s, (billingMachine ops).step i (c.loc i) c.store = some (l, s) ∧
      l.remaining < (c.loc i).remaining ∧ (ops i).visits l = true := by
  have hvisits := h.visits
  cases hop : ops i with
  | webhook d =>
      rw [hop] at hvisits
      rw [billingMachine_webhook hop]
      exact webhookStep_of_alone h.events h.rows hvisits hremaining
  | ensureCustomer org create =>
      rw [hop] at hvisits
      rw [billingMachine_ensureCustomer hop]
      exact ensureCustomerStep_of_alone h.rows hvisits hremaining

theorem heldBy_of_step {ops : ι → BillingOp} {i : ι} {l l' : Progress} {s s' : BillingStore ι}
    (hstep : (billingMachine ops).step i l s = some (l', s')) (hevents : s.events.HeldBy i)
    (hrows : s.rows.HeldBy i) : s'.events.HeldBy i ∧ s'.rows.HeldBy i := by
  rcases billingMachine_step hstep with ⟨d, -, hmove⟩ | ⟨org, create, -, hmove⟩
  · cases hmove with
    | record _ hacquire _ => exact ⟨hevents.of_acquire hacquire, hrows⟩
    | work _ _ hacquire =>
        rcases hacquire with rfl | ⟨k, hacquire⟩
        · exact ⟨hevents, hrows⟩
        · exact ⟨hevents, hrows.of_acquire hacquire⟩
    | raised => exact ⟨hevents.release, hrows.release⟩
    | commit => exact ⟨hevents.release, hrows.release⟩
    | _ => exact ⟨hevents, hrows⟩
  · cases hmove <;> exact ⟨hevents, hrows⟩

theorem Alone.move {ops : ι → BillingOp} {i : ι} {c : Config ι (BillingStore ι) Progress}
    (h : Alone ops i c) {l : Progress} {s : BillingStore ι}
    (hstep : (billingMachine ops).step i (c.loc i) c.store = some (l, s))
    (hvisits : (ops i).visits l = true) : Alone ops i (c.move i l s) := by
  obtain ⟨hevents, hrows⟩ := heldBy_of_step hstep h.events h.rows
  refine ⟨?_, hevents, hrows, fun j hj => ?_⟩
  · rwa [Config.move_loc_self]
  · rw [c.move_loc_of_ne hj]
    exact h.others j hj

/-- An operation that is at its end takes no more statements. -/
theorem step_of_remaining {ops : ι → BillingOp} {i : ι} {l : Progress} (hl : l.remaining = 0)
    (s : BillingStore ι) : (billingMachine ops).step i l s = none := by
  cases hop : ops i with
  | webhook d =>
      rw [billingMachine_webhook hop]
      cases l with
      | committed => rfl
      | duplicate => rfl
      | failed => rfl
      | _ => simp [Progress.remaining] at hl
  | ensureCustomer org create =>
      rw [billingMachine_ensureCustomer hop]
      cases l with
      | committed => rfl
      | duplicate => rfl
      | failed => rfl
      | _ => simp [Progress.remaining] at hl

omit [DecidableEq ι] in
theorem alone_start (ops : ι → BillingOp) (i : ι) (db : Db) :
    Alone ops i (billingStart db) := by
  refine ⟨?_, Locks.heldBy_free i, Locks.heldBy_free i, fun _ _ => rfl⟩
  cases ops i <;> rfl

theorem Alone.next {ops : ι → BillingOp} {i : ι} {c : Config ι (BillingStore ι) Progress}
    (h : Alone ops i c) : Alone ops i ((billingMachine ops).next c i) := by
  by_cases hzero : (c.loc i).remaining = 0
  · rwa [next_of_none (step_of_remaining hzero c.store)]
  · obtain ⟨l, s, hstep, -, hvisits⟩ := billingMachine_step_of_alone h hzero
    rw [next_of_some hstep]
    exact h.move hstep hvisits

theorem Alone.undisturbing {ops : ι → BillingOp} {i : ι}
    {c : Config ι (BillingStore ι) Progress} (h : Alone ops i c) : Undisturbing ops c i := by
  refine .inr fun j hj => ?_
  rw [h.others j hj]
  rfl

/-- **An operation left alone** ends within seven statements, and does what it does in one piece. -/
theorem performs_alone (ops : ι → BillingOp) (db : Db) (i : ι) :
    let final := (billingMachine ops).run (billingStart db) (List.replicate 7 i)
    (final.loc i).ended = true ∧ final.store.db = (ops i).perform db := by
  intro final
  obtain ⟨halone, hremaining⟩ := runs_alone (M := billingMachine ops) (Q := Alone ops i)
    (μ := Progress.remaining) (i := i) (n := 7) (c := billingStart db)
    (fun c hc hremaining => by
      obtain ⟨l, s, hstep, hlt, hvisits⟩ := billingMachine_step_of_alone hc hremaining
      exact ⟨l, s, hstep, hlt, hc.move hstep hvisits⟩)
    (alone_start ops i db) (Nat.le_refl 7) (fun c _ hzero => step_of_remaining hzero c.store)
  have hended : (final.loc i).ended = true := Progress.ended_of_remaining hremaining
  refine ⟨hended, ?_⟩
  -- nobody disturbs `i`, so the run is the serial one of the operations that ended: of `i` alone
  have hpicks : (billingMachine ops).Along (fun _ j => j = i) (billingStart db)
      (List.replicate 7 i) :=
    Transition.each_of_mem (fun j hj => List.eq_of_mem_replicate hj) _
  have halong := hpicks.and_invariant (Q := Alone ops i)
    (fun c j hc hj => by rw [hj]; exact hc.next) (alone_start ops i db)
  have hdate := upToDate_of_undisturbing (halong.mono fun c j hc => by
    rw [hc.1]
    exact hc.2.undisturbing)
  have hkeys := hdate.and_invariant (Q := OpenKeys ops) (fun c j hc _ => hc.next j)
    (openKeys_start ops db)
  obtain ⟨order, horder, hdb⟩ := exists_serial_order BillingStore.db (fun j => (ops j).perform)
    (fun c j l s hP hstep => effectAtEnd_of_upToDate hP.1 hP.2 hstep) (fun _ => rfl) hkeys
  have hsingle : order = [i] := by
    refine List.perm_singleton.mp ((List.perm_ext_iff_of_nodup horder.nodup
      (List.nodup_singleton i)).mpr fun j => ?_)
    rw [horder.mem, List.mem_singleton]
    constructor
    · intro hj
      by_contra hne
      rw [halone.others j hne] at hj
      cases hj
    · rintro rfl
      exact hended
  rw [hsingle] at hdb
  exact hdb

/-! ## Two events of one purchase -/

/-- The customer id stored for organization 1. -/
def customerOf (db : Db) : Option String := (subscriptionOf db 1).map (·.val.stripeCustomerId)

/-- The checkout of plan Pro and the first update of its subscription, which Stripe sends together. -/
def purchase : Bool → BillingOp
  | true => .webhook (checkoutOf "evt_1" "sub_1")
  | false => .webhook (updateOf "evt_2" "sub_1" "active")

/-- Both events read the row before either commits; the update commits last and writes back the
blank customer id it read. No order of the two leaves the id blank. -/
theorem purchase_loses_customer :
    let sched := [true, true, true, false, false, false, true, true, false, false]
    let final := (billingMachine purchase).run (billingStart smallBilling) sched
    (∀ i, (final.loc i).ended = true) ∧ customerOf final.store.db = some "" ∧
      ∀ order : List Bool, order.Perm [true, false] →
        customerOf (serially (fun i => (purchase i).perform) smallBilling order) =
          some "cus_1" := by
  intro sched final
  refine ⟨by decide, by decide, fun order horder => ?_⟩
  rcases List.perm_pair.mp horder with rfl | rfl
  · decide
  · decide

/-- The update has looked at the ledger, and not yet at the row, when the checkout comes and is done
with. -/
theorem deliveries_serializable_purchase :
    let sched := false :: List.replicate 5 true ++ List.replicate 4 false
    ∃ order, ((billingMachine purchase).run (billingStart smallBilling) sched).store.db =
      serially (fun i => (purchase i).perform) smallBilling order := by
  intro sched
  have hdate : (billingMachine purchase).Along (UpToDate purchase) (billingStart smallBilling)
      sched := by
    exact upToDate_of_undisturbing (by decide)
  obtain ⟨order, -, h⟩ := deliveries_serializable hdate
  exact ⟨order, h⟩

end Bastiq
