import Bastiq.Concurrency.Machine
import Bastiq.Billing.Webhooks

/-!
# Deliveries as transactions

The operations on the subscription rows as the database sees them, one statement at a time, under
READ COMMITTED: a plain read sees what is committed, a write is seen by others when its transaction
commits, and a row that an open transaction has written cannot be written by another.

A webhook delivery is one transaction: it looks for its ledger row, inserts it, looks its
subscription row up by one query after the other, writes it, and commits. Inserting a key that an
open transaction has inserted waits for that transaction to end. `ensure_customer` is a read and,
if the row has no customer, a write that commits by itself.
-/

namespace Bastiq

open Relational Concurrency

/-- What is done to subscription rows: deliveries, and checkouts making sure of a customer;
`create` is what `stripe.Customer.create` returns, or fails with. -/
inductive BillingOp where
  | webhook (d : Delivery)
  | ensureCustomer (org : Nat) (create : Except Failure String)

/-- The committed database, the ledger keys inserted by open transactions, and the subscription
rows they have written. -/
structure BillingStore (ι : Type) where
  db     : Db
  events : Locks String ι
  rows   : Locks Nat ι

/-- Where an operation stands. -/
inductive Progress where
  | start
  /-- no ledger row was found -/
  | absent
  /-- the ledger row is inserted; these queries are still to be made -/
  | looking (h : Handler) (queries : List Lookup)
  | decided (sub : Row Subscription) (save : Save)
  /-- the transaction has done its work -/
  | ready (write : Option (Row Subscription × Save))
  /-- the row read has no customer -/
  | calling (sub : Row Subscription)
  | committed
  | duplicate
  | failed

def Progress.ended : Progress → Bool
  | .committed => true
  | .duplicate => true
  | .failed => true
  | _ => false

/-- The transaction is open: its ledger row is inserted. -/
def Progress.isOpen : Progress → Bool
  | .looking _ _ => true
  | .decided _ _ => true
  | .ready _ => true
  | _ => false

theorem Progress.ended_of_isOpen {l : Progress} (h : l.isOpen = true) : l.ended = false := by
  cases l with
  | looking hd queries => rfl
  | decided sub save => rfl
  | ready write => rfl
  | _ => cases h

variable {ι : Type} [DecidableEq ι]

/-- A transaction ends, and what it holds is free. -/
def BillingStore.release (s : BillingStore ι) (i : ι) : BillingStore ι :=
  { s with events := s.events.release i, rows := s.rows.release i }

/-- After the ledger row comes the handler, if the event has one. -/
def StripeEvent.handling (event : StripeEvent) : Progress :=
  match event.handler with
  | none => .ready none
  | some h => .looking h (h.lookups event.object)

/-- The next statement of a delivery. The plans a handler reads do not change, so they are read
together with the row. -/
def webhookStep (d : Delivery) (i : ι) :
    Progress → BillingStore ι → Option (Progress × BillingStore ι)
  | .start, s =>
      match textParam d.event.id with
      | .error _ => some (.failed, s)
      | .ok id => match ledgerRow s.db id with
          | some _ => some (.duplicate, s)
          | none => some (.absent, s)
  | .absent, s =>
      if d.event.recordable then
        match s.events.acquire i d.event.id with
        -- another open transaction has inserted the key
        | none => none
        | some events => match ledgerRow s.db d.event.id with
            | some _ => some (.duplicate, s)
            | none => some (d.event.handling, { s with events := events })
      else some (.failed, s)
  | .looking _ [], s => some (.ready none, s)
  | .looking h (query :: queries), s =>
      match query s.db with
      | .error _ => some (.failed, s.release i)
      | .ok none => some (.looking h queries, s)
      | .ok (some sub) => match h.decide s.db d.event.object sub.val with
          | .error _ => some (.failed, s.release i)
          | .ok save => some (.decided sub save, s)
  | .decided sub save, s =>
      if save.fits then
        match s.rows.acquire i sub.id with
        | none => none
        | some rows => some (.ready (some (sub, save)), { s with rows := rows })
      else some (.failed, s.release i)
  | .ready write, s =>
      match d.fault with
      | some _ => some (.failed, s.release i)
      | none => some (.committed, { s.release i with db := d.commit write s.db })
  | _, _ => none

/-- The next statement of `ensure_customer`. -/
def ensureCustomerStep (org : Nat) (create : Except Failure String) (i : ι) :
    Progress → BillingStore ι → Option (Progress × BillingStore ι)
  | .start, s =>
      match subscriptionOf s.db org with
      | none => some (.failed, s)
      | some sub =>
          if sub.val.stripeCustomerId != "" then some (.committed, s) else some (.calling sub, s)
  | .calling sub, s =>
      match create with
      | .error _ => some (.failed, s)
      | .ok customer =>
          if fits 255 customer then
            match s.rows.acquire i sub.id with
            -- an open delivery has written the row
            | none => none
            | some _ => some (.committed, { s with db := saveCustomer s.db sub.id customer })
          else some (.failed, s)
  | _, _ => none

/-- The operations side by side. -/
def billingMachine (ops : ι → BillingOp) : Machine ι (BillingStore ι) Progress where
  step i := match ops i with
    | .webhook d => webhookStep d i
    | .ensureCustomer org create => ensureCustomerStep org create i

theorem billingMachine_webhook {ops : ι → BillingOp} {i : ι} {d : Delivery}
    (h : ops i = .webhook d) : (billingMachine ops).step i = webhookStep d i := by
  simp only [billingMachine, h]

theorem billingMachine_ensureCustomer {ops : ι → BillingOp} {i : ι} {org : Nat}
    {create : Except Failure String} (h : ops i = .ensureCustomer org create) :
    (billingMachine ops).step i = ensureCustomerStep org create i := by
  simp only [billingMachine, h]

/-- Nothing has started. -/
def billingStart (db : Db) : Config ι (BillingStore ι) Progress :=
  ⟨⟨db, Locks.free, Locks.free⟩, fun _ => .start⟩

/-- An operation that runs alone. -/
def BillingOp.perform : BillingOp → Db → Db
  | .webhook d, db => (postWebhook d db).2
  | .ensureCustomer org create, db =>
      match subscriptionOf db org with
      | none => db
      | some sub => match Bastiq.ensureCustomer db sub create with
          | .ok (_, db) => db
          | .error _ => db

/-! ## What one statement can do -/

/-- The moves of a delivery: from where it stands and the store to where it stands next and the
store it leaves. -/
inductive DeliveryMove (d : Delivery) (i : ι) (s : BillingStore ι) :
    Progress → Progress → BillingStore ι → Prop where
  | badId {e : Failure} (h : textParam d.event.id = .error e) : DeliveryMove d i s .start .failed s
  | known {r : Row WebhookEvent} (h : ledgerRow s.db d.event.id = some r) :
      DeliveryMove d i s .start .duplicate s
  | unknown : DeliveryMove d i s .start .absent s
  | unrecordable (h : d.event.recordable = false) : DeliveryMove d i s .absent .failed s
  | beaten {r : Row WebhookEvent} (h : ledgerRow s.db d.event.id = some r) :
      DeliveryMove d i s .absent .duplicate s
  | record {events : Locks String ι} (hrecordable : d.event.recordable = true)
      (hacquire : s.events.acquire i d.event.id = some events)
      (hledger : ledgerRow s.db d.event.id = none) :
      DeliveryMove d i s .absent d.event.handling { s with events := events }
  | work {l l' : Progress} {rows : Locks Nat ι} (hl : l.isOpen = true) (hl' : l'.isOpen = true)
      (hrows : rows = s.rows ∨ ∃ k, s.rows.acquire i k = some rows) :
      DeliveryMove d i s l l' { s with rows := rows }
  | raised {l : Progress} (hl : l.isOpen = true)
      (hfault : ∀ write, l = .ready write → d.fault ≠ none) :
      DeliveryMove d i s l .failed (s.release i)
  | commit {write : Option (Row Subscription × Save)} (hfault : d.fault = none) :
      DeliveryMove d i s (.ready write) .committed
        { s.release i with db := d.commit write s.db }

theorem deliveryMove_of_step {d : Delivery} {i : ι} {l l' : Progress} {s s' : BillingStore ι}
    (h : webhookStep d i l s = some (l', s')) : DeliveryMove d i s l l' s' := by
  cases l with
  | start =>
      simp only [webhookStep] at h
      split at h
      · next e he => cases h; exact .badId he
      · next id hid =>
        unfold textParam at hid
        split at hid
        · cases hid
        · cases hid
          split at h
          · next r hr => cases h; exact .known hr
          · cases h; exact .unknown
  | absent =>
      simp only [webhookStep] at h
      split at h
      · next hrecordable =>
        split at h
        · cases h
        · next events hacquire =>
          split at h
          · next r hr => cases h; exact .beaten hr
          · next hledger => cases h; exact .record hrecordable hacquire hledger
      · next hrecordable => cases h; exact .unrecordable (by simpa using hrecordable)
  | looking hd queries =>
      cases queries with
      | nil => cases h; exact .work rfl rfl (.inl rfl)
      | cons query queries =>
          simp only [webhookStep] at h
          split at h
          · cases h; exact .raised rfl (fun _ hl => nomatch hl)
          · cases h; exact .work rfl rfl (.inl rfl)
          · split at h
            · cases h; exact .raised rfl (fun _ hl => nomatch hl)
            · cases h; exact .work rfl rfl (.inl rfl)
  | decided sub save =>
      simp only [webhookStep] at h
      split at h
      · split at h
        · cases h
        · next rows hacquire => cases h; exact .work rfl rfl (.inr ⟨_, hacquire⟩)
      · cases h; exact .raised rfl (fun _ hl => nomatch hl)
  | ready write =>
      simp only [webhookStep] at h
      split at h
      · next e hfault => cases h; exact .raised rfl (fun _ _ => by rw [hfault]; exact nofun)
      · next hfault => cases h; exact .commit hfault
  | calling sub => cases h
  | committed => cases h
  | duplicate => cases h
  | failed => cases h

/-- The work of an open delivery: it looks for its row, decides, and locks the row. -/
inductive WorkMove (d : Delivery) (i : ι) (s : BillingStore ι) :
    Progress → Progress → BillingStore ι → Prop where
  | unfound {hd : Handler} : WorkMove d i s (.looking hd []) (.ready none) s
  | missed {hd : Handler} {query : Lookup} {queries : List Lookup} (h : query s.db = .ok none) :
      WorkMove d i s (.looking hd (query :: queries)) (.looking hd queries) s
  | found {hd : Handler} {query : Lookup} {queries : List Lookup} {sub : Row Subscription}
      {save : Save} (hfound : query s.db = .ok (some sub))
      (hdecide : hd.decide s.db d.event.object sub.val = .ok save) :
      WorkMove d i s (.looking hd (query :: queries)) (.decided sub save) s
  | locked {sub : Row Subscription} {save : Save} {rows : Locks Nat ι} (hfits : save.fits = true)
      (hacquire : s.rows.acquire i sub.id = some rows) :
      WorkMove d i s (.decided sub save) (.ready (some (sub, save))) { s with rows := rows }

/-- A step that leaves an open delivery open is its work. -/
theorem workMove_of_step {d : Delivery} {i : ι} {l l' : Progress} {s s' : BillingStore ι}
    (h : webhookStep d i l s = some (l', s')) (hl : l.isOpen = true) (hl' : l'.isOpen = true) :
    WorkMove d i s l l' s' := by
  cases l with
  | looking hd queries =>
      cases queries with
      | nil => cases h; exact .unfound
      | cons query queries =>
          simp only [webhookStep] at h
          split at h
          · cases h; cases hl'
          · next hquery => cases h; exact .missed hquery
          · next sub hfound =>
            split at h
            · cases h; cases hl'
            · next save hdecide => cases h; exact .found hfound hdecide
  | decided sub save =>
      simp only [webhookStep] at h
      split at h
      · next hfits =>
        split at h
        · cases h
        · next rows hacquire => cases h; exact .locked hfits hacquire
      · cases h; cases hl'
  | ready write =>
      simp only [webhookStep] at h
      split at h
      · cases h; cases hl'
      · cases h; cases hl'
  | _ => cases hl

theorem StripeEvent.handling_isOpen (event : StripeEvent) : event.handling.isOpen = true := by
  unfold StripeEvent.handling
  split
  · rfl
  · rfl

/-- The moves of `ensure_customer`. -/
inductive CustomerMove (org : Nat) (create : Except Failure String) (s : BillingStore ι) :
    Progress → Progress → BillingStore ι → Prop where
  | missing (h : subscriptionOf s.db org = none) : CustomerMove org create s .start .failed s
  | present {sub : Row Subscription} (hsub : subscriptionOf s.db org = some sub)
      (h : sub.val.stripeCustomerId ≠ "") : CustomerMove org create s .start .committed s
  | blank {sub : Row Subscription} (hsub : subscriptionOf s.db org = some sub)
      (h : sub.val.stripeCustomerId = "") : CustomerMove org create s .start (.calling sub) s
  | refused {sub : Row Subscription} (h : ∀ customer, create = .ok customer →
      fits 255 customer = false) : CustomerMove org create s (.calling sub) .failed s
  | saved {sub : Row Subscription} {customer : String} (hcreate : create = .ok customer)
      (hfits : fits 255 customer = true) :
      CustomerMove org create s (.calling sub) .committed
        { s with db := saveCustomer s.db sub.id customer }

theorem customerMove_of_step {org : Nat} {create : Except Failure String} {i : ι}
    {l l' : Progress} {s s' : BillingStore ι}
    (h : ensureCustomerStep org create i l s = some (l', s')) :
    CustomerMove org create s l l' s' := by
  cases l with
  | start =>
      simp only [ensureCustomerStep] at h
      split at h
      · next hnone => cases h; exact .missing hnone
      · next sub hsub =>
        split at h
        · next hpresent => cases h; exact .present hsub (by simpa using hpresent)
        · next hblank => cases h; exact .blank hsub (by simpa using hblank)
  | calling sub =>
      simp only [ensureCustomerStep] at h
      split at h
      · cases h; exact .refused (fun _ hc => nomatch hc)
      · next customer =>
        split at h
        · next hfits =>
          split at h
          · cases h
          · cases h; exact .saved rfl hfits
        · next hfits =>
          cases h
          refine .refused fun _ hc => ?_
          cases hc
          simpa using hfits
  | absent => cases h
  | looking hd queries => cases h
  | decided sub save => cases h
  | ready write => cases h
  | committed => cases h
  | duplicate => cases h
  | failed => cases h

/-- A step of the machine is a move of one of the two kinds. -/
theorem billingMachine_step {ops : ι → BillingOp} {i : ι} {l l' : Progress} {s s' : BillingStore ι}
    (h : (billingMachine ops).step i l s = some (l', s')) :
    (∃ d, ops i = .webhook d ∧ DeliveryMove d i s l l' s') ∨
      ∃ org create, ops i = .ensureCustomer org create ∧ CustomerMove org create s l l' s' := by
  cases hop : ops i with
  | webhook d =>
      rw [billingMachine_webhook hop] at h
      exact .inl ⟨d, rfl, deliveryMove_of_step h⟩
  | ensureCustomer org create =>
      rw [billingMachine_ensureCustomer hop] at h
      exact .inr ⟨org, create, rfl, customerMove_of_step h⟩

/-! ## Open transactions and the ledger -/

/-- An open delivery holds the key of its ledger row, which is not in the committed ledger. -/
def OpenKeys (ops : ι → BillingOp) (c : Config ι (BillingStore ι) Progress) : Prop :=
  ∀ i d, ops i = .webhook d → (c.loc i).isOpen = true →
    c.store.events d.event.id = some i ∧ ledgerRow c.store.db d.event.id = none ∧
      d.event.recordable = true

theorem ledgerRow_commit {d : Delivery} {write : Option (Row Subscription × Save)} {db : Db}
    {id : String} (h : ledgerRow db id = none) (hne : d.event.id ≠ id) :
    ledgerRow (d.commit write db) id = none := by
  unfold ledgerRow at h ⊢
  rw [Table.first?_eq_none_iff] at h ⊢
  intro r hr
  rcases Table.mem_insert.mp hr with hr | rfl
  · exact h r hr
  · simpa [StripeEvent.ledgerEntry] using hne

theorem OpenKeys.next {ops : ι → BillingOp} {c : Config ι (BillingStore ι) Progress} (i : ι)
    (h : OpenKeys ops c) : OpenKeys ops ((billingMachine ops).next c i) := by
  refine Machine.next_cases (motive := OpenKeys ops) c i h fun l s hstep => ?_
  intro j e he hopen
  have hmove := billingMachine_step hstep
  generalize hl : c.loc i = l₀ at hmove
  rw [Config.move_store]
  by_cases hj : j = i
  · -- the process that moved: its transaction is open, and was or has just been opened
    subst hj
    rw [Config.move_loc_self] at hopen
    rcases hmove with ⟨d, hd, hmove⟩ | ⟨org, create, ho, hmove⟩
    · obtain rfl : d = e := BillingOp.webhook.inj (hd.symm.trans he)
      cases hmove with
      | record hrecordable hacquire hledger =>
          exact ⟨Locks.acquire_self hacquire, hledger, hrecordable⟩
      | work hopen₀ _ _ => exact h j d he (by rw [hl]; exact hopen₀)
      | badId => cases hopen
      | known => cases hopen
      | unknown => cases hopen
      | unrecordable => cases hopen
      | beaten => cases hopen
      | raised => cases hopen
      | commit => cases hopen
    · rw [he] at ho
      cases ho
  · -- the others keep their keys, and what commits has another key than theirs
    rw [c.move_loc_of_ne hj] at hopen
    obtain ⟨hkey, hledger, hrecordable⟩ := h j e he hopen
    rcases hmove with ⟨d, hd, hmove⟩ | ⟨org, create, -, hmove⟩
    · cases hmove with
      | record _ hacquire _ => exact ⟨Locks.acquire_held hacquire hkey, hledger, hrecordable⟩
      | raised => exact ⟨Locks.release_held hkey hj, hledger, hrecordable⟩
      | commit =>
          have hown := (h i d hd (by rw [hl]; rfl)).1
          have hne : d.event.id ≠ e.event.id := by
            intro heq
            rw [heq, hkey] at hown
            exact hj (Option.some.inj hown)
          exact ⟨Locks.release_held hkey hj, ledgerRow_commit hledger hne, hrecordable⟩
      | badId => exact ⟨hkey, hledger, hrecordable⟩
      | known => exact ⟨hkey, hledger, hrecordable⟩
      | unknown => exact ⟨hkey, hledger, hrecordable⟩
      | unrecordable => exact ⟨hkey, hledger, hrecordable⟩
      | beaten => exact ⟨hkey, hledger, hrecordable⟩
      | work => exact ⟨hkey, hledger, hrecordable⟩
    · cases hmove with
      | missing => exact ⟨hkey, hledger, hrecordable⟩
      | present => exact ⟨hkey, hledger, hrecordable⟩
      | blank => exact ⟨hkey, hledger, hrecordable⟩
      | refused => exact ⟨hkey, hledger, hrecordable⟩
      | saved => exact ⟨hkey, hledger, hrecordable⟩

omit [DecidableEq ι] in
theorem openKeys_start (ops : ι → BillingOp) (db : Db) : OpenKeys ops (billingStart db) :=
  fun _ _ _ hopen => nomatch hopen

end Bastiq
