import Bastiq.Billing.Checkout
import Bastiq.Billing.Lifecycle
import Bastiq.Concurrency.Machine

/-!
# Checkouts of one organization at the same time

`ensure_customer` decides by a row that was read before, asks Stripe for a customer, and saves its
id in a later statement; no lock is held, and none would undo what Stripe has done. Any number of
checkouts run as processes here, each with its read, its call of `stripe.Customer.create`, its save
and its session. Stripe is asked once, and every session is for the customer in the row, exactly if
nobody asks while the answer to another one is not in the row (`one_customer_iff`).
-/

namespace Bastiq

open Relational Concurrency Machine Transition View

/-! ## The requests, statement by statement -/

structure CheckoutCall where
  user   : Nat
  header : Option String
  data   : RequestData
  stripe : StripeApi

/-- What a checkout goes on with: the organization, the plan and the subscription it has read. -/
structure CheckoutRead where
  organization : Nat
  plan         : Row Plan
  subscription : Row Subscription

/-- Where a checkout stands. -/
inductive CheckoutPlace where
  | start
  /-- It has read a blank id and is about to call `stripe.Customer.create`. -/
  | creating (read : CheckoutRead)
  | saving (read : CheckoutRead) (customer : String)
  /-- `ensure_customer` has raised. -/
  | failed
  | session (read : CheckoutRead) (customer : String)
  | done (r : Response String)

/-- The database, and what Stripe has been asked: the calls of `stripe.Customer.create`, and the
customer of every session. -/
structure CheckoutStore where
  db       : Db
  asked    : Nat := 0
  sessions : List String := []

/-- The checks of the view, and its read of the subscription. -/
def readCheckout (db : Db) (q : CheckoutCall) : View String CheckoutRead := do
  let membership ← orElse (isOrganizationMember db q.user q.header) (forbidden notAMemberMessage)
  require (membership.val.role == .owner) (forbidden ownerOnlyMessage)
  let plan ← purchasablePlan db q.data
  let sub ← orElse (subscriptionOf db membership.val.organization)
    (badRequest "Billing is not set up for this organization.")
  require (!(sub.val.stripeCustomerId == "" && !q.stripe.configured)) billingNotConfigured
  .ok ⟨membership.val.organization, plan, sub⟩

/-- After the read, `ensure_customer` has the id or has to ask for it. -/
def CheckoutPlace.ofRead : View String CheckoutRead → CheckoutPlace
  | .error r => .done r
  | .ok read =>
      if read.subscription.val.stripeCustomerId != "" then
        .session read read.subscription.val.stripeCustomerId
      else .creating read

/-- A session is created exactly if the answer has its URL. -/
def CheckoutStore.answer (s : CheckoutStore) (customer : String) (r : Response String) :
    CheckoutStore :=
  if r.status = 200 then { s with sessions := s.sessions ++ [customer] } else s

@[simp] theorem CheckoutStore.db_answer (s : CheckoutStore) (customer : String)
    (r : Response String) : (s.answer customer r).db = s.db := by
  unfold answer
  split <;> rfl

@[simp] theorem CheckoutStore.asked_answer (s : CheckoutStore) (customer : String)
    (r : Response String) : (s.answer customer r).asked = s.asked := by
  unfold answer
  split <;> rfl

theorem CheckoutStore.mem_sessions_answer {s : CheckoutStore} {customer x : String}
    {r : Response String} (h : x ∈ (s.answer customer r).sessions) : x ∈ s.sessions ∨ x = customer := by
  unfold answer at h
  split at h
  · simpa using h
  · exact .inl h

/-- The next statement of `CheckoutView.post`. -/
def checkoutStep (q : CheckoutCall) (place : CheckoutPlace) (s : CheckoutStore) :
    Option (CheckoutPlace × CheckoutStore) :=
  match place with
  | .start => some (.ofRead (readCheckout s.db q), s)
  | .creating read =>
      some (match q.stripe.createCustomer with
        | .error _ => .failed
        | .ok customer => .saving read customer, { s with asked := s.asked + 1 })
  | .saving read customer =>
      if fits 255 customer then
        some (.session read customer,
          { s with db := saveCustomer s.db read.subscription.id customer })
      else some (.failed, s)
  | .session read customer =>
      let r := sessionResponse q.stripe customer read.organization read.plan
      some (.done r, s.answer customer r)
  | .failed => none
  | .done _ => none

def checkoutMachine {ι : Type} (calls : ι → CheckoutCall) :
    Machine ι CheckoutStore CheckoutPlace where
  step i := checkoutStep (calls i)

/-- Everybody at the start. -/
def checkoutStart {ι : Type} (db : Db) : Config ι CheckoutStore CheckoutPlace :=
  ⟨{ db := db }, fun _ => .start⟩

/-- How a checkout that takes no more statements is answered. -/
def CheckoutPlace.response : CheckoutPlace → Response String
  | .done r => r
  | _ => serverError

/-! ### What a statement does -/

/-- The moves of a checkout. -/
inductive CheckoutMove (q : CheckoutCall) (s : CheckoutStore) :
    CheckoutPlace → CheckoutPlace → CheckoutStore → Prop where
  | refused {r : Response String} (h : readCheckout s.db q = .error r) :
      CheckoutMove q s .start (.done r) s
  | known {read : CheckoutRead} (h : readCheckout s.db q = .ok read)
      (hid : read.subscription.val.stripeCustomerId ≠ "") :
      CheckoutMove q s .start (.session read read.subscription.val.stripeCustomerId) s
  | blank {read : CheckoutRead} (h : readCheckout s.db q = .ok read)
      (hid : read.subscription.val.stripeCustomerId = "") : CheckoutMove q s .start (.creating read) s
  | created {read : CheckoutRead} {customer : String} (h : q.stripe.createCustomer = .ok customer) :
      CheckoutMove q s (.creating read) (.saving read customer) { s with asked := s.asked + 1 }
  | notCreated {read : CheckoutRead} {e : Failure} (h : q.stripe.createCustomer = .error e) :
      CheckoutMove q s (.creating read) .failed { s with asked := s.asked + 1 }
  | saved {read : CheckoutRead} {customer : String} (h : fits 255 customer = true) :
      CheckoutMove q s (.saving read customer) (.session read customer)
        { s with db := saveCustomer s.db read.subscription.id customer }
  | notSaved {read : CheckoutRead} {customer : String} (h : fits 255 customer = false) :
      CheckoutMove q s (.saving read customer) .failed s
  | answered (read : CheckoutRead) (customer : String) :
      CheckoutMove q s (.session read customer)
        (.done (sessionResponse q.stripe customer read.organization read.plan))
        (s.answer customer (sessionResponse q.stripe customer read.organization read.plan))

section Moves

variable {q : CheckoutCall} {s s' : CheckoutStore} {l l' : CheckoutPlace}

theorem checkoutStep_eq_some :
    checkoutStep q l s = some (l', s') ↔ CheckoutMove q s l l' s' := by
  constructor
  · intro h
    cases l with
    | start =>
        cases hread : readCheckout s.db q with
        | error r =>
            rw [checkoutStep, hread] at h
            cases h
            exact .refused hread
        | ok read =>
            rw [checkoutStep, hread, CheckoutPlace.ofRead] at h
            split at h
            · next hid =>
              cases h
              exact .known hread (by simpa using hid)
            · next hid =>
              cases h
              exact .blank hread (by simpa using hid)
    | creating read =>
        cases hcreate : q.stripe.createCustomer with
        | error e =>
            rw [checkoutStep, hcreate] at h
            cases h
            exact .notCreated hcreate
        | ok customer =>
            rw [checkoutStep, hcreate] at h
            cases h
            exact .created hcreate
    | saving read customer =>
        cases hfits : fits 255 customer with
        | true =>
            rw [checkoutStep, hfits] at h
            cases h
            exact .saved hfits
        | false =>
            rw [checkoutStep, hfits] at h
            cases h
            exact .notSaved hfits
    | session read customer =>
        cases h
        exact .answered read customer
    | failed => cases h
    | done r => cases h
  · intro h
    cases h with
    | refused h => rw [checkoutStep, h, CheckoutPlace.ofRead]
    | known h hid => rw [checkoutStep, h, CheckoutPlace.ofRead, if_pos (by simpa using hid)]
    | blank h hid => rw [checkoutStep, h, CheckoutPlace.ofRead, if_neg (by simpa using hid)]
    | created h => rw [checkoutStep, h]
    | notCreated h => rw [checkoutStep, h]
    | saved h => rw [checkoutStep, h, if_pos rfl]
    | notSaved h => rw [checkoutStep, h, if_neg Bool.false_ne_true]
    | answered read customer => rfl

end Moves

section Alone

/-- `CheckoutView.post` is the read, `ensure_customer` and the session. -/
theorem checkout_eq (db : Db) (q : CheckoutCall) :
    checkout db q.user q.header q.data q.stripe = readCheckout db q >>= fun read =>
      match ensureCustomer db read.subscription q.stripe.createCustomer with
      | .error _ => .error serverError
      | .ok (customer, db) =>
          .ok (sessionResponse q.stripe customer read.organization read.plan, db) := by
  unfold checkout readCheckout
  simp only [bind_assoc]
  refine congrArg _ (funext fun membership => congrArg _ (funext fun _ => congrArg _ (funext
    fun plan => congrArg _ (funext fun sub => ?_))))
  cases hasked : (sub.val.stripeCustomerId == "" && !q.stripe.configured) with
  | true => rfl
  | false => rfl

variable {ι : Type} {calls : ι → CheckoutCall} {i : ι}

theorem checkout_step {l l' : CheckoutPlace} {s s' : CheckoutStore}
    (h : CheckoutMove (calls i) s l l' s') :
    (checkoutMachine calls).step i l s = some (l', s') :=
  checkoutStep_eq_some.mpr h

theorem checkout_failed {s : CheckoutStore} : (checkoutMachine calls).step i .failed s = none := rfl

theorem checkout_done {r : Response String} {s : CheckoutStore} :
    (checkoutMachine calls).step i (.done r) s = none := rfl

/-- **Alone, the statements are the view.** -/
theorem checkout_alone (calls : ι → CheckoutCall) (i : ι) (db : Db) :
    let out := (checkoutMachine calls).alone i 4 .start { db := db }
    let view := perform db
      (checkout db (calls i).user (calls i).header (calls i).data (calls i).stripe)
    out.1.response = view.1 ∧ out.2.db = view.2 := by
  intro out view
  unfold out view
  rw [checkout_eq]
  cases hread : readCheckout db (calls i) with
  | error r =>
      rw [alone_succ (checkout_step (.refused hread)), alone_of_none checkout_done]
      exact ⟨rfl, rfl⟩
  | ok read =>
      rw [ok_bind]
      by_cases hid : read.subscription.val.stripeCustomerId = ""
      · rw [alone_succ (checkout_step (.blank hread hid)), ensureCustomer, if_neg (by simp [hid])]
        cases hcreate : (calls i).stripe.createCustomer with
        | error e =>
            rw [alone_succ (checkout_step (.notCreated hcreate)), alone_of_none checkout_failed]
            exact ⟨rfl, rfl⟩
        | ok customer =>
            rw [alone_succ (checkout_step (.created hcreate)), ok_bind]
            cases hfits : fits 255 customer with
            | true =>
                rw [alone_succ (checkout_step (.saved hfits)),
                  alone_succ (checkout_step (.answered read customer)), alone]
                exact ⟨rfl, CheckoutStore.db_answer ..⟩
            | false =>
                rw [alone_succ (checkout_step (.notSaved hfits)), alone_of_none checkout_failed]
                exact ⟨rfl, rfl⟩
      · rw [alone_succ (checkout_step (.known hread hid)), ensureCustomer, if_pos (by simp [hid]),
          alone_succ (checkout_step (.answered read _)), alone_of_none checkout_done]
        exact ⟨rfl, CheckoutStore.db_answer ..⟩

end Alone

theorem isOrganizationMember_congr {db db' : Db} (h : db'.memberships = db.memberships) (user : Nat)
    (header : Option String) :
    isOrganizationMember db' user header = isOrganizationMember db user header := by
  unfold isOrganizationMember membershipIn
  rw [h]

/-! ## One customer -/

/-- Stripe is asked for a customer at most once, and every session is for the customer in the row. -/
structure OneCustomer (org : Nat) (s : CheckoutStore) : Prop where
  asked    : s.asked ≤ 1
  sessions : ∀ customer ∈ s.sessions,
    (subscriptionOf s.db org).map (·.val.stripeCustomerId) = some customer

/-- The place of a checkout that has asked Stripe, when what Stripe answered is not in the row. -/
inductive CheckoutPlace.Between : CheckoutPlace → Prop where
  | saving (read : CheckoutRead) (customer : String) : (CheckoutPlace.saving read customer).Between
  | failed : CheckoutPlace.failed.Between

/-- A checkout that is about to ask Stripe finds the row still blank, and no other one that has asked
and has not saved. -/
def CreatesAlone {ι : Type} (org : Nat) (c : Config ι CheckoutStore CheckoutPlace) (i : ι) : Prop :=
  ∀ read, c.loc i = .creating read →
    (subscriptionOf c.store.db org).map (·.val.stripeCustomerId) = some "" ∧
      ∀ j, ¬(c.loc j).Between

/-- The place of a checkout that has not asked Stripe. It has seen nothing but the blank row. -/
inductive CheckoutPlace.Idle (sub : Row Subscription) : CheckoutPlace → Prop where
  | start : CheckoutPlace.start.Idle sub
  | creating {read : CheckoutRead} (h : read.subscription = sub) :
      (CheckoutPlace.creating read).Idle sub
  | done (r : Response String) : (CheckoutPlace.done r).Idle sub

/-- The place of a checkout when `customer` is in the row. -/
inductive CheckoutPlace.Served (customer : String) : CheckoutPlace → Prop where
  | start : CheckoutPlace.start.Served customer
  | creating (read : CheckoutRead) : (CheckoutPlace.creating read).Served customer
  | session (read : CheckoutRead) : (CheckoutPlace.session read customer).Served customer
  | done (r : Response String) : (CheckoutPlace.done r).Served customer

theorem CheckoutPlace.Idle.served {sub : Row Subscription} {l : CheckoutPlace} (h : l.Idle sub)
    (customer : String) : l.Served customer := by
  cases h with
  | start => exact .start
  | creating h => exact .creating _
  | done r => exact .done r

/-- How far the organization has come with its customer. -/
inductive CustomerState {ι : Type} (db : Db) (sub : Row Subscription)
    (c : Config ι CheckoutStore CheckoutPlace) : Prop where
  | blank (hdb : c.store.db = db) (hasked : c.store.asked = 0) (hsessions : c.store.sessions = [])
      (hplace : ∀ i, (c.loc i).Idle sub)
  | asked (w : ι) (hdb : c.store.db = db) (hasked : c.store.asked = 1)
      (hsessions : c.store.sessions = [])
      (hw : c.loc w = .failed ∨ ∃ read customer, c.loc w = .saving read customer ∧
        read.subscription = sub ∧ customer ≠ "")
      (hplace : ∀ i, i ≠ w → (c.loc i).Idle sub)
  | stored (customer : String) (hid : customer ≠ "")
      (hdb : c.store.db = saveCustomer db sub.id customer) (hasked : c.store.asked = 1)
      (hsessions : ∀ x ∈ c.store.sessions, x = customer)
      (hplace : ∀ i, (c.loc i).Served customer)

section Run

variable {ι : Type} [DecidableEq ι] {calls : ι → CheckoutCall} {db : Db} {org : Nat}
  {sub : Row Subscription} {c : Config ι CheckoutStore CheckoutPlace}

omit [DecidableEq ι] in
theorem customerState_start : CustomerState db sub (checkoutStart (ι := ι) db) :=
  .blank rfl rfl rfl fun _ => .start

omit [DecidableEq ι] in
theorem CustomerState.oneCustomer (h : CustomerState db sub c)
    (hsub : subscriptionOf db org = some sub) : OneCustomer org c.store := by
  cases h with
  | blank hdb hasked hsessions hplace =>
      constructor
      · omega
      · simp [hsessions]
  | asked w hdb hasked hsessions hw hplace =>
      constructor
      · omega
      · simp [hsessions]
  | stored customer hid hdb hasked hsessions hplace =>
      constructor
      · omega
      · intro x hx
        rw [hsessions x hx, hdb, subscriptionOf_saveCustomer, hsub]
        simp [Table.setRow]

omit [DecidableEq ι] in
/-- A checkout reads the row of the organization. -/
theorem row_of_readCheckout {db' : Db} {i : ι} {read : CheckoutRead} {row : Row Subscription}
    (horg : ∀ i m, isOrganizationMember db (calls i).user (calls i).header = some m →
      m.val.organization = org)
    (hmembers : db'.memberships = db.memberships) (hrow : subscriptionOf db' org = some row)
    (h : readCheckout db' (calls i) = .ok read) : read.subscription = row := by
  obtain ⟨m, hm, h⟩ := bind_eq_ok.mp h
  obtain ⟨_, -, h⟩ := bind_eq_ok.mp h
  obtain ⟨plan, -, h⟩ := bind_eq_ok.mp h
  obtain ⟨sub', hsub', h⟩ := bind_eq_ok.mp h
  obtain ⟨_, -, h⟩ := bind_eq_ok.mp h
  cases h
  have hm := orElse_eq_ok.mp hm
  rw [isOrganizationMember_congr hmembers] at hm
  have hread := orElse_eq_ok.mp hsub'
  rw [horg i m hm, hrow] at hread
  exact (Option.some.inj hread).symm

omit [DecidableEq ι] in
theorem CustomerState.asked_of_between (h : CustomerState db sub c) {j : ι}
    (hj : (c.loc j).Between) : c.store.asked = 1 := by
  cases h with
  | blank hdb hasked hsessions hplace =>
      have hidle := hplace j
      generalize c.loc j = l at hj hidle
      cases hj <;> cases hidle
  | asked w hdb hasked hsessions hw hplace => exact hasked
  | stored customer hid hdb hasked hsessions hplace => exact hasked

/-- A checkout that starts while the row is blank. -/
theorem CheckoutMove.idle {q : CheckoutCall} {s s' : CheckoutStore} {l : CheckoutPlace}
    (h : CheckoutMove q s .start l s') (hblank : sub.val.stripeCustomerId = "")
    (hreads : ∀ read, readCheckout s.db q = .ok read → read.subscription = sub) :
    s' = s ∧ l.Idle sub := by
  cases h with
  | refused h => exact ⟨rfl, .done _⟩
  | known h hid => exact absurd (hreads _ h ▸ hblank) hid
  | blank h hid => exact ⟨rfl, .creating (hreads _ h)⟩

/-- Before anybody has asked. -/
theorem customerState_of_blank {i : ι} {l : CheckoutPlace} {s : CheckoutStore}
    (hmove : CheckoutMove (calls i) c.store (c.loc i) l s) (hblank : sub.val.stripeCustomerId = "")
    (hids : ∀ customer, (calls i).stripe.createCustomer = .ok customer → customer ≠ "")
    (hreads : ∀ read, readCheckout c.store.db (calls i) = .ok read → read.subscription = sub)
    (hdb : c.store.db = db) (hasked : c.store.asked = 0) (hsessions : c.store.sessions = [])
    (hplace : ∀ j, (c.loc j).Idle sub) : CustomerState db sub (c.move i l s) := by
  have hidle := hplace i
  generalize hloc : c.loc i = place at hmove hidle
  cases hidle with
  | start =>
      obtain ⟨rfl, hl⟩ := hmove.idle hblank hreads
      exact .blank hdb hasked hsessions
        (Config.forall_move (P := fun _ (l : CheckoutPlace) => l.Idle sub) hplace hl)
  | creating hread =>
      have hothers : ∀ l s j, j ≠ i → ((c.move i l s).loc j).Idle sub := by
        intro l s j hj
        rw [c.move_loc_of_ne hj]
        exact hplace j
      cases hmove with
      | created h =>
          refine .asked i hdb (congrArg (· + 1) hasked) hsessions (.inr ?_) (hothers _ _)
          rw [Config.move_loc_self]
          exact ⟨_, _, rfl, hread, hids _ h⟩
      | notCreated h =>
          refine .asked i hdb (congrArg (· + 1) hasked) hsessions (.inl ?_) (hothers _ _)
          rw [Config.move_loc_self]
  | done r => cases hmove

/-- The one that has asked saves what Stripe answered, or never does. -/
theorem customerState_of_asker {w : ι} {l : CheckoutPlace} {s : CheckoutStore}
    (hmove : CheckoutMove (calls w) c.store (c.loc w) l s)
    (hdb : c.store.db = db) (hasked : c.store.asked = 1) (hsessions : c.store.sessions = [])
    (hw : c.loc w = .failed ∨ ∃ read customer, c.loc w = .saving read customer ∧
      read.subscription = sub ∧ customer ≠ "")
    (hplace : ∀ j, j ≠ w → (c.loc j).Idle sub) : CustomerState db sub (c.move w l s) := by
  have hothers : ∀ l s j, j ≠ w → ((c.move w l s).loc j).Idle sub := by
    intro l s j hj
    rw [c.move_loc_of_ne hj]
    exact hplace j hj
  rcases hw with hloc | ⟨read, customer, hloc, hread, hid⟩
  · rw [hloc] at hmove
    cases hmove
  · rw [hloc] at hmove
    cases hmove with
    | saved h =>
        refine .stored customer hid (by rw [Config.move_store, hdb, hread]) hasked ?_ ?_
        · simp [hsessions]
        · intro j
          by_cases hj : j = w
          · rw [hj, Config.move_loc_self]
            exact .session read
          · exact (hothers _ _ j hj).served customer
    | notSaved h =>
        refine .asked w hdb hasked hsessions (.inl ?_) (hothers _ _)
        rw [Config.move_loc_self]

/-- A checkout that starts when `customer` is in the row. -/
theorem CheckoutMove.served {q : CheckoutCall} {s s' : CheckoutStore} {l : CheckoutPlace}
    {customer : String} (h : CheckoutMove q s .start l s') (hid : customer ≠ "")
    (hreads : ∀ read, readCheckout s.db q = .ok read →
      read.subscription.val.stripeCustomerId = customer) : s' = s ∧ l.Served customer := by
  cases h with
  | refused h => exact ⟨rfl, .done _⟩
  | known h hknown =>
      rw [hreads _ h]
      exact ⟨rfl, .session _⟩
  | blank h hblank => exact absurd ((hreads _ h).symm.trans hblank) hid

/-- Everybody who starts once the customer is stored is served with it. -/
theorem customerState_of_stored {i : ι} {l : CheckoutPlace} {s : CheckoutStore} {customer : String}
    (hmove : CheckoutMove (calls i) c.store (c.loc i) l s) (hid : customer ≠ "")
    (hreads : ∀ read, readCheckout c.store.db (calls i) = .ok read →
      read.subscription.val.stripeCustomerId = customer)
    (hidle : ∀ read, c.loc i ≠ .creating read)
    (hdb : c.store.db = saveCustomer db sub.id customer) (hasked : c.store.asked = 1)
    (hsessions : ∀ x ∈ c.store.sessions, x = customer)
    (hplace : ∀ j, (c.loc j).Served customer) : CustomerState db sub (c.move i l s) := by
  have hserved := hplace i
  generalize hloc : c.loc i = place at hmove hserved
  cases hserved with
  | start =>
      obtain ⟨rfl, hl⟩ := hmove.served hid hreads
      exact .stored customer hid hdb hasked hsessions
        (Config.forall_move (P := fun _ (l : CheckoutPlace) => l.Served customer) hplace hl)
  | creating read => exact absurd hloc (hidle read)
  | session read =>
      cases hmove with
      | answered =>
          refine .stored customer hid ?_ ?_ ?_
            (Config.forall_move (P := fun _ (l : CheckoutPlace) => l.Served customer) hplace
              (.done _))
          · rw [Config.move_store, CheckoutStore.db_answer, hdb]
          · rw [Config.move_store, CheckoutStore.asked_answer, hasked]
          · intro x hx
            rcases CheckoutStore.mem_sessions_answer hx with hx | hx
            · exact hsessions x hx
            · exact hx
  | done r => cases hmove

/-- **A statement that asks alone** brings the organization further. -/
theorem customerState_next (hsub : subscriptionOf db org = some sub)
    (hblank : sub.val.stripeCustomerId = "")
    (horg : ∀ i m, isOrganizationMember db (calls i).user (calls i).header = some m →
      m.val.organization = org)
    (hids : ∀ i customer, (calls i).stripe.createCustomer = .ok customer → customer ≠ "")
    (h : CustomerState db sub c) (i : ι) (halone : CreatesAlone org c i) :
    CustomerState db sub ((checkoutMachine calls).next c i) := by
  refine next_cases c i h fun l s hstep => ?_
  have hmove := checkoutStep_eq_some.mp hstep
  have hreads : c.store.db = db → ∀ read, readCheckout c.store.db (calls i) = .ok read →
      read.subscription = sub := by
    intro hdb read hread
    rw [hdb] at hread
    exact row_of_readCheckout horg rfl hsub hread
  cases h with
  | blank hdb hasked hsessions hplace =>
      exact customerState_of_blank hmove hblank (hids i) (hreads hdb) hdb hasked hsessions hplace
  | asked w hdb hasked hsessions hw hplace =>
      by_cases hi : i = w
      · subst hi
        exact customerState_of_asker hmove hdb hasked hsessions hw hplace
      · have hidle := hplace i hi
        generalize hloc : c.loc i = place at hmove hidle
        cases hidle with
        | start =>
            obtain ⟨rfl, hl⟩ := hmove.idle hblank (hreads hdb)
            refine .asked w hdb hasked hsessions ?_ ?_
            · rwa [c.move_loc_of_ne (Ne.symm hi)]
            · exact Config.forall_move (P := fun j (l : CheckoutPlace) => j ≠ w → l.Idle sub) hplace
                fun _ => hl
        | creating hread =>
            -- the one that has asked is still between
            obtain ⟨-, hnobody⟩ := halone _ hloc
            apply absurd _ (hnobody w)
            rcases hw with hw | ⟨read, customer, hw, -, -⟩
            · rw [hw]
              exact .failed
            · rw [hw]
              exact .saving read customer
        | done r => cases hmove
  | stored customer hid hdb hasked hsessions hplace =>
      have hrow : subscriptionOf c.store.db org =
          some ⟨sub.id, { sub.val with stripeCustomerId := customer }⟩ := by
        rw [hdb, subscriptionOf_saveCustomer, hsub]
        simp [Table.setRow]
      refine customerState_of_stored hmove hid ?_ ?_ hdb hasked hsessions hplace
      · intro read hread
        rw [row_of_readCheckout horg (by rw [hdb]; rfl) hrow hread]
      · intro read hloc
        obtain ⟨hrow', -⟩ := halone read hloc
        rw [hrow] at hrow'
        exact hid (Option.some.inj hrow')

theorem asked_le_next (c : Config ι CheckoutStore CheckoutPlace) (i : ι) :
    c.store.asked ≤ ((checkoutMachine calls).next c i).store.asked := by
  refine next_cases (motive := fun c' => c.store.asked ≤ c'.store.asked) c i (Nat.le_refl _)
    fun l s hstep => ?_
  rw [Config.move_store]
  have hmove := checkoutStep_eq_some.mp hstep
  generalize c.loc i = place at hmove
  cases hmove <;> simp

/-- **A statement that does not ask alone** asks a second time. -/
theorem asked_twice (hsub : subscriptionOf db org = some sub)
    (hblank : sub.val.stripeCustomerId = "") (h : CustomerState db sub c) {i : ι}
    (hnot : ¬CreatesAlone org c i) :
    2 ≤ ((checkoutMachine calls).next c i).store.asked := by
  unfold CreatesAlone at hnot
  push Not at hnot
  obtain ⟨read, hloc, hnot⟩ := hnot
  have hasked : c.store.asked = 1 := by
    by_cases hrow : (subscriptionOf c.store.db org).map (·.val.stripeCustomerId) = some ""
    · obtain ⟨j, hj⟩ := hnot hrow
      exact h.asked_of_between hj
    · cases h with
      | blank hdb hasked hsessions hplace =>
          apply absurd _ hrow
          rw [hdb, hsub, Option.map_some, hblank]
      | asked w hdb hasked hsessions hw hplace => exact hasked
      | stored customer hid hdb hasked hsessions hplace => exact hasked
  have hstep : ∃ l, (checkoutMachine calls).step i (.creating read) c.store =
      some (l, { c.store with asked := c.store.asked + 1 }) := ⟨_, rfl⟩
  obtain ⟨l, hstep⟩ := hstep
  rw [next_of_loc hloc hstep, Config.move_store, hasked]

/-- **When an organization gets one customer.** In a run of any number of checkouts, all for an
organization that has none yet, Stripe is asked at most once and every session is for the customer in
the row at the end, exactly if every checkout that asks finds the row still blank and nobody who has
asked and not saved. Stripe's ids are not blank. -/
theorem one_customer_iff (hsub : subscriptionOf db org = some sub)
    (hblank : sub.val.stripeCustomerId = "")
    (horg : ∀ i m, isOrganizationMember db (calls i).user (calls i).header = some m →
      m.val.organization = org)
    (hids : ∀ i customer, (calls i).stripe.createCustomer = .ok customer → customer ≠ "")
    (sched : List ι) :
    OneCustomer org ((checkoutMachine calls).run (checkoutStart db) sched).store ↔
      (checkoutMachine calls).Along (CreatesAlone org) (checkoutStart db) sched := by
  have hkeep : ∀ c i, CustomerState db sub c → True → CreatesAlone org c i →
      CustomerState db sub ((checkoutMachine calls).next c i) :=
    fun c i h _ hP => customerState_next hsub hblank horg hids h i hP
  have hturn : ∀ c i, CustomerState db sub c → True → ¬ CreatesAlone org c i →
      2 ≤ ((checkoutMachine calls).next c i).store.asked :=
    fun c i h _ hnot => asked_twice hsub hblank h hnot
  have hstays : ∀ c : Config ι CheckoutStore CheckoutPlace, ∀ i, 2 ≤ c.store.asked → True →
      2 ≤ ((checkoutMachine calls).next c i).store.asked :=
    fun c i h _ => Nat.le_trans h (asked_le_next c i)
  have hany : Each (fun i c => (checkoutMachine calls).next c i) (fun _ _ => True)
      (checkoutStart db) sched := each_of_forall (fun _ _ => trivial) sched _
  rcases kept_or_turned hkeep hturn hstays customerState_start hany with
    ⟨halone, h⟩ | ⟨hnot, htwice⟩
  · exact ⟨fun _ => halone, fun _ => h.oneCustomer hsub⟩
  · constructor
    · intro h
      exact absurd (Nat.le_trans htwice h.asked) (by decide)
    · intro halone
      exact absurd halone hnot

end Run

/-! ## Two checkouts of a new organization -/

/-- Two checkouts of organization 1, which Stripe would answer with different customers. -/
def twoCheckouts (second : Bool) : CheckoutCall where
  user := 1
  header := some "1"
  data := .json (.obj [("plan_code", .str "pro")])
  stripe :=
    { createCustomer := .ok (if second then "cus_2" else "cus_1")
      createSession := fun customer _ _ _ => .ok ("/pay/" ++ customer) }

def newOrganization : Db :=
  { smallBilling with memberships := Table.empty.insert ⟨1, 1, .owner, 0⟩ }

/-- Both read the blank row: Stripe is asked twice. -/
theorem two_customers :
    ¬OneCustomer 1 ((checkoutMachine twoCheckouts).run (checkoutStart newOrganization)
      [false, true, false, true]).store := by
  intro h
  have hasked := h.asked
  revert hasked
  decide

/-- The second starts when the first has saved. -/
theorem one_customer_in_turn :
    OneCustomer 1 ((checkoutMachine twoCheckouts).run (checkoutStart newOrganization)
      [false, false, false, true, false, true]).store := by
  have hsub : subscriptionOf newOrganization 1 =
      some ⟨1, { organization := 1, plan := 1, updatedAt := 0 }⟩ := by decide
  refine (one_customer_iff hsub rfl ?_ ?_ _).mpr ?_
  · intro i m h
    have hmember : isOrganizationMember newOrganization 1 (some "1") =
        some ⟨1, 1, 1, .owner, 0⟩ := by decide
    cases Option.some.inj (hmember.symm.trans h)
    rfl
  · intro i customer h
    cases h
    cases i <;> decide
  · refine ⟨?_, ?_, ?_, ?_, ?_, ?_, trivial⟩
    · intro read h
      cases h
    · intro read h
      refine ⟨by decide, fun j hj => ?_⟩
      cases j <;> cases hj
    · intro read h
      cases h
    · intro read h
      cases h
    · intro read h
      cases h
    · intro read h
      cases h

end Bastiq
