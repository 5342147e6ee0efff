import Bastiq.Billing.Endings

/-!
# What a webhook delivery cannot digest

The handlers are meant to acknowledge and ignore what they cannot tie to a subscription. Some of
what Stripe may send them raises all the same, and then the delivery is answered 500, rolled back
and sent again: an `organization_id` that spells no number, a NUL in a text that is queried or
stored, a time stamp outside the years of a `datetime`.

The parts of a delivery are taken in turn: the lookups, the plan and the write, the ledger. Each gets
the exact condition under which it does not raise.
-/

namespace Bastiq

open Relational View

/-! ## Texts and columns -/

/-- Without the one character the database takes in no text. -/
def NulFree (s : String) : Prop := s.toList.contains (Char.ofNat 0) = false

instance (s : String) : Decidable (NulFree s) := inferInstanceAs (Decidable (_ = false))

theorem textParam_of_nulFree {s : String} (h : NulFree s) : textParam s = .ok s := by
  unfold NulFree at h
  simp only [textParam, h, Bool.false_eq_true, if_false]

theorem textParam_of_not_nulFree {s : String} (h : ¬ NulFree s) :
    textParam s = .error .dataError := by
  unfold NulFree at h
  rw [Bool.not_eq_false] at h
  simp only [textParam, h, if_true]

theorem fits_iff {n : Nat} {s : String} : fits n s = true ↔ s.length ≤ n ∧ NulFree s := by
  simp [fits, NulFree]

/-- The rows of the table fit its columns. -/
def ColumnsFit (db : Db) : Prop :=
  ∀ r ∈ db.subscriptions.rows,
    fits 255 r.val.stripeCustomerId = true ∧ fits 255 r.val.stripeSubscriptionId = true

/-- The lengths an event's texts keep to. -/
structure StripeEvent.WithinWidths (event : StripeEvent) : Prop where
  id           : event.id.length ≤ 255
  type         : ∀ t, event.type = some t → t.length ≤ 64
  objectId     : ∀ s, event.object.id = some s → s.length ≤ 255
  customer     : ∀ s, event.object.customer = some s → s.length ≤ 255
  subscription : ∀ s, event.object.subscription = some s → s.length ≤ 255

/-! ## The lookups -/

section Lookups

variable {db : Db} {obj : StripeObject} {subscriptionId customerId : Option String}

/-- A row belongs to the organization the metadata names. -/
def FindsByOrg (db : Db) (obj : StripeObject) : Prop :=
  ∃ r ∈ db.subscriptions.rows, ∃ text, nonBlank obj.orgId = some text ∧
    Python.int? text = some (r.val.organization : Int)

/-- A row carries the subscription id. -/
def FindsById (db : Db) (subscriptionId : Option String) : Prop :=
  ∃ r ∈ db.subscriptions.rows, nonBlank subscriptionId = some r.val.stripeSubscriptionId

/-- A row carries the customer id. -/
def FindsByCustomer (db : Db) (customerId : Option String) : Prop :=
  ∃ r ∈ db.subscriptions.rows, nonBlank customerId = some r.val.stripeCustomerId

/-- What the lookups come to can be looked up: the organization is a number, and an id that is asked
for because the queries before found nothing is free of NUL. -/
structure Readable (db : Db) (obj : StripeObject) (subscriptionId customerId : Option String) :
    Prop where
  organization : ∀ text, nonBlank obj.orgId = some text → (Python.int? text).isSome = true
  subscription : ¬ FindsByOrg db obj → ∀ text, nonBlank subscriptionId = some text → NulFree text
  customer     : ¬ FindsByOrg db obj → ¬ FindsById db subscriptionId →
    ∀ text, nonBlank customerId = some text → NulFree text

theorem named_isOk_iff :
    (∃ found, whenGiven obj.orgId subscriptionNamed db = .ok found) ↔
      ∀ text, nonBlank obj.orgId = some text → (Python.int? text).isSome = true := by
  unfold whenGiven
  cases nonBlank obj.orgId with
  | none => simp
  | some text =>
      simp only [Option.some.injEq, forall_eq', subscriptionNamed]
      cases Python.int? text <;> simp

theorem named_isSome_iff {found : Option (Row Subscription)}
    (h : whenGiven obj.orgId subscriptionNamed db = .ok found) :
    found.isSome = true ↔ FindsByOrg db obj := by
  unfold whenGiven at h
  unfold FindsByOrg
  cases htext : nonBlank obj.orgId with
  | none =>
      rw [htext] at h
      cases h
      simp
  | some text =>
      rw [htext] at h
      obtain ⟨n, hn, rfl⟩ := subscriptionNamed_eq_ok h
      rw [Table.isSome_first?_iff]
      refine exists_congr fun r => and_congr_right fun _ => ?_
      rw [beq_iff_eq]
      constructor
      · intro horg
        exact ⟨text, rfl, by rw [hn, horg]⟩
      · rintro ⟨_, ⟨⟩, hr⟩
        exact Option.some.inj (hr.symm.trans hn)

/-- A query by the text in a column. -/
theorem column_isOk_iff {column : Subscription → String} {key : Option String} :
    (∃ found, whenGiven key (fun db id => do
        let id ← textParam id
        .ok (db.subscriptions.first? (column ·.val == id))) db = .ok found) ↔
      ∀ text, nonBlank key = some text → NulFree text := by
  unfold whenGiven
  cases nonBlank key with
  | none => simp
  | some text =>
      simp only [Option.some.injEq, forall_eq']
      by_cases htext : NulFree text
      · simp [textParam_of_nulFree htext, htext]
      · simp [textParam_of_not_nulFree htext, htext]

theorem column_isSome_iff {column : Subscription → String} {key : Option String}
    {found : Option (Row Subscription)}
    (h : whenGiven key (fun db id => do
        let id ← textParam id
        .ok (db.subscriptions.first? (column ·.val == id))) db = .ok found) :
    found.isSome = true ↔ ∃ r ∈ db.subscriptions.rows, nonBlank key = some (column r.val) := by
  unfold whenGiven at h
  cases hkey : nonBlank key with
  | none =>
      rw [hkey] at h
      cases h
      simp
  | some text =>
      rw [hkey] at h
      by_cases htext : NulFree text
      · simp only [textParam_of_nulFree htext, ok_bind, Except.ok.injEq] at h
        subst h
        rw [Table.isSome_first?_iff]
        refine exists_congr fun r => and_congr_right fun _ => ?_
        rw [beq_iff_eq, Option.some_inj, eq_comm]
      · simp [textParam_of_not_nulFree htext] at h

/-- The queries up to the first that finds something must not raise. -/
theorem firstFound_isOk_iff {query : Lookup} {queries : List Lookup} :
    (∃ found, firstFound (query :: queries) db = .ok found) ↔
      (∃ found, query db = .ok found) ∧
        (query db = .ok none → ∃ found, firstFound queries db = .ok found) := by
  simp only [firstFound]
  rcases query db with e | _ | sub
  · simp
  · simp
  · simp

theorem eq_none_iff_of_isSome_iff {query : Except Failure (Option (Row Subscription))} {P : Prop}
    (hok : ∃ found, query = .ok found) (h : ∀ found, query = .ok found → (found.isSome = true ↔ P)) :
    query = .ok none ↔ ¬ P := by
  obtain ⟨found, hfound⟩ := hok
  have hiff := h found hfound
  rw [hfound]
  cases found with
  | none => simpa using hiff
  | some sub => simpa using hiff

/-- **When the lookup of a handler ends.** -/
theorem findSubscription_isOk_iff :
    (∃ found, findSubscription db obj subscriptionId customerId = .ok found) ↔
      Readable db obj subscriptionId customerId := by
  unfold findSubscription lookups
  rw [firstFound_isOk_iff, named_isOk_iff]
  constructor
  · rintro ⟨horg, hrest⟩
    refine ⟨horg, fun hno => ?_, fun hno hnoid => ?_⟩
    · have hnone := (eq_none_iff_of_isSome_iff (named_isOk_iff.mpr horg)
        (fun _ h => named_isSome_iff h)).mpr hno
      exact column_isOk_iff.mp (firstFound_isOk_iff.mp (hrest hnone)).1
    · have hnone := (eq_none_iff_of_isSome_iff (named_isOk_iff.mpr horg)
        (fun _ h => named_isSome_iff h)).mpr hno
      obtain ⟨hid, hlast⟩ := firstFound_isOk_iff.mp (hrest hnone)
      have hnoneid := (eq_none_iff_of_isSome_iff hid (fun _ h => column_isSome_iff h)).mpr hnoid
      exact column_isOk_iff.mp (firstFound_isOk_iff.mp (hlast hnoneid)).1
  · intro h
    refine ⟨h.organization, fun hnone => ?_⟩
    have hno := (eq_none_iff_of_isSome_iff ⟨_, hnone⟩ (fun _ h => named_isSome_iff h)).mp hnone
    rw [firstFound_isOk_iff]
    refine ⟨column_isOk_iff.mpr (h.subscription hno), fun hnoneid => ?_⟩
    have hnoid := (eq_none_iff_of_isSome_iff ⟨_, hnoneid⟩
      (fun _ h => column_isSome_iff h)).mp hnoneid
    rw [firstFound_isOk_iff]
    exact ⟨column_isOk_iff.mpr (h.customer hno hnoid), fun _ => ⟨none, rfl⟩⟩

/-- **When it finds a row.** -/
theorem findSubscription_isSome_iff {found : Option (Row Subscription)}
    (h : findSubscription db obj subscriptionId customerId = .ok found) :
    found.isSome = true ↔
      FindsByOrg db obj ∨ FindsById db subscriptionId ∨ FindsByCustomer db customerId := by
  obtain ⟨named, hnamed, hrest⟩ := queries_of_findSubscription h
  have hiff := named_isSome_iff hnamed
  cases named with
  | some sub =>
      have hfound : found = some sub := by
        apply Except.ok.inj
        rw [← h]
        exact findSubscription_eq_some.mpr (.inl hnamed)
      rw [hfound]
      exact iff_of_true rfl (.inl (hiff.mp rfl))
  | none =>
      have hno : ¬ FindsByOrg db obj := fun hfinds => nomatch hiff.mpr hfinds
      obtain ⟨withId, hid, hlast⟩ := hrest rfl
      have hiffid : withId.isSome = true ↔ FindsById db subscriptionId := column_isSome_iff hid
      cases withId with
      | some sub =>
          have hfound : found = some sub := by
            apply Except.ok.inj
            rw [← h]
            exact findSubscription_eq_some.mpr (.inr ⟨hnamed, .inl hid⟩)
          rw [hfound]
          exact iff_of_true rfl (.inr (.inl (hiffid.mp rfl)))
      | none =>
          have hnoid : ¬ FindsById db subscriptionId := fun hfinds => nomatch hiffid.mpr hfinds
          have hiffcustomer : found.isSome = true ↔ FindsByCustomer db customerId :=
            column_isSome_iff (hlast rfl)
          rw [hiffcustomer]
          simp [hno, hnoid]

end Lookups

/-! ## The plan and the write -/

/-- The text a price is queried by, if it is: what is empty or no scalar is no price. -/
def StripeObject.priceText (obj : StripeObject) : Option String :=
  (obj.priceId.filter Json.truthy).bind Json.scalarText?

/-- A text that is queried or stored once the row is found. -/
def StripeEvent.Writes (event : StripeEvent) (text : String) : Prop :=
  (event.type = some "checkout.session.completed" ∧
      (event.object.metadataItem "plan_code" = some text ∨ event.object.customer = some text ∨
        event.object.subscription = some text)) ∨
    (event.type = some "customer.subscription.updated" ∧
      (event.object.priceText = some text ∨ event.object.id = some text))

/-- A `datetime` has the year of the time stamp. -/
def InYears (t : Int) : Prop := -62135596800 ≤ t ∧ t ≤ 253402300799

/-- What is written once the row is found can be written. -/
structure StripeEvent.Writable (event : StripeEvent) : Prop where
  texts  : ∀ text, event.Writes text → NulFree text
  period : event.type = some "customer.subscription.updated" →
    ∀ t, event.object.currentPeriodEnd = some t → InYears t

section Write

variable {db : Db} {event : StripeEvent} {sub : Row Subscription}

theorem activePlan_isOk_iff (db : Db) {code : Option String} :
    (∃ plan, activePlan db code = .ok plan) ↔ ∀ text, code = some text → NulFree text := by
  cases code with
  | none => simp [activePlan]
  | some text =>
      by_cases htext : NulFree text
      · simp [activePlan, textParam_of_nulFree htext, htext]
      · simp [activePlan, textParam_of_not_nulFree htext, htext]

theorem planForPrice_isOk_iff (db : Db) {obj : StripeObject} :
    (∃ plan, planForPrice db obj.priceId = .ok plan) ↔
      ∀ text, obj.priceText = some text → NulFree text := by
  unfold StripeObject.priceText
  cases obj.priceId with
  | none => simp [planForPrice]
  | some price =>
      cases htruthy : price.truthy with
      | false => simp [planForPrice, htruthy, Option.filter_some]
      | true =>
          simp only [planForPrice, htruthy, if_true, planAtPrice, Option.filter_some,
            Option.bind_some]
          cases price.scalarText? with
          | none => simp
          | some text =>
              by_cases htext : NulFree text
              · simp [textParam_of_nulFree htext, htext]
              · simp [textParam_of_not_nulFree htext, htext]

theorem tsToDt_isOk_iff {periodEnd : Option Int} :
    (∃ time, tsToDt periodEnd = .ok time) ↔ ∀ t, periodEnd = some t → InYears t := by
  cases periodEnd with
  | none => simp [tsToDt]
  | some t =>
      by_cases hzero : t = 0
      · subst hzero
        simp [tsToDt, InYears]
      · by_cases hyears : -62135596800 ≤ t ∧ t ≤ 253402300799
        · simp [tsToDt, hzero, InYears, hyears]
        · have hout : (decide (-62135596800 ≤ t) && decide (t ≤ 253402300799)) = false := by
            rw [← Bool.decide_and]
            exact decide_eq_false hyears
          simp [tsToDt, hzero, hout, InYears, hyears]

/-- An id that is stored where an event carries one. -/
theorem fits_getD_iff {text : Option String} {old : String} (hold : fits 255 old = true)
    (hwidth : ∀ s, text = some s → s.length ≤ 255) :
    fits 255 ((nonBlank text).getD old) = true ↔ ∀ s, text = some s → NulFree s := by
  cases text with
  | none => simpa [nonBlank] using hold
  | some s =>
      by_cases hblank : s = ""
      · subst hblank
        have hfree : NulFree "" := by decide
        simpa [nonBlank, Option.filter_some, hfree] using hold
      · simp [nonBlank, Option.filter_some, hblank, fits_iff, hwidth s rfl]

/-- A completed checkout looks up the plan's code and stores both ids. -/
theorem checkout_decides_iff {obj : StripeObject}
    (hcustomer : fits 255 sub.val.stripeCustomerId = true)
    (hsubscription : fits 255 sub.val.stripeSubscriptionId = true)
    (hwidth : ∀ s, obj.customer = some s → s.length ≤ 255)
    (hwidth' : ∀ s, obj.subscription = some s → s.length ≤ 255) :
    (∃ save, handleCheckoutCompleted.decide db obj sub.val = .ok save ∧ save.fits = true) ↔
      (∀ text, obj.metadataItem "plan_code" = some text → NulFree text) ∧
        (∀ text, obj.customer = some text → NulFree text) ∧
        ∀ text, obj.subscription = some text → NulFree text := by
  rw [← activePlan_isOk_iff db, ← fits_getD_iff hcustomer hwidth,
    ← fits_getD_iff hsubscription hwidth']
  constructor
  · rintro ⟨save, hsave, hfits⟩
    obtain ⟨plan, hplan, hsave⟩ := bind_eq_ok.mp hsave
    cases hsave
    exact ⟨⟨plan, hplan⟩, Bool.and_eq_true_iff.mp hfits⟩
  · rintro ⟨⟨plan, hplan⟩, hfits⟩
    exact ⟨_, bind_eq_ok.mpr ⟨plan, hplan, rfl⟩, Bool.and_eq_true_iff.mpr hfits⟩

/-- An updated subscription looks up the price, converts the time stamp and stores its own id. -/
theorem updated_decides_iff {obj : StripeObject}
    (hcustomer : fits 255 sub.val.stripeCustomerId = true)
    (hsubscription : fits 255 sub.val.stripeSubscriptionId = true)
    (hwidth : ∀ s, obj.id = some s → s.length ≤ 255) :
    (∃ save, handleSubscriptionUpdated.decide db obj sub.val = .ok save ∧ save.fits = true) ↔
      (∀ text, obj.priceText = some text → NulFree text) ∧
        (∀ t, obj.currentPeriodEnd = some t → InYears t) ∧
        ∀ text, obj.id = some text → NulFree text := by
  rw [← planForPrice_isOk_iff db, ← tsToDt_isOk_iff,
    ← fits_getD_iff hsubscription hwidth]
  constructor
  · rintro ⟨save, hsave, hfits⟩
    obtain ⟨plan, hplan, hsave⟩ := bind_eq_ok.mp hsave
    obtain ⟨time, htime, hsave⟩ := bind_eq_ok.mp hsave
    cases hsave
    exact ⟨⟨plan, hplan⟩, ⟨time, htime⟩, (Bool.and_eq_true_iff.mp hfits).2⟩
  · rintro ⟨⟨plan, hplan⟩, ⟨time, htime⟩, hfits⟩
    exact ⟨_, bind_eq_ok.mpr ⟨plan, hplan, bind_eq_ok.mpr ⟨time, htime, rfl⟩⟩,
      Bool.and_eq_true_iff.mpr ⟨hcustomer, hfits⟩⟩

/-- An event of any other type writes neither texts nor time stamps of its own. -/
theorem StripeEvent.writable_of_type {type : String} (ht : event.type = some type)
    (hc : type ≠ "checkout.session.completed") (hu : type ≠ "customer.subscription.updated") :
    event.Writable := by
  refine ⟨?_, fun h => absurd (Option.some.inj (ht.symm.trans h)) hu⟩
  rintro text (⟨h, -⟩ | ⟨h, -⟩)
  · exact absurd (Option.some.inj (ht.symm.trans h)) hc
  · exact absurd (Option.some.inj (ht.symm.trans h)) hu

/-- **When a handler's write goes through**, on a row that fits its columns. -/
theorem StripeEvent.writable_iff (db : Db) {h : Handler} (hh : event.handler = some h)
    (hwidths : event.WithinWidths) (hcustomer : fits 255 sub.val.stripeCustomerId = true)
    (hsubscription : fits 255 sub.val.stripeSubscriptionId = true) :
    (∃ save, h.decide db event.object sub.val = .ok save ∧ save.fits = true) ↔
      event.Writable := by
  rcases handler_cases hh with ⟨ht, rfl⟩ | ⟨ht, rfl⟩ | ⟨ht, rfl⟩ | ⟨ht, rfl⟩
  · rw [checkout_decides_iff hcustomer hsubscription hwidths.customer hwidths.subscription]
    constructor
    · rintro ⟨hcode, hc, hs⟩
      refine ⟨?_, fun hu => by simp [ht] at hu⟩
      rintro text (⟨-, h | h | h⟩ | ⟨hu, -⟩)
      · exact hcode text h
      · exact hc text h
      · exact hs text h
      · simp [ht] at hu
    · intro hw
      exact ⟨fun text h => hw.texts text (.inl ⟨ht, .inl h⟩),
        fun text h => hw.texts text (.inl ⟨ht, .inr (.inl h)⟩),
        fun text h => hw.texts text (.inl ⟨ht, .inr (.inr h)⟩)⟩
  · rw [updated_decides_iff hcustomer hsubscription hwidths.objectId]
    constructor
    · rintro ⟨hprice, hperiod, hid⟩
      refine ⟨?_, fun _ => hperiod⟩
      rintro text (⟨hc, -⟩ | ⟨-, h | h⟩)
      · simp [ht] at hc
      · exact hprice text h
      · exact hid text h
    · intro hw
      exact ⟨fun text h => hw.texts text (.inr ⟨ht, .inl h⟩), hw.period ht,
        fun text h => hw.texts text (.inr ⟨ht, .inr h⟩)⟩
  · refine iff_of_true ⟨_, rfl, ?_⟩ (writable_of_type ht (by decide) (by decide))
    have hblank : fits 255 "" = true := by decide
    exact Bool.and_eq_true_iff.mpr ⟨hcustomer, hblank⟩
  · exact iff_of_true ⟨_, rfl, rfl⟩ (writable_of_type ht (by decide) (by decide))

end Write

/-! ## The delivery -/

/-- A row matches the event: its organization, subscription id or customer id, as its handler looks
them up. -/
def StripeEvent.Matches (event : StripeEvent) (db : Db) : Prop :=
  ∃ h, event.handler = some h ∧ (FindsByOrg db event.object ∨
    FindsById db (h.subscriptionId event.object) ∨ FindsByCustomer db (h.customerId event.object))

/-- What keeps a handler from raising. -/
structure StripeEvent.Digestible (event : StripeEvent) (db : Db) : Prop where
  readable : ∀ h, event.handler = some h →
    Readable db event.object (h.subscriptionId event.object) (h.customerId event.object)
  writable : event.Matches db → event.Writable

section Delivery

variable {db : Db} {event : StripeEvent}

theorem StripeEvent.decision_of_no_match {db : Db} {event : StripeEvent}
    (h : ¬ event.Matches db) (hreadable : ∀ hd, event.handler = some hd →
      Readable db event.object (hd.subscriptionId event.object) (hd.customerId event.object)) :
    event.decision db = .ok none := by
  unfold StripeEvent.decision
  cases hh : event.handler with
  | none => rfl
  | some hd =>
      obtain ⟨found, hfound⟩ := findSubscription_isOk_iff.mpr (hreadable hd hh)
      have hiff := findSubscription_isSome_iff hfound
      cases found with
      | none =>
          simp only [Handler.find, hfound]
          rfl
      | some sub => exact absurd ⟨hd, hh, hiff.mp rfl⟩ h

/-- **When an event is decided on, with a write that goes through.** -/
theorem StripeEvent.decides_iff (hwidths : event.WithinWidths) (hcolumns : ColumnsFit db) :
    (∃ write, event.decision db = .ok write ∧
      ∀ sub save, write = some (sub, save) → save.fits = true) ↔ event.Digestible db := by
  constructor
  · rintro ⟨write, hdecision, hfits⟩
    refine ⟨fun hd hh => ?_, ?_⟩
    · rw [← findSubscription_isOk_iff]
      unfold StripeEvent.decision at hdecision
      rw [hh] at hdecision
      obtain ⟨found, hfound, -⟩ := bind_eq_ok.mp hdecision
      exact ⟨found, hfound⟩
    · rintro ⟨hd, hh, hmatches⟩
      unfold StripeEvent.decision at hdecision
      rw [hh] at hdecision
      obtain ⟨found, hfound, hdecision⟩ := bind_eq_ok.mp hdecision
      have hsome := (findSubscription_isSome_iff hfound).mpr hmatches
      cases found with
      | none => cases hsome
      | some sub =>
          obtain ⟨save, hdecide, hwrite⟩ := bind_eq_ok.mp hdecision
          cases hwrite
          have hsub : sub ∈ db.subscriptions.rows :=
            mem_of_firstFound (fun _ hq _ hr => mem_of_lookup hq hr) hfound
          obtain ⟨hcustomer, hsubscription⟩ := hcolumns sub hsub
          exact (writable_iff db hh hwidths hcustomer hsubscription).mp
            ⟨save, hdecide, hfits sub save rfl⟩
  · intro h
    by_cases hmatches : event.Matches db
    · obtain ⟨hd, hh, hfinds⟩ := hmatches
      obtain ⟨found, hfound⟩ := findSubscription_isOk_iff.mpr (h.readable hd hh)
      have hsome := (findSubscription_isSome_iff hfound).mpr hfinds
      cases found with
      | none => cases hsome
      | some sub =>
          have hsub : sub ∈ db.subscriptions.rows :=
            mem_of_firstFound (fun _ hq _ hr => mem_of_lookup hq hr) hfound
          obtain ⟨hcustomer, hsubscription⟩ := hcolumns sub hsub
          obtain ⟨save, hdecide, hfits⟩ :=
            (writable_iff db hh hwidths hcustomer hsubscription).mpr
              (h.writable ⟨hd, hh, hfinds⟩)
          refine ⟨some (sub, save), ?_, ?_⟩
          · simp only [StripeEvent.decision, hh]
            exact bind_eq_ok.mpr ⟨some sub, hfound, bind_eq_ok.mpr ⟨save, hdecide, rfl⟩⟩
          · rintro _ _ ⟨⟩
            exact hfits
    · exact ⟨none, decision_of_no_match hmatches h.readable, fun _ _ hw => nomatch hw⟩

theorem StripeEvent.recordable_iff (hwidths : event.WithinWidths) :
    event.recordable = true ↔ NulFree event.id ∧ ∀ t, event.type = some t → NulFree t := by
  rw [StripeEvent.recordable, Bool.and_eq_true, fits_iff, fits_iff]
  cases ht : event.type with
  | none =>
      have hfree : NulFree "" := by decide
      simp [hwidths.id, hfree]
  | some t => simp [hwidths.id, hwidths.type t ht]

/-- An event that matches no row changes none, whatever becomes of its delivery. -/
theorem subscriptions_of_no_match (now : Int) (h : ¬ event.Matches db) :
    (postWebhook ⟨event, now, none⟩ db).2.subscriptions = db.subscriptions := by
  rcases postWebhook_cases ⟨event, now, none⟩ db with hsame | ⟨-, hprocess⟩
  · rw [hsame]
  · rcases Delivery.process_cases hprocess with ⟨-, hdb⟩ | ⟨sub, save, hdecision, -⟩
    · rw [hdb]
    · obtain ⟨hfind, plan, -, hd, hh, -⟩ := StripeEvent.decision_eq_some hdecision
      rw [StripeEvent.find, hh] at hfind
      exact absurd ⟨hd, hh, (findSubscription_isSome_iff hfind).mp rfl⟩ h

theorem status_postWebhook_iff (d : Delivery) (db : Db) :
    (postWebhook d db).1.status = 200 ↔ NulFree d.event.id ∧
      (ledgerRow db d.event.id ≠ none ∨ ∃ db', d.process db = .ok db') := by
  unfold postWebhook
  by_cases hid : NulFree d.event.id
  · simp only [textParam_of_nulFree hid, hid, true_and]
    cases ledgerRow db d.event.id with
    | some r => simp
    | none =>
        cases d.process db with
        | ok db' => simp
        | error e => simp [serverError]
  · simp only [textParam_of_not_nulFree hid, hid, false_and, iff_false]
    simp [serverError]

/-- **When a delivery is answered 200.** For every event within the widths of its columns: the
delivery is acknowledged, and changes no subscription row if none matches, exactly when its id is
free of NUL and it is a duplicate, or its type is free of NUL too and its handler can digest it in
the database it finds. -/
theorem webhook_acknowledged_iff (event : StripeEvent) (now : Int) (db : Db)
    (hwidths : event.WithinWidths) (hcolumns : ColumnsFit db) :
    ((postWebhook ⟨event, now, none⟩ db).1.status = 200 ∧
      (¬ event.Matches db →
        (postWebhook ⟨event, now, none⟩ db).2.subscriptions = db.subscriptions)) ↔
    NulFree event.id ∧ ((∃ r ∈ db.webhookEvents.rows, r.val.stripeEventId = event.id) ∨
      ((∀ t, event.type = some t → NulFree t) ∧ event.Digestible db)) := by
  rw [and_iff_left (subscriptions_of_no_match now), status_postWebhook_iff]
  refine and_congr_right fun hid => or_congr ?_ ?_
  · rw [← Option.isSome_iff_ne_none, ledgerRow, Table.isSome_first?_iff]
    simp
  · rw [← StripeEvent.decides_iff hwidths hcolumns]
    constructor
    · rintro ⟨db', hprocess⟩
      obtain ⟨hrecordable, -, write, hdecides, -⟩ := Delivery.process_eq_ok.mp hprocess
      exact ⟨((StripeEvent.recordable_iff hwidths).mp hrecordable).2, write, hdecides⟩
    · rintro ⟨htype, write, hdecides⟩
      have hrecordable := (StripeEvent.recordable_iff hwidths).mpr ⟨hid, htype⟩
      exact ⟨_, Delivery.process_eq_ok.mpr ⟨hrecordable, rfl, write, hdecides, rfl⟩⟩

end Delivery

/-- A completed checkout for the organization its metadata spells. -/
def eventNaming (organization : String) : StripeEvent :=
  ⟨"evt_1", some "checkout.session.completed",
    { customer := some "cus_7", subscription := some "sub_7",
      metadata := some [("organization_id", organization), ("plan_code", "pro")] }⟩

theorem eventNaming_withinWidths (organization : String) :
    (eventNaming organization).WithinWidths := by
  refine ⟨?_, ?_, ?_, ?_, ?_⟩
  · show "evt_1".length ≤ 255
    decide
  · rintro _ ⟨⟩
    decide
  · rintro _ ⟨⟩
  · rintro _ ⟨⟩
    decide
  · rintro _ ⟨⟩
    decide

/-- Metadata that names an organization by something other than a number raises. -/
theorem webhook_raises_on_organization :
    (eventNaming "seven").WithinWidths ∧
      (postWebhook ⟨eventNaming "seven", 0, none⟩ smallBilling).1.status = 500 :=
  ⟨eventNaming_withinWidths "seven", by decide⟩

/-- The event of organization 1 finds its row, that of organization 7 finds none. -/
theorem webhook_acknowledged_iff_small :
    ((eventNaming "1").Matches smallBilling ∧
      (postWebhook ⟨eventNaming "1", 0, none⟩ smallBilling).1.status = 200 ∧
      (eventNaming "1").Digestible smallBilling) ∧
    (postWebhook ⟨eventNaming "7", 0, none⟩ smallBilling).1.status = 200 ∧
      (eventNaming "7").Digestible smallBilling := by
  have hcolumns : ColumnsFit smallBilling := by
    unfold ColumnsFit
    decide
  have hdigestible : ∀ organization,
      (postWebhook ⟨eventNaming organization, 0, none⟩ smallBilling).1.status = 200 →
        (eventNaming organization).Digestible smallBilling := by
    intro organization hstatus
    obtain ⟨-, ⟨r, hr, -⟩ | ⟨-, hdigestible⟩⟩ :=
      (webhook_acknowledged_iff (eventNaming organization) 0 smallBilling
        (eventNaming_withinWidths organization) hcolumns).mp
        ⟨hstatus, subscriptions_of_no_match 0⟩
    · cases hr
    · exact hdigestible
  have hmatched : (postWebhook ⟨eventNaming "1", 0, none⟩ smallBilling).1.status = 200 := by decide
  have hunmatched : (postWebhook ⟨eventNaming "7", 0, none⟩ smallBilling).1.status = 200 := by
    decide
  refine ⟨⟨?_, hmatched, hdigestible "1" hmatched⟩, hunmatched, hdigestible "7" hunmatched⟩
  refine ⟨_, rfl, .inl ⟨⟨1, _⟩, List.mem_singleton_self _, "1", ?_, ?_⟩⟩
  · decide
  · decide

end Bastiq
