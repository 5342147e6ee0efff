import Bastiq.Accounts.Lifetime

/-!
# Tokens and the address they were mailed to

The admin can change the address of an account; the API cannot (`exists_edit`). A reset token knows
the account by its key, its password and its last login, and a verification token by its key alone.
An edit touches none of these, so the tokens that were mailed to the old address stay as good as they
were, for the account that now has the new one: what spoils a reset token is a login or a reset on
the way (`account_run_edits`).
-/

namespace Bastiq

open Relational Transition

/-! ## The change form of the admin -/

/-- What `UserAdmin` lets the admin set, cleaned. `last_login` is read-only, and the password is
shown only. -/
structure UserForm where
  email           : String
  firstName       : String := ""
  lastName        : String := ""
  isEmailVerified : Bool := false
  isActive        : Bool := true
  deriving DecidableEq, Repr

/-- The instance the form saves. -/
def UserForm.apply (form : UserForm) (user : User) : User :=
  { user with
    email := form.email
    firstName := form.firstName
    lastName := form.lastName
    isEmailVerified := form.isEmailVerified
    isActive := form.isActive }

/-- The columns are wide enough, and no other account has the address in any letter case. -/
def UserForm.isValid (E : Env) (db : Db) (user : Nat) (form : UserForm) : Bool :=
  E.validEmail form.email && fits 254 form.email && fits 150 form.firstName &&
    fits 150 form.lastName &&
    !db.users.any fun u => u.id != user && E.iexact u.val.email form.email

/-- `UserAdmin`'s change view. A form that is not valid changes nothing. -/
def editUser (E : Env) (db : Db) (user : Nat) (form : UserForm) : Db :=
  if form.isValid E db user then { db with users := db.users.modify user form.apply } else db

/-! ## Runs with edits -/

inductive AccountEvent where
  | call (c : AuthCall)
  | edit (user : Nat) (form : UserForm)

def AccountEvent.step (E : AuthEnv) (e : AccountEvent) (s : AuthState) : AuthState :=
  match e with
  | .call c => c.step E s
  | .edit user form => { s with db := editUser E.toEnv s.db user form }

section Edits

variable {E : AuthEnv} {s : AuthState} {u v : Row User}

theorem mem_editUser {db : Db} {user : Nat} {form : UserForm} {v' : Row User}
    (hv' : v' ∈ (editUser E.toEnv db user form).users.rows) :
    v' ∈ db.users.rows ∨
      form.isValid E.toEnv db user = true ∧ v'.id = user ∧
        ∃ v ∈ db.users.rows, v.id = user ∧ v'.val = form.apply v.val := by
  unfold editUser at hv'
  split at hv'
  · next hvalid =>
    rcases Table.mem_modify.mp hv' with ⟨hv', -⟩ | ⟨v, hv, hid, rfl⟩
    · exact .inl hv'
    · exact .inr ⟨hvalid, rfl, v, hv, hid, rfl⟩
  · exact .inl hv'

/-- A call leaves the addresses. -/
theorem AuthCall.email_kept {c : AuthCall} {v' : Row User} (hv' : v' ∈ (c.step E s).db.users.rows)
    (hold : v'.id < s.db.users.nextId) :
    ∃ v ∈ s.db.users.rows, v.id = v'.id ∧ v.val.email = v'.val.email := by
  have hchange := c.change E s
  unfold AuthCall.step at hv'
  generalize c.outcome E s = out at hchange hv'
  cases hchange with
  | same _ | refreshed _ _ _ _ _ _ _ _ => exact ⟨v', hv', rfl, rfl⟩
  | registered hrequest hview hverified =>
      rcases Table.mem_insert.mp hv' with hv' | rfl
      · exact ⟨v', hv', rfl, rfl⟩
      · exact absurd hold (Nat.lt_irrefl _)
  | deleted hrequest => exact ⟨v', (mem_deleteUser.mp hv').1, rfl, rfl⟩
  | verified _ _ _ | loggedIn _ _ _ _ _ | unverified _ _ _ _ _ | reset _ _ _ _ =>
      rcases Table.mem_modify.mp hv' with ⟨hv', -⟩ | ⟨v, hv, hid, rfl⟩
      · exact ⟨v', hv', rfl, rfl⟩
      · exact ⟨v, hv, hid, rfl⟩

theorem AccountEvent.nextId_le (e : AccountEvent) :
    s.db.users.nextId ≤ (e.step E s).db.users.nextId := by
  cases e with
  | call c => exact c.nextId_le
  | edit user form =>
      show _ ≤ (editUser E.toEnv s.db user form).users.nextId
      unfold editUser
      split
      · exact Nat.le_refl _
      · exact Nat.le_refl _

/-- **Only an edit changes an address**: where an account ends with another one, an edit of it was
accepted on the way. -/
theorem exists_edit (hu : u ∈ s.db.users.rows) {events : List AccountEvent}
    (hv : v ∈ (run (AccountEvent.step E) s events).db.users.rows) (hid : v.id = u.id)
    (hemail : v.val.email ≠ u.val.email) :
    ∃ pre form post, events = pre ++ .edit u.id form :: post ∧
      form.isValid E.toEnv (run (AccountEvent.step E) s pre).db u.id = true ∧
      form.email ≠ u.val.email := by
  have hstart : ¬ ∃ w ∈ s.db.users.rows, w.id = u.id ∧ w.val.email ≠ u.val.email := by
    rintro ⟨w, hw, hwid, hne⟩
    exact hne (by rw [s.db.users.eq_of_id_eq hw hu hwid])
  obtain ⟨pre, e, post, rfl, hbefore, w, hw, hwid, hne⟩ := exists_turn
    (Q := fun s' : AuthState => ∃ w ∈ s'.db.users.rows, w.id = u.id ∧ w.val.email ≠ u.val.email) hstart
    ⟨v, hv, hid, hemail⟩
  have hold : u.id < (run (AccountEvent.step E) s pre).db.users.nextId :=
    (states_of_step (Q := fun s' : AuthState => u.id < s'.db.users.nextId)
      (fun _ e h => Nat.lt_of_lt_of_le h e.nextId_le) (s.db.users.fresh u hu) pre).last
  cases e with
  | call c =>
      obtain ⟨w', hw', hsame, heq⟩ := c.email_kept hw (hwid ▸ hold)
      exact absurd ⟨w', hw', hsame.trans hwid, heq ▸ hne⟩ hbefore
  | edit user form =>
      rcases mem_editUser hw with hw | ⟨hvalid, hedited, w', -, -, hform⟩
      · exact absurd ⟨w, hw, hwid, hne⟩ hbefore
      · obtain rfl : user = u.id := hedited.symm.trans hwid
        refine ⟨pre, form, post, rfl, hvalid, ?_⟩
        rwa [hform] at hne

/-! ## Logins and resets on the way -/

section Logged

variable (E : AuthEnv) (s : AuthState) (e : AccountEvent)

/-- The event logs the account in. A login counts that is recorded, whether or not the verification
gate lets it pass. -/
def AccountEvent.logsIn (u : Nat) : Bool :=
  match e with
  | .call c => c.recordsLogin E s u
  | .edit _ _ => false

def AccountEvent.resets (u : Nat) : Bool :=
  match e with
  | .call c => c.resets E s u
  | .edit _ _ => false

def AccountEvent.newHash : Option String :=
  match e with
  | .call c => c.newHash E
  | .edit _ _ => none

/-- The time of an edit plays no part. -/
def AccountEvent.now : Int :=
  match e with
  | .call c => c.ambient.now
  | .edit _ _ => 0

end Logged

/-- An event neither logs the account in nor resets its password. -/
def EventSpares (E : AuthEnv) (u : Nat) (s : AuthState) (e : AccountEvent) : Prop :=
  e.logsIn E s u = false ∧ e.resets E s u = false

instance (E : AuthEnv) (u : Nat) (s : AuthState) (e : AccountEvent) :
    Decidable (EventSpares E u s e) :=
  inferInstanceAs (Decidable (_ ∧ _))

/-- Login times increase, and a reset of `u` stores a hash, and never the one it had again. -/
structure EventAdvances (E : AuthEnv) (u : Row User) (s : AuthState) (e : AccountEvent) : Prop where
  login : e.logsIn E s u.id = true → ∀ v ∈ s.db.users.rows, v.id = u.id →
    ∀ before ∈ v.val.lastLogin, before < e.now
  hash  : e.resets E s u.id = true → ∀ hash ∈ e.newHash E,
    hash ≠ u.val.password ∧ Separable hash

instance (E : AuthEnv) (u : Row User) (s : AuthState) (e : AccountEvent) :
    Decidable (EventAdvances E u s e) :=
  decidable_of_iff
    ((e.logsIn E s u.id = true → ∀ v ∈ s.db.users.rows, v.id = u.id →
        ∀ before ∈ v.val.lastLogin, before < e.now) ∧
      (e.resets E s u.id = true → ∀ hash ∈ e.newHash E,
        hash ≠ u.val.password ∧ Separable hash))
    ⟨fun h => ⟨h.1, h.2⟩, fun h => ⟨h.login, h.hash⟩⟩

section Run

variable {e : AccountEvent}

/-- **What an event leaves of an account**: an edit leaves the password and the last login. -/
theorem AccountEvent.account_change {v' : Row User} (hv' : v' ∈ (e.step E s).db.users.rows)
    (hold : v'.id < s.db.users.nextId) :
    ∃ v ∈ s.db.users.rows, v.id = v'.id ∧
      AccountChange (e.logsIn E s v.id) (e.resets E s v.id) e.now (e.newHash E) v v' := by
  cases e with
  | call c => exact c.account_change hv' hold
  | edit user form =>
      rcases mem_editUser hv' with hv' | ⟨-, hid, v, hv, hvid, hform⟩
      · exact ⟨v', hv', rfl, .kept rfl rfl rfl rfl⟩
      · refine ⟨v, hv, hvid.trans hid.symm, .kept rfl rfl ?_ ?_⟩
        · rw [hform]
          rfl
        · rw [hform]
          rfl

/-- What an event makes of the account, from what it makes of its row. -/
theorem Account.event {P Q : Row User → Prop} (h : Account u P s)
    (hrow : ∀ v ∈ s.db.users.rows, v.id = u.id → P v → ∀ v',
      AccountChange (e.logsIn E s u.id) (e.resets E s u.id) e.now (e.newHash E) v v' → Q v') :
    Account u Q (e.step E s) := by
  refine h.step e.nextId_le fun v' hv' hid => ?_
  obtain ⟨v, hv, hsame, hchange⟩ := e.account_change hv' (hid ▸ h.1)
  have hvu : v.id = u.id := hsame.trans hid
  rw [hvu] at hchange
  exact ⟨v, hv, hvu, fun hP => hrow v hv hvu hP v' hchange⟩

/-- **The account over a run with edits**: its password and its last login stay as they were exactly
for as long as nobody logs it in or resets it. -/
theorem account_run_edits (hu : u ∈ s.db.users.rows) {events : List AccountEvent}
    (hadvances : Each (AccountEvent.step E) (EventAdvances E u) s events) :
    (Each (AccountEvent.step E) (EventSpares E u.id) s events ∧
        Account u (Untouched u) (run (AccountEvent.step E) s events)) ∨
      (¬ Each (AccountEvent.step E) (EventSpares E u.id) s events ∧
        Account u (Touched u) (run (AccountEvent.step E) s events)) := by
  refine kept_or_turned ?_ ?_ ?_ (account_of_mem hu) hadvances
  · intro s e h _ hspares
    exact h.event fun _ _ _ hsame _ hchange => hsame.change hchange hspares
  · intro s e h hadvances hevent
    exact h.event fun v hv hid hsame _ hchange =>
      hsame.touched (fun hlogs => hadvances.login hlogs v hv hid) hadvances.hash hchange hevent
  · intro s e h hadvances
    exact h.event fun v hv hid htouched _ hchange =>
      htouched.change (fun hlogs => hadvances.login hlogs v hv hid) hadvances.hash hchange

theorem storesSeparable_run (hu : u ∈ s.db.users.rows) (hseparable : Separable u.val.password)
    {events : List AccountEvent}
    (hadvances : Each (AccountEvent.step E) (EventAdvances E u) s events) :
    StoresSeparable u (run (AccountEvent.step E) s events).db := by
  have hrun : States (AccountEvent.step E) (Account u fun v => Separable v.val.password) s
      events := by
    refine states_of_each ?_ ((account_of_mem hu).mono fun v h => h.1 ▸ hseparable) hadvances
    intro s e h hadvances
    exact h.event fun _ _ _ hold _ hchange => separable_change hadvances.hash hold hchange
  exact hrun.last.2

end Run

/-! ## What becomes of the tokens -/

/-- The token, used at `now`, no longer resets the password of the account. -/
def ResetRefused (S : Signing) (db : Db) (token : String) (now : Int) : Prop :=
  ∀ v, readPasswordResetToken S db token now ≠ .ok v

/-- The account under the key has a verified address after the call only if it had one before. -/
def VerifiesNothing (E : AuthEnv) (c : AuthCall) (s : AuthState) (user : Nat) : Prop :=
  ∀ w ∈ (c.step E s).db.users.rows, w.id = user → w.val.isEmailVerified = true →
    ∃ v ∈ s.db.users.rows, v.id = user ∧ v.val.isEmailVerified = true

theorem resetRefused_iff {S : Signing} (laws : S.Laws) {db : Db} (hv : v ∈ db.users.rows)
    (hid : v.id = u.id) (hdiffer : FingerprintsDiffer S u db) (t now : Int) :
    ResetRefused S db (generatePasswordResetToken S u t) now ↔
      S.passwordResetTimeout < now - t ∨ ¬Untouched u v := by
  have hread : (∃ w, readPasswordResetToken S db (generatePasswordResetToken S u t) now = .ok w) ↔
      _ := read_generate_iff laws hdiffer
  have hrow : (∃ w ∈ db.users.rows, w.id = u.id ∧ Untouched u w) ↔ Untouched u v := by
    constructor
    · rintro ⟨w, hw, hwid, hsame⟩
      rwa [← db.users.eq_of_id_eq hw hv (hwid.trans hid.symm)]
    · exact fun hsame => ⟨v, hv, hid, hsame⟩
  rw [hrow] at hread
  rw [ResetRefused, ← not_exists, hread, not_and_or, not_le]

/-- What a verification with a token does. -/
theorem step_verifyEmail {data : RequestData} {token : String} {A : Ambient}
    (hsent : sentText data "token" = some token) :
    (∀ uid, readEmailVerificationToken E.toSigning token A.now = .ok uid →
      (⟨.verifyEmail data, A⟩ : AuthCall).step E s = s.writeAccount uid .verified) ∧
    (∀ message, readEmailVerificationToken E.toSigning token A.now = .error message →
      (⟨.verifyEmail data, A⟩ : AuthCall).step E s = s) := by
  obtain ⟨fields, hfields, htoken⟩ := exists_fields hsent
  have hstep : (⟨.verifyEmail data, A⟩ : AuthCall).step E s =
      ((verifyEmail E s data A).outcome s).after := rfl
  constructor
  · intro uid hread
    rw [hstep]
    simp only [verifyEmail, hfields, ok_bind, htoken, hread]
    rfl
  · intro message hread
    rw [hstep]
    simp only [verifyEmail, hfields, ok_bind, htoken, hread]
    rfl

theorem verifiesNothing_iff (laws : E.toSigning.Laws) (hv : v ∈ s.db.users.rows)
    (hid : v.id = u.id) {data : RequestData} {t : Int}
    (hsent : sentText data "token" = some (generateEmailVerificationToken E.toSigning u t))
    (A : Ambient) :
    VerifiesNothing E ⟨.verifyEmail data, A⟩ s u.id ↔
      E.emailVerificationTimeout < A.now - t ∨ v.val.isEmailVerified = true := by
  have hread := readEmailVerificationToken_generate laws u t A.now
  by_cases hage : A.now - t ≤ E.emailVerificationTimeout
  · rw [if_pos hage] at hread
    rw [or_iff_right (not_lt.mpr hage), VerifiesNothing, (step_verifyEmail hsent).1 _ hread]
    constructor
    · intro h
      have hrow : ⟨v.id, AccountWrite.verified.apply v.val⟩ ∈
          (s.writeAccount u.id .verified).db.users.rows :=
        Table.mem_modify.mpr (.inr ⟨v, hv, hid, by rw [hid]⟩)
      obtain ⟨w, hw, hwid, hwas⟩ := h _ hrow hid rfl
      rwa [← s.db.users.eq_of_id_eq hw hv (hwid.trans hid.symm)]
    · intro h w _ _ _
      exact ⟨v, hv, hid, h⟩
  · rw [if_neg hage] at hread
    refine iff_of_true ?_ (.inl (not_le.mp hage))
    rw [VerifiesNothing, (step_verifyEmail hsent).2 _ hread]
    intro w hw hwid hwas
    exact ⟨w, hw, hwid, hwas⟩

/-- **When a token is bound to the address it was mailed to.** For every account as it was when the
token was made, and every later run of calls and edits after which it has another address (an edit
has set one): the reset token is refused exactly if it is too old or somebody has logged the account
in or reset it since, and the verification token verifies nothing exactly if it is too old or the
new address is verified already. -/
theorem address_binding_iff (laws : E.toSigning.Laws) (tells : E.toSigning.TellsTimes)
    (hu : u ∈ s.db.users.rows) (hseparable : Separable u.val.password)
    (events : List AccountEvent)
    (hadvances : Each (AccountEvent.step E) (EventAdvances E u) s events)
    (hapart : DigestApart E.toSigning u (run (AccountEvent.step E) s events).db)
    (hv : v ∈ (run (AccountEvent.step E) s events).db.users.rows) (hid : v.id = u.id)
    (hemail : v.val.email ≠ u.val.email) (t : Int) :
    let after := run (AccountEvent.step E) s events
    (∃ pre form post, events = pre ++ .edit u.id form :: post ∧
      form.isValid E.toEnv (run (AccountEvent.step E) s pre).db u.id = true ∧
      form.email ≠ u.val.email) ∧
    (∀ now, ResetRefused E.toSigning after.db (generatePasswordResetToken E.toSigning u t) now ↔
      E.passwordResetTimeout < now - t ∨
        ¬ Each (AccountEvent.step E) (EventSpares E u.id) s events) ∧
    (∀ data A, sentText data "token" = some (generateEmailVerificationToken E.toSigning u t) →
      (VerifiesNothing E ⟨.verifyEmail data, A⟩ after u.id ↔
        E.emailVerificationTimeout < A.now - t ∨ v.val.isEmailVerified = true)) := by
  intro after
  refine ⟨exists_edit hu hv hid hemail, fun now => ?_, ?_⟩
  · have hdiffer := fingerprintsDiffer tells hseparable
      (storesSeparable_run hu hseparable hadvances) hapart
    rw [resetRefused_iff laws hv hid hdiffer]
    apply or_congr Iff.rfl
    rcases account_run_edits hu hadvances with ⟨hspared, hsame⟩ | ⟨hnot, htouched⟩
    · exact iff_of_false (not_not.mpr (hsame.2 v hv hid)) (not_not.mpr hspared)
    · exact iff_of_true (htouched.2 v hv hid).not_untouched hnot
  · intro data A hsent
    exact verifiesNothing_iff laws hv hid hsent A

end Edits

/-! ## Alice gets another address -/

def aliceMoves : AccountEvent := .edit 1 { email := "c@x.io" }

/-- Her account with the new address. -/
def aliceMoved : Row User := ⟨1, { plainAlice.val with email := "c@x.io" }⟩

/-- Both tokens that were mailed to the old address still work. -/
theorem moved_account_keeps_tokens :
    let after := aliceMoves.step AuthEnv.plain AuthState.plain
    let verification := generateEmailVerificationToken Signing.plain plainAlice 3
    aliceMoved ∈ after.db.users.rows ∧
      ¬ResetRefused Signing.plain after.db (generatePasswordResetToken Signing.plain plainAlice 3) 6 ∧
      ¬VerifiesNothing AuthEnv.plain
        ⟨.verifyEmail (texts [("token", verification)]), ⟨6, "n", true⟩⟩ after 1 := by
  intro after verification
  have hrow : aliceMoved ∈ after.db.users.rows := by decide +kernel
  refine ⟨hrow, ?_, ?_⟩
  · intro h
    have hread : readPasswordResetToken Signing.plain after.db
        (generatePasswordResetToken Signing.plain plainAlice 3) 6 = .ok aliceMoved := by
      decide +kernel
    exact h aliceMoved hread
  · intro h
    have hverified : ⟨1, { aliceMoved.val with isEmailVerified := true }⟩ ∈
        ((⟨.verifyEmail (texts [("token", verification)]), ⟨6, "n", true⟩⟩ : AuthCall).step
          AuthEnv.plain after).db.users.rows := by decide +kernel
    obtain ⟨v, hv, hid, hwas⟩ := h _ hverified rfl rfl
    rw [after.db.users.eq_of_id_eq hv hrow hid] at hwas
    cases hwas

/-- A login with the new address spoils the reset token, and time the other. -/
theorem address_binding_iff_later :
    let after := run (AccountEvent.step AuthEnv.plain) AuthState.plain
      [aliceMoves, .call (.loginPlain "c@x.io" 5 "j1")]
    let verification := generateEmailVerificationToken Signing.plain plainAlice 3
    ResetRefused Signing.plain after.db (generatePasswordResetToken Signing.plain plainAlice 3) 6 ∧
      VerifiesNothing AuthEnv.plain
        ⟨.verifyEmail (texts [("token", verification)]), ⟨1000, "n", true⟩⟩ after 1 := by
  intro after verification
  obtain ⟨-, hreset, hverification⟩ := address_binding_iff (E := AuthEnv.plain)
    (v := ⟨1, { aliceMoved.val with lastLogin := some 5 }⟩) signingLaws_plain tellsTimes_plain
    (by decide +kernel : plainAlice ∈ AuthState.plain.db.users.rows) (by decide)
    [aliceMoves, .call (.loginPlain "c@x.io" 5 "j1")] (by decide +kernel)
    (digestApart_plain _ _) (by decide +kernel) rfl (by decide) 3
  exact ⟨(hreset 6).mpr (by decide +kernel),
    (hverification _ _ (by decide +kernel)).mpr (by decide +kernel)⟩

end Bastiq
