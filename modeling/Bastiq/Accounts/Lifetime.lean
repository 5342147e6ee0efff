import Bastiq.Accounts.Auth

/-!
# How long a signed token lives

No table says which reset tokens are still good: a token is good for as long as the account has the
fingerprint it had. So the account is followed through a run. `Untouched` and `Touched` say whether
its password and its last login are those of the moment the token was made; a login and a reset turn
the one into the other for good, and no other call makes a difference (`kept_or_turned`).

A verification token lives by its age alone, and it is the only way to a verified address.
-/

namespace Bastiq

open Relational Transition

section Lifetime

variable {E : AuthEnv} {s : AuthState} {u : Row User}

/-! ## The account a token was made for -/

/-- What the fingerprint is made of is as it was. -/
def Untouched (u v : Row User) : Prop :=
  v.val.password = u.val.password ∧ v.val.lastLogin = u.val.lastLogin

instance (u v : Row User) : Decidable (Untouched u v) := inferInstanceAs (Decidable (_ ∧ _))

/-- The password is another one, or there was a login since. -/
def Touched (u v : Row User) : Prop :=
  v.val.password ≠ u.val.password ∨
    ∃ time, v.val.lastLogin = some time ∧ ∀ before, u.val.lastLogin = some before → before < time

theorem Touched.not_untouched {v : Row User} (h : Touched u v) : ¬ Untouched u v := by
  rintro ⟨hpassword, hlogin⟩
  rcases h with hne | ⟨time, htime, hafter⟩
  · exact hne hpassword
  · have hlt := hafter time (hlogin ▸ htime)
    omega

/-- The key of `u` is given out, and the account under it, if it is there, satisfies `P`. -/
def Account (u : Row User) (P : Row User → Prop) (s : AuthState) : Prop :=
  u.id < s.db.users.nextId ∧ ∀ v ∈ s.db.users.rows, v.id = u.id → P v

/-- A call neither logs the account in nor resets its password. -/
def SparesAccount (E : AuthEnv) (u : Nat) (s : AuthState) (c : AuthCall) : Prop :=
  c.logsIn E s u = false ∧ c.resets E s u = false

instance (E : AuthEnv) (u : Nat) (s : AuthState) (c : AuthCall) : Decidable (SparesAccount E u s c) :=
  inferInstanceAs (Decidable (_ ∧ _))

/-- Login times increase, and a reset of `u` stores a hash, and never the one it had again. -/
structure Advances (E : AuthEnv) (u : Row User) (s : AuthState) (c : AuthCall) : Prop where
  login : c.logsIn E s u.id = true → ∀ v ∈ s.db.users.rows, v.id = u.id →
    ∀ before ∈ v.val.lastLogin, before < c.ambient.now
  hash  : c.resets E s u.id = true → ∀ hash ∈ c.newHash E,
    hash ≠ u.val.password ∧ Separable hash

instance (E : AuthEnv) (u : Row User) (s : AuthState) (c : AuthCall) :
    Decidable (Advances E u s c) :=
  decidable_of_iff
    ((c.logsIn E s u.id = true → ∀ v ∈ s.db.users.rows, v.id = u.id →
        ∀ before ∈ v.val.lastLogin, before < c.ambient.now) ∧
      (c.resets E s u.id = true → ∀ hash ∈ c.newHash E,
        hash ≠ u.val.password ∧ Separable hash))
    ⟨fun h => ⟨h.1, h.2⟩, fun h => ⟨h.login, h.hash⟩⟩

theorem account_of_mem (hu : u ∈ s.db.users.rows) : Account u (Untouched u) s := by
  refine ⟨s.db.users.fresh u hu, ?_⟩
  intro v hv hid
  rw [s.db.users.eq_of_id_eq hv hu hid]
  exact ⟨rfl, rfl⟩

theorem Account.mono {P Q : Row User → Prop} (h : Account u P s) (himp : ∀ v, P v → Q v) :
    Account u Q s :=
  ⟨h.1, fun v hv hid => himp v (h.2 v hv hid)⟩

/-- What becomes of the account, from what becomes of its row. -/
theorem Account.step {P Q : Row User → Prop} {s' : AuthState} (h : Account u P s)
    (hnext : s.db.users.nextId ≤ s'.db.users.nextId)
    (hrow : ∀ v' ∈ s'.db.users.rows, v'.id = u.id →
      ∃ v ∈ s.db.users.rows, v.id = u.id ∧ (P v → Q v')) : Account u Q s' := by
  refine ⟨Nat.lt_of_lt_of_le h.1 hnext, ?_⟩
  intro v' hv' hid
  obtain ⟨v, hv, hvid, himp⟩ := hrow v' hv' hid
  exact himp (h.2 v hv hvid)

/-! ### What becomes of its row -/

section Row

variable {logs resets : Bool} {now : Int} {newHash : Option String} {v v' : Row User}

theorem Untouched.change (h : Untouched u v) (hchange : AccountChange logs resets now newHash v v')
    (hspared : logs = false ∧ resets = false) : Untouched u v' := by
  cases hchange with
  | loggedIn hlogs hpassword hlogin =>
      rw [hspared.1] at hlogs
      cases hlogs
  | reset hresets hpassword hlogin =>
      rw [hspared.2] at hresets
      cases hresets
  | kept hlogs hresets hpassword hlogin => exact ⟨hpassword.trans h.1, hlogin.trans h.2⟩

variable (hnow : logs = true → ∀ before ∈ v.val.lastLogin, before < now)
  (hfresh : resets = true → ∀ hash ∈ newHash, hash ≠ u.val.password ∧ Separable hash)

include hnow hfresh

theorem Untouched.touched (h : Untouched u v)
    (hchange : AccountChange logs resets now newHash v v')
    (hevent : ¬(logs = false ∧ resets = false)) : Touched u v' := by
  cases hchange with
  | loggedIn hlogs hpassword hlogin =>
      refine .inr ⟨now, hlogin, ?_⟩
      intro before hbefore
      exact hnow hlogs before (h.2.trans hbefore)
  | reset hresets hpassword hlogin => exact .inl (hfresh hresets _ hpassword).1
  | kept hlogs hresets hpassword hlogin => exact absurd ⟨hlogs, hresets⟩ hevent

theorem Touched.change (h : Touched u v)
    (hchange : AccountChange logs resets now newHash v v') : Touched u v' := by
  cases hchange with
  | loggedIn hlogs hpassword hlogin =>
      rcases h with hne | ⟨time, htime, hafter⟩
      · exact .inl (by rwa [hpassword])
      · refine .inr ⟨now, hlogin, ?_⟩
        intro before hbefore
        have hold := hafter before hbefore
        have hnew := hnow hlogs time htime
        omega
  | reset hresets hpassword hlogin => exact .inl (hfresh hresets _ hpassword).1
  | kept hlogs hresets hpassword hlogin =>
      rcases h with hne | ⟨time, htime, hafter⟩
      · exact .inl (by rwa [hpassword])
      · exact .inr ⟨time, hlogin.trans htime, hafter⟩

omit hnow in
theorem separable_change (h : Separable v.val.password)
    (hchange : AccountChange logs resets now newHash v v') : Separable v'.val.password := by
  cases hchange with
  | loggedIn hlogs hpassword hlogin => rwa [hpassword]
  | reset hresets hpassword hlogin => exact (hfresh hresets _ hpassword).2
  | kept hlogs hresets hpassword hlogin => rwa [hpassword]

end Row

/-! ### What a call makes of it -/

section Call

variable (hgate : E.loginRequireVerifiedEmail = false) {c : AuthCall}

include hgate

/-- What a call makes of the account, from what it makes of its row. -/
theorem Account.call {P Q : Row User → Prop} (h : Account u P s)
    (hrow : ∀ v ∈ s.db.users.rows, v.id = u.id → P v → ∀ v',
      AccountChange (c.logsIn E s u.id) (c.resets E s u.id) c.ambient.now (c.newHash E) v v' →
        Q v') : Account u Q (c.step E s) := by
  refine h.step c.nextId_le fun v' hv' hid => ?_
  obtain ⟨v, hv, hsame, hchange⟩ := c.account_change hv' (hid ▸ h.1)
  have hvu : v.id = u.id := hsame.trans hid
  rw [AuthCall.Leaves, hvu, ← logsIn_eq_recordsLogin hgate] at hchange
  exact ⟨v, hv, hvu, fun hP => hrow v hv hvu hP v' hchange⟩

theorem Account.untouched_step (h : Account u (Untouched u) s) (hspares : SparesAccount E u.id s c) :
    Account u (Untouched u) (c.step E s) :=
  h.call hgate fun _ _ _ hsame _ hchange => hsame.change hchange hspares

theorem Account.touched_of_event (h : Account u (Untouched u) s) (hadvances : Advances E u s c)
    (hevent : ¬ SparesAccount E u.id s c) : Account u (Touched u) (c.step E s) :=
  h.call hgate fun v hv hid hsame _ hchange =>
    hsame.touched (fun hlogs => hadvances.login hlogs v hv hid) hadvances.hash hchange hevent

theorem Account.touched_step (h : Account u (Touched u) s) (hadvances : Advances E u s c) :
    Account u (Touched u) (c.step E s) :=
  h.call hgate fun v hv hid htouched _ hchange =>
    htouched.change (fun hlogs => hadvances.login hlogs v hv hid) hadvances.hash hchange

theorem Account.separable_step (h : Account u (fun v => Separable v.val.password) s)
    (hadvances : Advances E u s c) :
    Account u (fun v => Separable v.val.password) (c.step E s) :=
  h.call hgate fun _ _ _ hseparable _ hchange =>
    separable_change hadvances.hash hseparable hchange

/-- **The account over a run**: it stays as it was exactly for as long as it is spared. -/
theorem account_run (hu : u ∈ s.db.users.rows) {later : List AuthCall}
    (hadvances : Each (AuthCall.step E) (Advances E u) s later) :
    (Each (AuthCall.step E) (SparesAccount E u.id) s later ∧
        Account u (Untouched u) (run (AuthCall.step E) s later)) ∨
      (¬ Each (AuthCall.step E) (SparesAccount E u.id) s later ∧
        Account u (Touched u) (run (AuthCall.step E) s later)) :=
  kept_or_turned (fun _ _ h _ hspares => h.untouched_step hgate hspares)
    (fun _ _ h hadvances hevent => h.touched_of_event hgate hadvances hevent)
    (fun _ _ h hadvances => h.touched_step hgate hadvances) (account_of_mem hu) hadvances

end Call

/-! ## Reset tokens -/

/-- The digest does not collide: it tells what is hashed for the account of `u` from what was hashed
when it was `u`. -/
def DigestApart (S : Signing) (u : Row User) (db : Db) : Prop :=
  ∀ v ∈ db.users.rows, v.id = u.id →
    S.digest (passwordResetPayload S v) = S.digest (passwordResetPayload S u) →
      passwordResetPayload S v = passwordResetPayload S u

theorem digestApart_plain (u : Row User) (db : Db) : DigestApart Signing.plain u db :=
  fun _ _ _ h => h

/-- The hash that is stored for the account has no colon. -/
def StoresSeparable (u : Row User) (db : Db) : Prop :=
  ∀ v ∈ db.users.rows, v.id = u.id → Separable v.val.password

instance (u : Row User) (db : Db) : Decidable (StoresSeparable u db) :=
  inferInstanceAs (Decidable (∀ v ∈ db.users.rows, v.id = u.id → Separable v.val.password))

/-- The fingerprint of the account of `u` is what it was when it was `u` only if the password and
the last login are. -/
def FingerprintsDiffer (S : Signing) (u : Row User) (db : Db) : Prop :=
  ∀ v ∈ db.users.rows, v.id = u.id →
    passwordResetFingerprint S v = passwordResetFingerprint S u → Untouched u v

/-- **Another password or another login changes the fingerprint.** -/
theorem fingerprintsDiffer {S : Signing} (tells : S.TellsTimes) {db : Db}
    (hu : Separable u.val.password) (hstored : StoresSeparable u db)
    (hapart : DigestApart S u db) : FingerprintsDiffer S u db := by
  intro v hv hid hfp
  exact passwordResetPayload_inj tells hid hu (hstored v hv hid) (hapart v hv hid hfp)

theorem fingerprint_of_untouched {S : Signing} {v : Row User} (hid : v.id = u.id)
    (h : Untouched u v) : passwordResetFingerprint S v = passwordResetFingerprint S u := by
  simp only [passwordResetFingerprint, passwordResetPayload, hid, h.1, h.2]

/-- A token is accepted as long as the account is there and has the fingerprint. -/
theorem read_generate_iff {S : Signing} (laws : S.Laws) {db : Db} {t now : Int}
    (hdiffer : FingerprintsDiffer S u db) :
    (∃ v, readPasswordResetToken S db (generatePasswordResetToken S u t) now = .ok v) ↔
      now - t ≤ S.passwordResetTimeout ∧ ∃ v ∈ db.users.rows, v.id = u.id ∧ Untouched u v := by
  constructor
  · rintro ⟨v, h⟩
    obtain ⟨hage, hv, hid, hfp⟩ := (readPasswordResetToken_generate laws).mp h
    exact ⟨hage, v, hv, hid, hdiffer v hv hid hfp⟩
  · rintro ⟨hage, v, hv, hid, hsame⟩
    exact ⟨v, (readPasswordResetToken_generate laws).mpr
      ⟨hage, hv, hid, fingerprint_of_untouched hid hsame⟩⟩

/-! ## Verification -/

/-- The call verifies the account with a token that was made for it and is not too old. -/
def VerifiedBy (E : AuthEnv) (c : AuthCall) (v : Row User) : Prop :=
  ∃ data token t, c.request = .verifyEmail data ∧ sentText data "token" = some token ∧
    token = generateEmailVerificationToken E.toSigning v t ∧
    c.ambient.now - t ≤ E.emailVerificationTimeout

/-- **How an address comes to be verified.** -/
theorem verified_step (laws : E.toSigning.Laws) {v : Row User}
    (hv : v ∈ (c.step E s).db.users.rows) (hverified : v.val.isEmailVerified = true) :
    (∃ w ∈ s.db.users.rows, w.id = v.id ∧ w.val.isEmailVerified = true) ∨ VerifiedBy E c v := by
  have hchange := c.change E s
  unfold AuthCall.step at hv
  generalize c.outcome E s = out at hchange hv
  have hsame : v ∈ s.db.users.rows → (∃ w ∈ s.db.users.rows, w.id = v.id ∧
      w.val.isEmailVerified = true) ∨ VerifiedBy E c v :=
    fun hv => .inl ⟨v, hv, rfl, hverified⟩
  cases hchange with
  | same h => exact hsame hv
  | registered hrequest hview hnew =>
      rcases Table.mem_insert.mp hv with hv | rfl
      · exact hsame hv
      · rw [hnew] at hverified
        cases hverified
  | @verified data token uid hrequest htoken hread =>
      rcases Table.mem_modify.mp hv with ⟨hv, -⟩ | ⟨w, -, -, rfl⟩
      · exact hsame hv
      · obtain ⟨t, rfl, hage⟩ := (readEmailVerificationToken_eq_ok laws).mp hread
        exact .inr ⟨data, _, t, hrequest, htoken, rfl, hage⟩
  | deleted hrequest => exact hsame (mem_deleteUser.mp hv).1
  | refreshed hrequest htext hdecode hage hrefuses huser hid hactive => exact hsame hv
  -- the other writes leave the field as it is
  | loggedIn _ _ _ _ _ | unverified _ _ _ _ _ | reset _ _ _ _ =>
      rcases Table.mem_modify.mp hv with ⟨hv, -⟩ | ⟨w, hw, hid, rfl⟩
      · exact hsame hv
      · exact .inl ⟨w, hw, hid, hverified⟩

/-- **The lifetime of signed tokens.** A reset token is accepted exactly while it is young enough,
its account is there, and the account was neither logged in to nor reset since the token was made;
and then it yields that account. A token of one flow is none in the other. An address comes to be
verified only by a verification token of its own account that is young enough. -/
theorem token_lifetimes (E : AuthEnv) (laws : E.toSigning.Laws) (tells : E.toSigning.TellsTimes)
    (hgate : E.loginRequireVerifiedEmail = false) (s : AuthState) (later : List AuthCall) :
    let after := run (AuthCall.step E) s later
    (∀ u ∈ s.db.users.rows, Separable u.val.password →
      Each (AuthCall.step E) (Advances E u) s later →
      DigestApart E.toSigning u after.db → ∀ t now,
        let read := readPasswordResetToken E.toSigning after.db
          (generatePasswordResetToken E.toSigning u t) now
        ((∃ v, read = .ok v) ↔
          now - t ≤ E.passwordResetTimeout ∧ (∃ v ∈ after.db.users.rows, v.id = u.id) ∧
            Each (AuthCall.step E) (SparesAccount E u.id) s later) ∧
        ∀ v, read = .ok v → v ∈ after.db.users.rows ∧ v.id = u.id) ∧
    (∀ db u t now,
      (∀ v, readPasswordResetToken E.toSigning db
        (generateEmailVerificationToken E.toSigning u t) now ≠ .ok v) ∧
      ∀ uid, readEmailVerificationToken E.toSigning
        (generatePasswordResetToken E.toSigning u t) now ≠ .ok uid) ∧
    Each (AuthCall.step E) (fun s c => ∀ v ∈ (c.step E s).db.users.rows,
      v.val.isEmailVerified = true →
        (∃ w ∈ s.db.users.rows, w.id = v.id ∧ w.val.isEmailVerified = true) ∨ VerifiedBy E c v)
      s later := by
  intro after
  refine ⟨?_, ?_, each_of_forall (fun s c v hv hverified => verified_step laws hv hverified) _ _⟩
  · intro u hu hseparable hadvances hapart t now read
    have hseparables : Account u (fun v => Separable v.val.password) after :=
      (states_of_each (fun _ _ h hadvances => h.separable_step hgate hadvances)
        ((account_of_mem hu).mono fun v h => h.1 ▸ hseparable) hadvances).last
    have hdiffer := fingerprintsDiffer tells hseparable hseparables.2 hapart
    refine ⟨?_, ?_⟩
    · rw [read_generate_iff laws hdiffer]
      rcases account_run hgate hu hadvances with ⟨hspared, hsame⟩ | ⟨hnot, htouched⟩
      · constructor
        · rintro ⟨hage, v, hv, hid, -⟩
          exact ⟨hage, ⟨v, hv, hid⟩, hspared⟩
        · rintro ⟨hage, ⟨v, hv, hid⟩, -⟩
          exact ⟨hage, v, hv, hid, hsame.2 v hv hid⟩
      · constructor
        · rintro ⟨-, v, hv, hid, hsame⟩
          exact absurd hsame (htouched.2 v hv hid).not_untouched
        · rintro ⟨-, -, hspared⟩
          exact absurd hspared hnot
    · intro v hread
      obtain ⟨-, hv, hid, -⟩ := (readPasswordResetToken_generate laws).mp hread
      exact ⟨hv, hid⟩
  · intro db u t now
    rw [readPasswordResetToken_emailVerification laws, readEmailVerificationToken_passwordReset laws]
    constructor
    · intro v h
      cases h
    · intro uid h
      cases h

end Lifetime

/-! ## Tokens of one account -/

/-- Bob logs in, asks for a reset of Alice's password, verifies his address, and resets his own. -/
def othersCalls : List AuthCall :=
  [.loginPlain "b@x.io" 12 "jti",
    ⟨.requestPasswordReset (texts [("email", "A@x.io")]), ⟨13, "", true⟩⟩,
    ⟨.verifyEmail (texts [("token",
      generateEmailVerificationToken Signing.plain plainBob 5)]), ⟨14, "", true⟩⟩,
    .resetPlain (generatePasswordResetToken Signing.plain
      ⟨2, { plainBob.val with lastLogin := some 12 }⟩ 13) 15 "salt"]

def otherReset : AuthCall :=
  .resetPlain (generatePasswordResetToken Signing.plain plainAlice 11) 15 "salt"

/-- What the others did leaves a token of Alice's alone; her login does not, nor does a reset of her
password with another token. -/
theorem token_lifetimes_alice :
    let token := generatePasswordResetToken Signing.plain plainAlice 10
    let read := fun calls => readPasswordResetToken Signing.plain
      (run (AuthCall.step AuthEnv.plain) AuthState.plain calls).db token 60
    (∃ v, read othersCalls = .ok v) ∧
      (¬ ∃ v, read [.loginPlain "b@x.io" 12 "jti", .loginPlain "a@x.io" 16 "jti2"] = .ok v) ∧
      ¬ ∃ v, read [.loginPlain "b@x.io" 12 "jti", otherReset] = .ok v := by
  intro token read
  have hlifetime := fun later => (token_lifetimes AuthEnv.plain signingLaws_plain tellsTimes_plain
    rfl AuthState.plain later).1 plainAlice (by decide) (by decide)
  refine ⟨?_, ?_, ?_⟩
  · apply ((hlifetime othersCalls (by decide +kernel) (digestApart_plain _ _)) 10 60).1.mpr
    exact ⟨by decide, by decide +kernel, by decide +kernel⟩
  · intro hread
    have hspared :=
      (((hlifetime _ (by decide +kernel) (digestApart_plain _ _)) 10 60).1.mp hread).2.2
    revert hspared
    decide +kernel
  · intro hread
    have hspared :=
      (((hlifetime _ (by decide +kernel) (digestApart_plain _ _)) 10 60).1.mp hread).2.2
    revert hspared
    decide +kernel

end Bastiq
