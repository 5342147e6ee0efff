import Bastiq.Accounts.Auth

/-!
# Logins that are rejected

simplejwt's serializer authenticates, records a refresh token and the login, and only then
`LoginSerializer.validate` asks the verification gate. A login that the library refuses leaves
nothing behind. One that the gate refuses leaves a token row and a new `last_login`, and with
`last_login` the fingerprint of every reset token of the account changes.
-/

namespace Bastiq

open Relational View

/-! ## What a login leaves -/

section Login

variable {E : AuthEnv} {s : AuthState} {data : RequestData} {A : Ambient} {user : Row User}

/-- **Where the credentials are wrong, or the token cannot be recorded, there is no effect.** -/
theorem outcome_login_refused
    (h : (⟨.login data, A⟩ : AuthCall).authenticates E s = none ∨ ¬s.tokens.Fresh A.nonce) :
    ((⟨.login data, A⟩ : AuthCall).outcome E s).after = s := by
  have hnone : ∀ {user tokens}, (⟨.login data, A⟩ : AuthCall).authenticates E s = some user →
      s.tokens.create ⟨some user.id, A.nonce⟩ = some tokens → False := by
    intro user tokens hlogin hcreate
    obtain ⟨hfresh, -⟩ := TokenTables.create_eq_some.mp hcreate
    rcases h with h | h
    · rw [h] at hlogin
      cases hlogin
    · exact h hfresh
  have hchange := (⟨.login data, A⟩ : AuthCall).change E s
  generalize (⟨.login data, A⟩ : AuthCall).outcome E s = out at hchange ⊢
  cases hchange with
  | same _ => rfl
  | loggedIn _ _ _ hlogin hcreate => exact (hnone hlogin hcreate).elim
  | unverified _ _ _ hlogin hcreate => exact (hnone hlogin hcreate).elim
  | registered hrequest _ _ | verified hrequest _ _ | refreshed hrequest _ _ _ _ _ _ _
  | reset hrequest _ _ _ | deleted hrequest => cases hrequest

end Login

/-! ## No effect -/

/-- The accounts and the outstanding tokens are as they were, and every reset token that was valid
is valid. -/
structure NoEffect (E : AuthEnv) (s s' : AuthState) : Prop where
  users       : s'.db.users = s.db.users
  outstanding : s'.tokens.outstanding = s.tokens.outstanding
  resets      : ∀ token now user, readPasswordResetToken E.toSigning s.db token now = .ok user →
    readPasswordResetToken E.toSigning s'.db token now = .ok user

theorem NoEffect.refl (E : AuthEnv) (s : AuthState) : NoEffect E s s :=
  ⟨rfl, rfl, fun _ _ _ h => h⟩

/-- The gate is on, and the login has the right credentials of an account whose address is not
verified. The `jti` the library draws is new. -/
structure GateRefuses (E : AuthEnv) (s : AuthState) (data : RequestData) (A : Ambient) : Prop where
  gate    : E.loginRequireVerifiedEmail = true
  account : ∃ user, (⟨.login data, A⟩ : AuthCall).authenticates E s = some user ∧
    user.val.isEmailVerified = false
  fresh   : s.tokens.Fresh A.nonce

/-- **When a rejected login has no effect.** For all accounts, settings and bodies: exactly unless it
is the gate that rejects it. -/
theorem rejected_login_iff (E : AuthEnv) (s : AuthState) (data : RequestData) (A : Ambient) :
    let out := (⟨.login data, A⟩ : AuthCall).outcome E s
    (out.status ≠ 200 → NoEffect E s out.after) ↔ ¬GateRefuses E s data A := by
  intro out
  cases hauth : (⟨.login data, A⟩ : AuthCall).authenticates E s with
  | none =>
      have hafter : out.after = s := outcome_login_refused (.inl hauth)
      refine iff_of_true (fun _ => hafter ▸ .refl E s) ?_
      intro h
      obtain ⟨user, huser, -⟩ := h.account
      rw [hauth] at huser
      cases huser
  | some user =>
      by_cases hfresh : s.tokens.Fresh A.nonce
      · obtain ⟨hafter, hstatus⟩ := outcome_login_authenticated hauth hfresh
        have hrefuses : GateRefuses E s data A ↔
            E.loginRequireVerifiedEmail = true ∧ user.val.isEmailVerified = false := by
          constructor
          · intro h
            obtain ⟨user', huser', hunverified⟩ := h.account
            rw [hauth] at huser'
            cases huser'
            exact ⟨h.gate, hunverified⟩
          · rintro ⟨hgate, hunverified⟩
            exact ⟨hgate, ⟨user, hauth, hunverified⟩, hfresh⟩
        rw [hrefuses, ← hstatus]
        constructor
        · intro hno
          by_contra hstatus
          -- the token row is new
          have hrows := (hno hstatus).outstanding
          rw [hafter] at hrows
          exact Table.insert_ne _ _ hrows
        · intro h200 hne
          exact absurd h200 hne
      · have hafter : out.after = s := outcome_login_refused (.inr hfresh)
        exact iff_of_true (fun _ => hafter ▸ .refl E s) fun h => hfresh h.fresh

/-! ## A reset link that a rejected login kills -/

/-- The gate is on, and Alice, whose address is not verified, has a reset token. She logs in with
the right password. -/
theorem rejected_login_kills_reset :
    let E := { AuthEnv.plain with loginRequireVerifiedEmail := true }
    let out := (AuthCall.loginPlain "a@x.io" 5 "j1").outcome E AuthState.plain
    let token := generatePasswordResetToken Signing.plain plainAlice 3
    out.status = 400 ∧ (out.after.db.users.get? 1).map (·.val.lastLogin) = some (some 5) ∧
      out.after.tokens.outstanding.rows = [⟨1, some 1, "j1"⟩] ∧
      readPasswordResetToken Signing.plain AuthState.plain.db token 6 = .ok plainAlice ∧
      ¬NoEffect E AuthState.plain out.after := by
  intro E out token
  have hbefore : readPasswordResetToken Signing.plain AuthState.plain.db token 6 = .ok plainAlice := by
    decide +kernel
  refine ⟨by decide +kernel, by decide +kernel, by decide +kernel, hbefore, ?_⟩
  intro h
  have hafter := h.resets token 6 plainAlice hbefore
  have hrefused : (readPasswordResetToken Signing.plain out.after.db token 6).isOk = false := by
    decide +kernel
  rw [show readPasswordResetToken Signing.plain out.after.db token 6 = _ from hafter] at hrefused
  cases hrefused

end Bastiq
