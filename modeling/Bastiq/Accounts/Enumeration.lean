import Bastiq.Accounts.Auth

/-!
# What a reset request reveals

`PasswordResetRequestView` answers 202 whether there is an account or not. It enqueues the e-mail
for an account that is there, and that can fail: while the broker is down the two answers differ, and
a body and a status tell who has an account.
-/

namespace Bastiq

open Relational View

/-- The response of a view, raised or returned. -/
def AuthView.response (view : AuthView) : Response TokenPair :=
  match view with
  | .ok (r, _) => r
  | .error r => r

/-- The address a reset is asked for, as it is looked up. A body without one is refused. -/
def requestedAddress (E : AuthEnv) (data : RequestData) : Except (Response TokenPair) String := do
  let fields ← bodyFields data
  match emailField E.toEnv (fields.lookup "email") with
  | .value email => .ok (normalizeEmail E.toEnv email)
  | result => .error (invalid (result.named "email"))

/-- Some active account has the address, whatever its letter case. -/
def hasActiveAccount (E : AuthEnv) (db : Db) (email : String) : Bool :=
  db.users.any fun u => E.iexact u.val.email email && u.val.isActive

section Response

variable {E : AuthEnv} {s : AuthState} {data : RequestData} {A : Ambient} {email : String}

theorem isNone_first?_account :
    (s.db.users.first? fun u => E.iexact u.val.email email && u.val.isActive).isNone =
      !hasActiveAccount E s.db email := by
  rw [hasActiveAccount, Bool.eq_iff_iff, Bool.not_eq_true', Option.isNone_iff_eq_none,
    Table.first?_eq_none_iff, Table.any_eq_false_iff]

theorem requestPasswordReset_eq (E : AuthEnv) (s : AuthState) (data : RequestData) (A : Ambient) :
    requestPasswordReset E s data A = (do
      let email ← requestedAddress E data
      require (!hasActiveAccount E s.db email || A.brokerIsUp) serverError
      .ok (⟨202, .detail "If an account with that email exists, a reset link has been sent."⟩,
        s)) := by
  unfold requestPasswordReset requestedAddress
  cases hfields : bodyFields (β := TokenPair) data with
  | error r => rfl
  | ok fields =>
      simp only [ok_bind]
      cases hemail : emailField E.toEnv (fields.lookup "email") with
      | value typed => simp only [ok_bind, isNone_first?_account]
      | skip => rfl
      | errors _ => rfl

/-- **What a request is answered.** -/
theorem response_requestPasswordReset (h : requestedAddress E data = .ok email) :
    (requestPasswordReset E s data A).response =
      if hasActiveAccount E s.db email && !A.brokerIsUp then serverError
      else ⟨202, .detail "If an account with that email exists, a reset link has been sent."⟩ := by
  rw [requestPasswordReset_eq, h, ok_bind]
  cases hasActiveAccount E s.db email with
  | true =>
      cases A.brokerIsUp with
      | true => rfl
      | false => rfl
  | false => rfl

end Response

/-- **When a reset request reveals nothing.** For every two databases, every body and every state of
the broker: exactly if the broker takes tasks, or the body is refused, or there is an account under
the address in both databases or in neither. -/
theorem reset_request_reveals_nothing_iff (E : AuthEnv) (s s' : AuthState) (data : RequestData)
    (A : Ambient) :
    (requestPasswordReset E s data A).response = (requestPasswordReset E s' data A).response ↔
      A.brokerIsUp = true ∨ ∀ email, requestedAddress E data = .ok email →
        hasActiveAccount E s.db email = hasActiveAccount E s'.db email := by
  cases haddress : requestedAddress E data with
  | error r =>
      -- a body without an address is refused before any account is looked up
      refine iff_of_true ?_ (.inr nofun)
      rw [requestPasswordReset_eq, requestPasswordReset_eq, haddress]
      rfl
  | ok email =>
      rw [response_requestPasswordReset haddress, response_requestPasswordReset haddress]
      cases A.brokerIsUp with
      | true => simp
      | false =>
          have hdiffer : (serverError : Response TokenPair) ≠
              ⟨202, .detail "If an account with that email exists, a reset link has been sent."⟩ := by
            intro h
            cases h
          simp only [Except.ok.injEq, forall_eq']
          cases hasActiveAccount E s.db email <;> cases hasActiveAccount E s'.db email <;>
            simp [hdiffer, hdiffer.symm]

/-! ## An account that shows -/

/-- The broker is down, and only the first database has an account under the address. -/
theorem reset_request_reveals_account :
    let request := fun s =>
      (requestPasswordReset AuthEnv.plain s (texts [("email", "a@x.io")]) ⟨5, "n", false⟩).response
    (request AuthState.plain).status = 500 ∧ (request ⟨{ users := .empty }, .empty⟩).status = 202 ∧
      request AuthState.plain ≠ request ⟨{ users := .empty }, .empty⟩ := by
  have hdown : (requestPasswordReset AuthEnv.plain AuthState.plain (texts [("email", "a@x.io")])
      ⟨5, "n", false⟩).response.status = 500 := by decide +kernel
  have hother : (requestPasswordReset AuthEnv.plain ⟨{ users := .empty }, .empty⟩
      (texts [("email", "a@x.io")]) ⟨5, "n", false⟩).response.status = 202 := by decide +kernel
  refine ⟨hdown, hother, ?_⟩
  intro heq
  have hstatus := congrArg Response.status heq
  simp only [hdown, hother] at hstatus
  cases hstatus

end Bastiq
