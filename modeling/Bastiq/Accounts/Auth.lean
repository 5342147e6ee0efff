import Bastiq.Accounts.Tokens
import Bastiq.Accounts.Sessions
import Bastiq.Organizations.Admin

/-!
# The account endpoints

Registration, address verification, login, token refresh and the password reset, over the database
and the tables of the refresh tokens. `AuthCall.outcome` routes a call to its view; `AuthChange`
says once what a call can do. The admin's deletion of a user is among the calls, so that accounts
can vanish from a run.
-/

namespace Bastiq

open Relational View

/-- What the account endpoints take from Django, simplejwt and the settings. -/
structure AuthEnv extends Env, Signing, Jwt where
  checkPassword : (password stored : String) → Bool
  /-- `LOGIN_REQUIRE_VERIFIED_EMAIL`. -/
  loginRequireVerifiedEmail : Bool

structure AuthState where
  db     : Db
  tokens : TokenTables

/-- What a login or a refresh is answered with. -/
structure TokenPair where
  refresh : String
  access  : TokenClaims
  deriving DecidableEq, Repr

abbrev AuthView := View TokenPair (Response TokenPair × AuthState)

/-- The write to one account. -/
def AuthState.writeAccount (s : AuthState) (user : Nat) (w : AccountWrite) : AuthState :=
  { s with db := { s.db with users := s.db.users.modify user w.apply } }

/-! ## The views -/

section Views

variable (E : AuthEnv) (s : AuthState) (data : RequestData) (A : Ambient)

/-- A `CharField` without options: tokens and passwords are sent in one. -/
def textField : CharField := {}

/-- `VerifyEmailView.post`. Verifying a verified account is a success. -/
def verifyEmail : AuthView := do
  let fields ← bodyFields data
  match textField.run false (fields.lookup "token") with
  | .value token => match readEmailVerificationToken E.toSigning token A.now with
    | .error message => .error (invalid [("token", [.custom message])])
    | .ok uid => .ok (⟨200, .detail "Email address verified."⟩, s.writeAccount uid .verified)
  | result => .error (invalid (result.named "token"))

/-- The refresh token of a login. -/
def refreshTokenFor (user : Row User) : RefreshToken :=
  ⟨tokenClaims user, A.nonce, A.now + E.refreshTokenLifetime⟩

/-- `LoginView.post`. The refresh token is recorded with its account, then the login, and only then
is the verification gate asked. -/
def loginPair : AuthView := do
  let fields ← bodyFields data
  let email := loginEmail.run false (fields.lookup "email")
  let password := loginPassword.run false (fields.lookup "password")
  match email, password with
  | .value email, .value password =>
      let user ← orElse (modelBackend E.checkPassword s.db email password)
        ⟨401, .detail "No active account found with the given credentials"⟩
      let token := refreshTokenFor E A user
      let tokens ← orElse (s.tokens.create ⟨some user.id, token.jti⟩) serverError
      let after := ({ s with tokens := tokens }).writeAccount user.id (.loggedIn A.now)
      if E.loginRequireVerifiedEmail && !user.val.isEmailVerified then
        .ok (invalid [("non_field_errors", [.custom "Email address is not verified."])], after)
      else .ok (⟨200, .data ⟨E.encode token, token.claims⟩⟩, after)
  | _, _ => .error (invalid (email.named "email" ++ password.named "password"))

/-- `refresh.blacklist()`, and then the row of the token that takes its place. -/
def rotate (token : RefreshToken) : TokenTables :=
  let (consumed, tokens) := s.tokens.getOrCreate ⟨some token.claims.user, token.jti⟩
  let tokens := (tokens.blacklist consumed).2
  (tokens.getOrCreate ⟨some token.claims.user, A.nonce⟩).2

/-- `RefreshToken(text)`: a token that is not too old, and not blacklisted. -/
def verifyRefreshToken {β : Type} (text : String) : View β RefreshToken := do
  let token ← orElse (E.decode text) ⟨401, .detail "Token is invalid"⟩
  require (decide (A.now < token.exp)) ⟨401, .detail "Token is expired"⟩
  require (!s.tokens.refuses token.jti) ⟨401, .detail "Token is blacklisted"⟩
  .ok token

/-- `RefreshView.post`. The account is looked up without a guard against its having been deleted. -/
def refresh : AuthView := do
  let fields ← bodyFields data
  match textField.run false (fields.lookup "refresh") with
  | .value text =>
      let token ← verifyRefreshToken E s A text
      let user ← orElse (s.db.users.get? token.claims.user) serverError
      require user.val.isActive ⟨401, .detail "No active account found for the given token."⟩
      let next : RefreshToken := ⟨token.claims, A.nonce, A.now + E.refreshTokenLifetime⟩
      .ok (⟨200, .data ⟨E.encode next, next.claims⟩⟩, { s with tokens := rotate s A token })
  | result => .error (invalid (result.named "refresh"))

/-- `PasswordResetRequestView.post`. Only for an account that is there a task is enqueued, which the
broker may refuse. -/
def requestPasswordReset : AuthView := do
  let fields ← bodyFields data
  match emailField E.toEnv (fields.lookup "email") with
  | .value email =>
      let email := normalizeEmail E.toEnv email
      let user := s.db.users.first? fun u => E.iexact u.val.email email && u.val.isActive
      require (user.isNone || A.brokerIsUp) serverError
      .ok (⟨202, .detail "If an account with that email exists, a reset link has been sent."⟩, s)
  | result => .error (invalid (result.named "email"))

/-- `PasswordResetConfirmSerializer.validate`. -/
def validatePasswordReset {β : Type} (db : Db) (token newPassword : String) :
    View β (Row User) :=
  match readPasswordResetToken E.toSigning db token A.now with
  | .error message => .error (invalid [("token", [.custom message])])
  | .ok user =>
      match E.passwordErrors newPassword user.val.email user.val.firstName user.val.lastName with
      | [] => .ok user
      | messages => .error (invalid [("new_password", messages.map .custom)])

/-- `PasswordResetConfirmView.post`. -/
def confirmPasswordReset : AuthView := do
  let fields ← bodyFields data
  let token := textField.run false (fields.lookup "token")
  let newPassword := textField.run false (fields.lookup "new_password")
  match token, newPassword with
  | .value token, .value newPassword =>
      let user ← validatePasswordReset E A s.db token newPassword
      let s := s.writeAccount user.id (.password (E.makePassword newPassword A.nonce))
      let s := { s with tokens := (s.tokens.revokeAllRefreshTokens user.id).2 }
      .ok (⟨200, .detail "Password has been reset."⟩, s)
  | _, _ => .error (invalid (token.named "token" ++ newPassword.named "new_password"))

end Views

/-! ## Calls -/

inductive AuthRequest where
  | register (data : RequestData)
  | verifyEmail (data : RequestData)
  | login (data : RequestData)
  | refresh (data : RequestData)
  | requestPasswordReset (data : RequestData)
  | confirmPasswordReset (data : RequestData)
  /-- The admin deletes a user. -/
  | deleteUser (user : Nat)

structure AuthCall where
  request : AuthRequest
  ambient : Ambient

/-- The status of an answer, the tokens in it, and what the call leaves. -/
structure Outcome where
  status : Nat
  tokens : Option TokenPair
  after  : AuthState

/-- The tokens in a response. -/
def Response.tokens? (r : Response TokenPair) : Option TokenPair :=
  match r.body with
  | .data pair => some pair
  | _ => none

/-- The outcome of a view. What is raised carries no tokens. -/
def AuthView.outcome (s : AuthState) (view : AuthView) : Outcome :=
  match view with
  | .ok (r, after) => ⟨r.status, r.tokens?, after⟩
  | .error r => ⟨r.status, none, s⟩

def AuthCall.outcome (E : AuthEnv) (c : AuthCall) (s : AuthState) : Outcome :=
  match c.request with
  | .register data =>
      let out := perform s.db (Bastiq.register E.toEnv s.db data c.ambient)
      ⟨out.1.status, none, { s with db := out.2 }⟩
  | .verifyEmail data => (Bastiq.verifyEmail E s data c.ambient).outcome s
  | .login data => (loginPair E s data c.ambient).outcome s
  | .refresh data => (Bastiq.refresh E s data c.ambient).outcome s
  | .requestPasswordReset data => (Bastiq.requestPasswordReset E s data c.ambient).outcome s
  | .confirmPasswordReset data => (Bastiq.confirmPasswordReset E s data c.ambient).outcome s
  | .deleteUser user => ⟨302, none, ⟨Bastiq.deleteUser s.db user, s.tokens.forget user⟩⟩

/-- The state after a call. -/
def AuthCall.step (E : AuthEnv) (c : AuthCall) (s : AuthState) : AuthState := (c.outcome E s).after

/-- The text a body has under a name, as a text field reads it. -/
def sentText (data : RequestData) (name : String) : Option String :=
  match data with
  | .json v => match v.fields with
    | .ok fields => (textField.run false (fields.lookup name)).value?
    | .error _ => none
  | .unparsable _ _ _ => none

theorem sentText_eq {β : Type} {data : RequestData} {fields : List (String × Json)} {name : String}
    (h : bodyFields (β := β) data = .ok fields) :
    sentText data name = (textField.run false (fields.lookup name)).value? := by
  cases data with
  | unparsable status message refused => cases h
  | json v =>
      simp only [bodyFields] at h
      split at h
      · next fields' hfields =>
        cases h
        simp [sentText, hfields]
      · cases h

theorem exists_fields {data : RequestData} {name text : String}
    (h : sentText data name = some text) :
    ∃ fields, bodyFields (β := TokenPair) data = .ok fields ∧
      textField.run false (fields.lookup name) = .value text := by
  cases data with
  | unparsable status message refused => cases h
  | json v =>
      cases hfields : v.fields with
      | error es => simp [sentText, hfields] at h
      | ok fields =>
          refine ⟨fields, by simp [bodyFields, hfields], ?_⟩
          simp only [sentText, hfields] at h
          cases hrun : textField.run false (fields.lookup name) with
          | value a =>
              rw [hrun] at h
              cases h
              rfl
          | skip =>
              rw [hrun] at h
              cases h
          | errors es =>
              rw [hrun] at h
              cases h

/-- The account whose credentials a login presents, whatever the gate says to it. -/
def AuthCall.authenticates (E : AuthEnv) (s : AuthState) (c : AuthCall) : Option (Row User) :=
  match c.request with
  | .login data => do
      let email ← sentText data "email"
      let password ← sentText data "password"
      modelBackend E.checkPassword s.db email password
  | _ => none

/-! ## What a call can do -/

/-- The outcomes of a call, each with what it took. -/
inductive AuthChange (E : AuthEnv) (c : AuthCall) (s : AuthState) : Outcome → Prop where
  | same {status : Nat} (h : status ≠ 200) : AuthChange E c s ⟨status, none, s⟩
  | registered {data : RequestData} {r : Response UserData} {user : User}
      (hrequest : c.request = .register data)
      (hview : Bastiq.register E.toEnv s.db data c.ambient =
        .ok (r, { s.db with users := s.db.users.insert user }))
      (hverified : user.isEmailVerified = false) :
      AuthChange E c s
        ⟨r.status, none, { s with db := { s.db with users := s.db.users.insert user } }⟩
  | verified {data : RequestData} {token : String} {uid : Nat}
      (hrequest : c.request = .verifyEmail data) (htoken : sentText data "token" = some token)
      (hread : readEmailVerificationToken E.toSigning token c.ambient.now = .ok uid) :
      AuthChange E c s ⟨200, none, s.writeAccount uid .verified⟩
  | loggedIn {data : RequestData} {user : Row User} {tokens : TokenTables}
      (hrequest : c.request = .login data) (huser : user ∈ s.db.users.rows)
      (hactive : user.val.isActive = true) (hlogin : c.authenticates E s = some user)
      (hcreate : s.tokens.create ⟨some user.id, c.ambient.nonce⟩ = some tokens) :
      AuthChange E c s ⟨200, some ⟨E.encode (refreshTokenFor E c.ambient user), tokenClaims user⟩,
        ({ s with tokens := tokens }).writeAccount user.id (.loggedIn c.ambient.now)⟩
  | unverified {data : RequestData} {user : Row User} {tokens : TokenTables}
      (hrequest : c.request = .login data) (huser : user ∈ s.db.users.rows)
      (hgate : E.loginRequireVerifiedEmail = true) (hlogin : c.authenticates E s = some user)
      (hcreate : s.tokens.create ⟨some user.id, c.ambient.nonce⟩ = some tokens) :
      AuthChange E c s ⟨400, none,
        ({ s with tokens := tokens }).writeAccount user.id (.loggedIn c.ambient.now)⟩
  | refreshed {data : RequestData} {text : String} {token : RefreshToken} {user : Row User}
      (hrequest : c.request = .refresh data) (htext : sentText data "refresh" = some text)
      (hdecode : E.decode text = some token) (hage : c.ambient.now < token.exp)
      (hrefuses : s.tokens.refuses token.jti = false) (huser : user ∈ s.db.users.rows)
      (hid : user.id = token.claims.user) (hactive : user.val.isActive = true) :
      AuthChange E c s ⟨200, some ⟨E.encode ⟨token.claims, c.ambient.nonce,
        c.ambient.now + E.refreshTokenLifetime⟩, token.claims⟩,
        { s with tokens := rotate s c.ambient token }⟩
  | reset {data : RequestData} {token newPassword : String} {user : Row User}
      (hrequest : c.request = .confirmPasswordReset data)
      (htoken : sentText data "token" = some token)
      (hpassword : sentText data "new_password" = some newPassword)
      (hread : readPasswordResetToken E.toSigning s.db token c.ambient.now = .ok user) :
      AuthChange E c s ⟨200, none,
        { s.writeAccount user.id (.password (E.makePassword newPassword c.ambient.nonce)) with
          tokens := (s.tokens.revokeAllRefreshTokens user.id).2 }⟩
  | deleted {user : Nat} (hrequest : c.request = .deleteUser user) :
      AuthChange E c s ⟨302, none, ⟨Bastiq.deleteUser s.db user, s.tokens.forget user⟩⟩

theorem mem_deleteUser {db : Db} {user : Nat} {v : Row User} :
    v ∈ (deleteUser db user).users.rows ↔ v ∈ db.users.rows ∧ v.id ≠ user := by
  unfold deleteUser
  split
  · next hnone =>
    have habsent := Table.first?_eq_none_iff.mp (Option.isNone_iff_eq_none.mp hnone)
    refine ⟨fun hv => ⟨hv, ?_⟩, fun hv => hv.1⟩
    simpa using habsent v hv
  · simp

section Change

variable {E : AuthEnv} {c : AuthCall} {s : AuthState}

/-- A view that answers 200 or raises something else. -/
theorem change_outcome {view : AuthView} (herror : ∀ r, view = .error r → 400 ≤ r.status)
    (hok : ∀ r after, view = .ok (r, after) → AuthChange E c s ⟨r.status, r.tokens?, after⟩) :
    AuthChange E c s (view.outcome s) := by
  cases view with
  | error r =>
      have hrefused := herror r rfl
      refine .same ?_
      omega
  | ok out => exact hok out.1 out.2 rfl

theorem change_verifyEmail {data : RequestData} (hrequest : c.request = .verifyEmail data) :
    AuthChange E c s ((verifyEmail E s data c.ambient).outcome s) := by
  apply change_outcome
  · refine refused_bind (fun r => refused_of_bodyFields) fun fields r h => ?_
    split at h
    · split at h
      · cases h
        exact Nat.le_refl 400
      · cases h
    · cases h
      exact Nat.le_refl 400
  · intro r after h
    obtain ⟨fields, hfields, h⟩ := bind_eq_ok.mp h
    split at h
    · next token htoken =>
      split at h
      · cases h
      · next uid hread =>
        cases h
        exact .verified hrequest (by rw [sentText_eq hfields, htoken]; rfl) hread
    · cases h

theorem change_login {data : RequestData} (hrequest : c.request = .login data) :
    AuthChange E c s ((loginPair E s data c.ambient).outcome s) := by
  apply change_outcome
  · refine refused_bind (fun r => refused_of_bodyFields) fun fields r h => ?_
    simp only at h
    split at h
    · revert r h
      refine refused_bind (refused_orElse (Nat.le_add_right 400 1)) fun user => ?_
      refine refused_bind (refused_orElse (Nat.le_add_right 400 100)) fun tokens r h => ?_
      split at h
      · cases h
      · cases h
    · cases h
      exact Nat.le_refl 400
  · intro r after h
    obtain ⟨fields, hfields, h⟩ := bind_eq_ok.mp h
    simp only at h
    split at h
    · next email password hemail hpassword =>
      obtain ⟨user, huser, h⟩ := bind_eq_ok.mp h
      obtain ⟨tokens, hcreate, h⟩ := bind_eq_ok.mp h
      have hlogin : c.authenticates E s = some user := by
        have htyped : sentText data "email" = some email := by
          rw [sentText_eq hfields]
          exact congrArg FieldResult.value? hemail
        have hsecret : sentText data "password" = some password := by
          rw [sentText_eq hfields]
          exact congrArg FieldResult.value? hpassword
        simpa [AuthCall.authenticates, hrequest, htyped, hsecret] using orElse_eq_ok.mp huser
      obtain ⟨hfirst, hright⟩ := Option.filter_eq_some_iff.mp (orElse_eq_ok.mp huser)
      have hmem := Table.mem_of_first? hfirst
      rw [Bool.and_eq_true] at hright
      split at h
      · next hgate =>
        cases h
        rw [Bool.and_eq_true] at hgate
        exact .unverified hrequest hmem hgate.1 hlogin (orElse_eq_ok.mp hcreate)
      · cases h
        exact .loggedIn hrequest hmem hright.2 hlogin (orElse_eq_ok.mp hcreate)
    · cases h

/-- What an accepted refresh token shows. -/
theorem verifyRefreshToken_eq_ok {β : Type} {A : Ambient} {text : String} {token : RefreshToken} :
    verifyRefreshToken (β := β) E s A text = .ok token ↔
      E.decode text = some token ∧ A.now < token.exp ∧ s.tokens.refuses token.jti = false := by
  unfold verifyRefreshToken
  constructor
  · intro h
    obtain ⟨found, hdecode, h⟩ := bind_eq_ok.mp h
    obtain ⟨_, hage, h⟩ := bind_eq_ok.mp h
    obtain ⟨_, hrefuses, h⟩ := bind_eq_ok.mp h
    cases h
    refine ⟨orElse_eq_ok.mp hdecode, ?_, ?_⟩
    · simpa using require_eq_ok.mp hage
    · simpa using require_eq_ok.mp hrefuses
  · rintro ⟨hdecode, hage, hrefuses⟩
    simp [hdecode, require, hage, hrefuses]

theorem change_refresh {data : RequestData} (hrequest : c.request = .refresh data) :
    AuthChange E c s ((refresh E s data c.ambient).outcome s) := by
  apply change_outcome
  · refine refused_bind (fun r => refused_of_bodyFields) fun fields r h => ?_
    split at h
    · revert r h
      refine refused_bind ?_ fun token => ?_
      · refine refused_bind (refused_orElse (Nat.le_add_right 400 1)) fun token => ?_
        refine refused_bind (refused_require (Nat.le_add_right 400 1)) fun _ => ?_
        exact refused_bind (refused_require (Nat.le_add_right 400 1)) fun _ _ h => nomatch h
      · refine refused_bind (refused_orElse (Nat.le_add_right 400 100)) fun user => ?_
        exact refused_bind (refused_require (Nat.le_add_right 400 1)) fun _ _ h => nomatch h
    · cases h
      exact Nat.le_refl 400
  · intro r after h
    obtain ⟨fields, hfields, h⟩ := bind_eq_ok.mp h
    split at h
    · next text htext =>
      obtain ⟨token, htoken, h⟩ := bind_eq_ok.mp h
      obtain ⟨user, hget, h⟩ := bind_eq_ok.mp h
      obtain ⟨_, hactive, h⟩ := bind_eq_ok.mp h
      obtain ⟨hdecode, hage, hrefuses⟩ := verifyRefreshToken_eq_ok.mp htoken
      have hget := orElse_eq_ok.mp hget
      cases h
      exact .refreshed hrequest (by rw [sentText_eq hfields, htext]; rfl) hdecode hage hrefuses
        (Table.mem_of_get? hget) (Table.id_of_get? hget) (require_eq_ok.mp hactive)
    · cases h

theorem change_requestPasswordReset {data : RequestData} :
    AuthChange E c s ((requestPasswordReset E s data c.ambient).outcome s) := by
  apply change_outcome
  · refine refused_bind (fun r => refused_of_bodyFields) fun fields r h => ?_
    split at h
    · revert r h
      exact refused_bind (refused_require (Nat.le_add_right 400 100)) fun _ _ h => nomatch h
    · cases h
      exact Nat.le_refl 400
  · intro r after h
    obtain ⟨fields, -, h⟩ := bind_eq_ok.mp h
    split at h
    · obtain ⟨_, -, h⟩ := bind_eq_ok.mp h
      cases h
      exact .same (by simp)
    · cases h

theorem refused_of_validatePasswordReset {β : Type} {db : Db} {A : Ambient}
    {token newPassword : String} {r : Response β}
    (h : validatePasswordReset E A db token newPassword = .error r) : r.status = 400 := by
  unfold validatePasswordReset at h
  split at h
  · cases h
    rfl
  · split at h
    · cases h
    · cases h
      rfl

theorem validatePasswordReset_eq_ok {β : Type} {db : Db} {A : Ambient}
    {token newPassword : String} {user : Row User}
    (h : validatePasswordReset (β := β) E A db token newPassword = .ok user) :
    readPasswordResetToken E.toSigning db token A.now = .ok user := by
  unfold validatePasswordReset at h
  split at h
  · cases h
  · next found hread =>
    split at h
    · cases h
      exact hread
    · cases h

theorem change_confirmPasswordReset {data : RequestData}
    (hrequest : c.request = .confirmPasswordReset data) :
    AuthChange E c s ((confirmPasswordReset E s data c.ambient).outcome s) := by
  apply change_outcome
  · refine refused_bind (fun r => refused_of_bodyFields) fun fields r h => ?_
    simp only at h
    split at h
    · revert r h
      refine refused_bind (fun r h => ?_) fun _ _ h => nomatch h
      rw [refused_of_validatePasswordReset h]
    · cases h
      exact Nat.le_refl 400
  · intro r after h
    obtain ⟨fields, hfields, h⟩ := bind_eq_ok.mp h
    simp only at h
    split at h
    · next token newPassword htoken hpassword =>
      obtain ⟨user, huser, h⟩ := bind_eq_ok.mp h
      cases h
      exact .reset hrequest (by rw [sentText_eq hfields, htoken]; rfl)
        (by rw [sentText_eq hfields, hpassword]; rfl) (validatePasswordReset_eq_ok huser)
    · cases h

theorem change_register_account {data : RequestData} (hrequest : c.request = .register data) :
    let out := perform s.db (Bastiq.register E.toEnv s.db data c.ambient)
    AuthChange E c s ⟨out.1.status, none, { s with db := out.2 }⟩ := by
  intro out
  cases hview : Bastiq.register E.toEnv s.db data c.ambient with
  | error r =>
      have hrefused := refused_of_register hview
      have hout : out = (r, s.db) := by simp [out, hview]
      rw [hout]
      refine .same ?_
      show r.status ≠ 200
      omega
  | ok result =>
      obtain ⟨r, after⟩ := result
      obtain ⟨reg, user, -, hcreate⟩ := register_cases hview
      obtain ⟨rfl, -⟩ := createUser_eq_ok hcreate
      have hout : out = (r, { s.db with users := s.db.users.insert user.val }) := by
        simp [out, hview]
      rw [hout]
      exact .registered hrequest hview (isEmailVerified_of_createUser hcreate)

/-- **What a call can do.** -/
theorem AuthCall.change (E : AuthEnv) (c : AuthCall) (s : AuthState) :
    AuthChange E c s (c.outcome E s) := by
  unfold AuthCall.outcome
  cases hrequest : c.request with
  | register data => exact change_register_account hrequest
  | verifyEmail data => exact change_verifyEmail hrequest
  | login data => exact change_login hrequest
  | refresh data => exact change_refresh hrequest
  | requestPasswordReset data => exact change_requestPasswordReset
  | confirmPasswordReset data => exact change_confirmPasswordReset hrequest
  | deleteUser user => exact .deleted hrequest

/-! ## The calls as calls of the API -/

/-- A login does to the database what the view does that knows no refresh tokens, and is answered
as that is. -/
theorem outcome_loginPair {data : RequestData} {A : Ambient} (hfresh : s.tokens.Fresh A.nonce) :
    let out := perform s.db
      (login E.checkPassword E.loginRequireVerifiedEmail s.db data A.now)
    ((loginPair E s data A).outcome s).status = out.1.status ∧
      ((loginPair E s data A).outcome s).after.db = out.2 := by
  intro out
  have hcreate : ∀ user : Row User, s.tokens.create ⟨some user.id, (refreshTokenFor E A user).jti⟩ =
      some (s.tokens.insert ⟨some user.id, A.nonce⟩ hfresh) := fun user => dif_pos hfresh
  simp only [out, loginPair, login]
  cases data with
  | unparsable status message refused => exact ⟨rfl, rfl⟩
  | json v =>
      cases hfields : v.fields with
      | error es =>
          simp only [bodyFields, hfields, error_bind]
          exact ⟨rfl, rfl⟩
      | ok fields =>
          simp only [bodyFields, hfields, ok_bind]
          generalize loginEmail.run false (fields.lookup "email") = email
          generalize loginPassword.run false (fields.lookup "password") = password
          cases email with
          | skip => exact ⟨rfl, rfl⟩
          | errors _ => exact ⟨rfl, rfl⟩
          | value email =>
              cases password with
              | skip => exact ⟨rfl, rfl⟩
              | errors _ => exact ⟨rfl, rfl⟩
              | value password =>
                  simp only
                  cases modelBackend E.checkPassword s.db email password with
                  | none => exact ⟨rfl, rfl⟩
                  | some user =>
                      simp only [orElse_some, ok_bind, hcreate]
                      split
                      · exact ⟨rfl, rfl⟩
                      · exact ⟨rfl, rfl⟩

/-- **What a call does to the database**: nothing, what a call of the API does, or what the admin
does. -/
theorem AuthCall.db_step (E : AuthEnv) (c : AuthCall) (s : AuthState) :
    (c.step E s).db = s.db ∨ (∃ call : Call, (c.step E s).db = call.step E.toEnv s.db) ∨
      ∃ op : AdminOp, (c.step E s).db = op.step s.db := by
  have hchange := c.change E s
  unfold AuthCall.step
  generalize hout : c.outcome E s = out at hchange
  cases hchange with
  | same h => exact .inl rfl
  | @registered data r user hrequest hview hverified =>
      refine .inr (.inl ⟨⟨none, .register data, c.ambient⟩, ?_⟩)
      simp [Call.step, Call.respond, hview]
  | @verified data token uid hrequest htoken hread =>
      exact .inr (.inl ⟨⟨none, .account uid .verified, c.ambient⟩, rfl⟩)
  | @loggedIn data user tokens hrequest huser hactive hlogin hcreate =>
      exact .inr (.inl ⟨⟨none, .account user.id (.loggedIn c.ambient.now), c.ambient⟩, rfl⟩)
  | @unverified data user tokens hrequest huser hgate hlogin hcreate =>
      exact .inr (.inl ⟨⟨none, .account user.id (.loggedIn c.ambient.now), c.ambient⟩, rfl⟩)
  | refreshed _ _ _ _ _ _ _ _ => exact .inl rfl
  | @reset data token newPassword user hrequest htoken hpassword hread =>
      exact .inr (.inl ⟨⟨none, .account user.id
        (.password (E.makePassword newPassword c.ambient.nonce)), c.ambient⟩, rfl⟩)
  | @deleted user hrequest => exact .inr (.inr ⟨.deleteUser user, rfl⟩)

end Change

/-! ## Logins with the right credentials -/

section Credentials

variable {E : AuthEnv} {s : AuthState} {data : RequestData} {A : Ambient} {user : Row User}

/-- What the library leaves of a login it accepts. -/
def loggedInState (s : AuthState) (user : Row User) (A : Ambient) (h : s.tokens.Fresh A.nonce) :
    AuthState :=
  ({ s with tokens := s.tokens.insert ⟨some user.id, A.nonce⟩ h }).writeAccount user.id
    (.loggedIn A.now)

/-- The texts of a login that authenticates. -/
theorem exists_credentials
    (h : (⟨.login data, A⟩ : AuthCall).authenticates E s = some user) :
    ∃ fields email password, bodyFields (β := TokenPair) data = .ok fields ∧
      loginEmail.run false (fields.lookup "email") = .value email ∧
      loginPassword.run false (fields.lookup "password") = .value password ∧
      modelBackend E.checkPassword s.db email password = some user := by
  obtain ⟨email, hemail, h⟩ := Option.bind_eq_some_iff.mp h
  obtain ⟨password, hpassword, huser⟩ := Option.bind_eq_some_iff.mp h
  obtain ⟨fields, hfields, hemail⟩ := exists_fields hemail
  obtain ⟨fields', hfields', hpassword⟩ := exists_fields hpassword
  rw [hfields] at hfields'
  cases hfields'
  exact ⟨fields, email, password, hfields, hemail, hpassword, huser⟩

/-- **Where the credentials are right, the effects come before the gate.** -/
theorem outcome_login_authenticated
    (h : (⟨.login data, A⟩ : AuthCall).authenticates E s = some user)
    (hfresh : s.tokens.Fresh A.nonce) :
    ((⟨.login data, A⟩ : AuthCall).outcome E s).after = loggedInState s user A hfresh ∧
      (((⟨.login data, A⟩ : AuthCall).outcome E s).status = 200 ↔
        ¬(E.loginRequireVerifiedEmail = true ∧ user.val.isEmailVerified = false)) := by
  obtain ⟨fields, email, password, hfields, hemail, hpassword, huser⟩ := exists_credentials h
  have hcreate : s.tokens.create ⟨some user.id, (refreshTokenFor E A user).jti⟩ =
      some (s.tokens.insert ⟨some user.id, A.nonce⟩ hfresh) := dif_pos hfresh
  show ((loginPair E s data A).outcome s).after = _ ∧
    (((loginPair E s data A).outcome s).status = 200 ↔ _)
  simp only [loginPair, hfields, ok_bind, hemail, hpassword, huser, orElse_some, hcreate]
  split
  · next hgate =>
    refine ⟨rfl, iff_of_false ?_ ?_⟩
    · show (400 : Nat) ≠ 200
      omega
    · simpa using hgate
  · next hgate =>
    refine ⟨rfl, iff_of_true rfl ?_⟩
    simpa using hgate

end Credentials

/-! ## What a call does to an account -/

section Account

variable (E : AuthEnv) (s : AuthState) (c : AuthCall) (u : Nat)

/-- A login that the account's row records: the credentials are right and the refresh token is new.
The verification gate is asked after that, and may still answer 400. -/
def AuthCall.recordsLogin : Bool :=
  match c.authenticates E s with
  | some user => user.id == u && decide (s.tokens.Fresh c.ambient.nonce)
  | none => false

/-- A successful login of the account. -/
def AuthCall.logsIn : Bool :=
  match c.request with
  | .login _ => (c.outcome E s).status == 200 && (c.outcome E s).tokens.any (·.access.user == u)
  | _ => false

/-- A successful reset of the account's password. -/
def AuthCall.resets : Bool :=
  match c.request with
  | .confirmPasswordReset data => (c.outcome E s).status == 200 &&
      (sentText data "token").any fun token =>
        match readPasswordResetToken E.toSigning s.db token c.ambient.now with
        | .ok user => user.id == u
        | .error _ => false
  | _ => false

/-- The hash a reset with the call's new password stores. -/
def AuthCall.newHash : Option String :=
  match c.request with
  | .confirmPasswordReset data =>
      (sentText data "new_password").map (E.makePassword · c.ambient.nonce)
  | _ => none

end Account

section Account

variable {E : AuthEnv} {s : AuthState} {c : AuthCall} {u : Nat}

/-- What becomes of the fields a reset token depends on, at a login at `now`, at a reset to `newHash`,
or at anything else. -/
inductive AccountChange (logs resets : Bool) (now : Int) (newHash : Option String)
    (v v' : Row User) : Prop where
  | loggedIn (hlogs : logs = true) (hpassword : v'.val.password = v.val.password)
      (hlogin : v'.val.lastLogin = some now)
  | reset (hresets : resets = true) (hpassword : newHash = some v'.val.password)
      (hlogin : v'.val.lastLogin = v.val.lastLogin)
  | kept (hlogs : logs = false) (hresets : resets = false)
      (hpassword : v'.val.password = v.val.password)
      (hlogin : v'.val.lastLogin = v.val.lastLogin)

/-- What a call leaves of them. -/
abbrev AuthCall.Leaves (E : AuthEnv) (s : AuthState) (c : AuthCall) (v v' : Row User) : Prop :=
  AccountChange (c.recordsLogin E s v.id) (c.resets E s v.id) c.ambient.now (c.newHash E) v v'

theorem AuthCall.recordsLogin_iff : c.recordsLogin E s u = true ↔
    ∃ user, c.authenticates E s = some user ∧ user.id = u ∧ s.tokens.Fresh c.ambient.nonce := by
  unfold recordsLogin
  split
  · next user huser => simp [huser]
  · next hnone => simp [hnone]

theorem recordsLogin_of_create {user : Row User} {tokens : TokenTables}
    (hlogin : c.authenticates E s = some user)
    (hcreate : s.tokens.create ⟨some user.id, c.ambient.nonce⟩ = some tokens) :
    c.recordsLogin E s user.id = true := by
  obtain ⟨hfresh, -⟩ := TokenTables.create_eq_some.mp hcreate
  exact AuthCall.recordsLogin_iff.mpr ⟨user, hlogin, rfl, hfresh⟩

theorem exists_login (h : c.recordsLogin E s u = true) :
    ∃ data user, c = ⟨.login data, c.ambient⟩ ∧
      (⟨.login data, c.ambient⟩ : AuthCall).authenticates E s = some user ∧ user.id = u ∧
      s.tokens.Fresh c.ambient.nonce := by
  obtain ⟨user, hlogin, hid, hfresh⟩ := AuthCall.recordsLogin_iff.mp h
  obtain ⟨request, A⟩ := c
  cases request with
  | login data => exact ⟨data, user, rfl, hlogin, hid, hfresh⟩
  | _ => cases hlogin

/-- **Where the gate is off, a login is recorded exactly if it is answered 200.** -/
theorem logsIn_eq_recordsLogin (hgate : E.loginRequireVerifiedEmail = false) :
    c.logsIn E s u = c.recordsLogin E s u := by
  have hchange := c.change E s
  rw [Bool.eq_iff_iff]
  constructor
  · intro h
    unfold AuthCall.logsIn at h
    generalize c.outcome E s = out at h hchange
    cases hchange with
    | loggedIn hrequest huser hactive hlogin hcreate =>
        have hrecords := recordsLogin_of_create hlogin hcreate
        simp only [hrequest, tokenClaims, Option.any_some, beq_self_eq_true, Bool.true_and,
          beq_iff_eq] at h
        rwa [h] at hrecords
    | same _ =>
        split at h
        · simp at h
        · cases h
    | registered hrequest _ _ | verified hrequest _ _ | refreshed hrequest _ _ _ _ _ _ _
    | reset hrequest _ _ _ | deleted hrequest =>
        rw [hrequest] at h
        cases h
    | unverified hrequest _ hon _ _ =>
        rw [hgate] at hon
        cases hon
  · intro h
    obtain ⟨data, user, hc, hlogin, hid, hfresh⟩ := exists_login h
    rw [hc] at hchange ⊢
    obtain ⟨-, hstatus⟩ := outcome_login_authenticated hlogin hfresh
    have h200 := hstatus.mpr (by simp [hgate])
    unfold AuthCall.logsIn
    generalize (⟨.login data, c.ambient⟩ : AuthCall).outcome E s = out at hchange h200 ⊢
    cases hchange with
    | loggedIn _ _ _ hlogin' _ =>
        obtain rfl := Option.some.inj (hlogin.symm.trans hlogin')
        simp [tokenClaims, hid]
    | same hstatus => exact absurd h200 hstatus
    | unverified _ _ hon _ _ =>
        rw [hgate] at hon
        cases hon
    | registered hrequest _ _ | verified hrequest _ _ | refreshed hrequest _ _ _ _ _ _ _
    | reset hrequest _ _ _ | deleted hrequest => cases hrequest

theorem resets_of_status (h : (c.outcome E s).status ≠ 200) : c.resets E s u = false := by
  unfold AuthCall.resets
  split
  · simp [h]
  · rfl

/-- The account of a row that was not changed. -/
theorem exists_unchanged {v : Row User} (hlogs : c.recordsLogin E s v.id = false)
    (hresets : c.resets E s v.id = false) (hv : v ∈ s.db.users.rows) :
    ∃ w ∈ s.db.users.rows, w.id = v.id ∧ c.Leaves E s w v :=
  ⟨v, hv, rfl, .kept hlogs hresets rfl rfl⟩

/-- What a login leaves that is recorded. -/
theorem account_change_login (h : c.recordsLogin E s u = true) {v' : Row User}
    (hv' : v' ∈ (c.step E s).db.users.rows) :
    ∃ v ∈ s.db.users.rows, v.id = v'.id ∧ c.Leaves E s v v' := by
  obtain ⟨data, user, hc, hlogin, rfl, hfresh⟩ := exists_login h
  have hresets : c.resets E s v'.id = false := by
    rw [hc]
    rfl
  have hafter : c.step E s = loggedInState s user c.ambient hfresh :=
    (congrArg (fun c => AuthCall.step E c s) hc).trans
      (outcome_login_authenticated hlogin hfresh).1
  rw [hafter] at hv'
  rcases Table.mem_modify.mp hv' with ⟨hv', hne⟩ | ⟨v, hv, hid, rfl⟩
  · refine exists_unchanged (Bool.eq_false_iff.mpr fun hother => ?_) hresets hv'
    obtain ⟨user', hlogin', hid, -⟩ := AuthCall.recordsLogin_iff.mp hother
    rw [hc] at hlogin'
    obtain rfl := Option.some.inj (hlogin.symm.trans hlogin')
    exact hne hid.symm
  · exact ⟨v, hv, hid, .loggedIn (hid ▸ h) rfl rfl⟩

/-- **What a call leaves of an account**: a login sets `last_login`, a reset the password, and no
other call touches the two. -/
theorem AuthCall.account_change {v' : Row User} (hv' : v' ∈ (c.step E s).db.users.rows)
    (hold : v'.id < s.db.users.nextId) :
    ∃ v ∈ s.db.users.rows, v.id = v'.id ∧ c.Leaves E s v v' := by
  by_cases hlogs : ∃ u, c.recordsLogin E s u = true
  · obtain ⟨u, hlogs⟩ := hlogs
    exact account_change_login hlogs hv'
  have hlogs : ∀ u, c.recordsLogin E s u = false :=
    fun u => Bool.eq_false_iff.mpr fun h => hlogs ⟨u, h⟩
  have hchange := c.change E s
  unfold AuthCall.step at hv'
  generalize hout : c.outcome E s = out at hchange hv'
  cases hchange with
  | same h => exact exists_unchanged (hlogs _) (resets_of_status (by rwa [hout])) hv'
  | @registered data r user hrequest hview hverified =>
      rcases Table.mem_insert.mp hv' with hv' | rfl
      · exact exists_unchanged (hlogs _) (by simp [resets, hrequest]) hv'
      · exact absurd hold (Nat.lt_irrefl _)
  | @verified data token uid hrequest htoken hread =>
      rcases Table.mem_modify.mp hv' with ⟨hv', -⟩ | ⟨v, hv, rfl, rfl⟩
      · exact exists_unchanged (hlogs _) (by simp [resets, hrequest]) hv'
      · exact ⟨v, hv, rfl, .kept (hlogs _) (by simp [resets, hrequest]) rfl rfl⟩
  | loggedIn _ _ _ hlogin hcreate | unverified _ _ _ hlogin hcreate =>
      have hrecords := recordsLogin_of_create hlogin hcreate
      rw [hlogs] at hrecords
      cases hrecords
  | @refreshed data text token user hrequest htext hdecode hage hrefuses huser hid hactive =>
      exact exists_unchanged (hlogs _) (by simp [resets, hrequest]) hv'
  | @reset data token newPassword user hrequest htoken hpassword hread =>
      rcases Table.mem_modify.mp hv' with ⟨hv', hne⟩ | ⟨v, hv, hid, rfl⟩
      · have hother : user.id ≠ v'.id := hne.symm
        exact exists_unchanged (hlogs _)
          (by simp [resets, hrequest, hout, htoken, hread, hother]) hv'
      · refine ⟨v, hv, hid, .reset ?_ ?_ rfl⟩
        · simp [resets, hrequest, hout, htoken, hread, hid]
        · simp [newHash, hrequest, hpassword, AccountWrite.apply]
  | @deleted user hrequest =>
      exact exists_unchanged (hlogs _) (by simp [resets, hrequest]) (mem_deleteUser.mp hv').1

/-- The sequence of the accounts' keys only moves on. -/
theorem AuthCall.nextId_le (c : AuthCall) :
    s.db.users.nextId ≤ (c.step E s).db.users.nextId := by
  have hchange := c.change E s
  unfold AuthCall.step
  generalize c.outcome E s = out at hchange ⊢
  cases hchange with
  | registered _ _ _ => exact Nat.le_succ _
  | deleted hrequest =>
      show _ ≤ (deleteUser s.db _).users.nextId
      unfold deleteUser
      split
      · exact Nat.le_refl _
      · exact Nat.le_refl _
  | _ => exact Nat.le_refl _

end Account

/-! ## Plain accounts -/

def AuthEnv.plain : AuthEnv where
  toEnv := Env.ascii
  toSigning := Signing.plain
  toJwt := Jwt.plain
  checkPassword := Env.asciiCheck
  loginRequireVerifiedEmail := false

/-- The body of a request that sends these texts. -/
def texts (fields : List (String × String)) : RequestData :=
  .json (.obj (fields.map fun (name, text) => (name, .str text)))

/-- Two accounts with the same password. -/
def plainAlice : Row User := ⟨1, { email := "a@x.io", password := "p$password" }⟩

def plainBob : Row User := ⟨2, { email := "b@x.io", password := "q$password" }⟩

def AuthState.plain : AuthState where
  db := { users := (Table.empty.insert plainAlice.val).insert plainBob.val }
  tokens := .empty

/-- A login with that password. -/
def AuthCall.loginPlain (email : String) (now : Int) (jti : String) : AuthCall :=
  ⟨.login (texts [("email", email), ("password", "password")]), ⟨now, jti, true⟩⟩

/-- A reset of the password, to one that is as good. -/
def AuthCall.resetPlain (token : String) (now : Int) (salt : String) : AuthCall :=
  ⟨.confirmPasswordReset (texts [("token", token), ("new_password", "passw0rd")]),
    ⟨now, salt, true⟩⟩

def AuthCall.refreshPlain (token : String) (now : Int) (jti : String) : AuthCall :=
  ⟨.refresh (texts [("refresh", token)]), ⟨now, jti, true⟩⟩

end Bastiq
