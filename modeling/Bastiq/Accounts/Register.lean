import Bastiq.Accounts.Email
import Bastiq.Rest.Response

/-!
# Registration

`POST /auth/register` creates an unverified account. An address that some account has already, up
to letter case, is refused.
-/

namespace Bastiq

open Relational View

/-- What `UserSerializer` renders. A new account is in no organization yet. -/
structure UserData where
  id              : Nat
  email           : String
  firstName       : String
  lastName        : String
  fullName        : String
  isEmailVerified : Bool
  dateJoined      : Int
  deriving DecidableEq, Repr

def User.serialize (u : Row User) : UserData :=
  ⟨u.id, u.val.email, u.val.firstName, u.val.lastName, u.val.fullName, u.val.isEmailVerified,
    u.val.dateJoined⟩

abbrev AccountView := View UserData (Response UserData × Db)

/-- `_split_name`: the first word, and what follows it. -/
def splitName (name : String) : String × String :=
  let cs := (Python.strip name).toList
  (String.ofList (cs.takeWhile (!Python.isSpace ·)),
    String.ofList ((cs.dropWhile (!Python.isSpace ·)).dropWhile Python.isSpace))

example : splitName "  Ada  King Lovelace " = ("Ada", "King Lovelace") := by decide

/-- `normalize_email(email).lower()`, where `normalize_email` lower-cases what follows the last
`@`. -/
def storedEmail (E : Env) (email : String) : String :=
  let cs := (Python.strip email).toList
  let domain := (cs.reverse.takeWhile (· != '@')).reverse
  let account := cs.take (cs.length - domain.length)
  if account.isEmpty then E.lower (String.ofList cs)
  else E.lower (String.ofList account ++ E.lower (String.ofList domain))

/-- `User.objects.filter(email__iexact=value).exists()`. -/
def emailTaken (E : Env) (db : Db) (email : String) : Bool :=
  db.users.any fun u => E.iexact u.val.email email

structure Registration where
  email    : String
  password : String
  name     : String

/-- `RegisterSerializer.validate_email`. -/
def validateRegisterEmail (E : Env) (db : Db) (email : String) : FieldResult String :=
  let email := normalizeEmail E email
  if emailTaken E db email then .errors [.custom "A user with this email already exists."]
  else .value email

def passwordField : CharField := {}

def registerName : CharField := { required := false, allowBlank := true, default := some "" }

/-- `RegisterSerializer.validate`: the configured validators see the address and the name too. -/
def validatePassword {β : Type} (E : Env) (reg : Registration) : View β Unit :=
  let (first, last) := splitName reg.name
  match E.passwordErrors reg.password reg.email first last with
  | [] => .ok ()
  | messages => .error (invalid [("password", messages.map .custom)])

/-- `RegisterSerializer.is_valid(raise_exception=True)`. -/
def validateRegistration {β : Type} (E : Env) (db : Db) (data : RequestData) :
    View β Registration := do
  let fields ← bodyFields data
  let email := (emailField E (fields.lookup "email")).andThen (validateRegisterEmail E db)
  let password := passwordField.run false (fields.lookup "password")
  let name := registerName.run false (fields.lookup "name")
  let errors := email.named "email" ++ password.named "password" ++ name.named "name"
  match email, password, name with
  | .value email, .value password, .value name =>
      let reg : Registration := ⟨email, password, name⟩
      validatePassword E reg
      .ok reg
  | _, _, _ => .error (invalid errors)

/-- `User.objects.create_user`: the columns' widths and the two uniqueness constraints on the
address are the database's to check. -/
def createUser {β : Type} (E : Env) (db : Db) (reg : Registration) (A : Ambient) :
    View β (Row User × Db) := do
  let (first, last) := splitName reg.name
  let email := storedEmail E reg.email
  require (fits 254 email && fits 150 first && fits 150 last && !emailTaken E db email) serverError
  let user : User :=
    { email := email, password := E.makePassword reg.password A.nonce, firstName := first,
      lastName := last, dateJoined := A.now }
  .ok (⟨db.users.nextId, user⟩, { db with users := db.users.insert user })

/-- **`RegisterView.create`.** The account is committed before the e-mail task is handed to the
broker. -/
def register (E : Env) (db : Db) (data : RequestData) (A : Ambient) : AccountView := do
  let reg ← validateRegistration E db data
  let (user, db) ← createUser E db reg A
  if A.brokerIsUp then .ok (⟨201, .data (User.serialize user)⟩, db) else .ok (serverError, db)

theorem refused_of_validateRegistration {β : Type} {E : Env} {db : Db} {data : RequestData}
    {r : Response β} (h : validateRegistration E db data = .error r) : 400 ≤ r.status := by
  refine refused_bind (fun r => refused_of_bodyFields) (fun fields r h => ?_) r h
  simp only at h
  split at h
  · refine refused_bind (fun r h => ?_) (fun _ r h => ?_) r h
    · unfold validatePassword at h
      simp only at h
      split at h
      · cases h
      · cases h
        exact Nat.le_refl 400
    · cases h
  · cases h
    exact Nat.le_refl 400

/-- A registration that raises is an error. -/
theorem refused_of_register {E : Env} {db : Db} {data : RequestData} {A : Ambient}
    {r : Response UserData} (h : register E db data A = .error r) : 400 ≤ r.status := by
  refine refused_bind (fun r => refused_of_validateRegistration) (fun reg r h => ?_) r h
  refine refused_bind (fun r h => ?_) (fun out r h => ?_) r h
  · refine refused_bind (refused_require (Nat.le_add_right 400 100)) (fun _ r h => ?_) r h
    cases h
  · simp only at h
    split at h
    · cases h
    · cases h

/-- The account a registration creates: active, under an address that no other account has. -/
theorem createUser_eq_ok {β : Type} {E : Env} {db db' : Db} {reg : Registration} {A : Ambient}
    {user : Row User} (h : createUser (β := β) E db reg A = .ok (user, db')) :
    db' = { db with users := db.users.insert user.val } ∧ user.id = db.users.nextId ∧
      user.val.email = storedEmail E reg.email ∧
      user.val.password = E.makePassword reg.password A.nonce ∧ user.val.isActive = true ∧
      fits 254 user.val.email = true ∧ emailTaken E db user.val.email = false := by
  unfold createUser at h
  generalize splitName reg.name = names at h
  generalize storedEmail E reg.email = email at h ⊢
  obtain ⟨_, hfits, h⟩ := bind_eq_ok.mp h
  obtain ⟨rfl, rfl⟩ := Prod.mk.inj (Except.ok.inj h)
  have hfits := require_eq_ok.mp hfits
  rw [Bool.and_eq_true, Bool.and_eq_true, Bool.and_eq_true, Bool.not_eq_true'] at hfits
  exact ⟨rfl, rfl, rfl, rfl, rfl, hfits.1.1.1, hfits.2⟩

/-- A new account has to be verified. -/
theorem isEmailVerified_of_createUser {β : Type} {E : Env} {db db' : Db} {reg : Registration}
    {A : Ambient} {user : Row User} (h : createUser (β := β) E db reg A = .ok (user, db')) :
    user.val.isEmailVerified = false := by
  unfold createUser at h
  obtain ⟨_, -, h⟩ := bind_eq_ok.mp h
  obtain ⟨rfl, -⟩ := Prod.mk.inj (Except.ok.inj h)
  rfl

theorem exists_createUser_iff {β : Type} {E : Env} {db : Db} {reg : Registration} {A : Ambient} :
    (∃ out, createUser (β := β) E db reg A = .ok out) ↔
      fits 254 (storedEmail E reg.email) = true ∧ fits 150 (splitName reg.name).1 = true ∧
        fits 150 (splitName reg.name).2 = true ∧
        emailTaken E db (storedEmail E reg.email) = false := by
  unfold createUser
  generalize splitName reg.name = names
  generalize storedEmail E reg.email = email
  constructor
  · rintro ⟨out, h⟩
    obtain ⟨_, hfits, -⟩ := bind_eq_ok.mp h
    simpa [and_assoc] using require_eq_ok.mp hfits
  · rintro ⟨hemail, hfirst, hlast, hfree⟩
    simp [require, hemail, hfirst, hlast, hfree]

/-- A registration that every check lets through, and whose account the database takes. -/
structure RegistrationDue (E : Env) (db : Db) (data : RequestData) (reg : Registration) :
    Prop where
  fields    : validateRegistration (β := UserData) E db data = .ok reg
  width     : fits 254 (storedEmail E reg.email) = true
  firstName : fits 150 (splitName reg.name).1 = true
  lastName  : fits 150 (splitName reg.name).2 = true
  free      : emailTaken E db (storedEmail E reg.email) = false

section

variable {E : Env} {db db' : Db} {data : RequestData} {A : Ambient} {r : Response UserData}

/-- **When a registration does not raise.** The account is stored then, and the answer is the
broker's to decide. -/
theorem register_eq_ok :
    register E db data A = .ok (r, db') ↔
      ∃ reg user, RegistrationDue E db data reg ∧
        createUser (β := UserData) E db reg A = .ok (user, db') ∧
        r = if A.brokerIsUp then ⟨201, .data (User.serialize user)⟩ else serverError := by
  constructor
  · intro h
    obtain ⟨reg, hreg, h⟩ := bind_eq_ok.mp h
    obtain ⟨⟨user, after⟩, hcreate, h⟩ := bind_eq_ok.mp h
    obtain ⟨hwidth, hfirst, hlast, hfree⟩ := exists_createUser_iff.mp ⟨_, hcreate⟩
    refine ⟨reg, user, ⟨hreg, hwidth, hfirst, hlast, hfree⟩, ?_⟩
    simp only at h
    split at h
    · next hbroker =>
      cases h
      exact ⟨hcreate, (if_pos hbroker).symm⟩
    · next hbroker =>
      cases h
      exact ⟨hcreate, (if_neg hbroker).symm⟩
  · rintro ⟨reg, user, hdue, hcreate, rfl⟩
    simp only [register, hdue.fields, hcreate, ok_bind]
    cases A.brokerIsUp with
    | true => rfl
    | false => rfl

theorem RegistrationDue.exists_register {reg : Registration} (h : RegistrationDue E db data reg) :
    ∃ out, register E db data A = .ok out := by
  obtain ⟨⟨user, after⟩, hcreate⟩ := (exists_createUser_iff (β := UserData) (A := A)).mpr
    ⟨h.width, h.firstName, h.lastName, h.free⟩
  exact ⟨_, register_eq_ok.mpr ⟨reg, user, h, hcreate, rfl⟩⟩

/-- **What a registration can leave behind**: one account more. -/
theorem register_cases (h : register E db data A = .ok (r, db')) :
    ∃ reg user, validateRegistration (β := UserData) E db data = .ok reg ∧
      createUser (β := UserData) E db reg A = .ok (user, db') := by
  obtain ⟨reg, user, hdue, hcreate, -⟩ := register_eq_ok.mp h
  exact ⟨reg, user, hdue.fields, hcreate⟩

end

end Bastiq
