import Bastiq.Accounts.Auth
import Bastiq.Organizations.Slugs

/-!
# What fits the columns

The columns of an account and of an invitation have a width, and the serializers of the two requests
set none: they are written field by field and not derived from the models. So what decides is what
was sent, once it is trimmed, lower-cased and, for a name, taken apart.
-/

namespace Bastiq

open Relational View

/-! ## The two parts of a name -/

/-- The first word of a trimmed name, and what comes behind the whitespace that ends it. -/
structure IsSplit (cs first rest : List Char) : Prop where
  parts : ∃ gap, cs = first ++ gap ++ rest ∧ (∀ c ∈ gap, Python.isSpace c = true) ∧
    (gap = [] → rest = [])
  word  : ∀ c ∈ first, Python.isSpace c = false
  start : ∀ c ∈ rest.head?, Python.isSpace c = false

/-- There is one way to take a name apart, which is the one of `_split_name`. -/
theorem isSplit_iff {cs first rest : List Char} :
    IsSplit cs first rest ↔ first = cs.takeWhile (!Python.isSpace ·) ∧
      rest = (cs.dropWhile (!Python.isSpace ·)).dropWhile Python.isSpace := by
  constructor
  · rintro ⟨⟨gap, rfl, hgap, hnone⟩, hword, hstart⟩
    have hfirst : ∀ c ∈ first, (!Python.isSpace c) = true := fun c hc => by simp [hword c hc]
    rw [List.append_assoc, List.takeWhile_append_of_pos hfirst, List.dropWhile_append_of_pos hfirst]
    cases gap with
    | nil => simp [hnone rfl]
    | cons c gap =>
        obtain ⟨hspace, hgap⟩ := List.forall_mem_cons.mp hgap
        simp only [List.cons_append, List.takeWhile_cons, List.dropWhile_cons, hspace,
          Bool.not_true, Bool.false_eq_true, if_false, List.append_nil, if_true, true_and,
          List.dropWhile_append_of_pos hgap]
        cases rest with
        | nil => rfl
        | cons d rest => simp [hstart d rfl]
  · rintro ⟨rfl, rfl⟩
    refine ⟨⟨(cs.dropWhile (!Python.isSpace ·)).takeWhile Python.isSpace, ?_, ?_, ?_⟩, ?_, ?_⟩
    · rw [List.append_assoc, List.takeWhile_append_dropWhile, List.takeWhile_append_dropWhile]
    · exact fun c hc => List.mem_takeWhile_imp hc
    · intro hnone
      -- what the word ends at is whitespace
      cases hbehind : cs.dropWhile (!Python.isSpace ·) with
      | nil => rfl
      | cons c behind =>
          have hspace := List.head?_dropWhile_not (!Python.isSpace ·) cs
          rw [hbehind] at hspace hnone
          simp only [List.head?_cons, Bool.not_eq_false', List.takeWhile_cons] at hspace hnone
          simp [hspace] at hnone
    · exact fun c hc => by simpa using List.mem_takeWhile_imp hc
    · intro c hc
      have hword := List.head?_dropWhile_not Python.isSpace (cs.dropWhile (!Python.isSpace ·))
      rw [Option.mem_def.mp hc] at hword
      simpa using hword

/-- Both parts have at most 150 characters. -/
def ShortName (name : String) : Prop :=
  ∃ first rest, IsSplit (Python.strip name).toList first rest ∧ first.length ≤ 150 ∧
    rest.length ≤ 150

theorem shortName_iff {name : String} :
    ShortName name ↔ (splitName name).1.length ≤ 150 ∧ (splitName name).2.length ≤ 150 := by
  simp only [ShortName, isSplit_iff, splitName, ← String.length_toList, String.toList_ofList]
  constructor
  · rintro ⟨first, rest, hparts, hfirst, hrest⟩
    rw [hparts.1] at hfirst
    rw [hparts.2] at hrest
    exact ⟨hfirst, hrest⟩
  · rintro ⟨hfirst, hrest⟩
    exact ⟨_, _, ⟨rfl, rfl⟩, hfirst, hrest⟩

/-! ## Registration -/

/-- The row `RegisterSerializer.create` writes. -/
def newUser (E : Env) (reg : Registration) (A : Ambient) : User :=
  { email := storedEmail E reg.email, password := E.makePassword reg.password A.nonce,
    firstName := (splitName reg.name).1, lastName := (splitName reg.name).2, dateJoined := A.now }

@[simp] theorem newUser_email (E : Env) (reg : Registration) (A : Ambient) :
    (newUser E reg A).email = storedEmail E reg.email := by
  dsimp only [newUser]

@[simp] theorem newUser_firstName (E : Env) (reg : Registration) (A : Ambient) :
    (newUser E reg A).firstName = (splitName reg.name).1 := by
  dsimp only [newUser]

@[simp] theorem newUser_lastName (E : Env) (reg : Registration) (A : Ambient) :
    (newUser E reg A).lastName = (splitName reg.name).2 := by
  dsimp only [newUser]

/-- The widths of `0001_initial`. -/
structure FitsColumns (user : User) : Prop where
  email     : user.email.length ≤ 254
  firstName : user.firstName.length ≤ 150
  lastName  : user.lastName.length ≤ 150

/-- The name a body has, trimmed. -/
def sentName (data : RequestData) : Option String :=
  match data with
  | .json v => match v.fields with
    | .ok fields => (registerName.run false (fields.lookup "name")).value?
    | .error _ => none
  | .unparsable _ _ _ => none

section Registration

variable {β : Type} {E : Env} {db : Db} {data : RequestData} {reg : Registration}

/-- A text field trims what it reads. -/
theorem strip_of_run {input : Option Json} {value : String}
    (h : textField.run false input = .value value) : Python.strip value = value := by
  have hconvert : ∀ {text}, textField.convert text = .value value → Python.strip value = value := by
    intro text h
    unfold CharField.convert at h
    simp only at h
    split at h
    · cases h
      exact Python.strip_strip text
    · cases h
  unfold CharField.run at h
  split at h
  · cases h
  · cases h
  · split at h
    · cases h
    · exact hconvert h
  · exact hconvert h
  · exact hconvert h
  · cases h

theorem run_of_emailField {input : Option Json} {value : String}
    (h : emailField E input = .value value) : textField.run false input = .value value := by
  unfold emailField at h
  split at h
  · next typed htyped =>
    split at h
    · cases h
      exact htyped
    · cases h
  · cases h
  · exact h

theorem sentName_eq {fields : List (String × Json)} (h : bodyFields (β := β) data = .ok fields) :
    sentName data = (registerName.run false (fields.lookup "name")).value? := by
  cases data with
  | unparsable status message refused => cases h
  | json v =>
      simp only [bodyFields] at h
      split at h
      · next fields' hfields =>
        cases h
        simp [sentName, hfields]
      · cases h

/-- **What an accepted body is made of.** -/
theorem texts_of_validateRegistration (hlaws : LowerLaws E.lower)
    (h : validateRegistration (β := β) E db data = .ok reg) :
    ∃ email, sentText data "email" = some email ∧ reg.email = E.lower email ∧
      Python.strip (E.lower email) = E.lower email ∧ sentName data = some reg.name := by
  obtain ⟨fields, hfields, h⟩ := bind_eq_ok.mp h
  simp only at h
  split at h
  · next address password name haddress hpassword hname =>
    obtain ⟨_, -, h⟩ := bind_eq_ok.mp h
    cases h
    obtain ⟨typed, htyped, htaken⟩ := FieldResult.andThen_eq_value.mp haddress
    have hrun := run_of_emailField htyped
    have hstrip : Python.strip (E.lower typed) = E.lower typed := by
      rw [hlaws.strip, strip_of_run hrun]
    simp only [validateRegisterEmail] at htaken
    split at htaken
    · cases htaken
    · cases htaken
      refine ⟨typed, ?_, ?_, hstrip, ?_⟩
      · rw [sentText_eq hfields, hrun]
        rfl
      · show normalizeEmail E typed = _
        rw [normalizeEmail, strip_of_run hrun]
      · rw [sentName_eq hfields, hname]
        rfl
  · cases h

/-- **What an account is stored as.** -/
theorem newUser_of_validateRegistration (hlaws : LowerLaws E.lower) {A : Ambient}
    (h : validateRegistration (β := β) E db data = .ok reg) :
    ∃ email, sentText data "email" = some email ∧ (newUser E reg A).email = E.lower email ∧
      sentName data = some reg.name := by
  obtain ⟨email, hemail, hreg, hstrip, hname⟩ := texts_of_validateRegistration hlaws h
  refine ⟨email, hemail, ?_, hname⟩
  rw [newUser_email, hreg, storedEmail_of_lower hlaws hstrip (hlaws.idem email)]

/-- `createUser` stores this row, or none. -/
theorem createUser_eq_newUser {A : Ambient} {out : Row User × Db}
    (h : createUser (β := β) E db reg A = .ok out) :
    out = (⟨db.users.nextId, newUser E reg A⟩,
      { db with users := db.users.insert (newUser E reg A) }) := by
  unfold createUser at h
  unfold newUser
  generalize splitName reg.name = names at h ⊢
  generalize storedEmail E reg.email = email at h ⊢
  obtain ⟨_, -, h⟩ := bind_eq_ok.mp h
  exact (Except.ok.inj h).symm

/-- **A registration whose row is too wide is a 500.** -/
theorem register_of_wide {A : Ambient}
    (h : validateRegistration (β := UserData) E db data = .ok reg)
    (hwide : ¬FitsColumns (newUser E reg A)) : register E db data A = .error serverError := by
  have hrefused : (fits 254 (storedEmail E reg.email) && fits 150 (splitName reg.name).1 &&
      fits 150 (splitName reg.name).2 && !emailTaken E db (storedEmail E reg.email)) = false := by
    rw [Bool.eq_false_iff]
    intro hfits
    simp only [fits, Bool.and_eq_true, decide_eq_true_eq] at hfits
    obtain ⟨⟨⟨hemail, hfirst⟩, hlast⟩, -⟩ := hfits
    apply hwide
    constructor
    · rw [newUser_email]
      exact hemail.1
    · rw [newUser_firstName]
      exact hfirst.1
    · rw [newUser_lastName]
      exact hlast.1
  simp only [register, h, ok_bind, createUser, hrefused, require, Bool.false_eq_true, if_false,
    error_bind]

end Registration

/-! ## Invitations -/

section Invitation

variable {β : Type} {E : Env} {data : RequestData} {email : String} {role : Role}

/-- The address an accepted body invites. -/
theorem text_of_validateInvitation (h : validateInvitation (β := β) E data = .ok (email, role)) :
    ∃ typed, sentText data "email" = some typed ∧ email = E.lower typed := by
  obtain ⟨fields, hfields, h⟩ := bind_eq_ok.mp h
  simp only at h
  split at h
  · next address role' haddress hrole =>
    cases h
    obtain ⟨typed, htyped, hlower⟩ := FieldResult.andThen_eq_value.mp haddress
    have hrun := run_of_emailField htyped
    cases hlower
    refine ⟨typed, ?_, ?_⟩
    · rw [sentText_eq hfields, hrun]
      rfl
    · rw [normalizeEmail, strip_of_run hrun]
  · cases h

/-- An invitation to an address that is too long is refused by the database. -/
theorem insertInvitation_of_wide {db : Db} {i : Invitation} (hwide : ¬i.email.length ≤ 254) :
    insertInvitation (β := β) db i = .error serverError := by
  have hfits : fits 254 i.email = false := by simp [fits, hwide]
  simp only [insertInvitation, hfits, Bool.false_and, require, Bool.false_eq_true, if_false,
    error_bind]

end Invitation

/-! ## What fits -/

/-- The address of a body, as it is stored, fits its column. -/
def FitsAddress (E : Env) (data : RequestData) : Prop :=
  ∀ email, sentText data "email" = some email → (E.lower email).length ≤ 254

theorem fitsAddress_iff {E : Env} {data : RequestData} {email : String}
    (h : sentText data "email" = some email) :
    FitsAddress E data ↔ (E.lower email).length ≤ 254 := by
  constructor
  · intro hfits
    exact hfits email h
  · intro hlength email' h'
    rw [h] at h'
    cases h'
    exact hlength

/-- **When accepted input fits the tables.** For every body that registration accepts and every body
that inviting accepts: exactly if the address has at most 254 characters in lower case and, for a
registration, the first word of the name and what is behind it have at most 150 each. -/
theorem accepted_input_fits_iff {E : Env} (hlaws : LowerLaws E.lower) :
    (∀ db data reg A, validateRegistration (β := UserData) E db data = .ok reg →
      (FitsColumns (newUser E reg A) ↔
        FitsAddress E data ∧ ∀ name, sentName data = some name → ShortName name)) ∧
    (∀ data email role, validateInvitation (β := OrganizationPayload) E data = .ok (email, role) →
      ∀ org user A, (newInvitation E org user email role A).email.length ≤ 254 ↔
        FitsAddress E data) := by
  constructor
  · intro db data reg A h
    obtain ⟨email, hsent, hemail, hname⟩ := newUser_of_validateRegistration (A := A) hlaws h
    have hnames : (∀ name, sentName data = some name → ShortName name) ↔ ShortName reg.name := by
      simp [hname]
    rw [fitsAddress_iff hsent, hnames, shortName_iff]
    constructor
    · rintro ⟨hwidth, hfirst, hlast⟩
      rw [hemail] at hwidth
      rw [newUser_firstName] at hfirst
      rw [newUser_lastName] at hlast
      exact ⟨hwidth, hfirst, hlast⟩
    · rintro ⟨hwidth, hfirst, hlast⟩
      constructor
      · rw [hemail]
        exact hwidth
      · rw [newUser_firstName]
        exact hfirst
      · rw [newUser_lastName]
        exact hlast
  · intro data email role h org user A
    obtain ⟨typed, hsent, rfl⟩ := text_of_validateInvitation h
    rw [fitsAddress_iff hsent]
    rfl

/-! ## Long texts -/

/-- Django's validator takes no address of more than 320 characters. -/
def Env.limited : Env :=
  { Env.ascii with validEmail := fun s => s.toList.contains '@' && decide (s.length ≤ 320) }

theorem splitName_letters (n : Nat) : (splitName (letters n)).1 = letters n := by
  have hletter : (!Python.isSpace 'a') = true := by decide
  simp only [splitName, strip_letters, toList_letters]
  rw [List.takeWhile_replicate, if_pos hletter]
  rfl

theorem registerName_letters {n : Nat} (hn : 0 < n) :
    registerName.run false (some (.str (letters n))) = .value (letters n) := by
  simp only [CharField.run, registerName, strip_letters, letters_ne_blank hn, Bool.false_eq_true,
    if_false, CharField.convert, CharField.validators, letters_hold_no_nul, List.nil_append]

/-- An address of `n + 5` characters. -/
def longAddress (n : Nat) : String := letters n ++ "@x.io"

theorem toList_longAddress (n : Nat) :
    (longAddress n).toList = List.replicate n 'a' ++ ['@', 'x', '.', 'i', 'o'] := by
  rw [longAddress, String.toList_append, toList_letters]
  rfl

theorem length_longAddress (n : Nat) : (longAddress n).length = n + 5 := by
  rw [← String.length_toList, toList_longAddress, List.length_append, List.length_replicate]
  rfl

/-- What holds of its letters holds of all of it. -/
theorem forall_mem_longAddress {n : Nat} {p : Char → Bool}
    (hall : ['a', '@', 'x', '.', 'i', 'o'].all p = true) :
    ∀ c ∈ (longAddress n).toList, p c = true := by
  have h := List.all_eq_true.mp hall
  rw [toList_longAddress]
  intro c hc
  rcases List.mem_append.mp hc with hc | hc
  · rw [List.eq_of_mem_replicate hc]
    exact h 'a' List.mem_cons_self
  · exact h c (List.mem_cons_of_mem _ hc)

theorem strip_longAddress (n : Nat) : Python.strip (longAddress n) = longAddress n := by
  have hletters : ∀ c ∈ (longAddress n).toList, (!Python.isSpace c) = true :=
    forall_mem_longAddress (by decide)
  rw [Python.strip, Python.trim_of_forall, String.ofList_toList]
  exact fun c hc => by simpa using hletters c hc

theorem emailField_longAddress {n : Nat} (hmax : n ≤ 315) :
    emailField Env.limited (some (.str (longAddress n))) = .value (longAddress n) := by
  have hnul : (longAddress n).toList.contains (Char.ofNat 0) = false := by
    rw [Bool.eq_false_iff]
    intro h
    have hletter : (Char.ofNat 0 != Char.ofNat 0) = true :=
      forall_mem_longAddress (p := (· != Char.ofNat 0)) (by decide) _ (List.contains_iff_mem.mp h)
    simp at hletter
  have hblank : Python.strip (longAddress n) ≠ "" := by
    intro h
    have hlength := congrArg String.length h
    rw [strip_longAddress, length_longAddress, String.length_empty] at hlength
    omega
  have hvalid : Env.limited.validEmail (longAddress n) = true := by
    simp [Env.limited, toList_longAddress, length_longAddress]
    omega
  have hrun : ({} : CharField).run false (some (.str (longAddress n))) = .value (longAddress n) :=
    CharField.run_str_eq_value.mpr ⟨(strip_longAddress n).symm, hblank, by rwa [strip_longAddress]⟩
  simp only [emailField, hrun, hvalid, if_true]

theorem normalizeEmail_longAddress (n : Nat) :
    normalizeEmail Env.limited (longAddress n) = longAddress n := by
  rw [normalizeEmail, strip_longAddress]
  show String.ofList ((longAddress n).toList.map Char.toLower) = longAddress n
  rw [toList_longAddress, List.map_append, List.map_replicate]
  exact (String.ofList_toList.symm.trans (congrArg String.ofList (toList_longAddress n))).symm

/-- A registration is accepted under any name. -/
theorem validateRegistration_named {name : String}
    (hname : registerName.run false (some (.str name)) = .value name) :
    validateRegistration (β := UserData) Env.limited {} (.json (.obj [("email", .str "a@x.io"),
      ("password", .str "password"), ("name", .str name)])) = .ok ⟨"a@x.io", "password", name⟩ := by
  have hemail : (emailField Env.limited (some (.str "a@x.io"))).andThen
      (validateRegisterEmail Env.limited {}) = .value "a@x.io" := by rfl
  have hpassword : passwordField.run false (some (.str "password")) = .value "password" := by rfl
  have hgood : ∀ first last, Env.limited.passwordErrors "password" "a@x.io" first last = [] := by
    intro first last
    rfl
  simp [validateRegistration, bodyFields, Json.fields, List.lookup_cons, hemail, hpassword, hname,
    validatePassword, hgood]

/-- An invitation goes to any address. -/
theorem validateInvitation_address {address : String}
    (hemail : emailField Env.limited (some (.str address)) = .value address)
    (hnormal : normalizeEmail Env.limited address = address) :
    validateInvitation (β := OrganizationPayload) Env.limited
      (.json (.obj [("email", .str address)])) = .ok (address, .member) := by
  have hrole : invitationRole.run none = .value .member := rfl
  simp [validateInvitation, bodyFields, Json.fields, List.lookup_cons, hemail, hnormal, hrole,
    FieldResult.andThen]

/-- A registration under a name of 151 letters, and an invitation to an address of 259
characters. -/
theorem long_input_overflows :
    (∃ reg, validateRegistration (β := UserData) Env.limited {} (.json (.obj [("email",
        .str "a@x.io"), ("password", .str "password"), ("name", .str (letters 151))])) = .ok reg ∧
      ∀ A, ¬FitsColumns (newUser Env.limited reg A)) ∧
    (∃ email role, validateInvitation (β := OrganizationPayload) Env.limited
        (.json (.obj [("email", .str (longAddress 254))])) = .ok (email, role) ∧
      ∀ org user A, ¬(newInvitation Env.limited org user email role A).email.length ≤ 254) := by
  refine ⟨⟨_, validateRegistration_named (registerName_letters (by omega)), ?_⟩, ?_⟩
  · intro A h
    have hwidth := h.firstName
    rw [newUser_firstName, splitName_letters, length_letters] at hwidth
    omega
  · refine ⟨_, _, validateInvitation_address (emailField_longAddress (by omega))
      (normalizeEmail_longAddress 254), ?_⟩
    intro org user A h
    simp only [newInvitation, length_longAddress] at h
    omega

/-- Ada's registration fits. -/
theorem accepted_input_fits_ada :
    let data := texts [("email", "Ada@x.io"), ("password", "password"), ("name", "Ada Lovelace")]
    validateRegistration (β := UserData) Env.ascii {} data =
        .ok ⟨"ada@x.io", "password", "Ada Lovelace"⟩ ∧
      ∀ A, FitsColumns (newUser Env.ascii ⟨"ada@x.io", "password", "Ada Lovelace"⟩ A) := by
  intro data
  have haccepted : validateRegistration (β := UserData) Env.ascii {} data =
      .ok ⟨"ada@x.io", "password", "Ada Lovelace"⟩ := by rfl
  have haddress : sentText data "email" = some "Ada@x.io" := by rfl
  have hname : sentName data = some "Ada Lovelace" := by rfl
  refine ⟨haccepted, fun A => ?_⟩
  refine ((accepted_input_fits_iff lowerLaws_ascii).1 {} data _ A haccepted).mpr ⟨?_, ?_⟩
  · rw [fitsAddress_iff haddress]
    decide
  · intro name h
    rw [hname] at h
    cases h
    rw [shortName_iff]
    decide

end Bastiq
