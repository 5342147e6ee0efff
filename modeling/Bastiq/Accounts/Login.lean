import Bastiq.Api

/-!
# Registering and logging in

Registration stores an address in lower case. `POST /auth/login` looks the address up as it was
typed: the token serializer trims it, and `ModelBackend` compares it with the column exactly. So the
two meet in the one spelling that has no upper-case letter in it.
-/

namespace Bastiq

open Relational View Transition

/-! ## Logging in -/

/-- The claims of the tokens a login is answered with. -/
structure TokenClaims where
  user            : Nat
  email           : String
  isEmailVerified : Bool
  deriving DecidableEq, Repr

/-- `TokenObtainPairSerializer.fields[USERNAME_FIELD]`. -/
def loginEmail : CharField := {}

/-- `PasswordField`. -/
def loginPassword : CharField := {}

/-- `ModelBackend.authenticate`: the account under the address, if the password is right and the
account is active. -/
def modelBackend (checkPassword : String → String → Bool) (db : Db) (email password : String) :
    Option (Row User) :=
  (db.users.first? fun u => u.val.email == email).filter fun u =>
    checkPassword password u.val.password && u.val.isActive

/-- `LoginSerializer.get_token`. -/
def tokenClaims (u : Row User) : TokenClaims := ⟨u.id, u.val.email, u.val.isEmailVerified⟩

/-- **`LoginView.post`.** The login is recorded before the verification gate is asked, and stays so
when the gate refuses. -/
def login (checkPassword : String → String → Bool) (requireVerified : Bool) (db : Db)
    (data : RequestData) (now : Int) : View TokenClaims (Response TokenClaims × Db) := do
  let fields ← bodyFields data
  let email := loginEmail.run false (fields.lookup "email")
  let password := loginPassword.run false (fields.lookup "password")
  match email, password with
  | .value email, .value password =>
      let user ← orElse (modelBackend checkPassword db email password)
        ⟨401, .detail "No active account found with the given credentials"⟩
      let after := { db with users := db.users.modify user.id (AccountWrite.loggedIn now).apply }
      if requireVerified && !user.val.isEmailVerified then
        .ok (invalid [("non_field_errors", [.custom "Email address is not verified."])], after)
      else .ok (⟨200, .data (tokenClaims user)⟩, after)
  | _, _ => .error (invalid (email.named "email" ++ password.named "password"))

/-! ## The address an account is registered under -/

/-- What `str.lower` does to every text: it is done once and for all, it leaves whitespace and the
parts of a text that is in lower case as they are, and it makes nothing vanish. -/
structure LowerLaws (lower : String → String) : Prop where
  idem     : ∀ s, lower (lower s) = lower s
  strip    : ∀ s, Python.strip (lower s) = lower (Python.strip s)
  part     : ∀ a b, lower (a ++ b) = a ++ b → lower b = b
  nonempty : ∀ s, lower s = "" → s = ""

section Address

variable {E : Env}

/-- An address in lower case is stored as it is. -/
theorem storedEmail_of_lower (hlaws : LowerLaws E.lower) {email : String}
    (hstrip : Python.strip email = email) (hlower : E.lower email = email) :
    storedEmail E email = email := by
  unfold storedEmail
  rw [hstrip]
  let domain := (email.toList.reverse.takeWhile (· != '@')).reverse
  let account := email.toList.take (email.toList.length - domain.length)
  have hsuffix : domain <:+ email.toList := by
    rw [← List.reverse_prefix, List.reverse_reverse]
    exact List.takeWhile_prefix _
  have hsplit : account ++ domain = email.toList := by
    obtain ⟨pre, hpre⟩ := hsuffix
    have hlength : email.toList.length - domain.length = pre.length := by
      rw [← hpre, List.length_append]
      omega
    show email.toList.take _ ++ domain = _
    rw [hlength, ← hpre, List.take_left]
  have hwhole : String.ofList account ++ String.ofList domain = email := by
    rw [← String.ofList_append, hsplit, String.ofList_toList]
  have hdomain : E.lower (String.ofList domain) = String.ofList domain :=
    hlaws.part (String.ofList account) _ (by rw [hwhole, hlower])
  show (if account.isEmpty then E.lower (String.ofList email.toList)
    else E.lower (String.ofList account ++ E.lower (String.ofList domain))) = email
  -- lowering the part after the last `@` first makes no difference
  rw [hdomain, hwhole, String.ofList_toList, ite_self, hlower]

/-- The body has these two texts. -/
def Carries (data : RequestData) (email password : String) : Prop :=
  ∃ fields, data = .json (.obj fields) ∧ fields.lookup "email" = some (.str email) ∧
    fields.lookup "password" = some (.str password)

/-- What a registration makes of the two. -/
theorem validateRegistration_eq_ok {β : Type} {db : Db} {data : RequestData}
    {email password : String} (hsent : Carries data email password) {reg : Registration}
    (h : validateRegistration (β := β) E db data = .ok reg) :
    reg.email = E.lower (Python.strip email) ∧ reg.password = Python.strip password ∧
      Python.strip email ≠ "" ∧
      loginPassword.run false (some (.str password)) = .value (Python.strip password) := by
  obtain ⟨fields, rfl, hemail, hpassword⟩ := hsent
  have hfields : bodyFields (β := β) (.json (.obj fields)) = .ok fields := rfl
  simp only [validateRegistration, hfields, ok_bind, hemail, hpassword] at h
  split at h
  · next address text name haddress htext _ =>
    obtain ⟨_, -, h⟩ := bind_eq_ok.mp h
    cases h
    obtain ⟨rfl, hblank, hnul⟩ := CharField.run_str_eq_value.mp htext
    obtain ⟨typed, htyped, htaken⟩ := FieldResult.andThen_eq_value.mp haddress
    obtain ⟨rfl, hemail⟩ := emailField_eq_value htyped
    simp only [validateRegisterEmail] at htaken
    split at htaken
    · cases htaken
    · cases htaken
      refine ⟨?_, rfl, hemail, CharField.run_str_eq_value.mpr ⟨rfl, hblank, hnul⟩⟩
      show normalizeEmail E (Python.strip email) = _
      rw [normalizeEmail, Python.strip_strip]
  · cases h

end Address

/-! ## The account, from its registration on -/

/-- The account `id`: active, with that password, and alone under its address. -/
structure Registered (E : Env) (id : Nat) (email hash : String) (db : Db) : Prop where
  account : ∃ u ∈ db.users.rows, u.id = id ∧ u.val.email = email ∧ u.val.password = hash ∧
    u.val.isActive = true
  alone   : ∀ v ∈ db.users.rows, E.lower v.val.email = E.lower email → v.id = id

section Account

variable {E : Env} {db : Db} {c : Call} {id : Nat} {email hash : String}

/-- A registration that is answered 201. -/
theorem registered_of_respond {data : RequestData} (hregister : c.request = .register data)
    (h201 : (c.respond E db).1 = 201) :
    ∃ reg, validateRegistration (β := UserData) E db data = .ok reg ∧
      fits 254 (storedEmail E reg.email) = true ∧
      Registered E db.users.nextId (storedEmail E reg.email)
        (E.makePassword reg.password c.ambient.nonce) (c.step E db) := by
  simp only [Call.step, Call.respond, hregister] at h201 ⊢
  cases hview : Bastiq.register E db data c.ambient with
  | error r =>
      -- what raises is answered 400 or more
      have hrefused := refused_of_register hview
      rw [hview] at h201
      have hstatus : r.status = 201 := h201
      omega
  | ok out =>
      obtain ⟨reg, user, hreg, hcreate⟩ := register_cases hview
      obtain ⟨hdb, hid, hemail, hhash, hactive, hfits, hnew⟩ := createUser_eq_ok hcreate
      refine ⟨reg, hreg, hemail ▸ hfits, ?_⟩
      have hrow : (⟨db.users.nextId, user.val⟩ : Row User) = user := by rw [← hid]
      rw [View.perform_ok, hdb, ← hemail, ← hhash]
      constructor
      · refine ⟨user, Table.mem_insert.mpr (.inr hrow.symm), hid, rfl, rfl, hactive⟩
      · intro v hv heq
        rcases Table.mem_insert.mp hv with hv | rfl
        · have hfree := Table.any_eq_false_iff.mp hnew v hv
          exact absurd (Env.iexact_iff.mpr heq) (Bool.eq_false_iff.mp hfree)
        · rfl

/-- The account stays as it is, unless its password is changed. -/
theorem Registered.step (h : Registered E id email hash db)
    (hkept : ∀ new, c.request ≠ .account id (.password new)) :
    Registered E id email hash (c.step E db) := by
  have hchange := c.change E db
  generalize c.step E db = db' at hchange ⊢
  have hsame : db'.users = db.users → Registered E id email hash db' := by
    intro husers
    constructor
    · rw [husers]
      exact h.account
    · rw [husers]
      exact h.alone
  cases hchange with
  | registered hnew =>
      constructor
      · obtain ⟨u, hu, hrest⟩ := h.account
        exact ⟨u, Table.mem_insert.mpr (.inl hu), hrest⟩
      · intro v hv heq
        rcases Table.mem_insert.mp hv with hv | rfl
        · exact h.alone v hv heq
        · -- the new account would have the address of this one
          obtain ⟨u, hu, -, rfl, -⟩ := h.account
          have hfree := Table.any_eq_false_iff.mp hnew u hu
          exact absurd (Env.iexact_iff.mpr heq.symm) (Bool.eq_false_iff.mp hfree)
  -- none of the writes touches an address
  | @accountWritten user w hrequest =>
      constructor
      · obtain ⟨u, hu, hid, hemail, hhash, hactive⟩ := h.account
        by_cases huser : u.id = user
        · refine ⟨⟨user, w.apply u.val⟩, Table.mem_modify.mpr (.inr ⟨u, hu, huser, rfl⟩),
            huser.symm.trans hid, ?_⟩
          cases w with
          | verified => exact ⟨hemail, hhash, hactive⟩
          | loggedIn now => exact ⟨hemail, hhash, hactive⟩
          | password new =>
              rw [← huser, hid] at hrequest
              exact absurd hrequest (hkept new)
        · exact ⟨u, Table.mem_modify.mpr (.inl ⟨hu, huser⟩), hid, hemail, hhash, hactive⟩
      · intro v hv heq
        rcases Table.mem_modify.mp hv with ⟨hv, -⟩ | ⟨u, hu, huser, rfl⟩
        · exact h.alone v hv heq
        · rw [AccountWrite.apply_email] at heq
          exact huser ▸ h.alone u hu heq
  | created _ _ hinsert =>
      obtain ⟨-, subs, rfl, -⟩ := insertOrganization_eq_ok hinsert
      exact hsame rfl
  | delivered _ _ hprocess =>
      obtain ⟨-, -, write, -, rfl⟩ := Delivery.process_eq_ok.mp hprocess
      exact hsame rfl
  | _ => exact hsame rfl

variable {checkPassword : String → String → Bool}

/-- Who types the address as it is stored is let in, and nobody else who types its letters. -/
theorem Registered.modelBackend (h : Registered E id email hash db) {typed password : String}
    (hcheck : checkPassword password hash = true) (hcase : E.lower typed = E.lower email) :
    (typed = email → ∃ u, modelBackend checkPassword db typed password = some u ∧ u.id = id) ∧
      (typed ≠ email → modelBackend checkPassword db typed password = none) := by
  obtain ⟨u, hu, hid, hemail, hhash, hactive⟩ := h.account
  -- whatever is found under the letters is the account
  have honly : ∀ v, (db.users.first? fun u => u.val.email == typed) = some v → v = u := by
    intro v hv
    have htyped : v.val.email = typed := by simpa using Table.pos_of_first? hv
    have hmem := Table.mem_of_first? hv
    apply db.users.eq_of_id_eq hmem hu
    rw [hid]
    apply h.alone v hmem
    rw [htyped, hcase]
  constructor
  · rintro rfl
    refine ⟨u, ?_, hid⟩
    rw [Bastiq.modelBackend, Option.filter_eq_some_iff]
    refine ⟨?_, by simp [hhash, hcheck, hactive]⟩
    cases hfirst : db.users.first? fun u => u.val.email == typed with
    | none =>
        have hnone := Table.first?_eq_none_iff.mp hfirst u hu
        simp [hemail] at hnone
    | some v => rw [honly v hfirst]
  · intro hne
    rw [Bastiq.modelBackend]
    cases hfirst : db.users.first? fun u => u.val.email == typed with
    | none => rfl
    | some v =>
        have htyped : v.val.email = typed := by simpa using Table.pos_of_first? hfirst
        rw [honly v hfirst, hemail] at htyped
        exact absurd htyped.symm hne

/-! ## Logging in with what was registered -/

/-- A login that finds the account is answered with its tokens, once the address is verified if it
has to be. -/
theorem login_found {data : RequestData} {typed password : String}
    (hsent : Carries data typed password)
    (hemail : loginEmail.run false (some (.str typed)) = .value (Python.strip typed))
    (hpassword : loginPassword.run false (some (.str password)) = .value (Python.strip password))
    {u : Row User}
    (hfound : Bastiq.modelBackend checkPassword db (Python.strip typed) (Python.strip password) =
      some u) (requireVerified : Bool)
    (hgate : requireVerified = true → u.val.isEmailVerified = true) (now : Int) :
    (perform db (login checkPassword requireVerified db data now)).1 =
      ⟨200, .data (tokenClaims u)⟩ := by
  obtain ⟨fields, rfl, htyped, hsecret⟩ := hsent
  have hfields : bodyFields (β := TokenClaims) (.json (.obj fields)) = .ok fields := rfl
  have hopen : ¬ (requireVerified && !u.val.isEmailVerified) = true := by
    simpa using hgate
  simp only [login, hfields, ok_bind, htyped, hsecret, hemail, hpassword, hfound, orElse_some]
  rw [if_neg hopen]
  rfl

/-- A login that finds nobody is not answered 200. -/
theorem login_unfound {data : RequestData} {typed password : String}
    (hsent : Carries data typed password)
    (hunfound : Bastiq.modelBackend checkPassword db (Python.strip typed)
      (Python.strip password) = none) (now : Int) :
    (perform db (login checkPassword false db data now)).1.status ≠ 200 := by
  obtain ⟨fields, rfl, htyped, hsecret⟩ := hsent
  have hfields : bodyFields (β := TokenClaims) (.json (.obj fields)) = .ok fields := rfl
  simp only [login, hfields, ok_bind, htyped, hsecret]
  split
  · next email secret hemail hpassword =>
    obtain ⟨rfl, -⟩ := CharField.run_str_eq_value.mp hemail
    obtain ⟨rfl, -⟩ := CharField.run_str_eq_value.mp hpassword
    rw [hunfound, orElse_none]
    show (401 : Nat) ≠ 200
    omega
  · show (400 : Nat) ≠ 200
    omega

/-- **When a login succeeds.** An account is registered with a 201, and then anything happens but a
change of its password. A login with the same password and an address that differs from the
registered one in letter case at most is answered 200 exactly when what was typed, trimmed, is in
lower case; and then the tokens are the account's. -/
theorem login_after_register_iff (E : Env) (hlaws : LowerLaws E.lower)
    (checkPassword : String → String → Bool)
    (hcheck : ∀ password salt, checkPassword password (E.makePassword password salt) = true)
    {db : Db} {c : Call} {data data' : RequestData} {email email' password : String}
    (hregister : c.request = .register data) (hsent : Carries data email password)
    (h201 : (c.respond E db).1 = 201) (between : List Call)
    (hkept : ∀ c' ∈ between, ∀ new, c'.request ≠ .account db.users.nextId (.password new))
    (hsent' : Carries data' email' password) (hcase : E.lower email' = E.lower email) (now : Int) :
    let after := run (Call.step E) (c.step E db) between
    let answer := (perform after (login checkPassword false after data' now)).1
    (answer.status = 200 ↔ E.lower (Python.strip email') = Python.strip email') ∧
      (answer.status = 200 → ∃ claims, answer.body = .data claims ∧
        claims.user = db.users.nextId) := by
  intro after answer
  obtain ⟨reg, hreg, hfits, hregistered⟩ := registered_of_respond hregister h201
  obtain ⟨hemail, hpassword, hblank, hfield⟩ := validateRegistration_eq_ok hsent hreg
  -- the stored address is the trimmed one in lower case, and so is what is typed, lowered
  have hstored : storedEmail E reg.email = E.lower (Python.strip email) := by
    rw [hemail]
    apply storedEmail_of_lower hlaws
    · rw [hlaws.strip, Python.strip_strip]
    · exact hlaws.idem _
  have hsame : E.lower (Python.strip email') = E.lower (Python.strip email) := by
    rw [← hlaws.strip, ← hlaws.strip, hcase]
  rw [hstored] at hfits
  rw [hstored, hpassword] at hregistered
  -- so the account is found under it for as long as its password is not changed
  have hafter : Registered E db.users.nextId (E.lower (Python.strip email))
      (E.makePassword (Python.strip password) c.ambient.nonce) after := by
    refine (states_of_each (fun db c hdb hc => hdb.step hc) hregistered ?_).last
    exact each_of_mem hkept _
  have hcase' : E.lower (Python.strip email') = E.lower (E.lower (Python.strip email)) := by
    rw [hlaws.idem, hsame]
  obtain ⟨hlets, hrefuses⟩ := hafter.modelBackend (hcheck (Python.strip password) c.ambient.nonce)
    hcase'
  have hiff : E.lower (Python.strip email') = Python.strip email' ↔
      Python.strip email' = E.lower (Python.strip email) := by
    rw [hsame]
    exact eq_comm
  by_cases htyped : Python.strip email' = E.lower (Python.strip email)
  · obtain ⟨u, hfound, hid⟩ := hlets htyped
    have hemail' : loginEmail.run false (some (.str email')) = .value (Python.strip email') := by
      apply CharField.run_str_eq_value.mpr
      refine ⟨rfl, ?_, ?_⟩
      · intro hempty
        exact hblank (hlaws.nonempty _ (htyped ▸ hempty))
      · -- the column holds it, so it has no null character
        rw [htyped]
        rw [fits, Bool.and_eq_true, Bool.not_eq_true'] at hfits
        exact hfits.2
    have hanswer : answer = ⟨200, .data (tokenClaims u)⟩ :=
      login_found hsent' hemail' hfield hfound false (by simp) now
    rw [hanswer]
    exact ⟨⟨fun _ => hiff.mpr htyped, fun _ => rfl⟩, fun _ => ⟨tokenClaims u, rfl, hid⟩⟩
  · have hanswer : answer.status ≠ 200 := login_unfound hsent' (hrefuses htyped) now
    constructor
    · exact iff_of_false hanswer (fun hlower => htyped (hiff.mp hlower))
    · intro h200
      exact absurd h200 hanswer

end Account

/-! ## Plain ASCII -/

/-- `check_password`, for the hashes of `Env.ascii`. -/
def Env.asciiCheck (password stored : String) : Bool :=
  ("$" ++ password).toList.isSuffixOf stored.toList

theorem asciiCheck_makePassword (password salt : String) :
    Env.asciiCheck password (Env.ascii.makePassword password salt) = true := by
  rw [Env.asciiCheck, List.isSuffixOf_iff_suffix]
  refine ⟨salt.toList, ?_⟩
  show salt.toList ++ ("$" ++ password).toList = (salt ++ "$" ++ password).toList
  rw [← String.toList_append, String.append_assoc]

theorem toNat_toLower (c : Char) :
    c.toLower.toNat = if 65 ≤ c.toNat ∧ c.toNat ≤ 90 then c.toNat + 32 else c.toNat := by
  have hupper : (c.val ≥ 'A'.val ∧ c.val ≤ 'Z'.val) ↔ (65 ≤ c.toNat ∧ c.toNat ≤ 90) := Iff.rfl
  unfold Char.toLower
  split
  · next h =>
    rw [if_pos (hupper.mp h)]
    have hle := (hupper.mp h).2
    show (c.val + 32).toNat = _
    rw [UInt32.toNat_add]
    show (c.toNat + 32) % 2 ^ 32 = _
    omega
  · next h => rw [if_neg fun h' => h (hupper.mpr h')]

theorem isSpace_toLower (c : Char) : Python.isSpace c.toLower = Python.isSpace c := by
  unfold Python.isSpace
  rw [toNat_toLower]
  split
  · next h =>
    rw [Bool.eq_iff_iff]
    simp only [Bool.or_eq_true, Bool.and_eq_true, decide_eq_true_eq, beq_iff_eq]
    omega
  · rfl

theorem trim_map_toLower (cs : List Char) :
    Python.trim Python.isSpace (cs.map Char.toLower) =
      (Python.trim Python.isSpace cs).map Char.toLower := by
  have hspace : Python.isSpace ∘ Char.toLower = Python.isSpace := funext isSpace_toLower
  simp only [Python.trim, List.dropWhile_map, ← List.map_reverse, hspace]

theorem lowerLaws_ascii : LowerLaws Env.ascii.lower where
  idem s := by
    have hlower : Char.toLower ∘ Char.toLower = Char.toLower := by
      funext c
      apply Char.toNat_inj.mp
      show c.toLower.toLower.toNat = c.toLower.toNat
      rw [toNat_toLower c.toLower, if_neg]
      rw [toNat_toLower]
      split
      · omega
      · next h => exact h
    simp only [Env.ascii, String.toList_ofList, List.map_map, hlower]
  strip s := by
    simp [Env.ascii, Python.strip, trim_map_toLower]
  part a b h := by
    have hmap : (a ++ b).toList.map Char.toLower = (a ++ b).toList := by
      rw [← String.toList_inj] at h
      simpa [Env.ascii] using h
    rw [String.toList_append, List.map_append] at hmap
    have hb := (List.append_inj hmap (List.length_map _)).2
    show String.ofList (b.toList.map Char.toLower) = b
    rw [hb, String.ofList_toList]
  nonempty s h := by
    rw [← String.toList_inj] at h ⊢
    simpa [Env.ascii] using h

/-! ## One address in two spellings -/

def credentials (email : String) : RequestData :=
  .json (.obj [("email", .str email), ("password", .str "long enough")])

theorem carries_credentials (email : String) : Carries (credentials email) email "long enough" :=
  ⟨_, rfl, rfl, rfl⟩

/-- The first account, under an address typed with a capital and a space. -/
def aliceRegisters : Call := ⟨none, .register (credentials " Alice@x.io"), ⟨0, "salt", true⟩⟩

/-- Her address is verified, and somebody else registers. -/
def meanwhile : List Call :=
  [⟨some 1, .account 1 .verified, ⟨5, "", true⟩⟩,
    ⟨none, .register (credentials "b@x.io"), ⟨6, "salt", true⟩⟩]

/-- The very strings that were registered are refused. -/
theorem login_refuses_registered_spelling :
    let registered := aliceRegisters.step Env.ascii Db.migrated
    let answer := (perform registered
      (login Env.asciiCheck false registered (credentials " Alice@x.io") 10)).1
    (aliceRegisters.respond Env.ascii Db.migrated).1 = 201 ∧ answer.status = 401 := by
  decide

theorem login_after_register_lowered :
    let after := run (Call.step Env.ascii) (aliceRegisters.step Env.ascii Db.migrated) meanwhile
    let answer := (perform after
      (login Env.asciiCheck false after (credentials " alice@x.io") 10)).1
    answer.status = 200 ∧ ∃ claims, answer.body = .data claims ∧ claims.user = 1 := by
  intro after answer
  have hkept : ∀ c ∈ meanwhile, ∀ new,
      c.request ≠ .account Db.migrated.users.nextId (.password new) := by
    intro c hc new hpassword
    rcases List.mem_pair.mp hc with rfl | rfl
    · cases hpassword
    · cases hpassword
  have h201 : (aliceRegisters.respond Env.ascii Db.migrated).1 = 201 := by decide
  have hlogin := login_after_register_iff Env.ascii lowerLaws_ascii Env.asciiCheck
    asciiCheck_makePassword (c := aliceRegisters) rfl (carries_credentials " Alice@x.io") h201
    meanwhile hkept (carries_credentials " alice@x.io") (by decide) 10
  have h200 : answer.status = 200 := hlogin.1.mpr (by decide)
  exact ⟨h200, hlogin.2 h200⟩

end Bastiq
