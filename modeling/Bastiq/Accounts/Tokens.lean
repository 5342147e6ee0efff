import Bastiq.Models

/-!
# Signed tokens

The links that verify an address and reset a password carry a token of `django.core.signing`: a
small dictionary, signed under a salt and stamped with the time. No table knows the tokens. A reset
token carries a fingerprint of the account as it was when the token was made, and is refused once
the account has another.
-/

namespace Bastiq

open Relational

/-! ## Signing -/

/-- The dictionaries that are signed. -/
structure TokenData where
  uid : Option Nat
  fp  : Option String := none
  deriving DecidableEq, Repr

/-- `django.core.signing`, the digest, and the lifetimes of the settings. -/
structure Signing where
  /-- `signing.dumps(data, salt=salt)`, at the clock value `now`. -/
  dumps : TokenData → (salt : String) → (now : Int) → String
  /-- `signing.loads(token, salt=salt, max_age=maxAge)`, at `now`; `none` is `BadSignature`. -/
  loads : String → (salt : String) → (maxAge now : Int) → Option TokenData
  /-- `hashlib.sha256(payload.encode()).hexdigest()[:20]`. -/
  digest : String → String
  /-- `datetime.isoformat()`. -/
  isoformat : Int → String
  /-- `EMAIL_VERIFICATION_TIMEOUT`. -/
  emailVerificationTimeout : Int
  /-- `PASSWORD_RESET_TIMEOUT`. -/
  passwordResetTimeout : Int

def emailVerifySalt : String := "bastiq.accounts.email-verify"

def passwordResetSalt : String := "bastiq.accounts.password-reset"

section Tokens

variable (S : Signing)

/-! ### Address verification -/

def generateEmailVerificationToken (user : Row User) (now : Int) : String :=
  S.dumps { uid := some user.id } emailVerifySalt now

/-- The key of the account in a valid token; a `TokenError` is its message. -/
def readEmailVerificationToken (token : String) (now : Int) : Except String Nat :=
  match S.loads token emailVerifySalt S.emailVerificationTimeout now with
  | none => .error "Invalid or expired verification token."
  | some data => match data.uid with
    | none => .error "Malformed verification token."
    | some uid => .ok uid

/-! ### Password reset -/

/-- The text that is hashed. -/
def passwordResetPayload (user : Row User) : String :=
  let lastLogin := match user.val.lastLogin with
    | none => ""
    | some time => S.isoformat time
  toString user.id ++ ":" ++ user.val.password ++ ":" ++ lastLogin

/-- A short hash that changes when the password or `last_login` changes. -/
def passwordResetFingerprint (user : Row User) : String := S.digest (passwordResetPayload S user)

def generatePasswordResetToken (user : Row User) (now : Int) : String :=
  S.dumps { uid := some user.id, fp := some (passwordResetFingerprint S user) } passwordResetSalt
    now

/-- The account of a valid token that was not used; a `TokenError` is its message. -/
def readPasswordResetToken (db : Db) (token : String) (now : Int) : Except String (Row User) :=
  match S.loads token passwordResetSalt S.passwordResetTimeout now with
  | none => .error "Invalid or expired reset token."
  | some data =>
      let fingerprint := data.fp.getD ""
      match data.uid with
      | none => .error "Malformed reset token."
      | some uid => match db.users.get? uid with
        | none => .error "Invalid reset token."
        | some user =>
            if passwordResetFingerprint S user == fingerprint then .ok user
            else .error "This reset token has already been used or has expired."

variable {S} in
theorem mem_of_readPasswordResetToken {db : Db} {token : String} {now : Int} {user : Row User}
    (h : readPasswordResetToken S db token now = .ok user) : user ∈ db.users.rows := by
  unfold readPasswordResetToken at h
  split at h
  · cases h
  · simp only at h
    split at h
    · cases h
    · split at h
      · cases h
      · next found hget =>
        split at h
        · cases h
          exact Table.mem_of_get? hget
        · cases h

end Tokens

/-! ## What signing promises -/

/-- What the two generators sign under each salt; nothing else is signed under them. -/
def isSigned (salt : String) (data : TokenData) : Bool :=
  (salt == emailVerifySalt && data.uid.isSome && data.fp.isNone) ||
    (salt == passwordResetSalt && data.uid.isSome && data.fp.isSome)

/-- `loads` accepts exactly the strings that `dumps` has produced under the same salt and whose age
does not exceed the limit, and returns what was signed. -/
structure Signing.Laws (S : Signing) : Prop where
  loads_dumps : ∀ data salt t salt' maxAge now, isSigned salt data = true →
    S.loads (S.dumps data salt t) salt' maxAge now =
      if salt' = salt ∧ now - t ≤ maxAge then some data else none
  of_loads : ∀ token salt maxAge now data, S.loads token salt maxAge now = some data →
    isSigned salt data = true ∧ ∃ t, token = S.dumps data salt t ∧ now - t ≤ maxAge

theorem isSigned_emailVerify (data : TokenData) :
    isSigned emailVerifySalt data = (data.uid.isSome && data.fp.isNone) := by
  have hne : (emailVerifySalt == passwordResetSalt) = false := by decide
  simp [isSigned, hne]

theorem isSigned_passwordReset (data : TokenData) :
    isSigned passwordResetSalt data = (data.uid.isSome && data.fp.isSome) := by
  have hne : (passwordResetSalt == emailVerifySalt) = false := by decide
  simp [isSigned, hne]

section Read

variable {S : Signing} (laws : S.Laws)

include laws

/-- **When a verification token is accepted**: it was made for the account, and is not too old. -/
theorem readEmailVerificationToken_eq_ok {token : String} {now : Int} {uid : Nat} :
    readEmailVerificationToken S token now = .ok uid ↔
      ∃ t, token = S.dumps { uid := some uid } emailVerifySalt t ∧
        now - t ≤ S.emailVerificationTimeout := by
  constructor
  · intro h
    unfold readEmailVerificationToken at h
    split at h
    · cases h
    · next data hloads =>
      obtain ⟨hsigned, t, rfl, hage⟩ := laws.of_loads _ _ _ _ _ hloads
      rw [isSigned_emailVerify] at hsigned
      obtain ⟨_ | signed, _ | fp⟩ := data
      · cases h
      · cases h
      · cases h
        exact ⟨t, rfl, hage⟩
      · cases hsigned
  · rintro ⟨t, rfl, hage⟩
    have hloads := laws.loads_dumps { uid := some uid } emailVerifySalt t emailVerifySalt
      S.emailVerificationTimeout now (by simp [isSigned_emailVerify])
    simp [readEmailVerificationToken, hloads, hage]

/-- **When a reset token is accepted**: it is the token of the account as it is now, and is not too
old. -/
theorem readPasswordResetToken_eq_ok {db : Db} {token : String} {now : Int} {user : Row User} :
    readPasswordResetToken S db token now = .ok user ↔
      user ∈ db.users.rows ∧
        ∃ t, token = generatePasswordResetToken S user t ∧ now - t ≤ S.passwordResetTimeout := by
  constructor
  · intro h
    unfold readPasswordResetToken at h
    split at h
    · cases h
    · next data hloads =>
      obtain ⟨hsigned, t, rfl, hage⟩ := laws.of_loads _ _ _ _ _ hloads
      rw [isSigned_passwordReset] at hsigned
      obtain ⟨_ | uid, _ | fp⟩ := data
      · cases h
      · cases h
      · cases hsigned
      · simp only [Option.getD_some] at h
        split at h
        · cases h
        · next found hget =>
          split at h
          · next hfp =>
            cases h
            rw [beq_iff_eq] at hfp
            refine ⟨Table.mem_of_get? hget, t, ?_, hage⟩
            rw [generatePasswordResetToken, hfp, Table.id_of_get? hget]
          · cases h
  · rintro ⟨huser, t, rfl, hage⟩
    have hget : db.users.get? user.id = some user := Table.get?_eq_some_iff.mpr ⟨huser, rfl⟩
    have hloads := laws.loads_dumps
      { uid := some user.id, fp := some (passwordResetFingerprint S user) } passwordResetSalt t
      passwordResetSalt S.passwordResetTimeout now (by simp [isSigned_passwordReset])
    simp [readPasswordResetToken, generatePasswordResetToken, hloads, hage, hget]

/-- What a token of an account as it was is worth now. -/
theorem readPasswordResetToken_generate {db : Db} {u v : Row User} {t now : Int} :
    readPasswordResetToken S db (generatePasswordResetToken S u t) now = .ok v ↔
      now - t ≤ S.passwordResetTimeout ∧ v ∈ db.users.rows ∧ v.id = u.id ∧
        passwordResetFingerprint S v = passwordResetFingerprint S u := by
  have hloads := laws.loads_dumps
    { uid := some u.id, fp := some (passwordResetFingerprint S u) } passwordResetSalt t
    passwordResetSalt S.passwordResetTimeout now (by simp [isSigned_passwordReset])
  rw [generatePasswordResetToken, readPasswordResetToken, hloads]
  by_cases hage : now - t ≤ S.passwordResetTimeout
  · simp only [hage, and_self, if_true, Option.getD_some, true_and]
    constructor
    · intro h
      split at h
      · cases h
      · next found hget =>
        split at h
        · next hfp =>
          cases h
          exact ⟨Table.mem_of_get? hget, Table.id_of_get? hget, by simpa using hfp⟩
        · cases h
    · rintro ⟨hv, hid, hfp⟩
      rw [Table.get?_eq_some_iff.mpr ⟨hv, hid⟩]
      simp [hfp]
  · simp [hage]

/-- What a verification token is worth now. -/
theorem readEmailVerificationToken_generate (u : Row User) (t now : Int) :
    readEmailVerificationToken S (generateEmailVerificationToken S u t) now =
      if now - t ≤ S.emailVerificationTimeout then .ok u.id
      else .error "Invalid or expired verification token." := by
  have hloads := laws.loads_dumps { uid := some u.id } emailVerifySalt t emailVerifySalt
    S.emailVerificationTimeout now (by simp [isSigned_emailVerify])
  rw [generateEmailVerificationToken, readEmailVerificationToken, hloads]
  by_cases hage : now - t ≤ S.emailVerificationTimeout
  · simp [hage]
  · simp [hage]

/-- A verification token resets no password. -/
theorem readPasswordResetToken_emailVerification (db : Db) (u : Row User) (t now : Int) :
    readPasswordResetToken S db (generateEmailVerificationToken S u t) now =
      .error "Invalid or expired reset token." := by
  have hloads := laws.loads_dumps { uid := some u.id } emailVerifySalt t passwordResetSalt
    S.passwordResetTimeout now (by simp [isSigned_emailVerify])
  have hne : passwordResetSalt ≠ emailVerifySalt := by decide
  simp [readPasswordResetToken, generateEmailVerificationToken, hloads, hne]

/-- A reset token verifies no address. -/
theorem readEmailVerificationToken_passwordReset (u : Row User) (t now : Int) :
    readEmailVerificationToken S (generatePasswordResetToken S u t) now =
      .error "Invalid or expired verification token." := by
  have hloads := laws.loads_dumps
    { uid := some u.id, fp := some (passwordResetFingerprint S u) } passwordResetSalt t
    emailVerifySalt S.emailVerificationTimeout now (by simp [isSigned_passwordReset])
  have hne : emailVerifySalt ≠ passwordResetSalt := by decide
  simp [readEmailVerificationToken, generatePasswordResetToken, hloads, hne]

end Read

/-! ## What a fingerprint tells -/

/-- `isoformat` writes no two times alike, and none of them as nothing. -/
structure Signing.TellsTimes (S : Signing) : Prop where
  injective : Function.Injective S.isoformat
  ne_empty  : ∀ time, S.isoformat time ≠ ""

/-- A hash without the colon that separates the fields of the payload. -/
def Separable (hash : String) : Prop := ':' ∉ hash.toList

instance (hash : String) : Decidable (Separable hash) := inferInstanceAs (Decidable (_ ∉ _))

theorem append_cons_inj {α : Type} {sep : α} {xs xs' zs zs' : List α} (hxs : sep ∉ xs)
    (hxs' : sep ∉ xs') (h : xs ++ sep :: zs = xs' ++ sep :: zs') : xs = xs' ∧ zs = zs' := by
  induction xs generalizing xs' with
  | nil =>
      cases xs' with
      | nil => exact ⟨rfl, (List.cons.inj h).2⟩
      | cons x' xs' => exact absurd ((List.cons.inj h).1 ▸ List.mem_cons_self) hxs'
  | cons x xs ih =>
      cases xs' with
      | nil => exact absurd ((List.cons.inj h).1 ▸ List.mem_cons_self) hxs
      | cons x' xs' =>
          obtain ⟨hhead, htail⟩ := List.cons.inj h
          obtain ⟨rfl, hzs⟩ := ih (List.not_mem_of_not_mem_cons hxs)
            (List.not_mem_of_not_mem_cons hxs') htail
          exact ⟨congrArg (· :: xs) hhead, hzs⟩

/-- **The payload tells the password and the last login** of an account. -/
theorem passwordResetPayload_inj {S : Signing} (tells : S.TellsTimes) {u v : Row User}
    (hid : v.id = u.id) (hu : Separable u.val.password) (hv : Separable v.val.password)
    (h : passwordResetPayload S v = passwordResetPayload S u) :
    v.val.password = u.val.password ∧ v.val.lastLogin = u.val.lastLogin := by
  have hcolon : ":".toList = [':'] := rfl
  have htexts := congrArg String.toList h
  simp only [passwordResetPayload, String.toList_append, hid, hcolon, List.append_assoc,
    List.append_cancel_left_eq, List.singleton_append] at htexts
  obtain ⟨hpassword, hlogin⟩ := append_cons_inj hv hu (List.cons.inj htexts).2
  refine ⟨String.toList_inj.mp hpassword, ?_⟩
  have hlogin := String.toList_inj.mp hlogin
  cases hvlogin : v.val.lastLogin with
  | none =>
      cases hulogin : u.val.lastLogin with
      | none => rfl
      | some before =>
          rw [hvlogin, hulogin] at hlogin
          exact absurd hlogin.symm (tells.ne_empty before)
  | some time =>
      cases hulogin : u.val.lastLogin with
      | none =>
          rw [hvlogin, hulogin] at hlogin
          exact absurd hlogin (tells.ne_empty time)
      | some before =>
          rw [hvlogin, hulogin] at hlogin
          rw [tells.injective hlogin]

/-! ## Plain tokens

A scheme without secrets, for tests: the fields stand one after the other in the text, and whoever
signs is believed. -/

namespace Plain

/-- Texts in one text: a `+` before each character, and a `;` behind each text. -/
def pack (fields : List (List Char)) : List Char :=
  fields.flatMap fun cs => cs.flatMap (fun c => ['+', c]) ++ [';']

def unpack (field : List Char) : List Char → List (List Char)
  | '+' :: c :: rest => unpack (field ++ [c]) rest
  | ';' :: rest => field :: unpack [] rest
  | _ => []

theorem unpack_field (field cs rest : List Char) :
    unpack field (cs.flatMap (fun c => ['+', c]) ++ ';' :: rest) =
      (field ++ cs) :: unpack [] rest := by
  induction cs generalizing field with
  | nil => simp [unpack]
  | cons c cs ih => simp [unpack, ih]

@[simp] theorem unpack_pack (fields : List (List Char)) : unpack [] (pack fields) = fields := by
  induction fields with
  | nil => rfl
  | cons cs fields ih =>
      have hpack : pack (cs :: fields) =
          cs.flatMap (fun c => ['+', c]) ++ ';' :: pack fields := by
        simp [pack]
      rw [hpack, unpack_field, ih, List.nil_append]

/-- A number in strokes. -/
def ofInt : Int → List Char
  | .ofNat n => '+' :: List.replicate n '1'
  | .negSucc n => '-' :: List.replicate n '1'

def toInt : List Char → Int
  | '-' :: cs => .negSucc cs.length
  | _ :: cs => .ofNat cs.length
  | [] => 0

@[simp] theorem toInt_ofInt (n : Int) : toInt (ofInt n) = n := by
  cases n with
  | ofNat n => simp [ofInt, toInt]
  | negSucc n => simp [ofInt, toInt]

def ofOption : Option (List Char) → List Char
  | none => []
  | some cs => '+' :: cs

def toOption : List Char → Option (List Char)
  | [] => none
  | _ :: cs => some cs

@[simp] theorem toOption_ofOption (o : Option (List Char)) : toOption (ofOption o) = o := by
  cases o <;> rfl

end Plain

/-- What is signed and the time, in one text. The salt shows in what is signed. -/
def Signing.plainDumps (data : TokenData) (_salt : String) (now : Int) : String :=
  String.ofList (Plain.pack [Plain.ofOption (data.uid.map (List.replicate · '1')),
    Plain.ofOption (data.fp.map String.toList), Plain.ofInt now])

/-- The text is taken apart, and put together again to see that it is all there. -/
def Signing.plainLoads (token salt : String) (maxAge now : Int) : Option TokenData :=
  match Plain.unpack [] token.toList with
  | [uid, fp, time] =>
      let data : TokenData :=
        ⟨(Plain.toOption uid).map List.length, (Plain.toOption fp).map String.ofList⟩
      if isSigned salt data = true ∧ now - Plain.toInt time ≤ maxAge ∧
          token = Signing.plainDumps data salt (Plain.toInt time) then
        some data
      else none
  | _ => none

/-- Tokens that are good for 50 seconds. -/
def Signing.plain : Signing where
  dumps := plainDumps
  loads := plainLoads
  digest payload := payload
  isoformat time := String.ofList (Plain.ofInt time)
  emailVerificationTimeout := 50
  passwordResetTimeout := 50

theorem tellsTimes_plain : Signing.plain.TellsTimes where
  injective time time' h := by
    have h := congrArg Plain.toInt (String.ofList_injective h)
    simpa using h
  ne_empty time h := by
    have h := String.ofList_injective (h : String.ofList (Plain.ofInt time) = String.ofList [])
    cases time with
    | ofNat n => cases h
    | negSucc n => cases h

/-- What is signed tells the salt. -/
theorem salt_of_isSigned {salt salt' : String} {data : TokenData}
    (h : isSigned salt data = true) (h' : isSigned salt' data = true) : salt' = salt := by
  obtain ⟨uid, fp⟩ := data
  cases fp with
  | none => simp_all [isSigned]
  | some fp => simp_all [isSigned]

theorem signingLaws_plain : Signing.plain.Laws where
  loads_dumps data salt t salt' maxAge now hsigned := by
    obtain ⟨uid, fp⟩ := data
    show Signing.plainLoads (Signing.plainDumps ⟨uid, fp⟩ salt t) salt' maxAge now = _
    have huid : (uid.map (List.replicate · '1')).map List.length = uid := by
      cases uid <;> simp
    have hfp : (fp.map String.toList).map String.ofList = fp := by
      cases fp <;> simp
    simp only [Signing.plainLoads, Signing.plainDumps, String.toList_ofList, Plain.unpack_pack,
      Plain.toOption_ofOption, Plain.toInt_ofInt, huid, hfp, and_true]
    by_cases hsalt : salt' = salt
    · subst hsalt
      simp [hsigned]
    · have hother : ¬ isSigned salt' ⟨uid, fp⟩ = true :=
        fun h => hsalt (salt_of_isSigned hsigned h)
      simp [hsalt, hother]
  of_loads token salt maxAge now data h := by
    have h : Signing.plainLoads token salt maxAge now = some data := h
    unfold Signing.plainLoads at h
    split at h
    · simp only at h
      split at h
      · next hall =>
        obtain ⟨hsigned, hage, htoken⟩ := hall
        cases h
        exact ⟨hsigned, _, htoken, hage⟩
      · cases h
    · cases h

end Bastiq
