import Bastiq.Accounts.Lifetime
import Bastiq.Concurrency.Machine

/-!
# One reset token in several requests

A reset token is good until the account changes, and nothing locks the account between the moment
the fingerprint is compared and the moment the new password is stored. So requests that carry one
token run as processes, each statement by itself:

* a confirmation reads the account and compares, stores the hash, lists the refresh tokens and
  blacklists them one by one;
* a login checks the password, records its refresh token, and sets `last_login`.

`confirm_alone` says that a confirmation left alone does what the view does. Between others, the
token is used once exactly as long as every confirmation that stores a password finds the hash it has
read (`one_reset_iff`).
-/

namespace Bastiq

open Relational Concurrency Machine Transition View

/-! ## The requests, statement by statement -/

/-- A request: a confirmation, with the password it sends beside the token, or a login. -/
inductive AuthProcess where
  | confirm (newPassword : String) (A : Ambient)
  | login (email password : String) (A : Ambient)

/-- Where a request stands. -/
inductive AuthPlace where
  | start
  | checked (user : Row User)
  | stored (user : Nat)
  | revoking (todo : List (Row OutstandingToken))
  | authenticated (user : Row User)
  | recorded (user : Row User)
  | done (status : Nat)
  deriving DecidableEq

section Steps

variable (E : AuthEnv)

/-- `PasswordResetConfirmView.post`. A `save(update_fields=...)` that finds no row raises. -/
def confirmStep (token newPassword : String) (A : Ambient) (place : AuthPlace) (s : AuthState) :
    Option (AuthPlace × AuthState) :=
  match place with
  | .start => match validatePasswordReset (β := TokenPair) E A s.db token newPassword with
    | .error r => some (.done r.status, s)
    | .ok user => some (.checked user, s)
  | .checked user =>
      if (s.db.users.get? user.id).isNone then some (.done 500, s)
      else some (.stored user.id,
        s.writeAccount user.id (.password (E.makePassword newPassword A.nonce)))
  | .stored user =>
      some (.revoking (s.tokens.outstanding.select (·.val.user == some user)), s)
  | .revoking [] => some (.done 200, s)
  | .revoking (o :: rest) =>
      some (.revoking rest, { s with tokens := (s.tokens.blacklist o).2 })
  | _ => none

/-- `LoginView.post`, once the two fields are read. -/
def loginStep (email password : String) (A : Ambient) (place : AuthPlace) (s : AuthState) :
    Option (AuthPlace × AuthState) :=
  match place with
  | .start => match modelBackend E.checkPassword s.db email password with
    | none => some (.done 401, s)
    | some user => some (.authenticated user, s)
  | .authenticated user => match s.tokens.create ⟨some user.id, A.nonce⟩ with
    | none => some (.done 500, s)
    | some tokens => some (.recorded user, { s with tokens := tokens })
  | .recorded user =>
      if (s.db.users.get? user.id).isNone then some (.done 500, s)
      else
        let status := if E.loginRequireVerifiedEmail && !user.val.isEmailVerified then 400 else 200
        some (.done status, s.writeAccount user.id (.loggedIn A.now))
  | _ => none

/-- The requests over one state; the confirmations carry the one token. -/
def resetMachine {ι : Type} (token : String) (procs : ι → AuthProcess) :
    Machine ι AuthState AuthPlace where
  step i place s := match procs i with
    | .confirm newPassword A => confirmStep E token newPassword A place s
    | .login email password A => loginStep E email password A place s

/-- Everybody at the start. -/
def resetStart {ι : Type} (s : AuthState) : Config ι AuthState AuthPlace := ⟨s, fun _ => .start⟩

end Steps

/-! ## A confirmation left alone -/

section Alone

variable {ι : Type} {E : AuthEnv} {token newPassword : String} {A : Ambient}
  {procs : ι → AuthProcess} {i : ι}

theorem resetMachine_confirm (hi : procs i = .confirm newPassword A) (place : AuthPlace)
    (s : AuthState) :
    (resetMachine E token procs).step i place s = confirmStep E token newPassword A place s := by
  simp only [resetMachine, hi]

theorem revoking_alone (hi : procs i = .confirm newPassword A) (todo : List (Row OutstandingToken))
    (revoked : Nat) (s : AuthState) :
    (resetMachine E token procs).alone i (todo.length + 1) (.revoking todo) s =
      (.done 200, { s with tokens := (s.tokens.revokeEach revoked todo).2 }) := by
  induction todo generalizing revoked s with
  | nil => exact alone_succ (by rw [resetMachine_confirm hi]; rfl)
  | cons o rest ih =>
      have hstep : (resetMachine E token procs).step i (.revoking (o :: rest)) s =
          some (.revoking rest, { s with tokens := (s.tokens.blacklist o).2 }) := by
        rw [resetMachine_confirm hi]
        rfl
      rw [List.length_cons, alone_succ hstep, ih, TokenTables.revokeEach_cons]

/-- **Alone, the statements are the view.** -/
theorem confirm_alone (hi : procs i = .confirm newPassword A) {data : RequestData}
    (htoken : sentText data "token" = some token)
    (hpassword : sentText data "new_password" = some newPassword) (s : AuthState) :
    ∃ n, (resetMachine E token procs).alone i n .start s =
      (.done ((confirmPasswordReset E s data A).outcome s).status,
        ((confirmPasswordReset E s data A).outcome s).after) := by
  obtain ⟨fields, hfields, hfield⟩ := exists_fields htoken
  obtain ⟨fields', hfields', hfield'⟩ := exists_fields hpassword
  obtain rfl : fields = fields' := by
    rw [hfields] at hfields'
    exact Except.ok.inj hfields'
  simp only [confirmPasswordReset, hfields, ok_bind, hfield, hfield']
  cases hvalid : validatePasswordReset (β := TokenPair) E A s.db token newPassword with
  | error r =>
      have hrefuse : (resetMachine E token procs).step i .start s = some (.done r.status, s) := by
        rw [resetMachine_confirm hi]
        simp only [confirmStep, hvalid]
      exact ⟨1, alone_succ hrefuse⟩
  | ok user =>
      have huser := mem_of_readPasswordResetToken (validatePasswordReset_eq_ok hvalid)
      have hget : s.db.users.get? user.id = some user := Table.get?_eq_some_iff.mpr ⟨huser, rfl⟩
      let stored := s.writeAccount user.id (.password (E.makePassword newPassword A.nonce))
      let todo := stored.tokens.outstanding.select (·.val.user == some user.id)
      have hcheck : (resetMachine E token procs).step i .start s = some (.checked user, s) := by
        rw [resetMachine_confirm hi]
        simp only [confirmStep, hvalid]
      have hstore : (resetMachine E token procs).step i (.checked user) s =
          some (.stored user.id, stored) := by
        rw [resetMachine_confirm hi]
        simp [confirmStep, hget, stored]
      have hlist : (resetMachine E token procs).step i (.stored user.id) stored =
          some (.revoking todo, stored) := by
        rw [resetMachine_confirm hi]
        rfl
      refine ⟨todo.length + 1 + 3, ?_⟩
      rw [alone_succ hcheck, alone_succ hstore, alone_succ hlist, revoking_alone hi todo 0]
      rfl

end Alone

/-! ## What a step does -/

/-- A confirmation is past its write: it has changed the password, and is answered 200. -/
def AuthPlace.hasChanged : AuthPlace → Bool
  | .stored _ | .revoking _ => true
  | .done status => status == 200
  | _ => false

/-- A step of a confirmation. -/
inductive ConfirmMove (E : AuthEnv) (token newPassword : String) (A : Ambient) (s : AuthState) :
    AuthPlace → AuthPlace → AuthState → Prop where
  | refused {status : Nat} (h : status ≠ 200) : ConfirmMove E token newPassword A s .start
      (.done status) s
  | checked {user : Row User}
      (hread : readPasswordResetToken E.toSigning s.db token A.now = .ok user) :
      ConfirmMove E token newPassword A s .start (.checked user) s
  | gone {user : Row User} (h : ∀ v ∈ s.db.users.rows, v.id ≠ user.id) :
      ConfirmMove E token newPassword A s (.checked user) (.done 500) s
  | stored {user v : Row User} (hv : v ∈ s.db.users.rows) (hid : v.id = user.id) :
      ConfirmMove E token newPassword A s (.checked user) (.stored user.id)
        (s.writeAccount user.id (.password (E.makePassword newPassword A.nonce)))
  | revoke {place place' : AuthPlace} {s' : AuthState} (h : place.hasChanged = true)
      (h' : place'.hasChanged = true) (hdb : s'.db = s.db) :
      ConfirmMove E token newPassword A s place place' s'

section Moves

variable {E : AuthEnv} {token : String}

theorem confirmStep_move {newPassword : String} {A : Ambient} {place place' : AuthPlace}
    {s s' : AuthState} (h : confirmStep E token newPassword A place s = some (place', s')) :
    ConfirmMove E token newPassword A s place place' s' := by
  unfold confirmStep at h
  split at h
  · split at h
    · next r hvalid =>
      cases h
      refine .refused ?_
      rw [refused_of_validatePasswordReset hvalid]
      omega
    · next user hvalid =>
      cases h
      exact .checked (validatePasswordReset_eq_ok hvalid)
  · next user =>
    split at h
    · next hnone =>
      cases h
      refine .gone fun v hv => ?_
      simpa using Table.first?_eq_none_iff.mp (Option.isNone_iff_eq_none.mp hnone) v hv
    · next hsome =>
      cases h
      obtain ⟨v, hget⟩ := Option.ne_none_iff_exists'.mp (mt Option.isNone_iff_eq_none.mpr hsome)
      exact .stored (Table.mem_of_get? hget) (Table.id_of_get? hget)
  · cases h
    exact .revoke rfl rfl rfl
  · cases h
    exact .revoke rfl rfl rfl
  · cases h
    exact .revoke rfl rfl rfl
  · cases h

/-- A login changes no password. -/
theorem loginStep_password {email password : String} {A : Ambient} {place place' : AuthPlace}
    {s s' : AuthState} (h : loginStep E email password A place s = some (place', s')) :
    ∀ v' ∈ s'.db.users.rows, ∃ v ∈ s.db.users.rows, v.id = v'.id ∧
      v.val.password = v'.val.password := by
  unfold loginStep at h
  split at h
  · split at h
    · cases h
      exact fun v hv => ⟨v, hv, rfl, rfl⟩
    · cases h
      exact fun v hv => ⟨v, hv, rfl, rfl⟩
  · split at h
    · cases h
      exact fun v hv => ⟨v, hv, rfl, rfl⟩
    · cases h
      exact fun v hv => ⟨v, hv, rfl, rfl⟩
  · split at h
    · cases h
      exact fun v hv => ⟨v, hv, rfl, rfl⟩
    · cases h
      intro v hv
      rcases Table.mem_modify.mp hv with ⟨hv, -⟩ | ⟨w, hw, hid, rfl⟩
      · exact ⟨v, hv, rfl, rfl⟩
      · exact ⟨w, hw, hid, rfl⟩
  · cases h

end Moves

/-! ## At most one reset -/

section Race

variable {ι : Type}

/-- The request is a confirmation that has changed the password. -/
def Changed (procs : ι → AuthProcess) (c : Config ι AuthState AuthPlace) (i : ι) : Prop :=
  (∃ newPassword A, procs i = .confirm newPassword A) ∧ (c.loc i).hasChanged = true

def AtMostOneReset (procs : ι → AuthProcess) (c : Config ι AuthState AuthPlace) : Prop :=
  ∀ i j, Changed procs c i → Changed procs c j → i = j

/-- A confirmation that is about to store a password finds the hash it has read. -/
def FindsWhatItRead (procs : ι → AuthProcess) (c : Config ι AuthState AuthPlace) (i : ι) : Prop :=
  match procs i, c.loc i with
  | .confirm _ _, .checked user =>
      ∀ v ∈ c.store.db.users.rows, v.id = user.id → v.val.password = user.val.password
  | _, _ => True

instance (procs : ι → AuthProcess) (c : Config ι AuthState AuthPlace) (i : ι) :
    Decidable (FindsWhatItRead procs c i) := by
  unfold FindsWhatItRead
  split <;> infer_instance

theorem findsWhatItRead_iff {procs : ι → AuthProcess} {c : Config ι AuthState AuthPlace} {i : ι} :
    FindsWhatItRead procs c i ↔
      ∀ newPassword A, procs i = .confirm newPassword A → ∀ user, c.loc i = .checked user →
        ∀ v ∈ c.store.db.users.rows, v.id = user.id → v.val.password = user.val.password := by
  unfold FindsWhatItRead
  split
  · next newPassword A user hi hat => simp [hi, hat]
  · next hneither =>
    refine iff_of_true trivial ?_
    intro newPassword A hi user hat
    exact absurd hat (hneither newPassword A user hi)

/-- What is known of the requests that carry a token of `u`. -/
structure ResetInv (u : Row User) (procs : ι → AuthProcess) (c : Config ι AuthState AuthPlace) :
    Prop where
  /-- A confirmation that has read the account has read the password of the token. -/
  checked : ∀ i newPassword A, procs i = .confirm newPassword A → ∀ user,
    c.loc i = .checked user → user.id = u.id ∧ user.val.password = u.val.password
  /-- It is still there if nobody has changed it. -/
  same    : (∃ j, Changed procs c j) ∨ ∀ i newPassword A, procs i = .confirm newPassword A →
    ∀ user, c.loc i = .checked user →
      ∀ v ∈ c.store.db.users.rows, v.id = u.id → v.val.password = u.val.password
  /-- Once it was changed, it is another. -/
  changed : ∀ j, Changed procs c j →
    ∀ v ∈ c.store.db.users.rows, v.id = u.id → v.val.password ≠ u.val.password

variable [DecidableEq ι] {E : AuthEnv} {u : Row User} {t : Int} {procs : ι → AuthProcess}
  {c : Config ι AuthState AuthPlace} {i : ι} {place : AuthPlace} {s : AuthState}

theorem changed_move_of_ne {j : ι} (hne : j ≠ i) :
    Changed procs (c.move i place s) j ↔ Changed procs c j := by
  simp only [Changed, c.move_loc_of_ne hne]

/-- Who has changed the password after a step that does not begin or end with that. -/
theorem changed_move (h : Changed procs (c.move i place s) i ↔ Changed procs c i) (j : ι) :
    Changed procs (c.move i place s) j ↔ Changed procs c j := by
  by_cases hj : j = i
  · rwa [hj]
  · exact changed_move_of_ne hj

theorem atMostOneReset_move (h : Changed procs (c.move i place s) i ↔ Changed procs c i) :
    AtMostOneReset procs (c.move i place s) ↔ AtMostOneReset procs c := by
  simp only [AtMostOneReset, changed_move h]

omit [DecidableEq ι] in
theorem resetInv_start (u : Row User) (procs : ι → AuthProcess) (s : AuthState) :
    ResetInv u procs (resetStart s) where
  checked _ _ _ _ _ h := nomatch h
  same := .inr fun _ _ _ _ _ h => nomatch h
  changed _ h := nomatch h.2

/-- A step that changes nobody's password and puts no confirmation where it has read the account. -/
theorem ResetInv.frame (h : ResetInv u procs c)
    (hpassword : ∀ v' ∈ s.db.users.rows, ∃ v ∈ c.store.db.users.rows, v.id = v'.id ∧
      v.val.password = v'.val.password)
    (hchanged : Changed procs (c.move i place s) i ↔ Changed procs c i)
    (hplace : ∀ newPassword A, procs i = .confirm newPassword A → ∀ user,
      place ≠ .checked user) : ResetInv u procs (c.move i place s) := by
  have hloc : ∀ j newPassword A, procs j = .confirm newPassword A → ∀ user,
      (c.move i place s).loc j = .checked user → c.loc j = .checked user := by
    intro j newPassword A hj user hat
    by_cases hji : j = i
    · subst hji
      rw [c.move_loc_self] at hat
      exact absurd hat (hplace newPassword A hj user)
    · rwa [c.move_loc_of_ne hji] at hat
  refine ⟨?_, ?_, ?_⟩
  · intro j newPassword A hj user hat
    exact h.checked j newPassword A hj user (hloc j newPassword A hj user hat)
  · rcases h.same with ⟨j, hj⟩ | hsame
    · exact .inl ⟨j, (changed_move hchanged j).mpr hj⟩
    · refine .inr ?_
      intro j newPassword A hj user hat v' hv' hid
      obtain ⟨v, hv, hvid, hpw⟩ := hpassword v' hv'
      rw [← hpw]
      exact hsame j newPassword A hj user (hloc j newPassword A hj user hat) v hv (hvid.trans hid)
  · intro j hj v' hv' hid
    obtain ⟨v, hv, hvid, hpw⟩ := hpassword v' hv'
    rw [← hpw]
    exact h.changed j ((changed_move hchanged j).mp hj) v hv (hvid.trans hid)

/-- Such a step changes nothing about who has changed the password, either. -/
theorem ResetInv.quiet (h : ResetInv u procs c)
    (hpassword : ∀ v' ∈ s.db.users.rows, ∃ v ∈ c.store.db.users.rows, v.id = v'.id ∧
      v.val.password = v'.val.password)
    (hchanged : Changed procs (c.move i place s) i ↔ Changed procs c i)
    (hplace : ∀ newPassword A, procs i = .confirm newPassword A → ∀ user,
      place ≠ .checked user) (hfinds : FindsWhatItRead procs c i) :
    ResetInv u procs (c.move i place s) ∧
      (AtMostOneReset procs c →
        (AtMostOneReset procs (c.move i place s) ↔ FindsWhatItRead procs c i)) := by
  refine ⟨h.frame hpassword hchanged hplace, fun hone => ?_⟩
  exact iff_of_true ((atMostOneReset_move hchanged).mpr hone) hfinds

omit [DecidableEq ι] in
theorem resetMachine_login {token email password : String} {A : Ambient}
    (hi : procs i = .login email password A) :
    (resetMachine E token procs).step i place s = loginStep E email password A place s := by
  simp only [resetMachine, hi]

/-- A confirmation that has read the account with the token of `u`. -/
theorem ResetInv.read (h : ResetInv u procs c) {user : Row User} (huser : user ∈ c.store.db.users.rows)
    (hid : user.id = u.id) (hpassword : user.val.password = u.val.password) :
    ResetInv u procs (c.move i (.checked user) c.store) ∧
      (Changed procs (c.move i (.checked user) c.store) i ↔ False) := by
  have hnot : Changed procs (c.move i (.checked user) c.store) i ↔ False := by
    simp [Changed, AuthPlace.hasChanged]
  have hrows : ∀ v ∈ c.store.db.users.rows, v.id = u.id → v.val.password = u.val.password := by
    intro v hv hvid
    rw [c.store.db.users.eq_of_id_eq hv huser (hvid.trans hid.symm), hpassword]
  refine ⟨⟨?_, .inr fun _ _ _ _ _ _ => hrows, ?_⟩, hnot⟩
  · intro j newPassword A hj user' hat
    by_cases hji : j = i
    · subst hji
      rw [c.move_loc_self] at hat
      obtain rfl := AuthPlace.checked.inj hat
      exact ⟨hid, hpassword⟩
    · rw [c.move_loc_of_ne hji] at hat
      exact h.checked j newPassword A hj user' hat
  · intro j hj
    by_cases hji : j = i
    · subst hji
      exact absurd hj (fun hj => hnot.mp hj)
    · exact h.changed j ((changed_move_of_ne hji).mp hj)

/-- A confirmation that stores its password. -/
theorem ResetInv.store (h : ResetInv u procs c) {newPassword : String} {A : Ambient}
    (hi : procs i = .confirm newPassword A) {hash : String} (hhash : hash ≠ u.val.password) :
    ResetInv u procs (c.move i (.stored u.id) (c.store.writeAccount u.id (.password hash))) ∧
      Changed procs (c.move i (.stored u.id) (c.store.writeAccount u.id (.password hash))) i := by
  have hchanged : Changed procs
      (c.move i (.stored u.id) (c.store.writeAccount u.id (.password hash))) i :=
    ⟨⟨newPassword, A, hi⟩, by rw [c.move_loc_self]; rfl⟩
  refine ⟨⟨?_, .inl ⟨i, hchanged⟩, ?_⟩, hchanged⟩
  · intro j newPassword' A' hj user hat
    by_cases hji : j = i
    · subst hji
      rw [c.move_loc_self] at hat
      cases hat
    · rw [c.move_loc_of_ne hji] at hat
      exact h.checked j newPassword' A' hj user hat
  · intro j hj v hv hid
    rcases Table.mem_modify.mp hv with ⟨-, hne⟩ | ⟨w, -, -, rfl⟩
    · exact absurd hid hne
    · exact hhash

/-- A confirmation that stores a password is the only one so far exactly if it finds the hash it has
read. -/
theorem ResetInv.atMostOneReset_store_iff (h : ResetInv u procs c) {newPassword : String}
    {A : Ambient} (hi : procs i = .confirm newPassword A) {user v : Row User}
    (hl : c.loc i = .checked user) (hv : v ∈ c.store.db.users.rows) (hid : v.id = u.id)
    (hchanged : Changed procs (c.move i place s) i) :
    AtMostOneReset procs (c.move i place s) ↔ FindsWhatItRead procs c i := by
  obtain ⟨huser, hpassword⟩ := h.checked i newPassword A hi user hl
  have hbefore : ¬ Changed procs c i := by simp [Changed, hl, AuthPlace.hasChanged]
  constructor
  · -- nobody else has changed the password, so it is the one that was read
    intro hafter
    refine findsWhatItRead_iff.mpr fun newPassword' A' _ user' hat w hw hwid => ?_
    obtain rfl := AuthPlace.checked.inj (hl.symm.trans hat)
    rw [hpassword]
    rcases h.same with ⟨j, hj⟩ | hsame
    · have hji : j ≠ i := by
        rintro rfl
        exact hbefore hj
      exact absurd (hafter j i ((changed_move_of_ne hji).mpr hj) hchanged) hji
    · exact hsame i newPassword A hi user hl w hw (hwid.trans huser)
  · -- somebody who has changed it would have left another one
    intro hread
    have hfirst : ∀ j, ¬ Changed procs c j := by
      intro j hj
      have hsame := findsWhatItRead_iff.mp hread newPassword A hi user hl v hv
        (hid.trans huser.symm)
      exact h.changed j hj v hv hid (hsame.trans hpassword)
    have honly : ∀ j, Changed procs (c.move i place s) j → j = i := by
      intro j hj
      by_contra hji
      exact hfirst j ((changed_move_of_ne hji).mp hj)
    intro j k hj hk
    rw [honly j hj, honly k hk]

variable (laws : E.toSigning.Laws)
  (hhash : ∀ i newPassword A, procs i = .confirm newPassword A →
    E.makePassword newPassword A.nonce ≠ u.val.password)

include laws hhash

/-- **One step**: it keeps what is known, and it keeps the resets to one exactly if a confirmation
that stores a password finds the hash it has read. -/
theorem ResetInv.step (h : ResetInv u procs c)
    (hdiffer : FingerprintsDiffer E.toSigning u c.store.db)
    (hstep : (resetMachine E (generatePasswordResetToken E.toSigning u t) procs).step i (c.loc i)
      c.store = some (place, s)) :
    ResetInv u procs (c.move i place s) ∧
      (AtMostOneReset procs c →
        (AtMostOneReset procs (c.move i place s) ↔ FindsWhatItRead procs c i)) := by
  cases hi : procs i with
  | login email password A =>
      rw [resetMachine_login hi] at hstep
      have hnot : ∀ c' : Config ι AuthState AuthPlace, Changed procs c' i ↔ False := by
        simp [Changed, hi]
      have hsame : Changed procs (c.move i place s) i ↔ Changed procs c i := by rw [hnot, hnot]
      refine h.quiet (loginStep_password hstep) hsame ?_ (findsWhatItRead_iff.mpr ?_)
      · intro newPassword A' hconfirm
        rw [hi] at hconfirm
        cases hconfirm
      · intro newPassword A' hconfirm
        rw [hi] at hconfirm
        cases hconfirm
  | confirm newPassword A =>
      rw [resetMachine_confirm hi] at hstep
      generalize hl : c.loc i = place₀ at hstep
      -- before its write a confirmation has not changed the password
      have hbefore : place₀.hasChanged = false → (Changed procs c i ↔ False) := by
        intro hplace
        simp [Changed, hl, hplace]
      have hfinds : (∀ user, place₀ ≠ .checked user) → FindsWhatItRead procs c i := by
        intro hplace
        refine findsWhatItRead_iff.mpr fun _ _ _ user hat => ?_
        exact absurd (hl.symm.trans hat) (hplace user)
      have hkept : ∀ v' ∈ c.store.db.users.rows, ∃ v ∈ c.store.db.users.rows, v.id = v'.id ∧
          v.val.password = v'.val.password := fun v hv => ⟨v, hv, rfl, rfl⟩
      cases confirmStep_move hstep with
      | @refused status hstatus =>
          have hsame : Changed procs (c.move i (.done status) c.store) i ↔ Changed procs c i := by
            rw [hbefore rfl]
            simp [Changed, AuthPlace.hasChanged, hstatus]
          exact h.quiet hkept hsame (fun _ _ _ _ h => nomatch h) (hfinds fun _ h => nomatch h)
      | @checked user hread =>
          obtain ⟨-, huser, hid, hfp⟩ := (readPasswordResetToken_generate laws).mp hread
          obtain ⟨hinv, hnot⟩ := h.read (i := i) huser hid (hdiffer user huser hid hfp).1
          refine ⟨hinv, fun hone => ?_⟩
          have hsame := hnot.trans (hbefore rfl).symm
          exact iff_of_true ((atMostOneReset_move hsame).mpr hone) (hfinds fun _ h => nomatch h)
      | @gone user hgone =>
          have hsame : Changed procs (c.move i (.done 500) c.store) i ↔ Changed procs c i := by
            rw [hbefore rfl]
            simp [Changed, AuthPlace.hasChanged]
          refine h.quiet hkept hsame (fun _ _ _ _ h => nomatch h) (findsWhatItRead_iff.mpr ?_)
          intro newPassword' A' _ user' hat v hv hid
          obtain rfl := AuthPlace.checked.inj (hl.symm.trans hat)
          exact absurd hid (hgone v hv)
      | @stored user v hv hid =>
          obtain ⟨huser, -⟩ := h.checked i newPassword A hi user hl
          rw [huser] at hid ⊢
          obtain ⟨hinv, hchanged⟩ := h.store hi (hhash i newPassword A hi)
          exact ⟨hinv, fun _ => h.atMostOneReset_store_iff hi hl hv hid hchanged⟩
      | revoke hplace hplace' hdb =>
          have hsame : Changed procs (c.move i place s) i ↔ Changed procs c i := by
            simp [Changed, hl, hplace, hplace']
          refine h.quiet (by rw [hdb]; exact hkept) hsame ?_ (hfinds ?_)
          · rintro _ _ _ user rfl
            cases hplace'
          · rintro user rfl
            cases hplace

omit laws hhash [DecidableEq ι] in
/-- Requests that store hashes without a colon leave one. -/
theorem storesSeparable_of_step {token : String}
    (hseparable : ∀ i newPassword A, procs i = .confirm newPassword A →
      Separable (E.makePassword newPassword A.nonce))
    (h : StoresSeparable u c.store.db)
    (hstep : (resetMachine E token procs).step i (c.loc i) c.store = some (place, s)) :
    StoresSeparable u s.db := by
  cases hi : procs i with
  | login email password A =>
      rw [resetMachine_login hi] at hstep
      intro v' hv' hid
      obtain ⟨v, hv, hsame, hpassword⟩ := loginStep_password hstep v' hv'
      rw [← hpassword]
      exact h v hv (hsame.trans hid)
  | confirm newPassword A =>
      rw [resetMachine_confirm hi] at hstep
      generalize c.loc i = place₀ at hstep
      cases confirmStep_move hstep with
      | stored hv hid =>
          intro v' hv' hvid
          rcases Table.mem_modify.mp hv' with ⟨hv', -⟩ | ⟨w, -, -, rfl⟩
          · exact h v' hv' hvid
          · exact hseparable i newPassword A hi
      | revoke _ _ hdb =>
          rw [hdb]
          exact h
      | _ => exact h

omit laws hhash [DecidableEq ι] in
/-- A request that has nothing to do is not about to store a password. -/
theorem findsWhatItRead_of_none {token : String}
    (h : (resetMachine E token procs).step i (c.loc i) c.store = none) :
    FindsWhatItRead procs c i := by
  rw [findsWhatItRead_iff]
  intro newPassword A hi user hat
  rw [resetMachine_confirm hi, hat] at h
  simp only [confirmStep] at h
  split at h
  · cases h
  · cases h

/-- A confirmation that was answered 200. -/
def AnsweredOk (procs : ι → AuthProcess) (c : Config ι AuthState AuthPlace) (i : ι) : Prop :=
  (∃ newPassword A, procs i = .confirm newPassword A) ∧ c.loc i = .done 200

omit laws hhash [DecidableEq ι] in
theorem AnsweredOk.changed (h : AnsweredOk procs c i) : Changed procs c i :=
  ⟨h.1, by rw [h.2]; rfl⟩

/-- **When a reset token is used once.** Any number of confirmations carry one token, between any
logins, statement by statement in any order. The password is changed at most once throughout exactly
if every confirmation that stores a password finds the hash it has read; and then at most one is
answered 200. -/
theorem one_reset_iff (tells : E.toSigning.TellsTimes) (hu : Separable u.val.password)
    (hseparable : ∀ i newPassword A, procs i = .confirm newPassword A →
      Separable (E.makePassword newPassword A.nonce))
    (s : AuthState) (hstored : StoresSeparable u s.db) (sched : List ι)
    (hapart : (resetMachine E (generatePasswordResetToken E.toSigning u t) procs).Always
      (fun c => DigestApart E.toSigning u c.store.db) (resetStart s) sched) :
    let M := resetMachine E (generatePasswordResetToken E.toSigning u t) procs
    (M.Always (AtMostOneReset procs) (resetStart s) sched ↔
        M.Along (FindsWhatItRead procs) (resetStart s) sched) ∧
      (M.Along (FindsWhatItRead procs) (resetStart s) sched →
        M.Always (fun c => ∀ i j, AnsweredOk procs c i → AnsweredOk procs c j → i = j)
          (resetStart s) sched) := by
  intro M
  have hseparables : M.Always (fun c => StoresSeparable u c.store.db) (resetStart s) sched := by
    refine states_of_step (Q := fun c : Config ι AuthState AuthPlace =>
      StoresSeparable u c.store.db) (fun c i h => ?_) hstored sched
    refine next_cases (motive := fun c => StoresSeparable u c.store.db) c i h fun l s' hmove => ?_
    exact storesSeparable_of_step hseparable h hmove
  have hdiffer : M.Always (fun c => FingerprintsDiffer E.toSigning u c.store.db) (resetStart s)
      sched :=
    (hseparables.and hapart).mono fun c h => fingerprintsDiffer tells hu h.1 h.2
  have hinv : ∀ c i, ResetInv u procs c → FingerprintsDiffer E.toSigning u c.store.db →
      ResetInv u procs (M.next c i) := by
    intro c i h hdiffer
    refine next_cases (motive := ResetInv u procs) c i h fun l s' hmove => ?_
    exact (h.step laws hhash hdiffer hmove).1
  have hall := Each.and_invariant hinv (resetInv_start u procs s)
    (each_of_states (fun c i h _ => h) hdiffer)
  have hiff : M.Always (AtMostOneReset procs) (resetStart s) sched ↔
      M.Along (FindsWhatItRead procs) (resetStart s) sched := by
    refine states_iff_each ?_ ?_ hall
    · rintro c i hone ⟨hdiffer, h⟩
      cases hmove : M.step i (c.loc i) c.store with
      | none =>
          rw [next_of_none hmove]
          exact iff_of_true hone (findsWhatItRead_of_none hmove)
      | some out =>
          rw [next_of_some hmove]
          exact (h.step laws hhash hdiffer hmove).2 hone
    · rintro i j ⟨-, hi⟩
      cases hi
  refine ⟨hiff, fun halong => (hiff.mpr halong).mono ?_⟩
  intro c hone i j hi hj
  exact hone i j hi.changed hj.changed

end Race

/-! ## Two requests with one token -/

/-- Two confirmations, with the passwords `new one` and `other one`. -/
def twoResets : Bool → AuthProcess
  | true => .confirm "password1" ⟨2, "s1", true⟩
  | false => .confirm "password2" ⟨2, "s2", true⟩

def aliceToken : String := generatePasswordResetToken Signing.plain plainAlice 1

/-- Both read the account before either stores a password; each changes it, and is answered 200. -/
theorem two_resets_one_token :
    let M := resetMachine AuthEnv.plain aliceToken twoResets
    let password := fun c : Config Bool AuthState AuthPlace =>
      (c.store.db.users.get? 1).map (·.val.password)
    let first := M.run (resetStart AuthState.plain) [true, false, true, true, true]
    let second := M.run first [false, false, false]
    AnsweredOk twoResets first true ∧ password first = some "s1$password1" ∧
      AnsweredOk twoResets second true ∧ AnsweredOk twoResets second false ∧
      password second = some "s2$password2" := by
  have hconfirm : ∀ i, ∃ newPassword A, twoResets i = .confirm newPassword A := by
    rintro (_ | _)
    · exact ⟨_, _, rfl⟩
    · exact ⟨_, _, rfl⟩
  refine ⟨⟨hconfirm _, by decide⟩, by decide, ⟨hconfirm _, by decide⟩, ⟨hconfirm _, by decide⟩,
    by decide⟩

/-- The second reads the account after the first has stored its password, and is refused. -/
theorem one_reset_plain :
    (resetMachine AuthEnv.plain aliceToken twoResets).Always (AtMostOneReset twoResets)
      (resetStart AuthState.plain) [true, true, false, true, true] := by
  have hhash : ∀ i newPassword A, twoResets i = .confirm newPassword A →
      AuthEnv.plain.makePassword newPassword A.nonce ≠ plainAlice.val.password ∧
        Separable (AuthEnv.plain.makePassword newPassword A.nonce) := by
    rintro (_ | _) newPassword A hi
    · cases hi
      decide
    · cases hi
      decide
  have hapart : (resetMachine AuthEnv.plain aliceToken twoResets).Always
      (fun c => DigestApart Signing.plain plainAlice c.store.db) (resetStart AuthState.plain)
      [true, true, false, true, true] :=
    states_of_step (Q := fun c : Config Bool AuthState AuthPlace =>
        DigestApart Signing.plain plainAlice c.store.db)
      (fun _ _ _ => digestApart_plain plainAlice _) (digestApart_plain plainAlice _) _
  exact (one_reset_iff signingLaws_plain (fun i newPassword A hi => (hhash i newPassword A hi).1)
    tellsTimes_plain (by decide) (fun i newPassword A hi => (hhash i newPassword A hi).2)
    AuthState.plain (by decide) [true, true, false, true, true] hapart).1.mpr (by decide)

end Bastiq
