import Bastiq.Accounts.Auth
import Bastiq.Transition.Script

/-!
# A password reset that fails halfway

`PasswordResetConfirmSerializer.save` updates the password, lists the refresh tokens of the account
and blacklists them one by one. No transaction is around it, so a statement that raises leaves what
the statements before it have done: the token is used up and the hash is the new one, while sessions
that should have ended go on.
-/

namespace Bastiq

open Relational Transition View

/-! ## The statements -/

/-- The loop of `revoke_all_refresh_tokens`. `get_or_create` looks for the row of a token and inserts
one where there is none. -/
def revokeScript (revoked : Nat) : List (Row OutstandingToken) → Script AuthState Nat
  | [] => .done revoked
  | o :: rest =>
      .query (fun s => s.tokens.isBlacklisted o.id) fun found =>
        if found then revokeScript revoked rest
        else .execute (fun s => { s with tokens := (s.tokens.blacklist o).2 })
          (revokeScript (revoked + 1) rest)

/-- **`PasswordResetConfirmSerializer.save`**, with the account that was read with the token. -/
def saveReset (E : AuthEnv) (user : Row User) (newPassword : String) (A : Ambient) :
    Script AuthState Nat :=
  .execute (fun s => s.writeAccount user.id (.password (E.makePassword newPassword A.nonce)))
    (.query (fun s => s.tokens.outstanding.select (·.val.user == some user.id))
      (revokeScript 0))

/-- The refresh tokens of an account. -/
def TokenTables.ofUser (t : TokenTables) (user : Nat) : List (Row OutstandingToken) :=
  t.outstanding.select (·.val.user == some user)

/-- How far into the loop the last insert is: the statements up to it and with it, or zero where every
token has its row already. -/
def TokenTables.lastInsert (t : TokenTables) : List (Row OutstandingToken) → Nat
  | [] => 0
  | o :: rest =>
      if t.isBlacklisted o.id then
        if t.lastInsert rest = 0 then 0 else t.lastInsert rest + 1
      else t.lastInsert rest + 2

/-! ## The whole save is what the view does -/

theorem whole_revokeScript {revoked : Nat} {os : List (Row OutstandingToken)} {s : AuthState}
    (hos : ∀ o ∈ os, o ∈ s.tokens.outstanding.rows) :
    (revokeScript revoked os).whole s =
      ((s.tokens.revokeEach revoked os).1, ⟨s.db, (s.tokens.revokeEach revoked os).2⟩) := by
  induction os generalizing revoked s with
  | nil => rfl
  | cons o rest ih =>
      have ho := hos o List.mem_cons_self
      have hrest := fun o' ho' => hos o' (List.mem_cons_of_mem o ho')
      rw [revokeScript, Script.whole_query, TokenTables.revokeEach_cons,
        TokenTables.blacklist_created ho]
      cases hfound : s.tokens.isBlacklisted o.id with
      | true =>
          rw [TokenTables.blacklist_of_isBlacklisted hfound]
          exact ih hrest
      | false =>
          refine ih ?_
          intro o' ho'
          rw [TokenTables.outstanding_blacklist]
          exact hrest o' ho'

/-- **A save that succeeds leaves what the view leaves.** -/
theorem whole_saveReset (E : AuthEnv) (user : Row User) (newPassword : String) (A : Ambient)
    (s : AuthState) :
    (saveReset E user newPassword A).whole s =
      ((s.tokens.revokeAllRefreshTokens user.id).1,
        { s.writeAccount user.id (.password (E.makePassword newPassword A.nonce)) with
          tokens := (s.tokens.revokeAllRefreshTokens user.id).2 }) := by
  rw [saveReset, Script.whole_execute, Script.whole_query, whole_revokeScript]
  · rfl
  · exact fun o ho => List.mem_of_mem_filter ho

/-! ## A request that fails -/

/-- `PasswordResetConfirmView.post` where `k` statements of the save succeed and the next one, if it
takes more, raises. -/
def confirmPasswordResetCut (E : AuthEnv) (s : AuthState) (data : RequestData) (A : Ambient)
    (k : Nat) : AuthView := do
  let fields ← bodyFields data
  let token := textField.run false (fields.lookup "token")
  let newPassword := textField.run false (fields.lookup "new_password")
  match token, newPassword with
  | .value token, .value newPassword =>
      let user ← validatePasswordReset E A s.db token newPassword
      let out := Script.cut k (saveReset E user newPassword A) s
      if out.1.isSome then .ok (⟨200, .detail "Password has been reset."⟩, out.2)
      else .ok (serverError, out.2)
  | _, _ => .error (invalid (token.named "token" ++ newPassword.named "new_password"))

/-- **What a failure makes of a request that succeeds otherwise**: with enough statements that succeed
it is the view's, and with fewer it is a 500 where what they have done stays. -/
theorem confirmPasswordResetCut_eq {E : AuthEnv} {s : AuthState} {data : RequestData} {A : Ambient}
    {r : Response TokenPair} {after : AuthState}
    (hview : confirmPasswordReset E s data A = .ok (r, after)) :
    ∃ user ∈ s.db.users.rows, ∃ newPassword, ∀ k,
      confirmPasswordResetCut E s data A k =
        if k < (saveReset E user newPassword A).length s then
          .ok (serverError, (Script.cut k (saveReset E user newPassword A) s).2)
        else .ok (r, after) := by
  unfold confirmPasswordReset at hview
  obtain ⟨fields, hfields, hview⟩ := bind_eq_ok.mp hview
  simp only at hview
  split at hview
  · next token newPassword htoken hpassword =>
    obtain ⟨user, hvalid, hview⟩ := bind_eq_ok.mp hview
    have hread := validatePasswordReset_eq_ok hvalid
    refine ⟨user, mem_of_readPasswordResetToken hread, newPassword, fun k => ?_⟩
    cases hview
    simp only [confirmPasswordResetCut, hfields, ok_bind, htoken, hpassword, hvalid]
    by_cases hk : k < (saveReset E user newPassword A).length s
    · rw [if_pos hk, Script.cut_of_lt hk]
      rfl
    · rw [if_neg hk, Script.cut_of_le (Nat.not_lt.mp hk), whole_saveReset]
      rfl
  · cases hview

/-! ## Where a failure leaves the tokens -/

section Tokens

variable {t : TokenTables}

theorem lastInsert_eq_zero_iff {os : List (Row OutstandingToken)} :
    t.lastInsert os = 0 ↔ ∀ o ∈ os, t.isBlacklisted o.id = true := by
  induction os with
  | nil => simp [TokenTables.lastInsert]
  | cons o rest ih =>
      rw [TokenTables.lastInsert, List.forall_mem_cons, ← ih]
      cases t.isBlacklisted o.id with
      | true => simp
      | false => simp

/-- The other tokens of the list are as blacklisted as they were. -/
theorem lastInsert_blacklist {o : Row OutstandingToken} (ho : o ∈ t.outstanding.rows)
    {os : List (Row OutstandingToken)} (hne : ∀ o' ∈ os, o'.id ≠ o.id) :
    (t.blacklist o).2.lastInsert os = t.lastInsert os := by
  induction os with
  | nil => rfl
  | cons o' rest ih =>
      have hid : (o.id == o'.id) = false := beq_false_of_ne (hne o' List.mem_cons_self).symm
      have hrest := ih fun o'' ho'' => hne o'' (List.mem_cons_of_mem o' ho'')
      simp only [TokenTables.lastInsert, TokenTables.isBlacklisted_blacklist ho, hid,
        Bool.or_false, hrest]

/-- The loop leaves the accounts and the outstanding tokens alone. -/
theorem cut_revokeScript_same {n revoked : Nat} {os : List (Row OutstandingToken)}
    {s : AuthState} :
    (Script.cut n (revokeScript revoked os) s).2.db = s.db ∧
      (Script.cut n (revokeScript revoked os) s).2.tokens.outstanding = s.tokens.outstanding := by
  induction os generalizing n revoked s with
  | nil => simp [revokeScript]
  | cons o rest ih =>
      rw [revokeScript]
      cases n with
      | zero => simp
      | succ n =>
          rw [Script.cut_query_succ]
          split
          · exact ih
          · cases n with
            | zero => simp
            | succ n =>
                rw [Script.cut_execute_succ]
                obtain ⟨hdb, houtstanding⟩ := ih (n := n)
                  (s := { s with tokens := (s.tokens.blacklist o).2 })
                exact ⟨hdb, by simpa using houtstanding⟩

/-- What is blacklisted stays so. -/
theorem cut_revokeScript_keeps {n revoked id : Nat} {os : List (Row OutstandingToken)}
    {s : AuthState} (hos : ∀ o ∈ os, o ∈ s.tokens.outstanding.rows)
    (h : s.tokens.isBlacklisted id = true) :
    (Script.cut n (revokeScript revoked os) s).2.tokens.isBlacklisted id = true := by
  induction os generalizing n revoked s with
  | nil => simpa [revokeScript] using h
  | cons o rest ih =>
      have ho := hos o List.mem_cons_self
      have hrest := fun o' ho' => hos o' (List.mem_cons_of_mem o ho')
      rw [revokeScript]
      cases n with
      | zero => exact h
      | succ n =>
          rw [Script.cut_query_succ]
          split
          · exact ih hrest h
          · cases n with
            | zero => exact h
            | succ n =>
                rw [Script.cut_execute_succ]
                apply ih
                · intro o' ho'
                  rw [TokenTables.outstanding_blacklist]
                  exact hrest o' ho'
                · rw [TokenTables.isBlacklisted_blacklist ho, h, Bool.true_or]

/-- **The loop is through with the list exactly if the last insert has succeeded.** -/
theorem cut_revokeScript_iff {n revoked : Nat} {os : List (Row OutstandingToken)} {s : AuthState}
    (hos : ∀ o ∈ os, o ∈ s.tokens.outstanding.rows) (hnodup : (os.map Row.id).Nodup) :
    (∀ o ∈ os, (Script.cut n (revokeScript revoked os) s).2.tokens.isBlacklisted o.id = true) ↔
      s.tokens.lastInsert os ≤ n := by
  induction os generalizing n revoked s with
  | nil => simp [TokenTables.lastInsert]
  | cons o rest ih =>
      obtain ⟨hne, hnodup⟩ := List.nodup_cons.mp hnodup
      have ho := hos o List.mem_cons_self
      have hrest := fun o' ho' => hos o' (List.mem_cons_of_mem o ho')
      rw [revokeScript]
      cases n with
      | zero =>
          -- not even the first look-up has succeeded
          rw [Nat.le_zero, lastInsert_eq_zero_iff]
          rfl
      | succ n =>
          rw [Script.cut_query_succ, List.forall_mem_cons, TokenTables.lastInsert]
          cases hfound : s.tokens.isBlacklisted o.id with
          | true =>
              simp only [if_true]
              rw [ih hrest hnodup, and_iff_right (cut_revokeScript_keeps hrest hfound)]
              split <;> omega
          | false =>
              simp only [Bool.false_eq_true, if_false]
              cases n with
              | zero =>
                  -- the insert raises
                  simp [hfound]
              | succ n =>
                  rw [Script.cut_execute_succ]
                  let s' : AuthState := { s with tokens := (s.tokens.blacklist o).2 }
                  have hrest' : ∀ o' ∈ rest, o' ∈ s'.tokens.outstanding.rows := by
                    intro o' ho'
                    rw [TokenTables.outstanding_blacklist]
                    exact hrest o' ho'
                  have hdone : s'.tokens.isBlacklisted o.id = true := by
                    simp [s', TokenTables.isBlacklisted_blacklist ho]
                  have hsame : s'.tokens.lastInsert rest = s.tokens.lastInsert rest :=
                    lastInsert_blacklist ho fun o' ho' heq => hne (heq ▸ List.mem_map_of_mem ho')
                  rw [and_iff_right (cut_revokeScript_keeps hrest' hdone), ih hrest' hnodup, hsame]
                  omega

end Tokens

/-! ## Both or neither -/

/-- The password hash of an account. -/
def AuthState.hashOf (s : AuthState) (user : Nat) : Option String :=
  (s.db.users.get? user).map (·.val.password)

/-- The account's password and the blacklist are as they were. -/
structure NotReset (user : Nat) (s s' : AuthState) : Prop where
  hash        : s'.hashOf user = s.hashOf user
  blacklisted : s'.tokens.blacklisted = s.tokens.blacklisted

/-- The account has the new password, and all of its refresh tokens are blacklisted. -/
structure FullyReset (user : Nat) (hash : String) (s' : AuthState) : Prop where
  hash        : s'.hashOf user = some hash
  blacklisted : ∀ o ∈ s'.tokens.outstanding.rows, o.val.user = some user →
    s'.tokens.isBlacklisted o.id = true

theorem hashOf_writeAccount {s : AuthState} {user : Row User} (huser : user ∈ s.db.users.rows)
    (hash : String) : (s.writeAccount user.id (.password hash)).hashOf user.id = some hash := by
  have hget : (s.writeAccount user.id (.password hash)).db.users.get? user.id =
      some ⟨user.id, (AccountWrite.password hash).apply user.val⟩ :=
    Table.get?_eq_some_iff.mpr ⟨Table.mem_modify.mpr (.inr ⟨user, huser, rfl, rfl⟩), rfl⟩
  rw [AuthState.hashOf, hget]
  rfl

/-- Past the update of the password only the blacklist is still to come. -/
theorem cut_saveReset_succ (E : AuthEnv) (s : AuthState) (user : Row User) (newPassword : String)
    (A : Ambient) (k : Nat) :
    let after := (Script.cut (k + 1) (saveReset E user newPassword A) s).2
    after.db = (s.writeAccount user.id (.password (E.makePassword newPassword A.nonce))).db ∧
      after.tokens.outstanding = s.tokens.outstanding ∧
      ((∀ o ∈ s.tokens.ofUser user.id, after.tokens.isBlacklisted o.id = true) ↔
        s.tokens.lastInsert (s.tokens.ofUser user.id) ≤ k - 1) := by
  intro after
  let stored := s.writeAccount user.id (.password (E.makePassword newPassword A.nonce))
  have hrows : ∀ o ∈ s.tokens.ofUser user.id, o ∈ stored.tokens.outstanding.rows :=
    fun o ho => List.mem_of_mem_filter ho
  have hnodup : ((s.tokens.ofUser user.id).map Row.id).Nodup :=
    s.tokens.outstanding.nodup_ids.sublist (List.filter_sublist.map Row.id)
  cases k with
  | zero =>
      -- the list of the tokens could not be read
      refine ⟨rfl, rfl, ?_⟩
      rw [Nat.le_zero, lastInsert_eq_zero_iff]
      rfl
  | succ k =>
      have hafter : after =
          (Script.cut k (revokeScript 0 (s.tokens.ofUser user.id)) stored).2 := rfl
      rw [hafter, cut_revokeScript_same.1, cut_revokeScript_same.2]
      exact ⟨rfl, rfl, cut_revokeScript_iff hrows hnodup⟩

/-- **When a reset is atomic.** For every account, password and set of refresh tokens, some of them
blacklisted: with `k` statements of the save succeeding and the next one raising, the password and
the blacklist are both as they were, or both fully updated, exactly if the statement that raises is
the update of the password, or comes after the last insert into the blacklist. -/
theorem reset_atomic_iff (E : AuthEnv) {s : AuthState} {user : Row User} {newPassword : String}
    {A : Ambient} (huser : user ∈ s.db.users.rows)
    (hfresh : E.makePassword newPassword A.nonce ≠ user.val.password) (k : Nat) :
    let after := (Script.cut k (saveReset E user newPassword A) s).2
    (NotReset user.id s after ∨
        FullyReset user.id (E.makePassword newPassword A.nonce) after) ↔
      k = 0 ∨ s.tokens.lastInsert (s.tokens.ofUser user.id) ≤ k - 2 := by
  intro after
  cases k with
  | zero => exact iff_of_true (.inl ⟨rfl, rfl⟩) (.inl rfl)
  | succ k =>
      obtain ⟨hdb, houtstanding, hloop⟩ := cut_saveReset_succ E s user newPassword A k
      have hhash : after.hashOf user.id = some (E.makePassword newPassword A.nonce) := by
        rw [AuthState.hashOf, hdb]
        exact hashOf_writeAccount huser _
      have hold : s.hashOf user.id = some user.val.password := by
        rw [AuthState.hashOf, Table.get?_eq_some_iff.mpr ⟨huser, rfl⟩]
        rfl
      have hfull : FullyReset user.id (E.makePassword newPassword A.nonce) after ↔
          ∀ o ∈ s.tokens.ofUser user.id, after.tokens.isBlacklisted o.id = true := by
        constructor
        · intro h o ho
          obtain ⟨ho, hof⟩ := List.mem_filter.mp ho
          exact h.blacklisted o (houtstanding ▸ ho) (by simpa using hof)
        · intro h
          refine ⟨hhash, fun o ho hof => h o (List.mem_filter.mpr ⟨houtstanding ▸ ho, ?_⟩)⟩
          simpa using hof
      rw [hfull, hloop]
      constructor
      · rintro (hnot | hdone)
        · -- the hash is another one by now
          have hsame := hnot.hash
          rw [hhash, hold] at hsame
          exact absurd (Option.some.inj hsame) hfresh
        · exact .inr (by omega)
      · rintro (hzero | hdone)
        · omega
        · exact .inr (by omega)

/-! ## A session that goes on -/

/-- Alice has two sessions. -/
def aliceTwice : AuthState :=
  { AuthState.plain with
    tokens := ((TokenTables.empty.getOrCreate ⟨some 1, "j1"⟩).2.getOrCreate ⟨some 1, "j2"⟩).2 }

/-- The fifth statement raises, the look-up of her second token in the blacklist. -/
theorem reset_stops_halfway :
    let data := texts [("token", generatePasswordResetToken Signing.plain plainAlice 3),
      ("new_password", "passw0rd")]
    let out := (confirmPasswordResetCut AuthEnv.plain aliceTwice data ⟨4, "salt", true⟩ 4).outcome
      aliceTwice
    out.status = 500 ∧ out.after.hashOf 1 = some "salt$passw0rd" ∧
      out.after.tokens.isBlacklisted 1 = true ∧ out.after.tokens.isBlacklisted 2 = false ∧
      ¬(NotReset 1 aliceTwice out.after ∨ FullyReset 1 "salt$passw0rd" out.after) := by
  intro data out
  have hhash : out.after.hashOf 1 = some "salt$passw0rd" := by decide +kernel
  have hsecond : out.after.tokens.isBlacklisted 2 = false := by decide +kernel
  refine ⟨by decide +kernel, hhash, by decide +kernel, hsecond, ?_⟩
  rintro (hnot | hfull)
  · have hsame := hnot.hash
    rw [hhash] at hsame
    exact absurd hsame (by decide)
  · have hrow : ⟨2, some 1, "j2"⟩ ∈ out.after.tokens.outstanding.rows := by decide +kernel
    have hdone := hfull.blacklisted _ hrow rfl
    rw [hsecond] at hdone
    cases hdone

/-- Her second token is blacklisted: that session has ended. -/
def aliceOnce : AuthState :=
  { aliceTwice with tokens := (aliceTwice.tokens.blacklist ⟨2, some 1, "j2"⟩).2 }

/-- It is atomic where the update raises, where nothing does, and where only the look-up of a token
raises that is blacklisted. -/
theorem reset_atomic_iff_twice :
    let after := fun s k =>
      (Script.cut k (saveReset AuthEnv.plain plainAlice "passw0rd" ⟨4, "salt", true⟩) s).2
    (NotReset 1 aliceTwice (after aliceTwice 0) ∨
        FullyReset 1 "salt$passw0rd" (after aliceTwice 0)) ∧
      (NotReset 1 aliceTwice (after aliceTwice 6) ∨
        FullyReset 1 "salt$passw0rd" (after aliceTwice 6)) ∧
      (NotReset 1 aliceOnce (after aliceOnce 4) ∨
        FullyReset 1 "salt$passw0rd" (after aliceOnce 4)) := by
  intro after
  have hfresh : AuthEnv.plain.makePassword "passw0rd" "salt" ≠ plainAlice.val.password := by
    decide +kernel
  have htwice := fun k => reset_atomic_iff AuthEnv.plain (s := aliceTwice) (A := ⟨4, "salt", true⟩)
    (by decide +kernel) hfresh k
  have honce := reset_atomic_iff AuthEnv.plain (s := aliceOnce) (A := ⟨4, "salt", true⟩)
    (by decide +kernel) hfresh 4
  exact ⟨(htwice 0).mpr (.inl rfl), (htwice 6).mpr (.inr (by decide +kernel)),
    honce.mpr (.inr (by decide +kernel))⟩

end Bastiq
