import Bastiq.Accounts.Auth

/-!
# What a password reset does to sessions

A refresh token is followed through a run by the row it was recorded in. The row stays, and it is
blacklisted by two things alone: a refresh that consumes the token, and a reset of its account's
password (`TokenRow.step_kept`, `TokenRow.step_turned`). A blacklisted row stays blacklisted. So a
token is accepted exactly as long as neither has happened, it has not expired, and its account is
there and active.
-/

namespace Bastiq

open Relational Transition View

/-! ## A rotation -/

namespace TokenTables

variable {s : TokenTables}

theorem isBlacklisted_nextId (s : TokenTables) : s.isBlacklisted s.outstanding.nextId = false := by
  by_contra h
  have hlt := lt_of_isBlacklisted (Bool.not_eq_false _ ▸ h)
  omega

theorem getOrCreate_mem {v : OutstandingToken} {o : Row OutstandingToken}
    (ho : o ∈ s.outstanding.rows) : o ∈ (s.getOrCreate v).2.outstanding.rows := by
  rcases s.getOrCreate_cases v with ⟨o', -, -, h⟩ | ⟨hfresh, h⟩
  · rwa [h]
  · rw [h]
    exact Table.mem_insert.mpr (.inl ho)

theorem mem_of_getOrCreate {v : OutstandingToken} {o : Row OutstandingToken}
    (ho : o ∈ (s.getOrCreate v).2.outstanding.rows) :
    o ∈ s.outstanding.rows ∨ o.val.user = v.user := by
  rcases s.getOrCreate_cases v with ⟨o', -, -, h⟩ | ⟨hfresh, h⟩
  · rw [h] at ho
    exact .inl ho
  · rw [h] at ho
    rcases Table.mem_insert.mp ho with ho | rfl
    · exact .inl ho
    · exact .inr rfl

theorem getOrCreate_row (v : OutstandingToken) :
    (s.getOrCreate v).1 ∈ (s.getOrCreate v).2.outstanding.rows ∧
      (s.getOrCreate v).1.val.jti = v.jti := by
  rcases s.getOrCreate_cases v with ⟨o', ho', hjti, h⟩ | ⟨hfresh, h⟩
  · rw [h]
    exact ⟨ho', hjti⟩
  · rw [h]
    exact ⟨Table.mem_insert.mpr (.inr rfl), rfl⟩

@[simp] theorem isBlacklisted_getOrCreate (v : OutstandingToken) (id : Nat) :
    (s.getOrCreate v).2.isBlacklisted id = s.isBlacklisted id := by
  rcases s.getOrCreate_cases v with ⟨o', -, -, h⟩ | ⟨hfresh, h⟩
  · rw [h]
  · rw [h, isBlacklisted_insert]

theorem fresh_getOrCreate {v : OutstandingToken} {jti : String} (h : s.Fresh jti)
    (hne : v.jti ≠ jti) : (s.getOrCreate v).2.Fresh jti := by
  rcases s.getOrCreate_cases v with ⟨o', -, -, heq⟩ | ⟨hfresh, heq⟩
  · rwa [heq]
  · rw [heq]
    intro o ho
    rcases Table.mem_insert.mp ho with ho | rfl
    · exact h o ho
    · exact hne

end TokenTables

section Rotate

variable {s : AuthState} {A : Ambient} {token : RefreshToken} {o : Row OutstandingToken}

theorem rotate_mem (ho : o ∈ s.tokens.outstanding.rows) :
    o ∈ (rotate s A token).outstanding.rows := by
  apply TokenTables.getOrCreate_mem
  rw [TokenTables.outstanding_blacklist]
  exact TokenTables.getOrCreate_mem ho

/-- The rows a rotation makes are the account's. -/
theorem mem_of_rotate (ho : o ∈ (rotate s A token).outstanding.rows) :
    o ∈ s.tokens.outstanding.rows ∨ o.val.user = some token.claims.user := by
  rcases TokenTables.mem_of_getOrCreate ho with ho | huser
  · rw [TokenTables.outstanding_blacklist] at ho
    exact TokenTables.mem_of_getOrCreate ho
  · exact .inr huser

/-- A rotation blacklists the token it consumes. -/
theorem isBlacklisted_rotate (ho : o ∈ s.tokens.outstanding.rows) :
    (rotate s A token).isBlacklisted o.id =
      (s.tokens.isBlacklisted o.id || o.val.jti == token.jti) := by
  obtain ⟨hmem, hjti⟩ :=
    s.tokens.getOrCreate_row ⟨some token.claims.user, token.jti⟩
  have ho' := TokenTables.getOrCreate_mem (v := ⟨some token.claims.user, token.jti⟩) ho
  simp only [rotate, TokenTables.isBlacklisted_getOrCreate,
    TokenTables.isBlacklisted_blacklist hmem]
  congr 1
  rw [Bool.eq_iff_iff, beq_iff_eq, beq_iff_eq]
  constructor
  · intro hid
    rw [← Table.eq_of_id_eq _ hmem ho' hid]
    exact hjti
  · intro heq
    rw [TokenTables.eq_of_jti_eq hmem ho' (hjti.trans heq.symm)]

/-- The row of the token that takes its place. -/
theorem exists_rotated (hfresh : s.tokens.Fresh A.nonce) (hne : token.jti ≠ A.nonce) :
    ∃ o ∈ (rotate s A token).outstanding.rows, o.val = ⟨some token.claims.user, A.nonce⟩ ∧
      (rotate s A token).isBlacklisted o.id = false := by
  let consumed := s.tokens.getOrCreate ⟨some token.claims.user, token.jti⟩
  let tokens := (consumed.2.blacklist consumed.1).2
  have hunused : tokens.Fresh A.nonce := by
    intro o ho
    rw [TokenTables.outstanding_blacklist] at ho
    exact TokenTables.fresh_getOrCreate hfresh hne o ho
  have hrotate : rotate s A token = tokens.insert ⟨some token.claims.user, A.nonce⟩ hunused := by
    show (tokens.getOrCreate _).2 = _
    rw [TokenTables.getOrCreate_of_fresh hunused]
  rw [hrotate]
  refine ⟨⟨tokens.outstanding.nextId, _⟩, Table.mem_insert.mpr (.inr rfl), rfl, ?_⟩
  rw [TokenTables.isBlacklisted_insert]
  exact tokens.isBlacklisted_nextId

end Rotate

/-! ## What calls do with tokens -/

section Calls

variable (E : AuthEnv) (s : AuthState) (c : AuthCall)

/-- The call is answered with the refresh token. -/
def Mints (token : RefreshToken) : Prop :=
  ∃ access, (c.outcome E s).tokens = some ⟨E.encode token, access⟩

/-- The call presents the refresh token. -/
def Presents (token : RefreshToken) : Prop :=
  ∃ data text, c.request = .refresh data ∧ sentText data "refresh" = some text ∧
    E.decode text = some token

/-- The `jti` of the call is a new one: no token that was recorded or is presented has it. -/
structure FreshJti : Prop where
  recorded  : s.tokens.Fresh c.ambient.nonce
  presented : ∀ token, Presents E c token → token.jti ≠ c.ambient.nonce

/-- A successful refresh that consumes the token with this `jti`. -/
def AuthCall.consumes (jti : String) : Bool :=
  match c.request with
  | .refresh data => (c.outcome E s).status == 200 &&
      (sentText data "refresh").any fun text => (E.decode text).any (·.jti == jti)
  | _ => false

end Calls

section Sessions

variable {E : AuthEnv} {s : AuthState} {c : AuthCall} {id u : Nat} {jti : String}

theorem consumes_of_status (h : (c.outcome E s).status ≠ 200) : c.consumes E s jti = false := by
  unfold AuthCall.consumes
  split
  · simp [h]
  · rfl

/-- Keys of accounts are not given out twice. -/
theorem AuthCall.exists_row_before {v' : Row User} (hv' : v' ∈ (c.step E s).db.users.rows)
    (hold : v'.id < s.db.users.nextId) : ∃ v ∈ s.db.users.rows, v.id = v'.id := by
  have hchange := c.change E s
  unfold AuthCall.step at hv'
  generalize c.outcome E s = out at hchange hv'
  cases hchange with
  | same _ | refreshed _ _ _ _ _ _ _ _ => exact ⟨v', hv', rfl⟩
  | registered hrequest hview hverified =>
      rcases Table.mem_insert.mp hv' with hv' | rfl
      · exact ⟨v', hv', rfl⟩
      · exact absurd hold (Nat.lt_irrefl _)
  | deleted hrequest => exact ⟨v', (mem_deleteUser.mp hv').1, rfl⟩
  | verified _ _ _ | loggedIn _ _ _ _ _ | unverified _ _ _ _ _ | reset _ _ _ _ =>
      rcases Table.mem_modify.mp hv' with ⟨hv', -⟩ | ⟨v, hv, hid, rfl⟩
      · exact ⟨v', hv', rfl⟩
      · exact ⟨v, hv, hid⟩

/-- The row a token of the account was recorded in. It forgets an account that is deleted. -/
structure TokenRow (id : Nat) (jti : String) (u : Nat) (s : AuthState) : Prop where
  row   : ∃ o ∈ s.tokens.outstanding.rows, o.id = id ∧ o.val.jti = jti ∧
    (o.val.user = some u ∨ o.val.user = none ∧ ∀ v ∈ s.db.users.rows, v.id ≠ u)
  known : u < s.db.users.nextId

/-- A row that a call leaves stays the row of its token. -/
theorem TokenRow.of_mem (h : TokenRow id jti u s)
    (hrows : ∀ o ∈ s.tokens.outstanding.rows, o ∈ (c.step E s).tokens.outstanding.rows) :
    TokenRow id jti u (c.step E s) := by
  obtain ⟨o, ho, hid, hjti, huser⟩ := h.row
  refine ⟨⟨o, hrows o ho, hid, hjti, ?_⟩, Nat.lt_of_lt_of_le h.known c.nextId_le⟩
  rcases huser with huser | ⟨hnone, habsent⟩
  · exact .inl huser
  · refine .inr ⟨hnone, ?_⟩
    rintro v' hv' rfl
    obtain ⟨v, hv, hsame⟩ := c.exists_row_before hv' h.known
    exact habsent v hv hsame

/-- Revoking the tokens of an account that is there blacklists the token exactly if it is that
account's. -/
theorem TokenRow.isBlacklisted_revoke (h : TokenRow id jti u s) {user : Row User}
    (huser : user ∈ s.db.users.rows) :
    (s.tokens.revokeAllRefreshTokens user.id).2.isBlacklisted id =
      (s.tokens.isBlacklisted id || user.id == u) := by
  obtain ⟨o, ho, rfl, -, hof⟩ := h.row
  rw [Bool.eq_iff_iff, TokenTables.isBlacklisted_revoke, Bool.or_eq_true, beq_iff_eq]
  refine or_congr_right ⟨?_, ?_⟩
  · rintro ⟨o', ho', hof', hid⟩
    obtain rfl := s.tokens.outstanding.eq_of_id_eq ho' ho hid
    rcases hof with hof | ⟨hnone, -⟩
    · exact Option.some.inj (hof'.symm.trans hof)
    · rw [hnone] at hof'
      cases hof'
  · rintro rfl
    rcases hof with hof | ⟨-, habsent⟩
    · exact ⟨o, ho, hof, rfl⟩
    · exact absurd rfl (habsent user huser)

/-- A row keeps its token when an account is deleted, and forgets its own. -/
theorem TokenRow.forget (h : TokenRow id jti u s) (user : Nat)
    (hnext : s.db.users.nextId ≤ (deleteUser s.db user).users.nextId) :
    TokenRow id jti u ⟨deleteUser s.db user, s.tokens.forget user⟩ := by
  obtain ⟨o, ho, rfl, rfl, hof⟩ := h.row
  refine ⟨⟨_, Table.mem_update.mpr ⟨o, ho, rfl⟩, Table.setRow_id _ _ o, ?_, ?_⟩,
    Nat.lt_of_lt_of_le h.known hnext⟩
  · unfold Table.setRow
    split <;> rfl
  · by_cases hdeleted : user = u
    · subst hdeleted
      refine .inr ⟨?_, fun v hv => (mem_deleteUser.mp hv).2⟩
      rcases hof with hof | ⟨hnone, -⟩
      · simp [Table.setRow, hof]
      · simp [Table.setRow, hnone]
    · rcases hof with hof | ⟨hnone, habsent⟩
      · refine .inl ?_
        simp [Table.setRow, hof, Ne.symm hdeleted]
      · refine .inr ⟨by simp [Table.setRow, hnone], ?_⟩
        intro v hv
        exact habsent v (mem_deleteUser.mp hv).1

/-- **What a call does to the row of a token**: a refresh that consumes the token and a reset of its
account blacklist it, and nothing else. -/
theorem TokenRow.step (h : TokenRow id jti u s) :
    TokenRow id jti u (c.step E s) ∧
      (c.step E s).tokens.isBlacklisted id =
        (s.tokens.isBlacklisted id || c.consumes E s jti || c.resets E s u) := by
  have hchange := c.change E s
  have hkept := h.of_mem (E := E) (c := c)
  have hnext := c.nextId_le (E := E) (s := s)
  unfold AuthCall.step at hkept hnext ⊢
  generalize hout : c.outcome E s = out at hchange hkept hnext ⊢
  cases hchange with
  | same hstatus =>
      have hstatus : (c.outcome E s).status ≠ 200 := by rwa [hout]
      refine ⟨h, ?_⟩
      simp [consumes_of_status hstatus, resets_of_status hstatus]
  | registered hrequest hview hverified =>
      refine ⟨hkept fun o ho => ho, ?_⟩
      simp [AuthCall.consumes, AuthCall.resets, hrequest]
  | verified hrequest htoken hread =>
      refine ⟨hkept fun o ho => ho, ?_⟩
      simp [AuthCall.consumes, AuthCall.resets, hrequest, AuthState.writeAccount]
  | loggedIn hrequest _ _ _ hcreate | unverified hrequest _ _ _ hcreate =>
      obtain ⟨hfresh, rfl⟩ := TokenTables.create_eq_some.mp hcreate
      refine ⟨hkept fun o ho => Table.mem_insert.mpr (.inl ho), ?_⟩
      simp [AuthCall.consumes, AuthCall.resets, hrequest, AuthState.writeAccount]
  | @refreshed data text token user hrequest htext hdecode hage hrefuses huser hid hactive =>
      refine ⟨hkept fun o ho => rotate_mem ho, ?_⟩
      obtain ⟨o, ho, rfl, rfl, -⟩ := h.row
      have hconsumes : c.consumes E s o.val.jti = (token.jti == o.val.jti) := by
        simp [AuthCall.consumes, hrequest, hout, htext, hdecode]
      have hresets : c.resets E s u = false := by simp [AuthCall.resets, hrequest]
      rw [isBlacklisted_rotate ho, hconsumes, hresets, Bool.or_false, BEq.comm]
  | @reset data token newPassword user hrequest htoken hpassword hread =>
      refine ⟨hkept fun o ho => by rwa [TokenTables.outstanding_revoke], ?_⟩
      have hconsumes : c.consumes E s jti = false := by simp [AuthCall.consumes, hrequest]
      have hresets : c.resets E s u = (user.id == u) := by
        simp [AuthCall.resets, hrequest, hout, htoken, hread]
      rw [h.isBlacklisted_revoke (mem_of_readPasswordResetToken hread), hconsumes, hresets,
        Bool.or_false]
  | @deleted user hrequest =>
      refine ⟨h.forget user hnext, ?_⟩
      have hsame : (s.tokens.forget user).isBlacklisted id = s.tokens.isBlacklisted id := rfl
      simp [AuthCall.consumes, AuthCall.resets, hrequest, hsame]

/-! ## The life of a refresh token -/

/-- A call keeps the token: it does not consume it, and does not reset the account. -/
def KeepsToken (E : AuthEnv) (jti : String) (u : Nat) (s : AuthState) (c : AuthCall) : Prop :=
  c.consumes E s jti = false ∧ c.resets E s u = false

instance (E : AuthEnv) (jti : String) (u : Nat) (s : AuthState) (c : AuthCall) :
    Decidable (KeepsToken E jti u s c) := inferInstanceAs (Decidable (_ ∧ _))

/-- **The row over a run**: it is blacklisted from the first call on that does not keep the token. -/
theorem TokenRow.run (h : TokenRow id jti u s) (hlive : s.tokens.isBlacklisted id = false)
    (later : List AuthCall) :
    let after := Transition.run (AuthCall.step E) s later
    TokenRow id jti u after ∧ (after.tokens.isBlacklisted id = false ↔
      Each (AuthCall.step E) (KeepsToken E jti u) s later) := by
  intro after
  have hkept : ∀ s (c : AuthCall), TokenRow id jti u s ∧ s.tokens.isBlacklisted id = false → True →
      KeepsToken E jti u s c →
      TokenRow id jti u (c.step E s) ∧ (c.step E s).tokens.isBlacklisted id = false := by
    rintro s c ⟨hrow, hlive⟩ - ⟨hconsumes, hresets⟩
    refine ⟨hrow.step.1, ?_⟩
    simp [hrow.step.2, hlive, hconsumes, hresets]
  have hturned : ∀ s (c : AuthCall), TokenRow id jti u s ∧ s.tokens.isBlacklisted id = false → True →
      ¬ KeepsToken E jti u s c →
      TokenRow id jti u (c.step E s) ∧ (c.step E s).tokens.isBlacklisted id = true := by
    rintro s c ⟨hrow, hlive⟩ - hnot
    refine ⟨hrow.step.1, ?_⟩
    rw [hrow.step.2, hlive, Bool.false_or]
    by_contra hneither
    simp only [Bool.or_eq_true, not_or, Bool.not_eq_true] at hneither
    exact hnot hneither
  have hstays : ∀ s (c : AuthCall), TokenRow id jti u s ∧ s.tokens.isBlacklisted id = true → True →
      TokenRow id jti u (c.step E s) ∧ (c.step E s).tokens.isBlacklisted id = true := by
    rintro s c ⟨hrow, hdead⟩ -
    refine ⟨hrow.step.1, ?_⟩
    simp [hrow.step.2, hdead]
  have hall : Each (AuthCall.step E) (fun _ _ => True) s later :=
    each_of_forall (fun _ _ => trivial) later s
  rcases kept_or_turned hkept hturned hstays ⟨h, hlive⟩ hall with ⟨heach, hrow, hlive⟩ |
    ⟨hnot, hrow, hdead⟩
  · exact ⟨hrow, iff_of_true hlive heach⟩
  · refine ⟨hrow, iff_of_false ?_ hnot⟩
    rw [hdead]
    exact Bool.noConfusion

/-- **A token that was minted** has a row of its own, under the account's name. -/
theorem Mints.tokenRow (hjwt : E.toJwt.Reads) (hfresh : FreshJti E s c) {token : RefreshToken}
    (h : Mints E s c token) :
    token.jti = c.ambient.nonce ∧ token.exp = c.ambient.now + E.refreshTokenLifetime ∧
      ∃ id, TokenRow id token.jti token.claims.user (c.step E s) ∧
        (c.step E s).tokens.isBlacklisted id = false := by
  obtain ⟨access, htokens⟩ := h
  have hread : ∀ minted, E.encode minted = E.encode token → minted = token := by
    intro minted heq
    have hdecode := congrArg E.decode heq
    rw [hjwt minted, hjwt token] at hdecode
    exact Option.some.inj hdecode
  have hchange := c.change E s
  have hnext := c.nextId_le (E := E) (s := s)
  unfold AuthCall.step at hnext ⊢
  generalize hout : c.outcome E s = out at hchange htokens hnext ⊢
  cases hchange with
  | @loggedIn data user tokens hrequest huser hactive hlogin hcreate =>
      obtain ⟨htoken, -⟩ := TokenPair.mk.inj (Option.some.inj htokens)
      obtain rfl := hread _ htoken
      obtain ⟨hunused, rfl⟩ := TokenTables.create_eq_some.mp hcreate
      refine ⟨rfl, rfl, s.tokens.outstanding.nextId, ⟨⟨⟨_, _⟩, Table.mem_insert.mpr (.inr rfl), rfl,
        rfl, .inl rfl⟩, Nat.lt_of_lt_of_le (s.db.users.fresh user huser) hnext⟩, ?_⟩
      exact s.tokens.isBlacklisted_nextId
  | @refreshed data text presented user hrequest htext hdecode hage hrefuses huser hid hactive =>
      obtain ⟨htoken, -⟩ := TokenPair.mk.inj (Option.some.inj htokens)
      obtain rfl := hread _ htoken
      obtain ⟨o, ho, hval, hlive⟩ := exists_rotated hfresh.recorded
        (hfresh.presented presented ⟨data, text, hrequest, htext, hdecode⟩)
      refine ⟨rfl, rfl, o.id, ⟨⟨o, ho, rfl, by rw [hval], .inl (by rw [hval])⟩, ?_⟩, hlive⟩
      exact Nat.lt_of_lt_of_le (hid ▸ s.db.users.fresh user huser) hnext
  | _ => cases htokens

/-- **When a refresh is accepted.** -/
theorem refresh_accepted_iff (hjwt : E.toJwt.Reads) {data : RequestData} {token : RefreshToken}
    (hsent : sentText data "refresh" = some (E.encode token)) (A : Ambient) :
    ((⟨.refresh data, A⟩ : AuthCall).outcome E s).status = 200 ↔
      A.now < token.exp ∧ s.tokens.refuses token.jti = false ∧
        ∃ v ∈ s.db.users.rows, v.id = token.claims.user ∧ v.val.isActive = true := by
  constructor
  · intro h200
    have hchange := AuthCall.change E ⟨.refresh data, A⟩ s
    generalize (⟨.refresh data, A⟩ : AuthCall).outcome E s = out at hchange h200
    cases hchange with
    | same hstatus => exact absurd h200 hstatus
    | @refreshed data' text presented user hrequest htext hdecode hage hrefuses huser hid hactive =>
        cases hrequest
        rw [hsent] at htext
        obtain rfl := Option.some.inj htext
        rw [hjwt token] at hdecode
        obtain rfl := Option.some.inj hdecode
        exact ⟨hage, hrefuses, user, huser, hid, hactive⟩
    | registered hrequest | verified hrequest | loggedIn hrequest | unverified hrequest
    | reset hrequest | deleted hrequest => cases hrequest
  · rintro ⟨hage, hrefuses, v, hv, hid, hactive⟩
    obtain ⟨fields, hfields, htext⟩ := exists_fields hsent
    have hverify : verifyRefreshToken (β := TokenPair) E s A (E.encode token) = .ok token :=
      verifyRefreshToken_eq_ok.mpr ⟨hjwt token, hage, hrefuses⟩
    have hget : s.db.users.get? token.claims.user = some v := Table.get?_eq_some_iff.mpr ⟨hv, hid⟩
    simp [AuthCall.outcome, refresh, hfields, htext, hverify, hget, hactive, require,
      AuthView.outcome]

/-! ## After a reset -/

/-- No call of the account's is accepted any more: all its tokens are blacklisted. -/
def Closed (u : Nat) (s : AuthState) : Prop :=
  ∀ o ∈ s.tokens.outstanding.rows, o.val.user = some u → s.tokens.isBlacklisted o.id = true

/-- The token has its row. -/
def Recorded (s : AuthState) (token : RefreshToken) : Prop :=
  ∃ id, TokenRow id token.jti token.claims.user s

/-- Nobody logs in to the account. -/
def NoLogin (E : AuthEnv) (u : Nat) (s : AuthState) (c : AuthCall) : Prop :=
  ∀ v ∈ c.authenticates E s, v.id ≠ u

instance (E : AuthEnv) (u : Nat) (s : AuthState) (c : AuthCall) : Decidable (NoLogin E u s c) :=
  inferInstanceAs (Decidable (∀ v ∈ c.authenticates E s, v.id ≠ u))

theorem closed_of_resets (h : c.resets E s u = true) : Closed u (c.step E s) := by
  have hchange := c.change E s
  have hstatus : (c.outcome E s).status = 200 := by
    by_contra hne
    rw [resets_of_status hne] at h
    cases h
  unfold AuthCall.step
  generalize hout : c.outcome E s = out at hchange hstatus ⊢
  cases hchange with
  | same hne => exact absurd hstatus hne
  | @reset data token newPassword user hrequest htoken hpassword hread =>
      have hid : user.id = u := by
        simpa [AuthCall.resets, hrequest, hout, htoken, hread] using h
      intro o ho huser
      rw [TokenTables.outstanding_revoke] at ho
      exact TokenTables.isBlacklisted_revoke.mpr (.inr ⟨o, ho, hid ▸ huser, rfl⟩)
  | registered hrequest | verified hrequest | loggedIn hrequest | unverified hrequest
  | refreshed hrequest | deleted hrequest =>
      simp [AuthCall.resets, hrequest] at h

/-- It stays so until the next login: a refresh would need a token that is not blacklisted. -/
theorem Closed.step (h : Closed u s) (hlogin : NoLogin E u s c)
    (hrecorded : ∀ token, Presents E c token → Recorded s token) : Closed u (c.step E s) := by
  have hchange := c.change E s
  unfold AuthCall.step
  generalize c.outcome E s = out at hchange ⊢
  cases hchange with
  | same hstatus => exact h
  | registered hrequest hview hverified => exact h
  | verified hrequest htoken hread => exact h
  | loggedIn _ _ _ hauthenticates hcreate | unverified _ _ _ hauthenticates hcreate =>
      obtain ⟨hfresh, rfl⟩ := TokenTables.create_eq_some.mp hcreate
      intro o ho huser
      rcases Table.mem_insert.mp ho with ho | rfl
      · exact h o ho huser
      · exact absurd (Option.some.inj huser) (hlogin _ hauthenticates)
  | @refreshed data text token user hrequest htext hdecode hage hrefuses huser hid hactive =>
      intro o ho howner
      rcases mem_of_rotate ho with ho | hmine
      · rw [isBlacklisted_rotate ho, h o ho howner, Bool.true_or]
      · -- the token that was presented is the account's, so it is blacklisted
        obtain rfl := Option.some.inj (howner.symm.trans hmine)
        obtain ⟨id, hrow⟩ := hrecorded token ⟨data, text, hrequest, htext, hdecode⟩
        obtain ⟨o', ho', -, hjti, huser'⟩ := hrow.row
        rcases huser' with huser' | ⟨-, habsent⟩
        · have hblack := h o' ho' huser'
          rw [← TokenTables.refuses_iff ho', hjti, hrefuses] at hblack
          cases hblack
        · exact absurd hid (habsent user huser)
  | reset hrequest htoken hpassword hread =>
      intro o ho howner
      rw [TokenTables.outstanding_revoke] at ho
      exact TokenTables.isBlacklisted_revoke.mpr (.inl (h o ho howner))
  | deleted hrequest =>
      intro o ho howner
      obtain ⟨o', ho', rfl⟩ := Table.mem_update.mp ho
      unfold Table.setRow at howner ⊢
      split at howner
      · cases howner
      · next hne =>
        rw [if_neg hne]
        exact h o' ho' howner

/-- The refresh tokens that are presented have been issued before: they are among `issued`, or a
call of the run was answered with them. -/
def Genuine (E : AuthEnv) (issued : RefreshToken → Prop) (s : AuthState) : List AuthCall → Prop
  | [] => True
  | c :: later => (∀ token, Presents E c token → issued token) ∧
      Genuine E (fun token => issued token ∨ Mints E s c token) (c.step E s) later

theorem Closed.run (hjwt : E.toJwt.Reads) {issued : RefreshToken → Prop}
    (hissued : ∀ token, issued token → Recorded s token) (h : Closed u s) {later : List AuthCall}
    (hgenuine : Genuine E issued s later) (hlogin : Each (AuthCall.step E) (NoLogin E u) s later)
    (hfresh : Each (AuthCall.step E) (FreshJti E) s later) :
    Closed u (Transition.run (AuthCall.step E) s later) := by
  induction later generalizing s issued with
  | nil => exact h
  | cons c later ih =>
      refine ih ?_ (h.step hlogin.1 fun token hpresents => hissued token (hgenuine.1 token hpresents))
        hgenuine.2 hlogin.2 hfresh.2
      rintro token (hold | hmints)
      · obtain ⟨id, hrow⟩ := hissued token hold
        exact ⟨id, hrow.step.1⟩
      · obtain ⟨-, -, id, hrow, -⟩ := hmints.tokenRow hjwt hfresh.1
        exact ⟨id, hrow⟩

/-- **A reset ends the sessions of its account, and no others.** A refresh token that a call is
answered with is accepted later exactly if it has not expired, its account is there and active, and
in between it was not consumed and no password of its account was reset: so a reset ends every token
that was minted for the account before it, and no token of another account and none that comes after.
After a reset there is nothing left to revoke until somebody logs in to the account. -/
theorem reset_ends_sessions (E : AuthEnv) (hjwt : E.toJwt.Reads) (s : AuthState) (c : AuthCall)
    (hfresh : FreshJti E s c) (later : List AuthCall) :
    let after := Transition.run (AuthCall.step E) (c.step E s) later
    (∀ token, Mints E s c token → ∀ data, sentText data "refresh" = some (E.encode token) → ∀ A,
      (((⟨.refresh data, A⟩ : AuthCall).outcome E after).status = 200 ↔
        A.now < c.ambient.now + E.refreshTokenLifetime ∧
          (∃ v ∈ after.db.users.rows, v.id = token.claims.user ∧ v.val.isActive = true) ∧
          Each (AuthCall.step E) (KeepsToken E token.jti token.claims.user) (c.step E s) later)) ∧
    ∀ u, c.resets E s u = true → Genuine E (Recorded s) s (c :: later) →
      Each (AuthCall.step E) (FreshJti E) (c.step E s) later →
      Each (AuthCall.step E) (NoLogin E u) (c.step E s) later →
      after.tokens.revokeAllRefreshTokens u = (0, after.tokens) := by
  intro after
  constructor
  · intro token hmints data hsent A
    obtain ⟨-, hexp, id, hrow, hlive⟩ := hmints.tokenRow hjwt hfresh
    obtain ⟨hrow', hiff⟩ := hrow.run hlive later
    obtain ⟨o, ho, hid, hjti, -⟩ := hrow'.row
    have hrefuses : after.tokens.refuses token.jti = after.tokens.isBlacklisted id := by
      rw [← hjti, TokenTables.refuses_iff ho, hid]
    rw [refresh_accepted_iff hjwt hsent, hexp, hrefuses, hiff]
    exact and_congr_right fun _ => and_comm
  · intro u hresets hgenuine hjtis hlogin
    apply TokenTables.revoke_of_isBlacklisted
    refine Closed.run hjwt ?_ (closed_of_resets hresets) hgenuine.2 hlogin hjtis
    rintro token (⟨id, hrow⟩ | hmints)
    · exact ⟨id, hrow.step.1⟩
    · obtain ⟨-, -, id, hrow, -⟩ := hmints.tokenRow hjwt hfresh
      exact ⟨id, hrow⟩

end Sessions

/-! ## Two sessions -/

theorem freshJti_of_login {E : AuthEnv} {s : AuthState} {data : RequestData} {A : Ambient}
    (h : s.tokens.Fresh A.nonce) : FreshJti E s ⟨.login data, A⟩ := by
  refine ⟨h, ?_⟩
  rintro token ⟨data', text, hrequest, -⟩
  cases hrequest

theorem freshJti_of_refresh {s : AuthState} {token : RefreshToken} {now : Int} {jti : String}
    (h : s.tokens.Fresh jti) (hne : token.jti ≠ jti)
    (hsent : sentText (texts [("refresh", Jwt.plainEncode token)]) "refresh" =
      some (Jwt.plainEncode token)) :
    FreshJti AuthEnv.plain s (.refreshPlain (Jwt.plainEncode token) now jti) := by
  refine ⟨h, ?_⟩
  rintro presented ⟨data, text, hrequest, htext, hdecode⟩
  cases hrequest
  rw [hsent] at htext
  obtain rfl := Option.some.inj htext
  obtain rfl := Option.some.inj (hdecode.symm.trans (jwtReads_plain token))
  exact hne

/-- Alice has logged in. -/
def aliceIn : AuthState := (AuthCall.loginPlain "a@x.io" 1 "j1").step AuthEnv.plain AuthState.plain

def plainToken (u : Row User) (jti : String) (exp : Int) : RefreshToken := ⟨tokenClaims u, jti, exp⟩

/-- Her session is handed over. -/
def aliceRotated : AuthState :=
  (AuthCall.refreshPlain (Jwt.plainEncode (plainToken plainAlice "j1" 21)) 2 "j2").step
    AuthEnv.plain aliceIn

/-- So it is again. -/
def aliceRotates : AuthCall :=
  .refreshPlain (Jwt.plainEncode (plainToken plainAlice "j2" 22)) 3 "j3"

/-- Bob logs in. -/
def bobLogsIn : AuthCall := .loginPlain "b@x.io" 4 "j4"

def bothIn : AuthState :=
  bobLogsIn.step AuthEnv.plain (aliceRotates.step AuthEnv.plain aliceRotated)

/-- She resets her password. -/
def aliceResets : AuthCall :=
  .resetPlain (generatePasswordResetToken Signing.plain
    ⟨1, { plainAlice.val with lastLogin := some 1 }⟩ 3) 5 "salt"

def rotatedTokens : TokenTables where
  outstanding := (Table.empty.insert ⟨some 1, "j1"⟩).insert ⟨some 1, "j2"⟩
  blacklisted := Table.empty.insert ⟨1⟩
  uniqueJti := by decide
  refers := by decide

/-- What the tables say once the first token has been handed in. -/
theorem aliceRotated_eq : aliceRotated =
    ⟨{ users := (Table.empty.insert { plainAlice.val with lastLogin := some 1 }).insert
        plainBob.val }, rotatedTokens⟩ := by
  rfl

def secondTokens : TokenTables where
  outstanding := rotatedTokens.outstanding.insert ⟨some 1, "j3"⟩
  blacklisted := rotatedTokens.blacklisted.insert ⟨2⟩
  uniqueJti := by decide
  refers := by decide

theorem aliceRotates_eq : aliceRotates.step AuthEnv.plain aliceRotated =
    ⟨{ users := (Table.empty.insert { plainAlice.val with lastLogin := some 1 }).insert
        plainBob.val }, secondTokens⟩ := by
  rw [aliceRotated_eq]
  rfl

/-- The reset ends the chain of her sessions and leaves his. -/
theorem reset_ends_sessions_plain :
    let after := aliceResets.step AuthEnv.plain bothIn
    let refreshed := fun token => ((AuthCall.refreshPlain (Jwt.plainEncode token) 6 "j5").outcome
      AuthEnv.plain after).status
    refreshed (plainToken plainAlice "j3" 23) ≠ 200 ∧
      refreshed (plainToken plainBob "j4" 24) = 200 ∧
      after.tokens.revokeAllRefreshTokens 1 = (0, after.tokens) := by
  intro after refreshed
  have hlifetime := fun s c hfresh later =>
    (reset_ends_sessions AuthEnv.plain jwtReads_plain s c hfresh later).1
  refine ⟨?_, ?_, ?_⟩
  · have halice := hlifetime aliceRotated aliceRotates
      (freshJti_of_refresh (by rw [aliceRotated_eq]; decide +kernel) (by decide)
        (by decide +kernel))
      [bobLogsIn, aliceResets] (plainToken plainAlice "j3" 23)
      ⟨tokenClaims plainAlice, by rw [aliceRotated_eq]; decide +kernel⟩
      (texts [("refresh", Jwt.plainEncode (plainToken plainAlice "j3" 23))]) (by decide +kernel)
      ⟨6, "j5", true⟩
    intro h200
    have hkept := (halice.mp h200).2.2
    rw [aliceRotates_eq] at hkept
    revert hkept
    decide +kernel
  · have hbob := hlifetime (aliceRotates.step AuthEnv.plain aliceRotated) bobLogsIn
      (freshJti_of_login (by rw [aliceRotates_eq]; decide +kernel)) [aliceResets]
      (plainToken plainBob "j4" 24)
      ⟨tokenClaims plainBob, by rw [aliceRotates_eq]; decide +kernel⟩
      (texts [("refresh", Jwt.plainEncode (plainToken plainBob "j4" 24))]) (by decide +kernel)
      ⟨6, "j5", true⟩
    refine hbob.mpr ⟨by decide, ?_, ?_⟩
    · rw [aliceRotates_eq]
      decide +kernel
    · rw [aliceRotates_eq]
      decide +kernel
  · have hrevoked : ∀ s, FreshJti AuthEnv.plain s aliceResets →
        aliceResets.resets AuthEnv.plain s 1 = true →
        (aliceResets.step AuthEnv.plain s).tokens.revokeAllRefreshTokens 1 =
          (0, (aliceResets.step AuthEnv.plain s).tokens) := by
      intro s hfresh hresets
      refine (reset_ends_sessions AuthEnv.plain jwtReads_plain s aliceResets hfresh []).2 1 hresets
        ⟨?_, trivial⟩ trivial trivial
      rintro token ⟨data, text, hrequest, -⟩
      cases hrequest
    refine hrevoked bothIn ⟨?_, ?_⟩ ?_
    · rw [bothIn, aliceRotates_eq]
      decide +kernel
    · rintro token ⟨data, text, hrequest, -⟩
      cases hrequest
    · rw [bothIn, aliceRotates_eq]
      decide +kernel

end Bastiq
