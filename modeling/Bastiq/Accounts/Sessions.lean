import Bastiq.Accounts.Login
import Bastiq.Accounts.Tokens

/-!
# Sessions

A session is kept up with a refresh token. simplejwt has a row for every refresh token it has
minted, and another row for each of them that was blacklisted; a token whose row is blacklisted is
refused. `revokeAllRefreshTokens` blacklists all that an account has.
-/

namespace Bastiq

open Relational

/-! ## The two tables -/

structure OutstandingToken where
  user : Option Nat
  jti  : String
  deriving DecidableEq, Repr

structure BlacklistedToken where
  token : Nat
  deriving DecidableEq, Repr

/-- The tables with their constraints: a `jti` is in one row, and what is blacklisted has a row. -/
structure TokenTables where
  outstanding : Table OutstandingToken
  blacklisted : Table BlacklistedToken
  uniqueJti   : outstanding.rows.Pairwise fun o o' => o.val.jti ≠ o'.val.jti
  refers      : ∀ b ∈ blacklisted.rows, ∃ o ∈ outstanding.rows, o.id = b.val.token

namespace TokenTables

def empty : TokenTables := ⟨.empty, .empty, .nil, by simp⟩

/-- No token has this `jti`. -/
def Fresh (s : TokenTables) (jti : String) : Prop := ∀ o ∈ s.outstanding.rows, o.val.jti ≠ jti

instance (s : TokenTables) (jti : String) : Decidable (s.Fresh jti) :=
  inferInstanceAs (Decidable (∀ o ∈ s.outstanding.rows, o.val.jti ≠ jti))

/-- The row of a token is blacklisted. -/
def isBlacklisted (s : TokenTables) (id : Nat) : Bool := s.blacklisted.any (·.val.token == id)

/-- `INSERT` of an outstanding token. -/
def insert (s : TokenTables) (v : OutstandingToken) (h : s.Fresh v.jti) : TokenTables where
  outstanding := s.outstanding.insert v
  blacklisted := s.blacklisted
  uniqueJti := by
    rw [Table.rows_insert, List.pairwise_append]
    refine ⟨s.uniqueJti, List.pairwise_singleton _ _, ?_⟩
    intro o ho o' ho'
    rw [List.mem_singleton.mp ho']
    exact h o ho
  refers := by
    intro b hb
    obtain ⟨o, ho, hid⟩ := s.refers b hb
    exact ⟨o, Table.mem_insert.mpr (.inl ho), hid⟩

/-- `OutstandingToken.objects.create`; `none` is an `IntegrityError`. -/
def create (s : TokenTables) (v : OutstandingToken) : Option TokenTables :=
  if h : s.Fresh v.jti then some (s.insert v h) else none

/-- `OutstandingToken.objects.get_or_create(jti=...)`. -/
def getOrCreate (s : TokenTables) (v : OutstandingToken) : Row OutstandingToken × TokenTables :=
  match h : s.outstanding.first? (·.val.jti == v.jti) with
  | some o => (o, s)
  | none => (⟨s.outstanding.nextId, v⟩,
      s.insert v fun o ho => by simpa using Table.first?_eq_none_iff.mp h o ho)

/-- `BlacklistedToken.objects.get_or_create(token=o)`, and whether that made a row. The foreign key
is the database's to check; a token that was read has its row. -/
def blacklist (s : TokenTables) (o : Row OutstandingToken) : Bool × TokenTables :=
  if s.isBlacklisted o.id then (false, s)
  else if h : ∃ o' ∈ s.outstanding.rows, o'.id = o.id then
    (true, { s with
      blacklisted := s.blacklisted.insert ⟨o.id⟩
      refers := by
        intro b hb
        rcases Table.mem_insert.mp hb with hb | rfl
        · exact s.refers b hb
        · exact h })
  else (false, s)

/-- What the deletion of a user does: `on_delete=SET_NULL`. -/
def forget (s : TokenTables) (user : Nat) : TokenTables where
  outstanding := s.outstanding.update (·.val.user == some user) fun o => { o with user := none }
  blacklisted := s.blacklisted
  uniqueJti := by
    have hjti : ∀ o, (Table.setRow (·.val.user == some user)
        (fun o : OutstandingToken => { o with user := none }) o).val.jti = o.val.jti := by
      intro o
      unfold Table.setRow
      split <;> rfl
    rw [Table.rows_update, List.pairwise_map]
    exact s.uniqueJti.imp fun h => by rwa [hjti, hjti]
  refers := by
    intro b hb
    obtain ⟨o, ho, hid⟩ := s.refers b hb
    exact ⟨_, Table.mem_update.mpr ⟨o, ho, rfl⟩, by rw [Table.setRow_id, hid]⟩

/-! ### What the statements do -/

variable {s : TokenTables} {o : Row OutstandingToken} {id : Nat} {v : OutstandingToken}

@[ext] theorem ext {s t : TokenTables} (ho : s.outstanding = t.outstanding)
    (hb : s.blacklisted = t.blacklisted) : s = t := by
  cases s; cases t; simp_all

/-- A `jti` names one row. -/
theorem eq_of_jti_eq {o' : Row OutstandingToken} (ho : o ∈ s.outstanding.rows)
    (ho' : o' ∈ s.outstanding.rows) (h : o.val.jti = o'.val.jti) : o = o' := by
  have hnodup : (s.outstanding.rows.map fun o => o.val.jti).Nodup := by
    rw [List.Nodup, List.pairwise_map]
    exact s.uniqueJti
  exact List.inj_on_of_nodup_map hnodup ho ho' h

theorem isBlacklisted_iff : s.isBlacklisted id = true ↔ ∃ b ∈ s.blacklisted.rows, b.val.token = id := by
  simp [isBlacklisted, Table.any]

theorem lt_of_isBlacklisted (h : s.isBlacklisted id = true) : id < s.outstanding.nextId := by
  obtain ⟨b, hb, rfl⟩ := isBlacklisted_iff.mp h
  obtain ⟨o, ho, hid⟩ := s.refers b hb
  exact hid ▸ s.outstanding.fresh o ho

@[simp] theorem outstanding_insert (h : s.Fresh v.jti) :
    (s.insert v h).outstanding = s.outstanding.insert v := rfl

@[simp] theorem isBlacklisted_insert (h : s.Fresh v.jti) :
    (s.insert v h).isBlacklisted id = s.isBlacklisted id := rfl

theorem create_eq_some {t : TokenTables} :
    s.create v = some t ↔ ∃ h : s.Fresh v.jti, t = s.insert v h := by
  unfold create
  split
  · next h =>
    constructor
    · intro heq
      exact ⟨h, (Option.some.inj heq).symm⟩
    · rintro ⟨-, rfl⟩
      rfl
  · next h => simp [h]

@[simp] theorem outstanding_blacklist (s : TokenTables) (o : Row OutstandingToken) :
    (s.blacklist o).2.outstanding = s.outstanding := by
  unfold blacklist
  split
  · rfl
  · split <;> rfl

/-- A token that has a row is blacklisted, and no other. -/
theorem isBlacklisted_blacklist (ho : o ∈ s.outstanding.rows) :
    (s.blacklist o).2.isBlacklisted id = (s.isBlacklisted id || o.id == id) := by
  have hrow : ∃ o' ∈ s.outstanding.rows, o'.id = o.id := ⟨o, ho, rfl⟩
  unfold blacklist
  split
  · next h =>
    by_cases hid : o.id = id
    · simp [← hid, h]
    · simp [hid]
  · simp [isBlacklisted, Table.any]

/-- A row is made for a token that was not blacklisted. -/
theorem blacklist_created (ho : o ∈ s.outstanding.rows) :
    (s.blacklist o).1 = !s.isBlacklisted o.id := by
  have hrow : ∃ o' ∈ s.outstanding.rows, o'.id = o.id := ⟨o, ho, rfl⟩
  unfold blacklist
  split
  · next h => simp [h]
  · next h => simp [h]

theorem blacklist_of_isBlacklisted (h : s.isBlacklisted o.id = true) :
    s.blacklist o = (false, s) := by
  simp [blacklist, h]

/-! ### `get_or_create` -/

theorem getOrCreate_of_fresh (h : s.Fresh v.jti) :
    s.getOrCreate v = (⟨s.outstanding.nextId, v⟩, s.insert v h) := by
  unfold getOrCreate
  split
  · next o hfirst =>
    have hjti : o.val.jti = v.jti := by simpa using Table.pos_of_first? hfirst
    exact absurd hjti (h o (Table.mem_of_first? hfirst))
  · rfl

theorem getOrCreate_of_mem (ho : o ∈ s.outstanding.rows) (hjti : o.val.jti = v.jti) :
    s.getOrCreate v = (o, s) := by
  unfold getOrCreate
  split
  · next o' hfirst =>
    have hjti' : o'.val.jti = v.jti := by simpa using Table.pos_of_first? hfirst
    rw [eq_of_jti_eq (Table.mem_of_first? hfirst) ho (hjti'.trans hjti.symm)]
  · next hfirst =>
    have hnone := Table.first?_eq_none_iff.mp hfirst o ho
    simp [hjti] at hnone

/-- Either way the row is there afterwards. -/
theorem getOrCreate_cases (s : TokenTables) (v : OutstandingToken) :
    (∃ o ∈ s.outstanding.rows, o.val.jti = v.jti ∧ s.getOrCreate v = (o, s)) ∨
      ∃ h : s.Fresh v.jti, s.getOrCreate v = (⟨s.outstanding.nextId, v⟩, s.insert v h) := by
  by_cases h : s.Fresh v.jti
  · exact .inr ⟨h, getOrCreate_of_fresh h⟩
  · obtain ⟨o, ho, hjti⟩ : ∃ o ∈ s.outstanding.rows, o.val.jti = v.jti := by
      simpa [Fresh] using h
    exact .inl ⟨o, ho, hjti, getOrCreate_of_mem ho hjti⟩

/-! ## `revoke_all_refresh_tokens` -/

/-- The loop: each token of the list is blacklisted, and the rows that were made are counted. -/
def revokeEach (revoked : Nat) (s : TokenTables) :
    List (Row OutstandingToken) → Nat × TokenTables
  | [] => (revoked, s)
  | o :: rest =>
      let out := s.blacklist o
      revokeEach (if out.1 then revoked + 1 else revoked) out.2 rest

/-- Blacklists every outstanding refresh token of the user. Returns the count. -/
def revokeAllRefreshTokens (s : TokenTables) (user : Nat) : Nat × TokenTables :=
  revokeEach 0 s (s.outstanding.select (·.val.user == some user))

@[simp] theorem revokeEach_cons (revoked : Nat) (s : TokenTables) (o : Row OutstandingToken)
    (rest : List (Row OutstandingToken)) :
    revokeEach revoked s (o :: rest) =
      revokeEach (if (s.blacklist o).1 then revoked + 1 else revoked) (s.blacklist o).2 rest := rfl

@[simp] theorem outstanding_revokeEach (revoked : Nat) (s : TokenTables)
    (os : List (Row OutstandingToken)) :
    (revokeEach revoked s os).2.outstanding = s.outstanding := by
  induction os generalizing revoked s with
  | nil => rfl
  | cons o rest ih =>
      rw [revokeEach_cons, ih, outstanding_blacklist]

/-- **What the loop blacklists**: the tokens of the list, beside those that were blacklisted. -/
theorem isBlacklisted_revokeEach {revoked : Nat} {s : TokenTables}
    {os : List (Row OutstandingToken)} (hos : ∀ o ∈ os, o ∈ s.outstanding.rows) :
    (revokeEach revoked s os).2.isBlacklisted id = true ↔
      s.isBlacklisted id = true ∨ ∃ o ∈ os, o.id = id := by
  induction os generalizing revoked s with
  | nil => simp [revokeEach]
  | cons o rest ih =>
      rw [revokeEach_cons, ih, isBlacklisted_blacklist (hos o List.mem_cons_self)]
      · simp [or_assoc]
      · intro o' ho'
        rw [outstanding_blacklist]
        exact hos o' (List.mem_cons_of_mem o ho')

/-- **What the loop counts**: the tokens of the list that were not blacklisted. -/
theorem count_revokeEach {revoked : Nat} {s : TokenTables} {os : List (Row OutstandingToken)}
    (hos : ∀ o ∈ os, o ∈ s.outstanding.rows) (hnodup : (os.map Row.id).Nodup) :
    (revokeEach revoked s os).1 = revoked + os.countP fun o => !s.isBlacklisted o.id := by
  induction os generalizing revoked s with
  | nil => rfl
  | cons o rest ih =>
      obtain ⟨hne, hnodup⟩ := List.nodup_cons.mp hnodup
      have ho := hos o List.mem_cons_self
      have hrest : ∀ o' ∈ rest, o' ∈ (s.blacklist o).2.outstanding.rows := by
        intro o' ho'
        rw [outstanding_blacklist]
        exact hos o' (List.mem_cons_of_mem o ho')
      -- the other tokens of the list are as blacklisted as they were
      have hsame : rest.countP (fun o' => !(s.blacklist o).2.isBlacklisted o'.id) =
          rest.countP fun o' => !s.isBlacklisted o'.id := by
        apply List.countP_congr
        intro o' ho'
        have hid : o.id ≠ o'.id := fun h => hne (h ▸ List.mem_map_of_mem ho')
        simp [isBlacklisted_blacklist ho, hid]
      rw [revokeEach_cons, ih hrest hnodup, hsame, blacklist_created ho, List.countP_cons]
      cases s.isBlacklisted o.id with
      | true => simp
      | false =>
          simp
          omega

variable {user : Nat}

@[simp] theorem outstanding_revoke (s : TokenTables) (user : Nat) :
    (s.revokeAllRefreshTokens user).2.outstanding = s.outstanding :=
  outstanding_revokeEach 0 s _

/-- **The revocation covers exactly the tokens of the user.** -/
theorem isBlacklisted_revoke :
    (s.revokeAllRefreshTokens user).2.isBlacklisted id = true ↔
      s.isBlacklisted id = true ∨
        ∃ o ∈ s.outstanding.rows, o.val.user = some user ∧ o.id = id := by
  have hrows : ∀ o ∈ s.outstanding.select (·.val.user == some user), o ∈ s.outstanding.rows :=
    fun o ho => List.mem_of_mem_filter ho
  rw [revokeAllRefreshTokens, isBlacklisted_revokeEach hrows]
  simp [Table.select, and_assoc]

/-- The count it returns. -/
theorem count_revoke (s : TokenTables) (user : Nat) :
    (s.revokeAllRefreshTokens user).1 =
      s.outstanding.count fun o => o.val.user == some user && !s.isBlacklisted o.id := by
  have hrows : ∀ o ∈ s.outstanding.select (·.val.user == some user), o ∈ s.outstanding.rows :=
    fun o ho => List.mem_of_mem_filter ho
  have hnodup : ((s.outstanding.select (·.val.user == some user)).map Row.id).Nodup :=
    s.outstanding.nodup_ids.sublist (List.filter_sublist.map Row.id)
  rw [revokeAllRefreshTokens, count_revokeEach hrows hnodup,
    Nat.zero_add, Table.select, List.countP_filter, Table.count]
  apply List.countP_congr
  intro o _
  rw [Bool.and_comm]

theorem revokeEach_of_isBlacklisted {revoked : Nat} {os : List (Row OutstandingToken)}
    (h : ∀ o ∈ os, s.isBlacklisted o.id = true) : revokeEach revoked s os = (revoked, s) := by
  induction os with
  | nil => rfl
  | cons o rest ih =>
      rw [revokeEach_cons, blacklist_of_isBlacklisted (h o List.mem_cons_self)]
      exact ih fun o' ho' => h o' (List.mem_cons_of_mem o ho')

/-- Where all tokens of the user are blacklisted there is nothing to revoke. -/
theorem revoke_of_isBlacklisted
    (h : ∀ o ∈ s.outstanding.rows, o.val.user = some user → s.isBlacklisted o.id = true) :
    s.revokeAllRefreshTokens user = (0, s) := by
  apply revokeEach_of_isBlacklisted
  intro o ho
  obtain ⟨ho, huser⟩ := List.mem_filter.mp ho
  exact h o ho (by simpa using huser)

end TokenTables

/-! ## Refresh tokens -/

/-- The payload of a refresh token. A rotation keeps the claims. -/
structure RefreshToken where
  claims : TokenClaims
  jti    : String
  exp    : Int
  deriving DecidableEq, Repr

/-- simplejwt's signing, and `REFRESH_TOKEN_LIFETIME`. -/
structure Jwt where
  /-- `str(token)`. -/
  encode : RefreshToken → String
  /-- The payload of a text whose signature and type are right; its age is not looked at. -/
  decode : String → Option RefreshToken
  refreshTokenLifetime : Int

/-- What was signed is read back. -/
def Jwt.Reads (J : Jwt) : Prop := ∀ token, J.decode (J.encode token) = some token

/-- The payload as plain text. -/
def Jwt.plainEncode (token : RefreshToken) : String :=
  String.ofList (Plain.pack [List.replicate token.claims.user '1', token.claims.email.toList,
    if token.claims.isEmailVerified then ['1'] else [], token.jti.toList, Plain.ofInt token.exp])

def Jwt.plainDecode (text : String) : Option RefreshToken :=
  match Plain.unpack [] text.toList with
  | [user, email, verified, jti, exp] =>
      some ⟨⟨user.length, String.ofList email, !verified.isEmpty⟩, String.ofList jti,
        Plain.toInt exp⟩
  | _ => none

/-- Refresh tokens that are good for 20 seconds. -/
def Jwt.plain : Jwt := ⟨plainEncode, plainDecode, 20⟩

theorem jwtReads_plain : Jwt.plain.Reads := by
  rintro ⟨⟨user, email, verified⟩, jti, exp⟩
  show Jwt.plainDecode (Jwt.plainEncode ⟨⟨user, email, verified⟩, jti, exp⟩) = _
  cases verified <;> simp [Jwt.plainDecode, Jwt.plainEncode]

/-- `check_blacklist`: some row with the `jti` is blacklisted. -/
def TokenTables.refuses (s : TokenTables) (jti : String) : Bool :=
  s.outstanding.any fun o => o.val.jti == jti && s.isBlacklisted o.id

theorem TokenTables.refuses_iff {s : TokenTables} {o : Row OutstandingToken}
    (ho : o ∈ s.outstanding.rows) : s.refuses o.val.jti = s.isBlacklisted o.id := by
  rw [Bool.eq_iff_iff]
  simp only [refuses, Table.any, List.any_eq_true, Bool.and_eq_true, beq_iff_eq]
  constructor
  · rintro ⟨o', ho', hjti, hblack⟩
    rwa [← eq_of_jti_eq ho' ho hjti]
  · intro hblack
    exact ⟨o, ho, rfl, hblack⟩

end Bastiq
