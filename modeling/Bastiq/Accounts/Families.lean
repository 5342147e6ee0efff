import Bastiq.Accounts.Revocation

/-!
# One session, one live token

A login begins a session; every refresh hands the session over from the token it consumes to the one
it is answered with. Whoever holds an older one, stolen or kept, cannot go on from it: along a
session there is never more than one token that is still taken, however often and in whatever order
the old ones are presented again.
-/

namespace Bastiq

open Relational Transition View

/-- The session grows by the token of a refresh that consumes one of its tokens. -/
def descend (E : AuthEnv) (s : AuthState) (family : List String) (c : AuthCall) : List String :=
  if family.any (c.consumes E s) then c.ambient.nonce :: family else family

/-- The tokens of a session after a run, by their `jti`, the latest first. -/
def familyAfter (E : AuthEnv) : AuthState → List String → List AuthCall → List String
  | _, family, [] => family
  | s, family, c :: later => familyAfter E (c.step E s) (descend E s family c) later

section Families

variable {E : AuthEnv} {s : AuthState} {c : AuthCall} {jti : String} {family : List String}

/-- The token is recorded. -/
def InLedger (s : AuthState) (jti : String) : Prop := ∃ id u, TokenRow id jti u s

/-- The token is recorded, and its row blacklisted. -/
def Spent (s : AuthState) (jti : String) : Prop :=
  ∃ id u, TokenRow id jti u s ∧ s.tokens.isBlacklisted id = true

theorem Spent.refuses (h : Spent s jti) : s.tokens.refuses jti = true := by
  obtain ⟨id, u, hrow, hblack⟩ := h
  obtain ⟨o, ho, rfl, rfl, -⟩ := hrow.row
  rw [TokenTables.refuses_iff ho, hblack]

theorem InLedger.step (h : InLedger s jti) (c : AuthCall) : InLedger (c.step E s) jti := by
  obtain ⟨id, u, hrow⟩ := h
  exact ⟨id, u, hrow.step.1⟩

theorem Spent.step (h : Spent s jti) (c : AuthCall) : Spent (c.step E s) jti := by
  obtain ⟨id, u, hrow, hblack⟩ := h
  refine ⟨id, u, hrow.step.1, ?_⟩
  rw [hrow.step.2, hblack, Bool.true_or, Bool.true_or]

/-- A refresh that is accepted takes a token that was not refused, and hands over to a new one. -/
theorem exists_rotate_of_consumes (h : c.consumes E s jti = true) :
    s.tokens.refuses jti = false ∧ ∃ token, Presents E c token ∧ token.jti = jti ∧
      token.claims.user < s.db.users.nextId ∧
      c.step E s = { s with tokens := rotate s c.ambient token } := by
  have hstatus : (c.outcome E s).status = 200 := by
    by_contra hne
    rw [consumes_of_status hne] at h
    cases h
  have hchange := c.change E s
  unfold AuthCall.consumes at h
  unfold AuthCall.step
  generalize c.outcome E s = out at hchange h hstatus ⊢
  cases hchange with
  | same hne => exact absurd hstatus hne
  | @refreshed data text token user hrequest htext hdecode hage hnot huser hid hactive =>
      rw [hrequest] at h
      have hjti : token.jti = jti := by simpa [htext, hdecode] using h
      refine ⟨hjti ▸ hnot, token, ⟨data, text, hrequest, htext, hdecode⟩, hjti, ?_, rfl⟩
      exact hid ▸ s.db.users.fresh user huser
  | registered hrequest | verified hrequest | loggedIn hrequest | unverified hrequest
  | reset hrequest | deleted hrequest =>
      rw [hrequest] at h
      cases h

/-- The token it is answered with is recorded. -/
theorem known_nonce_of_consumes (hfresh : FreshJti E s c) (h : c.consumes E s jti = true) :
    InLedger (c.step E s) c.ambient.nonce := by
  obtain ⟨-, token, hpresents, -, hledger, hstep⟩ := exists_rotate_of_consumes h
  have hne : token.jti ≠ c.ambient.nonce := hfresh.presented token hpresents
  obtain ⟨o, ho, hval, -⟩ := exists_rotated hfresh.recorded hne
  rw [hstep]
  exact ⟨o.id, token.claims.user, ⟨o, ho, rfl, by rw [hval], .inl (by rw [hval])⟩, hledger⟩

/-- The token it takes is spent. -/
theorem spent_of_consumes (hledger : InLedger s jti) (h : c.consumes E s jti = true) :
    Spent (c.step E s) jti := by
  obtain ⟨id, u, hrow⟩ := hledger
  refine ⟨id, u, hrow.step.1, ?_⟩
  rw [hrow.step.2, h, Bool.or_true, Bool.true_or]

/-! ## The session over a run -/

/-- The latest token of a session is recorded, and all before it are spent. -/
def Lineage (s : AuthState) : List String → Prop
  | [] => False
  | current :: past => InLedger s current ∧ ∀ jti ∈ past, Spent s jti

/-- **One call**: only the latest token can be handed over. -/
theorem Lineage.step (h : Lineage s family) (hfresh : FreshJti E s c) :
    Lineage (c.step E s) (descend E s family c) := by
  cases family with
  | nil => exact h.elim
  | cons current past =>
      obtain ⟨hledger, hpast⟩ := h
      have hspent : ∀ jti ∈ past, Spent (c.step E s) jti := fun jti hjti => (hpast jti hjti).step c
      unfold descend
      split
      · next hany =>
        obtain ⟨jti, hjti, hconsumes⟩ := List.any_eq_true.mp hany
        -- a spent token is refused, so the one that was consumed is the latest
        have hlatest : jti = current := by
          rcases List.mem_cons.mp hjti with hjti | hjti
          · exact hjti
          · have hnot := (exists_rotate_of_consumes hconsumes).1
            rw [(hpast jti hjti).refuses] at hnot
            cases hnot
        subst hlatest
        refine ⟨known_nonce_of_consumes hfresh hconsumes, fun j hj => ?_⟩
        rcases List.mem_cons.mp hj with rfl | hj
        · exact spent_of_consumes hledger hconsumes
        · exact hspent j hj
      · exact ⟨hledger.step c, hspent⟩

theorem Lineage.run (h : Lineage s family) {later : List AuthCall}
    (hfresh : Each (AuthCall.step E) (FreshJti E) s later) :
    Lineage (Transition.run (AuthCall.step E) s later) (familyAfter E s family later) := by
  induction later generalizing s family with
  | nil => exact h
  | cons c later ih => exact ih (h.step hfresh.1) hfresh.2

/-- **One session, one live token.** Follow the session that a login begins through any run: of the
tokens it has been handed over to, all but the latest are refused from then on. So whatever is
presented, in whatever order and by whomever, a session never continues from two tokens. -/
theorem one_live_token (E : AuthEnv) (hjwt : E.toJwt.Reads) (s : AuthState) (c : AuthCall)
    (token : RefreshToken) (hmints : Mints E s c token) (hfresh : FreshJti E s c)
    (later : List AuthCall) (hlater : Each (AuthCall.step E) (FreshJti E) (c.step E s) later) :
    ∃ current past, familyAfter E (c.step E s) [token.jti] later = current :: past ∧
      ∀ old : RefreshToken, old.jti ∈ past → ∀ data, sentText data "refresh" = some (E.encode old) →
        ∀ A, ((⟨.refresh data, A⟩ : AuthCall).outcome E
          (run (AuthCall.step E) (c.step E s) later)).status ≠ 200 := by
  obtain ⟨-, -, id, hrow, -⟩ := hmints.tokenRow hjwt hfresh
  have hlineage : Lineage (c.step E s) [token.jti] :=
    ⟨⟨id, token.claims.user, hrow⟩, fun _ h => nomatch h⟩
  have hafter := hlineage.run hlater
  cases hfamily : familyAfter E (c.step E s) [token.jti] later with
  | nil =>
      rw [hfamily] at hafter
      exact hafter.elim
  | cons current past =>
      rw [hfamily] at hafter
      refine ⟨current, past, rfl, fun old hold data hsent A h200 => ?_⟩
      have hnot := ((refresh_accepted_iff hjwt hsent A).mp h200).2.1
      rw [(hafter.2 old.jti hold).refuses] at hnot
      cases hnot

end Families

/-! ## A stolen token -/

/-- Alice's session is handed over at time 5. -/
def aliceRefreshes : AuthCall :=
  .refreshPlain (Jwt.plainEncode (plainToken plainAlice "j1" 21)) 5 "j2"

theorem freshJti_aliceRefreshes : FreshJti AuthEnv.plain aliceIn aliceRefreshes :=
  freshJti_of_refresh (by decide +kernel) (by decide) (by decide +kernel)

/-- Whoever kept the first token gets nothing for it. -/
theorem one_live_token_plain :
    ((AuthCall.refreshPlain (Jwt.plainEncode (plainToken plainAlice "j1" 21)) 6 "j3").outcome
      AuthEnv.plain (aliceRefreshes.step AuthEnv.plain aliceIn)).status ≠ 200 := by
  obtain ⟨current, past, hfamily, hold⟩ := one_live_token AuthEnv.plain jwtReads_plain
    AuthState.plain (.loginPlain "a@x.io" 1 "j1") (plainToken plainAlice "j1" 21)
    ⟨tokenClaims plainAlice, by decide +kernel⟩ (freshJti_of_login (by decide +kernel))
    [aliceRefreshes] ⟨freshJti_aliceRefreshes, trivial⟩
  have hpast : past = ["j1"] := by
    have htwo : familyAfter AuthEnv.plain aliceIn ["j1"] [aliceRefreshes] = ["j2", "j1"] := by
      decide +kernel
    exact (List.cons.inj (hfamily.symm.trans htwo)).2
  exact hold (plainToken plainAlice "j1" 21) (by rw [hpast]; exact List.mem_cons_self)
    (texts [("refresh", Jwt.plainEncode (plainToken plainAlice "j1" 21))]) (by decide +kernel)
    ⟨6, "j3", true⟩

end Bastiq
