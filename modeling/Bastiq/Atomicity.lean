import Bastiq.Mailing
import Bastiq.Accounts.RejectedLogin

/-!
# What a failed request leaves behind

A request that is answered with an error changes nothing, in principle: what a view raises is turned
into an answer before anything is saved, and what is saved in a transaction that raises is rolled
back. There are five requests that save something first and fail then. They are named here, each by
the situation in which it happens, and nothing else leaves a trace of a failed request. The database
is one that carries out every statement it is given.
-/

namespace Bastiq

open Relational View

/-! ## Five situations -/

/-- The invitation is found and PENDING, and expired: it is marked so, and the request refused. -/
structure LateAccept (db : Db) (data : RequestData) (now : Int) (i : Row Invitation) : Prop where
  found   : ∃ token, validateToken (β := OrganizationPayload) data = .ok token ∧
    invitationByToken db token = some i
  pending : i.val.status = .pending
  expired : i.val.isExpired now = true

/-- Everything is in order up to the session, for which a customer was created and saved. -/
structure SessionFails (db : Db) (user : Nat) (header : Option String) (data : RequestData)
    (stripe : StripeApi) (sub : Row Subscription) (customer : String) : Prop where
  caller     : ∃ m, isOrganizationMember db user header = some m ∧ m.val.role = .owner ∧
    subscriptionOf db m.val.organization = some sub ∧
    ∃ plan, purchasablePlan (β := String) db data = .ok plan ∧
      ∃ e, stripe.createSession customer plan.val.stripePriceId m.val.organization
        plan.val.code = .error e
  configured : stripe.configured = true
  blank      : sub.val.stripeCustomerId = ""
  created    : stripe.createCustomer = .ok customer
  stored     : fits 255 customer = true ∧ customer ≠ ""

/-- The request fails, and leaves a trace. The writes to an account stand for requests that were
accepted; those that are refused are calls of their own. -/
def LeavesTrace (E : Env) (db : Db) (c : Call) : Prop :=
  match c.request with
  | .accept data => ∃ user, authenticate db c.bearer = some user ∧
      ∃ i, LateAccept db data c.ambient.now i
  | .invite pk data => ∃ user, authenticate db c.bearer = some user ∧
      c.ambient.brokerIsUp = false ∧
        ∃ org actor email new, InvitationDue E db user.id pk data c.ambient org actor email new
  | .register data => c.ambient.brokerIsUp = false ∧ ∃ reg, RegistrationDue E db data reg
  | .checkout header data stripe => ∃ user, authenticate db c.bearer = some user ∧
      ∃ sub customer, SessionFails db user.id header data stripe sub customer
  | _ => False

/-- The request to an account endpoint fails, and leaves a trace. -/
def AuthCall.LeavesTrace (E : AuthEnv) (s : AuthState) (c : AuthCall) : Prop :=
  match c.request with
  | .register data => c.ambient.brokerIsUp = false ∧ ∃ reg, RegistrationDue E.toEnv s.db data reg
  | .login data => GateRefuses E s data c.ambient
  | _ => False

/-! ## Request by request -/

section Requests

variable {E : Env} {db db' : Db} {c : Call}

/-- A view that fails after it has written something returns its error: what it raises is undone. -/
theorem perform_trace_iff {β : Type} {view : View β (Response β × Db)} :
    (400 ≤ (perform db view).1.status ∧ (perform db view).2 ≠ db) ↔
      ∃ r db', view = .ok (r, db') ∧ 400 ≤ r.status ∧ db' ≠ db := by
  constructor
  · rintro ⟨hstatus, hchanged⟩
    cases view with
    | error r => exact absurd rfl hchanged
    | ok out => exact ⟨out.1, out.2, rfl, hstatus, hchanged⟩
  · rintro ⟨r, db', rfl, hstatus, hchanged⟩
    exact ⟨hstatus, hchanged⟩

theorem authenticated_trace_iff {β : Type} {bearer : Option Nat}
    {view : Row User → View β (Response β × Db)} :
    (400 ≤ (authenticated db bearer view).1 ∧ (authenticated db bearer view).2 ≠ db) ↔
      ∃ user, authenticate db bearer = some user ∧
        ∃ r db', view user = .ok (r, db') ∧ 400 ≤ r.status ∧ db' ≠ db := by
  unfold authenticated
  cases authenticate db bearer with
  | none => simp
  | some user =>
      refine perform_trace_iff.trans ?_
      simp

/-- No error is returned after something was written. -/
theorem not_trace_of_status {β : Type} {bearer : Option Nat}
    {view : Row User → View β (Response β × Db)}
    (hstatus : ∀ user r db', view user = .ok (r, db') → r.status < 400) :
    ¬ (400 ≤ (authenticated db bearer view).1 ∧ (authenticated db bearer view).2 ≠ db) := by
  rw [authenticated_trace_iff]
  rintro ⟨user, -, r, db', hview, hrefused, -⟩
  have hanswered := hstatus user r db' hview
  omega

/-- What the organization endpoints return is no error. -/
theorem organizationAction_status {user : Nat} {now : Int} {a : OrganizationAction}
    {r : Response OrganizationPayload}
    (h : organizationAction E db user now a = .ok (r, db')) : r.status < 400 := by
  cases a with
  | create data =>
      obtain ⟨name, -, h⟩ := bind_eq_ok.mp h
      obtain ⟨out, -, h⟩ := bind_eq_ok.mp h
      cases h
      show 201 < 400
      omega
  | partialUpdate pk data =>
      obtain ⟨out, -, h⟩ := bind_eq_ok.mp h
      obtain ⟨_, -, h⟩ := bind_eq_ok.mp h
      obtain ⟨name, -, h⟩ := bind_eq_ok.mp h
      cases h
      show 200 < 400
      omega
  | destroy pk =>
      obtain ⟨out, -, h⟩ := bind_eq_ok.mp h
      obtain ⟨_, -, h⟩ := bind_eq_ok.mp h
      cases h
      show 204 < 400
      omega

theorem memberRequest_status {user : Nat} {pk memberPk : String} {a : MemberAction}
    {r : Response OrganizationPayload}
    (h : memberRequest db user pk memberPk a = .ok (r, db')) : r.status < 400 := by
  obtain ⟨out, -, h⟩ := bind_eq_ok.mp h
  obtain ⟨target, -, h⟩ := bind_eq_ok.mp h
  obtain ⟨_, -, h⟩ := bind_eq_ok.mp h
  cases a with
  | delete =>
      obtain ⟨_, -, h⟩ := bind_eq_ok.mp h
      obtain ⟨after, -, h⟩ := bind_eq_ok.mp h
      cases h
      show 204 < 400
      omega
  | patch data =>
      obtain ⟨new, -, h⟩ := bind_eq_ok.mp h
      obtain ⟨_, -, h⟩ := bind_eq_ok.mp h
      cases h
      show 200 < 400
      omega

theorem projectView_status {req : ProjectRequest} {a : ProjectAction} {now : Int}
    {r : Response ProjectPayload} (h : projectView E req a now db = .ok (r, db')) :
    r.status < 400 := by
  obtain ⟨_, -, h⟩ := bind_eq_ok.mp h
  obtain ⟨user, -, h⟩ := bind_eq_ok.mp h
  obtain ⟨m, -, h⟩ := bind_eq_ok.mp h
  have hupdate : ∀ pk partially, updateProject db m user pk partially req.data = .ok (r, db') →
      r.status < 400 := by
    intro pk partially h
    obtain ⟨p, -, h⟩ := bind_eq_ok.mp h
    obtain ⟨fields, -, h⟩ := bind_eq_ok.mp h
    cases h
    show 200 < 400
    omega
  cases a with
  | list =>
      obtain ⟨page, -, h⟩ := bind_eq_ok.mp h
      cases page with
      | some page =>
          cases h
          show 200 < 400
          omega
      | none =>
          cases h
          show 200 < 400
          omega
  | create =>
      obtain ⟨fields, -, h⟩ := bind_eq_ok.mp h
      obtain ⟨_, -, h⟩ := bind_eq_ok.mp h
      cases h
      show 201 < 400
      omega
  | retrieve pk =>
      obtain ⟨p, -, h⟩ := bind_eq_ok.mp h
      cases h
      show 200 < 400
      omega
  | update pk => exact hupdate pk false h
  | partialUpdate pk => exact hupdate pk true h
  | destroy pk =>
      obtain ⟨p, -, h⟩ := bind_eq_ok.mp h
      cases h
      show 204 < 400
      omega

theorem setInvitationStatus_ne {i : Row Invitation} {status : InvitationStatus}
    (hi : i ∈ db.invitations.rows) (hne : i.val.status ≠ status) :
    setInvitationStatus db i.id status ≠ db := by
  intro heq
  have hmem : ⟨i.id, { i.val with status := status }⟩ ∈
      (setInvitationStatus db i.id status).invitations.rows :=
    Table.mem_modify.mpr (.inr ⟨i, hi, rfl, rfl⟩)
  rw [heq] at hmem
  have hsame := db.invitations.eq_of_id_eq hi hmem rfl
  exact hne (congrArg (fun r : Row Invitation => r.val.status) hsame)

/-- Accepting fails with a trace exactly when the invitation turns out to have expired. -/
theorem acceptInvitation_trace_iff {user : Row User} {data : RequestData} {now : Int} :
    (∃ r db', acceptInvitation E db user data now = .ok (r, db') ∧ 400 ≤ r.status ∧ db' ≠ db) ↔
      ∃ i, LateAccept db data now i := by
  constructor
  · rintro ⟨r, db', h, hstatus, -⟩
    obtain ⟨token, htoken, h⟩ := bind_eq_ok.mp h
    obtain ⟨i, hi, h⟩ := bind_eq_ok.mp h
    obtain ⟨_, hpending, h⟩ := bind_eq_ok.mp h
    split at h
    · next hexpired =>
      exact ⟨i, ⟨token, htoken, orElse_eq_ok.mp hi⟩, by simpa using require_eq_ok.mp hpending,
        hexpired⟩
    · obtain ⟨_, -, h⟩ := bind_eq_ok.mp h
      cases h
      have hstatus : 400 ≤ 200 := hstatus
      omega
  · rintro ⟨i, ⟨token, htoken, hi⟩, hpending, hexpired⟩
    refine ⟨badRequest "This invitation has expired.", setInvitationStatus db i.id .expired, ?_,
      Nat.le_refl 400, setInvitationStatus_ne (Table.mem_of_first? hi) (by simp [hpending])⟩
    simp only [acceptInvitation, htoken, hi, orElse_some, ok_bind, hpending, hexpired, require,
      beq_self_eq_true, if_true]

theorem saveCustomer_ne {sub : Row Subscription} {customer : String}
    (hsub : sub ∈ db.subscriptions.rows) (hne : sub.val.stripeCustomerId ≠ customer) :
    saveCustomer db sub.id customer ≠ db := by
  intro heq
  have hmem : ⟨sub.id, { sub.val with stripeCustomerId := customer }⟩ ∈
      (saveCustomer db sub.id customer).subscriptions.rows :=
    Table.mem_modify.mpr (.inr ⟨sub, hsub, rfl, rfl⟩)
  rw [heq] at hmem
  have hsame := db.subscriptions.eq_of_id_eq hsub hmem rfl
  exact hne (congrArg (fun r : Row Subscription => r.val.stripeCustomerId) hsame)

theorem saveCustomer_self {sub : Row Subscription} (hsub : sub ∈ db.subscriptions.rows) :
    saveCustomer db sub.id sub.val.stripeCustomerId = db := by
  unfold saveCustomer
  rw [Table.modify_eq_self]
  intro r hr hid
  rw [db.subscriptions.eq_of_id_eq hr hsub hid]

theorem ensureCustomer_of_blank {sub : Row Subscription} {customer : String}
    {create : Except Failure String} (hblank : sub.val.stripeCustomerId = "") :
    ensureCustomer db sub create = .ok (customer, db') ↔
      create = .ok customer ∧ fits 255 customer = true ∧
        db' = saveCustomer db sub.id customer := by
  simp only [ensureCustomer, hblank, bne_self_eq_false, Bool.false_eq_true, if_false]
  constructor
  · intro h
    obtain ⟨customer', hcreate, h⟩ := bind_eq_ok.mp h
    split at h
    · next hfits =>
      cases h
      exact ⟨hcreate, hfits, rfl⟩
    · cases h
  · rintro ⟨hcreate, hfits, rfl⟩
    simp [hcreate, hfits]

/-- Checking out fails with a trace exactly when the session fails that a customer was created
for. -/
theorem checkout_trace_iff {user : Nat} {header : Option String} {data : RequestData}
    {stripe : StripeApi} :
    (∃ r db', checkout db user header data stripe = .ok (r, db') ∧ 400 ≤ r.status ∧ db' ≠ db) ↔
      ∃ sub customer, SessionFails db user header data stripe sub customer := by
  constructor
  · rintro ⟨r, db', h, hstatus, hchanged⟩
    obtain ⟨m, hm, h⟩ := bind_eq_ok.mp h
    obtain ⟨_, howner, h⟩ := bind_eq_ok.mp h
    obtain ⟨plan, hplan, h⟩ := bind_eq_ok.mp h
    obtain ⟨sub, hsub, h⟩ := bind_eq_ok.mp h
    have hsub := orElse_eq_ok.mp hsub
    split at h
    · cases h
    · next hconfigured =>
      split at h
      · cases h
      · next customer after hensure =>
        cases h
        rcases ensureCustomer_cases hensure with rfl | ⟨hblank, -⟩
        · exact absurd rfl hchanged
        · obtain ⟨hcreate, hfits, rfl⟩ := (ensureCustomer_of_blank hblank).mp hensure
          have hconfigured : stripe.configured = true := by simpa [hblank] using hconfigured
          refine ⟨sub, customer, ⟨m, orElse_eq_ok.mp hm, by simpa using require_eq_ok.mp howner,
            hsub, plan, hplan, ?_⟩, hconfigured, hblank, hcreate, hfits, ?_⟩
          · simp only [sessionResponse, hconfigured, if_true] at hstatus
            split at hstatus
            · have hstatus : 400 ≤ 200 := hstatus
              omega
            · next e hsession => exact ⟨e, hsession⟩
          · rintro rfl
            apply hchanged
            rw [← hblank]
            exact saveCustomer_self (Table.mem_of_first? hsub)
  · rintro ⟨sub, customer, ⟨m, hm, howner, hsub, plan, hplan, e, hsession⟩, hconfigured, hblank,
      hcreate, hfits, hne⟩
    refine ⟨serverError, saveCustomer db sub.id customer, ?_, by decide,
      saveCustomer_ne (Table.mem_of_first? hsub) (by rw [hblank]; exact hne.symm)⟩
    have hensure : ensureCustomer db sub stripe.createCustomer =
        .ok (customer, saveCustomer db sub.id customer) :=
      (ensureCustomer_of_blank hblank).mpr ⟨hcreate, hfits, rfl⟩
    simp only [checkout, hm, orElse_some, ok_bind, howner, require, beq_self_eq_true, if_true,
      hplan, hsub, hconfigured, Bool.not_true, Bool.and_false, Bool.false_eq_true, if_false,
      hensure, sessionResponse, hsession]

theorem inviteMember_trace_iff {user : Nat} {pk : String} {data : RequestData} {A : Ambient} :
    (∃ r db', inviteMember E db user pk data A = .ok (r, db') ∧ 400 ≤ r.status ∧ db' ≠ db) ↔
      A.brokerIsUp = false ∧
        ∃ org actor email new, InvitationDue E db user pk data A org actor email new := by
  constructor
  · rintro ⟨r, db', h, hstatus, -⟩
    obtain ⟨org, actor, email, new, hdue, -⟩ := inviteMember_eq_ok.mp h
    have hanswer := inviteMember_status h
    cases hbroker : A.brokerIsUp with
    | true =>
        rw [hbroker, if_pos rfl] at hanswer
        omega
    | false => exact ⟨rfl, org, actor, email, new, hdue⟩
  · rintro ⟨hbroker, org, actor, email, new, hdue⟩
    have h := inviteMember_eq_ok.mpr ⟨org, actor, email, new, hdue, rfl, rfl⟩
    refine ⟨_, _, h, ?_, fun heq => Table.insert_ne _ _ (congrArg Db.invitations heq)⟩
    rw [inviteMember_status h, hbroker]
    decide

theorem register_trace_iff {data : RequestData} {A : Ambient} :
    (∃ r db', register E db data A = .ok (r, db') ∧ 400 ≤ r.status ∧ db' ≠ db) ↔
      A.brokerIsUp = false ∧ ∃ reg, RegistrationDue E db data reg := by
  constructor
  · rintro ⟨r, db', h, hstatus, -⟩
    obtain ⟨reg, user, hdue, -, rfl⟩ := register_eq_ok.mp h
    cases hbroker : A.brokerIsUp with
    | true =>
        rw [hbroker, if_pos rfl] at hstatus
        have hstatus : 400 ≤ 201 := hstatus
        omega
    | false => exact ⟨rfl, reg, hdue⟩
  · rintro ⟨hbroker, reg, hdue⟩
    obtain ⟨⟨r, db'⟩, h⟩ := hdue.exists_register (A := A)
    obtain ⟨reg', user, -, hcreate, hr⟩ := register_eq_ok.mp h
    obtain ⟨hdb, -⟩ := createUser_eq_ok hcreate
    refine ⟨r, db', h, ?_, fun heq => ?_⟩
    · rw [hr, hbroker]
      show 400 ≤ 500
      omega
    · rw [hdb] at heq
      exact Table.insert_ne _ _ (congrArg Db.users heq)

/-- **Which failed calls of the API leave a trace.** -/
theorem Call.trace_iff (E : Env) (db : Db) (c : Call) :
    (400 ≤ (c.respond E db).1 ∧ c.step E db ≠ db) ↔ LeavesTrace E db c := by
  unfold Call.step Call.respond LeavesTrace
  cases c.request with
  | organization a =>
      refine iff_of_false (not_trace_of_status fun user r db' => ?_) id
      exact organizationAction_status
  | member pk memberPk a =>
      exact iff_of_false (not_trace_of_status fun user r db' => memberRequest_status) id
  | invite pk data =>
      exact authenticated_trace_iff.trans (exists_congr fun user =>
        and_congr_right fun _ => inviteMember_trace_iff)
  | accept data =>
      exact authenticated_trace_iff.trans (exists_congr fun user =>
        and_congr_right fun _ => acceptInvitation_trace_iff)
  | project header query data a =>
      refine iff_of_false (fun h => ?_) id
      obtain ⟨r, db', hview, hrefused, -⟩ := perform_trace_iff.mp h
      have hanswered := projectView_status hview
      omega
  | checkout header data stripe =>
      exact authenticated_trace_iff.trans (exists_congr fun user =>
        and_congr_right fun _ => checkout_trace_iff)
  | register data =>
      exact perform_trace_iff.trans register_trace_iff
  | webhook d =>
      refine iff_of_false ?_ id
      rintro ⟨hstatus, hchanged⟩
      rcases postWebhook_cases d db with hsame | ⟨hledger, hprocess⟩
      · exact hchanged hsame
      · have hanswered := congrArg (fun out => out.1.status)
          (postWebhook_of_process hledger hprocess)
        have hstatus : 400 ≤ (postWebhook d db).1.status := hstatus
        have hanswered : (postWebhook d db).1.status = 200 := hanswered
        omega
  | account user w =>
      refine iff_of_false ?_ id
      rintro ⟨hstatus, -⟩
      have hstatus : 400 ≤ 200 := hstatus
      omega

end Requests

/-! ## The account endpoints -/

section Account

variable {E : AuthEnv} {s : AuthState} {c : AuthCall}

/-- The other account endpoints raise before they write. -/
theorem AuthCall.not_trace (hregister : ∀ data, c.request ≠ .register data)
    (hlogin : ∀ data, c.request ≠ .login data) :
    ¬(400 ≤ (c.outcome E s).status ∧ c.step E s ≠ s) := by
  rintro ⟨hstatus, hchanged⟩
  have hchange := c.change E s
  unfold AuthCall.step at hchanged
  generalize c.outcome E s = out at hchange hstatus hchanged
  cases hchange with
  | same _ => exact hchanged rfl
  | registered hrequest _ _ => exact hregister _ hrequest
  | loggedIn hrequest _ _ _ _ | unverified hrequest _ _ _ _ => exact hlogin _ hrequest
  | verified _ _ _ | refreshed _ _ _ _ _ _ _ _ | reset _ _ _ _ =>
      have hstatus : 400 ≤ 200 := hstatus
      omega
  | deleted _ =>
      have hstatus : 400 ≤ 302 := hstatus
      omega

/-- A login that leaves something and is not answered 200 is answered 400. -/
theorem outcome_login_status {data : RequestData} {A : Ambient}
    (hchanged : ((⟨.login data, A⟩ : AuthCall).outcome E s).after ≠ s)
    (hstatus : ((⟨.login data, A⟩ : AuthCall).outcome E s).status ≠ 200) :
    ((⟨.login data, A⟩ : AuthCall).outcome E s).status = 400 := by
  have hchange := (⟨.login data, A⟩ : AuthCall).change E s
  generalize (⟨.login data, A⟩ : AuthCall).outcome E s = out at hchange hchanged hstatus
  cases hchange with
  | same _ => exact absurd rfl hchanged
  | loggedIn _ _ _ _ _ => exact absurd rfl hstatus
  | unverified _ _ _ _ _ => rfl
  | registered hrequest _ _ | verified hrequest _ _ | refreshed hrequest _ _ _ _ _ _ _
  | reset hrequest _ _ _ | deleted hrequest => cases hrequest

/-- A login fails with a trace exactly when the verification gate refuses it. -/
theorem login_trace_iff {data : RequestData} {A : Ambient} :
    (400 ≤ ((⟨.login data, A⟩ : AuthCall).outcome E s).status ∧
      ((⟨.login data, A⟩ : AuthCall).outcome E s).after ≠ s) ↔ GateRefuses E s data A := by
  constructor
  · rintro ⟨hrefused, hchanged⟩
    cases hauth : (⟨.login data, A⟩ : AuthCall).authenticates E s with
    | none => exact absurd (outcome_login_refused (.inl hauth)) hchanged
    | some user =>
        by_cases hfresh : s.tokens.Fresh A.nonce
        · obtain ⟨-, hstatus⟩ := outcome_login_authenticated hauth hfresh
          obtain ⟨hgate, hunverified⟩ : E.loginRequireVerifiedEmail = true ∧
              user.val.isEmailVerified = false := by
            by_contra hopen
            have hanswered := hstatus.mpr hopen
            omega
          exact ⟨hgate, ⟨user, hauth, hunverified⟩, hfresh⟩
        · exact absurd (outcome_login_refused (.inr hfresh)) hchanged
  · rintro ⟨hgate, ⟨user, hauth, hunverified⟩, hfresh⟩
    obtain ⟨hafter, hstatus⟩ := outcome_login_authenticated hauth hfresh
    have hchanged : ((⟨.login data, A⟩ : AuthCall).outcome E s).after ≠ s := by
      rw [hafter]
      intro heq
      exact Table.insert_ne _ _ (congrArg (fun s : AuthState => s.tokens.outstanding) heq)
    have hrefused := outcome_login_status hchanged fun h => hstatus.mp h ⟨hgate, hunverified⟩
    exact ⟨hrefused.ge, hchanged⟩

/-- **Which failed calls of the account endpoints leave a trace.** -/
theorem AuthCall.trace_iff (E : AuthEnv) (s : AuthState) (c : AuthCall) :
    (400 ≤ (c.outcome E s).status ∧ c.step E s ≠ s) ↔ c.LeavesTrace E s := by
  obtain ⟨request, A⟩ := c
  cases request with
  | register data =>
      have hsame : ∀ db, ({ s with db := db } : AuthState) ≠ s ↔ db ≠ s.db := fun db =>
        ⟨fun hne heq => hne (heq ▸ rfl), fun hne heq => hne (congrArg AuthState.db heq)⟩
      refine Iff.trans ?_ (perform_trace_iff.trans register_trace_iff)
      exact and_congr_right fun _ => hsame _
  | login data => exact login_trace_iff
  | verifyEmail _ | refresh _ | requestPasswordReset _ | confirmPasswordReset _ | deleteUser _ =>
      exact iff_of_false (AuthCall.not_trace (fun _ h => by cases h) fun _ h => by cases h) id

end Account

/-- **Which failed requests leave a trace.** For every state and every request, by any caller, to
the endpoints of accounts as to the others: what is answered with an error changes nothing, unless
it accepts an invitation that has expired, or loses its e-mail task to a broker that is down, or is
refused a checkout session after its customer was created, or is a login that the verification gate
turns down; and those do leave something. -/
theorem failed_call_leaves_trace_iff (E : AuthEnv) (s : AuthState) :
    (∀ c : Call, (400 ≤ (c.respond E.toEnv s.db).1 ∧ c.step E.toEnv s.db ≠ s.db) ↔
      LeavesTrace E.toEnv s.db c) ∧
    ∀ c : AuthCall, (400 ≤ (c.outcome E s).status ∧ c.step E s ≠ s) ↔ c.LeavesTrace E s :=
  ⟨Call.trace_iff E.toEnv s.db, AuthCall.trace_iff E s⟩

end Bastiq
