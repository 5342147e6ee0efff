import Bastiq.Api
import Bastiq.Emails
import Bastiq.Integrity
import Bastiq.Writes

/-!
# The e-mails on their way

Requests hand tasks to the broker; a worker takes them in any order, some of them twice, and some
are lost. What it writes stands in the outbox. A request comes from somebody who reads the mail of
some addresses, and that is where the tokens it presents come from.

* `mailboxes_guard_accounts` — an account is verified, given a new password or brought into an
  organization by an invitation only by somebody who reads the mail of its address;
* `letters_lead_in` — the link of a letter does what it was sent for, to the account or the
  invitation as it was then.
-/

namespace Bastiq

open Relational Transition View

/-! ## What calls leave alone -/

/-- No address and no invitation's token changes. -/
structure Steady (db db' : Db) : Prop where
  users       : db.users.Keeps User.email db'.users
  invitations : db.invitations.Keeps (fun i => (i.email, i.token)) db'.invitations

theorem Steady.of_same {db db' : Db} (husers : db'.users = db.users)
    (hinvitations : db'.invitations = db.invitations) : Steady db db' := by
  refine ⟨?_, ?_⟩
  · rw [husers]
    exact .refl _ _
  · rw [hinvitations]
    exact .refl _ _

theorem Steady.modifyUser (db : Db) (user : Nat) (w : AccountWrite) :
    Steady db { db with users := db.users.modify user w.apply } :=
  ⟨Table.keeps_modify w.apply_email _ _, .refl _ _⟩

theorem steady_setInvitationStatus (db : Db) (id : Nat) (status : InvitationStatus) :
    Steady db (setInvitationStatus db id status) := by
  refine ⟨.refl _ _, Table.keeps_modify ?_ _ _⟩
  intro i
  rfl

theorem Call.steady (E : Env) (c : Call) (db : Db) : Steady db (c.step E db) := by
  have hchange := c.change E db
  generalize c.step E db = db' at hchange ⊢
  cases hchange with
  | created _ _ hinsert =>
      obtain ⟨-, subs, rfl, -⟩ := insertOrganization_eq_ok hinsert
      exact .of_same rfl rfl
  | destroyed => exact ⟨.refl _ _, Table.keeps_delete _ _ _⟩
  | invited => exact ⟨.refl _ _, Table.keeps_insert _ _ _⟩
  | @expired i => exact steady_setInvitationStatus db i.id _
  | @used user i => exact steady_setInvitationStatus db i.id _
  | @joined user i =>
      exact ⟨.refl _ _, (steady_setInvitationStatus db i.id .accepted).invitations⟩
  | registered => exact ⟨Table.keeps_insert _ _ _, .refl _ _⟩
  | accountWritten => exact .modifyUser db _ _
  | delivered _ _ hprocess =>
      obtain ⟨-, -, write, -, rfl⟩ := Delivery.process_eq_ok.mp hprocess
      exact .of_same rfl rfl
  | _ => exact .of_same rfl rfl

theorem steady_deleteUser (db : Db) (user : Nat) : Steady db (deleteUser db user) := by
  unfold deleteUser
  split
  · exact .of_same rfl rfl
  · refine ⟨Table.keeps_delete _ _ _, Table.keeps_update ?_ _ _⟩
    intro i
    rfl

theorem AuthCall.steady (E : AuthEnv) (c : AuthCall) (s : AuthState) :
    Steady s.db (c.step E s).db := by
  have hchange := c.change E s
  unfold AuthCall.step
  generalize c.outcome E s = out at hchange ⊢
  cases hchange with
  | same => exact .of_same rfl rfl
  | refreshed => exact .of_same rfl rfl
  | registered => exact ⟨Table.keeps_insert _ _ _, .refl _ _⟩
  | deleted => exact steady_deleteUser _ _
  | verified | loggedIn | unverified | reset => exact .modifyUser s.db _ _

/-! ## The system -/

/-- The requests that are not those of the account endpoints. -/
def Request.isTenant : Request → Bool
  | .register _ | .account _ _ => false
  | _ => true

structure TenantCall where
  call     : Call
  isTenant : call.request.isTenant = true

/-- The accounts and the tables, the tasks the broker holds, and what was sent. -/
structure PostState where
  auth   : AuthState
  queue  : List MailTask := []
  outbox : List Letter := []

/-- What can happen. A request comes with the addresses whose mail the sender reads. -/
inductive PostEvent where
  | account (c : AuthCall) (mailboxes : List String)
  | tenant (c : TenantCall) (mailboxes : List String)
  /-- A worker runs a task. One whose acknowledgement does not get through comes again. -/
  | work (n : Nat) (now : Int) (acked : Bool)
  | lose (n : Nat)

/-- `PasswordResetRequestSerializer.save`: the account whose task is enqueued. -/
def resetAccount (E : AuthEnv) (db : Db) (data : RequestData) :
    View TokenPair (Option (Row User)) := do
  let fields ← bodyFields data
  match emailField E.toEnv (fields.lookup "email") with
  | .value email =>
      let email := normalizeEmail E.toEnv email
      .ok (db.users.first? fun u => E.iexact u.val.email email && u.val.isActive)
  | result => .error (invalid (result.named "email"))

/-- The task a call hands over, if the broker takes it. -/
def AuthCall.task? (E : AuthEnv) (db : Db) (c : AuthCall) : Option MailTask :=
  match c.request with
  | .register data => match register E.toEnv db data c.ambient with
    | .ok _ => some (.verification db.users.nextId)
    | .error _ => none
  | .requestPasswordReset data => match resetAccount E db data with
    | .ok user => user.map fun u => .passwordReset u.id
    | .error _ => none
  | _ => none

def TenantCall.task? (E : Env) (db : Db) (c : TenantCall) : Option MailTask :=
  match c.call.request with
  | .invite pk data => do
      let user ← authenticate db c.call.bearer
      match inviteMember E db user.id pk data c.call.ambient with
      | .ok _ => some (.invitation db.invitations.nextId)
      | .error _ => none
  | _ => none

/-- A task is in the queue when the broker has taken it. -/
def handOver (A : Ambient) (task : Option MailTask) (queue : List MailTask) : List MailTask :=
  if A.brokerIsUp then queue ++ task.toList else queue

def PostEvent.step (E : MailEnv) (e : PostEvent) (s : PostState) : PostState :=
  match e with
  | .account c _ => { s with
      auth := c.step E.toAuthEnv s.auth
      queue := handOver c.ambient (c.task? E.toAuthEnv s.auth.db) s.queue }
  | .tenant c _ => { s with
      auth := { s.auth with db := c.call.step E.toEnv s.auth.db }
      queue := handOver c.call.ambient (c.task? E.toEnv s.auth.db) s.queue }
  | .work n now acked => match s.queue[n]? with
    | none => s
    | some task => { s with
        queue := if acked then s.queue.eraseIdx n else s.queue
        outbox := s.outbox ++ (task.run E s.auth.db now).toList }
  | .lose n => { s with queue := s.queue.eraseIdx n }

def PostEvent.mailboxes : PostEvent → List String
  | .account _ mailboxes | .tenant _ mailboxes => mailboxes
  | .work _ _ _ | .lose _ => []

/-- The database of a fresh deployment; nobody has been written to. -/
def PostState.start : PostState := { auth := ⟨Db.migrated, .empty⟩ }

/-! ## What is in the outbox -/

/-- The token of a letter is for the row of its task, and the letter went to the address of that
row. -/
def Letter.Addressed (S : Signing) (db : Db) (l : Letter) : Prop :=
  match l.task with
  | .verification user => user < db.users.nextId ∧
      (∃ u : Row User, u.id = user ∧ l.token = generateEmailVerificationToken S u l.sentAt) ∧
      ∀ u ∈ db.users.rows, u.id = user → l.mail.recipients = [u.val.email]
  | .passwordReset user => user < db.users.nextId ∧
      (∃ u : Row User, u.id = user ∧ l.token = generatePasswordResetToken S u l.sentAt) ∧
      ∀ u ∈ db.users.rows, u.id = user → l.mail.recipients = [u.val.email]
  | .invitation id => id < db.invitations.nextId ∧
      (∀ i ∈ db.invitations.rows, i.id = id →
        l.token = i.val.token ∧ l.mail.recipients = [i.val.email]) ∧
      ∀ i ∈ db.invitations.rows, i.val.token = l.token → i.id = id

section Addressed

variable {E : MailEnv} {db db' : Db} {l : Letter} {task : MailTask} {now : Int}

/-- What a task sends is addressed. -/
theorem addressed_of_letter (h : task.letter E db now = some l)
    (htokens : db.invitations.Unique (·.token)) : l.Addressed E.toSigning db := by
  have hown : ∀ u ∈ db.users.rows, ∀ v ∈ db.users.rows, v.id = u.id →
      [u.val.email] = [v.val.email] := by
    intro u hu v hv hid
    rw [db.users.eq_of_id_eq hv hu hid]
  cases task with
  | verification user =>
      obtain ⟨u, hget, rfl⟩ := Option.map_eq_some_iff.mp h
      have hu := Table.mem_of_get? hget
      exact ⟨db.users.fresh u hu, ⟨u, rfl, rfl⟩, hown u hu⟩
  | passwordReset user =>
      obtain ⟨u, hget, rfl⟩ := Option.map_eq_some_iff.mp h
      have hu := Table.mem_of_get? hget
      exact ⟨db.users.fresh u hu, ⟨u, rfl, rfl⟩, hown u hu⟩
  | invitation id =>
      obtain ⟨i, hget, h⟩ := Option.bind_eq_some_iff.mp h
      obtain ⟨org, -, h⟩ := Option.bind_eq_some_iff.mp h
      cases h
      have hi := Table.mem_of_get? hget
      refine ⟨db.invitations.fresh i hi, fun j hj hid => ?_, fun j hj htoken => ?_⟩
      · rw [db.invitations.eq_of_id_eq hj hi hid]
        exact ⟨rfl, rfl⟩
      · exact congrArg Row.id (htokens j hj i hi htoken)

/-- **A letter stays addressed** as long as its token is not given out again. -/
theorem Letter.Addressed.keep (h : l.Addressed E.toSigning db) (hsteady : Steady db db')
    (hfresh : ∀ i ∈ db'.invitations.rows, db.invitations.nextId ≤ i.id → i.val.token ≠ l.token) :
    l.Addressed E.toSigning db' := by
  unfold Letter.Addressed at h ⊢
  have husers : ∀ user, user < db.users.nextId →
      (∀ u ∈ db.users.rows, u.id = user → l.mail.recipients = [u.val.email]) →
      ∀ u ∈ db'.users.rows, u.id = user → l.mail.recipients = [u.val.email] := by
    rintro user hlt haddress u hu rfl
    obtain ⟨v, hv, hid, hemail⟩ := hsteady.users.rows u hu hlt
    rw [haddress v hv hid, hemail]
  split at h
  · next user htask =>
    obtain ⟨hlt, htoken, haddress⟩ := h
    exact ⟨Nat.lt_of_lt_of_le hlt hsteady.users.nextId, htoken, husers user hlt haddress⟩
  · next user htask =>
    obtain ⟨hlt, htoken, haddress⟩ := h
    exact ⟨Nat.lt_of_lt_of_le hlt hsteady.users.nextId, htoken, husers user hlt haddress⟩
  · next id htask =>
    obtain ⟨hlt, hrow, honly⟩ := h
    refine ⟨Nat.lt_of_lt_of_le hlt hsteady.invitations.nextId, fun i hi hid => ?_,
      fun i hi htoken => ?_⟩
    · obtain ⟨j, hj, hjid, hcolumns⟩ := hsteady.invitations.rows i hi (hid ▸ hlt)
      obtain ⟨hemail, htoken⟩ := Prod.mk.inj hcolumns
      rw [← hemail, ← htoken]
      exact hrow j hj (hjid.trans hid)
    · by_cases hold : i.id < db.invitations.nextId
      · obtain ⟨j, hj, hjid, hcolumns⟩ := hsteady.invitations.rows i hi hold
        rw [← hjid]
        exact honly j hj ((Prod.mk.inj hcolumns).2.trans htoken)
      · exact absurd htoken (hfresh i hi (by omega))

end Addressed

/-- An invitation that a call adds has the token drawn for it. -/
theorem Call.token_of_new (E : Env) (c : Call) (db : Db) {i : Row Invitation}
    (hi : i ∈ (c.step E db).invitations.rows) (hnew : db.invitations.nextId ≤ i.id) :
    i.val.token = c.ambient.nonce := by
  have hold : ∀ j ∈ db.invitations.rows, ¬ db.invitations.nextId ≤ j.id := fun j hj hle =>
    Nat.lt_irrefl _ (Nat.lt_of_lt_of_le (db.invitations.fresh j hj) hle)
  have hset : ∀ id status, i ∉ (setInvitationStatus db id status).invitations.rows := by
    intro id status hi
    rcases Table.mem_modify.mp hi with ⟨hi, -⟩ | ⟨j, hj, rfl, rfl⟩
    · exact hold i hi hnew
    · exact hold j hj hnew
  have hchange := c.change E db
  generalize c.step E db = db' at hchange hi
  cases hchange with
  | created _ _ hinsert =>
      obtain ⟨-, subs, rfl, -⟩ := insertOrganization_eq_ok hinsert
      exact absurd hnew (hold i hi)
  | destroyed => exact absurd hnew (hold i (Table.mem_delete.mp hi).1)
  | invited =>
      rcases Table.mem_insert.mp hi with hi | rfl
      · exact absurd hnew (hold i hi)
      · rfl
  | expired => exact absurd hi (hset _ _)
  | used => exact absurd hi (hset _ _)
  | joined => exact absurd hi (hset _ _)
  | delivered _ _ hprocess =>
      obtain ⟨-, -, write, -, rfl⟩ := Delivery.process_eq_ok.mp hprocess
      exact absurd hnew (hold i hi)
  | _ => exact absurd hnew (hold i hi)

/-- No account endpoint adds an invitation. -/
theorem AuthCall.no_new_invitation (E : AuthEnv) (c : AuthCall) (s : AuthState) :
    ∀ i ∈ (c.step E s).db.invitations.rows, i.id < s.db.invitations.nextId := by
  have hchange := c.change E s
  unfold AuthCall.step
  generalize c.outcome E s = out at hchange ⊢
  cases hchange with
  | @deleted user =>
      intro i hi
      simp only [deleteUser] at hi
      split at hi
      · exact s.db.invitations.fresh i hi
      · obtain ⟨j, hj, rfl⟩ := Table.mem_update.mp hi
        rw [Table.setRow_id]
        exact s.db.invitations.fresh j hj
  | _ => exact s.db.invitations.fresh

/-! ## What every run keeps -/

/-- The token drawn for a new invitation is not one that was sent before. -/
def PostEvent.Fresh (s : PostState) : PostEvent → Prop
  | .tenant c _ => ∀ l ∈ s.outbox, c.call.ambient.nonce ≠ l.token
  | _ => True

/-- The constraints hold, and every letter is addressed and has its link. -/
structure Posted (E : MailEnv) (s : PostState) : Prop where
  sound     : Sound E.toEnv s.auth.db
  addressed : ∀ l ∈ s.outbox, l.Addressed E.toSigning s.auth.db
  link      : ∀ l ∈ s.outbox,
    Query.parse (Query.queryOf l.link.toList) = some [("token", l.token)]

theorem posted_start (E : MailEnv) : Posted E .start :=
  ⟨sound_migrated E.toEnv, (fun _ h => nomatch h), (fun _ h => nomatch h)⟩

theorem Posted.step {E : MailEnv} {s : PostState} (h : Posted E s) {e : PostEvent}
    (hfresh : e.Fresh s) : Posted E (e.step E s) := by
  cases e with
  | account c mailboxes =>
      refine ⟨?_, fun l hl => ?_, h.link⟩
      · show Sound E.toEnv (c.step E.toAuthEnv s.auth).db
        rcases c.db_step E.toAuthEnv s.auth with hsame | ⟨call, hcall⟩ | ⟨op, hop⟩
        · rw [hsame]
          exact h.sound
        · rw [hcall]
          exact h.sound.step call
        · rw [hop]
          exact h.sound.adminOp op
      · refine (h.addressed l hl).keep (c.steady E.toAuthEnv s.auth) fun i hi hnew => ?_
        have hold := c.no_new_invitation E.toAuthEnv s.auth i hi
        omega
  | tenant c mailboxes =>
      refine ⟨h.sound.step c.call, fun l hl => ?_, h.link⟩
      refine (h.addressed l hl).keep (c.call.steady E.toEnv s.auth.db) fun i hi hnew => ?_
      rw [c.call.token_of_new E.toEnv s.auth.db hi hnew]
      exact hfresh l hl
  | work n now acked =>
      simp only [PostEvent.step]
      split
      · exact h
      · next task htask =>
        have hsent : ∀ l ∈ (task.run E s.auth.db now).toList,
            task.letter E s.auth.db now = some l :=
          fun l hl => (MailTask.run_eq_some.mp (Option.mem_toList.mp hl)).1
        refine ⟨h.sound, fun l hl => ?_, fun l hl => ?_⟩
        · rcases List.mem_append.mp hl with hl | hl
          · exact h.addressed l hl
          · exact addressed_of_letter (hsent l hl) h.sound.unique.token
        · rcases List.mem_append.mp hl with hl | hl
          · exact h.link l hl
          · exact Letter.parse_link (hsent l hl)
  | lose n => exact ⟨h.sound, h.addressed, h.link⟩

/-! ## Who comes in -/

theorem sentText_of_validateToken {data : RequestData} {token : String}
    (h : validateToken (β := OrganizationPayload) data = .ok token) :
    sentText data "token" = some token := by
  obtain ⟨fields, hfields, h⟩ := bind_eq_ok.mp h
  rw [sentText_eq hfields]
  split at h
  · next sent hrun =>
    cases h
    exact congrArg FieldResult.value? hrun
  · cases h

/-- The members after a call: those that were, the creator of a new organization, and who has
presented the token of an invitation. -/
theorem Call.newcomer_cases (E : Env) (c : Call) (db : Db) {m : Row Membership}
    (hm : m ∈ (c.step E db).memberships.rows) :
    (∃ m' ∈ db.memberships.rows, m'.val.user = m.val.user ∧
        m'.val.organization = m.val.organization) ∨
      m.val.organization = db.organizations.nextId ∨
      ∃ data token user i, c.request = .accept data ∧ sentText data "token" = some token ∧
        invitationByToken db token = some i ∧ user ∈ db.users.rows ∧
        E.iexact user.val.email i.val.email = true ∧ m.val.user = user.id := by
  have hwritten := c.written E db
  generalize c.step E db = db' at hwritten hm
  cases hwritten with
  | nothing => exact .inl ⟨m, hm, rfl, rfl⟩
  | organization _ _ hview =>
      rcases organizationAction_cases hview with ⟨name, slug, org, hinsert⟩ |
        ⟨org, role, saved, -, -, -, rfl⟩ | ⟨org, -, rfl⟩
      · obtain ⟨horg, subs, rfl, -⟩ := insertOrganization_eq_ok hinsert
        rcases Table.mem_insert.mp hm with hm | rfl
        · exact .inl ⟨m, hm, rfl, rfl⟩
        · right
          left
          show org.id = db.organizations.nextId
          rw [horg]
      · exact .inl ⟨m, hm, rfl, rfl⟩
      · exact .inl ⟨m, (Table.mem_delete.mp hm).1, rfl, rfl⟩
  | member _ _ hview =>
      obtain ⟨actor, target, -, -, -, ⟨-, rfl⟩ | ⟨new, -, -, rfl⟩⟩ := memberRequest_cases hview
      · exact .inl ⟨m, (Table.mem_delete.mp hm).1, rfl, rfl⟩
      · rcases Table.mem_modify.mp hm with ⟨hm, -⟩ | ⟨m', hm', -, rfl⟩
        · exact .inl ⟨m, hm, rfl, rfl⟩
        · exact .inl ⟨m', hm', rfl, rfl⟩
  | invite _ _ hview =>
      obtain ⟨org, -, actor, email, new, -, -, -, -, -, -, rfl⟩ := inviteMember_cases hview
      exact .inl ⟨m, hm, rfl, rfl⟩
  | @accept data user r db' hrequest hcaller hview =>
      obtain ⟨token, i, status, htoken, hi, -, -, hsame | ⟨hemail, hinsert⟩⟩ :=
        acceptInvitation_shows hview
      · rw [hsame] at hm
        exact .inl ⟨m, hm, rfl, rfl⟩
      · rw [hinsert] at hm
        rcases Table.mem_insert.mp hm with hm | rfl
        · exact .inl ⟨m, hm, rfl, rfl⟩
        · exact .inr (.inr ⟨data, token, user, i, hrequest, sentText_of_validateToken htoken, hi,
            (authenticate_eq_some hcaller).2, hemail, rfl⟩)
  | project _ hview =>
      rcases projectView_cases hview with rfl | ⟨user, m', -, -, ⟨p, -, -, rfl⟩ |
        ⟨p, -, -, -, ⟨name, description, rfl⟩ | rfl⟩⟩
      all_goals exact .inl ⟨m, hm, rfl, rfl⟩
  | checkout _ _ hview =>
      rcases checkout_cases hview with rfl | ⟨sub, customer, -, -, -, rfl⟩
      all_goals exact .inl ⟨m, hm, rfl, rfl⟩
  | register _ hview =>
      obtain ⟨reg, user, -, hcreate⟩ := register_cases hview
      obtain ⟨rfl, -⟩ := createUser_eq_ok hcreate
      exact .inl ⟨m, hm, rfl, rfl⟩
  | webhook _ _ hprocess =>
      obtain ⟨-, -, write, -, rfl⟩ := Delivery.process_eq_ok.mp hprocess
      exact .inl ⟨m, hm, rfl, rfl⟩
  | account => exact .inl ⟨m, hm, rfl, rfl⟩

/-- No account endpoint adds a member. -/
theorem AuthCall.no_newcomer (E : AuthEnv) (c : AuthCall) (s : AuthState) :
    ∀ m ∈ (c.step E s).db.memberships.rows, m ∈ s.db.memberships.rows := by
  have hchange := c.change E s
  unfold AuthCall.step
  generalize c.outcome E s = out at hchange ⊢
  cases hchange with
  | @deleted user =>
      intro m hm
      simp only [deleteUser] at hm
      split at hm
      · exact hm
      · exact (Table.mem_delete.mp hm).1
  | _ => exact fun m hm => hm

/-! ## Who reads the mail -/

inductive MailKind where
  | verification
  | passwordReset
  | invitation
  deriving DecidableEq, Repr

def MailTask.kind : MailTask → MailKind
  | .verification _ => .verification
  | .passwordReset _ => .passwordReset
  | .invitation _ => .invitation

/-- The token is in a letter of that kind, in one of the mailboxes. -/
def ReadIn (s : PostState) (mailboxes : List String) (kind : MailKind) (token : String) : Prop :=
  ∃ l ∈ s.outbox, l.task.kind = kind ∧ l.token = token ∧ ∃ a ∈ l.mail.recipients, a ∈ mailboxes

/-- Nobody guesses a token: one that is accepted was read in a mailbox of the sender. -/
def PostEvent.Learned (E : MailEnv) (s : PostState) : PostEvent → Prop
  | .account c mailboxes =>
      (∀ data token uid, c.request = .verifyEmail data → sentText data "token" = some token →
        readEmailVerificationToken E.toSigning token c.ambient.now = .ok uid →
        ReadIn s mailboxes .verification token) ∧
      ∀ data token user, c.request = .confirmPasswordReset data →
        sentText data "token" = some token →
        readPasswordResetToken E.toSigning s.auth.db token c.ambient.now = .ok user →
        ReadIn s mailboxes .passwordReset token
  | .tenant c mailboxes => ∀ data token i, c.call.request = .accept data →
      sentText data "token" = some token → invitationByToken s.auth.db token = some i →
      ReadIn s mailboxes .invitation token
  | _ => True

/-- The account is verified or has another password. -/
def Altered (u v : User) : Prop :=
  v.password ≠ u.password ∨ v.isEmailVerified ≠ u.isEmailVerified

/-- What is done to an account is done by who reads the mail of its address. -/
structure MailboxGuarded (E : MailEnv) (s : PostState) (e : PostEvent) : Prop where
  account    : ∀ u ∈ s.auth.db.users.rows, ∀ v ∈ (e.step E s).auth.db.users.rows, v.id = u.id →
    Altered u.val v.val → u.val.email ∈ e.mailboxes
  membership : ∀ u ∈ s.auth.db.users.rows, ∀ o ∈ s.auth.db.organizations.rows,
    membershipIn s.auth.db u.id o.id = none →
    ∀ m, membershipIn (e.step E s).auth.db u.id o.id = some m →
      ∃ a ∈ e.mailboxes, E.iexact u.val.email a = true

section Reading

variable {E : MailEnv} {s : PostState} {mailboxes : List String} {task : MailTask}

theorem MailTask.verification_of_kind (h : task.kind = .verification) :
    ∃ user, task = .verification user := by
  cases task with
  | verification user => exact ⟨user, rfl⟩
  | _ => cases h

theorem MailTask.passwordReset_of_kind (h : task.kind = .passwordReset) :
    ∃ user, task = .passwordReset user := by
  cases task with
  | passwordReset user => exact ⟨user, rfl⟩
  | _ => cases h

theorem MailTask.invitation_of_kind (h : task.kind = .invitation) :
    ∃ id, task = .invitation id := by
  cases task with
  | invitation id => exact ⟨id, rfl⟩
  | _ => cases h

/-- Who reads a letter about an account reads the mail of its address. -/
theorem Posted.address_of_verification (h : Posted E s) (laws : E.toSigning.Laws) {token : String}
    {now : Int} {u : Row User} (hu : u ∈ s.auth.db.users.rows)
    (hread : readEmailVerificationToken E.toSigning token now = .ok u.id)
    (hin : ReadIn s mailboxes .verification token) : u.val.email ∈ mailboxes := by
  obtain ⟨l, hl, hkind, rfl, a, ha, hmailbox⟩ := hin
  obtain ⟨user, htask⟩ := MailTask.verification_of_kind hkind
  have haddressed := h.addressed l hl
  simp only [Letter.Addressed, htask] at haddressed
  obtain ⟨-, ⟨v, hv, htoken⟩, haddress⟩ := haddressed
  rw [htoken, readEmailVerificationToken_generate laws] at hread
  split at hread
  · have huser : u.id = user := (Except.ok.inj hread).symm.trans hv
    rw [haddress u hu huser, List.mem_singleton] at ha
    exact ha ▸ hmailbox
  · cases hread

theorem Posted.address_of_reset (h : Posted E s) (laws : E.toSigning.Laws) {token : String}
    {now : Int} {u : Row User}
    (hread : readPasswordResetToken E.toSigning s.auth.db token now = .ok u)
    (hin : ReadIn s mailboxes .passwordReset token) : u.val.email ∈ mailboxes := by
  obtain ⟨l, hl, hkind, rfl, a, ha, hmailbox⟩ := hin
  obtain ⟨user, htask⟩ := MailTask.passwordReset_of_kind hkind
  have haddressed := h.addressed l hl
  simp only [Letter.Addressed, htask] at haddressed
  obtain ⟨-, ⟨v, hv, htoken⟩, haddress⟩ := haddressed
  rw [htoken, readPasswordResetToken_generate laws] at hread
  obtain ⟨-, hu, hid, -⟩ := hread
  rw [haddress u hu (hid.trans hv), List.mem_singleton] at ha
  exact ha ▸ hmailbox

/-- Who reads the letter of an invitation reads the mail of the address it was sent to. -/
theorem Posted.address_of_invitation (h : Posted E s) {token : String} {i : Row Invitation}
    (hi : invitationByToken s.auth.db token = some i)
    (hin : ReadIn s mailboxes .invitation token) : i.val.email ∈ mailboxes := by
  obtain ⟨l, hl, hkind, rfl, a, ha, hmailbox⟩ := hin
  obtain ⟨id, htask⟩ := MailTask.invitation_of_kind hkind
  have haddressed := h.addressed l hl
  simp only [Letter.Addressed, htask] at haddressed
  obtain ⟨-, hrow, honly⟩ := haddressed
  have htoken : i.val.token = l.token := by simpa using Table.pos_of_first? hi
  have hmem := Table.mem_of_first? hi
  rw [(hrow i hmem (honly i hmem htoken)).2, List.mem_singleton] at ha
  exact ha ▸ hmailbox

end Reading

/-! ## One event -/

section Event

variable {E : MailEnv} {s : PostState} {mailboxes : List String}

theorem not_altered (u : User) : ¬ Altered u u := by
  simp [Altered]

/-- A row that is there still is the row it was, or the one that was written to. -/
theorem altered_of_modify {users : Table User} {user : Nat} {w : AccountWrite} {u v : Row User}
    (hu : u ∈ users.rows) (hv : v ∈ (users.modify user w.apply).rows) (hid : v.id = u.id)
    (haltered : Altered u.val v.val) : u.id = user ∧ v.val = w.apply u.val := by
  rcases Table.mem_modify.mp hv with ⟨hv, -⟩ | ⟨v', hv', rfl, rfl⟩
  · rw [users.eq_of_id_eq hv hu hid] at haltered
    exact absurd haltered (not_altered u.val)
  · have hsame := users.eq_of_id_eq hv' hu hid
    exact ⟨hid.symm, by rw [hsame]⟩

theorem guarded_account (h : Posted E s) (laws : E.toSigning.Laws) {c : AuthCall}
    (hlearned : (PostEvent.account c mailboxes).Learned E s) {u v : Row User}
    (hu : u ∈ s.auth.db.users.rows) (hv : v ∈ (c.step E.toAuthEnv s.auth).db.users.rows)
    (hid : v.id = u.id) (haltered : Altered u.val v.val) : u.val.email ∈ mailboxes := by
  have hsame : v ∈ s.auth.db.users.rows → u.val.email ∈ mailboxes := by
    intro hv
    rw [s.auth.db.users.eq_of_id_eq hv hu hid] at haltered
    exact absurd haltered (not_altered u.val)
  obtain ⟨hverifies, hresets⟩ := hlearned
  have hchange := c.change E.toAuthEnv s.auth
  unfold AuthCall.step at hv
  generalize c.outcome E.toAuthEnv s.auth = out at hchange hv
  cases hchange with
  | same => exact hsame hv
  | refreshed => exact hsame hv
  | registered =>
      rcases Table.mem_insert.mp hv with hv | rfl
      · exact hsame hv
      · exact absurd hid.symm (Nat.ne_of_lt (s.auth.db.users.fresh u hu))
  | deleted => exact hsame (mem_deleteUser.mp hv).1
  | @verified data token uid hrequest htoken hread =>
      obtain ⟨huid, -⟩ := altered_of_modify hu hv hid haltered
      rw [← huid] at hread
      exact h.address_of_verification laws hu hread
        (hverifies data token u.id hrequest htoken hread)
  | loggedIn =>
      obtain ⟨-, hval⟩ := altered_of_modify hu hv hid haltered
      simp [Altered, hval, AccountWrite.apply] at haltered
  | unverified =>
      obtain ⟨-, hval⟩ := altered_of_modify hu hv hid haltered
      simp [Altered, hval, AccountWrite.apply] at haltered
  | @reset data token newPassword user hrequest htoken hpassword hread =>
      obtain ⟨huid, -⟩ := altered_of_modify hu hv hid haltered
      have huser : user = u :=
        s.auth.db.users.eq_of_id_eq (mem_of_readPasswordResetToken hread) hu huid.symm
      rw [← huser]
      exact h.address_of_reset laws hread (hresets data token user hrequest htoken hread)

theorem guarded_tenant (h : Posted E s) {c : TenantCall}
    (hlearned : (PostEvent.tenant c mailboxes).Learned E s) :
    MailboxGuarded E s (.tenant c mailboxes) where
  account u hu v hv hid haltered := by
    have husers : (c.call.step E.toEnv s.auth.db).users = s.auth.db.users := by
      apply users_of_respond
      · intro data hrequest
        simpa [Request.isTenant, hrequest] using c.isTenant
      · intro user w hrequest
        simpa [Request.isTenant, hrequest] using c.isTenant
    have hv : v ∈ (c.call.step E.toEnv s.auth.db).users.rows := hv
    rw [husers] at hv
    rw [s.auth.db.users.eq_of_id_eq hv hu hid] at haltered
    exact absurd haltered (not_altered u.val)
  membership u hu o ho hnone m hm := by
    obtain ⟨hmem, huser, horg⟩ := mem_of_membershipIn hm
    rcases c.call.newcomer_cases E.toEnv s.auth.db hmem with ⟨m', hm', huser', horg'⟩ | hnew |
      ⟨data, token, user, i, hrequest, htoken, hi, hcaller, hemail, hjoins⟩
    · exact absurd (horg'.trans horg)
        (membershipIn_eq_none_iff.mp hnone m' hm' (huser'.trans huser))
    · have hlt := s.auth.db.organizations.fresh o ho
      omega
    · refine ⟨i.val.email, ?_, ?_⟩
      · exact h.address_of_invitation hi (hlearned data token i hrequest htoken hi)
      · rw [s.auth.db.users.eq_of_id_eq hu hcaller (huser.symm.trans hjoins)]
        exact hemail

theorem guarded_of_same {e : PostEvent} (hauth : (e.step E s).auth = s.auth) :
    MailboxGuarded E s e := by
  refine ⟨fun u hu v hv hid haltered => ?_, fun u hu o ho hnone m hm => ?_⟩
  · rw [hauth] at hv
    rw [s.auth.db.users.eq_of_id_eq hv hu hid] at haltered
    exact absurd haltered (not_altered u.val)
  · rw [hauth, hnone] at hm
    cases hm

/-- **One event leaves alone whose mail its sender does not read.** -/
theorem Posted.guarded (h : Posted E s) (laws : E.toSigning.Laws) {e : PostEvent}
    (hlearned : e.Learned E s) : MailboxGuarded E s e := by
  cases e with
  | account c mailboxes =>
      refine ⟨fun u hu v hv => guarded_account h laws hlearned hu hv, ?_⟩
      intro u hu o ho hnone m hm
      obtain ⟨hmem, huser, horg⟩ := mem_of_membershipIn hm
      have hold := c.no_newcomer E.toAuthEnv s.auth m hmem
      exact absurd horg (membershipIn_eq_none_iff.mp hnone m hold huser)
  | tenant c mailboxes => exact guarded_tenant h hlearned
  | work n now acked =>
      apply guarded_of_same
      simp only [PostEvent.step]
      split
      · rfl
      · rfl
  | lose n => exact guarded_of_same rfl

end Event

/-- **The mailbox guards the account.** Tokens are unguessable, and a token drawn for an invitation
is not one that was sent before. Then, in every run of requests and of workers that take tasks in
any order, repeat and lose them, an account that was there is verified or given another password
only by who reads the mail of its address, and is brought into an organization that was there only
by who reads the mail of that address up to letter case. -/
theorem mailboxes_guard_accounts (E : MailEnv) (laws : E.toSigning.Laws) (events : List PostEvent)
    (hevents : Each (PostEvent.step E) (fun s e => e.Fresh s ∧ e.Learned E s) .start events) :
    Each (PostEvent.step E) (MailboxGuarded E) .start events := by
  have hposted : Each (PostEvent.step E) (fun s e => (e.Fresh s ∧ e.Learned E s) ∧ Posted E s)
      .start events :=
    hevents.and_invariant (fun s e h hallowed => h.step hallowed.1) (posted_start E)
  exact hposted.mono fun s e h => h.2.guarded laws h.1.2

/-! ## Following a link -/

/-- A text that a form field takes as it is, as it does the tokens that are signed or drawn. -/
def Postable (token : String) : Prop := sentText (texts [("token", token)]) "token" = some token

instance (token : String) : Decidable (Postable token) :=
  inferInstanceAs (Decidable (_ = _))

/-- The letters that an event sends: that of the task which a worker runs. -/
def PostEvent.letters (E : MailEnv) (s : PostState) : PostEvent → List Letter
  | .work n now _ => (s.queue[n]?.bind fun task => task.run E s.auth.db now).toList
  | _ => []

/-- What comes of posting the token of a letter, which was sent when the database was `sent`. A
reset is for the account as it was then. -/
def LeadsIn (E : MailEnv) (sent : Db) (s : PostState) (l : Letter) : Prop :=
  match l.task with
  | .verification user => ∀ u ∈ s.auth.db.users.rows, u.id = user → ∀ A : Ambient,
      A.now - l.sentAt ≤ E.emailVerificationTimeout →
        (⟨.verifyEmail (texts [("token", l.token)]), A⟩ : AuthCall).outcome E.toAuthEnv s.auth =
          ⟨200, none, s.auth.writeAccount user .verified⟩
  | .passwordReset user => ∃ v ∈ sent.users.rows, v.id = user ∧
      ∀ u ∈ s.auth.db.users.rows, u.id = user → ∀ now,
        readPasswordResetToken E.toSigning s.auth.db l.token now = .ok u ↔
          now - l.sentAt ≤ E.passwordResetTimeout ∧
            passwordResetFingerprint E.toSigning u = passwordResetFingerprint E.toSigning v
  | .invitation id => ∀ i ∈ s.auth.db.invitations.rows, i.id = id → i.val.status = .pending →
      ∀ user, (∃ bearer, authenticate s.auth.db bearer = some user) →
        E.iexact user.val.email i.val.email = true → ∀ A : Ambient, A.now < i.val.expiresAt →
          let answer := (⟨some user.id, .accept (texts [("token", l.token)]), A⟩ : Call).respond
            E.toEnv s.auth.db
          answer.1 = 200 ∧ ∃ m, membershipIn answer.2 user.id i.val.organization = some m

/-- The address a letter about this row goes to. -/
def MailTask.address? (db : Db) : MailTask → Option String
  | .verification user | .passwordReset user => (db.users.get? user).map (·.val.email)
  | .invitation id => (db.invitations.get? id).map (·.val.email)

section Following

variable {E : MailEnv} {s : PostState} {l : Letter}

theorem PostEvent.outbox_step (E : MailEnv) (e : PostEvent) (s : PostState) :
    (e.step E s).outbox = s.outbox ++ e.letters E s := by
  cases e with
  | work n now acked =>
      simp only [PostEvent.step, PostEvent.letters]
      cases s.queue[n]? with
      | none => exact (List.append_nil s.outbox).symm
      | some task => rfl
  | _ => exact (List.append_nil s.outbox).symm

/-- What was sent stays sent. -/
theorem mem_outbox_run {events : List PostEvent} (hl : l ∈ s.outbox) :
    l ∈ (run (PostEvent.step E) s events).outbox := by
  have hkept : States (PostEvent.step E) (fun s => l ∈ s.outbox) s events := by
    refine states_of_step (Q := fun s : PostState => l ∈ s.outbox) (fun s e hl => ?_) hl events
    rw [e.outbox_step E s]
    exact List.mem_append_left _ hl
  exact hkept.last

/-- What an event sends is what its task writes. -/
theorem PostEvent.letter_of_mem {e : PostEvent} (hl : l ∈ e.letters E s) :
    ∃ now, l.task.letter E s.auth.db now = some l := by
  cases e with
  | work n now acked =>
      obtain ⟨task, -, hrun⟩ := Option.bind_eq_some_iff.mp (Option.mem_toList.mp hl)
      obtain ⟨hletter, -⟩ := MailTask.run_eq_some.mp hrun
      refine ⟨now, ?_⟩
      rw [MailTask.task_of_letter hletter]
      exact hletter
  | _ => cases hl

theorem verifyEmail_of_sentText {data : RequestData} {token : String} {A : Ambient} {uid : Nat}
    (hsent : sentText data "token" = some token)
    (hread : readEmailVerificationToken E.toSigning token A.now = .ok uid) :
    verifyEmail E.toAuthEnv s.auth data A =
      .ok (⟨200, .detail "Email address verified."⟩, s.auth.writeAccount uid .verified) := by
  obtain ⟨fields, hfields, hrun⟩ := exists_fields hsent
  simp [verifyEmail, hfields, hrun, hread]

theorem acceptInvitation_of_sentText {db : Db} {user : Row User} {data : RequestData}
    {token : String} {i : Row Invitation} {now : Int} (hsent : sentText data "token" = some token)
    (hi : invitationByToken db token = some i) (hpending : i.val.status = .pending)
    (hage : now < i.val.expiresAt) (hemail : E.iexact user.val.email i.val.email = true) :
    ∃ r db', acceptInvitation E.toEnv db user data now = .ok (r, db') ∧ r.status = 200 ∧
      ∃ m, membershipIn db' user.id i.val.organization = some m := by
  obtain ⟨fields, hfields, hrun⟩ := exists_fields hsent
  have hbody : bodyFields (β := OrganizationPayload) data = .ok fields := by
    cases data with
    | unparsable status message refused => cases hfields
    | json v =>
        cases hv : v.fields with
        | error es => simp [bodyFields, hv] at hfields
        | ok found => simpa [bodyFields, hv] using hfields
  have htoken : validateToken (β := OrganizationPayload) data = .ok token := by
    have hrun : invitationToken.run false (fields.lookup "token") = .value token := hrun
    simp [validateToken, hbody, hrun]
  have hexpired : i.val.isExpired now = false := by
    simpa [Invitation.isExpired] using hage
  let out := getOrCreateMembership db user.id i.val.organization i.val.role now
  let after := setInvitationStatus out.2 i.id .accepted
  have hmember : ∃ m, membershipIn out.2 user.id i.val.organization = some m :=
    (membershipIn_getOrCreateMembership user.id i.val.role now).1
  refine ⟨⟨200, .data (.membership (Membership.serialize after out.1))⟩, after, ?_, rfl, hmember⟩
  simp only [acceptInvitation, htoken, hi, orElse_some, ok_bind, hpending, hexpired, hemail,
    require, beq_self_eq_true, if_true, Bool.false_eq_true, if_false]
  rfl

theorem authenticate_of_authenticate {db : Db} {bearer : Option Nat} {user : Row User}
    (h : authenticate db bearer = some user) : authenticate db (some user.id) = some user := by
  rw [(authenticate_eq_some h).1] at h
  exact h

/-- A letter about a row that is there leads in. -/
theorem Posted.leadsIn (h : Posted E s) (laws : E.toSigning.Laws) (hl : l ∈ s.outbox)
    {sent : Db} {now : Int} (hletter : l.task.letter E sent now = some l)
    (hpostable : Postable l.token) : LeadsIn E sent s l := by
  unfold LeadsIn
  split
  · next user htask =>
    rw [htask] at hletter
    obtain ⟨v, hget, rfl⟩ := Option.map_eq_some_iff.mp hletter
    intro u hu hid A hage
    have hread : readEmailVerificationToken E.toSigning
        (generateEmailVerificationToken E.toSigning v now) A.now = .ok user := by
      have hage : A.now - now ≤ E.emailVerificationTimeout := hage
      rw [readEmailVerificationToken_generate laws, if_pos hage, Table.id_of_get? hget]
    simp only [AuthCall.outcome, verifyEmail_of_sentText hpostable hread]
    rfl
  · next user htask =>
    rw [htask] at hletter
    obtain ⟨v, hget, rfl⟩ := Option.map_eq_some_iff.mp hletter
    have hid := Table.id_of_get? hget
    refine ⟨v, Table.mem_of_get? hget, hid, fun u hu huid now' => ?_⟩
    refine (readPasswordResetToken_generate laws).trans (and_congr_right fun _ => ?_)
    simp [hu, huid, hid]
  · next id htask =>
    have haddressed := h.addressed l hl
    simp only [Letter.Addressed, htask] at haddressed
    obtain ⟨-, hrow, honly⟩ := haddressed
    intro i hi hid hpending user hbearer hemail A hage answer
    obtain ⟨bearer, hbearer⟩ := hbearer
    have hfound : invitationByToken s.auth.db l.token = some i := by
      rw [(hrow i hi hid).1]
      exact h.sound.unique.token.first?_eq_some_iff.mpr ⟨hi, rfl⟩
    obtain ⟨r, db', hview, hstatus, hmember⟩ :=
      acceptInvitation_of_sentText hpostable hfound hpending hage hemail
    have hanswer : answer = (r.status, db') := by
      simp only [answer, Call.respond, authenticated, authenticate_of_authenticate hbearer, hview,
        perform_ok]
    rw [hanswer]
    exact ⟨hstatus, hmember⟩

/-- A letter about a row that is there went to the address of that row. -/
theorem Posted.recipients (h : Posted E s) (hl : l ∈ s.outbox) {address : String}
    (haddress : l.task.address? s.auth.db = some address) : l.mail.recipients = [address] := by
  have haddressed := h.addressed l hl
  unfold Letter.Addressed at haddressed
  cases htask : l.task with
  | verification user =>
      simp only [htask] at haddressed
      rw [htask] at haddress
      obtain ⟨u, hget, rfl⟩ := Option.map_eq_some_iff.mp haddress
      exact haddressed.2.2 u (Table.mem_of_get? hget) (Table.id_of_get? hget)
  | passwordReset user =>
      simp only [htask] at haddressed
      rw [htask] at haddress
      obtain ⟨u, hget, rfl⟩ := Option.map_eq_some_iff.mp haddress
      exact haddressed.2.2 u (Table.mem_of_get? hget) (Table.id_of_get? hget)
  | invitation id =>
      simp only [htask] at haddressed
      rw [htask] at haddress
      obtain ⟨i, hget, rfl⟩ := Option.map_eq_some_iff.mp haddress
      exact (haddressed.2.1 i (Table.mem_of_get? hget) (Table.id_of_get? hget)).2

end Following

/-- **Where the letters go, and where their links lead.** In every run of requests and workers, and
for every letter that one of its events sends: at the end, if its row is still there, the letter
went to the address of that row; the link has the token in its query, alone; and the token does what
the letter promises. A verification verifies the account until it is too old; a reset is accepted
until it is too old or the account is not any more as it was when the letter was sent; and whoever
has the invited address becomes a member while the invitation is pending and has not expired. -/
theorem letters_lead_in (E : MailEnv) (laws : E.toSigning.Laws) (events : List PostEvent)
    (hevents : Each (PostEvent.step E) PostEvent.Fresh .start events) :
    let state := run (PostEvent.step E) .start
    ∀ before e after, events = before ++ e :: after → ∀ l ∈ e.letters E (state before),
      l ∈ (state events).outbox ∧
      (∀ address, l.task.address? (state events).auth.db = some address →
        l.mail.recipients = [address]) ∧
      Query.parse (Query.queryOf l.link.toList) = some [("token", l.token)] ∧
      (Postable l.token → LeadsIn E (state before).auth.db (state events) l) := by
  intro state before e after hsplit l hl
  have hstates : States (PostEvent.step E) (Posted E) .start events :=
    states_of_each (fun s e h hfresh => Posted.step h hfresh) (posted_start E) hevents
  have hposted : Posted E (state events) := hstates.last
  obtain ⟨now, hletter⟩ := e.letter_of_mem hl
  have hsent : l ∈ (state events).outbox := by
    simp only [state, hsplit, run_append, run_cons]
    apply mem_outbox_run
    rw [e.outbox_step]
    exact List.mem_append_right _ hl
  exact ⟨hsent, fun address => hposted.recipients hsent, hposted.link l hsent,
    hposted.leadsIn laws hsent hletter⟩

/-! ## One account, from its registration to its verification -/

def MailEnv.plain : MailEnv where
  toAuthEnv := AuthEnv.plain
  frontendUrl := "http://x"
  isBase := by simp
  defaultFromEmail := "no-reply@x.io"
  formatTime _ := "soon"

/-- The account of Ada, the first. -/
def ada : Row User := ⟨1, { email := "ada@x.io", password := "salt$password" }⟩

def adaToken : String := generateEmailVerificationToken Signing.plain ada 20

/-- Ada registers, a worker sends the letter, and she posts its token. -/
def adaVerifies : List PostEvent :=
  [.account ⟨.register (texts [("email", "ada@x.io"), ("password", "password")]),
      ⟨0, "salt", true⟩⟩ ["ada@x.io"],
    .work 0 20 true,
    .account ⟨.verifyEmail (texts [("token", adaToken)]), ⟨30, "n", true⟩⟩ ["ada@x.io"]]

/-- What she does with the token she has read, and nobody else could have done it. -/
theorem mailboxes_guard_accounts_ada :
    (run (PostEvent.step MailEnv.plain) .start adaVerifies).auth.db.users.rows.map
        (·.val.isEmailVerified) = [true] ∧
      Each (PostEvent.step MailEnv.plain) (MailboxGuarded MailEnv.plain) .start adaVerifies := by
  refine ⟨by decide, mailboxes_guard_accounts MailEnv.plain signingLaws_plain adaVerifies ?_⟩
  have hsent : sentText (texts [("token", adaToken)]) "token" = some adaToken := by decide
  refine ⟨⟨trivial, ?_, ?_⟩, ⟨trivial, trivial⟩, ⟨trivial, ?_, ?_⟩, trivial⟩
  · intro data token uid hrequest
    cases hrequest
  · intro data token user hrequest
    cases hrequest
  · intro data token uid hrequest htoken hread
    cases hrequest
    obtain rfl := Option.some.inj (hsent.symm.trans htoken)
    exact ⟨verificationEmail MailEnv.plain ada 20, List.mem_singleton.mpr rfl, rfl, rfl, "ada@x.io",
      List.mem_singleton.mpr rfl, List.mem_singleton.mpr rfl⟩
  · intro data token user hrequest
    cases hrequest

/-- Ada registers and asks for a reset; a worker sends each of the letters at once. Then she logs
in. -/
def adaAsks : List PostEvent :=
  [.account ⟨.register (texts [("email", "ada@x.io"), ("password", "password")]),
      ⟨0, "salt", true⟩⟩ ["ada@x.io"],
    .work 0 1 true,
    .account ⟨.requestPasswordReset (texts [("email", "ada@x.io")]), ⟨2, "n", true⟩⟩ ["ada@x.io"],
    .work 0 3 true,
    .account ⟨.login (texts [("email", "ada@x.io"), ("password", "password")]),
      ⟨5, "j", true⟩⟩ ["ada@x.io"]]

def adaLoggedIn : Row User := ⟨1, { ada.val with lastLogin := some 5 }⟩

/-- The first letter verifies the account. The second lets her set a password, until she logs in
with the one she had. -/
theorem letters_lead_in_ada :
    let token := generatePasswordResetToken MailEnv.plain.toSigning ada 3
    ((⟨.verifyEmail (texts [("token", generateEmailVerificationToken MailEnv.plain.toSigning ada 1)]),
        ⟨6, "n", true⟩⟩ : AuthCall).outcome MailEnv.plain.toAuthEnv
          (run (PostEvent.step MailEnv.plain) .start adaAsks).auth).status = 200 ∧
      readPasswordResetToken MailEnv.plain.toSigning
        (run (PostEvent.step MailEnv.plain) .start (adaAsks.take 4)).auth.db token 4 = .ok ada ∧
      (run (PostEvent.step MailEnv.plain) .start adaAsks).auth.db.users.rows = [adaLoggedIn] ∧
      readPasswordResetToken MailEnv.plain.toSigning
        (run (PostEvent.step MailEnv.plain) .start adaAsks).auth.db token 6 ≠ .ok adaLoggedIn := by
  intro token
  have hasked : (run (PostEvent.step MailEnv.plain) .start (adaAsks.take 3)).auth.db.users.rows =
      [ada] := by decide +kernel
  have hsent : (run (PostEvent.step MailEnv.plain) .start (adaAsks.take 4)).auth.db.users.rows =
      [ada] := by decide +kernel
  have hafter : (run (PostEvent.step MailEnv.plain) .start adaAsks).auth.db.users.rows =
      [adaLoggedIn] := by decide +kernel
  have hfresh : Each (PostEvent.step MailEnv.plain) PostEvent.Fresh .start adaAsks :=
    ⟨trivial, trivial, trivial, trivial, trivial, trivial⟩
  have hverification : verificationEmail MailEnv.plain ada 1 ∈ PostEvent.letters MailEnv.plain
      (run (PostEvent.step MailEnv.plain) .start (adaAsks.take 1)) (.work 0 1 true) := by
    decide +kernel
  have hreset : passwordResetEmail MailEnv.plain ada 3 ∈ PostEvent.letters MailEnv.plain
      (run (PostEvent.step MailEnv.plain) .start (adaAsks.take 3)) (.work 0 3 true) := by
    decide +kernel
  have hpostable : Postable token := by decide +kernel
  refine ⟨?_, ?_, hafter, ?_⟩
  · obtain ⟨-, -, -, hleads⟩ := letters_lead_in MailEnv.plain signingLaws_plain adaAsks hfresh
      (adaAsks.take 1) (.work 0 1 true) (adaAsks.drop 2) rfl _ hverification
    have hread := hleads (by decide) adaLoggedIn (by simp [hafter]) rfl ⟨6, "n", true⟩ (by decide)
    exact congrArg Outcome.status hread
  · obtain ⟨-, -, -, hleads⟩ := letters_lead_in MailEnv.plain signingLaws_plain (adaAsks.take 4)
      ⟨trivial, trivial, trivial, trivial, trivial⟩ (adaAsks.take 3) (.work 0 3 true) [] rfl _
      hreset
    obtain ⟨v, hv, -, hread⟩ := hleads hpostable
    obtain rfl : v = ada := by simpa [hasked] using hv
    exact (hread ada (by simp [hsent]) rfl 4).mpr ⟨by decide, rfl⟩
  · obtain ⟨-, -, -, hleads⟩ := letters_lead_in MailEnv.plain signingLaws_plain adaAsks hfresh
      (adaAsks.take 3) (.work 0 3 true) (adaAsks.drop 4) rfl _ hreset
    obtain ⟨v, hv, -, hread⟩ := hleads hpostable
    obtain rfl : v = ada := by simpa [hasked] using hv
    intro haccepted
    obtain ⟨-, hsame⟩ := (hread adaLoggedIn (by simp [hafter]) rfl 6).mp haccepted
    have hdiffer : passwordResetFingerprint MailEnv.plain.toSigning adaLoggedIn ≠
        passwordResetFingerprint MailEnv.plain.toSigning ada := by decide +kernel
    exact hdiffer hsame

end Bastiq
