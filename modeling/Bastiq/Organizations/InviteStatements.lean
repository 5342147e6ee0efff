import Bastiq.Concurrency.Machine
import Bastiq.Api

/-!
# Invitations as transactions

Inviting and accepting as the database sees them, one statement at a time, under READ COMMITTED. A
POST locks the organization's subscription row and then looks four times: for a member, for a
PENDING invitation, at the number of members and at the number of PENDING invitations. An accept
locks its invitation row and nothing else. What a transaction writes is seen when it commits; a row
or a unique key that one transaction has locked or written makes another wait.
-/

namespace Bastiq

open Relational View Concurrency

/-! ## Statements -/

inductive InvitationRequest where
  | post (pk : String) (data : RequestData)
  | accept (data : RequestData)

/-- A POST to the invitations of an organization or to `/invitations/accept`. -/
structure InvitationCall where
  bearer  : Option Nat
  request : InvitationRequest
  ambient : Ambient

/-- What a transaction can hold: a row it has locked, or a unique key it has inserted. -/
inductive LockKey where
  | subscription (id : Nat)
  | invitation (id : Nat)
  | token (token : String)
  | membership (user organization : Nat)
  deriving DecidableEq

/-- The committed database, and what open transactions hold. -/
structure InvitationStore (ι : Type) where
  db    : Db
  locks : Locks LockKey ι

/-- Where a call stands. The invitation of a POST is the one it is about to insert. -/
inductive InvitationProgress where
  | start
  | authenticated (user : Row User)
  /-- the caller may send this invitation; the billing row is locked next -/
  | permitted (new : Invitation)
  | locked (new : Invitation)
  /-- no member has the address -/
  | noMember (new : Invitation)
  /-- no PENDING invitation has it either -/
  | noPending (new : Invitation)
  | capped (new : Invitation) (cap : Int)
  | membersCounted (new : Invitation) (cap : Int) (members : Nat)
  /-- the limit allows one more -/
  | allowed (new : Invitation)
  /-- the row is inserted, the commit is next -/
  | inserted (new : Invitation)
  /-- the invitation is locked and can be accepted -/
  | creating (user : Row User) (i : Row Invitation)
  /-- the membership is found or inserted -/
  | marking (i : Row Invitation) (joins : Option Membership) (status : InvitationStatus)
  /-- the invitation is updated, the commit is next -/
  | marked (i : Row Invitation) (joins : Option Membership) (status : InvitationStatus)
  | done (status : Nat)

variable {ι : Type} [DecidableEq ι]

/-- A transaction ends, and what it holds is free. -/
def InvitationStore.release (s : InvitationStore ι) (i : ι) : InvitationStore ι :=
  { s with locks := s.locks.release i }

/-- What an accept commits: the membership it inserted, if any, and the invitation's status. -/
def commitAccept (db : Db) (i : Row Invitation) (joins : Option Membership)
    (status : InvitationStatus) : Db :=
  match joins with
  | none => setInvitationStatus db i.id status
  | some m => setInvitationStatus (insertMembership db m) i.id status

/-- A POST looks its organization up, and checks what it can before its transaction. -/
def postStep (E : Env) (A : Ambient) (user : Row User) (pk : String) (data : RequestData)
    (s : InvitationStore ι) : InvitationProgress :=
  match getOrganization (β := OrganizationPayload) s.db user.id pk with
  | .error r => .done r.status
  | .ok (org, role) =>
      match invitationParams (β := OrganizationPayload) E role data with
      | .error r => .done r.status
      | .ok (email, role) => .permitted (newInvitation E org.id user.id email role A)

/-- An accept locks the invitation under its token and looks at it. -/
def lockInvitation (E : Env) (A : Ambient) (user : Row User) (data : RequestData) (i : ι)
    (s : InvitationStore ι) : Option (InvitationProgress × InvitationStore ι) :=
  match validateToken (β := OrganizationPayload) data with
  | .error r => some (.done r.status, s)
  | .ok token =>
      match invitationByToken s.db token with
      | none => some (.done 400, s)
      | some inv =>
          match s.locks.acquire i (.invitation inv.id) with
          | none => none
          | some locks =>
              if inv.val.status != .pending then some (.done 400, s)
              else if inv.val.isExpired A.now then
                some (.marking inv none .expired, { s with locks := locks })
              else if E.iexact user.val.email inv.val.email then
                some (.creating user inv, { s with locks := locks })
              else some (.done 400, s)

/-- The next statement of a call. -/
def invitationStep (E : Env) (q : InvitationCall) (i : ι) :
    InvitationProgress → InvitationStore ι → Option (InvitationProgress × InvitationStore ι)
  | .start, s =>
      match authenticate s.db q.bearer with
      | none => some (.done 401, s)
      | some user => some (.authenticated user, s)
  | .authenticated user, s =>
      match q.request with
      | .post pk data => some (postStep E q.ambient user pk data s, s)
      | .accept data => lockInvitation E q.ambient user data i s
  | .permitted new, s =>
      match subscriptionOf s.db new.organization with
      -- there is no row to lock
      | none => some (.locked new, s)
      | some sub => match s.locks.acquire i (.subscription sub.id) with
          | none => none
          | some locks => some (.locked new, { s with locks := locks })
  | .locked new, s =>
      if hasMember E s.db new.organization new.email then some (.done 400, s.release i)
      else some (.noMember new, s)
  | .noMember new, s =>
      if hasPending E s.db new.organization new.email then some (.done 400, s.release i)
      else some (.noPending new, s)
  | .noPending new, s =>
      match limit s.db new.organization "max_members" with
      | none => some (.allowed new, s)
      | some l => some (.capped new l, s)
  | .capped new l, s => some (.membersCounted new l (memberCount s.db new.organization), s)
  | .membersCounted new l n, s =>
      if below (n + pendingCount s.db new.organization) (some l) then some (.allowed new, s)
      else some (.done 402, s.release i)
  | .allowed new, s =>
      if fits 254 new.email then
        match s.locks.acquire i (.token new.token) with
        | none => none
        | some locks =>
            if s.db.invitations.any (·.val.token == new.token) then some (.done 500, s.release i)
            else some (.inserted new, { s with locks := locks })
      else some (.done 500, s.release i)
  | .inserted new, s =>
      -- the e-mail task is handed to the broker after the commit
      some (.done (if q.ambient.brokerIsUp then 201 else 500),
        { s.release i with db := { s.db with invitations := s.db.invitations.insert new } })
  | .creating user inv, s =>
      match membershipIn s.db user.id inv.val.organization with
      | some _ => some (.marking inv none .accepted, s)
      | none => match s.locks.acquire i (.membership user.id inv.val.organization) with
          | none => none
          | some locks =>
              let m : Membership := ⟨user.id, inv.val.organization, inv.val.role, q.ambient.now⟩
              some (.marking inv (some m) .accepted, { s with locks := locks })
  | .marking inv joins status, s => some (.marked inv joins status, s)
  | .marked inv joins status, s =>
      some (.done (if status = .expired then 400 else 200),
        { s.release i with db := commitAccept s.db inv joins status })
  | .done _, _ => none

/-- The calls side by side. -/
def invitationMachine (E : Env) (calls : ι → InvitationCall) :
    Machine ι (InvitationStore ι) InvitationProgress where
  step i := invitationStep E (calls i) i

/-- Nothing has started. -/
def invitationStart (db : Db) : Config ι (InvitationStore ι) InvitationProgress :=
  ⟨⟨db, Locks.free⟩, fun _ => .start⟩

/-! ## What one statement can do -/

/-- The call has nothing locked. -/
def InvitationProgress.isFree : InvitationProgress → Bool
  | .start => true
  | .authenticated _ => true
  | _ => false

/-- A POST is in its transaction, and does not commit next. -/
def InvitationProgress.isOpen : InvitationProgress → Bool
  | .locked _ => true
  | .noMember _ => true
  | .noPending _ => true
  | .capped _ _ => true
  | .membersCounted _ _ _ => true
  | .allowed _ => true
  | _ => false

/-- The moves of a call. All but the two commits leave the database as it is. -/
inductive InvitationMove (E : Env) (i : ι) (s : InvitationStore ι) :
    InvitationProgress → InvitationProgress → InvitationStore ι → Prop where
  | known {user : Row User} (huser : user ∈ s.db.users.rows) :
      InvitationMove E i s .start (.authenticated user) s
  | refused {l : InvitationProgress} {status : Nat} (hl : l.isFree = true) :
      InvitationMove E i s l (.done status) s
  | rolledBack {l : InvitationProgress} {status : Nat} (hl : l.isOpen = true) :
      InvitationMove E i s l (.done status) (s.release i)
  | permitted {user : Row User} {new : Invitation} (hstatus : new.status = .pending) :
      InvitationMove E i s (.authenticated user) (.permitted new) s
  | unlocked {new : Invitation} (hsub : subscriptionOf s.db new.organization = none) :
      InvitationMove E i s (.permitted new) (.locked new) s
  | locked {new : Invitation} {sub : Row Subscription} {locks : Locks LockKey ι}
      (hsub : subscriptionOf s.db new.organization = some sub)
      (hlocks : s.locks.acquire i (.subscription sub.id) = some locks) :
      InvitationMove E i s (.permitted new) (.locked new) { s with locks := locks }
  | noMember {new : Invitation} (h : hasMember E s.db new.organization new.email = false) :
      InvitationMove E i s (.locked new) (.noMember new) s
  | noPending {new : Invitation} (h : hasPending E s.db new.organization new.email = false) :
      InvitationMove E i s (.noMember new) (.noPending new) s
  | unlimited {new : Invitation} (h : limit s.db new.organization "max_members" = none) :
      InvitationMove E i s (.noPending new) (.allowed new) s
  | capped {new : Invitation} {l : Int} (h : limit s.db new.organization "max_members" = some l) :
      InvitationMove E i s (.noPending new) (.capped new l) s
  | counted {new : Invitation} {l : Int} : InvitationMove E i s (.capped new l)
      (.membersCounted new l (memberCount s.db new.organization)) s
  | allowed {new : Invitation} {l : Int} {n : Nat}
      (h : below (n + pendingCount s.db new.organization) (some l) = true) :
      InvitationMove E i s (.membersCounted new l n) (.allowed new) s
  | inserted {new : Invitation} {locks : Locks LockKey ι}
      (hlocks : s.locks.acquire i (.token new.token) = some locks) :
      InvitationMove E i s (.allowed new) (.inserted new) { s with locks := locks }
  | posted {new : Invitation} {status : Nat} : InvitationMove E i s (.inserted new) (.done status)
      { s.release i with db := { s.db with invitations := s.db.invitations.insert new } }
  | lapsed {user : Row User} {inv : Row Invitation} {locks : Locks LockKey ι}
      (hinv : inv ∈ s.db.invitations.rows) (hstatus : inv.val.status = .pending)
      (hlocks : s.locks.acquire i (.invitation inv.id) = some locks) :
      InvitationMove E i s (.authenticated user) (.marking inv none .expired)
        { s with locks := locks }
  | matched {user : Row User} {inv : Row Invitation} {locks : Locks LockKey ι}
      (hinv : inv ∈ s.db.invitations.rows) (hstatus : inv.val.status = .pending)
      (hemail : E.lower user.val.email = E.lower inv.val.email)
      (hlocks : s.locks.acquire i (.invitation inv.id) = some locks) :
      InvitationMove E i s (.authenticated user) (.creating user inv) { s with locks := locks }
  | member {user : Row User} {inv : Row Invitation} :
      InvitationMove E i s (.creating user inv) (.marking inv none .accepted) s
  | joins {user : Row User} {inv : Row Invitation} {m : Membership} {locks : Locks LockKey ι}
      (hm : m.user = user.id ∧ m.organization = inv.val.organization)
      (hlocks : s.locks.acquire i (.membership user.id inv.val.organization) = some locks) :
      InvitationMove E i s (.creating user inv) (.marking inv (some m) .accepted)
        { s with locks := locks }
  | marked {inv : Row Invitation} {joins : Option Membership} {status : InvitationStatus} :
      InvitationMove E i s (.marking inv joins status) (.marked inv joins status) s
  | accepted {inv : Row Invitation} {joins : Option Membership} {status : InvitationStatus}
      {code : Nat} : InvitationMove E i s (.marked inv joins status) (.done code)
        { s.release i with db := commitAccept s.db inv joins status }

variable {E : Env} {i : ι} {s s' : InvitationStore ι} {l l' : InvitationProgress}

theorem invitationMove_of_post {A : Ambient} {user : Row User} {pk : String} {data : RequestData} :
    InvitationMove E i s (.authenticated user) (postStep E A user pk data s) s := by
  unfold postStep
  split
  · exact .refused rfl
  · split
    · exact .refused rfl
    · exact .permitted rfl

theorem invitationMove_of_lock {A : Ambient} {user : Row User} {data : RequestData}
    (h : lockInvitation E A user data i s = some (l', s')) :
    InvitationMove E i s (.authenticated user) l' s' := by
  unfold lockInvitation at h
  split at h
  · cases h; exact .refused rfl
  · split at h
    · cases h; exact .refused rfl
    · next inv hinv =>
      have hmem := Table.mem_of_first? hinv
      split at h
      · cases h
      · next locks hlocks =>
        split at h
        · cases h; exact .refused rfl
        · next hstatus =>
          have hpending : inv.val.status = .pending := by simpa using hstatus
          split at h
          · cases h; exact .lapsed hmem hpending hlocks
          · split at h
            · next hemail => cases h; exact .matched hmem hpending (Env.iexact_iff.mp hemail) hlocks
            · cases h; exact .refused rfl

/-- A step of the machine is a move. -/
theorem invitationMove_of_step {q : InvitationCall} (h : invitationStep E q i l s = some (l', s')) :
    InvitationMove E i s l l' s' := by
  cases l with
  | start =>
      simp only [invitationStep] at h
      split at h
      · cases h; exact .refused rfl
      · next user huser => cases h; exact .known (authenticate_eq_some huser).2
  | authenticated user =>
      simp only [invitationStep] at h
      split at h
      · cases h; exact invitationMove_of_post
      · exact invitationMove_of_lock h
  | permitted new =>
      simp only [invitationStep] at h
      split at h
      · next hsub => cases h; exact .unlocked hsub
      · next sub hsub =>
        split at h
        · cases h
        · next locks hlocks => cases h; exact .locked hsub hlocks
  | locked new =>
      simp only [invitationStep] at h
      split at h
      · cases h; exact .rolledBack rfl
      · next hmember => cases h; exact .noMember (Bool.eq_false_iff.mpr hmember)
  | noMember new =>
      simp only [invitationStep] at h
      split at h
      · cases h; exact .rolledBack rfl
      · next hpending => cases h; exact .noPending (Bool.eq_false_iff.mpr hpending)
  | noPending new =>
      simp only [invitationStep] at h
      split at h
      · next hlimit => cases h; exact .unlimited hlimit
      · next l hlimit => cases h; exact .capped hlimit
  | capped new l => cases h; exact .counted
  | membersCounted new l n =>
      simp only [invitationStep] at h
      split at h
      · next hbelow => cases h; exact .allowed hbelow
      · cases h; exact .rolledBack rfl
  | allowed new =>
      simp only [invitationStep] at h
      split at h
      · split at h
        · cases h
        · next locks hlocks =>
          split at h
          · cases h; exact .rolledBack rfl
          · cases h; exact .inserted hlocks
      · cases h; exact .rolledBack rfl
  | inserted new => cases h; exact .posted
  | creating user inv =>
      simp only [invitationStep] at h
      split at h
      · cases h; exact .member
      · split at h
        · cases h
        · next locks hlocks => cases h; exact .joins ⟨rfl, rfl⟩ hlocks
  | marking inv joins status => cases h; exact .marked
  | marked inv joins status => cases h; exact .accepted
  | done status => cases h

/-! ## A call left alone -/

/-- The call as the API routes it. -/
def InvitationRequest.toRequest : InvitationRequest → Request
  | .post pk data => .invite pk data
  | .accept data => .accept data

/-- What a POST does once it may send an invitation. -/
def sendInvitation (E : Env) (db : Db) (new : Invitation) (A : Ambient) : OrganizationView := do
  require (!hasMember E db new.organization new.email) (badRequest alreadyMemberMessage)
  require (!hasPending E db new.organization new.email) (badRequest alreadyPendingMessage)
  checkCanInviteMember db new.organization
  let after ← insertInvitation db new
  if A.brokerIsUp then
    .ok (⟨201, .data (.invitation (Invitation.serialize ⟨db.invitations.nextId, new⟩))⟩, after)
  else .ok (serverError, after)

theorem inviteMember_eq (E : Env) (db : Db) (user : Nat) (pk : String) (data : RequestData)
    (A : Ambient) : inviteMember E db user pk data A = (do
      let (org, role) ← getOrganization db user pk
      let (email, role) ← invitationParams E role data
      sendInvitation E db (newInvitation E org.id user email role A) A) := rfl

/-- Left alone, call `i` answers and leaves a database as `out` says, in `n` statements. -/
def Answers (E : Env) (calls : ι → InvitationCall) (i : ι) (n : Nat) (l : InvitationProgress)
    (s : InvitationStore ι) (out : Nat × Db) : Prop :=
  ∃ s', (invitationMachine E calls).alone i n l s = (.done out.1, s') ∧ s'.db = out.2

section Alone

variable {calls : ι → InvitationCall} {n : Nat} {out : Nat × Db} {new : Invitation} {A : Ambient}

/-- The status and the database of a view. -/
def outcome (db : Db) (view : OrganizationView) : Nat × Db :=
  ((perform db view).1.status, (perform db view).2)

theorem Answers.step (l' : InvitationProgress) (s' : InvitationStore ι)
    (h : invitationStep E (calls i) i l s = some (l', s'))
    (hrest : Answers E calls i n l' s' out) : Answers E calls i (n + 1) l s out := by
  obtain ⟨s'', halone, hdb⟩ := hrest
  exact ⟨s'', (Machine.alone_succ h).trans halone, hdb⟩

theorem Answers.done {status : Nat} (hout : out = (status, s.db)) :
    Answers E calls i n (.done status) s out := by
  subst hout
  exact ⟨s, Machine.alone_of_none rfl n, rfl⟩

/-- A POST that has passed its checks. -/
theorem answers_allowed (hheld : s.locks.HeldBy i)
    (hmember : hasMember E s.db new.organization new.email = false)
    (hpending : hasPending E s.db new.organization new.email = false)
    (hroom : checkCanInviteMember (β := OrganizationPayload) s.db new.organization = .ok ()) :
    Answers E calls i (n + 2) (.allowed new) s
      (outcome s.db (sendInvitation E s.db new (calls i).ambient)) := by
  obtain ⟨locks, hlocks⟩ := hheld.acquire (.token new.token)
  simp only [sendInvitation, hmember, hpending, hroom, Bool.not_false, require, if_true, ok_bind]
  cases hfits : fits 254 new.email with
  | false =>
      refine .step (.done 500) (s.release i) (by simp [invitationStep, hfits]) (.done ?_)
      simp [insertInvitation, require, hfits, outcome, serverError]
      rfl
  | true =>
      cases htoken : s.db.invitations.any (·.val.token == new.token) with
      | true =>
          refine .step (.done 500) (s.release i)
            (by simp [invitationStep, hfits, hlocks, htoken]) (.done ?_)
          simp [insertInvitation, require, hfits, htoken, outcome, serverError]
          rfl
      | false =>
          refine .step (.inserted new) { s with locks := locks }
            (by simp [invitationStep, hfits, hlocks, htoken]) (.step _ _ rfl (.done ?_))
          cases (calls i).ambient.brokerIsUp <;>
            simp [insertInvitation, require, hfits, htoken, outcome, serverError]

/-- A POST that may be sent. -/
theorem answers_permitted (hheld : s.locks.HeldBy i) :
    Answers E calls i 8 (.permitted new) s
      (outcome s.db (sendInvitation E s.db new (calls i).ambient)) := by
  have hlocked : ∃ s', invitationStep E (calls i) i (.permitted new) s = some (.locked new, s') ∧
      s'.db = s.db ∧ s'.locks.HeldBy i := by
    simp only [invitationStep]
    cases subscriptionOf s.db new.organization with
    | none => exact ⟨s, rfl, rfl, hheld⟩
    | some sub =>
        obtain ⟨locks, hlocks⟩ := hheld.acquire (.subscription sub.id)
        exact ⟨{ s with locks := locks }, by simp only [hlocks], rfl, hheld.of_acquire hlocks⟩
  obtain ⟨s', hstep, hdb, hheld⟩ := hlocked
  refine .step _ s' hstep ?_
  rw [← hdb]
  cases hmember : hasMember E s'.db new.organization new.email with
  | true =>
      refine .step (.done 400) (s'.release i) (by simp [invitationStep, hmember]) (.done ?_)
      simp only [sendInvitation, hmember]
      rfl
  | false =>
  refine .step (.noMember new) s' (by simp [invitationStep, hmember]) ?_
  cases hpending : hasPending E s'.db new.organization new.email with
  | true =>
      refine .step (.done 400) (s'.release i) (by simp [invitationStep, hpending]) (.done ?_)
      simp only [sendInvitation, hmember, hpending]
      rfl
  | false =>
  refine .step (.noPending new) s' (by simp [invitationStep, hpending]) ?_
  cases hlimit : limit s'.db new.organization "max_members" with
  | none =>
      refine .step (.allowed new) s' (by simp [invitationStep, hlimit]) ?_
      exact answers_allowed hheld hmember hpending (by simp [checkCanInviteMember, hlimit])
  | some l =>
  refine .step (.capped new l) s' (by simp [invitationStep, hlimit]) ?_
  refine .step (.membersCounted new l (memberCount s'.db new.organization)) s' rfl ?_
  cases hbelow : below (memberCount s'.db new.organization + pendingCount s'.db new.organization)
      (some l) with
  | false =>
      refine .step (.done 402) (s'.release i) (by simp [invitationStep, hbelow]) (.done ?_)
      simp only [sendInvitation, hmember, hpending, checkCanInviteMember, hlimit, hbelow]
      rfl
  | true =>
      refine .step (.allowed new) s' (by simp [invitationStep, hbelow]) ?_
      refine answers_allowed hheld hmember hpending ?_
      simp [checkCanInviteMember, hlimit, hbelow, require]

theorem answers_post (hheld : s.locks.HeldBy i) {user : Row User} {pk : String} {data : RequestData}
    (hrequest : (calls i).request = .post pk data) :
    Answers E calls i 9 (.authenticated user) s
      (outcome s.db (inviteMember E s.db user.id pk data (calls i).ambient)) := by
  refine .step (postStep E (calls i).ambient user pk data s) s
    (by simp only [invitationStep, hrequest]) ?_
  unfold postStep
  rw [inviteMember_eq]
  cases hget : getOrganization (β := OrganizationPayload) s.db user.id pk with
  | error r => exact .done rfl
  | ok found =>
  cases hparams : invitationParams (β := OrganizationPayload) E found.2 data with
  | error r =>
      simp only [hparams]
      refine .done ?_
      simp only [ok_bind, hparams]
      rfl
  | ok params =>
      simp only [hparams, ok_bind]
      exact answers_permitted hheld

/-- An accept that holds its invitation. -/
theorem answers_marking (inv : Row Invitation) (joins : Option Membership)
    (status : InvitationStatus) : Answers E calls i (n + 2) (.marking inv joins status) s
      (if status = .expired then 400 else 200, commitAccept s.db inv joins status) :=
  .step _ s rfl (.step _ _ rfl (.done rfl))

/-- An accept that may go on takes the membership that is there, or inserts one. -/
theorem answers_creating (hheld : s.locks.HeldBy i) {user : Row User} {inv : Row Invitation} :
    Answers E calls i (n + 3) (.creating user inv) s
      (200, setInvitationStatus (getOrCreateMembership s.db user.id inv.val.organization
        inv.val.role (calls i).ambient.now).2 inv.id .accepted) := by
  cases hmember : membershipIn s.db user.id inv.val.organization with
  | some m =>
      refine .step (.marking inv none .accepted) s (by simp only [invitationStep, hmember]) ?_
      simp only [getOrCreateMembership, hmember]
      exact answers_marking inv none .accepted
  | none =>
      obtain ⟨locks, hlocks⟩ := hheld.acquire (.membership user.id inv.val.organization)
      refine .step (.marking inv (some ⟨user.id, inv.val.organization, inv.val.role,
        (calls i).ambient.now⟩) .accepted) { s with locks := locks }
        (by simp only [invitationStep, hmember, hlocks]) ?_
      simp only [getOrCreateMembership, hmember]
      exact answers_marking inv (some _) .accepted

theorem answers_accept (hheld : s.locks.HeldBy i) {user : Row User} {data : RequestData}
    (hrequest : (calls i).request = .accept data) :
    Answers E calls i 9 (.authenticated user) s
      (outcome s.db (acceptInvitation E s.db user data (calls i).ambient.now)) := by
  -- the call ends at once where the invitation cannot be accepted
  have hdone : ∀ r : Response OrganizationPayload,
      lockInvitation E (calls i).ambient user data i s = some (.done r.status, s) →
      acceptInvitation E s.db user data (calls i).ambient.now = .error r →
      Answers E calls i 9 (.authenticated user) s
        (outcome s.db (acceptInvitation E s.db user data (calls i).ambient.now)) := by
    intro r hstep hview
    rw [hview]
    exact .step (.done r.status) s (by simp only [invitationStep, hrequest, hstep]) (.done rfl)
  cases htoken : validateToken (β := OrganizationPayload) data with
  | error r =>
      refine hdone r (by simp only [lockInvitation, htoken]) ?_
      simp only [acceptInvitation, htoken, error_bind]
  | ok token =>
  cases hinv : invitationByToken s.db token with
  | none =>
      refine hdone (badRequest invalidTokenMessage) ?_ ?_
      · simp only [lockInvitation, htoken, hinv]; rfl
      · simp only [acceptInvitation, htoken, hinv, ok_bind, orElse_none, error_bind]
  | some inv =>
  obtain ⟨locks, hlocks⟩ := hheld.acquire (.invitation inv.id)
  cases hstatus : inv.val.status == .pending with
  | false =>
      refine hdone (badRequest invalidTokenMessage) ?_ ?_
      · simp only [lockInvitation, htoken, hinv, hlocks, bne, hstatus]; rfl
      · simp only [acceptInvitation, htoken, hinv, hstatus, ok_bind, orElse_some]; rfl
  | true =>
  cases hexpired : inv.val.isExpired (calls i).ambient.now with
  | true =>
      refine .step (.marking inv none .expired) { s with locks := locks } ?_ ?_
      · simp only [invitationStep, hrequest, lockInvitation, htoken, hinv, hlocks, bne, hstatus,
          hexpired]
        rfl
      · have hview : acceptInvitation E s.db user data (calls i).ambient.now =
            .ok (badRequest "This invitation has expired.",
              setInvitationStatus s.db inv.id .expired) := by
          simp only [acceptInvitation, htoken, hinv, hstatus, hexpired, ok_bind, orElse_some,
            require, if_true]
        rw [hview]
        exact answers_marking inv none .expired
  | false =>
  cases hemail : E.iexact user.val.email inv.val.email with
  | false =>
      refine hdone (badRequest invalidTokenMessage) ?_ ?_
      · simp only [lockInvitation, htoken, hinv, hlocks, bne, hstatus, hexpired, hemail]; rfl
      · simp only [acceptInvitation, htoken, hinv, hstatus, hexpired, hemail, ok_bind, orElse_some]
        rfl
  | true =>
  refine .step (.creating user inv) { s with locks := locks } ?_ ?_
  · simp only [invitationStep, hrequest, lockInvitation, htoken, hinv, hlocks, bne, hstatus,
      hexpired, hemail]
    rfl
  · simp only [acceptInvitation, htoken, hinv, hstatus, hexpired, hemail, ok_bind, orElse_some,
      require, if_true]
    exact answers_creating (hheld.of_acquire hlocks)

end Alone

theorem answers_start (E : Env) (calls : ι → InvitationCall) (i : ι) (db : Db) :
    Answers E calls i 10 .start ⟨db, Locks.free⟩
      (Call.respond E ⟨(calls i).bearer, (calls i).request.toRequest, (calls i).ambient⟩ db) := by
  cases huser : authenticate db (calls i).bearer with
  | none =>
      refine .step (.done 401) ⟨db, Locks.free⟩ (by simp only [invitationStep, huser]) (.done ?_)
      cases hrequest : (calls i).request <;>
        simp only [Call.respond, InvitationRequest.toRequest, authenticated, huser]
  | some user =>
      refine .step (.authenticated user) ⟨db, Locks.free⟩ (by simp only [invitationStep, huser]) ?_
      cases hrequest : (calls i).request with
      | post pk data =>
          simp only [Call.respond, InvitationRequest.toRequest, authenticated, huser]
          exact answers_post (Locks.heldBy_free i) hrequest
      | accept data =>
          simp only [Call.respond, InvitationRequest.toRequest, authenticated, huser]
          exact answers_accept (Locks.heldBy_free i) hrequest

/-- **A call left alone** answers as the API does, and leaves the database the API leaves, in ten
statements at most. -/
theorem invitation_alone (E : Env) (calls : ι → InvitationCall) (i : ι) (db : Db) :
    let q := calls i
    let out := Call.respond E ⟨q.bearer, q.request.toRequest, q.ambient⟩ db
    let final := (invitationMachine E calls).run (invitationStart db) (List.replicate 10 i)
    final.loc i = .done out.1 ∧ final.store.db = out.2 := by
  intro q out final
  obtain ⟨s', halone, hdb⟩ := answers_start E calls i db
  have hrun : (final.loc i, final.store) =
      (invitationMachine E calls).alone i 10 .start ⟨db, Locks.free⟩ :=
    Machine.run_replicate (invitationStart db) i 10
  rw [halone, Prod.mk.injEq] at hrun
  refine ⟨hrun.1, ?_⟩
  rw [hrun.2, hdb]

end Bastiq
