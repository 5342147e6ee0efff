import Bastiq.Organizations.InviteStatements

/-!
# Accepting, down to `get_or_create`

`get_or_create` is several statements of its own: it looks for the membership, inserts one in a
savepoint when there is none, and looks again when the unique constraint refuses it. Another accept
can commit the same membership between the look and the insert, so the statements are told apart
here; the rest of an accept is as in the invitation machine, which this one refines
(`accepts_refine`).

The accept's `FOR UPDATE` takes the organization's row along. That lock only keeps interleavings
out, and is left out.
-/

namespace Bastiq

open Relational View Concurrency

/-! ## Statements -/

/-- A POST to `/invitations/accept`. -/
structure AcceptCall where
  bearer  : Option Nat
  data    : RequestData
  ambient : Ambient

/-- The call among the invitation calls. -/
def AcceptCall.toCall (q : AcceptCall) : InvitationCall := ⟨q.bearer, .accept q.data, q.ambient⟩

/-- The invitation a call asks for. -/
def AcceptCall.invitation (q : AcceptCall) (db : Db) : Option (Row Invitation) :=
  match validateToken (β := OrganizationPayload) q.data with
  | .error _ => none
  | .ok token => invitationByToken db token

/-- Where an accept stands. At `.call (.creating ..)` it is about to look for the membership. -/
inductive AcceptProgress where
  | call (l : InvitationProgress)
  /-- there was no membership; it is inserted next -/
  | inserting (user : Row User) (inv : Row Invitation)
  /-- the insert met the unique constraint -/
  | refinding (user : Row User) (inv : Row Invitation)

variable {ι : Type} [DecidableEq ι]

/-- The membership an accept makes. -/
def acceptedMembership (user : Row User) (inv : Row Invitation) (now : Int) : Membership :=
  ⟨user.id, inv.val.organization, inv.val.role, now⟩

/-- The next statement of an accept. -/
def acceptStep (E : Env) (q : AcceptCall) (i : ι) :
    AcceptProgress → InvitationStore ι → Option (AcceptProgress × InvitationStore ι)
  | .call (.creating user inv), s =>
      match membershipIn s.db user.id inv.val.organization with
      | some _ => some (.call (.marking inv none .accepted), s)
      | none => some (.inserting user inv, s)
  | .inserting user inv, s =>
      -- an uncommitted membership under the same key makes the insert wait
      match s.locks.acquire i (.membership user.id inv.val.organization) with
      | none => none
      | some locks =>
          match membershipIn s.db user.id inv.val.organization with
          | some _ => some (.refinding user inv, s)
          | none => some
              (.call (.marking inv (some (acceptedMembership user inv q.ambient.now)) .accepted),
              { s with locks := locks })
  | .refinding user inv, s =>
      match membershipIn s.db user.id inv.val.organization with
      | some _ => some (.call (.marking inv none .accepted), s)
      -- the IntegrityError is raised again
      | none => some (.call (.done 500), s.release i)
  | .call l, s => (invitationStep E q.toCall i l s).map fun (l, s) => (.call l, s)

/-- The accepts side by side. -/
def acceptMachine (E : Env) (calls : ι → AcceptCall) :
    Machine ι (InvitationStore ι) AcceptProgress where
  step i := acceptStep E (calls i) i

/-- Nothing has started. -/
def acceptStart (db : Db) : Config ι (InvitationStore ι) AcceptProgress :=
  ⟨⟨db, Locks.free⟩, fun _ => .call .start⟩

/-! ## What one statement can do -/

theorem refused_of_validateToken {β : Type} {data : RequestData} {r : Response β}
    (h : validateToken data = .error r) : 400 ≤ r.status := by
  unfold validateToken at h
  cases hfields : bodyFields (β := β) data with
  | error r' =>
      rw [hfields, error_bind] at h
      cases h
      exact refused_of_bodyFields hfields
  | ok fields =>
      rw [hfields, ok_bind] at h
      split at h
      · cases h
      · cases h
        exact Nat.le_refl 400

/-- The moves of an accept. Only the last one writes the database. -/
inductive AcceptMove (E : Env) (q : AcceptCall) (i : ι) (s : InvitationStore ι) :
    AcceptProgress → AcceptProgress → InvitationStore ι → Prop where
  | known {user : Row User} (huser : authenticate s.db q.bearer = some user) :
      AcceptMove E q i s (.call .start) (.call (.authenticated user)) s
  | refused {l : AcceptProgress} {status : Nat} {locks : Locks LockKey ι} (hstatus : 400 ≤ status)
      (hlocks : locks = s.locks ∨ locks = s.locks.release i) :
      AcceptMove E q i s l (.call (.done status)) { s with locks := locks }
  | lapsed {user : Row User} {inv : Row Invitation} {locks : Locks LockKey ι}
      (hinv : q.invitation s.db = some inv) (hpending : inv.val.status = .pending)
      (hexpired : inv.val.isExpired q.ambient.now = true)
      (hlocks : s.locks.acquire i (.invitation inv.id) = some locks) :
      AcceptMove E q i s (.call (.authenticated user)) (.call (.marking inv none .expired))
        { s with locks := locks }
  | matched {user : Row User} {inv : Row Invitation} {locks : Locks LockKey ι}
      (hinv : q.invitation s.db = some inv) (hpending : inv.val.status = .pending)
      (hlive : inv.val.isExpired q.ambient.now = false)
      (hemail : E.lower user.val.email = E.lower inv.val.email)
      (hlocks : s.locks.acquire i (.invitation inv.id) = some locks) :
      AcceptMove E q i s (.call (.authenticated user)) (.call (.creating user inv))
        { s with locks := locks }
  | found {user : Row User} {inv : Row Invitation} {m : Row Membership} {l : AcceptProgress}
      (hl : l = .call (.creating user inv) ∨ l = .refinding user inv)
      (hm : membershipIn s.db user.id inv.val.organization = some m) :
      AcceptMove E q i s l (.call (.marking inv none .accepted)) s
  | missing {user : Row User} {inv : Row Invitation}
      (hm : membershipIn s.db user.id inv.val.organization = none) :
      AcceptMove E q i s (.call (.creating user inv)) (.inserting user inv) s
  | beaten {user : Row User} {inv : Row Invitation} {m : Row Membership}
      (hm : membershipIn s.db user.id inv.val.organization = some m) :
      AcceptMove E q i s (.inserting user inv) (.refinding user inv) s
  | inserted {user : Row User} {inv : Row Invitation} {locks : Locks LockKey ι}
      (hm : membershipIn s.db user.id inv.val.organization = none)
      (hlocks : s.locks.acquire i (.membership user.id inv.val.organization) = some locks) :
      AcceptMove E q i s (.inserting user inv)
        (.call (.marking inv (some (acceptedMembership user inv q.ambient.now)) .accepted))
        { s with locks := locks }
  | marked {inv : Row Invitation} {joins : Option Membership} {status : InvitationStatus} :
      AcceptMove E q i s (.call (.marking inv joins status)) (.call (.marked inv joins status)) s
  | committed {inv : Row Invitation} {joins : Option Membership} {status : InvitationStatus} :
      AcceptMove E q i s (.call (.marked inv joins status))
        (.call (.done (if status = .expired then 400 else 200)))
        { s.release i with db := commitAccept s.db inv joins status }

/-- Where only a POST can stand. -/
def InvitationProgress.isPosting : InvitationProgress → Bool
  | .permitted _ => true
  | .locked _ => true
  | .noMember _ => true
  | .noPending _ => true
  | .capped _ _ => true
  | .membersCounted _ _ _ => true
  | .allowed _ => true
  | .inserted _ => true
  | _ => false

section Moves

variable {E : Env} {q : AcceptCall} {i : ι} {s s' : InvitationStore ι} {l' : AcceptProgress}

theorem AcceptMove.refused_same {l : AcceptProgress} {status : Nat} (hstatus : 400 ≤ status) :
    AcceptMove E q i s l (.call (.done status)) s :=
  .refused hstatus (.inl rfl)

/-- All but the first look of `get_or_create` is as in the invitation machine. -/
theorem acceptStep_call {l : InvitationProgress} (hl : ∀ user inv, l ≠ .creating user inv) :
    acceptStep E q i (.call l) s =
      (invitationStep E q.toCall i l s).map fun p => (.call p.1, p.2) := by
  cases l with
  | creating user inv => exact absurd rfl (hl user inv)
  | _ => rfl

theorem acceptMove_of_lock {user : Row User} {l : InvitationProgress}
    (h : lockInvitation E q.ambient user q.data i s = some (l, s')) :
    AcceptMove E q i s (.call (.authenticated user)) (.call l) s' := by
  unfold lockInvitation at h
  split at h
  · next hrefused => cases h; exact .refused_same (refused_of_validateToken hrefused)
  next token htoken =>
  split at h
  · cases h; exact .refused_same (Nat.le_refl 400)
  next inv hinv =>
  have hask : q.invitation s.db = some inv := by
    simp only [AcceptCall.invitation, htoken, hinv]
  split at h
  · cases h
  next locks hlocks =>
  -- the row is locked, so what it says now stays so
  split at h
  · cases h; exact .refused_same (Nat.le_refl 400)
  next hstatus =>
  have hpending : inv.val.status = .pending := by simpa using hstatus
  split at h
  · next hexpired => cases h; exact .lapsed hask hpending hexpired hlocks
  next hexpired =>
  have hlive : inv.val.isExpired q.ambient.now = false := Bool.eq_false_iff.mpr hexpired
  split at h
  · next hemail => cases h; exact .matched hask hpending hlive (Env.iexact_iff.mp hemail) hlocks
  · cases h; exact .refused_same (Nat.le_refl 400)

/-- A step of the machine is a move, where no POST stands. -/
theorem acceptMove_of_step {l : AcceptProgress}
    (hl : ∀ l', l = .call l' → l'.isPosting = false)
    (h : acceptStep E q i l s = some (l', s')) : AcceptMove E q i s l l' s' := by
  cases l with
  | inserting user inv =>
      simp only [acceptStep] at h
      split at h
      · cases h
      next locks hlocks =>
      split at h
      · next m hm => cases h; exact .beaten hm
      · next hm => cases h; exact .inserted hm hlocks
  | refinding user inv =>
      simp only [acceptStep] at h
      split at h
      · next m hm => cases h; exact .found (.inr rfl) hm
      · cases h; exact .refused (Nat.le_add_right 400 100) (.inr rfl)
  | call l =>
      cases l with
      | start =>
          simp only [acceptStep, invitationStep] at h
          split at h
          · cases h; exact .refused_same (Nat.le_add_right 400 1)
          · next user huser => cases h; exact .known huser
      | authenticated user =>
          obtain ⟨ls, hstep, hls⟩ := Option.map_eq_some_iff.mp h
          cases hls
          exact acceptMove_of_lock hstep
      | creating user inv =>
          simp only [acceptStep] at h
          split at h
          · next m hm => cases h; exact .found (.inl rfl) hm
          · next hm => cases h; exact .missing hm
      | marking inv joins status => cases h; exact .marked
      | marked inv joins status => cases h; exact .committed
      | done status => cases h
      | _ => cases hl _ rfl

end Moves

end Bastiq
