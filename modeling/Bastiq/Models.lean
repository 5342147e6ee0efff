import Bastiq.Relational.Table
import Bastiq.Rest.Serializer

/-!
# The data model

The tables of the five apps, with the columns the modelled code reads or writes. A foreign key is
the key of the row it points to; times are seconds. `Db` is the whole database.

What the code takes from Django and from the deployment's settings is collected in `Env`: case
folding, the e-mail validator, `slugify`, the password validators and hasher, the page size. What
differs from one request to the next without being part of it (the clock, fresh randomness,
whether the task broker answers) is `Ambient`.
-/

namespace Bastiq

open Relational

/-! ## accounts -/

structure User where
  email           : String
  password        : String
  firstName       : String := ""
  lastName        : String := ""
  isActive        : Bool := true
  isEmailVerified : Bool := false
  lastLogin       : Option Int := none
  dateJoined      : Int := 0
  deriving DecidableEq, Repr

/-- `User.full_name`: first and last name, or the e-mail where there is neither. -/
def User.fullName (u : User) : String :=
  let name := Python.strip (u.firstName ++ " " ++ u.lastName)
  if name == "" then u.email else name

/-! ## organizations -/

inductive Role where
  | owner
  | admin
  | member
  deriving DecidableEq, Repr

/-- Privilege rank, higher is more powerful. -/
def Role.rank : Role → Nat
  | .member => 1
  | .admin => 2
  | .owner => 3

/-- `Role.choices`: how a role is spelled in a request. -/
def Role.choices : List (String × Role) :=
  [("owner", .owner), ("admin", .admin), ("member", .member)]

structure Organization where
  name      : String
  slug      : String
  createdBy : Option Nat
  createdAt : Int
  deriving DecidableEq, Repr

structure Membership where
  user         : Nat
  organization : Nat
  role         : Role
  createdAt    : Int
  deriving DecidableEq, Repr

inductive InvitationStatus where
  | pending
  | accepted
  | revoked
  | expired
  deriving DecidableEq, Repr

structure Invitation where
  organization : Nat
  email        : String
  role         : Role
  token        : String
  status       : InvitationStatus
  invitedBy    : Option Nat
  createdAt    : Int
  expiresAt    : Int
  deriving DecidableEq, Repr

/-- `Invitation.is_expired`, at the clock value `now`. -/
def Invitation.isExpired (i : Invitation) (now : Int) : Bool := decide (i.expiresAt ≤ now)

/-! ## billing -/

def freePlanCode : String := "free"

/-- A cap under each key; `none` is unlimited, as is a key that is not there. -/
abbrev Limits := List (String × Option Int)

/-- `self.limits.get(key)`. -/
def Limits.get (limits : Limits) (key : String) : Option Int := (limits.lookup key).join

structure Plan where
  code          : String
  name          : String
  stripePriceId : String
  limits        : Limits
  isActive      : Bool
  deriving DecidableEq, Repr

/-- `DEFAULT_PLANS`, the catalogue the migration seeds: code, name and limits. -/
def defaultPlans : List (String × String × Limits) :=
  [("free", "Free", [("max_projects", some 3), ("max_members", some 3)]),
   ("pro", "Pro", [("max_projects", some 25), ("max_members", some 10)]),
   ("business", "Business", [("max_projects", none), ("max_members", none)])]

/-- `DEFAULT_PLANS[FREE_PLAN_CODE]["limits"]`. -/
def defaultFreeLimits : Limits := [("max_projects", some 3), ("max_members", some 3)]

example : (defaultPlans.lookup freePlanCode).map Prod.snd = some defaultFreeLimits := by decide

inductive SubscriptionStatus where
  | active
  | pastDue
  | canceled
  | incomplete
  deriving DecidableEq, Repr

structure Subscription where
  organization         : Nat
  plan                 : Nat
  stripeCustomerId     : String := ""
  stripeSubscriptionId : String := ""
  status               : SubscriptionStatus := .active
  currentPeriodEnd     : Option Int := none
  updatedAt            : Int
  deriving DecidableEq, Repr

/-- The idempotency ledger: one row for each Stripe event that was processed. -/
structure WebhookEvent where
  stripeEventId : String
  type          : String
  processedAt   : Int
  deriving DecidableEq, Repr

/-! ## projects -/

structure Project where
  organization : Nat
  name         : String
  description  : String
  createdBy    : Option Nat
  createdAt    : Int
  deriving DecidableEq, Repr

/-! ## The database -/

structure Db where
  users         : Table User := .empty
  organizations : Table Organization := .empty
  memberships   : Table Membership := .empty
  invitations   : Table Invitation := .empty
  plans         : Table Plan := .empty
  subscriptions : Table Subscription := .empty
  webhookEvents : Table WebhookEvent := .empty
  projects      : Table Project := .empty

/-- What the migrations leave: the plan catalogue, without prices, and nothing else. -/
def Db.migrated : Db where
  plans := defaultPlans.foldl
    (fun plans (code, name, limits) => plans.insert ⟨code, name, "", limits, true⟩) .empty

/-- Django and the settings, as far as the modelled code calls or reads them. -/
structure Env where
  /-- `str.lower`. The database compares case-insensitively through the same map. -/
  lower : String → String
  /-- Django's `EmailValidator`. -/
  validEmail : String → Bool
  /-- `django.utils.text.slugify`. -/
  slugify : String → String
  /-- The configured password validators: their messages for a password and the user it is for. -/
  passwordErrors : String → (email firstName lastName : String) → List String
  /-- `make_password`: the stored hash of a password under a fresh salt. -/
  makePassword : (password salt : String) → String
  /-- `INVITATION_TIMEOUT_DAYS`. -/
  invitationTimeoutDays : Int
  /-- `PAGE_SIZE`. -/
  pageSize : Nat
  /-- The order in which the database produces the rows of a result before it sorts them. SQL
  leaves it open, so rows with equal sort keys come in an order the code cannot rely on. -/
  scan : List (Row Project) → List (Row Project)

/-- An environment that treats plain ASCII input as Django does: what a test can run on. -/
def Env.ascii : Env where
  lower s := String.ofList (s.toList.map Char.toLower)
  validEmail s := s.toList.contains '@'
  slugify s := String.ofList (s.toList.map fun c => if c == ' ' then '-' else c.toLower)
  passwordErrors password _ _ _ := if password.length < 8 then ["Too short."] else []
  makePassword password salt := salt ++ "$" ++ password
  invitationTimeoutDays := 7
  pageSize := 20
  scan rows := rows

/-- `__iexact` on an e-mail column. -/
def Env.iexact (E : Env) (a b : String) : Bool := E.lower a == E.lower b

theorem Env.iexact_iff {E : Env} {a b : String} : E.iexact a b = true ↔ E.lower a = E.lower b := by
  simp [iexact]

/-- What surrounds a request: the clock, fresh randomness, and the broker's answer. -/
structure Ambient where
  now        : Int
  nonce      : String
  brokerIsUp : Bool := true

/-- The ways a statement or a conversion fails below the views. None of them is an exception the
API's handler recognises: unhandled, each ends in a 500. -/
inductive Failure where
  | valueError
  | dataError
  | integrityError
  | validationError
  | databaseError
  | other
  deriving DecidableEq, Repr

/-- A string the database accepts as a text parameter; it refuses a NUL character. -/
def textParam (s : String) : Except Failure String :=
  if s.toList.contains (Char.ofNat 0) then .error .dataError else .ok s

/-- A string the database stores in a column of width `n`. -/
def fits (n : Nat) (s : String) : Bool := s.length ≤ n && !s.toList.contains (Char.ofNat 0)

end Bastiq
