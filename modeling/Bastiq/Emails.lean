import Bastiq.Accounts.Auth
import Bastiq.Organizations.Invitations
import Bastiq.Rest.Query

/-!
# E-mails

The three e-mails of the application, each with a link that carries a token, and the tasks that send
them. A task names a row; the token of an account is made when the task runs, and a task whose row
is gone sends nothing.
-/

namespace Bastiq

open Relational

/-- What the e-mails take from the settings. -/
structure MailEnv extends AuthEnv where
  /-- `FRONTEND_URL`, to which paths are appended. -/
  frontendUrl : String
  isBase : ∀ c ∈ frontendUrl.toList, c ≠ '?' ∧ c ≠ '#'
  /-- `DEFAULT_FROM_EMAIL`. -/
  defaultFromEmail : String
  /-- `f"{time:%Y-%m-%d %H:%M UTC}"`. -/
  formatTime : Int → String

structure Mail where
  subject    : String
  body       : String
  fromEmail  : String
  recipients : List String
  deriving DecidableEq, Repr

/-- The tasks that are handed to the broker, each with the key of its row. -/
inductive MailTask where
  | verification (user : Nat)
  | passwordReset (user : Nat)
  | invitation (id : Nat)
  deriving DecidableEq, Repr

/-- An e-mail, the task and the time it was sent at, and what its body tells the reader to open. -/
structure Letter where
  task   : MailTask
  sentAt : Int
  link   : String
  token  : String
  mail   : Mail
  deriving DecidableEq, Repr

/-! ## Sending -/

def singleLine (s : String) : Bool := !s.toList.contains '\n' && !s.toList.contains '\r'

/-- `EmailMessage.message`: a header with a line break is a `BadHeaderError`. -/
def Mail.hasGoodHeaders (m : Mail) : Bool :=
  (m.subject :: m.fromEmail :: m.recipients).all singleLine

/-- `send_mail`. -/
def Letter.send (l : Letter) : Except Failure Letter :=
  if l.mail.hasGoodHeaders then .ok l else .error .valueError

theorem Letter.send_eq_ok {l l' : Letter} :
    l.send = .ok l' ↔ l.mail.hasGoodHeaders = true ∧ l' = l := by
  unfold Letter.send
  split
  · next h => simp [h, eq_comm]
  · next h => simp [h]

/-! ## The e-mails -/

section

variable (E : MailEnv)

/-- `_link`. -/
def tokenLink (path token : String) : String :=
  E.frontendUrl ++ path ++ "?" ++ String.ofList (Query.urlencode [("token", token)])

def verificationEmail (user : Row User) (now : Int) : Letter :=
  let token := generateEmailVerificationToken E.toSigning user now
  let link := tokenLink E "/verify-email" token
  let hours := E.emailVerificationTimeout / 3600
  { task := .verification user.id
    sentAt := now
    link := link
    token := token
    mail := {
      subject := "Verify your Bastiq email address"
      body :=
        "Hi " ++ user.val.fullName ++ ",\n\n" ++
        "Confirm your email address by opening this link:\n" ++ link ++ "\n\n" ++
        "Or POST this token to /api/auth/verify-email:\n" ++ token ++ "\n\n" ++
        "This link expires in " ++ toString hours ++
          " hours. If you didn't sign up, ignore this email.\n"
      fromEmail := E.defaultFromEmail
      recipients := [user.val.email] } }

def passwordResetEmail (user : Row User) (now : Int) : Letter :=
  let token := generatePasswordResetToken E.toSigning user now
  let link := tokenLink E "/reset-password" token
  let minutes := E.passwordResetTimeout / 60
  { task := .passwordReset user.id
    sentAt := now
    link := link
    token := token
    mail := {
      subject := "Reset your Bastiq password"
      body :=
        "Hi " ++ user.val.fullName ++ ",\n\n" ++
        "Reset your password by opening this link:\n" ++ link ++ "\n\n" ++
        "Or POST this token with a new password to /api/auth/password-reset/confirm:\n" ++ token ++
          "\n\n" ++
        "This link expires in " ++ toString minutes ++
          " minutes. If you didn't request this, ignore this email.\n"
      fromEmail := E.defaultFromEmail
      recipients := [user.val.email] } }

/-- `get_role_display`. -/
def Role.display : Role → String
  | .owner => "Owner"
  | .admin => "Admin"
  | .member => "Member"

def invitationEmail (i : Row Invitation) (org : Organization) (now : Int) : Letter :=
  let link := tokenLink E "/invitations/accept" i.val.token
  { task := .invitation i.id
    sentAt := now
    link := link
    token := i.val.token
    mail := {
      subject := "You're invited to join " ++ org.name ++ " on Bastiq"
      body :=
        "You've been invited to join " ++ org.name ++ " as a " ++ i.val.role.display ++ ".\n\n" ++
        "Accept by opening this link (you'll need a Bastiq account for " ++ i.val.email ++ "):\n" ++
        link ++ "\n\n" ++
        "Or POST this token to /api/invitations/accept:\n" ++ i.val.token ++ "\n\n" ++
        "This invitation expires on " ++ E.formatTime i.val.expiresAt ++ ".\n"
      fromEmail := E.defaultFromEmail
      recipients := [i.val.email] } }

/-! ## The tasks -/

/-- What a task writes, if its row is there. -/
def MailTask.letter (db : Db) (now : Int) : MailTask → Option Letter
  | .verification user => (db.users.get? user).map fun u => verificationEmail E u now
  | .passwordReset user => (db.users.get? user).map fun u => passwordResetEmail E u now
  | .invitation id => do
      let i ← db.invitations.get? id
      let org ← db.organizations.get? i.val.organization
      some (invitationEmail E i org.val now)

/-- A task that runs: what it sends. One that raises is done for, like one that has sent. -/
def MailTask.run (db : Db) (now : Int) (task : MailTask) : Option Letter :=
  (task.letter E db now).bind fun l => l.send.toOption

end

section

variable {E : MailEnv} {db : Db} {now : Int} {task : MailTask} {l : Letter}

theorem MailTask.task_of_letter (h : task.letter E db now = some l) : l.task = task := by
  cases task with
  | verification user =>
      obtain ⟨u, hget, rfl⟩ := Option.map_eq_some_iff.mp h
      exact congrArg MailTask.verification (Table.id_of_get? hget)
  | passwordReset user =>
      obtain ⟨u, hget, rfl⟩ := Option.map_eq_some_iff.mp h
      exact congrArg MailTask.passwordReset (Table.id_of_get? hget)
  | invitation id =>
      obtain ⟨i, hget, h⟩ := Option.bind_eq_some_iff.mp h
      obtain ⟨org, -, h⟩ := Option.bind_eq_some_iff.mp h
      cases h
      exact congrArg MailTask.invitation (Table.id_of_get? hget)

theorem MailTask.run_eq_some :
    task.run E db now = some l ↔
      task.letter E db now = some l ∧ l.mail.hasGoodHeaders = true := by
  unfold MailTask.run
  cases hletter : task.letter E db now with
  | none => simp
  | some written =>
      cases hsend : written.send with
      | error e =>
          have hbad : written.mail.hasGoodHeaders = false := by
            by_contra hgood
            rw [Letter.send_eq_ok.mpr ⟨by simpa using hgood, rfl⟩] at hsend
            cases hsend
          simp only [Option.bind_some, hsend, Except.toOption, Option.some.injEq]
          refine iff_of_false (by simp) ?_
          rintro ⟨rfl, hgood⟩
          rw [hbad] at hgood
          cases hgood
      | ok sent =>
          obtain ⟨hgood, rfl⟩ := Letter.send_eq_ok.mp hsend
          simp only [Option.bind_some, hsend, Except.toOption, Option.some.injEq]
          refine ⟨?_, fun h => h.1⟩
          rintro rfl
          exact ⟨rfl, hgood⟩

/-- **The link of an e-mail carries its token**, and nothing else. -/
theorem parse_tokenLink {path : String} (hpath : ∀ c ∈ path.toList, c ≠ '?' ∧ c ≠ '#')
    (token : String) :
    Query.parse (Query.queryOf (tokenLink E path token).toList) = some [("token", token)] := by
  have hbase : ∀ c ∈ (E.frontendUrl ++ path).toList, c ≠ '?' ∧ c ≠ '#' := by
    intro c hc
    rw [String.toList_append, List.mem_append] at hc
    exact hc.elim (E.isBase c) (hpath c)
  have hlink : (tokenLink E path token).toList =
      (E.frontendUrl ++ path).toList ++ '?' :: Query.urlencode [("token", token)] := by
    simp [tokenLink]
  have hfragment : '#' ∉ (E.frontendUrl ++ path).toList ++ Query.urlencode [("token", token)] := by
    rw [List.mem_append, not_or]
    exact ⟨fun hc => (hbase _ hc).2 rfl, Query.not_mem_urlencode _ (by decide) (by decide)
      (by decide)⟩
  rw [hlink, Query.queryOf_append hfragment fun hc => (hbase _ hc).1 rfl]
  exact Query.parse_urlencode _

/-- Every e-mail has such a link. -/
theorem Letter.parse_link (h : task.letter E db now = some l) :
    Query.parse (Query.queryOf l.link.toList) = some [("token", l.token)] := by
  cases task with
  | verification user =>
      obtain ⟨u, -, rfl⟩ := Option.map_eq_some_iff.mp h
      exact parse_tokenLink (by simp) _
  | passwordReset user =>
      obtain ⟨u, -, rfl⟩ := Option.map_eq_some_iff.mp h
      exact parse_tokenLink (by simp) _
  | invitation id =>
      obtain ⟨i, -, h⟩ := Option.bind_eq_some_iff.mp h
      obtain ⟨org, -, h⟩ := Option.bind_eq_some_iff.mp h
      cases h
      exact parse_tokenLink (by simp) _

end

end Bastiq
