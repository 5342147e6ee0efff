import Bastiq.Api

/-!
# What a call has written, view by view

`Change` says what a call may leave behind and forgets which request it was. `Written` keeps the
request, the caller and the view's own result: what a table is written by is read off from there.
-/

namespace Bastiq

open Relational View

/-- Nothing was written, or what the view of the request has returned to its caller. -/
inductive Written (E : Env) (c : Call) (db : Db) : Db → Prop where
  | nothing : Written E c db db
  | organization {a : OrganizationAction} {user : Row User} {r : Response OrganizationPayload}
      {db' : Db} (hrequest : c.request = .organization a)
      (hcaller : authenticate db c.bearer = some user)
      (hview : organizationAction E db user.id c.ambient.now a = .ok (r, db')) :
      Written E c db db'
  | member {pk memberPk : String} {a : MemberAction} {user : Row User}
      {r : Response OrganizationPayload} {db' : Db} (hrequest : c.request = .member pk memberPk a)
      (hcaller : authenticate db c.bearer = some user)
      (hview : memberRequest db user.id pk memberPk a = .ok (r, db')) : Written E c db db'
  | invite {pk : String} {data : RequestData} {user : Row User} {r : Response OrganizationPayload}
      {db' : Db} (hrequest : c.request = .invite pk data)
      (hcaller : authenticate db c.bearer = some user)
      (hview : inviteMember E db user.id pk data c.ambient = .ok (r, db')) : Written E c db db'
  | accept {data : RequestData} {user : Row User} {r : Response OrganizationPayload} {db' : Db}
      (hrequest : c.request = .accept data) (hcaller : authenticate db c.bearer = some user)
      (hview : acceptInvitation E db user data c.ambient.now = .ok (r, db')) : Written E c db db'
  | project {header : Option String} {query : List (String × String)} {data : RequestData}
      {a : ProjectAction} {r : Response ProjectPayload} {db' : Db}
      (hrequest : c.request = .project header query data a)
      (hview : projectView E ⟨(authenticate db c.bearer).map Row.id, header, query, data⟩ a
        c.ambient.now db = .ok (r, db')) : Written E c db db'
  | checkout {header : Option String} {data : RequestData} {stripe : StripeApi} {user : Row User}
      {r : Response String} {db' : Db} (hrequest : c.request = .checkout header data stripe)
      (hcaller : authenticate db c.bearer = some user)
      (hview : Bastiq.checkout db user.id header data stripe = .ok (r, db')) : Written E c db db'
  | register {data : RequestData} {r : Response UserData} {db' : Db}
      (hrequest : c.request = .register data)
      (hview : Bastiq.register E db data c.ambient = .ok (r, db')) : Written E c db db'
  | webhook {d : Delivery} {db' : Db} (hrequest : c.request = .webhook d)
      (hledger : ledgerRow db d.event.id = none) (hprocess : d.process db = .ok db') :
      Written E c db db'
  | account {user : Nat} {w : AccountWrite} (hrequest : c.request = .account user w) :
      Written E c db { db with users := db.users.modify user w.apply }

theorem Call.written (E : Env) (c : Call) (db : Db) : Written E c db (c.step E db) := by
  unfold Call.step Call.respond
  cases hrequest : c.request with
  | organization a =>
      exact authenticated_db_cases (Written E c db) .nothing fun _ _ _ => .organization hrequest
  | member pk memberPk a =>
      exact authenticated_db_cases (Written E c db) .nothing fun _ _ _ => .member hrequest
  | invite pk data =>
      exact authenticated_db_cases (Written E c db) .nothing fun _ _ _ => .invite hrequest
  | accept data =>
      exact authenticated_db_cases (Written E c db) .nothing fun _ _ _ => .accept hrequest
  | project header query data a =>
      exact perform_db_cases (motive := Written E c db) db _ .nothing fun _ _ => .project hrequest
  | checkout header data stripe =>
      exact authenticated_db_cases (Written E c db) .nothing fun _ _ _ => .checkout hrequest
  | register data =>
      exact perform_db_cases (motive := Written E c db) db _ .nothing fun _ _ => .register hrequest
  | webhook d =>
      rcases postWebhook_cases d db with hsame | ⟨hledger, hprocess⟩
      · rw [hsame]
        exact .nothing
      · exact .webhook hrequest hledger hprocess
  | account user w => exact .account hrequest

/-- **What an accepted token shows**, and what comes of it: its invitation was pending and is not
any more, and the caller is a member now or was one, if the invitation was sent to their address. -/
theorem acceptInvitation_shows {E : Env} {db db' : Db} {user : Row User} {data : RequestData}
    {now : Int} {r : Response OrganizationPayload}
    (h : acceptInvitation E db user data now = .ok (r, db')) :
    ∃ token i status, validateToken (β := OrganizationPayload) data = .ok token ∧
      invitationByToken db token = some i ∧ i.val.status = .pending ∧
      db'.invitations = (setInvitationStatus db i.id status).invitations ∧
      (db'.memberships = db.memberships ∨ E.iexact user.val.email i.val.email = true ∧
        db'.memberships =
          db.memberships.insert ⟨user.id, i.val.organization, i.val.role, now⟩) := by
  obtain ⟨token, htoken, h⟩ := bind_eq_ok.mp h
  obtain ⟨i, hi, h⟩ := bind_eq_ok.mp h
  obtain ⟨_, hpending, h⟩ := bind_eq_ok.mp h
  have hi := orElse_eq_ok.mp hi
  have hpending : i.val.status = .pending := by simpa using require_eq_ok.mp hpending
  split at h
  · cases h
    exact ⟨token, i, .expired, htoken, hi, hpending, rfl, .inl rfl⟩
  · obtain ⟨_, hemail, h⟩ := bind_eq_ok.mp h
    have hdb : setInvitationStatus
        (getOrCreateMembership db user.id i.val.organization i.val.role now).2 i.id .accepted =
          db' :=
      congrArg Prod.snd (Except.ok.inj h)
    refine ⟨token, i, .accepted, htoken, hi, hpending, ?_⟩
    rw [← hdb]
    rcases getOrCreateMembership_eq db user.id i.val.organization i.val.role now with
      ⟨-, heq⟩ | ⟨-, heq⟩
    · rw [heq]
      exact ⟨rfl, .inl rfl⟩
    · rw [heq]
      exact ⟨rfl, .inr ⟨require_eq_ok.mp hemail, rfl⟩⟩

end Bastiq
