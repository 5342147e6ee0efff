import Bastiq.Columns
import Bastiq.Concurrency.Machine

/-!
# Registrations of one address at the same time

`RegisterSerializer.validate_email` looks for an account with the address, and the insert comes in a
later statement. The database lets one insert of the address through; a request that was past its
check by then gets an `IntegrityError`, which nothing handles. So any number of registrations run as
processes here, each with its check, its insert, and the task it enqueues. There is never more than
one account (`registerInv_run`); the answers are as they should be exactly if every insert finds the
address still free (`registrations_resolved_iff`).
-/

namespace Bastiq

open Relational Concurrency Machine Transition View

/-! ## The requests, statement by statement -/

structure RegisterCall where
  data    : RequestData
  ambient : Ambient

/-- Where a registration stands. -/
inductive RegisterPlace where
  | start
  | checked (reg : Registration)
  | inserted
  | done (status : Nat)

section Steps

/-- After `is_valid`, which answers or goes on. -/
def RegisterPlace.ofCheck (db : Db) : View UserData Registration → RegisterPlace × Db
  | .error r => (.done r.status, db)
  | .ok reg => (.checked reg, db)

/-- After the insert. An `IntegrityError` or a `DataError` is a 500. -/
def RegisterPlace.ofInsert (db : Db) : View UserData (Row User × Db) → RegisterPlace × Db
  | .error r => (.done r.status, db)
  | .ok (_, after) => (.inserted, after)

variable (E : Env)

/-- `RegisterView.create`. -/
def registerStep (q : RegisterCall) (place : RegisterPlace) (db : Db) :
    Option (RegisterPlace × Db) :=
  match place with
  | .start => some (RegisterPlace.ofCheck db (validateRegistration E db q.data))
  | .checked reg => some (RegisterPlace.ofInsert db (createUser E db reg q.ambient))
  | .inserted => some (.done (if q.ambient.brokerIsUp then 201 else 500), db)
  | .done _ => none

def registerMachine {ι : Type} (calls : ι → RegisterCall) : Machine ι Db RegisterPlace where
  step i := registerStep E (calls i)

/-- Everybody at the start. -/
def registerStart {ι : Type} (db : Db) : Config ι Db RegisterPlace := ⟨db, fun _ => .start⟩

end Steps

theorem status_of_createUser {E : Env} {db : Db} {reg : Registration} {A : Ambient}
    {r : Response UserData} (h : createUser E db reg A = .error r) : r.status = 500 := by
  unfold createUser at h
  generalize splitName reg.name = names at h
  generalize storedEmail E reg.email = email at h
  simp only at h
  generalize (fits 254 email && fits 150 names.1 && fits 150 names.2 && !emailTaken E db email) =
    accepted at h
  cases accepted with
  | true => cases h
  | false =>
      cases h
      rfl

section Moves

variable {ι : Type} {E : Env} {calls : ι → RegisterCall} {i : ι} {db : Db}

theorem step_start :
    (registerMachine E calls).step i .start db =
      some (RegisterPlace.ofCheck db (validateRegistration E db (calls i).data)) := rfl

theorem step_checked {reg : Registration} :
    (registerMachine E calls).step i (.checked reg) db =
      some (RegisterPlace.ofInsert db (createUser E db reg (calls i).ambient)) := rfl

theorem step_inserted :
    (registerMachine E calls).step i .inserted db =
      some (.done (if (calls i).ambient.brokerIsUp then 201 else 500), db) := rfl

theorem step_rejected {r : Response UserData}
    (h : validateRegistration E db (calls i).data = .error r) :
    (registerMachine E calls).step i .start db = some (.done r.status, db) := by
  rw [step_start, h]
  rfl

theorem step_accepted {reg : Registration}
    (h : validateRegistration (β := UserData) E db (calls i).data = .ok reg) :
    (registerMachine E calls).step i .start db = some (.checked reg, db) := by
  rw [step_start, h]
  rfl

theorem step_stored {reg : Registration} {out : Row User × Db}
    (h : createUser (β := UserData) E db reg (calls i).ambient = .ok out) :
    (registerMachine E calls).step i (.checked reg) db = some (.inserted, out.2) := by
  rw [step_checked, h]
  rfl

/-- An insert is refused with a 500. -/
theorem step_refused {reg : Registration} {r : Response UserData}
    (h : createUser E db reg (calls i).ambient = .error r) :
    (registerMachine E calls).step i (.checked reg) db = some (.done 500, db) := by
  rw [step_checked, h, RegisterPlace.ofInsert, status_of_createUser h]

theorem step_done {status : Nat} : (registerMachine E calls).step i (.done status) db = none := rfl

/-- **Alone, the statements are the view.** -/
theorem register_alone (E : Env) (calls : ι → RegisterCall) (i : ι) (db : Db) :
    (registerMachine E calls).alone i 3 .start db =
      (.done (perform db (register E db (calls i).data (calls i).ambient)).1.status,
        (perform db (register E db (calls i).data (calls i).ambient)).2) := by
  cases hvalid : validateRegistration (β := UserData) E db (calls i).data with
  | error r =>
      rw [alone_succ (step_rejected hvalid), alone_of_none step_done]
      simp only [register, hvalid, error_bind, perform_error]
  | ok reg =>
      rw [alone_succ (step_accepted hvalid)]
      cases hcreate : createUser (β := UserData) E db reg (calls i).ambient with
      | error r =>
          rw [alone_succ (step_refused hcreate), alone_of_none step_done]
          simp only [register, hvalid, hcreate, ok_bind, error_bind, perform_error,
            status_of_createUser hcreate]
      | ok out =>
          rw [alone_succ (step_stored hcreate), alone_succ step_inserted, alone]
          simp only [register, hvalid, hcreate, ok_bind]
          cases (calls i).ambient.brokerIsUp with
          | true => simp
          | false => simp [serverError]

end Moves

/-! ## One address -/

/-- The body is a good registration of the address, in some spelling: where there is no account, it
is accepted as `reg`. -/
structure Registers (E : Env) (email : String) (data : RequestData) (reg : Registration) :
    Prop where
  valid : validateRegistration (β := UserData) E {} data = .ok reg
  spelt : ∃ typed, sentText data "email" = some typed ∧ E.lower typed = email

section Address

variable {E : Env} {email : String} {data : RequestData} {reg : Registration} {db : Db}

theorem Registers.email_eq (hlaws : LowerLaws E.lower) (h : Registers E email data reg) :
    reg.email = email ∧ storedEmail E reg.email = email ∧ E.lower email = email := by
  obtain ⟨typed, htyped, hemail, hstrip, -⟩ := texts_of_validateRegistration hlaws h.valid
  obtain ⟨typed', htyped', rfl⟩ := h.spelt
  rw [htyped] at htyped'
  cases htyped'
  refine ⟨hemail, ?_, hlaws.idem typed⟩
  rw [hemail, storedEmail_of_lower hlaws hstrip (hlaws.idem typed)]

/-- **What the check makes of such a body**: it depends on whether the address is taken, and on
nothing else. -/
theorem validateRegistration_of_valid
    (h : validateRegistration (β := UserData) E {} data = .ok reg) (db : Db) :
    if emailTaken E db reg.email then
      ∃ r, validateRegistration (β := UserData) E db data = .error r ∧ r.status = 400
    else validateRegistration (β := UserData) E db data = .ok reg := by
  obtain ⟨fields, hfields, h⟩ := bind_eq_ok.mp h
  simp only at h
  split at h
  · next address password name haddress hpassword hname =>
    obtain ⟨_, hgood, h⟩ := bind_eq_ok.mp h
    cases h
    obtain ⟨typed, htyped, hfree⟩ := FieldResult.andThen_eq_value.mp haddress
    have hnormal : normalizeEmail E typed = address := by
      simp only [validateRegisterEmail] at hfree
      split at hfree
      · cases hfree
      · cases hfree
        rfl
    split
    · next htaken =>
      have hemail : (emailField E (fields.lookup "email")).andThen (validateRegisterEmail E db) =
          .errors [.custom "A user with this email already exists."] := by
        rw [htyped, FieldResult.andThen, validateRegisterEmail, hnormal, if_pos htaken]
      simp only [validateRegistration, hfields, ok_bind, hemail, hpassword, hname]
      exact ⟨_, rfl, rfl⟩
    · next hfree =>
      have hemail : (emailField E (fields.lookup "email")).andThen (validateRegisterEmail E db) =
          .value address := by
        rw [htyped, FieldResult.andThen, validateRegisterEmail, hnormal, if_neg hfree]
      simp only [validateRegistration, hfields, ok_bind, hemail, hpassword, hname, hgood]
  · cases h

/-- After an insert the address is taken. -/
theorem emailTaken_of_createUser {β : Type} {A : Ambient} {out : Row User × Db}
    (h : createUser (β := β) E db reg A = .ok out) :
    emailTaken E out.2 (storedEmail E reg.email) = true := by
  obtain ⟨hdb, -, hemail, -⟩ := createUser_eq_ok h
  refine List.any_eq_true.mpr ⟨⟨db.users.nextId, out.1.val⟩, ?_, ?_⟩
  · rw [hdb]
    exact Table.mem_insert.mpr (.inr rfl)
  · rw [Env.iexact_iff, hemail]

end Address

/-! ## There is never more than one account -/

/-- The place of a request that has inserted the account, and has not failed since. -/
def RegisterPlace.Inserted (l : RegisterPlace) : Prop := l = .inserted ∨ l = .done 201

/-- The place of a request that has not come to inserting. -/
def RegisterPlace.Waiting (l : RegisterPlace) : Prop :=
  l = .start ∨ (∃ reg, l = .checked reg) ∨ l = .done 500

theorem RegisterPlace.Waiting.not_inserted {l : RegisterPlace} (h : l.Waiting) : ¬l.Inserted := by
  rintro (rfl | rfl)
  · obtain h | ⟨reg, h⟩ | h := h <;> cases h
  · obtain h | ⟨reg, h⟩ | h := h <;> cases h

/-- If a request with this place is past the check, then with `reg`. -/
def RegisterPlace.Checks (reg : Registration) (l : RegisterPlace) : Prop :=
  ∀ reg', l = .checked reg' → reg' = reg

/-- What has become of the address: nobody has inserted it, or one has. -/
inductive AddressState {ι : Type} (E : Env) (email : String) (db : Db)
    (c : Config ι Db RegisterPlace) : Prop where
  | free (hstore : c.store = db) (hplace : ∀ i, (c.loc i).Waiting)
  | taken (winner : ι) (user : User)
      (hstore : c.store = { db with users := db.users.insert user })
      (hemail : E.lower user.email = email)
      (hwinner : (c.loc winner).Inserted ∨ c.loc winner = .done 500)
      (hothers : ∀ i, (c.loc i).Inserted → i = winner)

/-- Beside that, who is past the check has the registration of its body. -/
structure RegisterInv {ι : Type} (E : Env) (email : String) (regs : ι → Registration) (db : Db)
    (c : Config ι Db RegisterPlace) : Prop where
  checked : ∀ i, (c.loc i).Checks (regs i)
  address : AddressState E email db c

theorem registerInv_start {ι : Type} (E : Env) (email : String) (regs : ι → Registration)
    (db : Db) : RegisterInv E email regs db (registerStart db) :=
  ⟨fun i reg h => (by cases h), .free rfl fun i => .inl rfl⟩

section Run

variable {ι : Type} [DecidableEq ι] {E : Env} {email : String} {calls : ι → RegisterCall}
  {regs : ι → Registration} {db : Db} {c : Config ι Db RegisterPlace} {i : ι} {l : RegisterPlace}

/-- A move that leaves the database, of a request that has not inserted and does not. -/
theorem AddressState.bystander (h : AddressState E email db c) (hbefore : ¬(c.loc i).Inserted)
    (hunfailed : c.loc i ≠ .done 500) (hafter : ¬l.Inserted) (hfree : c.store = db → l.Waiting) :
    AddressState E email db (c.move i l c.store) := by
  cases h with
  | free hstore hplace => exact .free hstore (Config.forall_move hplace (hfree hstore))
  | taken winner user hstore hemail hwinner hothers =>
      refine .taken winner user hstore hemail ?_ ?_
      · have hne : winner ≠ i := by
          rintro rfl
          exact hwinner.elim hbefore hunfailed
        rwa [c.move_loc_of_ne hne]
      · exact Config.forall_move (P := fun j (l : RegisterPlace) => l.Inserted → j = winner) hothers
          fun h => absurd h hafter

theorem emailTaken_of_mem {db : Db} {user : Row User} (hlaws : LowerLaws E.lower)
    (hmem : user ∈ db.users.rows) (hemail : E.lower user.val.email = email) :
    emailTaken E db email = true := by
  refine List.any_eq_true.mpr ⟨user, hmem, ?_⟩
  rw [Env.iexact_iff, ← hemail, hlaws.idem]

theorem RegisterInv.bystander (h : RegisterInv E email regs db c)
    (hchecked : l.Checks (regs i)) (hbefore : ¬(c.loc i).Inserted)
    (hunfailed : c.loc i ≠ .done 500) (hafter : ¬l.Inserted) (hfree : c.store = db → l.Waiting) :
    RegisterInv E email regs db (c.move i l c.store) :=
  ⟨Config.forall_move (P := fun j (l : RegisterPlace) => l.Checks (regs j)) h.checked hchecked,
    h.address.bystander hbefore hunfailed hafter hfree⟩

/-- The insert that goes through. -/
theorem RegisterInv.insert (hlaws : LowerLaws E.lower) (h : RegisterInv E email regs db c)
    (hstored : storedEmail E (regs i).email = email) (hlower : E.lower email = email)
    {A : Ambient} {user : Row User} {after : Db}
    (hcreate : createUser (β := UserData) E c.store (regs i) A = .ok (user, after)) :
    RegisterInv E email regs db (c.move i .inserted after) := by
  obtain ⟨rfl, -, hemail, -, -, -, hnew⟩ := createUser_eq_ok hcreate
  rw [hstored] at hemail
  refine ⟨Config.forall_move (P := fun j (l : RegisterPlace) => l.Checks (regs j)) h.checked
    fun reg hreg => (by cases hreg), ?_⟩
  cases h.address with
  | free hstore hplace =>
      refine .taken i user.val ?_ ?_ ?_ ?_
      · rw [Config.move_store, hstore]
      · rw [hemail, hlower]
      · rw [Config.move_loc_self]
        exact .inl (.inl rfl)
      · refine Config.forall_move (P := fun j (l : RegisterPlace) => l.Inserted → j = i)
          (fun j hj => ?_) fun _ => rfl
        exact absurd hj (hplace j).not_inserted
  | taken winner other hstore hother hwinner hothers =>
      -- the constraint has seen the winner's row
      have hmem : (⟨db.users.nextId, other⟩ : Row User) ∈ c.store.users.rows := by
        rw [hstore]
        exact Table.mem_insert.mpr (.inr rfl)
      rw [hemail, emailTaken_of_mem hlaws hmem hother] at hnew
      cases hnew

/-- The answer to the one that has inserted. -/
theorem RegisterInv.answer (h : RegisterInv E email regs db c) (hloc : c.loc i = .inserted)
    (up : Bool) :
    RegisterInv E email regs db (c.move i (.done (if up then 201 else 500)) c.store) := by
  refine ⟨Config.forall_move (P := fun j (l : RegisterPlace) => l.Checks (regs j)) h.checked
    fun reg hreg => (by cases hreg), ?_⟩
  cases h.address with
  | free hstore hplace => exact absurd (.inl hloc) (hplace i).not_inserted
  | taken winner user hstore hemail hwinner hothers =>
      obtain rfl := hothers i (.inl hloc)
      refine .taken i user hstore hemail ?_ ?_
      · rw [Config.move_loc_self]
        cases up with
        | true => exact .inl (.inr rfl)
        | false => exact .inr rfl
      · exact Config.forall_move (P := fun j (l : RegisterPlace) => l.Inserted → j = i) hothers
          fun _ => rfl

theorem registerInv_next (hlaws : LowerLaws E.lower)
    (hcalls : ∀ i, Registers E email (calls i).data (regs i))
    (hfree : emailTaken E db email = false)
    (h : RegisterInv E email regs db c) (i : ι) :
    RegisterInv E email regs db ((registerMachine E calls).next c i) := by
  refine next_cases c i h fun l s hstep => ?_
  obtain ⟨hreg, hstored, hlower⟩ := (hcalls i).email_eq hlaws
  cases hloc : c.loc i with
  | start =>
      rw [hloc] at hstep
      have hvalid := validateRegistration_of_valid (hcalls i).valid c.store
      rw [hreg] at hvalid
      split at hvalid
      · next htaken =>
        obtain ⟨r, hrefused, hstatus⟩ := hvalid
        rw [step_rejected hrefused, hstatus] at hstep
        cases hstep
        refine h.bystander (fun reg h => ?_) ?_ ?_ ?_ fun hstore => ?_
        · cases h
        · simp [hloc, RegisterPlace.Inserted]
        · simp [hloc]
        · simp [RegisterPlace.Inserted]
        · rw [hstore, hfree] at htaken
          cases htaken
      · next hnot =>
        rw [step_accepted hvalid] at hstep
        cases hstep
        refine h.bystander (fun reg h => ?_) ?_ ?_ ?_ fun hstore => ?_
        · cases h
          rfl
        · simp [hloc, RegisterPlace.Inserted]
        · simp [hloc]
        · simp [RegisterPlace.Inserted]
        · exact .inr (.inl ⟨_, rfl⟩)
  | checked reg =>
      rw [hloc] at hstep
      obtain rfl := h.checked i reg hloc
      cases hcreate : createUser (β := UserData) E c.store (regs i) (calls i).ambient with
      | error r =>
          rw [step_refused hcreate] at hstep
          cases hstep
          refine h.bystander (fun reg h => ?_) ?_ ?_ ?_ fun hstore => ?_
          · cases h
          · simp [hloc, RegisterPlace.Inserted]
          · simp [hloc]
          · simp [RegisterPlace.Inserted]
          · exact .inr (.inr rfl)
      | ok out =>
          rw [step_stored hcreate] at hstep
          cases hstep
          exact h.insert hlaws hstored hlower hcreate
  | inserted =>
      rw [hloc, step_inserted] at hstep
      cases hstep
      exact h.answer hloc _
  | done status =>
      rw [hloc, step_done] at hstep
      cases hstep

theorem registerInv_run (hlaws : LowerLaws E.lower)
    (hcalls : ∀ i, Registers E email (calls i).data (regs i))
    (hfree : emailTaken E db email = false)
    (sched : List ι) :
    (registerMachine E calls).Always (RegisterInv E email regs db) (registerStart db) sched :=
  states_of_step (Q := RegisterInv E email regs db)
    (fun _ i h => registerInv_next hlaws hcalls hfree h i) (registerInv_start E email regs db) sched

end Run

/-! ## The answers -/

/-- An answer that the request is meant to get. -/
def RegisterPlace.Answered (l : RegisterPlace) : Prop :=
  ∀ status, l = .done status → status = 201 ∨ status = 400

theorem answered_done {status : Nat} :
    (RegisterPlace.done status).Answered ↔ status = 201 ∨ status = 400 := by
  constructor
  · intro h
    exact h status rfl
  · intro h status' heq
    cases heq
    exact h

/-- The answers there should be: 201 to one request and 400 to the others, and one account. -/
structure Resolved {ι : Type} (E : Env) (email : String) (db : Db) (c : Config ι Db RegisterPlace) :
    Prop where
  answers  : ∀ i, (c.loc i).Answered
  one      : ∀ i j, c.loc i = .done 201 → c.loc j = .done 201 → i = j
  finished : (∀ i, ∃ status, c.loc i = .done status) →
    ∃ i user, c.loc i = .done 201 ∧ c.store = { db with users := db.users.insert user } ∧
      E.lower user.email = email

/-- A request that comes to its insert finds its row narrow enough and the address still free, and
one that has inserted finds the broker up. -/
structure InsertsCleanly {ι : Type} (E : Env) (calls : ι → RegisterCall)
    (c : Config ι Db RegisterPlace) (i : ι) : Prop where
  insert : ∀ reg, c.loc i = .checked reg →
    fits 254 (storedEmail E reg.email) = true ∧ fits 150 (splitName reg.name).1 = true ∧
      fits 150 (splitName reg.name).2 = true ∧
      emailTaken E c.store (storedEmail E reg.email) = false
  broker : c.loc i = .inserted → (calls i).ambient.brokerIsUp = true

section Answers

variable {ι : Type} {E : Env} {email : String} {calls : ι → RegisterCall}
  {regs : ι → Registration} {db : Db} {c : Config ι Db RegisterPlace}

/-- Of an account that is there for good, only the answers can go wrong. -/
theorem RegisterInv.resolved [Nonempty ι] (h : RegisterInv E email regs db c)
    (hanswers : ∀ i, (c.loc i).Answered) :
    Resolved E email db c := by
  cases h.address with
  | free hstore hplace =>
      refine ⟨hanswers, fun i j hi _ => ?_, fun hall => ?_⟩
      · exact absurd (.inr hi) (hplace i).not_inserted
      · obtain ⟨i⟩ := ‹Nonempty ι›
        obtain ⟨status, hi⟩ := hall i
        have hwaiting := hplace i
        rw [hi] at hwaiting
        -- who has been answered without an account has failed
        obtain h | ⟨reg, h⟩ | h := hwaiting
        · cases h
        · cases h
        · cases h
          rcases hanswers i 500 hi with h | h <;> cases h
  | taken winner user hstore hemail hwinner hothers =>
      refine ⟨hanswers, fun i j hi hj => ?_, fun hall => ⟨winner, user, ?_, hstore, hemail⟩⟩
      · rw [hothers i (.inr hi), hothers j (.inr hj)]
      · obtain ⟨status, hdone⟩ := hall winner
        rcases hwinner with (h | h) | h
        · rw [h] at hdone
          cases hdone
        · exact h
        · rcases hanswers winner 500 h with h | h <;> cases h

variable [DecidableEq ι]

theorem answered_move_iff {i : ι} {l : RegisterPlace} {s : Db} (h : ∀ j, (c.loc j).Answered) :
    (∀ j, ((c.move i l s).loc j).Answered) ↔ l.Answered := by
  constructor
  · intro hall
    have hi := hall i
    rwa [Config.move_loc_self] at hi
  · intro hl
    exact Config.forall_move (P := fun _ (l : RegisterPlace) => l.Answered) h hl

omit [DecidableEq ι] in
theorem insertsCleanly_start {i : ι} (hloc : c.loc i = .start) : InsertsCleanly E calls c i := by
  constructor
  · intro reg h
    rw [hloc] at h
    cases h
  · intro h
    rw [hloc] at h
    cases h

omit [DecidableEq ι] in
theorem insertsCleanly_checked {i : ι} {reg : Registration} (hloc : c.loc i = .checked reg) :
    InsertsCleanly E calls c i ↔
      ∃ out, createUser (β := UserData) E c.store reg (calls i).ambient = .ok out := by
  rw [exists_createUser_iff]
  constructor
  · intro h
    exact h.insert reg hloc
  · intro h
    constructor
    · intro reg' h'
      obtain rfl := RegisterPlace.checked.inj (hloc.symm.trans h')
      exact h
    · intro h'
      rw [hloc] at h'
      cases h'

/-- **A step answers as it should** exactly if it inserts cleanly. -/
theorem answered_next_iff (hcalls : ∀ i, Registers E email (calls i).data (regs i))
    (h : ∀ j, (c.loc j).Answered) (i : ι) :
    (∀ j, (((registerMachine E calls).next c i).loc j).Answered) ↔ InsertsCleanly E calls c i := by
  cases hloc : c.loc i with
  | start =>
      have hclean : InsertsCleanly E calls c i := insertsCleanly_start hloc
      have hvalid := validateRegistration_of_valid (hcalls i).valid c.store
      split at hvalid
      · obtain ⟨r, hrefused, hstatus⟩ := hvalid
        rw [next_of_loc hloc (step_rejected hrefused), answered_move_iff h]
        simp [answered_done, hstatus, hclean]
      · have hmove : (registerMachine E calls).step i .start c.store =
            some (.checked (regs i), c.store) := step_accepted hvalid
        rw [← hloc] at hmove
        rw [next_of_some hmove, answered_move_iff h]
        simp [RegisterPlace.Answered, hclean]
  | checked reg =>
      rw [insertsCleanly_checked hloc]
      cases hcreate : createUser (β := UserData) E c.store reg (calls i).ambient with
      | error r =>
          rw [next_of_loc hloc (step_refused hcreate), answered_move_iff h, answered_done]
          simp
      | ok out =>
          rw [next_of_loc hloc (step_stored hcreate), answered_move_iff h]
          simp [RegisterPlace.Answered]
  | inserted =>
      rw [next_of_loc hloc step_inserted, answered_move_iff h, answered_done]
      constructor
      · intro h
        constructor
        · intro reg h'
          rw [hloc] at h'
          cases h'
        · intro _
          by_contra hdown
          rw [if_neg hdown] at h
          rcases h with h | h <;> cases h
      · intro h
        rw [if_pos (h.broker hloc)]
        exact .inl rfl
  | done status =>
      have hstep : (registerMachine E calls).step i (.done status) c.store = none := step_done
      rw [← hloc] at hstep
      rw [next_of_none hstep]
      constructor
      · intro _
        constructor
        · intro reg h'
          rw [hloc] at h'
          cases h'
        · intro h'
          rw [hloc] at h'
          cases h'
      · intro _
        exact h

/-- **When concurrent registrations of one address are answered as they should be**: exactly if
every one that comes to its insert finds the address still free. -/
theorem registrations_resolved_iff [Nonempty ι] (hlaws : LowerLaws E.lower)
    (hcalls : ∀ i, Registers E email (calls i).data (regs i))
    (hfree : emailTaken E db email = false) (sched : List ι) :
    (registerMachine E calls).Always (Resolved E email db) (registerStart db) sched ↔
      (registerMachine E calls).Along (InsertsCleanly E calls) (registerStart db) sched := by
  have hstart : ∀ i, ((registerStart (ι := ι) db).loc i).Answered := fun i status h => (by cases h)
  have hinv := registerInv_run hlaws hcalls hfree sched
  have hiff : (registerMachine E calls).Always (fun c => ∀ i, (c.loc i).Answered)
        (registerStart db) sched ↔
      (registerMachine E calls).Along (InsertsCleanly E calls) (registerStart db) sched :=
    states_iff_each (R := fun _ _ => True)
      (Q := fun c : Config ι Db RegisterPlace => ∀ i, (c.loc i).Answered)
      (fun c i h _ => answered_next_iff hcalls h i) hstart (each_of_forall (fun _ _ => trivial) ..)
  rw [← hiff]
  constructor
  · exact States.mono (Q := Resolved E email db) fun c h => h.answers
  · intro h
    exact (h.and hinv).mono fun c h => h.2.resolved h.1

omit [DecidableEq ι] in
/-- While the address is free, a request passes the check. -/
theorem step_free (hcalls : ∀ i, Registers E email (calls i).data (regs i))
    (hlaws : LowerLaws E.lower) (hfree : emailTaken E db email = false) (i : ι) :
    (registerMachine E calls).step i .start db = some (.checked (regs i), db) := by
  obtain ⟨hreg, -⟩ := (hcalls i).email_eq hlaws
  have hvalid := validateRegistration_of_valid (hcalls i).valid db
  rw [if_neg (by simp [hreg, hfree])] at hvalid
  exact step_accepted hvalid

/-- **Two that check before either inserts**: the second is answered with a 500. -/
theorem not_resolved_of_overlap {i j : ι} (hne : j ≠ i) (hlaws : LowerLaws E.lower)
    (hcalls : ∀ i, Registers E email (calls i).data (regs i))
    (hfree : emailTaken E db email = false) {out : Row User × Db}
    (hcreate : createUser (β := UserData) E db (regs i) (calls i).ambient = .ok out) :
    ¬(registerMachine E calls).Always (Resolved E email db) (registerStart db) [i, j, i, j] := by
  intro h
  have htaken := emailTaken_of_createUser hcreate
  obtain ⟨-, hi, -⟩ := (hcalls i).email_eq hlaws
  obtain ⟨-, hj, -⟩ := (hcalls j).email_eq hlaws
  have h := h.last
  simp only [run_cons, run_nil] at h
  have hcheck : (registerMachine E calls).next (registerStart db) i = _ :=
    next_of_loc rfl (step_free hcalls hlaws hfree i)
  have hother : ((registerStart (ι := ι) db).move i (.checked (regs i)) db).loc j = .start :=
    Config.move_loc_of_ne _ hne _ _
  rw [hcheck, next_of_loc hother (step_free hcalls hlaws hfree j)] at h
  rw [next_of_loc (i := i) (Config.move_move_loc _ hne ..) (step_stored hcreate)] at h
  cases hsecond : createUser (β := UserData) E out.2 (regs j) (calls j).ambient with
  | ok other =>
      obtain ⟨-, -, -, hnew⟩ := exists_createUser_iff.mp ⟨other, hsecond⟩
      rw [hj, ← hi, htaken] at hnew
      cases hnew
  | error r =>
      rw [next_of_loc (i := j) (Config.move_move_loc _ hne.symm ..) (step_refused hsecond)] at h
      have hanswer := h.answers j
      rw [Config.move_loc_self, answered_done] at hanswer
      rcases hanswer with h | h <;> cases h

/-- **One after the other**: who starts behind the first is told that the address is taken. -/
theorem insertsCleanly_in_turn {i j : ι} (hne : j ≠ i) (hlaws : LowerLaws E.lower)
    (hcalls : ∀ i, Registers E email (calls i).data (regs i))
    (hfree : emailTaken E db email = false) {out : Row User × Db}
    (hcreate : createUser (β := UserData) E db (regs i) (calls i).ambient = .ok out)
    (hbroker : (calls i).ambient.brokerIsUp = true) :
    (registerMachine E calls).Along (InsertsCleanly E calls) (registerStart db) [i, i, i, j] := by
  have hcheck : (registerMachine E calls).next (registerStart db) i = _ :=
    next_of_loc rfl (step_free hcalls hlaws hfree i)
  rw [along_cons, hcheck, along_cons, next_of_loc (i := i) (Config.move_loc_self ..)
    (step_stored hcreate), along_cons, next_of_loc (i := i) (Config.move_loc_self ..) step_inserted,
    along_cons]
  refine ⟨insertsCleanly_start rfl, ?_, ⟨fun reg h => ?_, fun _ => hbroker⟩, ?_, trivial⟩
  · exact (insertsCleanly_checked (Config.move_loc_self ..)).mpr ⟨out, hcreate⟩
  · rw [Config.move_loc_self] at h
    cases h
  · apply insertsCleanly_start
    simp only [Config.move_loc_of_ne _ hne]
    rfl

end Answers

/-! ## Twice the same address -/

/-- Two registrations of one address, the second with a capital and a blank in front. -/
def twoSpellings (second : Bool) : RegisterCall where
  data := texts [("email", if second then " A@x.io" else "a@x.io"), ("password", "password"),
    ("name", "Ada")]
  ambient := ⟨0, "salt", true⟩

def registrationOfAda : Registration := ⟨"a@x.io", "password", "Ada"⟩

theorem registers_twoSpellings (second : Bool) :
    Registers Env.ascii "a@x.io" (twoSpellings second).data registrationOfAda := by
  cases second with
  | false => exact ⟨by rfl, "a@x.io", by rfl, by rfl⟩
  | true => exact ⟨by rfl, "A@x.io", by rfl, by rfl⟩

theorem createUser_ada {db : Db} (hfree : emailTaken Env.ascii db "a@x.io" = false) (A : Ambient) :
    ∃ out, createUser (β := UserData) Env.ascii db registrationOfAda A = .ok out :=
  exists_createUser_iff.mpr ⟨by decide, by decide, by decide, hfree⟩

/-- Both check before either inserts: the second answer is a 500. -/
theorem overlapping_registrations_fail :
    (∀ second, Registers Env.ascii "a@x.io" (twoSpellings second).data registrationOfAda) ∧
    ¬(registerMachine Env.ascii twoSpellings).Always (Resolved Env.ascii "a@x.io" {})
      (registerStart {}) [false, true, false, true] := by
  have hfree : emailTaken Env.ascii {} "a@x.io" = false := by rfl
  obtain ⟨out, hcreate⟩ := createUser_ada hfree (twoSpellings false).ambient
  exact ⟨registers_twoSpellings, not_resolved_of_overlap (by decide) lowerLaws_ascii
    registers_twoSpellings hfree hcreate⟩

/-- Three steps of the first, and then the second is told that the address is taken. -/
theorem registrations_in_turn :
    (registerMachine Env.ascii twoSpellings).Always (Resolved Env.ascii "a@x.io" {})
      (registerStart {}) [false, false, false, true] := by
  have hfree : emailTaken Env.ascii {} "a@x.io" = false := by rfl
  refine (registrations_resolved_iff lowerLaws_ascii registers_twoSpellings hfree _).mpr ?_
  obtain ⟨out, hcreate⟩ := createUser_ada hfree (twoSpellings false).ambient
  exact insertsCleanly_in_turn (by decide) lowerLaws_ascii registers_twoSpellings hfree hcreate rfl

end Bastiq
