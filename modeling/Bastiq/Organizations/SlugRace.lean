import Bastiq.Organizations.Slugs
import Bastiq.Transition.Run

/-!
# Allocating a slug while others create organizations

`_create_org_with_owner` probes for a free slug query by query, inserts the row in a transaction of
its own, and starts over, up to six times, where another transaction was faster. Here one call runs
against any other transactions, statement by statement.

An attempt fails only where the slug was free at its last probe and is taken at its insert, so a
commit that brought it lies between the two, and no other attempt has that commit between its own
(`Charged`). The probes are counted as well: each that finds a slug taken has found another one
(`Budgeted`).
-/

namespace Bastiq

open Relational Transition

/-! ## Other transactions -/

/-- A write of an open transaction to the table of organizations. -/
inductive OpenWrite where
  | insert (o : Organization)
  | delete (slug : String)
  deriving DecidableEq, Repr

/-- The slug whose row the write holds. -/
def OpenWrite.slug : OpenWrite → String
  | .insert o => o.slug
  | .delete slug => slug

/-- The slug the write brings. -/
def OpenWrite.brings? : OpenWrite → Option String
  | .insert o => some o.slug
  | .delete _ => none

def OpenWrite.apply (db : Db) : OpenWrite → Db
  | .insert o => { db with organizations := db.organizations.insert o }
  | .delete slug => { db with organizations := db.organizations.delete (·.val.slug == slug) }

/-- What else a transaction writes: anything that gives no organization another slug. -/
structure OtherWork where
  write : Db → Db
  keeps : ∀ db slug, SlugTaken (write db) slug → SlugTaken db slug

/-! ## The call -/

structure SlugCall where
  user : Nat
  name : String
  now  : Int

/-- Where a call is. `left` is the number of attempts it has, this one included; `k` is the number of
the candidate. -/
inductive SlugStage where
  | probing (left k : Nat)
  | inserting (left k : Nat)
  | inserted (k : Nat)
  | subscribed (k : Nat) (free : Option Nat)
  | returned (org : Row Organization)
  /-- The `APIException` after six attempts. -/
  | raised
  /-- A `DataError`: the database refuses the row for its width. -/
  | failed
  deriving DecidableEq, Repr

def SlugStage.ended : SlugStage → Bool
  | .returned _ | .raised | .failed => true
  | _ => false

/-- The candidate whose row the call has written and not committed. -/
def SlugStage.holds? : SlugStage → Option Nat
  | .inserted k | .subscribed k _ => some k
  | _ => none

/-- The database as committed, what the other transactions have written, and the call. The last
three fields are a record of the run that no step reads: the commits of organizations since the
call began, its own statements, and the slugs there were. -/
structure SlugState where
  db      : Db
  pending : List (Nat × OpenWrite)
  stage   : SlugStage := .probing 6 0
  commits : Nat := 0
  steps   : Nat := 0
  seen    : List String

/-- A call begins. -/
def SlugState.start (db : Db) (pending : List (Nat × OpenWrite)) : SlugState :=
  { db := db, pending := pending, seen := db.organizations.rows.map (·.val.slug) }

/-- The writes of an open transaction. -/
def SlugState.writesOf (s : SlugState) (t : Nat) : List OpenWrite :=
  (s.pending.filter (·.1 == t)).map Prod.snd

/-- Another transaction has written the row of the slug and not committed. -/
def SlugState.isHeld (s : SlugState) (slug : String) : Bool := s.pending.any (·.2.slug == slug)

/-- A statement of the call. -/
def SlugState.moveTo (s : SlugState) (stage : SlugStage) : SlugState :=
  { s with stage := stage, steps := s.steps + 1 }

/-- The three rows a call commits. -/
def organizationStored (db : Db) (call : SlugCall) (slug : String) (free : Option Nat) : Db :=
  { db with
    organizations := db.organizations.insert ⟨call.name, slug, some call.user, call.now⟩
    memberships := db.memberships.insert ⟨call.user, db.organizations.nextId, .owner, call.now⟩
    subscriptions := match free with
      | none => db.subscriptions
      | some plan => db.subscriptions.insert
          { organization := db.organizations.nextId, plan := plan, updatedAt := call.now } }

inductive SlugEvent where
  | own
  | write (t : Nat) (w : OpenWrite)
  | commit (t : Nat) (work : OtherWork)
  | rollback (t : Nat)

section Step

variable (E : Env) (call : SlugCall)

/-- The candidates of the call. -/
def SlugCall.slug (k : Nat) : String := numberedSlug (slugBase E call.name) k

/-- The next statement of the call. An insert of a slug that is held waits. -/
def ownStep (s : SlugState) : SlugState :=
  match s.stage with
  | .probing left k =>
      s.moveTo (if s.db.organizations.any (·.val.slug == call.slug E k) then .probing left (k + 1)
        else .inserting left k)
  | .inserting left k =>
      if !(fits 255 call.name && fits 255 (call.slug E k)) then s.moveTo .failed
      else if s.isHeld (call.slug E k) then s
      else if s.db.organizations.any (·.val.slug == call.slug E k) then
        s.moveTo (if left ≤ 1 then .raised else .probing (left - 1) 0)
      else s.moveTo (.inserted k)
  | .inserted k => s.moveTo (.subscribed k ((freePlan s.db).map Row.id))
  | .subscribed k free =>
      { s.moveTo (.returned ⟨s.db.organizations.nextId, call.name, call.slug E k, some call.user,
          call.now⟩) with
        db := organizationStored s.db call (call.slug E k) free }
  | .returned _ | .raised | .failed => s

/-- A write of transaction `t` has to wait for the row of another transaction or of the call, or it
fails: its slug is taken already, as `t` sees it, or there is no row to delete. -/
def SlugState.refuses (s : SlugState) (t : Nat) (w : OpenWrite) : Bool :=
  let seen := (s.writesOf t).foldl OpenWrite.apply s.db
  s.pending.any (fun p => p.1 != t && p.2.slug == w.slug) ||
    s.stage.holds?.any (fun k => call.slug E k == w.slug) ||
    match w with
    | .insert o => seen.organizations.any (·.val.slug == o.slug)
    | .delete slug => !seen.organizations.any (·.val.slug == slug)

def SlugEvent.step (e : SlugEvent) (s : SlugState) : SlugState :=
  match e with
  | .own => ownStep E call s
  | .write t w =>
      if s.refuses E call t w then s else { s with pending := s.pending ++ [(t, w)] }
  | .commit t work =>
      let brought := (s.writesOf t).filterMap OpenWrite.brings?
      { s with
        db := work.write ((s.writesOf t).foldl OpenWrite.apply s.db)
        pending := s.pending.filter (·.1 != t)
        commits := if s.stage.ended || brought.isEmpty then s.commits else s.commits + 1
        seen := s.seen ++ brought }
  | .rollback t => { s with pending := s.pending.filter (·.1 != t) }

end Step

/-! ## What a commit can take -/

theorem slugTaken_apply {db : Db} {w : OpenWrite} {slug : String} (h : SlugTaken (w.apply db) slug) :
    SlugTaken db slug ∨ w.brings? = some slug := by
  obtain ⟨o, ho, rfl⟩ := h
  cases w with
  | insert o' =>
      rcases Table.mem_insert.mp ho with ho | rfl
      · exact .inl ⟨o, ho, rfl⟩
      · exact .inr rfl
  | delete slug => exact .inl ⟨o, (Table.mem_delete.mp ho).1, rfl⟩

/-- A slug that is taken after a transaction was taken before it, or the transaction brought it. -/
theorem slugTaken_foldl {db : Db} {ws : List OpenWrite} {slug : String}
    (h : SlugTaken (ws.foldl OpenWrite.apply db) slug) :
    SlugTaken db slug ∨ slug ∈ ws.filterMap OpenWrite.brings? := by
  induction ws generalizing db with
  | nil => exact .inl h
  | cons w ws ih =>
      rcases ih h with h | h
      · rcases slugTaken_apply h with h | h
        · exact .inl h
        · exact .inr (List.mem_filterMap.mpr ⟨w, List.mem_cons_self, h⟩)
      · obtain ⟨w', hw', hslug⟩ := List.mem_filterMap.mp h
        exact .inr (List.mem_filterMap.mpr ⟨w', List.mem_cons_of_mem w hw', hslug⟩)

section Run

variable {E : Env} {call : SlugCall} {s : SlugState}

/-- **What a commit of another transaction takes**: only slugs it brings. -/
theorem slugTaken_commit {t : Nat} {work : OtherWork} {slug : String}
    (h : SlugTaken ((SlugEvent.commit t work).step E call s).db slug) :
    SlugTaken s.db slug ∨ slug ∈ (s.writesOf t).filterMap OpenWrite.brings? :=
  slugTaken_foldl (work.keeps _ _ h)

/-! ## The statements of the call -/

/-- What the call's next statement can do. -/
inductive OwnMove (E : Env) (call : SlugCall) (s : SlugState) : SlugState → Prop where
  | ended (h : s.stage.ended = true) : OwnMove E call s s
  | waits {left k : Nat} (hstage : s.stage = .inserting left k)
      (hheld : s.isHeld (call.slug E k) = true) : OwnMove E call s s
  | taken {left k : Nat} (hstage : s.stage = .probing left k)
      (htaken : SlugTaken s.db (call.slug E k)) : OwnMove E call s (s.moveTo (.probing left (k + 1)))
  | free {left k : Nat} (hstage : s.stage = .probing left k)
      (hfree : ¬SlugTaken s.db (call.slug E k)) : OwnMove E call s (s.moveTo (.inserting left k))
  | tooWide {left k : Nat} (hstage : s.stage = .inserting left k)
      (hfits : (fits 255 call.name && fits 255 (call.slug E k)) = false) :
      OwnMove E call s (s.moveTo .failed)
  | lost {left k : Nat} (hstage : s.stage = .inserting left k)
      (htaken : SlugTaken s.db (call.slug E k)) :
      OwnMove E call s (s.moveTo (if left ≤ 1 then .raised else .probing (left - 1) 0))
  | won {left k : Nat} (hstage : s.stage = .inserting left k)
      (hheld : s.isHeld (call.slug E k) = false) (hfree : ¬SlugTaken s.db (call.slug E k)) :
      OwnMove E call s (s.moveTo (.inserted k))
  | subscribes {k : Nat} (hstage : s.stage = .inserted k) :
      OwnMove E call s (s.moveTo (.subscribed k ((freePlan s.db).map Row.id)))
  | commits {k : Nat} {free : Option Nat} (hstage : s.stage = .subscribed k free) :
      OwnMove E call s { s.moveTo (.returned ⟨s.db.organizations.nextId, call.name, call.slug E k,
        some call.user, call.now⟩) with db := organizationStored s.db call (call.slug E k) free }

theorem ownStep_move (E : Env) (call : SlugCall) (s : SlugState) :
    OwnMove E call s (ownStep E call s) := by
  unfold ownStep
  cases hstage : s.stage with
  | probing left k =>
      simp only
      by_cases htaken : SlugTaken s.db (call.slug E k)
      · rw [if_pos (slugTaken_iff.mp htaken)]
        exact .taken hstage htaken
      · rw [if_neg (fun h => htaken (slugTaken_iff.mpr h))]
        exact .free hstage htaken
  | inserting left k =>
      simp only
      split
      · next hfits => exact .tooWide hstage ((Bool.not_eq_true' _).mp hfits)
      · split
        · next hheld => exact .waits hstage hheld
        · next hheld =>
          split
          · next htaken => exact .lost hstage (slugTaken_iff.mpr htaken)
          · next hfree =>
            exact .won hstage (by simpa using hheld) fun h => hfree (slugTaken_iff.mp h)
  | inserted k => exact .subscribes hstage
  | subscribed k free => exact .commits hstage
  | returned org | raised | failed => exact .ended (by rw [hstage]; rfl)

/-! ## The charge -/

/-- Every failed attempt is charged to a commit, and so is the one that is about to fail. -/
def Charged (E : Env) (call : SlugCall) (s : SlugState) : Prop :=
  match s.stage with
  | .probing left _ => 1 ≤ left ∧ 6 ≤ left + s.commits
  | .inserting left k =>
      1 ≤ left ∧ 6 ≤ left + s.commits ∧ (SlugTaken s.db (call.slug E k) → 7 ≤ left + s.commits)
  | .raised => 6 ≤ s.commits
  | _ => True

theorem charged_own (h : Charged E call s) : Charged E call (ownStep E call s) := by
  have hmove := ownStep_move E call s
  generalize ownStep E call s = s' at hmove ⊢
  cases hmove with
  | ended _ => exact h
  | waits _ _ => exact h
  | @taken left k hstage htaken =>
      rw [Charged, hstage] at h
      exact h
  | @free left k hstage hfree =>
      rw [Charged, hstage] at h
      exact ⟨h.1, h.2, fun htaken => absurd htaken hfree⟩
  | tooWide _ _ => trivial
  | @lost left k hstage htaken =>
      rw [Charged, hstage] at h
      have hcharge := h.2.2 htaken
      have hleft := h.1
      by_cases hlast : left ≤ 1
      · rw [if_pos hlast]
        show 6 ≤ s.commits
        omega
      · rw [if_neg hlast]
        show 1 ≤ left - 1 ∧ 6 ≤ left - 1 + s.commits
        omega
  | won _ _ _ => trivial
  | subscribes _ => trivial
  | commits _ => trivial

/-- What others do keeps the charge, if each slug that comes to be taken comes with a commit that
counts. -/
theorem Charged.of_others {s' : SlugState} (h : Charged E call s) (hstage : s'.stage = s.stage)
    (hcommits : s.commits ≤ s'.commits)
    (htaken : s.stage.ended = false → ∀ slug, SlugTaken s'.db slug →
      SlugTaken s.db slug ∨ s.commits < s'.commits) : Charged E call s' := by
  unfold Charged at h ⊢
  rw [hstage]
  cases hs : s.stage with
  | probing left k =>
      rw [hs] at h
      exact ⟨h.1, by have := h.2; omega⟩
  | inserting left k =>
      rw [hs] at h htaken
      obtain ⟨hleft, hcharge, hnext⟩ := h
      refine ⟨hleft, by omega, fun hslug => ?_⟩
      rcases htaken rfl _ hslug with hslug | hlt
      · have := hnext hslug
        omega
      · omega
  | raised =>
      rw [hs] at h
      exact Nat.le_trans h hcommits
  | inserted _ | subscribed _ _ | returned _ | failed => trivial

theorem charged_step (h : Charged E call s) (e : SlugEvent) :
    Charged E call (e.step E call s) := by
  cases e with
  | own => exact charged_own h
  | write t w =>
      simp only [SlugEvent.step]
      split
      · exact h
      · exact h.of_others rfl (Nat.le_refl _) fun _ _ htaken => .inl htaken
  | rollback t => exact h.of_others rfl (Nat.le_refl _) fun _ _ htaken => .inl htaken
  | commit t work =>
      refine h.of_others rfl ?_ ?_
      · simp only [SlugEvent.step]
        split
        · exact Nat.le_refl _
        · exact Nat.le_succ _
      · intro hended slug htaken
        rcases slugTaken_commit htaken with htaken | hbrought
        · exact .inl htaken
        · -- the transaction inserts an organization, so its commit counts
          have hsome : ((s.writesOf t).filterMap OpenWrite.brings?).isEmpty = false := by
            rw [List.isEmpty_eq_false_iff]
            exact List.ne_nil_of_mem hbrought
          refine .inr ?_
          simp only [SlugEvent.step, hended, hsome, Bool.or_self, Bool.false_eq_true, if_false]
          exact Nat.lt_succ_self _

theorem charged_start (db : Db) (pending : List (Nat × OpenWrite)) :
    Charged E call (.start db pending) :=
  ⟨by decide, Nat.le_refl 6⟩

/-- **The charge over a run.** -/
theorem charged_run (db : Db) (pending : List (Nat × OpenWrite)) (events : List SlugEvent) :
    Charged E call (run (SlugEvent.step E call) (.start db pending) events) :=
  (states_of_step (Q := Charged E call) (fun _ e h => charged_step h e) (charged_start db pending)
    events).last

/-! ## The count -/

/-- The numbers of the candidates before `k` are all of slugs there were. -/
def Probed (E : Env) (call : SlugCall) (s : SlugState) (k : Nat) : Prop :=
  ∀ j < k, call.slug E j ∈ s.seen

/-- How many statements the call can have taken: in an attempt a probe for each slug there was, one
more that finds a free one, and the insert. -/
def Budgeted (E : Env) (call : SlugCall) (s : SlugState) : Prop :=
  match s.stage with
  | .probing left k => 1 ≤ left ∧ left ≤ 6 ∧ Probed E call s k ∧
      s.steps ≤ (6 - left) * (s.seen.length + 2) + k
  | .inserting left k => 1 ≤ left ∧ left ≤ 6 ∧ Probed E call s k ∧
      s.steps ≤ (6 - left) * (s.seen.length + 2) + k + 1
  | .inserted _ => s.steps ≤ 6 * (s.seen.length + 2)
  | .subscribed _ _ => s.steps ≤ 6 * (s.seen.length + 2) + 1
  | .failed => s.steps ≤ 6 * (s.seen.length + 2) ∧
      ∃ k ≤ s.seen.length, (fits 255 call.name && fits 255 (call.slug E k)) = false
  | .returned _ | .raised => s.steps ≤ 6 * (s.seen.length + 2) + 2

/-- Every slug that is taken while the call runs is on record. -/
def Known (s : SlugState) : Prop :=
  s.stage.ended = false → ∀ slug, SlugTaken s.db slug → slug ∈ s.seen

theorem Probed.le {k : Nat} (h : Probed E call s k) : k ≤ s.seen.length :=
  le_length_of_used (numberedSlug_inj (slugBase E call.name)) h

/-- What an attempt has taken when its insert is done. -/
theorem attempt_le {left k n steps : Nat} (hpos : 1 ≤ left) (hle : left ≤ 6) (hk : k ≤ n)
    (h : steps ≤ (6 - left) * (n + 2) + k + 1) : steps + 1 ≤ (6 - (left - 1)) * (n + 2) := by
  have hattempt : (6 - (left - 1)) * (n + 2) = (6 - left) * (n + 2) + (n + 2) := by
    rw [show 6 - (left - 1) = 6 - left + 1 by omega, Nat.succ_mul]
  omega

/-- The statements of all six attempts. -/
theorem attempts_le {left n : Nat} : (6 - (left - 1)) * (n + 2) ≤ 6 * (n + 2) :=
  Nat.mul_le_mul_right _ (Nat.sub_le 6 _)

theorem budgeted_own (hknown : Known s) (h : Budgeted E call s) : Budgeted E call (ownStep E call s) := by
  have hmove := ownStep_move E call s
  generalize ownStep E call s = s' at hmove ⊢
  cases hmove with
  | ended _ | waits _ _ => exact h
  | @taken left k hstage htaken =>
      rw [Budgeted, hstage] at h
      obtain ⟨hpos, hle, hprobed, hsteps⟩ := h
      refine ⟨hpos, hle, ?_, Nat.succ_le_succ hsteps⟩
      intro j hj
      rcases Nat.lt_succ_iff_lt_or_eq.mp hj with hj | rfl
      · exact hprobed j hj
      · exact hknown (by rw [hstage]; rfl) _ htaken
  | @free left k hstage hfree =>
      rw [Budgeted, hstage] at h
      exact ⟨h.1, h.2.1, h.2.2.1, Nat.succ_le_succ h.2.2.2⟩
  | @tooWide left k hstage hfits =>
      rw [Budgeted, hstage] at h
      obtain ⟨hpos, hle, hprobed, hsteps⟩ := h
      have hattempt := attempt_le hpos hle hprobed.le hsteps
      exact ⟨Nat.le_trans hattempt attempts_le, k, hprobed.le, hfits⟩
  | @lost left k hstage htaken =>
      rw [Budgeted, hstage] at h
      obtain ⟨hpos, hle, hprobed, hsteps⟩ := h
      have hattempt := attempt_le hpos hle hprobed.le hsteps
      by_cases hlast : left ≤ 1
      · rw [if_pos hlast]
        exact Nat.le_add_right_of_le (Nat.le_trans hattempt attempts_le)
      · rw [if_neg hlast]
        exact ⟨by omega, by omega, fun j hj => absurd hj (Nat.not_lt_zero j), hattempt⟩
  | @won left k hstage hheld hfree =>
      rw [Budgeted, hstage] at h
      obtain ⟨hpos, hle, hprobed, hsteps⟩ := h
      exact Nat.le_trans (attempt_le hpos hle hprobed.le hsteps) attempts_le
  | @subscribes k hstage =>
      rw [Budgeted, hstage] at h
      exact Nat.succ_le_succ h
  | @commits k free hstage =>
      rw [Budgeted, hstage] at h
      exact Nat.succ_le_succ h

/-- What others do keeps the count: slugs are only ever added to the record. -/
theorem Budgeted.of_others {s' : SlugState} (h : Budgeted E call s) (hstage : s'.stage = s.stage)
    (hsteps : s'.steps = s.steps) (hseen : s.seen <+: s'.seen) : Budgeted E call s' := by
  have hlength := hseen.length_le
  have hprobed : ∀ {k}, Probed E call s k → Probed E call s' k :=
    fun h j hj => hseen.subset (h j hj)
  have hmono : ∀ left, (6 - left) * (s.seen.length + 2) ≤ (6 - left) * (s'.seen.length + 2) :=
    fun left => Nat.mul_le_mul_left _ (Nat.add_le_add_right hlength 2)
  unfold Budgeted at h ⊢
  rw [hstage, hsteps]
  cases hs : s.stage with
  | probing left k =>
      rw [hs] at h
      have := hmono left
      exact ⟨h.1, h.2.1, hprobed h.2.2.1, by have := h.2.2.2; omega⟩
  | inserting left k =>
      rw [hs] at h
      have := hmono left
      exact ⟨h.1, h.2.1, hprobed h.2.2.1, by have := h.2.2.2; omega⟩
  | inserted k =>
      rw [hs] at h
      show s.steps ≤ 6 * (s'.seen.length + 2)
      have : s.steps ≤ 6 * (s.seen.length + 2) := h
      omega
  | subscribed k free =>
      rw [hs] at h
      show s.steps ≤ 6 * (s'.seen.length + 2) + 1
      have : s.steps ≤ 6 * (s.seen.length + 2) + 1 := h
      omega
  | failed =>
      rw [hs] at h
      obtain ⟨hle, k, hk, hfits⟩ := h
      exact ⟨by omega, k, Nat.le_trans hk hlength, hfits⟩
  | returned org | raised =>
      rw [hs] at h
      show s.steps ≤ 6 * (s'.seen.length + 2) + 2
      have : s.steps ≤ 6 * (s.seen.length + 2) + 2 := h
      omega

theorem Budgeted.steps_le (h : Budgeted E call s) : s.steps ≤ 6 * (s.seen.length + 2) + 2 := by
  have hfive : ∀ left, 1 ≤ left → (6 - left) * (s.seen.length + 2) ≤ 5 * (s.seen.length + 2) :=
    fun left hpos => Nat.mul_le_mul_right _ (by omega)
  unfold Budgeted at h
  cases hs : s.stage with
  | probing left k | inserting left k =>
      rw [hs] at h
      obtain ⟨hpos, -, hprobed, hsteps⟩ := h
      have hk := hprobed.le
      have hattempts := hfive left hpos
      omega
  | inserted k =>
      rw [hs] at h
      exact Nat.le_add_right_of_le h
  | subscribed k free =>
      rw [hs] at h
      exact Nat.le_succ_of_le h
  | failed =>
      rw [hs] at h
      exact Nat.le_add_right_of_le h.1
  | returned org | raised =>
      rw [hs] at h
      exact h

theorem Known.of_others {s' : SlugState} (h : Known s) (hstage : s'.stage = s.stage)
    (hseen : s.seen <+: s'.seen)
    (htaken : ∀ slug, SlugTaken s'.db slug → SlugTaken s.db slug ∨ slug ∈ s'.seen) : Known s' := by
  intro hended slug hslug
  rcases htaken slug hslug with hslug | hslug
  · exact hseen.subset (h (hstage ▸ hended) slug hslug)
  · exact hslug

theorem known_own (h : Known s) : Known (ownStep E call s) := by
  have hmove := ownStep_move E call s
  generalize ownStep E call s = s' at hmove ⊢
  cases hmove with
  | ended _ | waits _ _ => exact h
  | taken hstage _ | free hstage _ | won hstage _ _ | subscribes hstage =>
      exact fun _ => h (by rw [hstage]; rfl)
  | lost hstage _ => exact fun _ => h (by rw [hstage]; rfl)
  | tooWide _ _ | commits _ =>
      intro hended
      cases hended

theorem budgeted_step (h : Known s ∧ Budgeted E call s) (e : SlugEvent) :
    Known (e.step E call s) ∧ Budgeted E call (e.step E call s) := by
  obtain ⟨hknown, hbudgeted⟩ := h
  cases e with
  | own => exact ⟨known_own hknown, budgeted_own hknown hbudgeted⟩
  | write t w =>
      simp only [SlugEvent.step]
      split
      · exact ⟨hknown, hbudgeted⟩
      · exact ⟨hknown.of_others rfl List.prefix_rfl fun _ htaken => .inl htaken,
          hbudgeted.of_others rfl rfl List.prefix_rfl⟩
  | rollback t =>
      exact ⟨hknown.of_others rfl List.prefix_rfl fun _ htaken => .inl htaken,
        hbudgeted.of_others rfl rfl List.prefix_rfl⟩
  | commit t work =>
      have hseen : s.seen <+: ((SlugEvent.commit t work).step E call s).seen := List.prefix_append _ _
      refine ⟨hknown.of_others rfl hseen fun slug htaken => ?_, hbudgeted.of_others rfl rfl hseen⟩
      rcases slugTaken_commit htaken with htaken | hbrought
      · exact .inl htaken
      · exact .inr (List.mem_append_right _ hbrought)

theorem budgeted_start (db : Db) (pending : List (Nat × OpenWrite)) :
    Known (.start db pending) ∧ Budgeted E call (.start db pending) := by
  refine ⟨fun _ slug htaken => ?_, by decide, by decide, ?_, Nat.zero_le _⟩
  · obtain ⟨o, ho, rfl⟩ := htaken
    exact List.mem_map_of_mem ho
  · exact fun j hj => absurd hj (Nat.not_lt_zero j)

/-- **The count over a run.** -/
theorem budgeted_run (db : Db) (pending : List (Nat × OpenWrite)) (events : List SlugEvent) :
    Budgeted E call (run (SlugEvent.step E call) (.start db pending) events) :=
  (states_of_step (Q := fun s => Known s ∧ Budgeted E call s) (fun _ e h => budgeted_step h e)
    (budgeted_start db pending) events).last.2

/-! ## The slug is the call's alone -/

/-- No row has the slug of the row the call has written, and no other transaction has written it. -/
def Exclusive (E : Env) (call : SlugCall) (s : SlugState) : Prop :=
  ∀ k, s.stage.holds? = some k →
    ¬SlugTaken s.db (call.slug E k) ∧ s.isHeld (call.slug E k) = false

theorem isHeld_eq_false_iff {slug : String} :
    s.isHeld slug = false ↔ ∀ p ∈ s.pending, p.2.slug ≠ slug := by
  simp [SlugState.isHeld]

/-- What a transaction brings it holds until it ends. -/
theorem isHeld_of_brought {t : Nat} {slug : String}
    (h : slug ∈ (s.writesOf t).filterMap OpenWrite.brings?) : s.isHeld slug = true := by
  obtain ⟨w, hw, hslug⟩ := List.mem_filterMap.mp h
  obtain ⟨p, hp, rfl⟩ := List.mem_map.mp hw
  refine List.any_eq_true.mpr ⟨p, List.mem_of_mem_filter hp, ?_⟩
  cases hp2 : p.2 with
  | insert o =>
      rw [hp2] at hslug
      simpa [OpenWrite.slug] using Option.some.inj hslug
  | delete slug' =>
      rw [hp2] at hslug
      cases hslug

/-- A transaction that ends gives up what it holds, and no other takes it. -/
theorem isHeld_of_subset {s' : SlugState} {slug : String} (h : s.isHeld slug = false)
    (hsub : ∀ p ∈ s'.pending, p ∈ s.pending) : s'.isHeld slug = false :=
  isHeld_eq_false_iff.mpr fun p hp => isHeld_eq_false_iff.mp h p (hsub p hp)

theorem exclusive_own (h : Exclusive E call s) : Exclusive E call (ownStep E call s) := by
  have hmove := ownStep_move E call s
  generalize ownStep E call s = s' at hmove ⊢
  cases hmove with
  | ended _ | waits _ _ => exact h
  | taken _ _ | free _ _ | tooWide _ _ | commits _ =>
      intro k hk
      cases hk
  | lost _ _ =>
      intro k hk
      simp only [SlugState.moveTo] at hk
      split at hk
      · cases hk
      · cases hk
  | @won left k hstage hheld hfree =>
      intro k' hk'
      cases hk'
      exact ⟨hfree, hheld⟩
  | @subscribes k hstage =>
      intro k' hk'
      cases hk'
      exact h k (by rw [hstage]; rfl)

theorem exclusive_step (h : Exclusive E call s) (e : SlugEvent) : Exclusive E call (e.step E call s) := by
  cases e with
  | own => exact exclusive_own h
  | write t w =>
      simp only [SlugEvent.step]
      split
      · exact h
      · next hrefuses =>
        intro k hk
        obtain ⟨hfree, hheld⟩ := h k hk
        refine ⟨hfree, isHeld_eq_false_iff.mpr ?_⟩
        intro p hp
        rcases List.mem_append.mp hp with hp | hp
        · exact isHeld_eq_false_iff.mp hheld p hp
        · -- the write would have to wait for the call
          rw [List.mem_singleton.mp hp]
          intro hslug
          apply hrefuses
          have hk' : s.stage.holds? = some k := hk
          simp [SlugState.refuses, hk', hslug]
  | rollback t =>
      intro k hk
      obtain ⟨hfree, hheld⟩ := h k hk
      exact ⟨hfree, isHeld_of_subset hheld fun p hp => List.mem_of_mem_filter hp⟩
  | commit t work =>
      intro k hk
      obtain ⟨hfree, hheld⟩ := h k hk
      refine ⟨fun htaken => ?_, isHeld_of_subset hheld fun p hp => List.mem_of_mem_filter hp⟩
      rcases slugTaken_commit htaken with htaken | hbrought
      · exact hfree htaken
      · rw [isHeld_of_brought hbrought] at hheld
        cases hheld

theorem exclusive_start (db : Db) (pending : List (Nat × OpenWrite)) :
    Exclusive E call (.start db pending) := by
  intro k hk
  cases hk

theorem exclusive_run (db : Db) (pending : List (Nat × OpenWrite)) (events : List SlugEvent) :
    Exclusive E call (run (SlugEvent.step E call) (.start db pending) events) :=
  (states_of_step (Q := Exclusive E call) (fun _ e h => exclusive_step h e) (exclusive_start db pending)
    events).last

/-! ## How a call ends -/

/-- The call waits for another transaction. -/
def Waits (E : Env) (call : SlugCall) (s : SlugState) : Prop :=
  ∃ left k, s.stage = .inserting left k ∧ s.isHeld (call.slug E k) = true

/-- **A call that has not ended and does not wait goes on.** -/
theorem ended_or_waits_or_moves :
    s.stage.ended = true ∨ Waits E call s ∨ (ownStep E call s).steps = s.steps + 1 := by
  have hmove := ownStep_move E call s
  generalize ownStep E call s = s' at hmove ⊢
  cases hmove with
  | ended h => exact .inl h
  | waits hstage hheld => exact .inr (.inl ⟨_, _, hstage, hheld⟩)
  | taken _ _ | free _ _ | tooWide _ _ | lost _ _ | won _ _ _ | subscribes _ | commits _ =>
      exact .inr (.inr rfl)

/-- Others leave the call where it is. -/
theorem stage_others {e : SlugEvent} (h : e ≠ .own) : (e.step E call s).stage = s.stage := by
  cases e with
  | own => exact absurd rfl h
  | write t w =>
      simp only [SlugEvent.step]
      split
      · rfl
      · rfl
  | commit _ _ | rollback _ => rfl

theorem returned_step {org : Row Organization} (h : s.stage = .returned org) (e : SlugEvent) :
    (e.step E call s).stage = .returned org := by
  by_cases hown : e = .own
  · subst hown
    have hsame : ownStep E call s = s := by simp only [ownStep, h]
    show (ownStep E call s).stage = _
    rw [hsame, h]
  · rw [stage_others hown, h]

/-- **The call writes once**: a statement of its own changes the database only where it returns. -/
theorem ownStep_db :
    (ownStep E call s).db = s.db ∨ ∃ org, (ownStep E call s).stage = .returned org := by
  have hmove := ownStep_move E call s
  generalize ownStep E call s = s' at hmove ⊢
  cases hmove with
  | commits _ => exact .inr ⟨_, rfl⟩
  | ended _ | waits _ _ | taken _ _ | free _ _ | tooWide _ _ | lost _ _ | won _ _ _
  | subscribes _ => exact .inl rfl

/-- What it writes there. -/
theorem returned_ownStep {org : Row Organization} (h : (ownStep E call s).stage = .returned org) :
    s.stage = .returned org ∨ ∃ k free, s.stage = .subscribed k free ∧
      org = ⟨s.db.organizations.nextId, call.name, call.slug E k, some call.user, call.now⟩ ∧
      (ownStep E call s).db = organizationStored s.db call (call.slug E k) free := by
  have hmove := ownStep_move E call s
  generalize ownStep E call s = s' at hmove h ⊢
  cases hmove with
  | ended _ | waits _ _ => exact .inl h
  | @commits k free hstage =>
      cases h
      exact .inr ⟨k, free, hstage, rfl, rfl⟩
  | lost _ _ =>
      simp only [SlugState.moveTo] at h
      split at h
      · cases h
      · cases h
  | taken _ _ | free _ _ | tooWide _ _ | won _ _ _ | subscribes _ => cases h

/-- At some statement of its own the call has committed the organization, under a slug of its name
that no row had, with its Owner and its subscription. -/
def Stored (E : Env) (call : SlugCall) (s : SlugState) (events : List SlugEvent)
    (org : Row Organization) : Prop :=
  ∃ pre post k free, events = pre ++ .own :: post ∧
    ¬SlugTaken (run (SlugEvent.step E call) s pre).db (call.slug E k) ∧
    org = ⟨(run (SlugEvent.step E call) s pre).db.organizations.nextId, call.name, call.slug E k,
      some call.user, call.now⟩ ∧
    (run (SlugEvent.step E call) s (pre ++ [.own])).db =
      organizationStored (run (SlugEvent.step E call) s pre).db call (call.slug E k) free

theorem stored_of_returned {db : Db} {pending : List (Nat × OpenWrite)} {events : List SlugEvent}
    {org : Row Organization}
    (h : (run (SlugEvent.step E call) (.start db pending) events).stage = .returned org) :
    Stored E call (.start db pending) events org := by
  obtain ⟨pre, e, post, rfl, hbefore, hafter⟩ := exists_turn
    (Q := fun s : SlugState => s.stage = .returned org) (by rintro ⟨⟩) h
  by_cases hown : e = .own
  · subst hown
    have hexclusive : Exclusive E call (run (SlugEvent.step E call) (.start db pending) pre) :=
      exclusive_run db pending pre
    rcases returned_ownStep hafter with hreturned | ⟨k, free, hstage, horg, hdb⟩
    · exact absurd hreturned hbefore
    · have hfree := (hexclusive k (by rw [hstage]; rfl)).1
      exact ⟨pre, post, k, free, rfl, hfree, horg, by rw [run_append]; exact hdb⟩
  · rw [stage_others hown] at hafter
    exact absurd hafter hbefore

/-- A call that does not return leaves nothing behind. -/
theorem writes_nothing {events : List SlugEvent}
    (h : ¬∃ org, (run (SlugEvent.step E call) s events).stage = .returned org) :
    Each (SlugEvent.step E call) (fun s e => e = .own → (e.step E call s).db = s.db) s events := by
  refine each_of_last (Q := fun s : SlugState => ∃ org, s.stage = .returned org) ?_ ?_ h
  · intro s e hwrites
    simp only [Classical.not_imp] at hwrites
    obtain ⟨rfl, hdb⟩ := hwrites
    exact ownStep_db.resolve_left hdb
  · rintro s e ⟨org, hstage⟩
    exact ⟨org, returned_step hstage e⟩

/-! ## A call alone -/

/-- The probes of a call that nobody disturbs. -/
theorem run_probes (E : Env) (call : SlugCall) {s : SlugState} {db : Db} {left k m : Nat}
    (hstage : s.stage = .probing left k) (hdb : s.db = db)
    (htaken : ∀ j < m, SlugTaken db (call.slug E (k + j))) :
    run (SlugEvent.step E call) s (List.replicate m .own) =
      { s with stage := .probing left (k + m), steps := s.steps + m } := by
  induction m generalizing s k with
  | zero => simp [run, ← hstage]
  | succ m ih =>
      have hfirst := slugTaken_iff.mp (htaken 0 (Nat.zero_lt_succ m))
      rw [Nat.add_zero, ← hdb] at hfirst
      have hstep : SlugEvent.step E call .own s = s.moveTo (.probing left (k + 1)) := by
        show ownStep E call s = _
        simp only [ownStep, hstage, hfirst, if_true]
      rw [List.replicate_succ]
      show run _ (SlugEvent.step E call .own s) _ = _
      rw [hstep, ih (s := s.moveTo (.probing left (k + 1))) (k := k + 1) rfl hdb]
      · simp [SlugState.moveTo]
        omega
      · intro j hj
        rw [Nat.add_right_comm, Nat.add_assoc]
        exact htaken (j + 1) (by omega)

/-- **A call that runs alone does what the view does** (`createOrgWithOwner_eq`): it stores the
organization under the first free slug of its name. -/
theorem call_alone (E : Env) (call : SlugCall) (hname : fits 255 call.name = true) (db : Db) :
    ∃ k, candidateSlug E db call.name = call.slug E k ∧ (fits 255 (call.slug E k) = true →
      ∃ org, (run (SlugEvent.step E call) (.start db []) (List.replicate (k + 4) .own)).stage =
          .returned org ∧
        (run (SlugEvent.step E call) (.start db []) (List.replicate (k + 4) .own)).db =
          organizationCreated db call.user call.name (call.slug E k) call.now) := by
  obtain ⟨k, hcandidate, hfree, htaken⟩ := candidateSlug_eq E db call.name
  refine ⟨k, hcandidate, fun hfits => ?_⟩
  have hprobes := run_probes E call (s := .start db []) (m := k) rfl rfl
    (fun j hj => by rw [Nat.zero_add]; exact htaken j hj)
  have hfree : db.organizations.any (·.val.slug == call.slug E k) = false :=
    not_slugTaken_iff.mp hfree
  have hlast : ∀ s : SlugState, s.stage = .probing 6 k → s.db = db → s.pending = [] →
      ∃ org, (run (SlugEvent.step E call) s (List.replicate 4 .own)).stage = .returned org ∧
        (run (SlugEvent.step E call) s (List.replicate 4 .own)).db =
          organizationStored db call (call.slug E k) ((freePlan db).map Row.id) := by
    rintro ⟨_, _, _, _, _, _⟩ rfl rfl rfl
    simp [List.replicate, run, SlugEvent.step, ownStep, SlugState.moveTo, SlugState.isHeld, hfree,
      hname, hfits]
  rw [Nat.zero_add] at hprobes
  rw [List.replicate_add, run_append, hprobes]
  obtain ⟨org, hstage, hdb⟩ := hlast { SlugState.start db [] with stage := .probing 6 k, steps := 0 + k }
    rfl rfl rfl
  refine ⟨org, hstage, hdb.trans ?_⟩
  unfold organizationStored organizationCreated subscriptionsAfter
  cases freePlan db with
  | none => rfl
  | some free => rfl

/-! ## The result -/

/-- **Slug allocation survives bounded contention.** For every name whose candidates fit the column,
every database, every set of open transactions and every interleaving with the call: if at most five
transactions that insert an organization have committed while the call ran, it has not ended but by
returning an organization it has stored; if it has raised, at least six have, and it has left no row
behind. It takes at most so many statements, and stands still only while it waits. -/
theorem slug_allocation (E : Env) (call : SlugCall) (hname : fits 255 call.name = true) (db : Db)
    (pending : List (Nat × OpenWrite)) (events : List SlugEvent) :
    let s := run (SlugEvent.step E call) (.start db pending) events
    (∀ k ≤ s.seen.length, fits 255 (call.slug E k) = true) →
      (s.commits ≤ 5 → s.stage.ended = true → ∃ org, s.stage = .returned org ∧
        Stored E call (.start db pending) events org) ∧
      (s.stage = .raised → 6 ≤ s.commits ∧
        Each (SlugEvent.step E call) (fun s e => e = .own → (e.step E call s).db = s.db)
          (.start db pending) events) ∧
      s.steps ≤ 6 * (s.seen.length + 2) + 2 ∧
      (s.stage.ended = true ∨ Waits E call s ∨ (ownStep E call s).steps = s.steps + 1) := by
  intro s hfits
  have hcharged : Charged E call s := charged_run db pending events
  have hbudgeted : Budgeted E call s := budgeted_run db pending events
  refine ⟨?_, ?_, hbudgeted.steps_le, ended_or_waits_or_moves⟩
  · intro hcommits hended
    cases hstage : s.stage with
    | returned org => exact ⟨org, rfl, stored_of_returned hstage⟩
    | raised =>
        rw [Charged, hstage] at hcharged
        have : 6 ≤ s.commits := hcharged
        omega
    | failed =>
        -- a candidate that does not fit
        rw [Budgeted, hstage] at hbudgeted
        obtain ⟨-, k, hk, hwide⟩ := hbudgeted
        rw [hname, hfits k hk] at hwide
        cases hwide
    | probing _ _ | inserting _ _ | inserted _ | subscribed _ _ =>
        rw [hstage] at hended
        cases hended
  · intro hraised
    refine ⟨?_, writes_nothing ?_⟩
    · rw [Charged, hraised] at hcharged
      exact hcharged
    · rintro ⟨org, hreturned⟩
      cases hraised.symm.trans hreturned

end Run

/-! ## A slug lost once -/

/-- Another organization of the name is created while the call runs. -/
def slugLost : List SlugEvent :=
  [.own, .write 7 (.insert ⟨"Acme", "acme", none, 0⟩), .own, .commit 7 ⟨id, fun _ _ h => h⟩, .own, .own,
    .own, .own, .own, .own]

theorem slug_allocation_lost :
    ∃ org, (run (SlugEvent.step Env.plainSlugs ⟨1, "Acme", 5⟩) (.start {} []) slugLost).stage =
        .returned org ∧
      Stored Env.plainSlugs ⟨1, "Acme", 5⟩ (.start {} []) slugLost org := by
  refine ((slug_allocation Env.plainSlugs ⟨1, "Acme", 5⟩ (by decide) {} [] slugLost) ?_).1 ?_ ?_
  · decide
  · decide
  · decide

end Bastiq
