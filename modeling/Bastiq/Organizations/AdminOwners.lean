import Bastiq.Organizations.Admin
import Bastiq.Transition.Run

/-!
# What the admin leaves of an organization's Owners

The guard of the last Owner looks at one instance: at the role it is given, and at the Owners of the
organization it names. This file says for each operation of the admin and the shell exactly when the
organization still has an Owner after it:

* `hasOwner_edit`, `hasOwner_delete` — one instance: its row may be moved elsewhere, and what is in
  memory may differ from the row;
* `hasOwner_submit` — the inline rows, which are all cleaned before the first one is saved;
* `hasOwner_deleteSelected`, `hasOwner_deleteUser` — no guard at all.
-/

namespace Bastiq

open Relational Transition

/-! ## What spares an Owner -/

/-- The entry leaves no Owner of its organization under its key. -/
def InlineEntry.drops (e : InlineEntry) : Bool := e.delete || e.row.val.role != .owner

/-- How many of the entries are about an Owner's row. -/
def ownerEntries (db : Db) (org : Nat) (entries : List InlineEntry) : Nat :=
  entries.countP fun e => (db.memberships.get? e.row.id).any (ownerOf org)

/-- Some entry deletes with the role of an Owner left in the form, when at most one of the Owners'
rows is still to come. -/
def deletesLast (db : Db) (org : Nat) : List InlineEntry → Bool
  | [] => false
  | e :: rest =>
      e.delete && e.row.val.role == .owner && decide (ownerEntries db org (e :: rest) ≤ 1) ||
        deletesLast db org rest

/-- A valid submission spares an Owner: some Owner's row has no form, or a form says Owner and does
not delete, or one that deletes is refused. -/
def SparesEntry (org : Nat) (db : Db) (entries : List InlineEntry) : Prop :=
  (∃ r ∈ db.memberships.rows, ownerOf org r = true ∧ ∀ e ∈ entries, e.row.id ≠ r.id) ∨
    (∃ e ∈ entries, e.drops = false) ∨ deletesLast db org entries = true

/-- **The operation spares an Owner** of the organization.

* An edit of the last Owner's row leaves it in the organization, or is not valid.
* An instance of the last Owner's row still shows its guard the last Owner.
* A submission for the organization is not valid, or spares an Owner.
* Some Owner's row is not among those selected.
* Some Owner is another user than the one who is deleted. -/
def SparesOwner (org : Nat) (db : Db) : AdminOp → Prop
  | .edit pk user organization role =>
      ∀ r ∈ db.memberships.get? pk, ownerOf org r = true → isLastOwner db r = true →
        organization = org ∨ fullClean db (Membership.edited r user organization role) ≠ []
  | .delete m =>
      ∀ r ∈ db.memberships.get? m.id, ownerOf org r = true → isLastOwner db r = true →
        deleteRefused db m = true
  | .submit o formset =>
      o = org → formsetErrors db org formset.forms ≠ [] ∨
        SparesEntry org db (inlineEntries db org formset.forms)
  | .deleteSelected pks =>
      ∃ r ∈ db.memberships.rows, ownerOf org r = true ∧ pks.contains r.id = false
  | .deleteUser user =>
      db.users.get? user = none ∨
        ∃ r ∈ db.memberships.rows, ownerOf org r = true ∧ r.val.user ≠ user

instance (org : Nat) (db : Db) (entries : List InlineEntry) :
    Decidable (SparesEntry org db entries) :=
  inferInstanceAs (Decidable (_ ∨ _ ∨ _))

instance (org : Nat) (db : Db) : ∀ op, Decidable (SparesOwner org db op)
  | .edit .. => inferInstanceAs (Decidable (∀ r ∈ _, _ → _ → _ ∨ _))
  | .delete _ => inferInstanceAs (Decidable (∀ r ∈ _, _ → _ → _))
  | .submit .. => inferInstanceAs (Decidable (_ → _ ∨ SparesEntry _ _ _))
  | .deleteSelected _ => inferInstanceAs (Decidable (∃ r ∈ _, _ ∧ _))
  | .deleteUser _ => inferInstanceAs (Decidable (_ ∨ ∃ r ∈ _, _ ∧ _))

/-! ## One instance -/

section Instance

variable {db : Db} {org : Nat} {m r : Row Membership}

theorem hasOwner_iff : HasOwner org db ↔ ∃ r ∈ db.memberships.rows, ownerOf org r = true :=
  Table.count_pos_iff

/-- A save leaves an Owner unless it is the last one's row that is no Owner's any more. -/
theorem hasOwner_saveInstance (hget : db.memberships.get? m.id = some r) (h : HasOwner org db) :
    HasOwner org (saveInstance db m) ↔
      (ownerOf org r = true → isLastOwner db r = true → ownerOf org m = true) := by
  have hr := Table.mem_of_get? hget
  have hid := Table.id_of_get? hget
  have hcount : ownerCount (saveInstance db m) org + (if ownerOf org r then 1 else 0) =
      ownerCount db org + (if ownerOf org m then 1 else 0) := by
    have := Table.count_modify hr (fun _ => m.val) (ownerOf org)
    rwa [hid] at this
  unfold HasOwner at h ⊢
  by_cases howner : ownerOf org r = true
  · have hlast : isLastOwner db r = true ↔ ownerCount db org ≤ 1 := by
      rw [← not_iff_not, Bool.not_eq_true, isLastOwner_eq_false howner, Nat.not_le]
    rw [hlast]
    rw [if_pos howner] at hcount
    -- of an Owner's row only what it says now matters
    by_cases hnew : ownerOf org m = true
    · rw [if_pos hnew] at hcount
      exact iff_of_true (by omega) fun _ _ => hnew
    · rw [if_neg hnew] at hcount
      constructor
      · intro hpos _ hle
        omega
      · intro hkeeps
        have hmore : ¬ ownerCount db org ≤ 1 := fun hle => hnew (hkeeps howner hle)
        omega
  · rw [if_neg howner] at hcount
    exact iff_of_true (by omega) fun hpos => absurd hpos howner

/-- A role that is taken from the last Owner in their own organization is not valid. -/
theorem fullClean_of_demoted (hget : db.memberships.get? m.id = some r)
    (howner : ownerOf org r = true) (hlast : isLastOwner db r = true)
    (horg : m.val.organization = org) (hrole : m.val.role ≠ .owner) : fullClean db m ≠ [] := by
  simp only [ownerOf, Bool.and_eq_true, beq_iff_eq] at howner
  simp only [isLastOwner, Bool.and_eq_true, decide_eq_true_eq] at hlast
  -- the guard counts in the same organization, where there is no other
  have hclean : cleanMembership db m ≠ [] := by
    have hle : orgOwnerCount db m ≤ 1 := by
      rw [orgOwnerCount, horg, ← howner.1]
      exact hlast.2
    simp [cleanMembership, hget, howner.2, hrole, hle]
  intro hfull
  rw [fullClean, List.append_eq_nil_iff, List.append_eq_nil_iff] at hfull
  exact hclean hfull.1.2

theorem hasOwner_edit (h : HasOwner org db) (pk user organization : Nat) (role : Role) :
    HasOwner org ((AdminOp.edit pk user organization role).step db) ↔
      SparesOwner org db (.edit pk user organization role) := by
  simp only [AdminOp.step, AdminOp.perform, editMembership, SparesOwner]
  cases hget : db.memberships.get? pk with
  | none => exact iff_of_true h fun r hr => by cases hr
  | some current =>
      have hid : current.id = pk := Table.id_of_get? hget
      generalize hm : Membership.edited current user organization role = m
      have hgetm : db.memberships.get? m.id = some current := by
        rw [← hm]
        show db.memberships.get? current.id = _
        rw [hid, hget]
      have horg : m.val.organization = organization := by rw [← hm]; rfl
      cases hfull : fullClean db m with
      -- the edit is not valid, so nothing is saved
      | cons e es =>
          simp only [hm, hfull]
          refine iff_of_true h fun r hr _ _ => ?_
          cases hr
          right
          rw [hm, hfull]
          exact List.cons_ne_nil e es
      | nil =>
          simp only [hm, hfull]
          rw [hasOwner_saveInstance hgetm h]
          constructor
          · intro hkeeps r hr howner hlast
            cases hr
            have hnew := hkeeps howner hlast
            simp only [ownerOf, Bool.and_eq_true, beq_iff_eq] at hnew
            exact .inl (horg.symm.trans hnew.1)
          · intro hspares howner hlast
            rcases hspares current rfl howner hlast with hstays | hinvalid
            · -- in its organization it can only have lost its role, which is not valid
              by_contra hnew
              refine fullClean_of_demoted hgetm howner hlast (horg.trans hstays) ?_ hfull
              intro hrole
              apply hnew
              simp [ownerOf, horg, hstays, hrole]
            · rw [hm, hfull] at hinvalid
              exact absurd rfl hinvalid

theorem hasOwner_delete (h : HasOwner org db) (m : Row Membership) :
    HasOwner org ((AdminOp.delete m).step db) ↔ SparesOwner org db (.delete m) := by
  simp only [AdminOp.step, AdminOp.perform, deleteInstance, SparesOwner]
  by_cases hrefused : deleteRefused db m = true
  · rw [if_pos hrefused]
    exact iff_of_true h fun _ _ _ _ => hrefused
  · rw [if_neg hrefused]
    show HasOwner org (writeMember db m none) ↔ _
    cases hget : db.memberships.get? m.id with
    -- the row is gone already
    | none =>
        refine iff_of_true ?_ fun r hr => by cases hr
        unfold HasOwner at h ⊢
        rwa [ownerCount_write_of_gone hget]
    | some r =>
        rw [hasOwner_write hget h]
        constructor
        · intro hkeeps r' hr' howner hlast
          cases hr'
          rw [hkeeps howner rfl] at hlast
          cases hlast
        · intro hspares howner _
          rw [← Bool.not_eq_true]
          exact fun hlast => hrefused (hspares r rfl howner hlast)

end Instance

/-! ## A submission -/

/-- The database after an entry that is not refused. -/
def InlineEntry.apply (e : InlineEntry) (db : Db) : Db :=
  if e.delete then writeMember db e.row none else saveInstance db e.row

/-- The entries are about different rows of the organization, and leave them in it. -/
structure EntriesOf (org : Nat) (db : Db) (entries : List InlineEntry) : Prop where
  distinct : (entries.map fun e => e.row.id).Nodup
  stored   : ∀ e ∈ entries, ∃ r, db.memberships.get? e.row.id = some r ∧ r.val.organization = org
  stays    : ∀ e ∈ entries, e.row.val.organization = org

section Submission

variable {db db' : Db} {org : Nat} {e : InlineEntry} {entries rest : List InlineEntry}

theorem saveExisting_cons :
    saveExisting db (e :: rest) =
      if e.delete = true ∧ deleteRefused db e.row = true then
        .error [(nonFieldErrors, .message "Cannot remove the last owner of the organization.")]
      else saveExisting (e.apply db) rest := by
  obtain ⟨delete, m⟩ := e
  cases delete with
  | false => rfl
  | true =>
      by_cases hrefused : deleteRefused db m = true
      · simp [saveExisting, deleteInstance, hrefused]
      · simp [saveExisting, deleteInstance, hrefused, InlineEntry.apply]

/-- An entry is about its own row. -/
theorem get?_apply_of_ne {id : Nat} (h : id ≠ e.row.id) :
    (e.apply db).memberships.get? id = db.memberships.get? id := by
  unfold InlineEntry.apply
  split
  · exact Table.get?_delete_of_ne _ h
  · exact Table.get?_modify_of_ne _ h _

/-- The Owners after an entry: the others, and its own row where it says so. -/
theorem owner_apply_iff (horg : e.row.val.organization = org)
    (hstored : ∃ r, db.memberships.get? e.row.id = some r) {r : Row Membership} :
    (r ∈ (e.apply db).memberships.rows ∧ ownerOf org r = true) ↔
      (r ∈ db.memberships.rows ∧ r.id ≠ e.row.id ∧ ownerOf org r = true) ∨
        (e.drops = false ∧ r = e.row) := by
  obtain ⟨delete, m⟩ := e
  have howner : ownerOf org m = (m.val.role == .owner) := by
    simp only at horg
    simp [ownerOf, horg]
  cases delete with
  | true =>
      show (r ∈ (db.memberships.delete _).rows ∧ _) ↔ _
      simp [InlineEntry.drops, and_assoc]
  | false =>
      show (r ∈ (db.memberships.modify m.id _).rows ∧ _) ↔ _
      obtain ⟨old, hold⟩ := hstored
      rw [Table.mem_modify]
      constructor
      · rintro ⟨⟨hr, hne⟩ | ⟨s, -, -, rfl⟩, hpos⟩
        · exact .inl ⟨hr, hne, hpos⟩
        · have hm : ownerOf org m = true := hpos
          rw [howner, beq_iff_eq] at hm
          exact .inr ⟨by simp [InlineEntry.drops, hm], rfl⟩
      · rintro (⟨hr, hne, hpos⟩ | ⟨hkeeps, rfl⟩)
        · exact ⟨.inl ⟨hr, hne⟩, hpos⟩
        · refine ⟨.inr ⟨old, Table.mem_of_get? hold, Table.id_of_get? hold, rfl⟩, ?_⟩
          rw [howner]
          simpa [InlineEntry.drops] using hkeeps

theorem EntriesOf.head_ne (h : EntriesOf org db (e :: rest)) {e' : InlineEntry} (he' : e' ∈ rest) :
    e'.row.id ≠ e.row.id :=
  fun heq => (List.nodup_cons.mp h.distinct).1 (List.mem_map.mpr ⟨e', he', heq⟩)

theorem EntriesOf.tail (h : EntriesOf org db (e :: rest)) : EntriesOf org (e.apply db) rest := by
  constructor
  · exact (List.nodup_cons.mp h.distinct).2
  · intro e' he'
    rw [get?_apply_of_ne (h.head_ne he')]
    exact h.stored e' (List.mem_cons_of_mem e he')
  · exact fun e' he' => h.stays e' (List.mem_cons_of_mem e he')

/-- **Who is an Owner after a submission** that is not refused: whoever was one and had no form, and
whose form says so. -/
theorem hasOwner_saveExisting (h : EntriesOf org db entries)
    (hok : saveExisting db entries = .ok db') :
    HasOwner org db' ↔
      (∃ r ∈ db.memberships.rows, ownerOf org r = true ∧ ∀ e ∈ entries, e.row.id ≠ r.id) ∨
        ∃ e ∈ entries, e.drops = false := by
  -- on the entries: the others start from what the first one leaves
  induction entries generalizing db with
  | nil =>
      cases hok
      simp [hasOwner_iff]
  | cons e rest ih =>
      rw [saveExisting_cons] at hok
      split at hok
      · cases hok
      · have howner := fun r => owner_apply_iff (r := r) (h.stays e List.mem_cons_self)
          ((h.stored e List.mem_cons_self).imp fun _ => And.left)
        rw [ih h.tail hok]
        constructor
        · rintro (⟨r, hr, hpos, hfree⟩ | ⟨e', he', hkeeps⟩)
          · -- an Owner the others leave alone was one before the first, or is its own row
            rcases (howner r).mp ⟨hr, hpos⟩ with ⟨hr, hne, hpos⟩ | ⟨hkeeps, -⟩
            · left
              refine ⟨r, hr, hpos, fun e' he' => ?_⟩
              rcases List.mem_cons.mp he' with rfl | he'
              · exact hne.symm
              · exact hfree e' he'
            · exact .inr ⟨e, List.mem_cons_self, hkeeps⟩
          · exact .inr ⟨e', List.mem_cons_of_mem e he', hkeeps⟩
        · rintro (⟨r, hr, hpos, hfree⟩ | ⟨e', he', hkeeps⟩)
          · left
            obtain ⟨hr, hpos⟩ := (howner r).mpr
              (.inl ⟨hr, (hfree e List.mem_cons_self).symm, hpos⟩)
            exact ⟨r, hr, hpos, fun e' he' => hfree e' (List.mem_cons_of_mem e he')⟩
          · rcases List.mem_cons.mp he' with rfl | he'
            · left
              obtain ⟨hr, hpos⟩ := (howner e'.row).mpr (.inr ⟨hkeeps, rfl⟩)
              exact ⟨e'.row, hr, hpos, fun _ he => h.head_ne he⟩
            · exact .inr ⟨e', he', hkeeps⟩

/-- A row without an entry is kept. -/
theorem mem_saveExisting {r : Row Membership} (hr : r ∈ db.memberships.rows)
    (hfree : ∀ e ∈ entries, e.row.id ≠ r.id) (hok : saveExisting db entries = .ok db') :
    r ∈ db'.memberships.rows := by
  induction entries generalizing db with
  | nil =>
      cases hok
      exact hr
  | cons e rest ih =>
      rw [saveExisting_cons] at hok
      split at hok
      · cases hok
      · refine ih ?_ (fun e' he' => hfree e' (List.mem_cons_of_mem e he')) hok
        have hget : (e.apply db).memberships.get? r.id = db.memberships.get? r.id :=
          get?_apply_of_ne (hfree e List.mem_cons_self).symm
        have hold : db.memberships.get? r.id = some r := Table.get?_eq_some_iff.mpr ⟨hr, rfl⟩
        exact Table.mem_of_get? (hget.trans hold)

/-- The entries that come later find the Owners' rows as they were. -/
theorem ownerEntries_apply (h : EntriesOf org db (e :: rest)) {later : List InlineEntry}
    (hlater : later ⊆ rest) :
    ownerEntries (e.apply db) org later = ownerEntries db org later := by
  apply List.countP_congr
  intro e' he'
  rw [get?_apply_of_ne (h.head_ne (hlater he'))]

theorem deletesLast_apply (h : EntriesOf org db (e :: rest)) {later : List InlineEntry}
    (hlater : later ⊆ rest) :
    deletesLast (e.apply db) org later = deletesLast db org later := by
  induction later with
  | nil => rfl
  | cons e' later ih =>
      rw [deletesLast, deletesLast, ownerEntries_apply h hlater,
        ih fun _ hmem => hlater (List.mem_cons_of_mem e' hmem)]

/-- An entry that drops its row takes one Owner away, if the row was one. -/
theorem ownerCount_apply (h : EntriesOf org db (e :: rest)) (hdrops : e.drops = true) :
    ownerCount (e.apply db) org +
      (if (db.memberships.get? e.row.id).any (ownerOf org) then 1 else 0) = ownerCount db org := by
  obtain ⟨r, hget, -⟩ := h.stored e List.mem_cons_self
  have hr := Table.mem_of_get? hget
  have hid := Table.id_of_get? hget
  rw [hget, Option.any_some]
  obtain ⟨delete, m⟩ := e
  cases delete with
  | true =>
      have hcount := Table.count_delete_id hr (ownerOf org)
      rw [hid] at hcount
      exact hcount
  | false =>
      have hnew : ownerOf org m = false := by
        simp only [InlineEntry.drops, Bool.false_or, bne_iff_ne] at hdrops
        simp [ownerOf, hdrops]
      have hcount := Table.count_modify hr (fun _ => m.val) (ownerOf org)
      rw [hid] at hcount
      simp only [hnew] at hcount
      exact hcount

/-- Every Owner of the organization has an entry. -/
def Covered (org : Nat) (db : Db) (entries : List InlineEntry) : Prop :=
  ∀ r ∈ db.memberships.rows, ownerOf org r = true → ∃ e ∈ entries, e.row.id = r.id

theorem Covered.tail (hall : Covered org db (e :: rest)) (h : EntriesOf org db (e :: rest))
    (hdrops : e.drops = true) : Covered org (e.apply db) rest := by
  intro r hr hpos
  have howner := owner_apply_iff (r := r) (h.stays e List.mem_cons_self)
    ((h.stored e List.mem_cons_self).imp fun _ => And.left)
  rcases howner.mp ⟨hr, hpos⟩ with ⟨hr, hne, hpos⟩ | ⟨hkeeps, -⟩
  · obtain ⟨e', he', hid⟩ := hall r hr hpos
    rcases List.mem_cons.mp he' with rfl | he'
    · exact absurd hid.symm hne
    · exact ⟨e', he', hid⟩
  · rw [hdrops] at hkeeps
    cases hkeeps

/-- Where every Owner has an entry that drops their row, the Owners are counted by the entries. -/
theorem ownerCount_eq_ownerEntries (h : EntriesOf org db entries) (hall : Covered org db entries)
    (hdrops : ∀ e ∈ entries, e.drops = true) :
    ownerCount db org = ownerEntries db org entries := by
  induction entries generalizing db with
  | nil =>
      apply Table.count_eq_zero_iff.mpr
      intro r hr
      rw [← Bool.not_eq_true]
      intro hpos
      obtain ⟨e, he, -⟩ := hall r hr hpos
      cases he
  -- the first entry takes as many from the Owners as it adds to its own count
  | cons e rest ih =>
      have hdrop := hdrops e List.mem_cons_self
      have hrest : ownerCount (e.apply db) org = ownerEntries (e.apply db) org rest :=
        ih h.tail (hall.tail h hdrop) fun e' he' => hdrops e' (List.mem_cons_of_mem e he')
      rw [ownerEntries_apply h (List.Subset.refl rest)] at hrest
      show _ = List.countP _ (e :: rest)
      rw [List.countP_cons, ← ownerCount_apply h hdrop, hrest]
      rfl

/-- **When a submission that drops every Owner is refused**: one of its deletions meets the guard. -/
theorem saveExisting_refused_iff (h : EntriesOf org db entries) (hall : Covered org db entries)
    (hdrops : ∀ e ∈ entries, e.drops = true) :
    (∃ errors, saveExisting db entries = .error errors) ↔ deletesLast db org entries = true := by
  induction entries generalizing db with
  | nil => exact iff_of_false (fun ⟨_, herror⟩ => by cases herror) Bool.false_ne_true
  | cons e rest ih =>
      have hcount := ownerCount_eq_ownerEntries h hall hdrops
      -- as long as every Owner has an entry, the guard counts the entries to come
      have hmeets : (e.delete = true ∧ deleteRefused db e.row = true) ↔
          (e.delete && e.row.val.role == .owner &&
            decide (ownerEntries db org (e :: rest) ≤ 1)) = true := by
        rw [← hcount, ← h.stays e List.mem_cons_self]
        simp only [deleteRefused, orgOwnerCount, Bool.and_eq_true, and_assoc]
        exact Iff.rfl
      have hrest := ih h.tail (hall.tail h (hdrops e List.mem_cons_self))
        fun e' he' => hdrops e' (List.mem_cons_of_mem e he')
      rw [deletesLast_apply h (List.Subset.refl rest)] at hrest
      rw [saveExisting_cons, deletesLast, Bool.or_eq_true, ← hrest, ← hmeets]
      split
      · next hrefused => exact iff_of_true ⟨_, rfl⟩ (.inl hrefused)
      · next hpasses => exact (or_iff_right hpasses).symm

/-- The entries of a submission are what they should be. -/
theorem instance?_eq_some {f : InlineForm} {m : Row Membership}
    (h : f.instance? db org = some m) :
    m.id = f.id ∧ m.val.organization = org ∧
      ∃ r, db.memberships.get? f.id = some r ∧ r.val.organization = org := by
  obtain ⟨r, hr, rfl⟩ := Option.map_eq_some_iff.mp h
  obtain ⟨hget, horg⟩ := Option.filter_eq_some_iff.mp hr
  have hid : r.id = f.id := Table.id_of_get? hget
  exact ⟨hid, rfl, r, hget, by simpa using horg⟩

theorem mem_inlineEntries {forms : List InlineForm} :
    e ∈ inlineEntries db org forms ↔
      ∃ f ∈ forms, f.delete = e.delete ∧ f.instance? db org = some e.row := by
  rw [inlineEntries, List.mem_filterMap]
  constructor
  · rintro ⟨f, hf, he⟩
    obtain ⟨m, hm, rfl⟩ := Option.map_eq_some_iff.mp he
    exact ⟨f, hf, rfl, hm⟩
  · rintro ⟨f, hf, hdelete, hm⟩
    refine ⟨f, hf, ?_⟩
    rw [hm, hdelete]
    rfl

theorem entriesOf_inlineEntries (formset : InlineFormset) :
    EntriesOf org db (inlineEntries db org formset.forms) := by
  constructor
  · refine List.Nodup.sublist ?_ formset.oneEach
    generalize formset.forms = forms
    induction forms with
    | nil => exact .slnil
    | cons f forms ih =>
        rw [inlineEntries, List.filterMap_cons]
        cases hm : f.instance? db org with
        | none => exact ih.cons f.id
        | some m =>
            have hid : m.id = f.id := (instance?_eq_some hm).1
            show (m.id :: _).Sublist (f.id :: _)
            rw [hid]
            exact ih.cons_cons f.id
  · intro e he
    obtain ⟨f, -, -, hm⟩ := mem_inlineEntries.mp he
    obtain ⟨hid, -, r, hget, horg⟩ := instance?_eq_some hm
    exact ⟨r, hid ▸ hget, horg⟩
  · intro e he
    obtain ⟨f, -, -, hm⟩ := mem_inlineEntries.mp he
    exact (instance?_eq_some hm).2.1

/-- A valid submission keeps an Owner exactly when it spares one. -/
theorem hasOwner_of_submission (hrows : EntriesOf org db entries) :
    (∀ db', saveExisting db entries = .ok db' → HasOwner org db') ↔ SparesEntry org db entries := by
  unfold SparesEntry
  by_cases hkeeps : (∃ r ∈ db.memberships.rows, ownerOf org r = true ∧
      ∀ e ∈ entries, e.row.id ≠ r.id) ∨ ∃ e ∈ entries, e.drops = false
  · refine iff_of_true (fun db' hok => (hasOwner_saveExisting hrows hok).mpr hkeeps) ?_
    exact or_assoc.mp (.inl hkeeps)
  · have hall : Covered org db entries := by
      intro r hr hpos
      by_contra hfree
      exact hkeeps (.inl ⟨r, hr, hpos, fun e he hid => hfree ⟨e, he, hid⟩⟩)
    have hdrops : ∀ e ∈ entries, e.drops = true := by
      intro e he
      rw [← Bool.not_eq_false]
      exact fun hkeep => hkeeps (.inr ⟨e, he, hkeep⟩)
    -- no entry spares an Owner, so only an exception can
    rw [← or_assoc, or_iff_right hkeeps, ← saveExisting_refused_iff hrows hall hdrops]
    cases hsave : saveExisting db entries with
    | error errors => exact iff_of_true (fun db' hok => by cases hok) ⟨errors, rfl⟩
    | ok db' =>
        refine iff_of_false (fun howned => ?_) fun ⟨_, herror⟩ => by cases herror
        exact hkeeps ((hasOwner_saveExisting hrows hsave).mp (howned db' rfl))

theorem hasOwner_submit (hexists : ∃ o ∈ db.organizations.rows, o.id = org) (h : HasOwner org db)
    (o : Nat) (formset : InlineFormset) :
    HasOwner org ((AdminOp.submit o formset).step db) ↔ SparesOwner org db (.submit o formset) := by
  have hrows : EntriesOf o db (inlineEntries db o formset.forms) := entriesOf_inlineEntries formset
  simp only [AdminOp.step, AdminOp.perform, submitInline, SparesOwner]
  by_cases horg : o = org
  · subst horg
    have hfound : (db.organizations.get? o).isNone = false := by
      obtain ⟨row, hrow, hid⟩ := hexists
      rw [Table.get?_eq_some_iff.mpr ⟨hrow, hid⟩]
      rfl
    rw [hfound]
    cases hvalid : formsetErrors db o formset.forms with
    | cons error errors =>
        exact iff_of_true h fun _ => .inl (List.cons_ne_nil error errors)
    | nil =>
        simp only [Bool.false_eq_true, if_false, ne_eq, not_true, false_or, forall_const]
        rw [← hasOwner_of_submission hrows]
        cases hsave : saveExisting db (inlineEntries db o formset.forms) with
        | error errors => exact iff_of_true h fun db' hok => by cases hok
        | ok db' =>
            constructor
            · intro howned _ hok
              cases hok
              exact howned
            · intro hkeeps
              exact hkeeps db' rfl
  · refine iff_of_true ?_ fun heq => absurd heq horg
    split
    · next db' hperform =>
      split at hperform
      · cases hperform
        exact h
      · split at hperform
        · -- the rows of another organization are not in the formset
          obtain ⟨r, hr, hpos⟩ := hasOwner_iff.mp h
          refine hasOwner_iff.mpr ⟨r, mem_saveExisting hr ?_ hperform, hpos⟩
          intro e he hid
          obtain ⟨r', hget, hin⟩ := hrows.stored e he
          rw [hid, Table.get?_eq_some_iff.mpr ⟨hr, rfl⟩] at hget
          cases hget
          simp only [ownerOf, Bool.and_eq_true, beq_iff_eq] at hpos
          exact horg (hin.symm.trans hpos.1)
        · cases hperform
    · exact h

end Submission

/-! ## Runs -/

section Runs

variable {org : Nat} {db : Db}

theorem hasOwner_deleteSelected (pks : List Nat) :
    HasOwner org ((AdminOp.deleteSelected pks).step db) ↔
      SparesOwner org db (.deleteSelected pks) := by
  rw [hasOwner_iff]
  show (∃ r ∈ (db.memberships.delete _).rows, _) ↔ _
  simp only [Table.mem_delete, SparesOwner]
  constructor
  · rintro ⟨r, ⟨hr, hfree⟩, hpos⟩
    exact ⟨r, hr, hpos, hfree⟩
  · rintro ⟨r, hr, hpos, hfree⟩
    exact ⟨r, ⟨hr, hfree⟩, hpos⟩

theorem hasOwner_deleteUser (h : HasOwner org db) (user : Nat) :
    HasOwner org ((AdminOp.deleteUser user).step db) ↔ SparesOwner org db (.deleteUser user) := by
  simp only [AdminOp.step, AdminOp.perform, deleteUser, SparesOwner]
  cases hget : db.users.get? user with
  | none => exact iff_of_true h (.inl rfl)
  | some u =>
      simp only [Option.isNone_some, Bool.false_eq_true, if_false, reduceCtorEq, false_or]
      rw [hasOwner_iff]
      show (∃ r ∈ (db.memberships.delete _).rows, _) ↔ _
      simp only [Table.mem_delete, beq_eq_false_iff_ne]
      constructor
      · rintro ⟨r, ⟨hr, hother⟩, hpos⟩
        exact ⟨r, hr, hpos, hother⟩
      · rintro ⟨r, hr, hpos, hother⟩
        exact ⟨r, ⟨hr, hother⟩, hpos⟩

/-- **One operation** keeps an Owner exactly when it spares one. -/
theorem hasOwner_step (hexists : ∃ o ∈ db.organizations.rows, o.id = org) (h : HasOwner org db)
    (op : AdminOp) : HasOwner org (op.step db) ↔ SparesOwner org db op := by
  cases op with
  | edit pk user organization role => exact hasOwner_edit h pk user organization role
  | delete m => exact hasOwner_delete h m
  | submit o formset => exact hasOwner_submit hexists h o formset
  | deleteSelected pks => exact hasOwner_deleteSelected pks
  | deleteUser user => exact hasOwner_deleteUser h user

theorem organizations_saveExisting {entries : List InlineEntry} {db' : Db}
    (hok : saveExisting db entries = .ok db') : db'.organizations = db.organizations := by
  induction entries generalizing db with
  | nil =>
      cases hok
      rfl
  | cons e rest ih =>
      rw [saveExisting_cons] at hok
      split at hok
      · cases hok
      · rw [ih hok]
        unfold InlineEntry.apply
        split <;> rfl

/-- None of the operations deletes an organization. -/
theorem organization_step (hexists : ∃ o ∈ db.organizations.rows, o.id = org) (op : AdminOp) :
    ∃ o ∈ (op.step db).organizations.rows, o.id = org := by
  unfold AdminOp.step
  split
  · next db' hperform =>
    cases op with
    | edit pk user organization role =>
        simp only [AdminOp.perform, editMembership] at hperform
        split at hperform
        · cases hperform
          exact hexists
        · split at hperform
          · cases hperform
            exact hexists
          · cases hperform
    | delete m =>
        simp only [AdminOp.perform, deleteInstance] at hperform
        split at hperform
        · cases hperform
        · cases hperform
          exact hexists
    | submit o formset =>
        simp only [AdminOp.perform, submitInline] at hperform
        split at hperform
        · cases hperform
          exact hexists
        · split at hperform
          · rw [organizations_saveExisting hperform]
            exact hexists
          · cases hperform
    | deleteSelected pks =>
        cases hperform
        exact hexists
    | deleteUser user =>
        cases hperform
        unfold deleteUser
        split
        · exact hexists
        · obtain ⟨o, ho, hid⟩ := hexists
          exact ⟨_, Table.mem_update.mpr ⟨o, ho, rfl⟩, (Table.setRow_id ..).trans hid⟩
  · exact hexists

/-- **When the admin and the shell keep an Owner.** An organization with an Owner has one in every
state in which it exists, whatever the operations, if and only if every operation spares one. -/
theorem admin_keeps_owner_iff (org : Nat) {db : Db}
    (hexists : ∃ o ∈ db.organizations.rows, o.id = org) (h : HasOwner org db)
    (ops : List AdminOp) :
    States AdminOp.step
        (fun db => (∃ o ∈ db.organizations.rows, o.id = org) → HasOwner org db) db ops ↔
      Each AdminOp.step (SparesOwner org) db ops := by
  have hstays : States AdminOp.step (fun db => ∃ o ∈ db.organizations.rows, o.id = org) db ops := by
    apply states_of_step
    · intro db op hdb
      exact organization_step hdb op
    · exact hexists
  have hthere : Each AdminOp.step (fun db _ => ∃ o ∈ db.organizations.rows, o.id = org) db ops := by
    apply each_of_states _ hstays
    intro db op hdb _
    exact hdb
  refine states_iff_each ?_ (fun _ => h) hthere
  intro db op howned hdb
  rw [← hasOwner_step hdb (howned hdb) op]
  constructor
  · intro hafter
    exact hafter (organization_step hdb op)
  · intro hafter _
    exact hafter

end Runs

/-! ## Organizations without an Owner -/

/-- Organizations 1 and 2, owned by users 1 and 2. -/
def twoTenants : Db where
  users := (Table.empty.insert { email := "a@x.io", password := "" }).insert
    { email := "b@x.io", password := "" }
  organizations := (Table.empty.insert ⟨"Acme", "acme", some 1, 0⟩).insert
    ⟨"Beta", "beta", some 2, 0⟩
  memberships := (Table.empty.insert ⟨1, 1, .owner, 0⟩).insert ⟨2, 2, .owner, 0⟩

/-- The only Owner is moved to the other organization, ticked for deletion with another role filled
in, deleted after the role was changed in memory, among a selection, and the user who is deleted. -/
def orphaning : List AdminOp :=
  [.edit 1 1 2 .owner, .submit 1 ⟨[⟨1, 1, .member, true⟩], by decide⟩,
    .delete ⟨1, ⟨1, 1, .member, 0⟩⟩, .deleteSelected [1], .deleteUser 1]

/-- Both Owners lose their role in one submission. -/
def demotesBoth : AdminOp :=
  .submit 1 ⟨[⟨1, 1, .admin, false⟩, ⟨2, 2, .member, false⟩], by decide⟩

/-- Each of these leaves the organization there and without an Owner. -/
theorem admin_orphans_organization :
    HasOwner 1 twoTenants ∧ HasOwner 1 twoOwners ∧
      (∀ op ∈ orphaning, (∃ o ∈ (op.step twoTenants).organizations.rows, o.id = 1) ∧
        ¬ HasOwner 1 (op.step twoTenants)) ∧
      (∃ o ∈ (demotesBoth.step twoOwners).organizations.rows, o.id = 1) ∧
        ¬ HasOwner 1 (demotesBoth.step twoOwners) := by
  decide

/-- One Owner steps down. Then the other can neither be demoted nor deleted, on their own or in a
submission, and deleting the first one's row and user changes nothing about that. -/
def sparing : List AdminOp :=
  [.edit 1 1 1 .member, .edit 2 2 1 .admin, .delete ⟨2, ⟨2, 1, .owner, 0⟩⟩,
    .submit 1 ⟨[⟨1, 1, .member, true⟩, ⟨2, 2, .admin, false⟩], by decide⟩,
    .deleteSelected [1], .deleteUser 1]

theorem admin_keeps_owner_in_place :
    States AdminOp.step
      (fun db => (∃ o ∈ db.organizations.rows, o.id = 1) → HasOwner 1 db) twoOwners sparing := by
  have hspares : Each AdminOp.step (SparesOwner 1) twoOwners sparing := by decide
  have hthere : ∃ o ∈ twoOwners.organizations.rows, o.id = 1 := by decide
  have howned : HasOwner 1 twoOwners := by decide
  exact (admin_keeps_owner_iff 1 hthere howned sparing).mpr hspares

end Bastiq
