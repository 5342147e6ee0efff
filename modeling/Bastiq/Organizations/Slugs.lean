import Mathlib.Data.List.Dedup
import Bastiq.Organizations.Views
import Bastiq.Transition.Loop

/-!
# The slug of a new organization

`_candidate_slug` slugifies the name and counts upwards until the slug is free. Here the probing is
followed to its end: what it returns is the first free slug of a sequence without repetitions, and
there always is one. What nothing checks is its length. A name is at most 255 characters long, but
its slug may be longer, and a suffix makes it longer still; the database then refuses the row, and
the retry loop is not for that.
-/

namespace Bastiq

open Relational View Transition

/-! ## The slugs that are tried -/

/-- The base of a name's slugs: its slug, or `org` when that is empty. -/
def slugBase (E : Env) (name : String) : String :=
  if E.slugify name == "" then "org" else E.slugify name

/-- The slugs that are tried, in order: the base, then the base with `-2`, `-3` and so on. -/
def numberedSlug (base : String) : Nat → String
  | 0 => base
  | k + 1 => base ++ "-" ++ toString (k + 2)

def SlugTaken (db : Db) (slug : String) : Prop := ∃ o ∈ db.organizations.rows, o.val.slug = slug

instance (db : Db) (slug : String) : Decidable (SlugTaken db slug) :=
  inferInstanceAs (Decidable (∃ o ∈ db.organizations.rows, o.val.slug = slug))

theorem numberedSlug_inj (base : String) : ∀ i j, numberedSlug base i = numberedSlug base j → i = j
  | 0, 0, _ => rfl
  | 0, j + 1, h => by
      have hlength := congrArg String.length h
      have hdash : "-".length = 1 := rfl
      simp only [numberedSlug, String.length_append, hdash] at hlength
      omega
  | i + 1, 0, h => by
      have hlength := congrArg String.length h
      have hdash : "-".length = 1 := rfl
      simp only [numberedSlug, String.length_append, hdash] at hlength
      omega
  | i + 1, j + 1, h => by
      have hlist := congrArg String.toList h
      simp only [numberedSlug, String.toList_append] at hlist
      have hdigits := List.append_cancel_left hlist
      rw [Nat.toString_eq_repr, Nat.toString_eq_repr, Nat.toList_repr, Nat.toList_repr] at hdigits
      have hnumber := congrArg (fun ds => Nat.ofDigitChars 10 ds 0) hdigits
      simp only [Nat.ofDigitChars_ten_toDigits] at hnumber
      omega

theorem slugTaken_iff {db : Db} {slug : String} :
    SlugTaken db slug ↔ db.organizations.any (·.val.slug == slug) = true := by
  simp [SlugTaken, Table.any]

theorem not_slugTaken_iff {db : Db} {slug : String} :
    ¬ SlugTaken db slug ↔ db.organizations.any (·.val.slug == slug) = false := by
  rw [slugTaken_iff, Bool.not_eq_true]

/-! ## The search -/

/-- The variables of the loop in `_candidate_slug`. -/
structure SlugSearch where
  slug   : String
  suffix : Nat

/-- `slug = f"{base}-{suffix}"` and `suffix += 1`. -/
def SlugSearch.next (base : String) (v : SlugSearch) : SlugSearch :=
  ⟨base ++ "-" ++ toString v.suffix, v.suffix + 1⟩

/-- `Organization.objects.filter(slug=slug).exists()`. -/
def SlugSearch.isTaken (db : Db) (v : SlugSearch) : Bool :=
  db.organizations.any (·.val.slug == v.slug)

/-- The slugs there are, each once. -/
def existingSlugs (db : Db) : List String := (db.organizations.rows.map (·.val.slug)).dedup

section Search

variable {db : Db} {base : String} {v v' : SlugSearch} {n : Nat}

theorem SlugSearch.isTaken_iff : v.isTaken db = true ↔ SlugTaken db v.slug := slugTaken_iff.symm

theorem mem_existingSlugs {slug : String} : slug ∈ existingSlugs db ↔ SlugTaken db slug := by
  simp [existingSlugs, SlugTaken]

theorem length_existingSlugs_le (db : Db) :
    (existingSlugs db).length ≤ db.organizations.rows.length := by
  have hle := (List.dedup_sublist (db.organizations.rows.map (·.val.slug))).length_le
  rwa [List.length_map] at hle

/-- After some turns the variables stand at the next slug to be tried. -/
theorem iterate_next (base : String) (k : Nat) :
    (SlugSearch.next base)^[k] ⟨base, 2⟩ = ⟨numberedSlug base k, k + 2⟩ := by
  induction k with
  | zero => rfl
  | succ k ih =>
      rw [Function.iterate_succ_apply', ih]
      rfl

/-- **The search ends**, with one probe more than there are slugs at most. -/
theorem exists_search_ends (db : Db) (base : String) :
    ∃ probes v, Ends (SlugSearch.isTaken db) (SlugSearch.next base) ⟨base, 2⟩ probes v ∧
      probes ≤ (existingSlugs db).length + 1 := by
  refine exists_ends (f := SlugSearch.slug) (fun i j h => ?_) fun v hv => ?_
  · rw [iterate_next, iterate_next] at h
    exact numberedSlug_inj base i j h
  · exact mem_existingSlugs.mpr (SlugSearch.isTaken_iff.mp hv)

/-- **Where the search ends**: at a free slug, and all that come before it are taken. -/
theorem search_ends_at (h : Ends (SlugSearch.isTaken db) (SlugSearch.next base) ⟨base, 2⟩ n v) :
    ∃ k, v.slug = numberedSlug base k ∧ ¬ SlugTaken db (numberedSlug base k) ∧
      ∀ j < k, SlugTaken db (numberedSlug base j) := by
  have hkept : ∃ k, v = ⟨numberedSlug base k, k + 2⟩ ∧
      ∀ j < k, SlugTaken db (numberedSlug base j) := by
    refine h.keeps (Q := fun v => ∃ k, v = ⟨numberedSlug base k, k + 2⟩ ∧
      ∀ j < k, SlugTaken db (numberedSlug base j)) ?_ ⟨0, rfl, by simp⟩
    rintro v hv ⟨k, rfl, hbefore⟩
    refine ⟨k + 1, rfl, fun j hj => ?_⟩
    rcases Nat.lt_succ_iff_lt_or_eq.mp hj with hj | rfl
    · exact hbefore j hj
    · exact SlugSearch.isTaken_iff.mp hv
  obtain ⟨k, rfl, hbefore⟩ := hkept
  refine ⟨k, rfl, fun htaken => ?_, hbefore⟩
  have hfree := h.cond_eq_false
  rw [SlugSearch.isTaken_iff.mpr htaken] at hfree
  cases hfree

/-- With enough probes, `probeSlug` is the search. -/
theorem probeSlug_of_ends (h : Ends (SlugSearch.isTaken db) (SlugSearch.next base) v n v')
    {fuel : Nat} (hfuel : n ≤ fuel) : probeSlug db base fuel v.suffix v.slug = v'.slug := by
  induction h generalizing fuel with
  | @stop v hfree =>
      obtain ⟨fuel, rfl⟩ := Nat.exists_eq_add_of_le' hfuel
      have hfree : db.organizations.any (·.val.slug == v.slug) = false := hfree
      simp [probeSlug, hfree]
  | @turn v v' n htaken _ ih =>
      obtain ⟨fuel, rfl⟩ := Nat.exists_eq_add_of_le' (Nat.le_trans (Nat.le_add_left 1 n) hfuel)
      have htaken : db.organizations.any (·.val.slug == v.slug) = true := htaken
      rw [probeSlug, if_pos htaken]
      exact ih (Nat.le_of_succ_le_succ hfuel)

theorem candidateSlug_of_ends {E : Env} {name : String}
    (h : Ends (SlugSearch.isTaken db) (SlugSearch.next (slugBase E name)) ⟨slugBase E name, 2⟩ n v)
    (hprobes : n ≤ (existingSlugs db).length + 1) : candidateSlug E db name = v.slug :=
  probeSlug_of_ends h (Nat.le_trans hprobes (Nat.succ_le_succ (length_existingSlugs_le db)))

end Search

/-- **What `_candidate_slug` returns.** -/
theorem candidateSlug_eq (E : Env) (db : Db) (name : String) :
    ∃ k, candidateSlug E db name = numberedSlug (slugBase E name) k ∧
      ¬ SlugTaken db (numberedSlug (slugBase E name) k) ∧
      ∀ j < k, SlugTaken db (numberedSlug (slugBase E name) j) := by
  obtain ⟨probes, v, hends, hprobes⟩ := exists_search_ends db (slugBase E name)
  rw [candidateSlug_of_ends hends hprobes]
  exact search_ends_at hends

/-- **The search for a slug ends at the least free candidate.** The loop of `_candidate_slug` ends
after one probe more than there are slugs at most. It returns the base if that is free, and
otherwise the base with the least number from 2 on that makes it free. -/
theorem slug_search_least (E : Env) (db : Db) (name : String) :
    let base := slugBase E name
    ∃ probes v, Ends (SlugSearch.isTaken db) (SlugSearch.next base) ⟨base, 2⟩ probes v ∧
      probes ≤ (existingSlugs db).length + 1 ∧ candidateSlug E db name = v.slug ∧
      (¬ SlugTaken db base → v.slug = base) ∧
      (SlugTaken db base → ∃ k, 2 ≤ k ∧ v.slug = base ++ "-" ++ toString k ∧
        ¬ SlugTaken db (base ++ "-" ++ toString k) ∧
        ∀ j, 2 ≤ j → j < k → SlugTaken db (base ++ "-" ++ toString j)) := by
  intro base
  obtain ⟨probes, v, hends, hprobes⟩ := exists_search_ends db base
  obtain ⟨k, hslug, hfree, hbefore⟩ := search_ends_at hends
  refine ⟨probes, v, hends, hprobes, candidateSlug_of_ends hends hprobes, ?_, ?_⟩
  · intro hbase
    cases k with
    | zero => exact hslug
    | succ k => exact absurd (hbefore 0 (Nat.succ_pos k)) hbase
  · intro hbase
    cases k with
    | zero => exact absurd hbase hfree
    | succ k =>
        refine ⟨k + 2, by omega, hslug, hfree, fun j hj hlt => ?_⟩
        -- the number `j` is that of the candidate `j - 1`
        obtain ⟨i, rfl⟩ := Nat.exists_eq_add_of_le' hj
        exact hbefore (i + 1) (by omega)

example : candidateSlug Env.ascii
    { organizations := (Table.empty.insert ⟨"Acme", "acme", none, 0⟩).insert
        ⟨"Acme 2", "acme-2", none, 0⟩ } "Acme" = "acme-3" := by decide

/-! ## What is stored -/

/-- `slugify` as Django documents it: lower-case letters, digits, hyphens and underscores. -/
def IsSlugChar (c : Char) : Prop := c.isLower = true ∨ c.isDigit = true ∨ c = '-' ∨ c = '_'

instance (c : Char) : Decidable (IsSlugChar c) :=
  inferInstanceAs (Decidable (_ ∨ _ ∨ _ ∨ _))

/-- No character a slug may have is a NUL, so only its length can keep it out of its column. -/
theorem not_contains_nul_of_isSlugChar {s : String} (h : ∀ c ∈ s.toList, IsSlugChar c) :
    s.toList.contains (Char.ofNat 0) = false := by
  rw [Bool.eq_false_iff]
  intro hnul
  have hslug := h (Char.ofNat 0) (List.contains_iff_mem.mp hnul)
  revert hslug
  unfold IsSlugChar
  decide

theorem isSlugChar_slugBase {E : Env} (hslugify : ∀ s, ∀ c ∈ (E.slugify s).toList, IsSlugChar c)
    (name : String) : ∀ c ∈ (slugBase E name).toList, IsSlugChar c := by
  unfold slugBase
  split
  · have horg : "org".toList = ['o', 'r', 'g'] := rfl
    simp only [horg, List.forall_mem_cons, List.not_mem_nil, false_implies, implies_true, and_true]
    exact ⟨by decide, by decide, by decide⟩
  · exact hslugify name

theorem isSlugChar_numberedSlug {base : String} (h : ∀ c ∈ base.toList, IsSlugChar c) (k : Nat) :
    ∀ c ∈ (numberedSlug base k).toList, IsSlugChar c := by
  cases k with
  | zero => exact h
  | succ k =>
      intro c hc
      simp only [numberedSlug, String.toList_append, List.mem_append] at hc
      rcases hc with (hc | hc) | hc
      · exact h c hc
      · obtain rfl : c = '-' := by simpa using hc
        exact .inr (.inr (.inl rfl))
      · rw [Nat.toString_eq_repr, Nat.toList_repr] at hc
        exact .inr (.inl (Python.isDigit_toDigits c hc))

theorem slugBase_ne_blank (E : Env) (name : String) : slugBase E name ≠ "" := by
  unfold slugBase
  split
  · decide
  · next h => simpa using h

theorem numberedSlug_ne_blank {base : String} (h : base ≠ "") (k : Nat) :
    numberedSlug base k ≠ "" := by
  cases k with
  | zero => exact h
  | succ k =>
      intro hblank
      have hlength := congrArg String.length hblank
      have hdash : "-".length = 1 := rfl
      simp only [numberedSlug, String.length_append, hdash, String.length_empty] at hlength
      omega

/-- A text that a field accepts is trimmed and fits its column. -/
theorem CharField.convert_eq_value {f : CharField} {n : Nat} {text value : String}
    (hmax : f.maxLength = some n) (h : f.convert text = .value value) :
    fits n value = true ∧ Python.strip value = value := by
  simp only [CharField.convert] at h
  split at h
  · next hvalid =>
    cases h
    refine ⟨?_, Python.strip_strip text⟩
    obtain ⟨hlength, hnul⟩ := List.append_eq_nil_iff.mp hvalid
    rw [hmax] at hlength
    simp only [ite_eq_left_iff, List.cons_ne_nil, imp_false, Decidable.not_not] at hlength
    simp only [ite_eq_right_iff, List.cons_ne_nil, imp_false, Bool.not_eq_true] at hnul
    simp only [fits, hlength, decide_true, hnul, Bool.not_false, Bool.and_self]
  · cases h

theorem organizationName_eq_value {input : Option Json} {value : String}
    (h : organizationName.run false input = .value value) :
    fits 255 value = true ∧ Python.strip value = value := by
  have hmax : organizationName.maxLength = some 255 := rfl
  have hrequired : organizationName.required = true := rfl
  have hblank : organizationName.allowBlank = false := rfl
  generalize organizationName = f at h hmax hrequired hblank
  cases input with
  | none => simp [CharField.run, hrequired] at h
  | some v =>
      cases v with
      | null => cases h
      | bool b => cases h
      | int n => exact CharField.convert_eq_value hmax h
      | float repr => exact CharField.convert_eq_value hmax h
      | str s =>
          simp only [CharField.run, hblank, Bool.false_eq_true, if_false] at h
          split at h
          · cases h
          · exact CharField.convert_eq_value hmax h
      | arr items => cases h
      | obj fields => cases h

/-- A name that was accepted fits its column. -/
theorem fits_of_validateOrganization {β : Type} {data : RequestData} {name : String}
    (h : validateOrganization (β := β) false data = .ok (some name)) : fits 255 name = true := by
  obtain ⟨fields, -, h⟩ := bind_eq_ok.mp h
  simp only at h
  split at h
  · next hnamed =>
    cases hresult : (organizationName.run false (fields.lookup "name")).andThen validateName with
    | skip =>
        rw [hresult] at h
        cases h
    | errors es =>
        rw [hresult] at h
        cases h
    | value value =>
        rw [hresult] at h
        cases h
        obtain ⟨text, htext, hvalue⟩ := FieldResult.andThen_eq_value.mp hresult
        obtain ⟨hfits, hstrip⟩ := organizationName_eq_value htext
        simp only [validateName, hstrip] at hvalue
        split at hvalue
        · cases hvalue
        · cases hvalue
          exact hfits
  · cases h

/-! ## Creating an organization -/

/-- The subscriptions a new organization leaves: one more, on Free, when that plan is seeded. -/
def subscriptionsAfter (db : Db) (org : Nat) (now : Int) : Table Subscription :=
  match freePlan db with
  | none => db.subscriptions
  | some free => db.subscriptions.insert { organization := org, plan := free.id, updatedAt := now }

/-- One organization more, its Free subscription if that plan is seeded, and its Owner. -/
def organizationCreated (db : Db) (user : Nat) (name slug : String) (now : Int) : Db :=
  { db with
    organizations := db.organizations.insert ⟨name, slug, some user, now⟩
    memberships := db.memberships.insert ⟨user, db.organizations.nextId, .owner, now⟩
    subscriptions := subscriptionsAfter db db.organizations.nextId now }

/-- No row waits for an organization to come: `organization_id` is a foreign key. -/
def NoForeignRows (db : Db) : Prop :=
  ∀ s ∈ db.subscriptions.rows, s.val.organization < db.organizations.nextId

section Create

variable {E : Env} {db : Db} {user : Nat} {name slug : String} {now : Int}

theorem insertOrganization_of_fits (user : Nat) (now : Int) (hrows : NoForeignRows db)
    (hname : fits 255 name = true) (hslug : fits 255 slug = true)
    (hfree : ¬ SlugTaken db slug) :
    ∃ org, insertOrganization db user name slug now =
      .ok (org, organizationCreated db user name slug now) := by
  rw [not_slugTaken_iff] at hfree
  have hnone : subscriptionOf db db.organizations.nextId = none := by
    rw [subscriptionOf, Table.first?_eq_none_iff]
    intro s hs
    have hlt := hrows s hs
    simp only [beq_eq_false_iff_ne]
    omega
  refine ⟨⟨db.organizations.nextId, name, slug, some user, now⟩, ?_⟩
  simp only [insertOrganization, hname, hslug, hfree, Bool.and_self, Bool.not_true,
    Bool.false_eq_true, if_false]
  rw [createFreeSubscription_eq]
  unfold organizationCreated subscriptionsAfter createFreeSubscription freePlan
  simp only [subscriptionOf] at hnone ⊢
  rw [hnone]
  cases db.plans.first? fun p => p.val.code == freePlanCode <;> rfl

theorem insertOrganization_of_not_fits (hslug : fits 255 slug = false) :
    insertOrganization db user name slug now = .error .dataError := by
  simp [insertOrganization, hslug]

/-- **One attempt decides**: the slug is free, so the row is stored or refused for its width. -/
theorem createOrgWithOwner_eq {β : Type} {k : Nat} (user : Nat) (now : Int)
    (hslugify : ∀ s, ∀ c ∈ (E.slugify s).toList, IsSlugChar c) (hrows : NoForeignRows db)
    (hname : fits 255 name = true)
    (hcandidate : candidateSlug E db name = numberedSlug (slugBase E name) k)
    (hfree : ¬ SlugTaken db (numberedSlug (slugBase E name) k)) (attempts : Nat) :
    if (numberedSlug (slugBase E name) k).length ≤ 255 then
      ∃ org, createOrgWithOwner (β := β) E db user name now (attempts + 1) =
        .ok (org, organizationCreated db user name (numberedSlug (slugBase E name) k) now)
    else createOrgWithOwner (β := β) E db user name now (attempts + 1) = .error serverError := by
  have hnul := not_contains_nul_of_isSlugChar
    (isSlugChar_numberedSlug (isSlugChar_slugBase hslugify name) k)
  split
  · next hle =>
    have hslug : fits 255 (numberedSlug (slugBase E name) k) = true := by
      simp only [fits, hle, decide_true, hnul, Bool.not_false, Bool.and_self]
    obtain ⟨org, hinsert⟩ := insertOrganization_of_fits user now hrows hname hslug hfree
    exact ⟨org, by simp [createOrgWithOwner, hcandidate, hinsert]⟩
  · next hgt =>
    have hslug : fits 255 (numberedSlug (slugBase E name) k) = false := by simp [fits, hgt]
    simp [createOrgWithOwner, hcandidate, insertOrganization_of_not_fits hslug]

theorem status_of_createOrganization {data : RequestData} {r : Response OrganizationPayload}
    {db' : Db} (h : createOrganization E db user data now = .ok (r, db')) : r.status = 201 := by
  obtain ⟨name, -, h⟩ := bind_eq_ok.mp h
  obtain ⟨⟨org, after⟩, -, h⟩ := bind_eq_ok.mp h
  cases h
  rfl

/-- **An answer other than 201 leaves every table as it was.** -/
theorem createOrganization_unchanged {data : RequestData}
    (h : (perform db (createOrganization E db user data now)).1.status ≠ 201) :
    (perform db (createOrganization E db user data now)).2 = db := by
  cases hview : createOrganization E db user data now with
  | error r => rfl
  | ok out =>
      rw [hview] at h
      exact absurd (status_of_createOrganization hview) h

end Create

/-- **Which organizations can be created.** With Django's `slugify` as documented and a name the
serializer accepts, a POST that runs alone is answered 201 and adds the organization, under a slug
that is not empty, was free and fits its column, with its Owner and, when that plan is seeded, its
Free subscription, exactly when the first free slug of the name is at most 255 characters long. Any
other answer changes nothing. -/
theorem organization_created_iff {E : Env} {db : Db} {user : Nat} {data : RequestData}
    {name : String} {now : Int} (hslugify : ∀ s, ∀ c ∈ (E.slugify s).toList, IsSlugChar c)
    (hrows : NoForeignRows db)
    (hname : validateOrganization (β := OrganizationPayload) false data = .ok (some name)) :
    let out := perform db (createOrganization E db user data now)
    ((out.1.status = 201 ∧ ∃ slug, slug ≠ "" ∧ slug.length ≤ 255 ∧ ¬ SlugTaken db slug ∧
        out.2 = organizationCreated db user name slug now) ↔
      ∃ k, (numberedSlug (slugBase E name) k).length ≤ 255 ∧
        ¬ SlugTaken db (numberedSlug (slugBase E name) k) ∧
        ∀ j < k, SlugTaken db (numberedSlug (slugBase E name) j)) ∧
    (out.1.status ≠ 201 → out.2 = db) := by
  intro out
  refine ⟨?_, createOrganization_unchanged⟩
  obtain ⟨k, hcandidate, hfree, htaken⟩ := candidateSlug_eq E db name
  have hattempt := createOrgWithOwner_eq (β := OrganizationPayload) user now
    hslugify hrows (fits_of_validateOrganization hname) hcandidate hfree 5
  have hout : out = perform db (createOrganization E db user data now) := rfl
  simp only [createOrganization, hname, ok_bind, Option.getD_some] at hout
  split at hattempt
  · next hle =>
    obtain ⟨org, hcreate⟩ := hattempt
    rw [hcreate, ok_bind, perform_ok] at hout
    rw [hout]
    refine iff_of_true ⟨rfl, _, ?_, hle, hfree, rfl⟩ ⟨k, hle, hfree, htaken⟩
    exact numberedSlug_ne_blank (slugBase_ne_blank E name) k
  · next hgt =>
    rw [hattempt, error_bind, perform_error] at hout
    rw [hout]
    refine iff_of_false (fun h => absurd h.1 (by simp [serverError])) ?_
    rintro ⟨j, hle, hfree', htaken'⟩
    -- the first free slug is one, and it is too long
    rcases Nat.lt_trichotomy j k with hlt | rfl | hgt'
    · exact hfree' (htaken j hlt)
    · exact hgt hle
    · exact hfree (htaken' k hgt')

/-- `slugify` on plain text: blanks become hyphens, and what a slug cannot have is dropped. -/
def Env.plainSlugs : Env :=
  { Env.ascii with
    slugify := fun s =>
      String.ofList ((Env.ascii.slugify s).toList.filter fun c => decide (IsSlugChar c)) }

theorem isSlugChar_plainSlugs (s : String) : ∀ c ∈ (Env.plainSlugs.slugify s).toList,
    IsSlugChar c := by
  intro c hc
  simp only [Env.plainSlugs, String.toList_ofList, List.mem_filter, decide_eq_true_eq] at hc
  exact hc.2

/-- The organizations of user 1, with their names and slugs, and the Free plan. -/
def organizationsNamed (names : List (String × String)) : Db where
  users := Table.empty.insert { email := "a@x.io", password := "" }
  organizations := names.foldl (fun rows (name, slug) => rows.insert ⟨name, slug, some 1, 0⟩) .empty
  plans := Table.empty.insert ⟨"free", "Free", "", defaultFreeLimits, true⟩

def nameBody (name : String) : RequestData := .json (.obj [("name", .str name)])

/-- A name of `n` letters, which is its own slug. -/
def letters (n : Nat) : String := String.ofList (List.replicate n 'a')

theorem toList_letters (n : Nat) : (letters n).toList = List.replicate n 'a' :=
  String.toList_ofList

theorem length_letters (n : Nat) : (letters n).length = n := by
  rw [← String.length_toList, toList_letters, List.length_replicate]

theorem letters_ne_blank {n : Nat} (hn : 0 < n) : (letters n == "") = false := by
  rw [beq_eq_false_iff_ne]
  intro h
  have hlength := congrArg String.length h
  rw [length_letters, String.length_empty] at hlength
  omega

theorem strip_letters (n : Nat) : Python.strip (letters n) = letters n := by
  rw [Python.strip, toList_letters, Python.trim_of_forall]
  · rfl
  · intro c hc
    rw [List.eq_of_mem_replicate hc]
    decide

theorem letters_hold_no_nul (n : Nat) : (letters n).toList.contains (Char.ofNat 0) = false := by
  rw [Bool.eq_false_iff]
  intro h
  rw [toList_letters, List.contains_iff_mem] at h
  exact absurd (List.eq_of_mem_replicate h) (by decide)

theorem validateOrganization_letters {β : Type} {n : Nat} (hn : 0 < n) (hmax : n ≤ 255) :
    validateOrganization (β := β) false (nameBody (letters n)) = .ok (some (letters n)) := by
  have hfield : organizationName.run false (some (.str (letters n))) = .value (letters n) := by
    simp only [CharField.run, organizationName, strip_letters, letters_ne_blank hn,
      Bool.false_eq_true, if_false, CharField.convert, CharField.validators, length_letters, hmax,
      if_true, letters_hold_no_nul, List.nil_append]
  simp only [validateOrganization, nameBody, bodyFields, Json.fields, ok_bind, List.lookup_cons,
    beq_self_eq_true, hfield, FieldResult.andThen, validateName, strip_letters, letters_ne_blank hn,
    Bool.false_eq_true, if_false, FieldResult.named, FieldResult.value?]

theorem slugify_letters (n : Nat) : Env.plainSlugs.slugify (letters n) = letters n := by
  have hchars : (Env.ascii.slugify (letters n)).toList = List.replicate n 'a' := by
    simp only [Env.ascii, toList_letters, List.map_replicate, String.toList_ofList]
    rfl
  simp only [Env.plainSlugs, hchars, List.filter_replicate]
  rfl

/-- Where its slug is taken, no organization of a name can be created whose slug fills the column. -/
theorem createOrganization_letters {db : Db} {user n : Nat} {now : Int} (hlow : 253 < n)
    (hmax : n ≤ 255) (hrows : NoForeignRows db) (htaken : SlugTaken db (letters n)) :
    createOrganization Env.plainSlugs db user (nameBody (letters n)) now = .error serverError := by
  have hpos : 0 < n := by omega
  have hvalid := validateOrganization_letters (β := OrganizationPayload) hpos hmax
  have hbase : slugBase Env.plainSlugs (letters n) = letters n := by
    simp only [slugBase, slugify_letters, letters_ne_blank hpos, Bool.false_eq_true, if_false]
  obtain ⟨k, hcandidate, hfree, -⟩ := candidateSlug_eq Env.plainSlugs db (letters n)
  have hattempt := createOrgWithOwner_eq (β := OrganizationPayload) user now
    isSlugChar_plainSlugs hrows (fits_of_validateOrganization hvalid) hcandidate hfree 5
  rw [hbase] at hfree hattempt
  cases k with
  | zero => exact absurd htaken hfree
  | succ k =>
      have hdigits : 0 < (toString (k + 2)).length := by
        rw [Nat.toString_eq_repr]
        exact Nat.length_repr_pos
      have hdash : "-".length = 1 := rfl
      have hlength : 255 < (numberedSlug (letters n) (k + 1)).length := by
        simp only [numberedSlug, String.length_append, hdash, length_letters]
        omega
      rw [if_neg (by omega)] at hattempt
      simp only [createOrganization, hvalid, ok_bind, Option.getD_some, hattempt, error_bind]

/-- The second organization of a long name is answered 500. -/
theorem long_name_fails_twice :
    (∀ s, ∀ c ∈ (Env.plainSlugs.slugify s).toList, IsSlugChar c) ∧
      NoForeignRows (organizationsNamed [(letters 255, letters 255)]) ∧
      validateOrganization (β := OrganizationPayload) false (nameBody (letters 255)) =
        .ok (some (letters 255)) ∧
      (perform (organizationsNamed [(letters 255, letters 255)]) (createOrganization Env.plainSlugs
        (organizationsNamed [(letters 255, letters 255)]) 1 (nameBody (letters 255)) 5)).1.status =
        500 := by
  have hrows : NoForeignRows (organizationsNamed [(letters 255, letters 255)]) := by
    rintro s ⟨⟩
  have htaken : SlugTaken (organizationsNamed [(letters 255, letters 255)]) (letters 255) :=
    ⟨⟨1, letters 255, letters 255, some 1, 0⟩, List.mem_singleton_self _, rfl⟩
  refine ⟨isSlugChar_plainSlugs, hrows,
    validateOrganization_letters (by decide) (by decide), ?_⟩
  rw [createOrganization_letters (by decide) (by decide) hrows htaken]
  rfl

theorem organization_created_iff_acme :
    (perform (organizationsNamed [("Acme", "acme")]) (createOrganization Env.plainSlugs
      (organizationsNamed [("Acme", "acme")]) 1 (nameBody "Acme") 5)).1.status = 201 := by
  have hname : validateOrganization (β := OrganizationPayload) false (nameBody "Acme") =
      .ok (some "Acme") := rfl
  have hrows : NoForeignRows (organizationsNamed [("Acme", "acme")]) := by
    rintro s ⟨⟩
  exact ((organization_created_iff isSlugChar_plainSlugs hrows hname).1.mpr
    ⟨1, by decide, by decide, by decide⟩).1

end Bastiq
