import Mathlib.Data.String.Basic
import Bastiq.Rest.Pages
import Bastiq.Organizations.Invitations
import Bastiq.Projects.Views

/-!
# Reading a list page by page

The four list endpoints, with their querysets and orderings. A page is a query of its own, and the
database may answer each in any order that the `ORDER BY` allows: the answer is an argument of the
view here. Two organizations may have one name, and two invitations or projects one `created_at`, so
a client that reads all pages has every row once exactly if no page ends among such rows
(`paging_iff`). Members have no ties, for nobody has two memberships in one organization.
-/

namespace Bastiq

open Relational View Paging

/-! ## Lists -/

/-- What a list endpoint returns: a page, or all there is where pagination is off. -/
inductive Listed (β : Type) where
  | page (p : Page β)
  | all (rows : List β)

def Listed.results {β : Type} : Listed β → List β
  | .page p => p.results
  | .all rows => rows

/-- A queryset with its ordering and the serializer of its rows, which tells them apart. -/
structure Listing (α β : Type) where
  rows      : List α
  ranking   : Ranking α
  serialize : α → β
  distinct  : (rows.map serialize).Nodup

section View

variable {α β : Type}

/-- What a list view does with its queryset; `answer` is what the database answers. -/
def Listing.respond (l : Listing α β) (pageSize : Nat) (query : List (String × String))
    (answer : List α) : View (Listed β) (Response (Listed β)) := do
  match ← paginate pageSize query answer with
  | some page => .ok ⟨200, .data (.page { page with results := page.results.map l.serialize })⟩
  | none => .ok ⟨200, .data (.all (answer.map l.serialize))⟩

/-- A request to a list endpoint: `view` is what its checks let it see. -/
def listRequest (view : View (Listed β) (Listing α β)) (pageSize : Nat)
    (query : List (String × String)) (answer : List α) : View (Listed β) (Response (Listed β)) := do
  checkFormat query
  let l ← view
  l.respond pageSize query answer

/-- The rows a client finds in a response. -/
def listedIn : View (Listed β) (Response (Listed β)) → List β
  | .ok ⟨_, .data listed⟩ => listed.results
  | _ => []

/-- `Paginator.num_pages`. -/
def Listing.numPages (l : Listing α β) (pageSize : Nat) : Nat :=
  max 1 ((l.rows.length + pageSize - 1) / pageSize)

/-- What a client has that sends the first `m` of its requests. -/
def collected (view : View (Listed β) (Listing α β)) (pageSize m : Nat)
    (queries : Nat → List (String × String)) (answers : Nat → List α) : List β :=
  (List.range m).flatMap fun k => listedIn (listRequest view pageSize (queries k) (answers k))

end View

/-! ## The four endpoints -/

/-- `OrganizationViewSet.get_queryset`, with the caller's role. -/
def annotatedOrganizations (db : Db) (user : Nat) : List (Row Organization × Role) :=
  (organizationsOf db user).filterMap fun o =>
    (membershipIn db user o.id).map fun m => (o, m.val.role)

/-- `org.memberships`. -/
def membersOf (db : Db) (org : Nat) : List (Row Membership) :=
  db.memberships.select (·.val.organization == org)

/-- `org.invitations`. -/
def invitationsOf (db : Db) (org : Nat) : List (Row Invitation) :=
  db.invitations.select (·.val.organization == org)

/-- `ordering = ["name"]`, by the collation of the database. -/
def byName (collation : Ranking String) : Ranking (Row Organization × Role) :=
  collation.comap fun o => o.1.val.name

/-- `ordering = ["organization_id", "user_id"]`. -/
def byOrganizationAndUser : Ranking (Row Membership) :=
  (Ranking.ascending (·.val.organization)).thenBy (.ascending (·.val.user))

/-- `ordering = ["-created_at"]`. -/
def invitationsNewestFirst : Ranking (Row Invitation) :=
  (Ranking.ascending (·.val.createdAt)).reversed

/-- `ordering = ["-created_at"]`. -/
def projectsNewestFirst : Ranking (Row Project) := (Ranking.ascending (·.val.createdAt)).reversed

section Distinct

variable {ρ β : Type}

/-- What shows the key of a row tells the rows of a table apart. -/
theorem nodup_serialize {t : Table ρ} {p : Row ρ → Bool} {serialize : Row ρ → β} (id : β → Nat)
    (h : ∀ r, id (serialize r) = r.id) : ((t.select p).map serialize).Nodup := by
  refine List.Nodup.of_map id ?_
  rw [List.map_map]
  have hid : (id ∘ serialize) = Row.id := funext h
  rw [hid]
  exact t.nodup_ids.sublist (List.filter_sublist.map Row.id)

theorem fst_annotatedOrganizations (db : Db) (user : Nat) :
    (annotatedOrganizations db user).map Prod.fst = organizationsOf db user := by
  unfold annotatedOrganizations organizationsOf Table.select
  induction db.organizations.rows with
  | nil => rfl
  | cons o rows ih =>
      rw [List.filter_cons]
      cases hm : membershipIn db user o.id with
      | none => simpa using ih
      | some m => simpa [List.filterMap_cons, hm] using ih

theorem nodup_annotatedOrganizations (db : Db) (user : Nat) :
    ((annotatedOrganizations db user).map fun o => Organization.serialize o.1 o.2).Nodup := by
  refine List.Nodup.of_map OrganizationData.id ?_
  have hids : (annotatedOrganizations db user).map (Row.id ∘ Prod.fst) =
      (organizationsOf db user).map Row.id := by
    rw [← fst_annotatedOrganizations, List.map_map]
  rw [List.map_map]
  show ((annotatedOrganizations db user).map (Row.id ∘ Prod.fst)).Nodup
  rw [hids]
  exact db.organizations.nodup_ids.sublist (List.filter_sublist.map Row.id)

end Distinct

/-- `OrganizationViewSet.list`. -/
def organizationListing (collation : Ranking String) (db : Db) (user : Nat) :
    View (Listed OrganizationData) (Listing (Row Organization × Role) OrganizationData) :=
  .ok {
    rows := annotatedOrganizations db user
    ranking := byName collation
    serialize := fun o => Organization.serialize o.1 o.2
    distinct := nodup_annotatedOrganizations db user }

/-- `OrganizationViewSet.members`. -/
def memberListing (db : Db) (user : Nat) (pk : String) :
    View (Listed MembershipData) (Listing (Row Membership) MembershipData) := do
  let (org, _) ← getOrganization db user pk
  .ok {
    rows := membersOf db org.id
    ranking := byOrganizationAndUser
    serialize := Membership.serialize db
    distinct := nodup_serialize MembershipData.id fun _ => rfl }

/-- `OrganizationViewSet.invitations`, GET. -/
def invitationListing (db : Db) (user : Nat) (pk : String) :
    View (Listed InvitationData) (Listing (Row Invitation) InvitationData) := do
  let (org, role) ← getOrganization db user pk
  require (managerRoles.contains role)
    (forbidden "Only an owner or admin can manage invitations.")
  .ok {
    rows := invitationsOf db org.id
    ranking := invitationsNewestFirst
    serialize := Invitation.serialize
    distinct := nodup_serialize InvitationData.id fun _ => rfl }

/-- `ProjectViewSet.list`. -/
def projectListing (db : Db) (user : Nat) (header : Option String) :
    View (Listed ProjectData) (Listing (Row Project) ProjectData) := do
  let membership ← orElse (isOrganizationMember db user header) (forbidden notAMemberMessage)
  .ok {
    rows := projectsOf db membership.val.organization
    ranking := projectsNewestFirst
    serialize := Project.serialize
    distinct := nodup_serialize ProjectData.id fun _ => rfl }

/-! ## All pages -/

section Pages

variable {α β : Type} {view : View (Listed β) (Listing α β)} {pageSize : Nat}
  {queries : Nat → List (String × String)} {l : Listing α β}

/-- The requests ask for page 1, page 2, and so on. -/
def AskInTurn (view : View (Listed β) (Listing α β)) (pageSize : Nat)
    (queries : Nat → List (String × String)) : Prop :=
  ∀ l, view = .ok l → ∀ k < l.numPages pageSize,
    checkFormat (β := Listed β) (queries k) = .ok () ∧
      pageNumber (queries k) (l.numPages pageSize) = some ((k + 1 : Nat) : Int)

/-- Whatever the database answers to each of them, together they have every row once. -/
def ReadEveryRow (view : View (Listed β) (Listing α β)) (pageSize : Nat)
    (queries : Nat → List (String × String)) : Prop :=
  ∀ l, view = .ok l → ∀ answers : Nat → List α, (∀ k, l.ranking.Orders l.rows (answers k)) →
    (collected view pageSize (l.numPages pageSize) queries answers).Perm (l.rows.map l.serialize)

/-- No page ends among rows that the ordering leaves tied. -/
def NoTieAcrossPages (view : View (Listed β) (Listing α β)) (pageSize : Nat) : Prop :=
  ∀ l, view = .ok l → ¬l.ranking.Straddles l.rows pageSize

/-- **What a page shows.** -/
theorem listedIn_page (hview : view = .ok l) (hsize : 0 < pageSize) {query : List (String × String)}
    {k : Nat} (hk : k < l.numPages pageSize) (hformat : checkFormat (β := Listed β) query = .ok ())
    (hpage : pageNumber query (l.numPages pageSize) = some ((k + 1 : Nat) : Int)) {answer : List α}
    (hanswer : answer.length = l.rows.length) :
    listedIn (listRequest view pageSize query answer) =
      (Paging.page pageSize k answer).map l.serialize := by
  subst hview
  have hpositive : (pageSize == 0) = false := beq_false_of_ne (by omega)
  have hnum : max 1 ((answer.length + pageSize - 1) / pageSize) = l.numPages pageSize := by
    rw [hanswer, Listing.numPages]
  have hrange : (decide (((k + 1 : Nat) : Int) < 1) ||
      decide ((l.numPages pageSize : Int) < ((k + 1 : Nat) : Int))) = false := by
    rw [Bool.or_eq_false_iff, decide_eq_false_iff_not, decide_eq_false_iff_not]
    omega
  simp only [listRequest, hformat, ok_bind, Listing.respond, paginate, hpositive, hnum, hpage,
    hrange, Bool.false_eq_true, if_false, listedIn, Listed.results, Int.toNat_natCast,
    Nat.add_sub_cancel, Paging.page]

theorem listedIn_all (hview : view = .ok l) {query : List (String × String)}
    (hformat : checkFormat (β := Listed β) query = .ok ()) (answer : List α) :
    listedIn (listRequest view 0 query answer) = answer.map l.serialize := by
  subst hview
  simp only [listRequest, hformat, ok_bind, Listing.respond, paginate, beq_self_eq_true, if_true,
    listedIn, Listed.results]

theorem length_le_numPages (l : Listing α β) (hsize : 0 < pageSize) :
    l.rows.length ≤ l.numPages pageSize * pageSize := by
  have hdiv := Nat.div_add_mod (l.rows.length + pageSize - 1) pageSize
  have hmod := Nat.mod_lt (l.rows.length + pageSize - 1) hsize
  refine Nat.le_trans ?_ (Nat.mul_le_mul_right pageSize (Nat.le_max_right 1 _))
  rw [Nat.mul_comm]
  omega

theorem collected_eq (hview : view = .ok l) (hsize : 0 < pageSize)
    (hqueries : AskInTurn view pageSize queries) {answers : Nat → List α}
    (hanswers : ∀ k, l.ranking.Orders l.rows (answers k)) :
    collected view pageSize (l.numPages pageSize) queries answers =
      (Paging.pages pageSize (l.numPages pageSize) answers).map l.serialize := by
  rw [collected, Paging.pages, List.map_flatMap]
  refine List.flatMap_congr fun k hk => ?_
  have hk := List.mem_range.mp hk
  obtain ⟨hformat, hpage⟩ := hqueries l hview k hk
  exact listedIn_page hview hsize hk hformat hpage (hanswers k).perm.length_eq

/-- **When reading all pages shows every row once**, whatever the database answers. -/
theorem readEveryRow_iff (hqueries : AskInTurn view pageSize queries) :
    ReadEveryRow view pageSize queries ↔ NoTieAcrossPages view pageSize := by
  refine forall_congr' fun l => forall_congr' fun hview => ?_
  rcases Nat.eq_zero_or_pos pageSize with rfl | hsize
  · -- pagination is off: one response has all
    have hone : l.numPages 0 = 1 := by simp [Listing.numPages]
    constructor
    · rintro - ⟨k, x, -, hbefore, -⟩
      omega
    · intro _ answers hanswers
      obtain ⟨hformat, -⟩ := hqueries l hview 0 (by omega)
      rw [hone, collected, List.range_one, List.flatMap_singleton, listedIn_all hview hformat]
      exact (hanswers 0).perm.map _
  · have hlength := length_le_numPages l hsize
    constructor
    · intro h hcuts
      obtain ⟨answers, hanswers, hnodup⟩ := exists_pages_not_nodup hcuts hlength
      have hperm := h answers hanswers
      rw [collected_eq hview hsize hqueries hanswers] at hperm
      exact hnodup (List.Nodup.of_map _ (hperm.nodup_iff.mpr l.distinct))
    · intro hcuts answers hanswers
      rw [collected_eq hview hsize hqueries hanswers]
      exact (pages_perm hcuts hlength hanswers).map _

end Pages

/-! ## Projects, as listed -/

section Projects

variable {E : Env} {db : Db}

def Listed.toProjects : Listed ProjectData → ProjectPayload
  | .page p => .page p
  | .all rows => .projects rows

/-- A page does not depend on what the view returns. -/
theorem paginate_of_ok {α β γ : Type} {pageSize : Nat} {query : List (String × String)}
    {rows : List α} {page : Option (Page α)}
    (h : paginate (β := β) pageSize query rows = .ok page) :
    paginate (β := γ) pageSize query rows = .ok page := by
  unfold paginate at h ⊢
  split
  · next hoff =>
    rw [if_pos hoff] at h
    cases h
    rfl
  · next hon =>
    rw [if_neg hon] at h
    simp only at h ⊢
    split at h
    · cases h
    · next n hn =>
      split at h
      · cases h
      · next hrange =>
        cases h
        rw [if_neg hrange]

/-- What `ProjectViewSet` lists is this listing, answered in the order of the environment's scan. -/
theorem listProjects_of_respond {user : Nat} {header : Option String} {l : Listing (Row Project)
    ProjectData} (hl : projectListing db user header = .ok l) {query : List (String × String)}
    {listed : Listed ProjectData}
    (h : l.respond E.pageSize query (newestFirst E l.rows) = .ok ⟨200, .data listed⟩) :
    ∃ m, isOrganizationMember db user header = some m ∧
      listProjects E db m.val.organization query = .ok (⟨200, .data listed.toProjects⟩, db) := by
  obtain ⟨m, hm, hl⟩ := bind_eq_ok.mp hl
  cases hl
  refine ⟨m, orElse_eq_ok.mp hm, ?_⟩
  obtain ⟨page, hpage, h⟩ := bind_eq_ok.mp h
  have hpage := paginate_of_ok (γ := ProjectPayload) hpage
  simp only [listProjects]
  show (paginate E.pageSize query (newestFirst E (projectsOf db m.val.organization)) >>= _) = _
  rw [hpage, ok_bind]
  cases page with
  | none =>
      cases h
      rfl
  | some page =>
      cases h
      rfl

theorem orders_newestFirst (hscan : ∀ rows, (E.scan rows).Perm rows) (rows : List (Row Project)) :
    projectsNewestFirst.Orders rows (newestFirst E rows) := by
  constructor
  · exact (List.perm_insertionSort _ _).trans (hscan rows)
  · have hsorted := List.pairwise_insertionSort
      (fun a b : Row Project => b.val.createdAt ≤ a.val.createdAt) (E.scan rows)
    exact hsorted.imp fun h => decide_eq_true h

end Projects

/-! ## Ties -/

/-- **Members have no ties**: in one organization nobody is a member twice. -/
theorem noTie_members {db : Db} (huniq : UniqUserOrg db) (user : Nat) (pk : String)
    (pageSize : Nat) : NoTieAcrossPages (memberListing db user pk) pageSize := by
  intro l hl
  refine not_straddles_of_distinct (List.Nodup.of_map _ l.distinct) ?_ pageSize
  obtain ⟨⟨org, role⟩, -, hl⟩ := bind_eq_ok.mp hl
  cases hl
  intro x hx y hy hxy hyx
  obtain ⟨⟨hxo, hyo⟩, hxu, hyu⟩ := Ranking.tied_of_thenBy hxy hyx
  simp only [Ranking.ascending, decide_eq_true_eq] at hxo hyo hxu hyu
  exact huniq x (List.mem_of_mem_filter hx) y (List.mem_of_mem_filter hy) (by omega) (by omega)

/-- **When paging loses and repeats nothing.** For members always; for organizations, invitations
and projects exactly if no page ends among rows with one sort key. -/
theorem paging_iff {db : Db} (huniq : UniqUserOrg db) (collation : Ranking String)
    (user pageSize : Nat) (queries : Nat → List (String × String)) :
    (AskInTurn (organizationListing collation db user) pageSize queries →
      (ReadEveryRow (organizationListing collation db user) pageSize queries ↔
        NoTieAcrossPages (organizationListing collation db user) pageSize)) ∧
    (∀ pk, AskInTurn (memberListing db user pk) pageSize queries →
      ReadEveryRow (memberListing db user pk) pageSize queries) ∧
    (∀ pk, AskInTurn (invitationListing db user pk) pageSize queries →
      (ReadEveryRow (invitationListing db user pk) pageSize queries ↔
        NoTieAcrossPages (invitationListing db user pk) pageSize)) ∧
    (∀ header, AskInTurn (projectListing db user header) pageSize queries →
      (ReadEveryRow (projectListing db user header) pageSize queries ↔
        NoTieAcrossPages (projectListing db user header) pageSize)) := by
  refine ⟨readEveryRow_iff, fun pk h => ?_, fun pk => readEveryRow_iff, fun header =>
    readEveryRow_iff⟩
  exact (readEveryRow_iff h).mpr (noTie_members huniq user pk pageSize)

/-! ## Two organizations on two pages -/

def codePointOrder : Ranking String := Ranking.ascending id

/-- Two organizations, both of user 1. -/
def twoOrganizations (first second : String) : Db where
  organizations := (Table.empty.insert ⟨first, "first", some 1, 0⟩).insert
    ⟨second, "second", some 1, 0⟩
  memberships := (Table.empty.insert ⟨1, 1, .owner, 0⟩).insert ⟨1, 2, .owner, 0⟩

/-- `?page=1`, `?page=2`, and so on. -/
def pageQueries (k : Nat) : List (String × String) := [("page", toString (k + 1))]

theorem askInTurn_two (collation : Ranking String) (first second : String) :
    AskInTurn (organizationListing collation (twoOrganizations first second) 1) 1 pageQueries := by
  intro l hl k hk
  cases hl
  have hrows : (annotatedOrganizations (twoOrganizations first second) 1).length = 2 := rfl
  simp only [Listing.numPages, hrows] at hk ⊢
  refine ⟨rfl, ?_⟩
  obtain rfl | rfl : k = 0 ∨ k = 1 := by omega
  · decide
  · decide

/-- Organizations of one name, one on each page. -/
theorem namesakes_lost :
    AskInTurn (organizationListing codePointOrder (twoOrganizations "Acme" "Acme") 1) 1
        pageQueries ∧
      ¬ReadEveryRow (organizationListing codePointOrder (twoOrganizations "Acme" "Acme") 1) 1
        pageQueries := by
  refine ⟨askInTurn_two codePointOrder "Acme" "Acme", fun h => ?_⟩
  rw [readEveryRow_iff (askInTurn_two codePointOrder "Acme" "Acme")] at h
  apply h _ rfl
  refine ⟨1, (⟨1, "Acme", "first", some 1, 0⟩, .owner), ?_, ?_, ?_⟩
  · decide
  · decide
  · decide

theorem different_names_read :
    ReadEveryRow (organizationListing codePointOrder (twoOrganizations "Acme" "Beta") 1) 1
      pageQueries := by
  have huniq : UniqUserOrg (twoOrganizations "Acme" "Beta") := by decide
  refine ((paging_iff huniq codePointOrder 1 1 pageQueries).1
    (askInTurn_two codePointOrder "Acme" "Beta")).mpr ?_
  rintro l hl
  refine not_straddles_of_distinct (List.Nodup.of_map _ l.distinct) ?_ 1
  cases hl
  decide

end Bastiq
