import ElectronicsCart.Core.Alone
import ElectronicsCart.Lib.Forests
import ElectronicsCart.Payments.SavedMethods
import Mathlib.Data.List.Sort

/-!
# Categories

`createCategory`, `updateCategory` and `deleteCategory` of `modules/catalog/services/catalog.service.ts`
with `category.repository.ts`, and what is shown of the categories: the tree of `buildCategoryTree` and
the breadcrumb.  An update asks that its new parent exists, and not that it is not below the category.
-/

namespace ElectronicsCart.Catalog

open Interleaving Relational Forests

open Payments (RecordStatus)

/-- A `categories` row. -/
structure Category where
  id : ℕ
  parentId : Option ℕ := none
  name : String
  slug : String
  description : Option String := none
  sortOrder : ℤ := 0
  iconFileId : Option ℕ := none
  bannerFileId : Option ℕ := none
  status : RecordStatus := .active
  deleted : Bool := false
deriving DecidableEq, Repr

instance : Keyed Category := ⟨Category.id⟩

/-- The constraints of the table in `004_catalog.sql` and `005_catalog_indexes.sql`. -/
structure Constraints (T : Table Category) : Prop where
  fits : ∀ c ∈ T.rows, fitsVarchar 120 c.name = true ∧ fitsVarchar 160 c.slug = true ∧
    fitsInt4 c.sortOrder = true
  /-- `chk_categories_not_self` -/
  notSelf : ∀ c ∈ T.rows, c.parentId ≠ some c.id
  parents : ∀ c ∈ T.rows, ∀ p ∈ c.parentId, (T.find? p).isSome = true
  /-- `uq_categories_slug_active` -/
  slugs : ∀ c ∈ T.rows, ∀ d ∈ T.rows, c.deleted = false → d.deleted = false → c.slug = d.slug →
    c.id = d.id

instance (T : Table Category) : Decidable (Constraints T) :=
  decidable_of_iff
    ((∀ c ∈ T.rows, fitsVarchar 120 c.name = true ∧ fitsVarchar 160 c.slug = true ∧
        fitsInt4 c.sortOrder = true) ∧
      (∀ c ∈ T.rows, c.parentId ≠ some c.id) ∧
      (∀ c ∈ T.rows, ∀ p ∈ c.parentId, (T.find? p).isSome = true) ∧
      ∀ c ∈ T.rows, ∀ d ∈ T.rows, c.deleted = false → d.deleted = false → c.slug = d.slug →
        c.id = d.id)
    ⟨fun h => ⟨h.1, h.2.1, h.2.2.1, h.2.2.2⟩, fun h => ⟨h.fits, h.notSelf, h.parents, h.slugs⟩⟩

structure CategoryStore where
  mediaFiles : List ℕ := []
  categories : Table Category
  valid : Constraints categories

/-- The row, if it is not deleted. -/
def CategoryStore.live (s : CategoryStore) (id : ℕ) : Option Category :=
  (s.categories.find? id).filter fun c => !c.deleted

/-- Writes the table, if the rows satisfy the constraints. -/
def CategoryStore.save (s : CategoryStore) (T : Table Category) : Except Failure CategoryStore :=
  if h : Constraints T then .ok { s with categories := T, valid := h }
  else .error (.constraint "categories")

inductive CategoryCall where
  | findById (id : ℕ)
  | findBySlug (slug : String)
  | create
  | update (id : ℕ) (parentId : Option ℕ)
  | softDelete (id : ℕ)
  | invalidateTaxonomy
  | categoryCreated (id : ℕ) (slug : String)
deriving DecidableEq, Repr

abbrev CategoryInput := Input Unit

abbrev CategoryProg := Prog CategoryCall CategoryInput CategoryStore Failure

structure CreateCategoryDto where
  name : String
  slug : String
  parentId : Option ℕ := none
  description : Option String := none
  iconFileId : Option ℕ := none
  bannerFileId : Option ℕ := none
  sortOrder : Option ℤ := none

/-- `PartialType(CreateCategoryDto)`; the files are not read.  A description may be set to `null`. -/
structure UpdateCategoryDto where
  name : Option String := none
  slug : Option String := none
  parentId : Option ℕ := none
  description : Option (Option String) := none
  sortOrder : Option ℤ := none

/-! ### Writes -/

namespace CategoryRepository

def findById (id : ℕ) : CategoryProg (Option Category) := query (.findById id) fun _ s => s.live id

def findBySlug (slug : String) : CategoryProg (Option Category) :=
  query (.findBySlug slug) fun _ s => s.categories.first? fun c => c.slug == slug && !c.deleted

def insertRow (dto : CreateCategoryDto) (s : CategoryStore) : Except Failure (Category × CategoryStore) := do
  check (dto.iconFileId.all s.mediaFiles.contains && dto.bannerFileId.all s.mediaFiles.contains) "P2025"
  let mk := fun n =>
    { id := n, parentId := dto.parentId, name := dto.name, slug := dto.slug,
      description := dto.description, sortOrder := dto.sortOrder.getD 0,
      iconFileId := dto.iconFileId, bannerFileId := dto.bannerFileId : Category }
  let s' ← s.save (s.categories.insert mk)
  return (mk s.categories.next, s')

def create (dto : CreateCategoryDto) : CategoryProg Category :=
  atomic .create fun _ s => insertRow dto s

def patch (dto : UpdateCategoryDto) (c : Category) : Category :=
  { c with
    name := dto.name.getD c.name
    slug := dto.slug.getD c.slug
    description := dto.description.getD c.description
    sortOrder := dto.sortOrder.getD c.sortOrder
    parentId := dto.parentId.or c.parentId }

theorem key_patch (dto : UpdateCategoryDto) (c : Category) : key (patch dto c) = key c := rfl

def updateRow (id : ℕ) (dto : UpdateCategoryDto) (s : CategoryStore) :
    Except Failure (Category × CategoryStore) := do
  let c ← existing s.categories id
  let s' ← s.save (s.categories.update id (patch dto) (key_patch dto))
  return (patch dto c, s')

def update (id : ℕ) (dto : UpdateCategoryDto) : CategoryProg Category :=
  atomic (.update id dto.parentId) fun _ s => updateRow id dto s

def archive (c : Category) : Category := { c with deleted := true, status := .archived }

theorem key_archive (c : Category) : key (archive c) = key c := rfl

def deleteRow (id : ℕ) (s : CategoryStore) : Except Failure (Unit × CategoryStore) := do
  let _ ← existing s.categories id
  let s' ← s.save (s.categories.update id archive key_archive)
  return ((), s')

def softDelete (id : ℕ) : CategoryProg Unit := atomic (.softDelete id) fun _ s => deleteRow id s

end CategoryRepository

/-- The cache entries are no part of the tables. -/
def invalidateTaxonomy : CategoryProg Unit := Prog.call .invalidateTaxonomy fun _ s => (.ok (), s)

def publishCreated (id : ℕ) (slug : String) : CategoryProg Unit :=
  Prog.call (.categoryCreated id slug) fun _ s => (.ok (), s)

structure CategoryView where
  id : ℕ
  parentId : Option ℕ
  name : String
  slug : String
  description : Option String
  sortOrder : ℤ
  iconFileId : Option ℕ
  bannerFileId : Option ℕ
  status : RecordStatus
deriving DecidableEq, Repr

def mapCategory (c : Category) : CategoryView :=
  ⟨c.id, c.parentId, c.name, c.slug, c.description, c.sortOrder, c.iconFileId, c.bannerFileId,
    c.status⟩

namespace CatalogService

def requireCategory (id : ℕ) : CategoryProg Category := do
  let row ← CategoryRepository.findById id
  Prog.orThrow (.throwApp .notFound "Category not found" 404) row

def assertCategorySlugFree (slug : String) : CategoryProg Unit := do
  let row ← CategoryRepository.findBySlug slug
  Prog.ensure (row.isNone = true) (.throwApp .conflict "Category slug already exists" 409)

/-- `if (dto.parentId) await this.requireCategory(dto.parentId)`. -/
def requireParent : Option ℕ → CategoryProg Unit
  | none => pure ()
  | some p => do let _ ← requireCategory p

def createCategory (dto : CreateCategoryDto) : CategoryProg CategoryView := do
  assertCategorySlugFree dto.slug
  requireParent dto.parentId
  let category ← CategoryRepository.create dto
  invalidateTaxonomy
  publishCreated category.id category.slug
  pure (mapCategory category)

/-- The slug is looked up when it changes. -/
def assertNewSlugFree (existing : Category) : Option String → CategoryProg Unit
  | none => pure ()
  | some slug => if slug ≠ existing.slug then assertCategorySlugFree slug else pure ()

def updateCategory (id : ℕ) (dto : UpdateCategoryDto) : CategoryProg CategoryView := do
  let existing ← requireCategory id
  assertNewSlugFree existing (truthy dto.slug)
  requireParent dto.parentId
  let category ← CategoryRepository.update id dto
  invalidateTaxonomy
  pure (mapCategory category)

def deleteCategory (id : ℕ) : CategoryProg ℕ := do
  let _ ← requireCategory id
  CategoryRepository.softDelete id
  invalidateTaxonomy
  pure id

end CatalogService

inductive CategoryRequest where
  | createCategory (dto : CreateCategoryDto)
  | updateCategory (id : ℕ) (dto : UpdateCategoryDto)
  | deleteCategory (id : ℕ)

def CategoryRequest.prog : CategoryRequest → CategoryProg Unit
  | .createCategory dto => do let _ ← CatalogService.createCategory dto
  | .updateCategory id dto => do let _ ← CatalogService.updateCategory id dto
  | .deleteCategory id => do let _ ← CatalogService.deleteCategory id

/-! ### The tree -/

/-- The fields of a `CategoryTreeNode` beside its children. -/
structure CategoryNode where
  id : ℕ
  name : String
  slug : String
  parentId : Option ℕ
  sortOrder : ℤ
deriving DecidableEq, Repr

def categoryNode (c : Category) : CategoryNode := ⟨c.id, c.name, c.slug, c.parentId, c.sortOrder⟩

/-- `roots` and the lists `children` of the nodes while they are filled. -/
structure Linked where
  roots : List Category := []
  children : ℕ → List Category := fun _ => []

/-- `node.parentId && nodes.has(node.parentId)`. -/
def parentIn (rows : List Category) (node : Category) : Option ℕ :=
  node.parentId.filter fun p => rows.any fun c => c.id == p

def link (rows : List Category) (l : Linked) (node : Category) : Linked :=
  match parentIn rows node with
  | some p => { l with children := Function.update l.children p (l.children p ++ [node]) }
  | none => { l with roots := l.roots ++ [node] }

/-- The comparison of `sortRec`. -/
def precedes (localeCompare : String → String → ℤ) (a b : Category) : Prop :=
  (if a.sortOrder - b.sortOrder ≠ 0 then a.sortOrder - b.sortOrder
    else localeCompare a.name b.name) ≤ 0

instance (localeCompare : String → String → ℤ) : DecidableRel (precedes localeCompare) :=
  fun _ _ => by unfold precedes; infer_instance

def sortedChildren (localeCompare : String → String → ℤ) (l : Linked) (c : Category) : List Category :=
  (l.children c.id).insertionSort (precedes localeCompare)

/-- The roots with what is below them.  No way down from a root is longer than the list of the rows. -/
def buildCategoryTree (localeCompare : String → String → ℤ) (rows : List Category) :
    List (RoseTree CategoryNode) :=
  let l := rows.foldl (link rows) {}
  (l.roots.insertionSort (precedes localeCompare)).map
    (expand categoryNode (sortedChildren localeCompare l) rows.length)

/-- `ORDER BY sort_order, name`; what these leave tied comes as the database likes. -/
def listActive (collates : String → String → Bool) (rank : ℕ → ℕ) (s : CategoryStore) : List Category :=
  (s.categories.rows.filter fun c => !c.deleted && c.status == .active).insertionSort fun a b =>
    a.sortOrder < b.sortOrder ∨ a.sortOrder = b.sortOrder ∧
      (collates a.name b.name = true ∨ collates b.name a.name = false ∧ rank a.id ≤ rank b.id)

/-! ### The breadcrumb -/

/-- The loop of `breadcrumb`, which has so many turns left. -/
def climb : ℕ → Option Category → List Category → CategoryProg (List Category)
  | 0, _, chain => pure chain
  | _ + 1, none, chain => pure chain
  | left + 1, some current, chain =>
    match current.parentId with
    | none => pure (current :: chain)
    | some p => do
      let next ← CategoryRepository.findById p
      climb left next (current :: chain)

def breadcrumb (categoryId : ℕ) : CategoryProg (List Category) := do
  let current ← CategoryRepository.findById categoryId
  climb 8 current []

/-! ### Parents -/

/-- The parent of a category that is not deleted, if it is not deleted either. -/
def parentOf (s : CategoryStore) (id : ℕ) : Option ℕ :=
  ((s.live id).bind Category.parentId).filter fun p => (s.live p).isSome

/-- A parent that an update names is not below the category. -/
def Upward (l : CategoryCall) (_ : CategoryInput) (s : CategoryStore) : Prop :=
  match l with
  | .update id (some p) => ¬ Below (parentOf s) p id
  | _ => True

variable {s s' : CategoryStore} {T : Table Category} {c d : Category} {id p : ℕ}
  {dto : CreateCategoryDto} {changes : UpdateCategoryDto}

theorem save_eq_ok (h : s.save T = .ok s') : s'.categories = T := by
  unfold CategoryStore.save at h
  split at h
  · cases h
    rfl
  · cases h

theorem live_eq_some : s.live id = some c ↔ c ∈ s.categories.rows ∧ c.id = id ∧ c.deleted = false := by
  rw [CategoryStore.live, Option.filter_eq_some_iff, Table.find?_eq_some_iff]
  simp [key, and_assoc]

theorem parentOf_eq_some : parentOf s id = some p ↔
    (∃ c, s.live id = some c ∧ c.parentId = some p) ∧ (s.live p).isSome = true := by
  rw [parentOf, Option.filter_eq_some_iff, Option.bind_eq_some_iff]

theorem live_lt (h : (s.live id).isSome = true) : id < s.categories.next := by
  obtain ⟨c, hc⟩ := Option.isSome_iff_exists.mp h
  obtain ⟨hm, rfl, -⟩ := live_eq_some.mp hc
  exact s.categories.fresh c hm

theorem not_self (s : CategoryStore) (id : ℕ) : parentOf s id ≠ some id := by
  intro h
  obtain ⟨⟨c, hc, hp⟩, -⟩ := parentOf_eq_some.mp h
  obtain ⟨hm, rfl, -⟩ := live_eq_some.mp hc
  exact s.valid.notSelf c hm hp

theorem parentOf_congr (hlive : ∀ j, (s'.live j).isSome = (s.live j).isSome)
    (h : (s'.live id).bind Category.parentId = (s.live id).bind Category.parentId) :
    parentOf s' id = parentOf s id := by
  rw [parentOf, parentOf, h]
  congr 1
  funext p
  exact hlive p

/-! ### What the writes do to the parents -/

theorem acyclic_insert (h : CategoryRepository.insertRow dto s = .ok (c, s'))
    (hs : Acyclic (parentOf s)) : Acyclic (parentOf s') := by
  simp only [CategoryRepository.insertRow, bind_eq_ok, pure_eq_ok, Prod.mk.injEq] at h
  obtain ⟨-, -, t, ht, -, rfl⟩ := h
  have hT := save_eq_ok ht
  have hlive : ∀ j, j ≠ s.categories.next → t.live j = s.live j := by
    intro j hj
    rw [CategoryStore.live, hT, Table.find?_insert, if_neg hj]
    rfl
  have hother : ∀ j, j ≠ s.categories.next → parentOf t j = parentOf s j := by
    intro j hj
    have hparent : ∀ q ∈ (s.live j).bind Category.parentId, q ≠ s.categories.next := by
      rintro q hq rfl
      obtain ⟨c, hc, hq⟩ := Option.bind_eq_some_iff.mp hq
      have hfound := s.valid.parents c (live_eq_some.mp hc).1 _ hq
      obtain ⟨d, hd⟩ := Option.isSome_iff_exists.mp hfound
      obtain ⟨hm, hid⟩ := Table.find?_mem hd
      exact absurd (s.categories.fresh d hm) (by omega)
    rw [parentOf, parentOf, hlive j hj]
    cases hq : (s.live j).bind Category.parentId with
    | none => rfl
    | some q => rw [Option.filter_some, Option.filter_some, hlive q (hparent q hq)]
  have hnew : parentOf t = Function.update (parentOf s) s.categories.next
      (parentOf t s.categories.next) := by
    funext j
    by_cases hj : j = s.categories.next
    · rw [hj, Function.update_self]
    · rw [Function.update_of_ne hj, hother j hj]
  rw [hnew]
  apply hs.update
  intro p hp
  have hne : p ≠ s.categories.next := by
    rintro rfl
    exact not_self t _ hp
  refine ⟨hne, fun hbelow => ?_⟩
  -- no category has the new one as its parent
  obtain ⟨q, -, hq⟩ := Relation.TransGen.tail'_iff.mp hbelow
  exact absurd (live_lt (parentOf_eq_some.mp hq).2) (lt_irrefl _)

theorem acyclic_update (h : CategoryRepository.updateRow id changes s = .ok (c, s'))
    (hup : ∀ p ∈ changes.parentId, ¬ Below (parentOf s) p id) (hs : Acyclic (parentOf s)) :
    Acyclic (parentOf s') := by
  simp only [CategoryRepository.updateRow, bind_eq_ok, pure_eq_ok, Prod.mk.injEq] at h
  obtain ⟨-, -, t, ht, -, rfl⟩ := h
  have hT := save_eq_ok ht
  have hsame : t.live id = (s.live id).map (CategoryRepository.patch changes) := by
    rw [CategoryStore.live, hT]
    exact Table.filter_find?_update (CategoryRepository.key_patch changes) fun _ => rfl
  have hne : ∀ j, j ≠ id → t.live j = s.live j := by
    intro j hj
    rw [CategoryStore.live, hT, Table.find?_update_ne _ hj]
    rfl
  have hlive : ∀ j, (t.live j).isSome = (s.live j).isSome := by
    intro j
    by_cases hj : j = id
    · rw [hj, hsame, Option.isSome_map]
    · rw [hne j hj]
  have hnew : parentOf t = Function.update (parentOf s) id (parentOf t id) := by
    funext j
    by_cases hj : j = id
    · rw [hj, Function.update_self]
    · rw [Function.update_of_ne hj]
      exact parentOf_congr hlive (by rw [hne j hj])
  cases hp : changes.parentId with
  | none =>
    have hkept : parentOf t = parentOf s := by
      rw [hnew]
      apply Function.update_eq_self_iff.mpr
      apply parentOf_congr hlive
      rw [hsame]
      cases s.live id with
      | none => rfl
      | some c => simp [CategoryRepository.patch, hp]
    rwa [hkept]
  | some p =>
    rw [hnew]
    apply hs.update
    intro q hq
    obtain ⟨⟨c, hc, hcq⟩, -⟩ := parentOf_eq_some.mp hq
    rw [hsame, Option.map_eq_some_iff] at hc
    obtain ⟨d, -, rfl⟩ := hc
    have hpq : p = q := by simpa [CategoryRepository.patch, hp] using hcq
    subst hpq
    refine ⟨?_, hup p hp⟩
    rintro rfl
    exact not_self t _ hq

theorem acyclic_delete {u : Unit} (h : CategoryRepository.deleteRow id s = .ok (u, s'))
    (hs : Acyclic (parentOf s)) : Acyclic (parentOf s') := by
  simp only [CategoryRepository.deleteRow, bind_eq_ok, pure_eq_ok, Prod.mk.injEq] at h
  obtain ⟨-, -, t, ht, -, rfl⟩ := h
  have hT := save_eq_ok ht
  have hlive : ∀ j c, t.live j = some c → s.live j = some c := by
    intro j c hc
    rw [live_eq_some, hT, Table.mem_update] at hc
    obtain ⟨⟨d, hd, rfl⟩, rfl, hdeleted⟩ := hc
    by_cases hid : key d = id
    · rw [if_pos hid] at hdeleted
      cases hdeleted
    · rw [if_neg hid] at hdeleted ⊢
      exact live_eq_some.mpr ⟨hd, rfl, hdeleted⟩
  apply hs.mono
  intro a b hab
  obtain ⟨⟨c, hc, hp⟩, hb⟩ := parentOf_eq_some.mp hab
  obtain ⟨d, hd⟩ := Option.isSome_iff_exists.mp hb
  exact parentOf_eq_some.mpr ⟨⟨c, hlive a c hc, hp⟩, by rw [hlive b d hd]; rfl⟩

/-! ### Every schedule -/

/-- A program that closes no cycle, if its updates name parents that are not below. -/
abbrev Keeping {α : Type} (p : CategoryProg α) : Prop :=
  p.Every (fun l i s => Upward l i s ∧ Acyclic (parentOf s)) fun _ _ _ s' => Acyclic (parentOf s')

theorem keeping_requireCategory (id : ℕ) : Keeping (CatalogService.requireCategory id) :=
  Prog.Every.bind (every_query fun _ _ ho => ho.2) fun _ => Prog.every_orThrow _ _

theorem keeping_slugFree (slug : String) : Keeping (CatalogService.assertCategorySlugFree slug) :=
  Prog.Every.bind (every_query fun _ _ ho => ho.2) fun _ => Prog.every_ensure _ _

theorem keeping_requireParent (parentId : Option ℕ) :
    Keeping (CatalogService.requireParent parentId) := by
  cases parentId with
  | none => trivial
  | some p => exact Prog.Every.bind (keeping_requireCategory p) fun _ => trivial

theorem keeping_invalidate : Keeping invalidateTaxonomy := Prog.every_call fun _ _ ho => ho.2

theorem keeping_create (dto : CreateCategoryDto) : Keeping (CatalogService.createCategory dto) := by
  apply Prog.Every.bind (keeping_slugFree dto.slug)
  intro _
  apply Prog.Every.bind (keeping_requireParent dto.parentId)
  intro _
  apply Prog.Every.bind
  · exact every_atomic (fun _ _ ho => ho.2) fun _ _ _ _ ho _ h => acyclic_insert h ho.2
  · intro category
    apply Prog.Every.bind keeping_invalidate
    intro _
    exact Prog.Every.bind (Prog.every_call fun _ _ ho => ho.2) fun _ => trivial

theorem keeping_newSlugFree (existing : Category) (slug : Option String) :
    Keeping (CatalogService.assertNewSlugFree existing slug) := by
  cases slug with
  | none => trivial
  | some slug =>
    rw [CatalogService.assertNewSlugFree]
    split
    · exact keeping_slugFree slug
    · trivial

theorem keeping_update (id : ℕ) (dto : UpdateCategoryDto) :
    Keeping (CatalogService.updateCategory id dto) := by
  apply Prog.Every.bind (keeping_requireCategory id)
  intro existing
  apply Prog.Every.bind (keeping_newSlugFree existing _)
  intro _
  apply Prog.Every.bind (keeping_requireParent dto.parentId)
  intro _
  apply Prog.Every.bind
  · apply every_atomic (fun _ _ ho => ho.2)
    intro i s c s' ho _ h
    apply acyclic_update h _ ho.2
    intro p hp
    have hup : Upward (.update id dto.parentId) i s := ho.1
    rw [show dto.parentId = some p from hp] at hup
    exact hup
  · intro category
    exact Prog.Every.bind keeping_invalidate fun _ => trivial

theorem keeping_delete (id : ℕ) : Keeping (CatalogService.deleteCategory id) := by
  apply Prog.Every.bind (keeping_requireCategory id)
  intro _
  apply Prog.Every.bind
  · exact every_atomic (fun _ _ ho => ho.2) fun _ _ _ _ ho _ h => acyclic_delete h ho.2
  · intro _
    exact Prog.Every.bind keeping_invalidate fun _ => trivial

theorem keeping_request (q : CategoryRequest) : Keeping q.prog := by
  cases q with
  | createCategory dto => exact Prog.Every.bind (keeping_create dto) fun _ => trivial
  | updateCategory id dto => exact Prog.Every.bind (keeping_update id dto) fun _ => trivial
  | deleteCategory id => exact Prog.Every.bind (keeping_delete id) fun _ => trivial

theorem levels (hs : Acyclic (parentOf s)) (id : ℕ) : ∃ k, AtLevel (parentOf s) k id := by
  apply hs.atLevel (Finset.range s.categories.next)
  intro a b hab
  exact Finset.mem_range.mpr (live_lt (parentOf_eq_some.mp hab).2)

/-! ### What is shown -/

def rowAbove (rows : List Category) (c : Category) : Option Category :=
  (parentIn rows c).bind fun p => rows.find? fun d => d.id == p

theorem foldl_link (rows nodes : List Category) (l : Linked) :
    (nodes.foldl (link rows) l).roots = l.roots ++ nodes.filter (fun c => (parentIn rows c).isNone) ∧
      ∀ p, (nodes.foldl (link rows) l).children p =
        l.children p ++ nodes.filter fun c => parentIn rows c == some p := by
  induction nodes generalizing l with
  | nil => simp
  | cons c nodes ih =>
    obtain ⟨hroots, hchildren⟩ := ih (link rows l c)
    rw [List.foldl_cons, hroots]
    cases hp : parentIn rows c with
    | none =>
      refine ⟨by simp [link, hp], fun p => ?_⟩
      rw [hchildren p]
      simp [link, hp]
    | some q =>
      refine ⟨by simp [link, hp], fun p => ?_⟩
      rw [hchildren p]
      by_cases hq : p = q
      · subst hq
        simp [link, hp]
      · have hq' : ¬ q = p := fun h => hq h.symm
        simp [link, hp, Function.update_of_ne hq, hq']

section Rows

variable {rows : List Category}

theorem rowAbove_iff (hids : (rows.map Category.id).Nodup) (hd : d ∈ rows) :
    rowAbove rows c = some d ↔ parentIn rows c = some d.id := by
  have hfind : rows.find? (fun e => e.id == d.id) = some d := by
    cases h : rows.find? fun e => e.id == d.id with
    | none => exact absurd (List.find?_eq_none.mp h d hd) (by simp)
    | some e =>
      have hid : e.id = d.id := by simpa using List.find?_some h
      rw [List.inj_on_of_nodup_map hids (List.mem_of_find?_eq_some h) hd hid]
  constructor
  · intro h
    obtain ⟨p, hp, hrow⟩ := Option.bind_eq_some_iff.mp h
    have hid : d.id = p := by simpa using List.find?_some hrow
    rw [hp, hid]
  · intro h
    rw [rowAbove, h, Option.bind_some, hfind]

theorem rowAbove_mem (h : rowAbove rows c = some d) : d ∈ rows := by
  obtain ⟨p, -, hrow⟩ := Option.bind_eq_some_iff.mp h
  exact List.mem_of_find?_eq_some hrow

theorem rowAbove_eq_none : rowAbove rows c = none ↔ parentIn rows c = none := by
  rw [rowAbove]
  cases hp : parentIn rows c with
  | none => simp
  | some p =>
    obtain ⟨-, hany⟩ := Option.filter_eq_some_iff.mp hp
    obtain ⟨d, hd, hid⟩ := List.any_eq_true.mp hany
    simp only [Option.bind_some, List.find?_eq_none, reduceCtorEq, iff_false]
    intro h
    exact h d hd hid

theorem sortedChildren_spec (localeCompare : String → String → ℤ)
    (hids : (rows.map Category.id).Nodup) (hd : d ∈ rows) :
    (sortedChildren localeCompare (rows.foldl (link rows) {}) d).Nodup ∧
      ∀ c, c ∈ sortedChildren localeCompare (rows.foldl (link rows) {}) d ↔
        c ∈ rows ∧ rowAbove rows c = some d := by
  have hchildren := (foldl_link rows rows {}).2 d.id
  simp only [List.nil_append] at hchildren
  have hperm := List.perm_insertionSort (precedes localeCompare)
    (rows.filter fun c => parentIn rows c == some d.id)
  rw [sortedChildren, hchildren]
  constructor
  · exact hperm.nodup_iff.mpr (hids.of_map.filter _)
  · intro c
    rw [hperm.mem_iff, List.mem_filter, rowAbove_iff hids hd, beq_iff_eq]

theorem mem_roots (localeCompare : String → String → ℤ) :
    c ∈ (rows.foldl (link rows) {}).roots.insertionSort (precedes localeCompare) ↔
      c ∈ rows ∧ rowAbove rows c = none := by
  rw [List.mem_insertionSort, (foldl_link rows rows {}).1, rowAbove_eq_none]
  simp

theorem buildCategoryTree_whole (localeCompare : String → String → ℤ)
    (hids : (rows.map Category.id).Nodup) (m : ℕ) :
    ((rows.foldl (link rows) {}).roots.insertionSort (precedes localeCompare)).map
        (expand categoryNode (sortedChildren localeCompare (rows.foldl (link rows) {}))
          (rows.length + m)) =
      buildCategoryTree localeCompare rows := by
  have hup : ∀ b c, rowAbove rows b = some c → c ∈ rows := fun _ _ => rowAbove_mem
  apply List.map_congr_left
  intro c hc
  obtain ⟨hm, hroot⟩ := (mem_roots localeCompare).mp hc
  have hlevel : AtLevel (rowAbove rows) 0 c := hroot
  apply expand_enough hup _ hm hlevel (by omega)
  intro d hd e he
  exact ((sortedChildren_spec localeCompare hids hd).2 e).mp he

theorem tree_perm (localeCompare : String → String → ℤ) (hids : (rows.map Category.id).Nodup)
    (hlevels : ∀ c ∈ rows, ∃ k, AtLevel (rowAbove rows) k c) :
    (valuesAll (buildCategoryTree localeCompare rows)).Perm (rows.map categoryNode) := by
  have hup : ∀ b c, rowAbove rows b = some c → c ∈ rows := fun _ _ => rowAbove_mem
  apply valuesAll_forest hids.of_map hup
  · intro c
    cases hc : rowAbove rows c with
    | none => exact ⟨0, hc⟩
    | some d =>
      obtain ⟨k, hk⟩ := hlevels d (rowAbove_mem hc)
      exact ⟨k + 1, d, hc, hk⟩
  · refine (List.perm_insertionSort _ _).trans ?_
    rw [(foldl_link rows rows {}).1]
    apply List.Perm.of_eq
    apply List.filter_congr
    intro c _
    rw [Bool.eq_iff_iff, Option.isNone_iff_eq_none, Option.isNone_iff_eq_none, rowAbove_eq_none]
  · exact fun d hd => sortedChildren_spec localeCompare hids hd

end Rows

section Active

variable {collates : String → String → Bool} {rank : ℕ → ℕ}

theorem mem_listActive : c ∈ listActive collates rank s ↔
    c ∈ s.categories.rows ∧ c.deleted = false ∧ c.status = .active := by
  simp [listActive]

theorem listActive_ids : ((listActive collates rank s).map Category.id).Nodup := by
  have hperm := (List.perm_insertionSort (fun a b : Category =>
    a.sortOrder < b.sortOrder ∨ a.sortOrder = b.sortOrder ∧
      (collates a.name b.name = true ∨ collates b.name a.name = false ∧ rank a.id ≤ rank b.id))
    (s.categories.rows.filter fun c => !c.deleted && c.status == .active)).map Category.id
  apply hperm.nodup_iff.mpr
  exact s.categories.nodup.sublist (List.filter_sublist.map _)

theorem parentOf_of_rowAbove (hc : c ∈ listActive collates rank s)
    (h : rowAbove (listActive collates rank s) c = some d) : parentOf s c.id = some d.id := by
  have hd := mem_listActive.mp (rowAbove_mem h)
  have hparent := (rowAbove_iff listActive_ids (rowAbove_mem h)).mp h
  obtain ⟨hcm, hdeleted, -⟩ := mem_listActive.mp hc
  refine parentOf_eq_some.mpr ⟨⟨c, live_eq_some.mpr ⟨hcm, rfl, hdeleted⟩, ?_⟩, ?_⟩
  · exact (Option.filter_eq_some_iff.mp hparent).1
  · rw [live_eq_some.mpr ⟨hd.1, rfl, hd.2.1⟩]
    rfl

theorem active_level {k : ℕ} (hk : AtLevel (parentOf s) k c.id)
    (hc : c ∈ listActive collates rank s) :
    ∃ j, AtLevel (rowAbove (listActive collates rank s)) j c := by
  induction k generalizing c with
  | zero =>
    cases hd : rowAbove (listActive collates rank s) c with
    | none => exact ⟨0, hd⟩
    | some d =>
      have hnone : parentOf s c.id = none := hk
      rw [parentOf_of_rowAbove hc hd] at hnone
      cases hnone
  | succ k ih =>
    cases hd : rowAbove (listActive collates rank s) c with
    | none => exact ⟨0, hd⟩
    | some d =>
      obtain ⟨b, hb, hk⟩ := hk
      rw [parentOf_of_rowAbove hc hd] at hb
      obtain rfl := Option.some.inj hb
      obtain ⟨j, hj⟩ := ih hk (rowAbove_mem hd)
      exact ⟨j + 1, d, hd, hj⟩

theorem tree_once (localeCompare : String → String → ℤ) (hs : Acyclic (parentOf s))
    (hc : c ∈ listActive collates rank s) :
    ((valuesAll (buildCategoryTree localeCompare (listActive collates rank s))).map
      CategoryNode.id).count c.id = 1 := by
  have hlevels : ∀ d ∈ listActive collates rank s,
      ∃ k, AtLevel (rowAbove (listActive collates rank s)) k d := by
    intro d hd
    obtain ⟨k, hk⟩ := levels hs d.id
    exact active_level hk hd
  have hids := (tree_perm localeCompare listActive_ids hlevels).map CategoryNode.id
  rw [List.map_map, show CategoryNode.id ∘ categoryNode = Category.id from rfl] at hids
  rw [hids.count_eq]
  exact List.count_eq_one_of_mem listActive_ids (List.mem_map_of_mem hc)

end Active

theorem climb_path {path : List ℕ} (h : RootPath (parentOf s) path id) (hc : s.live id = some c)
    (chain : List Category) {left : ℕ} (hleft : path.length ≤ left) {inputs : List CategoryInput}
    (hinputs : path.length ≤ inputs.length) (hok : ∀ i ∈ inputs, i.fails = false) :
    ∃ above, (Pool.solo (climb left (some c) chain) s inputs).result? = some (.ok (above ++ chain)) ∧
      above.map Category.id = path ∧ ∀ d ∈ above, s.live d.id = some d := by
  have hid := (live_eq_some.mp hc).2.1
  have hself : s.live c.id = some c := hid ▸ hc
  induction h generalizing c chain left inputs with
  | @root b hb =>
    obtain ⟨left, rfl⟩ : ∃ n, left = n + 1 := ⟨left - 1, by simp at hleft; omega⟩
    refine ⟨[c], ?_, by simp [hid], by simpa using hself⟩
    rw [climb]
    cases hp : c.parentId with
    | none =>
      simp only [pure, Pool.solo_done]
      rfl
    | some p =>
      match inputs with
      | [] => simp at hinputs
      | i :: rest =>
        have hgone : s.live p = none := by
          cases hlive : s.live p with
          | none => rfl
          | some d =>
            have hparent : parentOf s b = some p :=
              parentOf_eq_some.mpr ⟨⟨c, hc, hp⟩, by rw [hlive]; rfl⟩
            rw [hb] at hparent
            cases hparent
        have hend : climb left none (c :: chain) = pure (c :: chain) := by
          cases left <;> rfl
        show (Pool.solo ((query (.findById p) fun _ s => s.live p).bind fun next =>
          climb left next (c :: chain)) s (i :: rest)).result? = _
        rw [solo_queryBind (hok i List.mem_cons_self), hgone, hend]
        simp only [pure, Pool.solo_done]
        rfl
  | @snoc l a b hab hl ih =>
    obtain ⟨left, rfl⟩ : ∃ n, left = n + 1 := ⟨left - 1, by simp at hleft; omega⟩
    obtain ⟨⟨c', hc', hp⟩, ha⟩ := parentOf_eq_some.mp hab
    obtain rfl := Option.some.inj (hc.symm.trans hc')
    obtain ⟨d, hd⟩ := Option.isSome_iff_exists.mp ha
    match inputs with
    | [] => simp at hinputs
    | i :: rest =>
      have hdid := (live_eq_some.mp hd).2.1
      have hshort : l.length ≤ left := by simpa using hleft
      have hrest : l.length ≤ rest.length := by simpa using hinputs
      obtain ⟨above, hres, hids, hrows⟩ := ih hd (c :: chain) hshort hrest
        (fun i hi => hok i (List.mem_cons_of_mem _ hi)) hdid (hdid ▸ hd)
      refine ⟨above ++ [c], ?_, by simp [hids, hid], ?_⟩
      · rw [climb, hp]
        show (Pool.solo ((query (.findById a) fun _ s => s.live a).bind fun next =>
          climb left next (c :: chain)) s (i :: rest)).result? = _
        rw [solo_queryBind (hok i List.mem_cons_self), hd, hres]
        simp
      · intro e he
        rcases List.mem_append.mp he with he | he
        · exact hrows e he
        · obtain rfl := List.mem_singleton.mp he
          exact hself

theorem breadcrumb_path {path : List ℕ} (h : RootPath (parentOf s) path id) (hc : s.live id = some c)
    (hshort : path.length ≤ 8) {inputs : List CategoryInput} (hinputs : 9 ≤ inputs.length)
    (hok : ∀ i ∈ inputs, i.fails = false) :
    ∃ chain, (Pool.solo (breadcrumb id) s inputs).result? = some (.ok chain) ∧
      chain.map Category.id = path ∧ ∀ d ∈ chain, s.live d.id = some d := by
  match inputs with
  | [] => simp at hinputs
  | i :: rest =>
    have hrest : path.length ≤ rest.length := by
      simp at hinputs
      omega
    obtain ⟨above, hres, hids, hrows⟩ := climb_path h hc [] hshort hrest
      fun i hi => hok i (List.mem_cons_of_mem _ hi)
    refine ⟨above, ?_, hids, hrows⟩
    show (Pool.solo ((query (.findById id) fun _ s => s.live id).bind fun current =>
      climb 8 current []) s (i :: rest)).result? = _
    rw [solo_queryBind (hok i List.mem_cons_self), hc, hres, List.append_nil]

/-- No cycles, every active category once in the tree, and each breadcrumb of at most eight levels the
path down to its category. -/
structure Navigable (s : CategoryStore) : Prop where
  acyclic : Acyclic (parentOf s)
  tree : ∀ localeCompare collates rank, ∀ c ∈ s.categories.rows, c.deleted = false →
    c.status = .active →
      ((valuesAll (buildCategoryTree localeCompare (listActive collates rank s))).map
        CategoryNode.id).count c.id = 1
  breadcrumb : ∀ id, (s.live id).isSome = true → ∃ path, RootPath (parentOf s) path id ∧ path.Nodup ∧
    (path.length ≤ 8 → ∀ inputs : List CategoryInput, 9 ≤ inputs.length →
      (∀ i ∈ inputs, i.fails = false) →
        ∃ chain, (Pool.solo (breadcrumb id) s inputs).result? = some (.ok chain) ∧
          chain.map Category.id = path ∧ ∀ d ∈ chain, s.live d.id = some d)

theorem navigable_of_acyclic (hs : Acyclic (parentOf s)) : Navigable s where
  acyclic := hs
  tree := by
    intro localeCompare collates rank c hc hdeleted hactive
    exact tree_once localeCompare hs (mem_listActive.mpr ⟨hc, hdeleted, hactive⟩)
  breadcrumb := by
    intro id hid
    obtain ⟨c, hc⟩ := Option.isSome_iff_exists.mp hid
    obtain ⟨k, hk⟩ := levels hs id
    obtain ⟨path, hpath, -⟩ := hk.rootPath
    refine ⟨path, hpath, hpath.nodup, ?_⟩
    intro hshort inputs hinputs hok
    exact breadcrumb_path hpath hc hshort hinputs hok

def requests (qs : List CategoryRequest) (s : CategoryStore) :
    Pool CategoryCall CategoryInput CategoryStore Failure Unit :=
  ⟨qs.map CategoryRequest.prog, s⟩

/-- If no update names a parent that is below its category, the categories stay a forest and are
shown as one. -/
theorem categories_navigable (qs : List CategoryRequest) (s : CategoryStore)
    (sched : List (ℕ × CategoryInput)) (hs : Acyclic (parentOf s))
    (hok : (requests qs s).Admits Upward sched) :
    Navigable ((requests qs s).run sched).state := by
  have hkeeping : ∀ t ∈ (requests qs s).threads, Keeping t := by
    intro t ht
    obtain ⟨q, -, rfl⟩ := List.mem_map.mp ht
    exact keeping_request q
  exact navigable_of_acyclic (Pool.inv_run hkeeping hs hok)

def noCategories : CategoryStore where
  categories := .empty
  valid := by decide

/-- Two categories, of which the second is put below the first, and then the third call. -/
def nested (last : CategoryRequest) : List CategoryRequest :=
  [.createCategory { name := "Laptops", slug := "laptops" },
    .createCategory { name := "Gaming", slug := "gaming", parentId := some 0 }, last]

def inTurn : List (ℕ × CategoryInput) :=
  ([0, 0, 0, 0] ++ [1, 1, 1, 1, 1] ++ [2, 2, 2, 2, 2]).map fun j => (j, { reply := () })

theorem acyclic_noCategories : Acyclic (parentOf noCategories) := by
  intro a h
  obtain ⟨b, hb, -⟩ := Relation.TransGen.head'_iff.mp h
  cases hb

def NamesRoot (l : CategoryCall) (_ : CategoryInput) (s : CategoryStore) : Prop :=
  match l with
  | .update _ (some p) => parentOf s p = none
  | _ => True

instance (l : CategoryCall) (i : CategoryInput) (s : CategoryStore) : Decidable (NamesRoot l i s) := by
  unfold NamesRoot
  split <;> infer_instance

theorem upward_of_namesRoot (l : CategoryCall) (i : CategoryInput) (s : CategoryStore)
    (h : NamesRoot l i s) : Upward l i s := by
  unfold NamesRoot at h
  unfold Upward
  split
  next id p =>
    intro hbelow
    obtain ⟨q, hq, -⟩ := Relation.TransGen.head'_iff.mp hbelow
    cases h.symm.trans hq
  next => trivial

/-- The second category is renamed, and put below the first again. -/
theorem categories_navigable_renamed :
    let qs := nested (.updateCategory 1 { name := some "Gaming laptops", parentId := some 0 })
    let t := ((requests qs noCategories).run inTurn).state
    t.categories.rows.length = 2 ∧ Navigable t := by
  refine ⟨by decide +kernel, ?_⟩
  apply categories_navigable _ _ _ acyclic_noCategories
  exact Pool.admits_mono upward_of_namesRoot (by decide +kernel)

/-- The first category is put below the second, which is below the first. -/
theorem category_below_itself :
    ¬ ∀ (qs : List CategoryRequest) (s : CategoryStore) (sched : List (ℕ × CategoryInput)),
      Acyclic (parentOf s) → Navigable ((requests qs s).run sched).state := by
  intro h
  let t := ((requests (nested (.updateCategory 0 { parentId := some 1 })) noCategories).run
    inTurn).state
  have hnavigable : Navigable t := h _ _ _ acyclic_noCategories
  have hdown : parentOf t 0 = some 1 := by decide +kernel
  have hup : parentOf t 1 = some 0 := by decide +kernel
  exact hnavigable.acyclic 0 (.tail (.single hdown) hup)

end ElectronicsCart.Catalog
