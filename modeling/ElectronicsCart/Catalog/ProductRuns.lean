import ElectronicsCart.Catalog.Products

/-!
# What a cached page says

Between a write and the end of its request the entries under the names that it deletes may be old; all
others show the product as it is.  That holds as long as a product is cached under no name that its
next write leaves alone.
-/

namespace ElectronicsCart.Catalog

open Interleaving Relational

variable {π : Type}

/-! ### Entries -/

def Describes (s : Storefront π) (p : Product) (d : ProductDetail π) : Prop :=
  (∃ rank, d.product = mapProductDetail (productInclude rank s p)) ∧
    ∃ rank, d.seo = seoView (findSeo rank s p) p

/-- The page is of the active product that is found by the name. -/
def Current (s : Storefront π) (name : ProductName) (d : ProductDetail π) : Prop :=
  ∃ p, lookup s name = some p ∧ p.status = .active ∧ Describes s p d

/-- No slug of a product that is not deleted has the form of a UUID. -/
def PlainSlugs (s : Storefront π) : Prop :=
  ∀ p ∈ s.products.rows, p.deleted = false → ∃ t, p.slug = .text t

/-- The entries are current, but for those that the request is about to delete. -/
structure Kept (due : List ProductName) (s : Storefront π) : Prop where
  entries : ∀ e ∈ s.cache, e.1 ∈ due ∨ Current s e.1 e.2
  plain : PlainSlugs s

/-- A write finds no entry of its product under a name that its request does not delete, gives no slug
the form of a UUID, and is followed by the deletions of what is there to delete. -/
def Thorough (c : ProductCall) (i : CategoryInput) (s : Storefront π) : Prop :=
  match c with
  | .createProduct slug => i.fails = true ∨ ∃ t, slug = .text t
  | .writeProduct id slug due =>
    i.fails = true ∨ (∃ t, slug = .text t) ∧ ∀ e ∈ s.cache, e.2.product.item.id = id → e.1 ∈ due
  | .writeVariant id due => i.fails = true ∨ ∀ e ∈ s.cache, e.2.product.item.id = id → e.1 ∈ due
  | .setAttributeValues ids due =>
    (i.fails = false ∧ (s.attributeValues.filter ids.contains).length = ids.length) ∨
      ∀ e ∈ s.cache, e.1 ∉ due
  | .del (.product name) => i.fails = false ∨ ∀ e ∈ s.cache, e.1 ≠ name
  | _ => True

variable {s s' : Storefront π} {p q : Product} {d : ProductDetail π} {name : ProductName}
  {due : List ProductName} {id : ℕ}

theorem Describes.same_id (h : Describes s p d) : d.product.item.id = p.id := by
  obtain ⟨⟨rank, hd⟩, -⟩ := h
  rw [hd]
  rfl

theorem Describes.variant (h : Describes s p d) {v : VariantView} (hv : v ∈ d.product.variants) :
    ∃ row ∈ s.variants.rows, mapVariant row = v := by
  obtain ⟨⟨rank, hd⟩, -⟩ := h
  rw [hd] at hv
  obtain ⟨row, hrow, rfl⟩ := List.mem_map.mp hv
  have hincluded : row ∈ includedVariants rank s p.id := List.mem_of_mem_filter hrow
  rw [includedVariants, List.mem_insertionSort] at hincluded
  exact ⟨row, List.mem_of_mem_filter hincluded, rfl⟩

theorem findById_eq_some : findById s id = some p ↔
    p ∈ s.products.rows ∧ p.id = id ∧ p.deleted = false := by
  rw [findById, Option.filter_eq_some_iff, Table.find?_eq_some_iff]
  simp [key, and_assoc]

theorem findBySlug_eq_some {slug : ProductName} : findBySlug s slug = some p ↔
    p ∈ s.products.rows ∧ p.slug = slug ∧ p.deleted = false := by
  constructor
  · intro h
    obtain ⟨hm, hp⟩ := Table.first?_mem h
    have hp' : p.slug = slug ∧ p.deleted = false := by simpa using hp
    exact ⟨hm, hp'⟩
  · intro h
    obtain ⟨hm, hslug, hdeleted⟩ := h
    cases hq : findBySlug s slug with
    | none =>
      have hnone := List.find?_eq_none.mp hq p hm
      simp [hslug, hdeleted] at hnone
    | some q =>
      obtain ⟨hqm, hqs⟩ := Table.first?_mem hq
      have hqs' : q.slug = slug ∧ q.deleted = false := by simpa using hqs
      have hid := s.slugs q hqm p hm hqs'.2 hdeleted (hqs'.1.trans hslug.symm)
      rw [Table.eq_of_key_eq hqm hm hid]

def NamedBy (p : Product) : ProductName → Prop
  | .uuid u => p.id = u.id
  | .text t => p.slug = .text t

theorem lookup_eq_some : lookup s name = some p ↔
    p ∈ s.products.rows ∧ NamedBy p name ∧ p.deleted = false := by
  cases name with
  | uuid u => exact findById_eq_some
  | text t => exact findBySlug_eq_some

/-! ### What the writes leave alone -/

/-- The pages of the other products are not touched. -/
structure Touches (id : ℕ) (s s' : Storefront π) : Prop where
  cache : s'.cache = s.cache
  products : ∀ p, p.id ≠ id → (p ∈ s'.products.rows ↔ p ∈ s.products.rows)
  pages : ∀ p d, p.id ≠ id → Describes s p d → Describes s' p d

theorem Touches.current (h : Touches id s s') (hd : d.product.item.id ≠ id)
    (hc : Current s name d) : Current s' name d := by
  obtain ⟨p, hp, hactive, hdescribes⟩ := hc
  obtain ⟨hm, hname, hdeleted⟩ := lookup_eq_some.mp hp
  have hid : p.id ≠ id := hdescribes.same_id ▸ hd
  exact ⟨p, lookup_eq_some.mpr ⟨(h.products p hid).mpr hm, hname, hdeleted⟩, hactive,
    h.pages p d hid hdescribes⟩

theorem Kept.write (hk : Kept [] s) (h : Touches id s s') (hplain : PlainSlugs s')
    (hdue : ∀ e ∈ s.cache, e.2.product.item.id = id → e.1 ∈ due) : Kept due s' where
  entries := by
    intro e he
    rw [h.cache] at he
    by_cases hid : e.2.product.item.id = id
    · exact .inl (hdue e he hid)
    · have hcurrent : Current s e.1 e.2 := by simpa using hk.entries e he
      exact .inr (h.current hid hcurrent)
  plain := hplain

theorem save_ok {T : Table Product} (h : ProductRepository.save T s = .ok s') :
    ∃ hT : SlugsUnique T, s' = { s with products := T, slugs := hT } := by
  unfold ProductRepository.save at h
  split at h
  next hT =>
    cases h
    exact ⟨hT, rfl⟩
  next => cases h

theorem touches_products {T : Table Product} {hT : SlugsUnique T}
    (h : ∀ p, p.id ≠ id → (p ∈ T.rows ↔ p ∈ s.products.rows)) :
    Touches id s { s with products := T, slugs := hT } where
  cache := rfl
  products := h
  pages := fun _ _ _ hd => hd

theorem plain_products {T : Table Product} {hT : SlugsUnique T} (hs : PlainSlugs s)
    (h : ∀ p ∈ T.rows, p ∈ s.products.rows ∨ ∃ t, p.slug = .text t) :
    PlainSlugs { s with products := T, slugs := hT } := by
  intro p hp hdeleted
  rcases h p hp with hm | hslug
  · exact hs p hm hdeleted
  · exact hslug

theorem insertRow_kept {rank : ℕ → ℕ} {dto : CreateProductDto} {row : IncludedProduct}
    (hk : Kept [] s) (hslug : ∃ t, dto.slug = .text t)
    (h : ProductRepository.insertRow rank dto s = .ok (row, s')) : Kept [] s' := by
  simp only [ProductRepository.insertRow, bind_eq_ok, pure_eq_ok, Prod.mk.injEq] at h
  obtain ⟨-, -, t, ht, -, rfl⟩ := h
  obtain ⟨hT, rfl⟩ := save_ok ht
  have htouches : Touches s.products.next s { s with products := _, slugs := hT } := by
    apply touches_products
    intro p hp
    rw [Table.mem_insert]
    constructor
    · intro hm
      rcases hm with hm | rfl
      · exact hm
      · exact absurd rfl hp
    · exact Or.inl
  apply hk.write htouches
  · apply plain_products hk.plain
    intro p hp
    rcases (Table.mem_insert _).mp hp with hm | rfl
    · exact .inl hm
    · exact .inr hslug
  · intro e he hid
    obtain ⟨p, hp, -, hd⟩ : Current s e.1 e.2 := by simpa using hk.entries e he
    have hlt := s.products.fresh p (lookup_eq_some.mp hp).1
    have hpid : key p = s.products.next := hd.same_id.symm.trans hid
    omega

theorem update_kept {g : Product → Product} {hg : ∀ p, key (g p) = key p} {t : Storefront π}
    (hk : Kept [] s) (ht : ProductRepository.save (s.products.update id g hg) s = .ok t)
    (hslug : ∀ p ∈ s.products.rows, p.id = id → (g p).deleted = false → ∃ t, (g p).slug = .text t)
    (hdue : ∀ e ∈ s.cache, e.2.product.item.id = id → e.1 ∈ due) : Kept due t := by
  obtain ⟨hT, rfl⟩ := save_ok ht
  apply hk.write _ _ hdue
  · apply touches_products
    intro p hp
    rw [Table.mem_update]
    constructor
    · rintro ⟨a, ha, rfl⟩
      by_cases hid : key a = id
      · rw [if_pos hid] at hp
        exact absurd ((hg a).trans hid) hp
      · rwa [if_neg hid]
    · intro hm
      exact ⟨p, hm, by rw [if_neg (show ¬ key p = id from hp)]⟩
  · exact Table.forall_update hg (fun a ha hid => hslug a ha hid) fun a ha _ => hk.plain a ha

theorem touches_variants {T : Table ProductVariant}
    (h : ∀ q, q ≠ id → T.rows.filter (fun v => v.productId == q && !v.deleted) =
      s.variants.rows.filter fun v => v.productId == q && !v.deleted) :
    Touches id s { s with variants := T } where
  cache := rfl
  products := fun _ _ => .rfl
  pages := by
    intro p d hp hd
    obtain ⟨⟨rank, hproduct⟩, hseo⟩ := hd
    refine ⟨⟨rank, ?_⟩, hseo⟩
    rw [hproduct, productInclude, productInclude, includedVariants, includedVariants, h p.id hp]

theorem Kept.variants {T : Table ProductVariant} (hk : Kept [] s)
    (h : ∀ q, q ≠ id → T.rows.filter (fun v => v.productId == q && !v.deleted) =
      s.variants.rows.filter fun v => v.productId == q && !v.deleted)
    (hdue : ∀ e ∈ s.cache, e.2.product.item.id = id → e.1 ∈ due) :
    Kept due { s with variants := T } := by
  have hplain : PlainSlugs { s with variants := T } := hk.plain
  exact hk.write (touches_variants h) hplain hdue

theorem insertVariant_kept {dto : CreateVariantDto} {v : ProductVariant} (hk : Kept [] s)
    (hdue : ∀ e ∈ s.cache, e.2.product.item.id = dto.productId.id → e.1 ∈ due)
    (h : VariantRepository.insertRow dto s = .ok (v, s')) : Kept due s' := by
  simp only [VariantRepository.insertRow, bind_eq_ok, pure_eq_ok, Prod.mk.injEq] at h
  obtain ⟨-, -, -, -, -, rfl⟩ := h
  refine hk.variants ?_ hdue
  intro q hq
  have hne : (dto.productId.id == q) = false := beq_false_of_ne hq.symm
  simp only [Table.insert, List.filter_append, List.filter_cons, hne, Bool.false_and, List.filter_nil]
  simp

theorem updateVariant_kept {g : ProductVariant → ProductVariant} {hg : ∀ v, key (g v) = key v}
    {variantId : ℕ} (hproduct : ∀ v, (g v).productId = v.productId)
    (hv : ∀ v ∈ s.variants.rows, v.id = variantId → v.productId = id) (hk : Kept [] s)
    (hdue : ∀ e ∈ s.cache, e.2.product.item.id = id → e.1 ∈ due) :
    Kept due { s with variants := s.variants.update variantId g hg } := by
  refine hk.variants ?_ hdue
  intro q hq
  rw [Table.rows_update, List.filter_map]
  have hsame : ∀ v ∈ s.variants.rows, ((fun v : ProductVariant => v.productId == q && !v.deleted) ∘
      fun v => if key v = variantId then g v else v) v = (v.productId == q && !v.deleted) := by
    intro v hm
    by_cases hid : key v = variantId
    · have hne : (v.productId == q) = false := by
        rw [hv v hm hid]
        exact beq_false_of_ne hq.symm
      simp [hid, hproduct, hne]
    · simp [hid]
  rw [List.filter_congr hsame]
  apply (List.map_congr_left _).trans (List.map_id _)
  intro v hm
  have hne : key v ≠ variantId := by
    intro hid
    obtain ⟨hmem, hfilter⟩ := List.mem_filter.mp hm
    simp only [Bool.and_eq_true, beq_iff_eq] at hfilter
    exact hq (hfilter.1.symm.trans (hv v hmem hid))
  simp [hne]

/-! ### The cache -/

open CatalogCacheService

theorem mem_drop {e : ProductName × ProductDetail π} :
    e ∈ (drop name s).cache ↔ e ∈ s.cache ∧ e.1 ≠ name := by
  simp [drop]

theorem drop_of_absent (h : ∀ e ∈ s.cache, e.1 ≠ name) : drop name s = s := by
  have hall : s.cache.filter (fun e => e.1 != name) = s.cache := by simpa using h
  rw [drop, hall]

theorem mem_of_entry (h : entry name s = some d) : (name, d) ∈ s.cache := by
  obtain ⟨e, he, rfl⟩ := Option.map_eq_some_iff.mp h
  have hname : e.1 = name := by simpa using List.find?_some he
  exact hname ▸ List.mem_of_find?_eq_some he

theorem Kept.drop (hk : Kept due s) : Kept (due.filter fun n => n != name) (drop name s) where
  entries := by
    intro e he
    obtain ⟨hm, hne⟩ := mem_drop.mp he
    rcases hk.entries e hm with hdue | hcurrent
    · exact .inl (List.mem_filter.mpr ⟨hdue, by simpa using hne⟩)
    · exact .inr hcurrent
  plain := hk.plain

theorem Kept.put (hk : Kept [] s) (hd : Current s name d) : Kept [] (put name d s) where
  entries := by
    intro e he
    rcases List.mem_cons.mp he with rfl | he
    · exact .inr hd
    · exact hk.entries e (mem_drop.mp he).1
  plain := hk.plain

theorem Kept.mono {due' : List ProductName} (hk : Kept due s) (h : ∀ n ∈ due, n ∈ due') :
    Kept due' s where
  entries := fun e he => (hk.entries e he).imp_left (h e.1)
  plain := hk.plain

theorem Kept.of_absent (hk : Kept due s) (h : ∀ e ∈ s.cache, e.1 ∉ due) : Kept [] s where
  entries := fun e he => .inr ((hk.entries e he).resolve_left (h e he))
  plain := hk.plain

/-! ### Programs that read -/

variable {α β : Type} {Q : Except Failure α → Storefront π → Prop}

abbrev Reads (p : ProductProg π α) : Prop := p.Every (fun _ _ _ => True) fun _ _ t t' => t' = t

theorem alone_readBind {p : ProductProg π β} {k : β → ProductProg π α} (hp : Reads p)
    (hk : ∀ b, Alone Thorough Q (k b) s) (herr : ∀ e, Q (.error e) s) :
    Alone Thorough Q (p.bind k) s := by
  apply Alone.bind (Alone.reading hp)
  · rintro b t rfl
    exact hk b
  · rintro e t rfl
    exact herr e

theorem reads_onCategories {p : CategoryProg α}
    (hp : p.Every (fun _ _ _ => True) fun _ _ t t' => t' = t) :
    Reads (onCategories p : ProductProg π α) := by
  have hzoom : (onCategories p : ProductProg π α).Every (fun _ _ _ => True) fun m i t t' =>
      ∃ l c, m = ProductCall.category l ∧ c = t.categories ∧ t' = { t with categories := c } :=
    hp.zoom fun _ _ _ _ => trivial
  refine hzoom.mono ?_
  rintro m i t t' - ⟨l, c, -, rfl, rfl⟩
  rfl

theorem reads_requireBrand (id : ℕ) : Reads (CatalogService.requireBrand id : ProductProg π Brand) :=
  Prog.Every.bind (every_query fun _ _ _ => rfl) fun _ => Prog.every_orThrow _ _

theorem reads_requireCategory (id : ℕ) :
    Reads (CatalogService.requireProductCategory id : ProductProg π Category) := by
  apply reads_onCategories
  exact Prog.Every.bind (every_query fun _ _ _ => rfl) fun _ => Prog.every_orThrow _ _

theorem reads_slugFree (slug : ProductName) :
    Reads (CatalogService.assertProductSlugFree slug : ProductProg π Unit) :=
  Prog.Every.bind (every_query fun _ _ _ => rfl) fun _ => Prog.every_ensure _ _

theorem reads_skuFree (sku : String) : Reads (CatalogService.assertSkuFree sku : ProductProg π Unit) :=
  Prog.Every.bind (every_query fun _ _ _ => rfl) fun _ => Prog.every_ensure _ _

theorem reads_whenGiven {o : Option α} {f : α → ProductProg π β} (hf : ∀ a, Reads (f a)) :
    Reads (CatalogService.whenGiven o f) := by
  cases o with
  | none => trivial
  | some a => exact Prog.Every.bind (hf a) fun _ => trivial

theorem alone_requireProduct {k : Product → ProductProg π α}
    (hk : ∀ p, findById s id = some p → Alone Thorough Q (k p) s) (herr : ∀ e, Q (.error e) s) :
    Alone Thorough Q ((CatalogService.requireProduct id).bind k) s := by
  simp only [CatalogService.requireProduct, Prog.bind_eq, Prog.bind_assoc]
  apply Alone.queryBind
  · intro i _ _
    exact Alone.orThrowBind hk fun _ => herr _
  · exact fun _ _ _ => herr _

/-! ### Writes -/

/-- A request that leaves no old entry. -/
abbrev Cleans (p : ProductProg π α) (s : Storefront π) : Prop := Alone Thorough (fun _ t => Kept [] t) p s

theorem alone_delPage {k : Unit → ProductProg π α} (h : Alone Thorough Q (k ()) (drop name s)) :
    Alone Thorough Q ((del (.product name)).bind k) s := by
  apply Alone.callBind
  intro i hi
  refine ⟨fun _ _ => ?_, fun e he => nomatch he⟩
  cases hf : i.fails with
  | false => exact h
  | true =>
    have habsent : ∀ e ∈ s.cache, e.1 ≠ name := by simpa [Thorough, hf] using hi
    rw [drop_of_absent habsent] at h
    exact h

theorem alone_delLists {key : CatalogKey} {k : Unit → ProductProg π α}
    (hkey : ∀ n, key ≠ .product n) (h : Alone Thorough Q (k ()) s) :
    Alone Thorough Q ((del key).bind k) s := by
  apply Alone.callBind
  intro i _
  refine ⟨fun _ _ => ?_, fun e he => nomatch he⟩
  cases key with
  | product n => exact absurd rfl (hkey n)
  | _ => simpa using h

theorem alone_invalidateProduct {n : ProductName} {slug : Option ProductName}
    {k : Unit → ProductProg π α} (hk : Kept due s) (hdue : ∀ m ∈ due, m = n ∨ given slug = some m)
    (h : ∀ t, Kept [] t → Alone Thorough Q (k ()) t) :
    Alone Thorough Q ((invalidateProduct n slug).bind k) s := by
  have hlists : ∀ t, Kept [] t → Alone Thorough Q
      ((del .featured).bind fun _ => (del .newest).bind fun _ => (del .refurbished).bind fun _ =>
        (del .productLists).bind k) t := by
    intro t ht
    apply alone_delLists (by simp)
    apply alone_delLists (by simp)
    apply alone_delLists (by simp)
    apply alone_delLists (by simp)
    exact h t ht
  simp only [invalidateProduct, Prog.bind_eq, Prog.bind_assoc]
  apply alone_delPage
  cases hslug : given slug with
  | none =>
    simp only [Prog.bind_assoc]
    apply hlists
    apply hk.drop.mono
    intro m hm
    obtain ⟨hm, hne⟩ := List.mem_filter.mp hm
    rcases hdue m hm with rfl | hgiven
    · simp at hne
    · rw [hslug] at hgiven
      cases hgiven
  | some slug' =>
    simp only [Prog.bind_assoc]
    apply alone_delPage
    apply hlists
    apply hk.drop.drop.mono
    intro m hm
    obtain ⟨hm, hne'⟩ := List.mem_filter.mp hm
    obtain ⟨hm, hne⟩ := List.mem_filter.mp hm
    rcases hdue m hm with rfl | hgiven
    · simp at hne
    · rw [hslug] at hgiven
      obtain rfl := Option.some.inj hgiven
      simp at hne'

theorem alone_invalidateTaxonomy {k : Unit → ProductProg π α} (h : Alone Thorough Q (k ()) s) :
    Alone Thorough Q ((CatalogCacheService.invalidateTaxonomy).bind k) s := by
  simp only [CatalogCacheService.invalidateTaxonomy, Prog.bind_eq, Prog.bind_assoc]
  apply alone_delLists (by simp)
  apply alone_delLists (by simp)
  apply alone_delLists (by simp)
  apply alone_delLists (by simp)
  exact alone_delLists (by simp) h

theorem reads_publish (event : String) : Reads (CatalogService.publish event : ProductProg π Unit) :=
  Prog.every_call fun _ _ _ => rfl

theorem cleans_publish {event : String} {a : α} (hk : Kept [] s) :
    Cleans ((CatalogService.publish event).bind fun _ => (pure a : ProductProg π α)) s :=
  alone_readBind (reads_publish event) (fun _ => Alone.done hk) fun _ => hk

theorem cleans_locked {key : CatalogLock} {token : ℕ} {p : ProductProg π α} (hk : Kept [] s)
    (hp : ∀ m, Cleans p (Lockable.setLocks ProductCall m s)) :
    Cleans (LockService.withLock key token p) s := by
  apply Alone.withLock_blind
  · exact fun _ => hk
  · exact fun _ t m ht => ⟨ht.entries, ht.plain⟩
  · exact fun _ _ ht => ht
  · exact hp

theorem cleans_createProduct (token : ℕ) (dto : CreateProductDto) (hk : Kept [] s) :
    Cleans (CatalogService.createProduct token dto) s := by
  apply cleans_locked hk
  intro m
  have hm : Kept [] (Lockable.setLocks ProductCall m s) := ⟨hk.entries, hk.plain⟩
  apply alone_readBind (reads_slugFree dto.slug) _ fun _ => hm
  intro _
  apply alone_readBind (reads_requireBrand dto.brandId) _ fun _ => hm
  intro _
  apply alone_readBind (reads_requireCategory dto.categoryId) _ fun _ => hm
  intro _
  apply Alone.atomicBind
  · intro i row u hi hf hu
    have hslug : ∃ t, dto.slug = .text t := by simpa [Thorough, hf] using hi
    have hkept : Kept [] u := insertRow_kept hm hslug hu
    apply alone_invalidateProduct hkept (fun n hn => nomatch hn)
    intro t ht
    apply alone_invalidateTaxonomy
    exact cleans_publish ht
  · exact fun _ _ _ _ => hm

theorem cleans_updateProduct (id : Uuid) (dto : UpdateProductDto) (hk : Kept [] s) :
    Cleans (CatalogService.updateProduct id dto) s := by
  apply alone_requireProduct _ fun _ => hk
  intro existing hexisting
  apply alone_readBind (reads_whenGiven reads_slugFree) _ fun _ => hk
  intro _
  apply alone_readBind (reads_whenGiven reads_requireBrand) _ fun _ => hk
  intro _
  apply alone_readBind (reads_whenGiven reads_requireCategory) _ fun _ => hk
  intro _
  apply Alone.atomicBind
  · intro i row u hi hf hu
    obtain ⟨⟨text, htext⟩, hdue⟩ := hi.resolve_left (by simp [hf])
    simp only [ProductRepository.updateRow, bind_eq_ok, pure_eq_ok, Prod.mk.injEq,
      existing_eq_ok] at hu
    obtain ⟨p, hp, -, -, t, ht, rfl, rfl⟩ := hu
    obtain ⟨hm, hid, -⟩ := findById_eq_some.mp hexisting
    obtain ⟨hpm, hpid⟩ := Table.find?_mem hp
    obtain rfl : p = existing := Table.eq_of_key_eq hpm hm (hpid.trans hid.symm)
    have hkept := update_kept hk ht (fun q hq hqid _ => by
      rw [Table.eq_of_key_eq hq hpm (hqid.trans hpid.symm)]
      exact ⟨text, htext⟩) hdue
    apply alone_invalidateProduct hkept
    · intro n hn
      rcases List.mem_append.mp hn with hn | hn
      · obtain rfl := List.mem_singleton.mp hn
        exact .inl (by rw [← hid]; rfl)
      · exact .inr (Option.mem_toList.mp hn)
    · exact fun t ht => cleans_publish ht
  · exact fun _ _ _ _ => hk

theorem cleans_deleteProduct (id : Uuid) (hk : Kept [] s) :
    Cleans (CatalogService.deleteProduct id) s := by
  apply alone_requireProduct _ fun _ => hk
  intro existing hexisting
  apply Alone.atomicBind
  · intro i _ u hi hf hu
    obtain ⟨-, hdue⟩ := hi.resolve_left (by simp [hf])
    simp only [ProductRepository.deleteRow, bind_eq_ok, pure_eq_ok, Prod.mk.injEq] at hu
    obtain ⟨-, -, t, ht, -, rfl⟩ := hu
    have hkept := update_kept hk ht (fun _ _ _ hdeleted => by cases hdeleted) hdue
    apply alone_invalidateProduct hkept
    · intro n hn
      rcases List.mem_append.mp hn with hn | hn
      · exact .inl (List.mem_singleton.mp hn)
      · exact .inr (Option.mem_toList.mp hn)
    · exact fun t ht => alone_readBind (reads_publish _) (fun _ => Alone.done ht) fun _ => ht
  · exact fun _ _ _ _ => hk

theorem alone_assignAttributes {ids : List ℕ} {k : Unit → ProductProg π α} (hk : Kept due s)
    (hok : Alone Thorough Q (k ()) s) (herr : ∀ e, Kept [] s → Q (.error e) s) :
    Alone Thorough Q ((CatalogService.assignAttributes due ids).bind k) s := by
  have hset : Alone Thorough (fun r t => t = s ∧ (r = .ok () ∨ Kept [] s))
      (VariantRepository.setAttributeValues due ids : ProductProg π Unit) s := by
    apply Alone.atomic
    · intro i b u _ _ hu
      simp only [bind_eq_ok, pure_eq_ok, Prod.mk.injEq] at hu
      obtain ⟨-, -, -, rfl⟩ := hu
      exact ⟨rfl, .inl rfl⟩
    · intro i e hi he
      refine ⟨rfl, .inr ?_⟩
      rcases hi with ⟨hf, hfound⟩ | habsent
      · rcases he with he | he
        · rw [hf] at he
          cases he
        · simp [demand, hfound, bind, Except.bind, pure, Except.pure] at he
      · exact hk.of_absent habsent
  have hassign : Alone Thorough (fun r t => t = s ∧ (r = .ok () ∨ Kept [] s))
      (CatalogService.assignAttributes due ids : ProductProg π Unit) s := by
    apply Alone.tryCatch hset
    · exact fun _ _ h => h
    · rintro e t ⟨rfl, h⟩
      exact Alone.done ⟨rfl, .inr (h.resolve_left (by simp))⟩
  apply Alone.bind hassign
  · rintro b t ⟨rfl, -⟩
    exact hok
  · rintro e t ⟨rfl, h⟩
    exact herr e (h.resolve_left (by simp))

theorem alone_whenAssigned {o : Option (List ℕ)} {k : Unit → ProductProg π α} (hk : Kept due s)
    (hok : Alone Thorough Q (k ()) s) (herr : ∀ e, Kept [] s → Q (.error e) s) :
    Alone Thorough Q
      ((CatalogService.whenGiven o (CatalogService.assignAttributes due)).bind k) s := by
  cases o with
  | none => exact hok
  | some ids =>
    simp only [CatalogService.whenGiven, Prog.bind_eq, Prog.bind_assoc]
    exact alone_assignAttributes hk hok herr

theorem cleans_createVariant (token : ℕ) (dto : CreateVariantDto) (hk : Kept [] s) :
    Cleans (CatalogService.createVariant token dto) s := by
  apply cleans_locked hk
  intro m
  have hm : Kept [] (Lockable.setLocks ProductCall m s) := ⟨hk.entries, hk.plain⟩
  apply alone_requireProduct _ fun _ => hm
  intro _ _
  apply alone_readBind (reads_skuFree dto.sku) _ fun _ => hm
  intro _
  apply Alone.atomicBind
  · intro i v u hi hf hu
    have hdue := hi.resolve_left (by simp [hf])
    have hkept : Kept [.uuid dto.productId] u := insertVariant_kept hm hdue hu
    apply alone_whenAssigned hkept _ fun _ h => h
    apply alone_invalidateProduct hkept
    · exact fun n hn => .inl (List.mem_singleton.mp hn)
    · exact fun t ht => cleans_publish ht
  · exact fun _ _ _ _ => hm

theorem cleans_writeVariant {variantId : ℕ} {existing : ProductVariant}
    {g : ProductVariant → ProductVariant} {hg : ∀ v, key (g v) = key v}
    {k : ProductVariant → ProductProg π α} (hk : Kept [] s)
    (hexisting : (s.variants.find? variantId).filter (fun v => !v.deleted) = some existing)
    (hproduct : ∀ v, (g v).productId = v.productId)
    (hrest : ∀ v t, Kept [.uuid ⟨existing.productId, 0⟩] t → Cleans (k v) t) :
    Cleans ((VariantRepository.write variantId existing.productId g hg).bind k) s := by
  obtain ⟨hfound, -⟩ := Option.filter_eq_some_iff.mp hexisting
  obtain ⟨hm, hid⟩ := Table.find?_mem hfound
  apply Alone.atomicBind
  · intro i v u hi hf hu
    have hdue := hi.resolve_left (by simp [hf])
    simp only [bind_eq_ok, pure_eq_ok, Prod.mk.injEq] at hu
    obtain ⟨-, -, -, -, -, rfl⟩ := hu
    apply hrest
    refine updateVariant_kept hproduct ?_ hk hdue
    intro w hw hwid
    rw [Table.eq_of_key_eq hw hm (hwid.trans hid.symm)]
  · exact fun _ _ _ _ => hk

theorem cleans_updateVariant (id : ℕ) (dto : UpdateVariantDto) (hk : Kept [] s) :
    Cleans (CatalogService.updateVariant id dto) s := by
  apply Alone.queryBind _ fun _ _ _ => hk
  intro _ _ _
  apply Alone.orThrowBind _ fun _ => hk
  intro existing hexisting
  apply alone_readBind (reads_whenGiven reads_skuFree) _ fun _ => hk
  intro _
  have hproduct : ∀ v, (VariantRepository.patch dto v).productId = v.productId := fun _ => rfl
  apply cleans_writeVariant hk hexisting hproduct
  intro v t ht
  apply alone_whenAssigned ht _ fun _ h => h
  apply alone_invalidateProduct ht
  · exact fun n hn => .inl (List.mem_singleton.mp hn)
  · exact fun u hu => Alone.done hu

theorem cleans_invalidateProduct {n : ProductName} (hk : Kept [n] s) :
    Cleans (invalidateProduct n none : ProductProg π Unit) s := by
  have hend : Cleans ((invalidateProduct n none).bind fun _ => (pure () : ProductProg π Unit)) s := by
    apply alone_invalidateProduct hk
    · exact fun m hm => .inl (List.mem_singleton.mp hm)
    · exact fun t ht => Alone.done ht
  exact hend

theorem cleans_deleteVariant (id : ℕ) (hk : Kept [] s) :
    Cleans (CatalogService.deleteVariant id) s := by
  apply Alone.queryBind _ fun _ _ _ => hk
  intro _ _ _
  apply Alone.orThrowBind _ fun _ => hk
  intro existing hexisting
  have hproduct : ∀ v, (VariantRepository.archive v).productId = v.productId := fun _ => rfl
  apply cleans_writeVariant hk hexisting hproduct
  exact fun _ _ ht => cleans_invalidateProduct ht

/-! ### Reads of a page -/

/-- The page is of the product that has the name, or there is none or the database failed. -/
def Found (name : ProductName) (r : Except Failure (ProductDetail π)) (s : Storefront π) : Prop :=
  match r with
  | .ok d => Current s name d
  | .error e => e = .database ∨
      e = notFound "Product" ∧ ∀ p, lookup s name = some p → p.status ≠ .active

/-- Reads whose only error is one of the database. -/
def Readable (p : ProductProg π α) (s : Storefront π) : Prop :=
  Alone Thorough (fun r t => t = s ∧ ∀ e, r = .error e → e = .database) p s

theorem readable_queryBind {l : ProductCall} {f : CategoryInput → Storefront π → β}
    {k : β → ProductProg π α} (hk : ∀ b, Readable (k b) s) : Readable ((query l f).bind k) s := by
  apply Alone.queryBind
  · exact fun i _ _ => hk _
  · intro i _ _
    refine ⟨rfl, ?_⟩
    rintro e ⟨⟩
    rfl

theorem readable_climb (left : ℕ) (current : Option Category) (chain : List Category) :
    Readable (onCategories (climb left current chain) : ProductProg π (List Category)) s := by
  have hdone : ∀ chain : List Category,
      Readable (onCategories (pure chain) : ProductProg π (List Category)) s := by
    intro chain
    exact Alone.done ⟨rfl, fun e he => nomatch he⟩
  induction left generalizing current chain with
  | zero => exact hdone chain
  | succ left ih =>
    cases current with
    | none => exact hdone chain
    | some c =>
      rw [climb]
      cases c.parentId with
      | none => exact hdone _
      | some p =>
        have hstep : (onCategories (do
              let next ← CategoryRepository.findById p
              climb left next (c :: chain)) : ProductProg π (List Category)) =
            (query (.category (.findById p)) fun _ s => s.categories.live p).bind fun next =>
              onCategories (climb left next (c :: chain)) := Prog.zoom_bind _ _
        rw [hstep]
        exact readable_queryBind fun next => ih next _

theorem readable_breadcrumb (categoryId : ℕ) :
    Readable (onCategories (breadcrumb categoryId) : ProductProg π (List Category)) s := by
  have hstep : (onCategories (breadcrumb categoryId) : ProductProg π (List Category)) =
      (query (.category (.findById categoryId)) fun _ s => s.categories.live categoryId).bind
        fun current => onCategories (climb 8 current []) := Prog.zoom_bind _ _
  rw [hstep]
  exact readable_queryBind fun current => readable_climb 8 current []

theorem alone_productPage (name : ProductName) :
    Alone Thorough (fun r t => t = s ∧ Found name r t) (CatalogService.productPage name) s := by
  have hfails : Found name (.error .database : Except Failure (ProductDetail π)) s := .inl rfl
  apply Alone.queryBind _ fun _ _ _ => ⟨rfl, hfails⟩
  intro i _ _
  apply Alone.orThrowBind
  · intro row hrow
    obtain ⟨hfound, hactive⟩ := Option.filter_eq_some_iff.mp hrow
    obtain ⟨p, hp, rfl⟩ := Option.map_eq_some_iff.mp hfound
    have hstatus : p.status = .active := beq_iff_eq.mp hactive
    apply Alone.queryBind _ fun _ _ _ => ⟨rfl, hfails⟩
    intro _ _ _
    apply Alone.queryBind _ fun _ _ _ => ⟨rfl, hfails⟩
    intro j _ _
    apply Alone.queryBind _ fun _ _ _ => ⟨rfl, hfails⟩
    intro _ _ _
    apply Alone.bind (readable_breadcrumb p.categoryId)
    · rintro crumbs t ⟨rfl, -⟩
      refine Alone.done ⟨rfl, p, hp, hstatus, ?_⟩
      exact ⟨⟨i.rank, rfl⟩, ⟨j.rank, rfl⟩⟩
    · rintro e t ⟨rfl, he⟩
      exact ⟨rfl, .inl (he e rfl)⟩
  · intro hnone
    refine ⟨rfl, .inr ⟨rfl, ?_⟩⟩
    intro p hp hactive
    rw [hp, Option.map_some, Option.filter_some] at hnone
    simp [productInclude, hactive] at hnone

theorem alone_getProduct (name : ProductName) (hk : Kept [] s) :
    Alone Thorough (fun r t => Kept [] t ∧ Found name r t) (CatalogService.getProduct name) s := by
  have hmiss : ∀ t, Kept [] t → Alone Thorough (fun r t => Kept [] t ∧ Found name r t)
      ((CatalogService.productPage name).bind fun value =>
        (set name value).bind fun _ => (pure value : ProductProg π (ProductDetail π))) t := by
    intro t ht
    apply Alone.bind (alone_productPage name)
    · rintro d u ⟨rfl, hd⟩
      apply Alone.callBind
      intro i _
      refine ⟨fun _ _ => ?_, fun e he => nomatch he⟩
      cases hf : i.fails with
      | true => exact Alone.done ⟨ht, hd⟩
      | false => exact Alone.done ⟨ht.put hd, hd⟩
    · rintro e u ⟨rfl, he⟩
      exact ⟨ht, he⟩
  have hdropped : Kept [] (drop name s) := hk.drop
  apply Alone.callBind
  intro i _
  cases hf : i.fails with
  | true =>
    refine ⟨?_, fun e he => nomatch he⟩
    rintro hit ⟨⟩
    exact hmiss s hk
  | false =>
    cases ht : i.timer with
    | true =>
      refine ⟨?_, fun e he => nomatch he⟩
      rintro hit ⟨⟩
      exact hmiss _ hdropped
    | false =>
      refine ⟨?_, fun e he => nomatch he⟩
      rintro hit ⟨⟩
      cases hentry : entry name s with
      | none => exact hmiss s hk
      | some d =>
        have hcurrent : Current s name d := by simpa using hk.entries _ (mem_of_entry hentry)
        exact Alone.done ⟨hk, hcurrent⟩

/-! ### Runs -/

def Named (p : Product) (name : ProductName) : Prop :=
  (∃ capitals, name = .uuid ⟨p.id, capitals⟩) ∨ name = p.slug

/-- A read shows the active product of that name as it is, and is refused when there is none. -/
def Answered (name : ProductName) (r : Except Failure (Option (ProductDetail π))) (s : Storefront π) :
    Prop :=
  match r with
  | .ok (some d) =>
    ∃ p ∈ s.products.rows, p.deleted = false ∧ p.status = .active ∧ Named p name ∧ Describes s p d
  | .ok none => False
  | .error e => e = .database ∨ e = notFound "Product" ∧
      ∀ p ∈ s.products.rows, p.deleted = false → p.status = .active → ¬ Named p name

theorem named_iff (hs : PlainSlugs s) (hp : p ∈ s.products.rows) (hdeleted : p.deleted = false) :
    Named p name ↔ NamedBy p name := by
  obtain ⟨t, ht⟩ := hs p hp hdeleted
  cases name with
  | uuid u =>
    simp only [Named, NamedBy, ht, reduceCtorEq, or_false, ProductName.uuid.injEq]
    constructor
    · rintro ⟨capitals, rfl⟩
      rfl
    · intro h
      exact ⟨u.capitals, by rw [h]⟩
  | text t' => simp [Named, NamedBy, ht, eq_comm]

theorem Found.answered {r : Except Failure (ProductDetail π)} (h : Found name r s) (hs : PlainSlugs s) :
    Answered name (r.map some) s := by
  cases r with
  | ok d =>
    obtain ⟨p, hp, hactive, hd⟩ := h
    obtain ⟨hm, hname, hdeleted⟩ := lookup_eq_some.mp hp
    exact ⟨p, hm, hdeleted, hactive, (named_iff hs hm hdeleted).mpr hname, hd⟩
  | error e =>
    rcases h with rfl | ⟨rfl, hnone⟩
    · exact .inl rfl
    · refine .inr ⟨rfl, ?_⟩
      intro p hm hdeleted hactive hname
      exact hnone p (lookup_eq_some.mpr ⟨hm, (named_iff hs hm hdeleted).mp hname, hdeleted⟩) hactive

theorem cleans_dropped {p : ProductProg π α} (h : Cleans p s) :
    Cleans (p.bind fun _ => (pure none : ProductProg π (Option (ProductDetail π)))) s :=
  Alone.bind h (fun _ _ ht => Alone.done ht) fun _ _ ht => ht

theorem alone_request (q : ProductRequest) (hk : Kept [] s) :
    Alone Thorough (fun r t => Kept [] t ∧ ∀ name, q = .getProduct name → Answered name r t)
      q.prog s := by
  have hwrite : ∀ q : ProductRequest, (∀ name, q ≠ .getProduct name) → Cleans q.prog s →
      Alone Thorough (fun r t => Kept [] t ∧ ∀ name, q = .getProduct name → Answered name r t)
        q.prog s := by
    intro q hq h
    refine Alone.mono ?_ h
    exact fun r t ht => ⟨ht, fun name hname => absurd hname (hq name)⟩
  cases q with
  | getProduct name =>
    apply Alone.bind (alone_getProduct name hk)
    · rintro d t ⟨ht, hd⟩
      refine Alone.done ⟨ht, ?_⟩
      rintro name' ⟨⟩
      exact hd.answered ht.plain
    · rintro e t ⟨ht, he⟩
      refine ⟨ht, ?_⟩
      rintro name' ⟨⟩
      exact he.answered ht.plain
  | createProduct token dto =>
    exact hwrite _ (by simp) (cleans_dropped (cleans_createProduct token dto hk))
  | updateProduct id dto => exact hwrite _ (by simp) (cleans_dropped (cleans_updateProduct id dto hk))
  | deleteProduct id => exact hwrite _ (by simp) (cleans_dropped (cleans_deleteProduct id hk))
  | createVariant token dto =>
    exact hwrite _ (by simp) (cleans_dropped (cleans_createVariant token dto hk))
  | updateVariant id dto => exact hwrite _ (by simp) (cleans_dropped (cleans_updateVariant id dto hk))
  | deleteVariant id => exact hwrite _ (by simp) (cleans_dropped (cleans_deleteVariant id hk))

/-- While every write is thorough, every read shows the product as it is. -/
theorem pages_current (s s' : Storefront π)
    (turns : List (Pool.Turn ProductRequest Failure (Option (ProductDetail π)) (Storefront π)))
    (hs : Kept [] s) (h : Pool.Chain Thorough ProductRequest.prog s turns s') :
    ∀ turn ∈ turns, ∀ name, turn.request = .getProduct name → Answered name turn.result turn.after := by
  have hall : Kept [] s' ∧ ∀ turn ∈ turns, ∀ name, turn.request = .getProduct name →
      Answered name turn.result turn.after := by
    have hnil : Kept [] s ∧ ∀ turn ∈ ([] : List (Pool.Turn ProductRequest Failure
        (Option (ProductDetail π)) (Storefront π))), ∀ name, turn.request = .getProduct name →
        Answered name turn.result turn.after := ⟨hs, fun _ ht => nomatch ht⟩
    apply Pool.Chain.invariant h (fun _ _ => trivial) hnil
    rintro turns t q r u ⟨ht, hturns⟩ - hr
    obtain ⟨hu, hanswer⟩ := ran_alone (alone_request q ht) hr
    refine ⟨hu, ?_⟩
    intro turn hturn
    rcases List.mem_append.mp hturn with hturn | hturn
    · exact hturns turn hturn
    · obtain rfl := List.mem_singleton.mp hturn
      exact hanswer
  exact hall.2

def oneProduct : Storefront Unit where
  categories := noCategories
  products := Table.empty.insert fun n =>
    { id := n, brandId := 0, categoryId := 0, productTypeId := 0, name := "X1", slug := .text "x1" }
  slugs := by decide
  variants := Table.empty.insert fun n =>
    { id := n, productId := 0, data := { sku := "X1-8", mrp := 100, salePrice := 100 } }
  aside := fun _ => ()

def calls : List CategoryInput := List.replicate 20 { reply := () }

@[irreducible] def after (q : ProductRequest) (s : Storefront Unit) : Storefront Unit :=
  (Pool.solo q.prog s calls).state

@[irreducible] def answer (q : ProductRequest) (s : Storefront Unit) :
    Except Failure (Option (ProductDetail Unit)) :=
  (Pool.solo q.prog s calls).result?.getD (.error .database)

theorem ran_after {ok : ProductCall → CategoryInput → Storefront Unit → Prop} {q : ProductRequest}
    {s : Storefront Unit} (ha : Pool.SoloAdmits ok q.prog s calls)
    (hr : (Pool.solo q.prog s calls).result?.isSome = true) :
    Pool.Ran ok q.prog s (answer q s) (after q s) := by
  obtain ⟨r, hr⟩ := Option.isSome_iff_exists.mp hr
  have hanswer : answer q s = r := by
    unfold answer
    rw [hr, Option.getD_some]
  have hafter : (Pool.solo q.prog s calls).state = after q s := by unfold after; rfl
  exact ⟨calls, ha, hanswer ▸ hr, hafter⟩

def cheaper : ProductRequest := .updateVariant 0 { salePrice := some 90 }

def byId : ProductRequest := .getProduct (.uuid ⟨0, 0⟩)

def bySlug : ProductRequest := .getProduct (.text "x1")

def prices (r : Except Failure (Option (ProductDetail Unit))) : Option (List ℚ) :=
  r.toOption.join.map fun d => d.product.variants.map fun v => v.data.salePrice

instance (n : ProductName) : Decidable (∃ t, n = .text t) :=
  match n with
  | .text t => .isTrue ⟨t, rfl⟩
  | .uuid _ => .isFalse fun ⟨_, h⟩ => nomatch h

instance (c : ProductCall) (i : CategoryInput) (s : Storefront π) : Decidable (Thorough c i s) := by
  unfold Thorough
  split <;> infer_instance

theorem kept_oneProduct : Kept [] oneProduct where
  entries := fun _ he => nomatch he
  plain := by
    intro p hp _
    obtain rfl := List.mem_singleton.mp hp
    exact ⟨"x1", rfl⟩

/-- The new price is read by the id. -/
theorem pages_current_byId :
    prices (answer byId (after cheaper (after byId oneProduct))) = some [90] ∧
      Answered (.uuid ⟨0, 0⟩) (answer byId (after cheaper (after byId oneProduct)))
        (after byId (after cheaper (after byId oneProduct))) := by
  have hread : Pool.Ran Thorough byId.prog oneProduct (answer byId oneProduct)
      (after byId oneProduct) := ran_after (by decide +kernel) (by decide +kernel)
  have hwrite : Pool.Ran Thorough cheaper.prog (after byId oneProduct) _
      (after cheaper (after byId oneProduct)) := ran_after (by decide +kernel) (by decide +kernel)
  have hagain : Pool.Ran Thorough byId.prog (after cheaper (after byId oneProduct)) _
      (after byId (after cheaper (after byId oneProduct))) :=
    ran_after (by decide +kernel) (by decide +kernel)
  have hchain := Pool.Chain.snoc (Pool.Chain.snoc (Pool.Chain.snoc .nil hread) hwrite) hagain
  have hanswered := pages_current _ _ _ kept_oneProduct hchain _ List.mem_concat_self
  exact ⟨by decide +kernel, hanswered (.uuid ⟨0, 0⟩) rfl⟩

theorem Answered.price {s : Storefront Unit} {r : Except Failure (Option (ProductDetail Unit))}
    (h : Answered name r s) {l : List ℚ} (hl : prices r = some l) :
    ∀ x ∈ l, ∃ row ∈ s.variants.rows, row.data.salePrice = x := by
  intro x hx
  match r, h with
  | .ok (some d), h =>
    obtain ⟨p, -, -, -, -, hd⟩ := h
    obtain rfl := Option.some.inj hl
    obtain ⟨v, hv, rfl⟩ := List.mem_map.mp hx
    obtain ⟨row, hrow, rfl⟩ := hd.variant hv
    exact ⟨row, hrow, rfl⟩
  | .error e, _ => cases hl

/-- Read by its slug, the product keeps the price it had. -/
theorem old_price_by_slug :
    ¬ ∀ (s s' : Storefront Unit)
      (turns : List (Pool.Turn ProductRequest Failure (Option (ProductDetail Unit)) (Storefront Unit))),
      Kept [] s → Pool.Chain (fun _ _ _ => True) ProductRequest.prog s turns s' →
      ∀ turn ∈ turns, ∀ name, turn.request = .getProduct name →
        Answered name turn.result turn.after := by
  intro h
  have hread : Pool.Ran (fun _ _ _ => True) bySlug.prog oneProduct (answer bySlug oneProduct)
      (after bySlug oneProduct) := ran_after (by decide +kernel) (by decide +kernel)
  have hwrite : Pool.Ran (fun _ _ _ => True) cheaper.prog (after bySlug oneProduct) _
      (after cheaper (after bySlug oneProduct)) := ran_after (by decide +kernel) (by decide +kernel)
  have hagain : Pool.Ran (fun _ _ _ => True) bySlug.prog (after cheaper (after bySlug oneProduct)) _
      (after bySlug (after cheaper (after bySlug oneProduct))) :=
    ran_after (by decide +kernel) (by decide +kernel)
  have hchain := Pool.Chain.snoc (Pool.Chain.snoc (Pool.Chain.snoc .nil hread) hwrite) hagain
  have hanswered := h _ _ _ kept_oneProduct hchain _ List.mem_concat_self
  have hold : prices (answer bySlug (after cheaper (after bySlug oneProduct))) = some [100] := by
    decide +kernel
  obtain ⟨row, hrow, hprice⟩ := (hanswered (.text "x1") rfl).price hold 100 List.mem_cons_self
  have hnew : ∀ row ∈ (after bySlug (after cheaper (after bySlug oneProduct))).variants.rows,
      row.data.salePrice = 90 := by decide +kernel
  have hrow90 := hnew row hrow
  rw [hprice] at hrow90
  exact absurd hrow90 (by decide)

end ElectronicsCart.Catalog
