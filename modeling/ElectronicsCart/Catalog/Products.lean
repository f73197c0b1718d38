import ElectronicsCart.Catalog.Categories

/-!
# Products and their cached pages

`getProduct` of `modules/catalog/services/catalog.service.ts` and the calls that write products and
variants, with `product.repository.ts`, `variant.repository.ts` and `catalog-cache.service.ts`.  The
page of a product is cached under each name it is read by; a write deletes one or two of them.
-/

namespace ElectronicsCart.Catalog

open Interleaving Relational

open Payments (RecordStatus)

/-! ### Names -/

/-- A text that `UUID_RE` matches: the id it denotes, and which of its letters are capitals.  The
database prints none. -/
structure Uuid where
  id : ℕ
  capitals : ℕ := 0
deriving DecidableEq, Repr

/-- A text as `getProduct` tells them apart. -/
inductive ProductName where
  | uuid (u : Uuid)
  | text (t : String)
deriving DecidableEq, Repr

/-! ### Rows -/

inductive ProductCondition where
  | newSealed | likeNew | excellent | good | fair | openBox | refurbished | certifiedRefurbished
deriving DecidableEq, Repr

inductive ProductGrade where
  | aPlus | a | b | c | ungraded
deriving DecidableEq, Repr

inductive StockStatus where
  | inStock | outOfStock | preorder | discontinued | madeToOrder
deriving DecidableEq, Repr

structure Brand where
  id : ℕ
  name : String
  slug : String
  deleted : Bool := false
deriving DecidableEq, Repr

/-- A `products` row. -/
structure Product where
  id : ℕ
  brandId : ℕ
  categoryId : ℕ
  productTypeId : ℕ
  name : String
  slug : ProductName
  shortDescription : Option String := none
  description : Option String := none
  seoTitle : Option String := none
  seoDescription : Option String := none
  metaKeywords : Option String := none
  canonicalUrl : Option String := none
  isFeatured : Bool := false
  isRefurbished : Bool := false
  isOpenBox : Bool := false
  isNewArrival : Bool := false
  ratingAvg : ℚ := 0
  reviewCount : ℕ := 0
  status : RecordStatus := .active
  deleted : Bool := false
deriving DecidableEq, Repr

structure VariantData where
  sku : String
  barcode : Option String := none
  ram : Option String := none
  storage : Option String := none
  processor : Option String := none
  gpu : Option String := none
  displaySize : Option String := none
  displayResolution : Option String := none
  refreshRate : Option String := none
  operatingSystem : Option String := none
  keyboardLayout : Option String := none
  color : Option String := none
  weight : Option String := none
  batteryHealth : Option ℤ := none
  condition : ProductCondition := .newSealed
  grade : ProductGrade := .ungraded
  mrp : ℚ
  salePrice : ℚ
  discountPercent : ℚ := 0
  currency : String := "INR"
  stockStatus : StockStatus := .inStock
deriving DecidableEq, Repr

/-- A `product_variants` row. -/
structure ProductVariant where
  id : ℕ
  productId : ℕ
  data : VariantData
  status : RecordStatus := .active
  deleted : Bool := false
deriving DecidableEq, Repr

structure SeoMetadata where
  entityId : ℕ
  slug : ProductName
  metaTitle : Option String := none
  metaDescription : Option String := none
  canonicalUrl : Option String := none
  ogTitle : Option String := none
  ogDescription : Option String := none
  ogImageFileId : Option ℕ := none
  structuredData : Option String := none
  active : Bool := true
  deleted : Bool := false
deriving DecidableEq, Repr

instance : Keyed Product := ⟨Product.id⟩
instance : Keyed ProductVariant := ⟨ProductVariant.id⟩

/-- `uq_products_slug_active`. -/
def SlugsUnique (T : Table Product) : Prop :=
  ∀ p ∈ T.rows, ∀ q ∈ T.rows, p.deleted = false → q.deleted = false → p.slug = q.slug → p.id = q.id

instance (T : Table Product) : Decidable (SlugsUnique T) :=
  inferInstanceAs (Decidable (∀ p ∈ T.rows, ∀ q ∈ T.rows, p.deleted = false → q.deleted = false →
    p.slug = q.slug → p.id = q.id))

/-! ### Pages -/

structure ProductListItem where
  id : ℕ
  name : String
  slug : ProductName
  shortDescription : Option String
  brand : Option (ℕ × String × String)
  category : Option (ℕ × String × String)
  isFeatured : Bool
  isRefurbished : Bool
  isNewArrival : Bool
  ratingAvg : ℚ
  reviewCount : ℕ
  priceFrom : Option ℚ
  currency : Option String
  stockStatus : Option StockStatus
deriving DecidableEq, Repr

structure VariantView where
  id : ℕ
  productId : ℕ
  data : VariantData
  status : RecordStatus
deriving DecidableEq, Repr

/-- What `mapProductDetail` returns. -/
structure ProductView where
  item : ProductListItem
  description : Option String
  seoTitle : Option String
  seoDescription : Option String
  metaKeywords : Option String
  canonicalUrl : Option String
  isOpenBox : Bool
  productTypeId : ℕ
  variants : List VariantView
deriving DecidableEq, Repr

structure SeoView where
  metaTitle : Option String
  metaDescription : Option String
  canonicalUrl : Option String
  ogTitle : Option String
  ogDescription : Option String
  ogImageFileId : Option ℕ
  structuredData : Option String
deriving DecidableEq, Repr

/-- The page of a product.  `π` is what the specifications, media, videos and reviews say, which no
call here writes. -/
structure ProductDetail (π : Type) where
  product : ProductView
  aside : π
  relatedProducts : List ProductListItem
  breadcrumbs : List (ℕ × String × String)
  seo : SeoView
deriving DecidableEq, Repr

/-! ### The store -/

/-- `LockService.resourceKey('catalog', ..)`. -/
inductive CatalogLock where
  | productSlug (slug : ProductName)
  | sku (sku : String)
deriving DecidableEq, Repr

structure Storefront (π : Type) where
  brands : List Brand := []
  categories : CategoryStore
  productTypes : List ℕ := []
  products : Table Product := .empty
  slugs : SlugsUnique products
  variants : Table ProductVariant := .empty
  seo : List SeoMetadata := []
  /-- those that are active and not deleted -/
  attributeValues : List ℕ := []
  aside : ℕ → π
  /-- the entries `catalog:product:*` -/
  cache : List (ProductName × ProductDetail π) := []
  locks : LockStore CatalogLock := fun _ => none

inductive CatalogKey where
  | product (name : ProductName)
  | featured | newest | refurbished | productLists | brands | categories | categoryTree | collections
deriving DecidableEq, Repr

inductive ProductCall where
  | get (name : ProductName)
  | set (name : ProductName)
  | del (key : CatalogKey)
  | findProduct (name : ProductName)
  | findBySlug (slug : ProductName)
  | aside (id : ℕ)
  | findSeo (id : ℕ)
  | search (categoryId : ℕ)
  | category (call : CategoryCall)
  | findBrand (id : ℕ)
  | findVariant (id : ℕ)
  | findBySku (sku : String)
  | createProduct (slug : ProductName)
  /-- with the slug from now on and the names whose entries the request deletes then -/
  | writeProduct (id : ℕ) (slug : ProductName) (due : List ProductName)
  | writeVariant (productId : ℕ) (due : List ProductName)
  /-- of a variant that is written already -/
  | setAttributeValues (ids : List ℕ) (due : List ProductName)
  | publish (event : String)
  | acquire (key : CatalogLock) (token : ℕ)
  | release (key : CatalogLock) (token : ℕ)
deriving DecidableEq, Repr

abbrev ProductProg (π α : Type) := Prog ProductCall CategoryInput (Storefront π) Failure α

instance {π : Type} : Lockable ProductCall (Storefront π) CatalogLock where
  locks s := s.locks
  setLocks m s := { s with locks := m }
  acquireCall key token := .acquire key token
  releaseCall key token := .release key token
  resource
    | .productSlug (.uuid u) => ["catalog", "product-slug", toString u.id, toString u.capitals]
    | .productSlug (.text t) => ["catalog", "product-slug", t]
    | .sku sku => ["catalog", "sku", sku]
  locks_setLocks _ _ := rfl

variable {π : Type}

def onCategories {α : Type} (p : CategoryProg α) : ProductProg π α :=
  p.zoom .category Storefront.categories fun c s => { s with categories := c }

/-! ### Cache -/

namespace CatalogCacheService

def entry (name : ProductName) (s : Storefront π) : Option (ProductDetail π) :=
  (s.cache.find? fun e => e.1 == name).map Prod.snd

def drop (name : ProductName) (s : Storefront π) : Storefront π :=
  { s with cache := s.cache.filter fun e => e.1 != name }

def put (name : ProductName) (value : ProductDetail π) (s : Storefront π) : Storefront π :=
  { s with cache := (name, value) :: (drop name s).cache }

/-- An error is a miss; an entry may be past its time. -/
def get (name : ProductName) : ProductProg π (Option (ProductDetail π)) :=
  Prog.call (.get name) fun i s =>
    if i.fails then (.ok none, s) else if i.timer then (.ok none, drop name s) else (.ok (entry name s), s)

def set (name : ProductName) (value : ProductDetail π) : ProductProg π Unit :=
  Prog.call (.set name) fun i s => (.ok (), if i.fails then s else put name value s)

/-- The entries of the other keys are not read here. -/
def del (key : CatalogKey) : ProductProg π Unit :=
  Prog.call (.del key) fun i s =>
    (.ok (), if i.fails then s else
      match key with
      | .product name => drop name s
      | _ => s)

def getOrSet (name : ProductName) (factory : ProductProg π (ProductDetail π)) :
    ProductProg π (ProductDetail π) := do
  let hit ← get name
  match hit with
  | some value => pure value
  | none => do
    let value ← factory
    set name value
    pure value

/-- `if (slug)`. -/
def given (slug : Option ProductName) : Option ProductName := slug.filter fun n => n != .text ""

def invalidateProduct (id : ProductName) (slug : Option ProductName) : ProductProg π Unit := do
  del (.product id)
  match given slug with
  | some slug => del (.product slug)
  | none => pure ()
  del .featured
  del .newest
  del .refurbished
  del .productLists

def invalidateTaxonomy : ProductProg π Unit := do
  del .brands
  del .categories
  del .categoryTree
  del .collections
  del .productLists

end CatalogCacheService

/-! ### Reads -/

/-- A product with the rows of `productInclude`. -/
structure IncludedProduct where
  product : Product
  brand : Option Brand
  category : Option Category
  variants : List ProductVariant

/-- `orderBy: { sale_price: 'asc' }`. -/
def includedVariants (rank : ℕ → ℕ) (s : Storefront π) (id : ℕ) : List ProductVariant :=
  (s.variants.rows.filter fun v => v.productId == id && !v.deleted).insertionSort fun a b =>
    a.data.salePrice < b.data.salePrice ∨ a.data.salePrice = b.data.salePrice ∧ rank a.id ≤ rank b.id

def productInclude (rank : ℕ → ℕ) (s : Storefront π) (p : Product) : IncludedProduct where
  product := p
  brand := s.brands.find? fun b => b.id == p.brandId
  category := s.categories.categories.find? p.categoryId
  variants := includedVariants rank s p.id

def findById (s : Storefront π) (id : ℕ) : Option Product :=
  (s.products.find? id).filter fun p => !p.deleted

def findBySlug (s : Storefront π) (slug : ProductName) : Option Product :=
  s.products.first? fun p => p.slug == slug && !p.deleted

/-- `UUID_RE.test(idOrSlug)`. -/
def lookup (s : Storefront π) : ProductName → Option Product
  | .uuid u => findById s u.id
  | .text t => findBySlug s (.text t)

def mapProductListItem (p : IncludedProduct) : ProductListItem :=
  let active := p.variants.filter fun v => !v.deleted && v.status == .active
  let cheapest := (active.insertionSort fun a b => a.data.salePrice ≤ b.data.salePrice).head?
  { id := p.product.id
    name := p.product.name
    slug := p.product.slug
    shortDescription := p.product.shortDescription
    brand := p.brand.map fun b => (b.id, b.name, b.slug)
    category := p.category.map fun c => (c.id, c.name, c.slug)
    isFeatured := p.product.isFeatured
    isRefurbished := p.product.isRefurbished
    isNewArrival := p.product.isNewArrival
    ratingAvg := p.product.ratingAvg
    reviewCount := p.product.reviewCount
    priceFrom := (active.map fun v => v.data.salePrice).min?
    currency := cheapest.map fun v => v.data.currency
    stockStatus := cheapest.map fun v => v.data.stockStatus }

def mapVariant (v : ProductVariant) : VariantView := ⟨v.id, v.productId, v.data, v.status⟩

def mapProductDetail (p : IncludedProduct) : ProductView where
  item := mapProductListItem p
  description := p.product.description
  seoTitle := p.product.seoTitle
  seoDescription := p.product.seoDescription
  metaKeywords := p.product.metaKeywords
  canonicalUrl := p.product.canonicalUrl
  isOpenBox := p.product.isOpenBox
  productTypeId := p.product.productTypeId
  variants := (p.variants.filter fun v => !v.deleted).map mapVariant

/-- `findSeo`; which of several rows comes is up to the database. -/
def findSeo (rank : ℕ → ℕ) (s : Storefront π) (p : Product) : Option SeoMetadata :=
  let found := s.seo.filter fun m => !m.deleted && m.active && m.entityId == p.id &&
    (p.slug == .text "" || m.slug == p.slug)
  found[rank 0 % found.length]?

def seoView (seo : Option SeoMetadata) (p : Product) : SeoView :=
  match seo with
  | some m => ⟨m.metaTitle.or p.seoTitle, m.metaDescription.or p.seoDescription,
      m.canonicalUrl.or p.canonicalUrl, m.ogTitle, m.ogDescription, m.ogImageFileId, m.structuredData⟩
  | none => ⟨p.seoTitle, p.seoDescription, p.canonicalUrl, p.seoTitle, p.seoDescription, none, none⟩

/-- `search` of a category, newest first. -/
def newestOf (rank : ℕ → ℕ) (s : Storefront π) (categoryId limit : ℕ) : List IncludedProduct :=
  let rows := s.products.rows.filter fun p => !p.deleted && p.status == .active && p.categoryId == categoryId
  ((rows.insertionSort fun a b => rank a.id ≤ rank b.id).take limit).map (productInclude rank s)

def notFound (what : String) : Failure := .throwApp .notFound (what ++ " not found") 404

namespace CatalogService

open CatalogCacheService

/-- The factory of `getProduct`. -/
def productPage (name : ProductName) : ProductProg π (ProductDetail π) := do
  let found ← query (.findProduct name) fun i s => (lookup s name).map (productInclude i.rank s)
  let row ← Prog.orThrow (notFound "Product") (found.filter fun r => r.product.status == .active)
  let aside ← query (.aside row.product.id) fun _ s => s.aside row.product.id
  let seo ← query (.findSeo row.product.id) fun i s => findSeo i.rank s row.product
  let related ← query (.search row.product.categoryId) fun i s =>
    newestOf i.rank s row.product.categoryId 8
  let crumbs ← onCategories (breadcrumb row.product.categoryId)
  pure
    { product := mapProductDetail row
      aside := aside
      relatedProducts :=
        ((related.filter fun p => p.product.id != row.product.id).take 6).map mapProductListItem
      breadcrumbs := crumbs.map fun c => (c.id, c.name, c.slug)
      seo := seoView seo row.product }

def getProduct (name : ProductName) : ProductProg π (ProductDetail π) :=
  getOrSet name (productPage name)

end CatalogService

/-! ### Writes -/

structure CreateProductDto where
  brandId : ℕ
  categoryId : ℕ
  productTypeId : ℕ
  name : String
  slug : ProductName
  shortDescription : Option String := none
  description : Option String := none
  seoTitle : Option String := none
  seoDescription : Option String := none
  metaKeywords : Option String := none
  canonicalUrl : Option String := none
  isFeatured : Option Bool := none
  isRefurbished : Option Bool := none
  isOpenBox : Option Bool := none
  isNewArrival : Option Bool := none

/-- `PartialType(CreateProductDto)`; a text that the table need not have may be set to `null`. -/
structure UpdateProductDto where
  brandId : Option ℕ := none
  categoryId : Option ℕ := none
  productTypeId : Option ℕ := none
  name : Option String := none
  slug : Option ProductName := none
  shortDescription : Option (Option String) := none
  description : Option (Option String) := none
  seoTitle : Option (Option String) := none
  seoDescription : Option (Option String) := none
  metaKeywords : Option (Option String) := none
  canonicalUrl : Option (Option String) := none
  isFeatured : Option Bool := none
  isRefurbished : Option Bool := none
  isOpenBox : Option Bool := none
  isNewArrival : Option Bool := none

structure CreateVariantDto where
  productId : Uuid
  sku : String
  barcode : Option String := none
  ram : Option String := none
  storage : Option String := none
  processor : Option String := none
  gpu : Option String := none
  color : Option String := none
  batteryHealth : Option ℤ := none
  condition : Option ProductCondition := none
  grade : Option ProductGrade := none
  mrp : ℚ
  salePrice : ℚ
  currency : Option String := none
  stockStatus : Option StockStatus := none
  attributeValueIds : List ℕ := []

/-- `PartialType(CreateVariantDto)`; the product and the grade are not read. -/
structure UpdateVariantDto where
  sku : Option String := none
  barcode : Option (Option String) := none
  ram : Option (Option String) := none
  storage : Option (Option String) := none
  processor : Option (Option String) := none
  gpu : Option (Option String) := none
  color : Option (Option String) := none
  batteryHealth : Option (Option ℤ) := none
  condition : Option ProductCondition := none
  mrp : Option ℚ := none
  salePrice : Option ℚ := none
  currency : Option String := none
  stockStatus : Option StockStatus := none
  attributeValueIds : Option (List ℕ) := none

namespace ProductRepository

def fits (p : Product) : Bool :=
  fitsVarchar 255 p.name &&
    (match p.slug with
      | .uuid _ => true
      | .text t => fitsVarchar 280 t) &&
    p.shortDescription.all (fitsVarchar 512) && p.seoTitle.all (fitsVarchar 180) &&
    p.seoDescription.all (fitsVarchar 320) && p.metaKeywords.all (fitsVarchar 512) &&
    p.canonicalUrl.all (fitsVarchar 512)

def checkRow (p : Product) (s : Storefront π) : Except Failure Unit := do
  check (s.brands.any (fun b => b.id == p.brandId) &&
    (s.categories.categories.find? p.categoryId).isSome && s.productTypes.contains p.productTypeId) "P2025"
  check (fits p) "products"

/-- Writes the table, if no two products that are not deleted have the same slug. -/
def save (T : Table Product) (s : Storefront π) : Except Failure (Storefront π) :=
  if h : SlugsUnique T then .ok { s with products := T, slugs := h }
  else .error (.constraint "uq_products_slug_active")

def insertRow (rank : ℕ → ℕ) (dto : CreateProductDto) (s : Storefront π) :
    Except Failure (IncludedProduct × Storefront π) := do
  let mk := fun n =>
    { id := n, brandId := dto.brandId, categoryId := dto.categoryId, productTypeId := dto.productTypeId,
      name := dto.name, slug := dto.slug, shortDescription := dto.shortDescription,
      description := dto.description, seoTitle := dto.seoTitle, seoDescription := dto.seoDescription,
      metaKeywords := dto.metaKeywords, canonicalUrl := dto.canonicalUrl,
      isFeatured := dto.isFeatured.getD false, isRefurbished := dto.isRefurbished.getD false,
      isOpenBox := dto.isOpenBox.getD false, isNewArrival := dto.isNewArrival.getD false : Product }
  let p := mk s.products.next
  checkRow p s
  let s' ← save (s.products.insert mk) s
  return (productInclude rank s' p, s')

def create (dto : CreateProductDto) : ProductProg π IncludedProduct :=
  atomic (.createProduct dto.slug) fun i s => insertRow i.rank dto s

def patch (dto : UpdateProductDto) (p : Product) : Product :=
  { p with
    brandId := dto.brandId.getD p.brandId
    categoryId := dto.categoryId.getD p.categoryId
    productTypeId := dto.productTypeId.getD p.productTypeId
    name := dto.name.getD p.name
    slug := dto.slug.getD p.slug
    shortDescription := dto.shortDescription.getD p.shortDescription
    description := dto.description.getD p.description
    seoTitle := dto.seoTitle.getD p.seoTitle
    seoDescription := dto.seoDescription.getD p.seoDescription
    metaKeywords := dto.metaKeywords.getD p.metaKeywords
    canonicalUrl := dto.canonicalUrl.getD p.canonicalUrl
    isFeatured := dto.isFeatured.getD p.isFeatured
    isRefurbished := dto.isRefurbished.getD p.isRefurbished
    isOpenBox := dto.isOpenBox.getD p.isOpenBox
    isNewArrival := dto.isNewArrival.getD p.isNewArrival }

theorem key_patch (dto : UpdateProductDto) (p : Product) : key (patch dto p) = key p := rfl

def updateRow (rank : ℕ → ℕ) (id : ℕ) (dto : UpdateProductDto) (s : Storefront π) :
    Except Failure (IncludedProduct × Storefront π) := do
  let p ← existing s.products id
  checkRow (patch dto p) s
  let s' ← save (s.products.update id (patch dto) (key_patch dto)) s
  return (productInclude rank s' (patch dto p), s')

def archive (p : Product) : Product := { p with deleted := true, status := .archived }

theorem key_archive (p : Product) : key (archive p) = key p := rfl

def deleteRow (id : ℕ) (s : Storefront π) : Except Failure (Unit × Storefront π) := do
  let _ ← existing s.products id
  let s' ← save (s.products.update id archive key_archive) s
  return ((), s')

end ProductRepository

namespace VariantRepository

def findById (id : ℕ) : ProductProg π (Option ProductVariant) :=
  query (.findVariant id) fun _ s => (s.variants.find? id).filter fun v => !v.deleted

def findBySku (sku : String) : ProductProg π (Option ProductVariant) :=
  query (.findBySku sku) fun _ s => s.variants.first? fun v => v.data.sku == sku && !v.deleted

def checkRow (v : ProductVariant) (s : Storefront π) : Except Failure Unit := do
  let d := v.data
  check (fitsVarchar 64 d.sku && d.barcode.all (fitsVarchar 64) && d.ram.all (fitsVarchar 32) &&
    d.storage.all (fitsVarchar 64) && d.processor.all (fitsVarchar 120) &&
    d.gpu.all (fitsVarchar 120) && d.color.all (fitsVarchar 64) && fitsVarchar 3 d.currency &&
    d.batteryHealth.all fun b => decide (0 ≤ b ∧ b ≤ 100)) "product_variants"
  check (decide (0 ≤ d.salePrice ∧ d.mrp < 10000000000)) "product_variants_price_check"
  check (decide (d.salePrice ≤ d.mrp)) "chk_variant_sale_lte_mrp"
  check (s.variants.rows.all fun w => w.id == v.id || w.deleted || v.deleted || w.data.sku != d.sku)
    "uq_product_variants_sku_active"
  check (s.variants.rows.all fun w => w.id == v.id || w.deleted || v.deleted || d.barcode.isNone ||
    w.data.barcode != d.barcode) "uq_product_variants_barcode_active"

def insertRow (dto : CreateVariantDto) (s : Storefront π) :
    Except Failure (ProductVariant × Storefront π) := do
  let mk := fun n =>
    { id := n, productId := dto.productId.id
      data :=
        { sku := dto.sku, barcode := dto.barcode, ram := dto.ram, storage := dto.storage,
          processor := dto.processor, gpu := dto.gpu, color := dto.color,
          batteryHealth := dto.batteryHealth, condition := dto.condition.getD .newSealed,
          grade := dto.grade.getD .ungraded, mrp := dto.mrp, salePrice := dto.salePrice,
          currency := dto.currency.getD "INR", stockStatus := dto.stockStatus.getD .inStock } :
      ProductVariant }
  check (s.products.find? dto.productId.id).isSome "P2025"
  checkRow (mk s.variants.next) s
  return (mk s.variants.next, { s with variants := s.variants.insert mk })

def create (dto : CreateVariantDto) : ProductProg π ProductVariant :=
  atomic (.writeVariant dto.productId.id [.uuid dto.productId]) fun _ s => insertRow dto s

def patch (dto : UpdateVariantDto) (v : ProductVariant) : ProductVariant :=
  { v with
    data :=
      { v.data with
        sku := dto.sku.getD v.data.sku
        barcode := dto.barcode.getD v.data.barcode
        ram := dto.ram.getD v.data.ram
        storage := dto.storage.getD v.data.storage
        processor := dto.processor.getD v.data.processor
        gpu := dto.gpu.getD v.data.gpu
        color := dto.color.getD v.data.color
        batteryHealth := dto.batteryHealth.getD v.data.batteryHealth
        condition := dto.condition.getD v.data.condition
        mrp := dto.mrp.getD v.data.mrp
        salePrice := dto.salePrice.getD v.data.salePrice
        currency := dto.currency.getD v.data.currency
        stockStatus := dto.stockStatus.getD v.data.stockStatus } }

def archive (v : ProductVariant) : ProductVariant := { v with deleted := true, status := .archived }

theorem key_patch (dto : UpdateVariantDto) (v : ProductVariant) : key (patch dto v) = key v := rfl

theorem key_archive (v : ProductVariant) : key (archive v) = key v := rfl

/-- `update` of the row `id`, whose product is `productId`. -/
def write (id productId : ℕ) (g : ProductVariant → ProductVariant) (hg : ∀ v, key (g v) = key v) :
    ProductProg π ProductVariant :=
  atomic (.writeVariant productId [.uuid ⟨productId, 0⟩]) fun _ s => do
    let v ← existing s.variants id
    checkRow (g v) s
    return (g v, { s with variants := s.variants.update id g hg })

/-- The rows that say which value a variant has are read nowhere here. -/
def setAttributeValues (due : List ProductName) (ids : List ℕ) : ProductProg π Unit :=
  atomic (.setAttributeValues ids due) fun _ s => do
    demand (ids.isEmpty || (s.attributeValues.filter ids.contains).length == ids.length)
      (.error "INVALID_ATTRIBUTE_VALUES")
    return ((), s)

end VariantRepository

namespace CatalogService

open CatalogCacheService

def requireProduct (id : ℕ) : ProductProg π Product := do
  let row ← query (.findProduct (.uuid ⟨id, 0⟩)) fun _ s => findById s id
  Prog.orThrow (notFound "Product") row

def requireBrand (id : ℕ) : ProductProg π Brand := do
  let row ← query (.findBrand id) fun _ s => s.brands.find? fun b => b.id == id && !b.deleted
  Prog.orThrow (notFound "Brand") row

def requireProductCategory (id : ℕ) : ProductProg π Category := onCategories (requireCategory id)

def assertProductSlugFree (slug : ProductName) : ProductProg π Unit := do
  let row ← query (.findBySlug slug) fun _ s => findBySlug s slug
  Prog.ensure (row.isNone = true) (.throwApp .conflict "Product slug already exists" 409)

def assertSkuFree (sku : String) : ProductProg π Unit := do
  let row ← VariantRepository.findBySku sku
  Prog.ensure (row.isNone = true) (.throwApp .conflict "SKU already exists" 409)

def publish (event : String) : ProductProg π Unit := Prog.call (.publish event) fun _ s => (.ok (), s)

/-- `if (o) await f(o)`. -/
def whenGiven {α β : Type} (o : Option α) (f : α → ProductProg π β) : ProductProg π Unit :=
  match o with
  | some a => do let _ ← f a
  | none => pure ()

def createProduct (token : ℕ) (dto : CreateProductDto) : ProductProg π ProductView :=
  LockService.withLock (.productSlug dto.slug) token do
    assertProductSlugFree dto.slug
    let _ ← requireBrand dto.brandId
    let _ ← requireProductCategory dto.categoryId
    let row ← ProductRepository.create dto
    invalidateProduct (.uuid ⟨row.product.id, 0⟩) (some row.product.slug)
    CatalogCacheService.invalidateTaxonomy
    publish "product.created"
    pure (mapProductDetail row)

def updateProduct (id : Uuid) (dto : UpdateProductDto) : ProductProg π ProductView := do
  let existing ← requireProduct id.id
  whenGiven ((given dto.slug).filter fun slug => slug != existing.slug) assertProductSlugFree
  whenGiven dto.brandId requireBrand
  whenGiven dto.categoryId requireProductCategory
  let slug := dto.slug.getD existing.slug
  let row ← atomic (.writeProduct id.id slug ([.uuid ⟨id.id, 0⟩] ++ (given (some slug)).toList))
    fun i s => ProductRepository.updateRow i.rank id.id dto s
  invalidateProduct (.uuid ⟨row.product.id, 0⟩) (some row.product.slug)
  publish "product.updated"
  pure (mapProductDetail row)

def deleteProduct (id : Uuid) : ProductProg π Unit := do
  let existing ← requireProduct id.id
  atomic (.writeProduct id.id existing.slug ([.uuid id] ++ (given (some existing.slug)).toList))
    fun _ s => ProductRepository.deleteRow id.id s
  invalidateProduct (.uuid id) (some existing.slug)
  publish "product.deleted"

/-- `try { setAttributeValues } catch`: after the variant is written. -/
def assignAttributes (due : List ProductName) (ids : List ℕ) : ProductProg π Unit :=
  tryCatch (VariantRepository.setAttributeValues due ids) fun _ =>
    throw (.throwApp .badRequest "Invalid attribute values" 400)

def createVariant (token : ℕ) (dto : CreateVariantDto) : ProductProg π VariantView :=
  LockService.withLock (.sku dto.sku) token do
    let _ ← requireProduct dto.productId.id
    assertSkuFree dto.sku
    let variant ← VariantRepository.create dto
    whenGiven ((some dto.attributeValueIds).filter fun ids => !ids.isEmpty)
      (assignAttributes [.uuid dto.productId])
    invalidateProduct (.uuid dto.productId) none
    publish "variant.created"
    pure (mapVariant variant)

def updateVariant (id : ℕ) (dto : UpdateVariantDto) : ProductProg π VariantView := do
  let found ← VariantRepository.findById id
  let existing ← Prog.orThrow (notFound "Variant") found
  whenGiven ((truthy dto.sku).filter fun sku => sku != existing.data.sku) assertSkuFree
  let variant ← VariantRepository.write id existing.productId (VariantRepository.patch dto)
    (VariantRepository.key_patch dto)
  whenGiven dto.attributeValueIds (assignAttributes [.uuid ⟨existing.productId, 0⟩])
  invalidateProduct (.uuid ⟨existing.productId, 0⟩) none
  pure (mapVariant variant)

def deleteVariant (id : ℕ) : ProductProg π Unit := do
  let found ← VariantRepository.findById id
  let existing ← Prog.orThrow (notFound "Variant") found
  let _ ← VariantRepository.write id existing.productId VariantRepository.archive
    VariantRepository.key_archive
  invalidateProduct (.uuid ⟨existing.productId, 0⟩) none

end CatalogService

/-! ### Requests -/

inductive ProductRequest where
  | getProduct (name : ProductName)
  | createProduct (token : ℕ) (dto : CreateProductDto)
  | updateProduct (id : Uuid) (dto : UpdateProductDto)
  | deleteProduct (id : Uuid)
  | createVariant (token : ℕ) (dto : CreateVariantDto)
  | updateVariant (id : ℕ) (dto : UpdateVariantDto)
  | deleteVariant (id : ℕ)

def ProductRequest.prog : ProductRequest → ProductProg π (Option (ProductDetail π))
  | .getProduct name => do
    let page ← CatalogService.getProduct name
    pure (some page)
  | .createProduct token dto => do
    let _ ← CatalogService.createProduct token dto
    pure none
  | .updateProduct id dto => do
    let _ ← CatalogService.updateProduct id dto
    pure none
  | .deleteProduct id => do
    CatalogService.deleteProduct id
    pure none
  | .createVariant token dto => do
    let _ ← CatalogService.createVariant token dto
    pure none
  | .updateVariant id dto => do
    let _ ← CatalogService.updateVariant id dto
    pure none
  | .deleteVariant id => do
    CatalogService.deleteVariant id
    pure none

end ElectronicsCart.Catalog
