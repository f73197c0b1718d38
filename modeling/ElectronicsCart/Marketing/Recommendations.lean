import ElectronicsCart.Core.Cache
import ElectronicsCart.Marketing.Coupons
import Mathlib.Data.List.Sort

/-!
# Product recommendations

`RecommendationService.list` of `growth.services.ts`.  The conditions of a recommendation are
evaluated for the customer who asks, inside the factory of a cache entry whose key is the product:
the next customer gets the list of the one who filled the entry.
-/

namespace ElectronicsCart.Marketing

open Rules

inductive RecommendationSource where
  | manual | collaborative | content | trending | boughtTogether | viewedTogether
deriving DecidableEq, Repr

def RecommendationSource.text : RecommendationSource → String
  | manual => "manual"
  | collaborative => "collaborative"
  | content => "content"
  | trending => "trending"
  | boughtTogether => "bought_together"
  | viewedTogether => "viewed_together"

/-- A `product_recommendations` row. -/
structure RecommendationRow where
  id : String
  productId : String
  recommendedProductId : String
  source : RecommendationSource := .manual
  score : Option ℚ := none
  sortOrder : ℤ := 0
  status : RecordStatus := .active
  deleted : Bool := false
deriving DecidableEq, Repr

/-- An `audit_logs` row. -/
structure AuditLogRow where
  entityType : String
  entityId : Option String
  action : String
  newValues : Option JsValue := none
  createdAt : ℤ := 0

structure RecentlyViewedRow where
  customerId : Option String
  productId : String
  viewedAt : ℤ := 0
  deleted : Bool := false

/-- The tables that `list` reads.  Rows that an `ORDER BY` leaves tied come as they stand here. -/
structure RecommendationDatabase where
  recommendations : List RecommendationRow
  audits : List AuditLogRow := []
  recentlyViewed : List RecentlyViewedRow := []
  nodup : (recommendations.map RecommendationRow.id).Nodup

structure ListCall where
  productId : Option String := none
  customerId : Option String := none
  type : Option String := none
  redis : RedisInput := {}
  /-- a query fails -/
  dbFails : Bool := false
  now : ℤ := 0
deriving DecidableEq, Repr

/-! ### Queries -/

/-- `ORDER BY score DESC`; PostgreSQL puts the rows without a score first. -/
def scorePrecedes : Option ℚ → Option ℚ → Bool
  | none, _ => true
  | some _, none => false
  | some x, some y => decide (y ≤ x)

/-- `ORDER BY sort_order ASC, score DESC`. -/
def precedes (a b : RecommendationRow) : Bool :=
  decide (a.sortOrder < b.sortOrder) || a.sortOrder == b.sortOrder && scorePrecedes a.score b.score

def topRows (db : RecommendationDatabase) (productId : String) : List RecommendationRow :=
  ((db.recommendations.filter fun r =>
    r.productId == productId && !r.deleted && decide (r.status = .active)).insertionSort
      fun a b => precedes a b = true).take 20

def conditionsAudit (db : RecommendationDatabase) (id : String) : Option AuditLogRow :=
  ((db.audits.filter fun a => a.entityType == "recommendation_rule" && a.entityId == some id &&
    a.action == "conditions").insertionSort fun a b => b.createdAt ≤ a.createdAt).head?

def recentlyViewed (db : RecommendationDatabase) (customerId : String) : List RecentlyViewedRow :=
  ((db.recentlyViewed.filter fun r => r.customerId == some customerId && !r.deleted).insertionSort
    fun a b => b.viewedAt ≤ a.viewedAt).take 12

/-! ### The list -/

section List

variable (rt : Runtime) (db : RecommendationDatabase)

def facts (productId : String) (q : ListCall) : JsValue :=
  .object
    [("customer", .object [("id", .str q.customerId)]),
     ("product", .object [("id", .string productId)]),
     ("now", .string (rt.toISOString q.now))]

def eligible (productId : String) (q : ListCall) (r : RecommendationRow) : Bool :=
  match (conditionsAudit db r.id).bind AuditLogRow.newValues with
  | none => true
  | some conditions =>
    !conditions.truthy || (evaluate rt conditions (facts rt productId q) {}).matched

def RecommendationRow.view (r : RecommendationRow) : JsValue :=
  .object
    [("id", .string r.id),
     ("productId", .string r.productId),
     ("recommendedProductId", .string r.recommendedProductId),
     ("score", (r.score.map fun x => .number (.finite x)).getD .null),
     ("source", .string r.source.text)]

/-- The recommendations whose conditions hold for the customer of the call. -/
def ownList (productId : String) (q : ListCall) : JsValue :=
  .array (((topRows db productId).filter (eligible rt db productId q)).map RecommendationRow.view)

def recentList (customerId : String) : JsValue :=
  .array ((recentlyViewed db customerId).map fun r =>
    .object [("productId", .string r.productId), ("source", .string "recent")])

/-- `MARKETING_CACHE.recs`. -/
def recsKey (productId : String) : String := "mkt:recs:" ++ productId

def list (q : ListCall) (store : CacheStore) : Except Failure JsValue × CacheStore :=
  match q.type == some "recent", truthy q.customerId with
  | true, some customerId =>
    (if q.dbFails then .error .database else .ok (recentList db customerId), store)
  | _, _ =>
    match truthy q.productId with
    | none => (.ok (.array []), store)
    | some productId =>
      CacheService.getOrSet rt q.redis (recsKey productId)
        (if q.dbFails then .error .database else .ok (ownList rt db productId q)) store

/-! ### Runs -/

def entryProduct (q : ListCall) : Option String :=
  match q.type == some "recent", truthy q.customerId with
  | true, some _ => none
  | _, _ => truthy q.productId

def own (q : ListCall) : JsValue :=
  match entryProduct q with
  | some productId => ownList rt db productId q
  | none =>
    match q.type == some "recent", truthy q.customerId with
    | true, some customerId => recentList db customerId
    | _, _ => .array []

/-- A call, or the end of an entry's time to live. -/
inductive ListStep where
  | list (q : ListCall)
  | expire (key : String)

def step (store : CacheStore) : ListStep → CacheStore
  | .list q => (list rt db q store).2
  | .expire key => Function.update store key none

def after (steps : List ListStep) : CacheStore := steps.foldl (step rt db) fun _ => none

end List

/-- Who has filled the entry of the product, after one more step. -/
def refill (productId : String) (current : Option ListCall) : ListStep → Option ListCall
  | .expire key => if key = recsKey productId then none else current
  | .list q =>
    if entryProduct q = some productId ∧ (q.redis.getFails = true ∨ current = none) ∧
        q.dbFails = false ∧ q.redis.setFails = false then some q
    else current

def filler (productId : String) (steps : List ListStep) : Option ListCall :=
  steps.foldl (refill productId) none

/-- The product of the call and the earlier call whose list it is given. -/
def servedBy (steps : List ListStep) (q : ListCall) : Option (String × ListCall) :=
  match entryProduct q with
  | none => none
  | some productId =>
    if q.redis.getFails then none else (filler productId steps).map fun p => (productId, p)

variable {rt : Runtime} {db : RecommendationDatabase} {steps : List ListStep} {q : ListCall}
  {productId : String}

/-! ### Lists -/

theorem revived_view (r : RecommendationRow) : r.view.revived rt = some r.view := by
  cases h : r.score <;> simp [RecommendationRow.view, JsValue.revived, JsValue.revivedFields, h]

theorem revivedItems_views (rows : List RecommendationRow) :
    JsValue.revivedItems rt (rows.map RecommendationRow.view) = rows.map RecommendationRow.view := by
  induction rows with
  | nil => rfl
  | cons r rows ih => simp [JsValue.revivedItems, revived_view, ih]

theorem entry_ownList : CacheService.entry rt (ownList rt db productId q) =
    some (ownList rt db productId q) := by
  rw [ownList, CacheService.entry_array, revivedItems_views]

theorem recsKey_inj {p p' : String} (h : recsKey p = recsKey p') : p = p' := by
  have htext := congrArg String.toList h
  simp only [recsKey, String.toList_append, List.append_cancel_left_eq] at htext
  exact String.ext htext

theorem mem_topRows {r : RecommendationRow} (h : r ∈ topRows db productId) :
    r ∈ db.recommendations := by
  have hsorted := List.mem_of_mem_take h
  rw [List.mem_insertionSort] at hsorted
  exact (List.mem_filter.mp hsorted).1

theorem saved_of_id {r r' : RecommendationRow} (hr : r ∈ db.recommendations)
    (hr' : r' ∈ db.recommendations) (h : r.id = r'.id) : r = r' :=
  List.inj_on_of_nodup_map db.nodup hr hr' h

theorem view_id {r r' : RecommendationRow} (h : r.view = r'.view) : r.id = r'.id := by
  simp only [RecommendationRow.view, JsValue.object.injEq, List.cons.injEq, Prod.mk.injEq,
    JsValue.string.injEq] at h
  exact h.1.2

theorem ownList_eq_iff {q' : ListCall} : ownList rt db productId q = ownList rt db productId q' ↔
    ∀ r ∈ topRows db productId, eligible rt db productId q r = eligible rt db productId q' r := by
  constructor
  · intro h
    have hviews := JsValue.array.inj h
    have hstep : ∀ {a b : ListCall}, ((topRows db productId).filter (eligible rt db productId a)).map
        RecommendationRow.view = ((topRows db productId).filter (eligible rt db productId b)).map
          RecommendationRow.view → ∀ r ∈ topRows db productId, eligible rt db productId a r = true →
            eligible rt db productId b r = true := by
      intro a b hab r hr ha
      have hmem : r.view ∈ ((topRows db productId).filter (eligible rt db productId b)).map
          RecommendationRow.view := by
        rw [← hab]
        exact List.mem_map_of_mem (List.mem_filter.mpr ⟨hr, ha⟩)
      obtain ⟨r', hr', hview⟩ := List.mem_map.mp hmem
      obtain ⟨htop, hb⟩ := List.mem_filter.mp hr'
      rw [saved_of_id (mem_topRows hr) (mem_topRows htop) (view_id hview).symm]
      exact hb
    intro r hr
    rw [Bool.eq_iff_iff]
    exact ⟨hstep hviews r hr, hstep hviews.symm r hr⟩
  · intro h
    rw [ownList, ownList, List.filter_congr h]

/-! ### One call -/

def factory (rt : Runtime) (db : RecommendationDatabase) (productId : String) (q : ListCall) :
    Except Failure JsValue :=
  if q.dbFails then .error .database else .ok (ownList rt db productId q)

variable {store : CacheStore} {current : Option ListCall} {v : JsValue}

theorem list_of_entry (h : entryProduct q = some productId) : list rt db q store =
    CacheService.getOrSet rt q.redis (recsKey productId) (factory rt db productId q) store := by
  simp only [entryProduct, list, factory] at h ⊢
  cases hrecent : q.type == some "recent" with
  | false => simp [hrecent] at h ⊢; simp [h]
  | true =>
    cases hcustomer : truthy q.customerId with
    | none => simp [hrecent, hcustomer] at h ⊢; simp [h]
    | some customerId => simp [hrecent, hcustomer] at h

theorem list_of_none (h : entryProduct q = none) :
    (list rt db q store).2 = store ∧ ∀ v, (list rt db q store).1 = .ok v → v = own rt db q := by
  simp only [own, h]
  simp only [entryProduct, list] at h ⊢
  cases hrecent : q.type == some "recent" with
  | false => simp [hrecent] at h ⊢; simp [h]
  | true =>
    cases hcustomer : truthy q.customerId with
    | none => simp [hrecent, hcustomer] at h ⊢; simp [h]
    | some customerId => cases hf : q.dbFails <;> simp

theorem own_of_entry (h : entryProduct q = some productId) : own rt db q = ownList rt db productId q := by
  rw [own, h]

theorem getOrSet_other {i : RedisInput} {key key' : String} {source : Except Failure JsValue}
    (h : key' ≠ key) : (CacheService.getOrSet rt i key source store).2 key' = store key' := by
  unfold CacheService.getOrSet
  split
  · rfl
  · split
    · rfl
    · unfold CacheService.set
      split
      · rfl
      · exact Function.update_of_ne h _ _

/-- The entry of the product is the list of the call that filled it. -/
def Filled (rt : Runtime) (db : RecommendationDatabase) (productId : String)
    (current : Option ListCall) (store : CacheStore) : Prop :=
  store (recsKey productId) = current.map (ownList rt db productId)

theorem list_hit {p : ListCall} (hentry : entryProduct q = some productId)
    (hget : q.redis.getFails = false) (h : Filled rt db productId (some p) store) :
    list rt db q store = (.ok (ownList rt db productId p), store) := by
  have hhit : CacheService.get q.redis (recsKey productId) store =
      some (ownList rt db productId p) := by
    rw [CacheService.get, hget]
    exact h
  rw [list_of_entry hentry]
  unfold CacheService.getOrSet
  rw [hhit]

theorem list_miss (hentry : entryProduct q = some productId)
    (hget : q.redis.getFails = true ∨ current = none) (h : Filled rt db productId current store) :
    (∀ v, (list rt db q store).1 = .ok v → v = own rt db q) ∧
      Filled rt db productId (if q.dbFails = false ∧ q.redis.setFails = false then some q else current)
        (list rt db q store).2 := by
  have hmiss : CacheService.get q.redis (recsKey productId) store = none := by
    rw [CacheService.get]
    rcases hget with hget | rfl
    · rw [if_pos hget]
    · split
      · rfl
      · exact h
  rw [list_of_entry hentry, own_of_entry hentry]
  unfold CacheService.getOrSet factory
  rw [hmiss]
  cases hdb : q.dbFails with
  | true =>
    refine ⟨fun v hv => (nomatch hv), ?_⟩
    simpa using h
  | false =>
    refine ⟨fun v hv => (Except.ok.inj hv).symm, ?_⟩
    simp only [Bool.false_eq_true, if_false, CacheService.set, true_and]
    cases hset : q.redis.setFails with
    | true => simpa using h
    | false =>
      simp only [Bool.false_eq_true, if_false, if_true, Filled, Function.update_self, entry_ownList,
        Option.map_some]

theorem filled_step (e : ListStep) (h : Filled rt db productId current store) :
    Filled rt db productId (refill productId current e) (step rt db store e) := by
  cases e with
  | expire key =>
    simp only [refill, step, Filled]
    by_cases hkey : key = recsKey productId
    · rw [if_pos hkey, hkey, Function.update_self]
      rfl
    · rw [if_neg hkey, Function.update_of_ne (Ne.symm hkey)]
      exact h
  | list q =>
    simp only [refill, step]
    by_cases hentry : entryProduct q = some productId
    · by_cases hmiss : q.redis.getFails = true ∨ current = none
      · have hfilled := (list_miss hentry hmiss h).2
        simpa only [hentry, hmiss, true_and] using hfilled
      · rw [if_neg fun hfill => hmiss hfill.2.1]
        obtain ⟨hget, hsome⟩ := not_or.mp hmiss
        obtain ⟨p, rfl⟩ := Option.ne_none_iff_exists'.mp hsome
        rw [list_hit hentry (by simpa using hget) h]
        exact h
    · rw [if_neg fun hfill => hentry hfill.1]
      cases hother : entryProduct q with
      | none =>
        rw [(list_of_none hother).1]
        exact h
      | some p =>
        rw [list_of_entry hother, Filled, getOrSet_other]
        · exact h
        · intro hkey
          rw [hother, recsKey_inj hkey] at hentry
          exact hentry rfl

/-! ### Every sequence of calls -/

theorem filled_after (productId : String) (steps : List ListStep) :
    Filled rt db productId (filler productId steps) (after rt db steps) := by
  induction steps using List.reverseRecOn with
  | nil => rfl
  | append_singleton steps e ih =>
    rw [filler, after, List.foldl_concat, List.foldl_concat]
    exact filled_step e ih

/-- One recommendation, for customer `c1` only. -/
def onlyForFirst : RecommendationDatabase where
  recommendations := [{ id := "r1", productId := "p1", recommendedProductId := "p2" }]
  audits := [{ entityType := "recommendation_rule", entityId := some "r1", action := "conditions",
               newValues := some (condition "customer.id" "eq" (.string "c1")) }]
  nodup := List.nodup_singleton _

end ElectronicsCart.Marketing
