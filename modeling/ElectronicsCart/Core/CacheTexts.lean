import ElectronicsCart.Core.Cache
import ElectronicsCart.Core.JsonTexts

/-!
# The cache at the level of its texts

`CacheService` as Redis sees it: every entry is a text, `set` prints the value and `get` parses the
text.  The stores of `Core/Cache.lean`, which hold parsed values, are what these texts stand for.
-/

namespace ElectronicsCart.RedisTexts

variable (rt : Runtime)

abbrev Texts := String → Option String

/-! ### `cache.service.ts` -/

/-- An error of Redis or of the parser is a miss. -/
def get (fails : Bool) (key : String) (texts : Texts) : JsValue :=
  if fails then .null
  else match texts key with
    | none => .null
    | some text => (JsValue.parse rt text).getD .null

def assertTtl (ttlSeconds : JsNumber) : Except Failure ℤ :=
  match ttlSeconds with
  | .finite q =>
    if q ≤ 0 then .error (.error ("Invalid cache TTL: " ++ JsValue.toText rt (.number ttlSeconds)))
    else .ok q.floor
  | _ => .error (.error ("Invalid cache TTL: " ++ JsValue.toText rt (.number ttlSeconds)))

/-- Redis refuses to keep an entry for no time. -/
def refused (fails : Bool) (ttlSeconds : JsNumber) : Bool :=
  match assertTtl rt ttlSeconds with
  | .ok ttl => fails || decide (ttl = 0)
  | .error _ => true

/-- The client sends an empty text for `undefined`. -/
def set (fails : Bool) (key : String) (value : JsValue) (ttlSeconds : JsNumber) (texts : Texts) : Texts :=
  if refused rt fails ttlSeconds then texts
  else Function.update texts key (some ((JsValue.stringify rt value).getD ""))

def getOrSet (i : RedisInput) (key : String) (factory : Except Failure JsValue) (ttlSeconds : JsNumber)
    (texts : Texts) : Except Failure JsValue × Texts :=
  match get rt i.getFails key texts with
  | .null =>
    match factory with
    | .error e => (.error e, texts)
    | .ok value => (.ok value, set rt i.setFails key value ttlSeconds texts)
  | cached => (.ok cached, texts)

/-- `del`, on texts or on values. -/
def del {α : Type} (fails : Bool) (key : String) (store : String → Option α) : String → Option α :=
  if fails then store else Function.update store key none

/-- `client.del(...keys)` answers how many of the keys there were. -/
def delKeys {α : Type} : List String → (String → Option α) → ℕ × (String → Option α)
  | [], store => (0, store)
  | key :: keys, store =>
    let (n, store') := delKeys keys (Function.update store key none)
    ((if (store key).isSome then 1 else 0) + n, store')

/-- The loop over the cursor, with the keys each `SCAN` of the pattern answered. -/
def scan {α : Type} : List (List String) → ℕ → (String → Option α) → ℕ × (String → Option α)
  | [], deleted, store => (deleted, store)
  | keys :: pages, deleted, store =>
    let (n, store') := delKeys keys store
    scan pages (deleted + n) store'

/-- An error ends the loop after the pages it has deleted, and the count is lost. -/
def delByPrefix {α : Type} (fails : Bool) (pages : List (List String)) (store : String → Option α) :
    ℕ × (String → Option α) :=
  let (deleted, store') := scan pages 0 store
  (if fails then 0 else deleted, store')

/-! ### Runs -/

inductive Op where
  | get (fails : Bool) (key : String)
  | set (fails : Bool) (key : String) (value : JsValue) (ttlSeconds : JsNumber)
  | getOrSet (i : RedisInput) (key : String) (factory : Except Failure JsValue) (ttlSeconds : JsNumber)
  | del (fails : Bool) (key : String)
  | delByPrefix (fails : Bool) (pages : List (List String))
  | expire (key : String)

/-- What the caller gets: nothing from `set` and `del`, a count from `delByPrefix`. -/
inductive Answer where
  | nothing
  | value (v : Except Failure JsValue)
  | deleted (n : ℕ)

def Op.onTexts (texts : Texts) : Op → Answer × Texts
  | .get fails key => (.value (.ok (RedisTexts.get rt fails key texts)), texts)
  | .set fails key value ttl => (.nothing, RedisTexts.set rt fails key value ttl texts)
  | .getOrSet i key factory ttl => (RedisTexts.getOrSet rt i key factory ttl texts).map .value id
  | .del fails key => (.nothing, RedisTexts.del fails key texts)
  | .delByPrefix fails pages => (RedisTexts.delByPrefix fails pages texts).map .deleted id
  | .expire key => (.nothing, Function.update texts key none)

def Op.onValues (store : CacheStore) : Op → Answer × CacheStore
  | .get fails key => (.value (.ok ((CacheService.get ⟨fails, false⟩ key store).getD .null)), store)
  | .set fails key value ttl =>
    (.nothing, CacheService.set rt ⟨false, refused rt fails ttl⟩ key value store)
  | .getOrSet i key factory ttl =>
    (CacheService.getOrSet rt ⟨i.getFails, refused rt i.setFails ttl⟩ key factory store).map .value id
  | .del fails key => (.nothing, RedisTexts.del fails key store)
  | .delByPrefix fails pages => (RedisTexts.delByPrefix fails pages store).map .deleted id
  | .expire key => (.nothing, Function.update store key none)

def Op.readable : Op → Bool
  | .set _ _ value _ => value.readable rt
  | .getOrSet _ _ (.ok value) _ => value.readable rt
  | _ => true

def runTexts : List Op → Texts → List Answer × Texts
  | [], texts => ([], texts)
  | op :: ops, texts =>
    let (answer, texts') := op.onTexts rt texts
    let (answers, texts'') := runTexts ops texts'
    (answer :: answers, texts'')

def runValues : List Op → CacheStore → List Answer × CacheStore
  | [], store => ([], store)
  | op :: ops, store =>
    let (answer, store') := op.onValues rt store
    let (answers, store'') := runValues ops store'
    (answer :: answers, store'')

/-! ### What the texts stand for -/

/-- A text stands for what `getOrSet` takes it for. -/
def valueOf (text : String) : Option JsValue :=
  match JsValue.parse rt text with
  | some .null => none
  | parsed => parsed

def values (texts : Texts) : CacheStore := fun key => (texts key).bind (valueOf rt)

/-- A text that stands for no value is deleted and counted as well. -/
inductive Answer.Agree : Answer → Answer → Prop
  | same (a : Answer) : Answer.Agree a a
  | deleted {n k : ℕ} (h : k ≤ n) : Answer.Agree (.deleted n) (.deleted k)

variable {rt} {texts : Texts}

theorem valueOf_ne_null {text : String} : valueOf rt text ≠ some .null := by
  unfold valueOf
  split
  · exact Option.some_ne_none _ ∘ Eq.symm
  next h => exact h

theorem valueOf_stringify {v : JsValue} (h : v.readable rt = true) :
    valueOf rt ((JsValue.stringify rt v).getD "") = CacheService.entry rt v := by
  have hparse := JsValue.parse_stringify rt h
  rw [valueOf, CacheService.entry, ← hparse]
  cases JsValue.stringify rt v <;> rfl

theorem get_eq (fails : Bool) (key : String) :
    get rt fails key texts = (CacheService.get ⟨fails, false⟩ key (values rt texts)).getD .null := by
  cases fails with
  | true => rfl
  | false =>
    simp only [get, CacheService.get, values, Bool.false_eq_true, if_false]
    cases texts key with
    | none => rfl
    | some text =>
      simp only [Option.bind_some, valueOf]
      split
      next h => rw [h]; rfl
      next => rfl

theorem values_update (key : String) (o : Option String) :
    values rt (Function.update texts key o) = Function.update (values rt texts) key (o.bind (valueOf rt)) := by
  funext k
  by_cases hk : k = key
  · subst hk
    simp [values]
  · simp [values, hk]

theorem values_set {v : JsValue} (h : v.readable rt = true) (fails : Bool) (key : String) (ttl : JsNumber) :
    values rt (set rt fails key v ttl texts) =
      CacheService.set rt ⟨false, refused rt fails ttl⟩ key v (values rt texts) := by
  unfold set CacheService.set
  split
  next => rfl
  next => rw [values_update, Option.bind_some, valueOf_stringify h]

theorem values_del (fails : Bool) (key : String) :
    values rt (del fails key texts) = del fails key (values rt texts) := by
  cases fails with
  | true => rfl
  | false => exact values_update key none

theorem delKeys_refines (keys : List String) (texts : Texts) :
    (delKeys keys (values rt texts)).1 ≤ (delKeys keys texts).1 ∧
      values rt (delKeys keys texts).2 = (delKeys keys (values rt texts)).2 := by
  induction keys generalizing texts with
  | nil => exact ⟨le_rfl, rfl⟩
  | cons key keys ih =>
    obtain ⟨hcount, hstore⟩ := ih (Function.update texts key none)
    rw [values_update, Option.bind_none] at hcount hstore
    have hthere : (values rt texts key).isSome → (texts key).isSome := Option.isSome_of_isSome_bind
    refine ⟨Nat.add_le_add ?_ hcount, hstore⟩
    split
    next h => rw [if_pos (hthere h)]
    next => exact Nat.zero_le _

theorem scan_refines (pages : List (List String)) {n k : ℕ} (h : k ≤ n) (texts : Texts) :
    (scan pages k (values rt texts)).1 ≤ (scan pages n texts).1 ∧
      values rt (scan pages n texts).2 = (scan pages k (values rt texts)).2 := by
  induction pages generalizing n k texts with
  | nil => exact ⟨h, rfl⟩
  | cons keys pages ih =>
    obtain ⟨hcount, hstore⟩ := delKeys_refines keys texts
    have hrest := ih (Nat.add_le_add h hcount) (delKeys keys texts).2
    rw [hstore] at hrest
    exact hrest

theorem delByPrefix_refines (fails : Bool) (pages : List (List String)) (texts : Texts) :
    (delByPrefix fails pages (values rt texts)).1 ≤ (delByPrefix fails pages texts).1 ∧
      values rt (delByPrefix fails pages texts).2 = (delByPrefix fails pages (values rt texts)).2 := by
  obtain ⟨hcount, hstore⟩ := scan_refines pages (le_refl 0) texts
  cases fails with
  | true => exact ⟨le_rfl, hstore⟩
  | false => exact ⟨hcount, hstore⟩

theorem getOrSet_eq {factory : Except Failure JsValue} (h : ∀ v, factory = .ok v → v.readable rt = true)
    (i : RedisInput) (key : String) (ttl : JsNumber) :
    (getOrSet rt i key factory ttl texts).1 =
        (CacheService.getOrSet rt ⟨i.getFails, refused rt i.setFails ttl⟩ key factory (values rt texts)).1 ∧
      values rt (getOrSet rt i key factory ttl texts).2 =
        (CacheService.getOrSet rt ⟨i.getFails, refused rt i.setFails ttl⟩ key factory (values rt texts)).2 := by
  have hget : get rt i.getFails key texts =
      (CacheService.get ⟨i.getFails, false⟩ key (values rt texts)).getD .null := get_eq i.getFails key
  have hnull : CacheService.get ⟨i.getFails, refused rt i.setFails ttl⟩ key (values rt texts) ≠ some .null := by
    unfold CacheService.get
    split
    · exact Option.some_ne_none _ ∘ Eq.symm
    · intro hentry
      obtain ⟨text, -, htext⟩ := Option.bind_eq_some_iff.mp hentry
      exact valueOf_ne_null htext
  have hsame : CacheService.get ⟨i.getFails, refused rt i.setFails ttl⟩ key (values rt texts) =
      CacheService.get ⟨i.getFails, false⟩ key (values rt texts) := rfl
  unfold getOrSet CacheService.getOrSet
  rw [hget, ← hsame]
  cases hhit : CacheService.get ⟨i.getFails, refused rt i.setFails ttl⟩ key (values rt texts) with
  | some hit =>
    have hne : hit ≠ .null := fun he => hnull (he ▸ hhit)
    cases hit <;> first | exact absurd rfl hne | exact ⟨rfl, rfl⟩
  | none =>
    cases hf : factory with
    | error e => exact ⟨rfl, rfl⟩
    | ok v => exact ⟨rfl, values_set (h v hf) i.setFails key ttl⟩

theorem Op.refines (texts : Texts) (op : Op) (h : op.readable rt = true) :
    (op.onTexts rt texts).1.Agree (op.onValues rt (values rt texts)).1 ∧
      values rt (op.onTexts rt texts).2 = (op.onValues rt (values rt texts)).2 := by
  cases op with
  | get fails key =>
    refine ⟨?_, rfl⟩
    simp only [onTexts, onValues, get_eq]
    exact .same _
  | set fails key v ttl => exact ⟨.same _, values_set h fails key ttl⟩
  | getOrSet i key factory ttl =>
    have hread : ∀ v, factory = .ok v → v.readable rt = true := by
      rintro v rfl
      exact h
    obtain ⟨hanswer, hstore⟩ := getOrSet_eq hread i key ttl
    refine ⟨?_, hstore⟩
    simp only [onTexts, onValues, Prod.map_fst, hanswer]
    exact .same _
  | del fails key => exact ⟨.same _, values_del fails key⟩
  | delByPrefix fails pages =>
    obtain ⟨hcount, hstore⟩ := delByPrefix_refines fails pages texts
    exact ⟨.deleted hcount, hstore⟩
  | expire key => exact ⟨.same _, values_update key none⟩

/-- The cache that holds texts is the cache that holds values: whatever calls are made of it, in
whatever order, with whatever errors of Redis and whatever entries expire, every caller gets the same
from both, but for the texts without a value that `delByPrefix` counts, and at the end the texts stand
for the values. -/
theorem texts_refine_values (rt : Runtime) (ops : List Op) (texts : Texts)
    (h : ∀ op ∈ ops, op.readable rt = true) :
    List.Forall₂ Answer.Agree (runTexts rt ops texts).1 (runValues rt ops (values rt texts)).1 ∧
      values rt (runTexts rt ops texts).2 = (runValues rt ops (values rt texts)).2 := by
  induction ops generalizing texts with
  | nil => exact ⟨.nil, rfl⟩
  | cons op ops ih =>
    obtain ⟨hanswer, hstore⟩ := op.refines texts (h op List.mem_cons_self)
    have hrest := ih (op.onTexts rt texts).2 fun o ho => h o (List.mem_cons_of_mem op ho)
    rw [hstore] at hrest
    exact ⟨.cons hanswer hrest.1, hrest.2⟩

/-- A product with a price, a date and a name that must be escaped. -/
def cachedProduct : JsValue :=
  .object [("id", .string "p1"), ("name", .string "14\" \\ USB"), ("price", .number (.finite 1499)),
    ("createdAt", .date 0), ("brand", .undefined), ("tags", .array [.string "new", .null])]

def productCalls : List Op :=
  [.getOrSet {} "catalog:product:p1" (.ok cachedProduct) (.finite 60), .get false "catalog:product:p1",
    .set false "catalog:product:p2" .undefined (.finite 60)]

/-- A product that was not found is a text without a value. -/
example :
    (delByPrefix false [["catalog:product:p1"], ["catalog:product:p2"]]
        (runTexts .plain productCalls fun _ => none).2).1 = 2 ∧
      (delByPrefix false [["catalog:product:p1"], ["catalog:product:p2"]]
        (runValues .plain productCalls fun _ => none).2).1 = 1 := by
  decide +kernel

theorem texts_refine_values_product :
    (runTexts .plain productCalls fun _ => none).2 "catalog:product:p1" =
        some ("\x7b\"id\":\"p1\",\"name\":\"14\\\" \\\\ USB\",\"price\":1499," ++
          "\"createdAt\":\"1970-01-01T00:00:00.000Z\",\"tags\":[\"new\",null]\x7d") ∧
      List.Forall₂ Answer.Agree (runTexts .plain productCalls fun _ => none).1
        (runValues .plain productCalls (values .plain fun _ => none)).1 :=
  ⟨by decide +kernel, (texts_refine_values .plain productCalls (fun _ => none) (by decide +kernel)).1⟩

end ElectronicsCart.RedisTexts
