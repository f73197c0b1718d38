import ElectronicsCart.Core.Environment
import ElectronicsCart.Core.Values
import ElectronicsCart.Lib.ReadThrough

/-!
# `shared/cache/cache.service.ts`

Redis holds for each key the JSON text of a value; here it holds what that text parses
to.  The services' own `getOrSet` is the same function for orders, payments, warranty
and marketing.
-/

namespace ElectronicsCart

/-- A key without an entry, or with the entry `null`, holds `none`. -/
abbrev CacheStore := String → Option JsValue

/-- Whether Redis fails the two calls of one `getOrSet`. -/
structure RedisInput where
  getFails : Bool := false
  setFails : Bool := false
deriving DecidableEq, Repr

namespace CacheService

variable (rt : Runtime)

/-- What a value is once it was written and is read again. -/
def entry (value : JsValue) : Option JsValue :=
  match value.revived rt with
  | some .null => none
  | parsed => parsed

/-- Fail-open: an error is a miss. -/
def get (i : RedisInput) (key : String) (store : CacheStore) : Option JsValue :=
  if i.getFails then none else store key

def set (i : RedisInput) (key : String) (value : JsValue) (store : CacheStore) : CacheStore :=
  if i.setFails then store else Function.update store key (entry rt value)

def getOrSet (i : RedisInput) (key : String) (factory : Except Failure JsValue)
    (store : CacheStore) : Except Failure JsValue × CacheStore :=
  match get i key store with
  | some hit => (.ok hit, store)
  | none =>
    match factory with
    | .error e => (.error e, store)
    | .ok value => (.ok value, set rt i key value store)

/-- The read of the library that a `getOrSet` is. -/
def access (i : RedisInput) (key : String) (factory : Except Failure JsValue) :
    ReadThrough.Access String JsValue Failure where
  key := key
  source := factory
  getFails := i.getFails
  setFails := i.setFails

theorem getOrSet_eq (i : RedisInput) (key : String) (factory : Except Failure JsValue)
    (store : CacheStore) :
    getOrSet rt i key factory store =
      ReadThrough.read (entry rt) store (access i key factory) := by
  have hhit : ReadThrough.hit store (access i key factory) = get i key store := rfl
  cases hget : get i key store with
  | some hit => simp [getOrSet, ReadThrough.read, hhit, hget]
  | none =>
    simp only [getOrSet, ReadThrough.read, hhit, hget]
    cases factory <;> rfl

@[simp] theorem entry_object (fields : List (String × JsValue)) :
    entry rt (.object fields) = some (.object (JsValue.revivedFields rt fields)) := rfl

@[simp] theorem entry_array (xs : List JsValue) :
    entry rt (.array xs) = some (.array (JsValue.revivedItems rt xs)) := rfl

end CacheService

end ElectronicsCart
