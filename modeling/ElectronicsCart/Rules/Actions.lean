import ElectronicsCart.Lib.Walks
import ElectronicsCart.Rules.Operators
import Mathlib.Logic.Function.Basic

/-!
# Actions of a rule

`applyActions` of `shared/rules/utils/actions.util.ts`, over the objects of the program: an action
walks along its path as JavaScript reads and writes properties, so that it follows prototypes, and the
value of a `set` goes into the output as the object that it is.
-/

namespace ElectronicsCart.Rules

/-! ### Objects -/

/-- `FactValue` of `rule.types.ts`; an invalid `Date` has no time. -/
inductive FactValue where
  | undefined
  | null
  | boolean (b : Bool)
  | number (n : JsNumber)
  | string (s : String)
  | date (time : Option ℤ)
  | array (items : List FactValue)
  | object (fields : List (String × FactValue))

/-- What a property holds.  An array is given by its elements: no path leads into one, and nothing
here writes to one. -/
inductive Slot where
  | undefined
  | null
  | boolean (b : Bool)
  | number (n : JsNumber)
  | string (s : String)
  | date (time : Option ℤ)
  | array (items : List FactValue)
  | builtin (name : String)
  | ref (address : ℕ)

/-- The address of `Object.prototype`. -/
abbrev objectPrototype : ℕ := 0

structure Cell where
  proto : Slot := .ref objectPrototype
  fields : String → Option Slot := fun _ => none

/-- The objects of the program; `depth` is not below the length of any chain of prototypes. -/
structure Heap where
  cells : ℕ → Cell
  next : ℕ
  depth : ℕ

def Heap.own (h : Heap) (a : ℕ) (name : String) : Option Slot := (h.cells a).fields name

def Heap.alloc (h : Heap) (c : Cell) : ℕ × Heap :=
  (h.next, { h with cells := Function.update h.cells h.next c, next := h.next + 1 })

def Cell.write (c : Cell) (name : String) (v : Slot) : Cell :=
  { c with fields := Function.update c.fields name (some v) }

def Heap.write (h : Heap) (a : ℕ) (name : String) (v : Slot) : Heap :=
  { h with cells := Function.update h.cells a ((h.cells a).write name v) }

/-- What the engine gives beside the texts: the properties of arrays, dates and functions that are not
those of every object, and `Number` of an object, which may throw. -/
structure Engine extends Runtime where
  methods : Slot → String → Option Slot
  methods_ne_ref : ∀ v name a, methods v name ≠ some (.ref a)
  numberOfObject : Heap → Slot → Except String JsNumber

section Properties

variable (e : Engine) (h : Heap)

/-- `this[name]`, along the chain of prototypes. -/
def lookupFrom (this : ℕ) (name : String) : ℕ → Slot → Slot
  | 0, _ => .undefined
  | k + 1, .ref a =>
    match h.own a name with
    | some v => v
    | none =>
      if a = objectPrototype ∧ name = "__proto__" then (h.cells this).proto
      else lookupFrom this name k (h.cells a).proto
  | k + 1, .array items => ((e.methods (.array items) name).getD
      (lookupFrom this name k (.ref objectPrototype)))
  | k + 1, .date time => ((e.methods (.date time) name).getD
      (lookupFrom this name k (.ref objectPrototype)))
  | k + 1, .builtin f => ((e.methods (.builtin f) name).getD
      (lookupFrom this name k (.ref objectPrototype)))
  | _ + 1, _ => .undefined

def get (a : ℕ) (name : String) : Slot := lookupFrom e h a name h.depth (.ref a)

/-- `cur[part]` of the loop in `resolvePath`, which does not go into anything but objects. -/
def read : Slot → String → Slot
  | .ref a, name => get e h a name
  | _, _ => .undefined

/-- Whether an assignment to `__proto__` comes to the accessor of `Object.prototype`. -/
def reachesAccessor : ℕ → Slot → Bool
  | 0, _ => false
  | k + 1, .ref a =>
    decide (a = objectPrototype) ||
      ((h.own a "__proto__").isNone && reachesAccessor k (h.cells a).proto)
  | _ + 1, .array _ => true
  | _ + 1, .date _ => true
  | _ + 1, .builtin _ => true
  | _ + 1, _ => false

def onChain (a : ℕ) : ℕ → Slot → Bool
  | 0, _ => false
  | k + 1, .ref b => decide (b = a) || onChain a k (h.cells b).proto
  | _ + 1, _ => false

/-- A chain that goes on behind `a` is at most twice as long. -/
def withProto (a : ℕ) (v : Slot) : Heap :=
  let cell : Cell := { h.cells a with proto := v }
  { h with cells := Function.update h.cells a cell, depth := 2 * h.depth }

def immutablePrototype : String :=
  "Immutable prototype object 'Object.prototype' cannot have their prototype set"

/-- The accessor: an object or `null` becomes the prototype, anything else is ignored. -/
def setPrototype (a : ℕ) : Slot → Except String Heap
  | .null => .ok (if a = objectPrototype then h else withProto h a .null)
  | .ref b =>
    if a = objectPrototype then .error immutablePrototype
    else if onChain h a h.depth (.ref b) then .error "Cyclic __proto__ value"
    else .ok (withProto h a (.ref b))
  | .array items =>
    if a = objectPrototype then .error immutablePrototype else .ok (withProto h a (.array items))
  | .date time =>
    if a = objectPrototype then .error immutablePrototype else .ok (withProto h a (.date time))
  | .builtin f =>
    if a = objectPrototype then .error immutablePrototype else .ok (withProto h a (.builtin f))
  | _ => .ok h

/-- `a[name] = v`. -/
def put (a : ℕ) (name : String) (v : Slot) : Except String Heap :=
  if (h.own a name).isNone ∧ name = "__proto__" ∧ reachesAccessor h h.depth (.ref a) then
    setPrototype h a v
  else .ok (h.write a name v)

end Properties

/-! ### `structuredClone` -/

mutual

def cloneValue (h : Heap) : FactValue → Slot × Heap
  | .undefined => (.undefined, h)
  | .null => (.null, h)
  | .boolean b => (.boolean b, h)
  | .number n => (.number n, h)
  | .string s => (.string s, h)
  | .date time => (.date time, h)
  | .array items => (.array items, h)
  | .object fields =>
    let (slots, h) := cloneFields h fields
    let (a, h) := h.alloc { fields := fun name => slots.lookup name }
    (.ref a, h)

def cloneFields (h : Heap) : List (String × FactValue) → List (String × Slot) × Heap
  | [] => ([], h)
  | (name, value) :: rest =>
    let (slot, h) := cloneValue h value
    let (slots, h) := cloneFields h rest
    ((name, slot) :: slots, h)

end

def structuredClone (h : Heap) (facts : List (String × FactValue)) : ℕ × Heap :=
  let (slots, h) := cloneFields h facts
  h.alloc { fields := fun name => slots.lookup name }

/-! ### Actions -/

inductive ActionOp where
  | set (value : Slot)
  | add (value : JsNumber)
  | multiply (value : JsNumber)
  | percent (value : JsNumber)
  | appendTag (value : String)
  | unknown

structure RuleAction where
  path : String
  op : ActionOp

section Actions

variable (e : Engine)

/-- The loop of `resolvePath` over the parts of a path. -/
def follow (h : Heap) (out : ℕ) (parts : List String) : Slot :=
  Walks.walk (read e h) (.ref out) parts

/-- `resolvePath` of the output, without a cache. -/
def resolveIn (h : Heap) (out : ℕ) (path : String) : Except String Slot :=
  if isValidPath path then .ok (follow e h out (pathParts path))
  else .error ("Invalid field path: " ++ path)

/-- One step of the walk to the parent: a container is made where there is no object. -/
def enter (h : Heap) (a : ℕ) (key : String) : Except String ℕ × Heap :=
  match get e h a key with
  | .ref b => (.ok b, h)
  | _ =>
    let (b, h) := h.alloc {}
    match put h a key (.ref b) with
    | .error t => (.error t, h)
    | .ok h =>
      match get e h a key with
      | .ref c => (.ok c, h)
      | _ => (.error "Cannot set properties of a value that is no object", h)

def enterAll (h : Heap) (a : ℕ) : List String → Except String ℕ × Heap
  | [] => (.ok a, h)
  | key :: rest =>
    match enter e h a key with
    | (.error t, h) => (.error t, h)
    | (.ok b, h) => enterAll h b rest

/-- `Number(v)`. -/
def Slot.toNumber (h : Heap) : Slot → Except String JsNumber
  | .undefined => .ok .nan
  | .null => .ok (.finite 0)
  | .boolean b => .ok (.finite (if b then 1 else 0))
  | .number n => .ok n
  | .string s => .ok (e.numberOf s)
  | .date time => .ok (time.elim .nan fun ms => .finite ms)
  | v => e.numberOfObject h v

/-- `v ?? 0`. -/
def Slot.orZero : Slot → Slot
  | .undefined => .number (.finite 0)
  | .null => .number (.finite 0)
  | v => v

def store (h : Heap) (a : ℕ) (name : String) (v : Slot) : Except String (Option String) × Heap :=
  match put h a name v with
  | .error t => (.error t, h)
  | .ok h => (.ok none, h)

/-- `add`, `multiply` and `percent`. -/
def compute (verb path : String) (f : JsNumber → JsNumber) (h : Heap) (a : ℕ) (name : String) :
    Except String (Option String) × Heap :=
  match (get e h a name).orZero.toNumber e h with
  | .error t => (.error t, h)
  | .ok cur =>
    if cur.isFinite then store h a name (.number (f cur))
    else (.ok (some (verb ++ " requires numeric " ++ path)), h)

/-- The `switch`, with the error that the action reports. -/
def perform (action : RuleAction) (h : Heap) (a : ℕ) (name : String) :
    Except String (Option String) × Heap :=
  match action.op with
  | .set value => store h a name value
  | .add value => compute e "add" action.path (fun cur => cur.add value) h a name
  | .multiply value => compute e "multiply" action.path (fun cur => cur.mul value) h a name
  | .percent value =>
    compute e "percent" action.path (fun cur => cur.mul ((JsNumber.finite 1).add (value.divPos 100)))
      h a name
  | .appendTag value =>
    match get e h a name with
    | .undefined => store h a name (.array [.string value])
    | .null => store h a name (.array [.string value])
    | .array items => store h a name (.array (items ++ [.string value]))
    | _ => (.ok (some ("append_tag requires array at " ++ action.path)), h)
  | .unknown => (.ok (some "Unknown action op"), h)

/-- The loop between two actions; `thrown` holds the exception that ended it. -/
structure Work where
  heap : Heap
  errors : List String := []
  thrown : Option String := none

def parentParts (path : String) : List String := (pathParts path).dropLast

def lastPart (path : String) : String := (pathParts path).getLast?.getD ""

def applyAction (out : ℕ) (w : Work) (action : RuleAction) : Work :=
  if w.thrown.isSome then w
  else if !isValidPath action.path then
    { w with errors := w.errors ++ ["Invalid action path: " ++ action.path] }
  else
    match enterAll e w.heap out (parentParts action.path) with
    | (.error t, h) => { w with heap := h, thrown := some t }
    | (.ok parent, h) =>
      match perform e action h parent (lastPart action.path) with
      | (.error t, h) => { w with heap := h, thrown := some t }
      | (.ok error, h) => { w with heap := h, errors := w.errors ++ error.toList }

/-- The address of the output and the work that was done. -/
def applyActions (h : Heap) (facts : List (String × FactValue)) (actions : List RuleAction) :
    ℕ × Work :=
  let (out, h) := structuredClone h facts
  (out, actions.foldl (applyAction e out) { heap := h })

end Actions

end ElectronicsCart.Rules
