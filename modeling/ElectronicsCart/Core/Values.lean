import Mathlib.Algebra.Order.Field.Rat

/-!
# JavaScript values

What the services put into caches, webhook rows and rule trees.  Arithmetic on
finite numbers is exact.
-/

namespace ElectronicsCart

inductive JsNumber where
  | finite (q : ℚ)
  | nan
  | infinity (negative : Bool)
deriving DecidableEq, Repr

/-- A `Decimal` of Prisma keeps the text its `toJSON` and its `valueOf` give.  The
fields of an object stand in the order of `Object.keys`. -/
inductive JsValue where
  | undefined
  | null
  | boolean (b : Bool)
  | number (n : JsNumber)
  | string (s : String)
  | date (ms : ℤ)
  /-- a `Date` whose time is `NaN` -/
  | invalidDate
  | decimal (text : String)
  | array (xs : List JsValue)
  | object (fields : List (String × JsValue))
  /-- a method every object inherits -/
  | builtin (name : String)
  /-- `Object.prototype` -/
  | objectPrototype

/-- What the engine computes on texts, numbers and dates.  `numberOf` is `Number` of a
text, `numberText` and `dateText` are `String` of a finite number and of a date, and
`regExpTest` has no answer for a pattern `new RegExp` refuses. -/
structure Runtime where
  toISOString : ℤ → String
  toISOString_ne : ∀ ms, toISOString ms ≠ ""
  dateText : ℤ → String
  dateParse : String → Option ℤ
  numberOf : String → JsNumber
  numberText : ℚ → String
  localeCompare : String → String → ℤ
  regExpTest : String → String → Option Bool
  toUpperCase : String → String

def digitsValue (cs : List Char) : Option ℕ :=
  cs.foldl (fun n c => n.bind fun n => if c.isDigit then some (10 * n + (c.toNat - 48)) else none)
    (if cs.isEmpty then none else some 0)

/-- The number a plain decimal text stands for. -/
def plainNumber (s : String) : JsNumber :=
  let whole := s.toList.takeWhile (· != '.')
  let fraction := (s.toList.dropWhile (· != '.')).drop 1
  match digitsValue whole, digitsValue ('0' :: fraction) with
  | some n, some m => .finite (n + m / 10 ^ fraction.length)
  | _, _ => .nan

/-- An engine as far as whole numbers, unsigned decimals and the epoch go. -/
def Runtime.plain : Runtime where
  toISOString := fun _ => "1970-01-01T00:00:00.000Z"
  toISOString_ne := fun _ => by decide
  dateText := fun _ => "Thu Jan 01 1970 00:00:00 GMT+0000 (Coordinated Universal Time)"
  dateParse := fun s => if s = "1970-01-01T00:00:00.000Z" then some 0 else none
  numberOf := plainNumber
  numberText := fun q => toString q.num
  localeCompare := fun a b => if a < b then -1 else if a = b then 0 else 1
  regExpTest := fun _ _ => none
  toUpperCase := fun s => String.ofList (s.toList.map Char.toUpper)

namespace JsNumber

def isFinite : JsNumber → Bool
  | finite _ => true
  | _ => false

def isNegative : JsNumber → Bool
  | finite q => decide (q < 0)
  | nan => false
  | infinity negative => negative

def isZero : JsNumber → Bool
  | finite q => decide (q = 0)
  | _ => false

def add : JsNumber → JsNumber → JsNumber
  | finite a, finite b => finite (a + b)
  | nan, _ => nan
  | _, nan => nan
  | infinity a, infinity b => if a = b then infinity a else nan
  | infinity a, finite _ => infinity a
  | finite _, infinity b => infinity b

def mul : JsNumber → JsNumber → JsNumber
  | finite a, finite b => finite (a * b)
  | nan, _ => nan
  | _, nan => nan
  | a, b => if a.isZero || b.isZero then nan else infinity (a.isNegative != b.isNegative)

def divPos (n : JsNumber) (d : ℚ) : JsNumber :=
  match n with
  | finite a => finite (a / d)
  | n => n

/-- `Math.min`. -/
def min : JsNumber → JsNumber → JsNumber
  | finite a, finite b => finite (if a ≤ b then a else b)
  | nan, _ => nan
  | _, nan => nan
  | infinity false, b => b
  | a, infinity false => a
  | infinity true, _ => infinity true
  | _, infinity true => infinity true

/-- `Math.max`. -/
def max : JsNumber → JsNumber → JsNumber
  | finite a, finite b => finite (if a ≤ b then b else a)
  | nan, _ => nan
  | _, nan => nan
  | infinity true, b => b
  | a, infinity true => a
  | infinity false, _ => infinity false
  | _, infinity false => infinity false

end JsNumber

/-- The UTF-16 units of a character. -/
def utf16Units (c : Char) : ℕ := if c.toNat < 0x10000 then 1 else 2

def utf16Length (s : String) : ℕ := (s.toList.map utf16Units).sum

/-- The characters JavaScript's `trim` takes away. -/
def isJsSpace (c : Char) : Bool :=
  let n := c.toNat
  decide (9 ≤ n ∧ n ≤ 13) || n == 32 || n == 160 || n == 0x1680 ||
    decide (0x2000 ≤ n ∧ n ≤ 0x200A) || n == 0x2028 || n == 0x2029 || n == 0x202F ||
    n == 0x205F || n == 0x3000 || n == 0xFEFF

def jsTrim (s : String) : String :=
  String.ofList ((s.toList.dropWhile isJsSpace).reverse.dropWhile isJsSpace).reverse

/-- The first `n` UTF-16 units of a text.  Half of a surrogate pair leaves the program
as the replacement character. -/
def sliceUnits : List Char → ℕ → List Char
  | [], _ => []
  | c :: cs, n =>
    if n = 0 then []
    else if utf16Units c ≤ n then c :: sliceUnits cs (n - utf16Units c)
    else ['\uFFFD']

/-- `s.slice(0, n)`. -/
def jsSlice (n : ℕ) (s : String) : String := String.ofList (sliceUnits s.toList n)

namespace JsValue

def str (o : Option String) : JsValue :=
  match o with
  | some s => string s
  | none => null

def day (o : Option ℤ) : JsValue :=
  match o with
  | some ms => date ms
  | none => null

/-- `Boolean(v)`. -/
def truthy : JsValue → Bool
  | undefined => false
  | null => false
  | boolean b => b
  | number (.finite q) => decide (q ≠ 0)
  | number .nan => false
  | number (.infinity _) => true
  | string s => !s.isEmpty
  | _ => true

/-- `v === undefined || v === null`. -/
def nullish : JsValue → Bool
  | undefined => true
  | null => true
  | _ => false

/-- `Number(v)`, of everything but arrays and objects. -/
def toNumber (rt : Runtime) : JsValue → JsNumber
  | undefined => .nan
  | null => .finite 0
  | boolean b => .finite (if b then 1 else 0)
  | number n => n
  | string s => rt.numberOf s
  | date ms => .finite ms
  | decimal text => rt.numberOf text
  | _ => .nan

mutual

/-- `String(v)`. -/
def toText (rt : Runtime) : JsValue → String
  | undefined => "undefined"
  | null => "null"
  | boolean b => if b then "true" else "false"
  | number (.finite q) => rt.numberText q
  | number .nan => "NaN"
  | number (.infinity negative) => if negative then "-Infinity" else "Infinity"
  | string s => s
  | date ms => rt.dateText ms
  | invalidDate => "Invalid Date"
  | decimal text => text
  | array xs => ",".intercalate (itemTexts rt xs)
  | object _ => "[object Object]"
  | builtin name => "function " ++ name ++ "() \x7b [native code] \x7d"
  | objectPrototype => "[object Object]"

/-- The elements of an array as `join` writes them: nothing for a missing one. -/
def itemTexts (rt : Runtime) : List JsValue → List String
  | [] => []
  | v :: vs => (if v.nullish then "" else toText rt v) :: itemTexts rt vs

end

/-- The names every object has through `Object.prototype`. -/
def inheritedNames : List String :=
  ["constructor", "__defineGetter__", "__defineSetter__", "hasOwnProperty", "__lookupGetter__",
   "__lookupSetter__", "isPrototypeOf", "propertyIsEnumerable", "toString", "valueOf",
   "toLocaleString"]

def inherited (name : String) : JsValue :=
  if inheritedNames.contains name then builtin name else undefined

/-- `v[name]` of an object; of anything else only the own fields count, and there are none. -/
def property (name : String) : JsValue → JsValue
  | object fields =>
    match fields.lookup name with
    | some v => v
    | none => if name = "__proto__" then objectPrototype else inherited name
  | objectPrototype => if name = "__proto__" then null else inherited name
  | _ => undefined

/-- `a ?? b`. -/
def orElse (a b : JsValue) : JsValue := if a.nullish then b else a

def field (key : String) : JsValue → JsValue
  | object fields => (fields.lookup key).getD undefined
  | _ => undefined

/-- A control character's `\uXXXX`. -/
def hexEscape (c : Char) : String :=
  let digit (n : ℕ) : Char := (Nat.digitChar n)
  String.ofList ['\\', 'u', '0', '0', digit (c.toNat / 16), digit (c.toNat % 16)]

/-- How `JSON.stringify` writes a character of a string. -/
def quoteChar (c : Char) : String :=
  if c = '"' then "\\\""
  else if c = '\\' then "\\\\"
  else if c.toNat = 8 then "\\b"
  else if c.toNat = 12 then "\\f"
  else if c.toNat = 10 then "\\n"
  else if c.toNat = 13 then "\\r"
  else if c.toNat = 9 then "\\t"
  else if c.toNat < 32 then hexEscape c
  else String.singleton c

def quote (s : String) : String := "\"" ++ String.join (s.toList.map quoteChar) ++ "\""

mutual

/-- `JSON.stringify(v)`; `undefined` has no text. -/
def stringify (rt : Runtime) : JsValue → Option String
  | undefined => none
  | null => some "null"
  | boolean b => some (if b then "true" else "false")
  | number (.finite q) => some (rt.numberText q)
  | number _ => some "null"
  | string s => some (quote s)
  | date ms => some (quote (rt.toISOString ms))
  | invalidDate => some "null"
  | decimal text => some (quote text)
  | array xs => some ("[" ++ ",".intercalate (stringifyItems rt xs) ++ "]")
  | object fields => some ("\x7b" ++ ",".intercalate (stringifyFields rt fields) ++ "\x7d")
  | builtin _ => none
  | objectPrototype => some "\x7b\x7d"

def stringifyItems (rt : Runtime) : List JsValue → List String
  | [] => []
  | v :: vs => (stringify rt v).getD "null" :: stringifyItems rt vs

def stringifyFields (rt : Runtime) : List (String × JsValue) → List String
  | [] => []
  | (key, v) :: rest =>
    match stringify rt v with
    | some text => (quote key ++ ":" ++ text) :: stringifyFields rt rest
    | none => stringifyFields rt rest

end

mutual

/-- `JSON.parse(JSON.stringify(v))`: dates and decimals come back as texts, numbers
JSON does not know as `null`, and fields without a text are gone. -/
def revived (rt : Runtime) : JsValue → Option JsValue
  | undefined => none
  | null => some null
  | boolean b => some (boolean b)
  | number (.finite q) => some (number (.finite q))
  | number _ => some null
  | string s => some (string s)
  | date ms => some (string (rt.toISOString ms))
  | invalidDate => some null
  | decimal text => some (string text)
  | array xs => some (array (revivedItems rt xs))
  | object fields => some (object (revivedFields rt fields))
  | builtin _ => none
  | objectPrototype => some (object [])

def revivedItems (rt : Runtime) : List JsValue → List JsValue
  | [] => []
  | v :: vs => (revived rt v).getD null :: revivedItems rt vs

def revivedFields (rt : Runtime) : List (String × JsValue) → List (String × JsValue)
  | [] => []
  | (key, v) :: rest =>
    match revived rt v with
    | some w => (key, w) :: revivedFields rt rest
    | none => revivedFields rt rest

end

end JsValue

end ElectronicsCart
