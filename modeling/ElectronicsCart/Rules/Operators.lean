import ElectronicsCart.Core.Values

/-!
# Facts and operators

`shared/rules/utils/facts.util.ts` and `shared/rules/operators/operators.ts`.
-/

namespace ElectronicsCart.Rules

/-! ### Paths -/

def isNameStart (c : Char) : Bool := c.isAlpha || c == '_'

def isName : List Char → Bool
  | [] => false
  | c :: cs => isNameStart c && cs.all fun c => isNameStart c || c.isDigit

/-- `path.split('.')`. -/
def pathParts (path : String) : List String := (path.toList.splitOn '.').map String.ofList

/-- `/^[A-Za-z_][A-Za-z0-9_]*(\.[A-Za-z_][A-Za-z0-9_]*)*$/`. -/
def isValidPath (path : String) : Bool := (path.toList.splitOn '.').all isName

/-- The values found so far in one evaluation, by path. -/
abbrev PathCache := List (String × JsValue)

/-- Whether `cur[part]` is read: `typeof cur` is `object`, and it is no date and no array. -/
def isPlainObject : JsValue → Bool
  | .object _ => true
  | .objectPrototype => true
  | _ => false

def walk : JsValue → List String → JsValue
  | cur, [] => cur
  | cur, part :: rest => if isPlainObject cur then walk (cur.property part) rest else .undefined

def resolvePath (facts : JsValue) (path : String) (cache : PathCache) :
    Except String JsValue × PathCache :=
  if !isValidPath path then (.error ("Invalid field path: " ++ path), cache)
  else
    match cache.lookup path with
    | some value => (.ok value, cache)
    | none =>
      let value := walk facts (pathParts path)
      (.ok value, (path, value) :: cache)

/-! ### Comparisons -/

inductive Comparable where
  | number (q : ℚ)
  | string (s : String)
  | boolean (b : Bool)
  | null
  /-- an invalid `Date` has no time -/
  | date (time : Option ℤ)
  | other

def Comparable.kind : Comparable → String
  | number _ => "number"
  | string _ => "string"
  | boolean _ => "boolean"
  | null => "null"
  | date _ => "date"
  | other => "other"

/-- `/^\d{4}-\d{2}-\d{2}/`. -/
def startsLikeDate (s : String) : Bool :=
  match s.toList with
  | a :: b :: c :: d :: e :: f :: g :: h :: i :: j :: _ =>
    [a, b, c, d, f, g, i, j].all Char.isDigit && e == '-' && h == '-'
  | _ => false

def toComparable (rt : Runtime) : JsValue → Comparable
  | .null => .null
  | .undefined => .null
  | .boolean b => .boolean b
  | .number (.finite q) => .number q
  | .string s =>
    match rt.dateParse s with
    | some ms => if startsLikeDate s then .date (some ms) else .string s
    | none => .string s
  | .date ms => .date (some ms)
  | .invalidDate => .date none
  | _ => .other

def valuesEqual (rt : Runtime) (a b : JsValue) : Bool :=
  match toComparable rt a, toComparable rt b with
  | .null, .null => true
  | .date (some x), .date (some y) => x == y
  | .number x, .number y => x == y
  | .string x, .string y => x == y
  | .boolean x, .boolean y => x == y
  | .other, .other => a.stringify rt == b.stringify rt
  | _, _ => false

/-- `Number.isFinite(Number(x))` and its value, for a number or a text. -/
def coerced (rt : Runtime) : Comparable → Option ℚ
  | .number q => some q
  | .string s =>
    match rt.numberOf s with
    | .finite q => some q
    | _ => none
  | _ => none

/-- The sign of the result is what the operators look at; `none` is the `NaN` of an invalid date. -/
def compareOrdered (rt : Runtime) (a b : JsValue) : Except String (Option ℚ) :=
  let ca := toComparable rt a
  let cb := toComparable rt b
  match ca, cb with
  | .null, _ => .error "Cannot compare null/undefined"
  | _, .null => .error "Cannot compare null/undefined"
  | .number x, .number y => .ok (some (x - y))
  | .date x, .date y => .ok (x.bind fun x => y.map fun (y : ℤ) => (x - y : ℚ))
  | .string x, .string y => .ok (some (rt.localeCompare x y))
  | _, _ =>
    match coerced rt ca, coerced rt cb with
    | some x, some y => .ok (some (x - y))
    | _, _ => .error ("Incomparable types: " ++ ca.kind ++ " vs " ++ cb.kind)

def asString (rt : Runtime) : JsValue → Option String
  | .string s => some s
  | .number n => some ((JsValue.number n).toText rt)
  | .boolean b => some ((JsValue.boolean b).toText rt)
  | _ => none

/-! ### Operators -/

structure OperatorContext where
  field : String
  actual : JsValue
  expected : JsValue

structure OperatorEvalResult where
  matched : Bool
  reason : String
  error : Option String := none
deriving DecidableEq, Repr

section Operators

variable (rt : Runtime) (ctx : OperatorContext)

def ok (matched : Bool) (reason : String) : OperatorEvalResult := { matched, reason }

def fail (reason error : String) : OperatorEvalResult := { matched := false, reason, error }

def stringify (v : JsValue) : String :=
  match v with
  | .string s => s
  | v => (v.stringify rt).getD "undefined"

def eqOperator : OperatorEvalResult :=
  ok (valuesEqual rt ctx.actual ctx.expected) (ctx.field ++ " == " ++ stringify rt ctx.expected)

def neqOperator : OperatorEvalResult :=
  ok (!valuesEqual rt ctx.actual ctx.expected) (ctx.field ++ " != " ++ stringify rt ctx.expected)

def cmpOp (symbol : String) (pred : ℚ → Bool) : OperatorEvalResult :=
  let reason := ctx.field ++ " " ++ symbol ++ " " ++ stringify rt ctx.expected
  match compareOrdered rt ctx.actual ctx.expected with
  | .error e => fail reason e
  | .ok cmp => ok (cmp.any pred) reason

def gtOperator : OperatorEvalResult := cmpOp rt ctx ">" fun n => decide (0 < n)
def gteOperator : OperatorEvalResult := cmpOp rt ctx ">=" fun n => decide (0 ≤ n)
def ltOperator : OperatorEvalResult := cmpOp rt ctx "<" fun n => decide (n < 0)
def lteOperator : OperatorEvalResult := cmpOp rt ctx "<=" fun n => decide (n ≤ 0)

def betweenOperator : OperatorEvalResult :=
  match ctx.expected with
  | .array [min, max] =>
    match compareOrdered rt ctx.actual min, compareOrdered rt ctx.actual max with
    | .error e, _ => fail (ctx.field ++ " between") e
    | .ok _, .error e => fail (ctx.field ++ " between") e
    | .ok lo, .ok hi =>
      ok (lo.any (fun n => decide (0 ≤ n)) && hi.any fun n => decide (n ≤ 0))
        (ctx.field ++ " between " ++ stringify rt min ++ " and " ++ stringify rt max)
  | _ => fail (ctx.field ++ " between ?") "between requires [min, max]"

def inOperator : OperatorEvalResult :=
  match ctx.expected with
  | .array values =>
    ok (values.any (valuesEqual rt ctx.actual)) (ctx.field ++ " in " ++ stringify rt ctx.expected)
  | _ => fail (ctx.field ++ " in ?") "in requires an array"

/-- Two texts, or the error of an operator that needs them. -/
def onStrings (failed error : String) (f : String → String → OperatorEvalResult) :
    OperatorEvalResult :=
  match asString rt ctx.actual, asString rt ctx.expected with
  | some hay, some needle => f hay needle
  | _, _ => fail failed error

def includesText (text part : String) : Bool := text.toList.tails.any part.toList.isPrefixOf

def containsOperator : OperatorEvalResult :=
  match ctx.actual with
  | .array values =>
    ok (values.any fun v => valuesEqual rt v ctx.expected)
      (ctx.field ++ " contains " ++ stringify rt ctx.expected)
  | _ =>
    onStrings rt ctx (ctx.field ++ " contains") "contains requires string or array actual"
      fun hay needle => ok (includesText hay needle) (ctx.field ++ " contains " ++ needle)

def startsWithOperator : OperatorEvalResult :=
  onStrings rt ctx (ctx.field ++ " starts_with") "starts_with requires strings" fun hay prefixText =>
    ok (prefixText.toList.isPrefixOf hay.toList) (ctx.field ++ " starts_with " ++ prefixText)

def endsWithOperator : OperatorEvalResult :=
  onStrings rt ctx (ctx.field ++ " ends_with") "ends_with requires strings" fun hay suffix =>
    ok (suffix.toList.isSuffixOf hay.toList) (ctx.field ++ " ends_with " ++ suffix)

def regexOperator : OperatorEvalResult :=
  onStrings rt ctx (ctx.field ++ " matches_regex") "matches_regex requires strings"
    fun hay pattern =>
      if 256 < utf16Length pattern then
        fail (ctx.field ++ " matches_regex") "regex pattern too long"
      else
        match rt.regExpTest pattern hay with
        | some matched => ok matched (ctx.field ++ " matches /" ++ pattern ++ "/")
        | none => fail (ctx.field ++ " matches_regex") "invalid regex"

def existsOperator : OperatorEvalResult :=
  let want :=
    match ctx.expected with
    | .undefined => true
    | v => v.truthy
  let present := !ctx.actual.nullish
  if want then ok present (ctx.field ++ " exists")
  else ok (!present) (ctx.field ++ " does not exist")

def isBoolean (b : Bool) : JsValue → Bool
  | .boolean c => c == b
  | _ => false

def isTrueOperator : OperatorEvalResult := ok (isBoolean true ctx.actual) (ctx.field ++ " is true")

def isFalseOperator : OperatorEvalResult :=
  ok (isBoolean false ctx.actual) (ctx.field ++ " is false")

def isNullOperator : OperatorEvalResult := ok ctx.actual.nullish (ctx.field ++ " is null")

def isNotNullOperator : OperatorEvalResult := ok (!ctx.actual.nullish) (ctx.field ++ " is not null")

end Operators

def defaultOperators : List (String × (Runtime → OperatorContext → OperatorEvalResult)) :=
  [("eq", eqOperator), ("neq", neqOperator), ("gt", gtOperator), ("gte", gteOperator),
   ("lt", ltOperator), ("lte", lteOperator), ("between", betweenOperator), ("in", inOperator),
   ("contains", containsOperator), ("starts_with", startsWithOperator),
   ("ends_with", endsWithOperator), ("matches_regex", regexOperator), ("exists", fun _ => existsOperator),
   ("is_true", fun _ => isTrueOperator), ("is_false", fun _ => isFalseOperator),
   ("is_null", fun _ => isNullOperator), ("is_not_null", fun _ => isNotNullOperator)]

end ElectronicsCart.Rules
