import ElectronicsCart.Rules.Operators

/-!
# The rule engine

`shared/rules/dsl/condition.dsl.ts`, `ConditionEvaluator.ts` and `RuleEngine.ts`.  A
condition is any value until `validateConditionTree` has accepted it.  No caller passes
`actions`, so the branch that applies them is not part of `evaluate`.
-/

namespace ElectronicsCart.Rules

/-! ### Validation -/

def operatorNames : List String :=
  ["eq", "neq", "gt", "gte", "lt", "lte", "between", "in", "contains", "starts_with", "ends_with",
   "matches_regex", "exists", "is_true", "is_false", "is_null", "is_not_null"]

def logicalNames : List String := ["all", "any", "not"]

def keysOf (fields : List (String × JsValue)) : List String := fields.map Prod.fst

def operatorKeys (fields : List (String × JsValue)) : List String :=
  (keysOf fields).filter fun k => k != "field"

def validateLeaf (path : String) (fields : List (String × JsValue)) : List String :=
  let opKeys := operatorKeys fields
  let unknownOps := opKeys.filter fun k => !operatorNames.contains k && !logicalNames.contains k
  let knownOps := opKeys.filter fun k => operatorNames.contains k
  match (fields.lookup "field").getD .undefined with
  | .string name =>
    if name = "" then [path ++ ": leaf requires string field"]
    else if opKeys.length = 0 then [path ++ ": leaf requires an operator"]
    else if unknownOps.length ≠ 0 then
      [path ++ ": unknown operator(s): " ++ ", ".intercalate unknownOps]
    else if knownOps.length ≠ 1 then [path ++ ": leaf must have exactly one operator"]
    else []
  | _ => [path ++ ": leaf requires string field"]

mutual

def validateConditionTree (path : String) : JsValue → List String
  | .object fields =>
    match validateGroup path "all" fields with
    | some errors => errors
    | none =>
      match validateGroup path "any" fields with
      | some errors => errors
      | none =>
        match validateNot path fields with
        | some errors => errors
        | none => validateLeaf path fields
  | .objectPrototype => [path ++ ": leaf requires string field"]
  | .date _ => [path ++ ": leaf requires string field"]
  | .invalidDate => [path ++ ": leaf requires string field"]
  | .decimal _ => [path ++ ": leaf requires string field"]
  | _ => [path ++ ": condition must be an object"]

def validateGroup (path key : String) : List (String × JsValue) → Option (List String)
  | [] => none
  | (k, v) :: rest =>
    if k = key then some (validateChildren path key v) else validateGroup path key rest

def validateChildren (path key : String) : JsValue → List String
  | .array children => validateEach (path ++ "." ++ key) 0 children
  | _ => [path ++ "." ++ key ++ " must be an array"]

def validateEach (path : String) (i : ℕ) : List JsValue → List String
  | [] => []
  | c :: rest =>
    validateConditionTree (path ++ "[" ++ toString i ++ "]") c ++ validateEach path (i + 1) rest

def validateNot (path : String) : List (String × JsValue) → Option (List String)
  | [] => none
  | (k, v) :: rest =>
    if k = "not" then some (validateConditionTree (path ++ ".not") v) else validateNot path rest

end

/-- `leafOperator`: the only operator of a leaf, with what it expects. -/
def leafOperator (fields : List (String × JsValue)) : Except String (String × JsValue) :=
  match operatorKeys fields with
  | [name] => .ok (name, (fields.lookup name).getD .undefined)
  | _ => .error "leaf must have exactly one operator"

/-! ### Evaluation -/

structure EvaluateOptions where
  collectReasons : Bool := true
  shortCircuit : Bool := true
  matchScore : JsNumber := .finite 1

structure EvalInternal where
  matched : Bool
  score : JsNumber := .finite 0
  reasons : List String := []
  errors : List String := []

inductive GroupMode where
  | all | any
deriving DecidableEq, Repr

def GroupMode.text : GroupMode → String
  | all => "all"
  | any => "any"

/-- What the loop over the children of a group has gathered. -/
structure Gathered where
  score : JsNumber := .finite 0
  reasons : List String := []
  errors : List String := []
  matchedCount : ℕ := 0
  failed : Bool := false

/-- Evaluation reads and fills the cache of paths; what it throws, `evaluate` catches. -/
abbrev Eval (α : Type) := PathCache → Except String (α × PathCache)

section Evaluation

variable (rt : Runtime) (options : EvaluateOptions) (facts : JsValue)

def reasonsOf (rs : List String) : List String := if options.collectReasons then rs else []

def leaf (fields : List (String × JsValue)) : Eval EvalInternal := fun cache =>
  match leafOperator fields with
  | .error e => .ok ({ matched := false, errors := [e] }, cache)
  | .ok (name, expected) =>
    match defaultOperators.lookup name with
    | none => .ok ({ matched := false, errors := ["Unknown operator: " ++ name] }, cache)
    | some op =>
      let field := ((fields.lookup "field").getD .undefined).toText rt
      match resolvePath facts field cache with
      | (.error e, cache) => .ok ({ matched := false, errors := [e] }, cache)
      | (.ok actual, cache) =>
        let result := op rt { field, actual, expected }
        match result.error with
        | some e => .ok (
            { matched := false, reasons := reasonsOf options [result.reason], errors := [e] }, cache)
        | none => .ok (
            { matched := result.matched
              score := if result.matched then options.matchScore else .finite 0
              reasons := reasonsOf options [result.reason] }, cache)

/-- `not` of a finished inner evaluation. -/
def negated (inner : EvalInternal) : EvalInternal :=
  let matched := inner.errors.isEmpty && !inner.matched
  let text := "; ".intercalate inner.reasons
  { matched
    score := if matched then options.matchScore else .finite 0
    reasons := reasonsOf options
      ["not(" ++ (if text = "" then "..." else text) ++ ") → " ++ toString matched]
    errors := inner.errors }

def emptyGroup (mode : GroupMode) : EvalInternal :=
  let matched := mode == .all
  { matched, reasons := reasonsOf options [mode.text ++ "([]) → " ++ toString matched] }

def groupResult (mode : GroupMode) (g : Gathered) : EvalInternal :=
  match mode with
  | .all =>
    { matched := !g.failed && g.errors.isEmpty
      score := g.score
      reasons := g.reasons
      errors := g.errors }
  | .any =>
    let matched := decide (0 < g.matchedCount)
    { matched
      score := g.score
      reasons := g.reasons
      errors := if matched then [] else g.errors }

/-- One round of the loop: the group is decided, or goes on. -/
def gather (mode : GroupMode) (g : Gathered) (r : EvalInternal) : EvalInternal ⊕ Gathered :=
  let g := { g with
    errors := g.errors ++ r.errors
    reasons := g.reasons ++ reasonsOf options r.reasons }
  match mode with
  | .all =>
    if !r.errors.isEmpty || !r.matched then
      if options.shortCircuit then
        .inl { matched := false, score := g.score, reasons := g.reasons, errors := g.errors }
      else .inr { g with failed := true }
    else .inr { g with score := g.score.add r.score, matchedCount := g.matchedCount + 1 }
  | .any =>
    if r.matched && r.errors.isEmpty then
      let g := { g with score := g.score.add r.score, matchedCount := g.matchedCount + 1 }
      if options.shortCircuit then
        .inl { matched := true, score := g.score, reasons := g.reasons }
      else .inr g
    else .inr g

mutual

def node : JsValue → Eval EvalInternal
  | .object fields =>
    match groupAt .all fields with
    | some run => run
    | none =>
      match groupAt .any fields with
      | some run => run
      | none =>
        match childAt fields with
        | some run => fun cache =>
          match run cache with
          | .error e => .error e
          | .ok (inner, cache) => .ok (negated options inner, cache)
        | none => leaf rt options facts fields
  | .objectPrototype => leaf rt options facts []
  | _ => fun _ => .error "Cannot use 'in' operator"

/-- The evaluation of the group under the key of the mode, if the object has it. -/
def groupAt (mode : GroupMode) : List (String × JsValue) → Option (Eval EvalInternal)
  | [] => none
  | (k, v) :: rest => if k = mode.text then some (group mode v) else groupAt mode rest

/-- The evaluation of the child under `not`, if the object has it. -/
def childAt : List (String × JsValue) → Option (Eval EvalInternal)
  | [] => none
  | (k, v) :: rest => if k = "not" then some (node v) else childAt rest

def group (mode : GroupMode) : JsValue → Eval EvalInternal
  | .array children =>
    if children.isEmpty then fun cache => .ok (emptyGroup options mode, cache)
    else groupLoop mode {} children
  | _ => fun _ => .error "children is not iterable"

def groupLoop (mode : GroupMode) (g : Gathered) : List JsValue → Eval EvalInternal
  | [] => fun cache => .ok (groupResult mode g, cache)
  | child :: rest => fun cache =>
    match node child cache with
    | .error e => .error e
    | .ok (r, cache) =>
      match gather options mode g r with
      | .inl decided => .ok (decided, cache)
      | .inr g => groupLoop mode g rest cache

end

/-- `ConditionEvaluator.evaluate`. -/
def evaluateConditions (conditions : JsValue) : Except String EvalInternal :=
  if conditions.nullish then
    .ok { matched := true, reasons := reasonsOf options ["empty conditions → match"] }
  else
    let validation := validateConditionTree "$" conditions
    if validation.length ≠ 0 then .ok { matched := false, errors := validation }
    else (node rt options facts conditions []).map Prod.fst

end Evaluation

/-- `RuleResult`; `invalid` stands for the metadata of an error result. -/
structure RuleResult where
  matched : Bool
  score : Option JsNumber := none
  reasons : List String
  errors : Option (List String) := none
  invalid : Bool := false

def errorResult (errors reasons : List String) : RuleResult :=
  { matched := false, reasons, errors := some errors, invalid := true }

/-- `RuleEngine.evaluate`. -/
def evaluate (rt : Runtime) (conditions facts : JsValue) (options : EvaluateOptions) : RuleResult :=
  match evaluateConditions rt options facts conditions with
  | .error e => errorResult ["Unexpected evaluation error: " ++ e] []
  | .ok internal =>
    if internal.errors.length ≠ 0 then errorResult internal.errors internal.reasons
    else { matched := internal.matched, score := some internal.score, reasons := internal.reasons }

end ElectronicsCart.Rules
