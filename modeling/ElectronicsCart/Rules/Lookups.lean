import ElectronicsCart.Rules.Actions
import ElectronicsCart.Rules.Conditions

/-!
# Lookups of fields

A sequence of calls of `resolvePath` of `shared/rules/utils/facts.util.ts` that share a cache, beside a
lookup that knows own properties only.  The cache is never seen.  A name that the facts do not have and
that every object inherits is found in `Object.prototype`.
-/

namespace ElectronicsCart.Rules

mutual

def FactValue.toJs : FactValue → JsValue
  | .undefined => .undefined
  | .null => .null
  | .boolean b => .boolean b
  | .number n => .number n
  | .string s => .string s
  | .date (some ms) => .date ms
  | .date none => .invalidDate
  | .array items => .array (jsItems items)
  | .object fields => .object (jsFields fields)

def jsItems : List FactValue → List JsValue
  | [] => []
  | v :: rest => v.toJs :: jsItems rest

def jsFields : List (String × FactValue) → List (String × JsValue)
  | [] => []
  | (name, v) :: rest => (name, v.toJs) :: jsFields rest

end

/-- The own property of a name; nothing but an object has any. -/
def FactValue.own (v : FactValue) (name : String) : FactValue :=
  match v with
  | .object fields => (fields.lookup name).getD .undefined
  | _ => .undefined

def plainLookup (facts : FactValue) (path : String) : FactValue :=
  Walks.walk FactValue.own facts (pathParts path)

/-- `resolvePath` for one path after the other. -/
def resolveAll (facts : JsValue) : List String → PathCache → List (Except String JsValue)
  | [], _ => []
  | path :: rest, cache =>
    let (result, cache) := resolvePath facts path cache
    result :: resolveAll facts rest cache

def isInherited (name : String) : Bool := name == "__proto__" || JsValue.inheritedNames.contains name

/-- An object that lacks the first of the names still leads to something. -/
def inPrototype : List String → Bool
  | [name] => isInherited name
  | ["__proto__", name] => isInherited name
  | _ => false

/-- The names that are left where an object lacks the next one lead into `Object.prototype`. -/
def leavesFacts : FactValue → List String → Bool
  | .object fields, name :: rest =>
    match fields.lookup name with
    | some v => leavesFacts v rest
    | none => inPrototype (name :: rest)
  | _, _ => false

/-- Every call on a valid path answers what the plain lookup answers. -/
def ResolvesPlainly (facts : List (String × FactValue)) (paths : List String) : Prop :=
  ∀ (i : ℕ) (path : String), paths[i]? = some path → isValidPath path = true →
    (resolveAll (FactValue.object facts).toJs paths [])[i]? =
      some (Except.ok (plainLookup (.object facts) path).toJs)

/-! ### The cache -/

section Cache

variable {facts : JsValue} {path : String} {cache : PathCache}

theorem resolvePath_invalid (h : isValidPath path = false) :
    resolvePath facts path cache = (.error ("Invalid field path: " ++ path), cache) := by
  rw [resolvePath, h]
  rfl

theorem resolvePath_sound (path : String) (hc : SoundCache facts cache) :
    (resolvePath facts path cache).1 = (resolvePath facts path []).1 ∧
      SoundCache facts (resolvePath facts path cache).2 := by
  cases hvalid : isValidPath path with
  | false =>
    rw [resolvePath_invalid hvalid, resolvePath_invalid hvalid]
    exact ⟨rfl, hc⟩
  | true =>
    obtain ⟨cache', hres, hc'⟩ := resolvePath_spec hvalid hc
    have hempty : SoundCache facts [] := fun _ _ hl => (nomatch hl)
    obtain ⟨cache₀, hres₀, -⟩ := resolvePath_spec hvalid hempty
    rw [hres, hres₀]
    exact ⟨rfl, hc'⟩

theorem resolveAll_eq (paths : List String) (hc : SoundCache facts cache) :
    resolveAll facts paths cache = paths.map fun path => (resolvePath facts path []).1 := by
  induction paths generalizing cache with
  | nil => rfl
  | cons path paths ih =>
    obtain ⟨hanswer, hkept⟩ := resolvePath_sound path hc
    rw [resolveAll, List.map_cons, ← hanswer]
    exact congrArg _ (ih hkept)

end Cache

/-! ### Inherited names -/

section Inherited

variable {fields : List (String × FactValue)} {name : String} {rest : List String} {v : JsValue}

theorem lookup_jsFields : (jsFields fields).lookup name = (fields.lookup name).map FactValue.toJs := by
  induction fields with
  | nil => rfl
  | cons field fields ih =>
    obtain ⟨k, v⟩ := field
    rw [jsFields, lookup_cons, lookup_cons, ih]
    split <;> rfl

theorem walk_of_not_object (h : isPlainObject v = false) :
    walk v rest = if rest = [] then v else .undefined := by
  cases rest with
  | nil => rfl
  | cons name rest =>
    rw [walk, h]
    rfl

theorem inherited_cases (name : String) (hne : name ≠ "__proto__") :
    isInherited name = true ∧ JsValue.inherited name = .builtin name ∨
      isInherited name = false ∧ JsValue.inherited name = .undefined := by
  unfold isInherited JsValue.inherited
  rw [beq_eq_false_iff_ne.mpr hne, Bool.false_or]
  split
  next h => exact .inl ⟨h, rfl⟩
  next h => exact .inr ⟨by simpa using h, rfl⟩

theorem walk_inherited (hne : name ≠ "__proto__") :
    walk (JsValue.inherited name) rest = .undefined ↔ ¬ (rest = [] ∧ isInherited name = true) := by
  rcases inherited_cases name hne with ⟨hname, heq⟩ | ⟨hname, heq⟩
  · rw [heq, walk_of_not_object rfl, hname]
    by_cases hrest : rest = [] <;> simp [hrest]
  · rw [heq, walk_of_not_object rfl, hname]
    simp

theorem walk_objectPrototype : walk .objectPrototype rest = .undefined ↔
    rest ≠ [] ∧ ∀ n, rest = [n] → isInherited n = false := by
  cases rest with
  | nil => simp [walk]
  | cons n rest =>
    have hstep : walk .objectPrototype (n :: rest) = walk (JsValue.objectPrototype.property n) rest := rfl
    rw [hstep]
    by_cases hproto : n = "__proto__"
    · subst hproto
      have hnull : JsValue.objectPrototype.property "__proto__" = .null := rfl
      rw [hnull, walk_of_not_object rfl]
      by_cases hrest : rest = [] <;> simp [hrest, isInherited]
    · have hprop : JsValue.objectPrototype.property n = JsValue.inherited n := if_neg hproto
      rw [hprop, walk_inherited hproto]
      by_cases hrest : rest = [] <;> simp [hrest]

theorem walk_missing (h : fields.lookup name = none) :
    walk (FactValue.object fields).toJs (name :: rest) = .undefined ↔
      inPrototype (name :: rest) = false := by
  have hstep : walk (FactValue.object fields).toJs (name :: rest) =
      walk ((JsValue.object (jsFields fields)).property name) rest := rfl
  have hnone : (jsFields fields).lookup name = none := by
    rw [lookup_jsFields, h]
    rfl
  rw [hstep, JsValue.property, hnone]
  by_cases hproto : name = "__proto__"
  · subst hproto
    rw [if_pos rfl, walk_objectPrototype]
    match rest with
    | [] => simp [inPrototype, isInherited]
    | [n] => simp [inPrototype]
    | n :: m :: rest => simp [inPrototype]
  · rw [if_neg hproto, walk_inherited hproto]
    match rest with
    | [] => simp [inPrototype]
    | [n] => simp [inPrototype, hproto]
    | n :: m :: rest => simp [inPrototype]

end Inherited

theorem own_undefined (names : List String) :
    Walks.walk FactValue.own .undefined names = .undefined :=
  Walks.walk_of_sink (fun _ => rfl) names

theorem walk_eq_plain_iff (v : FactValue) (names : List String) :
    walk v.toJs names = (Walks.walk FactValue.own v names).toJs ↔ leavesFacts v names = false := by
  induction names generalizing v with
  | nil => cases v <;> simp [walk, leavesFacts]
  | cons name rest ih =>
    rw [Walks.walk_cons]
    cases v with
    | object fields =>
      cases hfield : fields.lookup name with
      | some w =>
        have hstep : walk (FactValue.object fields).toJs (name :: rest) = walk w.toJs rest := by
          have hprop : (JsValue.object (jsFields fields)).property name = w.toJs := by
            rw [JsValue.property, lookup_jsFields, hfield]
            rfl
          rw [← hprop]
          rfl
        rw [hstep, FactValue.own, hfield, Option.getD_some, ih]
        simp [leavesFacts, hfield]
      | none =>
        rw [FactValue.own, hfield, Option.getD_none, own_undefined, leavesFacts, hfield]
        exact walk_missing hfield
    | date time =>
      cases time <;> exact iff_of_true (congrArg FactValue.toJs (own_undefined rest).symm) rfl
    | _ => exact iff_of_true (congrArg FactValue.toJs (own_undefined rest).symm) rfl

/-- The cache is never seen, and the calls answer what the plain lookup answers exactly when no valid
path leads into `Object.prototype`. -/
theorem resolves_plainly_iff (facts : List (String × FactValue)) (paths : List String) :
    resolveAll (FactValue.object facts).toJs paths [] =
        paths.map (fun path => (resolvePath (FactValue.object facts).toJs path []).1) ∧
      (ResolvesPlainly facts paths ↔
        ∀ path ∈ paths, isValidPath path = true → leavesFacts (.object facts) (pathParts path) = false) := by
  have hempty : SoundCache (FactValue.object facts).toJs [] := fun _ _ hl => (nomatch hl)
  have hall := resolveAll_eq paths hempty
  refine ⟨hall, ?_⟩
  have hanswer : ∀ path, isValidPath path = true →
      ((resolvePath (FactValue.object facts).toJs path []).1 =
        .ok (plainLookup (.object facts) path).toJs ↔
          leavesFacts (.object facts) (pathParts path) = false) := by
    intro path hvalid
    obtain ⟨cache, hres, -⟩ := resolvePath_spec hvalid hempty
    rw [hres, Except.ok.injEq, plainLookup, walk_eq_plain_iff]
  unfold ResolvesPlainly
  rw [hall]
  constructor
  · intro h path hmem hvalid
    obtain ⟨i, hi⟩ := List.getElem?_of_mem hmem
    have hcall := h i path hi hvalid
    rw [List.getElem?_map, hi, Option.map_some, Option.some.injEq] at hcall
    exact (hanswer path hvalid).mp hcall
  · intro h i path hi hvalid
    rw [List.getElem?_map, hi, Option.map_some, Option.some.injEq]
    exact (hanswer path hvalid).mpr (h path (List.mem_of_getElem? hi) hvalid)

/-- Facts without the field `constructor`: the call answers a function, and the field exists. -/
theorem constructor_found :
    (¬ ∀ facts paths, ResolvesPlainly facts paths) ∧
      (evaluate .plain (leafNode "constructor" "exists" (.boolean true)) (FactValue.object []).toJs
        {}).matched = true := by
  refine ⟨fun h => ?_, by decide +kernel⟩
  have hplain := (resolves_plainly_iff [] ["constructor"]).2.mp (h [] ["constructor"]) "constructor"
    (.head _) (by decide +kernel)
  revert hplain
  decide +kernel

end ElectronicsCart.Rules
