import ElectronicsCart.Core.Values
import ElectronicsCart.Lib.Json

/-!
# `JSON.parse` and `JSON.stringify`

The texts that `JsValue.stringify` writes, read back by `JSON.parse`.  The caches hold such texts; what
comes out of them is `JsValue.revived`.
-/

namespace ElectronicsCart.JsValue

variable (rt : Runtime)

/-! ### `JSON.parse` -/

def arrayIndex (key : String) : Option ℕ :=
  (digitsValue key.toList).filter fun n => decide (toString n = key ∧ n < 4294967295)

/-- Whether a property may stand before another one: indexes come first, in their order. -/
def precedes (a b : String) : Bool :=
  match arrayIndex b with
  | none => true
  | some n => (arrayIndex a).any (· < n)

/-- `CreateDataProperty` on an object with these properties. -/
def assign (key : String) (v : JsValue) : List (String × JsValue) → List (String × JsValue)
  | [] => [(key, v)]
  | (k, w) :: rest =>
    if k = key then (key, v) :: rest
    else if precedes k key then (k, w) :: assign key v rest
    else (key, v) :: (k, w) :: rest

mutual

def ofJson : JsonText.Value → JsValue
  | .null => null
  | .boolean b => boolean b
  | .number literal => number (rt.numberOf (String.ofList literal.1))
  | .string s => string (String.ofList s)
  | .array xs => array (ofItems xs)
  | .object ms => object (ofMembers [] ms)

def ofItems : List JsonText.Value → List JsValue
  | [] => []
  | j :: js => ofJson j :: ofItems js

def ofMembers (fields : List (String × JsValue)) :
    List (JsonText.Text × JsonText.Value) → List (String × JsValue)
  | [] => fields
  | (key, j) :: ms => ofMembers (assign (String.ofList key) (ofJson j) fields) ms

end

/-- `JSON.parse(text)`; a syntax error has no value. -/
def parse (text : String) : Option JsValue := (JsonText.parse text.toList).map (ofJson rt)

/-! ### Values whose text can be read back -/

/-- The property names of an object, in the order of `Object.keys`. -/
def inOrder (keys : List String) : Bool :=
  decide (keys.Pairwise fun a b => a ≠ b ∧ precedes a b = true)

mutual

/-- The engine prints the numbers as JSON literals that stand for them, and the properties of the
objects are in order. -/
def readable : JsValue → Bool
  | number (.finite q) =>
    JsonText.isNumber (rt.numberText q).toList && decide (rt.numberOf (rt.numberText q) = .finite q)
  | array xs => readableItems xs
  | object fields => inOrder (fields.map Prod.fst) && readableFields fields
  | _ => true

def readableItems : List JsValue → Bool
  | [] => true
  | v :: vs => readable v && readableItems vs

def readableFields : List (String × JsValue) → Bool
  | [] => true
  | (_, v) :: rest => readable v && readableFields rest

end

mutual

/-- The JSON value that `JSON.stringify` prints. -/
def json : JsValue → Option JsonText.Value
  | undefined => none
  | null => some .null
  | boolean b => some (.boolean b)
  | number (.finite q) =>
    if h : JsonText.isNumber (rt.numberText q).toList = true then some (.number ⟨_, h⟩) else some .null
  | number _ => some .null
  | string s => some (.string s.toList)
  | date ms => some (.string (rt.toISOString ms).toList)
  | invalidDate => some .null
  | decimal text => some (.string text.toList)
  | array xs => some (.array (jsonItems xs))
  | object fields => some (.object (jsonFields fields))
  | builtin _ => none
  | objectPrototype => some (.object [])

def jsonItems : List JsValue → List JsonText.Value
  | [] => []
  | v :: vs => (json v).getD .null :: jsonItems vs

def jsonFields : List (String × JsValue) → List (JsonText.Text × JsonText.Value)
  | [] => []
  | (key, v) :: rest =>
    match json v with
    | some j => (key.toList, j) :: jsonFields rest
    | none => jsonFields rest

end

/-! ### The text is the printed value -/

theorem toList_quoteChar (c : Char) : (quoteChar c).toList = JsonText.quoteChar c := by
  unfold quoteChar JsonText.quoteChar
  split_ifs
  · rfl
  · rfl
  · rfl
  · rfl
  · rfl
  · rfl
  · rfl
  · simp [hexEscape, JsonText.hexEscape]
  · simp

theorem toList_quote (s : String) : (quote s).toList = JsonText.quote s.toList := by
  rw [quote, String.toList_append, String.toList_append, String.toList_join, List.flatMap_map]
  simp only [toList_quoteChar]
  rfl

mutual

theorem toList_stringify : ∀ v : JsValue, readable rt v = true →
    (stringify rt v).map String.toList = (json rt v).map JsonText.render
  | undefined, _ => rfl
  | null, _ => rfl
  | boolean true, _ => rfl
  | boolean false, _ => rfl
  | number (.finite q), h => by
    simp only [readable, Bool.and_eq_true] at h
    rw [stringify, json, dif_pos h.1]
    rfl
  | number .nan, _ => rfl
  | number (.infinity _), _ => rfl
  | string s, _ => congrArg some (toList_quote s)
  | date ms, _ => congrArg some (toList_quote _)
  | invalidDate, _ => rfl
  | decimal text, _ => congrArg some (toList_quote text)
  | array xs, h => by
    rw [stringify, json, Option.map_some, Option.map_some, JsonText.render, ← toList_stringifyItems xs h]
    simp [String.toList_intercalate]
  | object fields, h => by
    simp only [readable, Bool.and_eq_true] at h
    rw [stringify, json, Option.map_some, Option.map_some, JsonText.render, ← toList_stringifyFields fields h.2]
    simp [String.toList_intercalate]
  | builtin _, _ => rfl
  | objectPrototype, _ => rfl

theorem toList_stringifyItems : ∀ vs : List JsValue, readableItems rt vs = true →
    (stringifyItems rt vs).map String.toList = JsonText.renderItems (jsonItems rt vs)
  | [], _ => rfl
  | v :: vs, h => by
    simp only [readableItems, Bool.and_eq_true] at h
    have hv := toList_stringify v h.1
    rw [stringifyItems, jsonItems, JsonText.renderItems, List.map_cons, toList_stringifyItems vs h.2]
    congr 1
    cases hs : stringify rt v with
    | none =>
      rw [hs, Option.map_none, eq_comm, Option.map_eq_none_iff] at hv
      rw [hv]
      rfl
    | some text =>
      rw [hs, Option.map_some, eq_comm, Option.map_eq_some_iff] at hv
      obtain ⟨j, hj, hrender⟩ := hv
      rw [hj]
      exact hrender.symm

theorem toList_stringifyFields : ∀ fields : List (String × JsValue), readableFields rt fields = true →
    (stringifyFields rt fields).map String.toList = JsonText.renderMembers (jsonFields rt fields)
  | [], _ => rfl
  | (key, v) :: rest, h => by
    simp only [readableFields, Bool.and_eq_true] at h
    have hv := toList_stringify v h.1
    have hrest := toList_stringifyFields rest h.2
    rw [stringifyFields, jsonFields]
    cases hs : stringify rt v with
    | none =>
      rw [hs, Option.map_none, eq_comm, Option.map_eq_none_iff] at hv
      simp only [hv]
      exact hrest
    | some text =>
      rw [hs, Option.map_some, eq_comm, Option.map_eq_some_iff] at hv
      obtain ⟨j, hj, hrender⟩ := hv
      simp only [hj, List.map_cons, JsonText.renderMembers, hrest, hrender, String.toList_append, toList_quote]
      simp

end

/-! ### What comes back -/

theorem assign_last {key : String} {v : JsValue} {fields : List (String × JsValue)}
    (h : ∀ f ∈ fields, f.1 ≠ key ∧ precedes f.1 key = true) :
    assign key v fields = fields ++ [(key, v)] := by
  induction fields with
  | nil => rfl
  | cons f fields ih =>
    obtain ⟨hne, hbefore⟩ := h f List.mem_cons_self
    rw [assign, if_neg hne, if_pos hbefore, ih fun g hg => h g (List.mem_cons_of_mem f hg)]
    rfl

mutual

theorem ofJson_json : ∀ v : JsValue, readable rt v = true → (json rt v).map (ofJson rt) = revived rt v
  | undefined, _ => rfl
  | null, _ => rfl
  | boolean _, _ => rfl
  | number (.finite q), h => by
    simp only [readable, Bool.and_eq_true, decide_eq_true_eq] at h
    rw [json, dif_pos h.1, Option.map_some, ofJson, String.ofList_toList, h.2]
    rfl
  | number .nan, _ => rfl
  | number (.infinity _), _ => rfl
  | string s, _ => by
    rw [json, Option.map_some, ofJson, String.ofList_toList]
    rfl
  | date ms, _ => by
    rw [json, Option.map_some, ofJson, String.ofList_toList]
    rfl
  | invalidDate, _ => rfl
  | decimal text, _ => by
    rw [json, Option.map_some, ofJson, String.ofList_toList]
    rfl
  | array xs, h => by
    rw [json, Option.map_some, ofJson, ofItems_json xs h]
    rfl
  | object fields, h => by
    simp only [readable, Bool.and_eq_true, inOrder, decide_eq_true_eq] at h
    rw [json, Option.map_some, ofJson, ofMembers_json fields [] h.1 h.2]
    rfl
  | builtin _, _ => rfl
  | objectPrototype, _ => rfl

theorem ofItems_json : ∀ vs : List JsValue, readableItems rt vs = true →
    ofItems rt (jsonItems rt vs) = revivedItems rt vs
  | [], _ => rfl
  | v :: vs, h => by
    simp only [readableItems, Bool.and_eq_true] at h
    rw [jsonItems, ofItems, revivedItems, ofItems_json vs h.2, ← ofJson_json v h.1]
    cases json rt v <;> rfl

theorem ofMembers_json : ∀ (fields acc : List (String × JsValue)),
    ((acc ++ fields).map Prod.fst).Pairwise (fun a b => a ≠ b ∧ precedes a b = true) →
    readableFields rt fields = true →
    ofMembers rt acc (jsonFields rt fields) = acc ++ revivedFields rt fields
  | [], acc, _, _ => (List.append_nil acc).symm
  | (key, v) :: rest, acc, horder, h => by
    simp only [readableFields, Bool.and_eq_true] at h
    have hv := ofJson_json v h.1
    rw [jsonFields, revivedFields, ← hv]
    cases hj : json rt v with
    | none =>
      have hsub : ((acc ++ rest).map Prod.fst).Sublist ((acc ++ (key, v) :: rest).map Prod.fst) := by
        rw [List.map_append, List.map_append]
        exact (List.Sublist.refl _).append ((List.Sublist.refl _).cons key)
      exact ofMembers_json rest acc (horder.sublist hsub) h.2
    | some j =>
      have hlast : ∀ f ∈ acc, f.1 ≠ key ∧ precedes f.1 key = true := by
        intro f hf
        rw [List.map_append, List.pairwise_append] at horder
        exact horder.2.2 f.1 (List.mem_map_of_mem hf) key List.mem_cons_self
      have horder' : ((acc ++ [(key, ofJson rt j)] ++ rest).map Prod.fst).Pairwise
          fun a b => a ≠ b ∧ precedes a b = true := by
        simpa using horder
      simp only [Option.map_some, ofMembers, String.ofList_toList]
      rw [assign_last hlast, ofMembers_json rest _ horder' h.2, List.append_assoc]
      rfl

end

theorem parse_stringify {v : JsValue} (h : readable rt v = true) :
    (stringify rt v).bind (parse rt) = revived rt v := by
  have htext := toList_stringify rt v h
  rw [← ofJson_json rt v h]
  cases hs : stringify rt v with
  | none =>
    rw [hs, Option.map_none, eq_comm, Option.map_eq_none_iff] at htext
    rw [htext]
    rfl
  | some text =>
    rw [hs, Option.map_some, eq_comm, Option.map_eq_some_iff] at htext
    obtain ⟨j, hj, hrender⟩ := htext
    rw [hj, Option.bind_some, parse, ← hrender, JsonText.parse_render]

end ElectronicsCart.JsValue
