import Mathlib.Data.List.GetD
import Mathlib.Data.List.Nodup
import Mathlib.Data.List.Perm.Subperm
import Mathlib.Algebra.Order.BigOperators.Group.List
import ElectronicsCart.Core.Values
import ElectronicsCart.Lib.Csv

/-!
# Exports of reports

`rowsToCsv` of `modules/analytics/utils/export.util.ts`.  It quotes the cells of the body that hold a
comma, a quote or a line feed, and no cell of the header.  The value of a key is looked up in the row
and, where the row lacks the key, in `Object.prototype`.
-/

namespace ElectronicsCart.Analytics

abbrev Text := List Char

/-! ### Values -/

/-- The characters of `String(x)` for a number, `NaN` and the infinities among them. -/
def numeric (c : Char) : Bool := c.isDigit || "+-.eInfityNa".toList.contains c

structure Numeral where
  text : Text
  ordinary : ∀ c ∈ text, numeric c = true

inductive Json where
  | null
  | boolean (b : Bool)
  | number (n : Numeral)
  | string (s : Text)
  | array (items : List Json)
  | object (fields : List (Text × Json))

def hexDigit (n : ℕ) : Char := "0123456789abcdef".toList.getD n '0'

def escapeJson (c : Char) : Text :=
  if c = '"' then ['\\', '"']
  else if c = '\\' then ['\\', '\\']
  else if c = '\n' then ['\\', 'n']
  else if c = '\r' then ['\\', 'r']
  else if c = '\t' then ['\\', 't']
  else if c.toNat = 8 then ['\\', 'b']
  else if c.toNat = 12 then ['\\', 'f']
  else if c.toNat < 32 then ['\\', 'u', '0', '0', hexDigit (c.toNat / 16), hexDigit (c.toNat % 16)]
  else [c]

def jsonString (s : Text) : Text := '"' :: s.flatMap escapeJson ++ ['"']

/-- There is no literal for `NaN` and the infinities. -/
def jsonNumber (n : Numeral) : Text :=
  if n.text ∈ ["NaN".toList, "Infinity".toList, "-Infinity".toList] then "null".toList else n.text

def booleanText (b : Bool) : Text := if b then "true".toList else "false".toList

mutual

def Json.stringify : Json → Text
  | .null => "null".toList
  | .boolean b => booleanText b
  | .number n => jsonNumber n
  | .string s => jsonString s
  | .array items => '[' :: [','].intercalate (Json.stringifyItems items) ++ [']']
  | .object fields => '{' :: [','].intercalate (Json.stringifyFields fields) ++ ['}']

def Json.stringifyItems : List Json → List Text
  | [] => []
  | v :: vs => v.stringify :: Json.stringifyItems vs

def Json.stringifyFields : List (Text × Json) → List Text
  | [] => []
  | (k, v) :: fs => (jsonString k ++ ':' :: v.stringify) :: Json.stringifyFields fs

end

/-- The names under which every object has a function of `Object.prototype`. -/
def methodNames : List Text := JsValue.inheritedNames.map String.toList

structure Method where
  name : Text
  inherited : name ∈ methodNames

/-- `String(f)`; the `constructor` is the function `Object`. -/
def Method.text (f : Method) : Text :=
  "function ".toList ++ (if f.name = "constructor".toList then "Object".toList else f.name) ++
    "() \x7b [native code] \x7d".toList

/-- The values that are found under a key; `nested` is what `typeof` calls an object. -/
inductive Value where
  | null
  | undefined
  | string (s : Text)
  | number (n : Numeral)
  | boolean (b : Bool)
  | nested (v : Json)
  | method (f : Method)

def Value.text : Value → Text
  | .null => []
  | .undefined => []
  | .string s => s
  | .number n => n.text
  | .boolean b => booleanText b
  | .nested v => v.stringify
  | .method f => f.text

/-! ### `rowsToCsv` -/

/-- The entries of a plain object in the order of `Object.keys`. -/
structure Row where
  entries : List (Text × Value)
  nodup : (entries.map Prod.fst).Nodup

def Row.keys (r : Row) : List Text := r.entries.map Prod.fst

def Row.own? (r : Row) (k : Text) : Option Value :=
  (r.entries.find? fun e => e.1 == k).map Prod.snd

/-- What every object has under a name; `Object.prototype` itself has no entries to show. -/
def inheritedValue (k : Text) : Value :=
  if k = "__proto__".toList then .nested (.object [])
  else if h : k ∈ methodNames then .method ⟨k, h⟩
  else .undefined

/-- `r[k]` -/
def Row.get (r : Row) (k : Text) : Value := (r.own? k).getD (inheritedValue k)

def addKey (set : List Text) (k : Text) : List Text := if k ∈ set then set else set ++ [k]

def keysOf (rows : List Row) : List Text :=
  rows.foldl (fun set row => row.keys.foldl addKey set) []

/-- `/[",\n]/` -/
def needsQuotes (s : Text) : Bool := s.any fun c => c == '"' || c == ',' || c == '\n'

def escape (v : Value) : Text :=
  if needsQuotes v.text then
    '"' :: v.text.flatMap (fun c => if c = '"' then ['"', '"'] else [c]) ++ ['"']
  else v.text

def rowsToCsv (rows : List Row) : Text :=
  if rows = [] then []
  else ['\n'].intercalate ([','].intercalate (keysOf rows) ::
    rows.map fun r => [','].intercalate ((keysOf rows).map fun k => escape (r.get k)))

/-! ### What a reader should find -/

/-- The text of a row's own value; it has none for a key that it lacks. -/
def Row.cellText (r : Row) (k : Text) : Text := ((r.own? k).map Value.text).getD []

/-- The distinct keys in the order in which they are first seen, and the cells of every row. -/
def table (rows : List Row) : List (List Text) :=
  (rows.flatMap Row.keys).eraseDups ::
    rows.map fun r => (rows.flatMap Row.keys).eraseDups.map r.cellText

/-- A name that every object has. -/
def inheritedName (k : Text) : Prop := k = "__proto__".toList ∨ k ∈ methodNames

/-- A key that every object has is a key of all the rows or of none. -/
def OwnOnly (rows : List Row) : Prop :=
  ∀ r ∈ rows, ∀ r' ∈ rows, ∀ k ∈ r'.keys, inheritedName k → k ∈ r.keys

/-- No key holds a character that the reader treats specially, a string with a CR is quoted for
another reason, and no row lacks a key of another row that every object has. -/
def Readable (rows : List Row) : Prop :=
  (∀ r ∈ rows, (∀ k ∈ r.keys, Csv.Plain k) ∧
    ∀ k s, (k, Value.string s) ∈ r.entries → '\r' ∈ s → needsQuotes s = true) ∧
  OwnOnly rows

theorem foldl_addKey (l set : List Text) :
    l.foldl addKey set = set ++ (l.filter fun k => decide (k ∉ set)).eraseDups := by
  induction l generalizing set with
  | nil => simp
  | cons k l ih =>
    rw [List.foldl_cons, ih, addKey]
    by_cases hk : k ∈ set
    · simp [hk]
    · have hfilter : (l.filter fun a => decide (a ∉ set ++ [k])) =
          (l.filter fun a => decide (a ∉ set)).filter fun a => !a == k := by
        rw [List.filter_filter]
        congr 1
        funext a
        by_cases ha : a ∈ set <;> simp [ha, beq_eq_decide]
      rw [if_neg hk, hfilter, List.filter_cons, if_pos (by simpa using hk), List.eraseDups_cons,
        List.append_assoc]
      rfl

theorem keysOf_eq (rows : List Row) : keysOf rows = (rows.flatMap Row.keys).eraseDups := by
  have hflat : keysOf rows = (rows.flatMap Row.keys).foldl addKey [] := by
    rw [List.foldl_flatMap]
    rfl
  rw [hflat, foldl_addKey]
  simp

/-! ### Texts without a CR -/

theorem numeric_ne_cr {c : Char} (h : numeric c = true) : c ≠ '\r' := by
  rintro rfl
  exact absurd h (by decide)

theorem booleanText_ne_cr (b : Bool) : '\r' ∉ booleanText b := by
  cases b <;> decide

theorem escapeJson_ne_cr (c : Char) : '\r' ∉ escapeJson c := by
  have hdigits : ∀ c ∈ "0123456789abcdef".toList, c ≠ '\r' := by simp
  have hdigit : ∀ n, hexDigit n ≠ '\r' := by
    intro n
    unfold hexDigit
    by_cases hn : n < "0123456789abcdef".toList.length
    · rw [List.getD_eq_getElem _ _ hn]
      exact hdigits _ (List.getElem_mem hn)
    · rw [List.getD_eq_default _ _ (Nat.not_lt.mp hn)]
      decide
  unfold escapeJson
  split_ifs with h1 h2 h3 h4 <;> try decide
  · simp [Ne.symm (hdigit _)]
  · simpa [eq_comm] using h4

theorem jsonString_ne_cr (s : Text) : '\r' ∉ jsonString s := by
  simp [jsonString, escapeJson_ne_cr]

theorem jsonNumber_ne_cr (n : Numeral) : '\r' ∉ jsonNumber n := by
  unfold jsonNumber
  split
  · decide
  · exact fun h => numeric_ne_cr (n.ordinary _ h) rfl

theorem intercalate_ne_cr {l : List Text} (h : ∀ s ∈ l, '\r' ∉ s) : '\r' ∉ [','].intercalate l := by
  induction l with
  | nil => simp [List.intercalate]
  | cons s l ih =>
    obtain ⟨hs, hl⟩ := List.forall_mem_cons.mp h
    cases l with
    | nil => simpa [List.intercalate] using hs
    | cons s' l =>
      have hrest := ih hl
      simp only [List.intercalate] at hrest
      simp [List.intercalate, hs, hrest]

mutual

theorem stringify_ne_cr : ∀ v : Json, '\r' ∉ v.stringify
  | .null => by decide
  | .boolean b => booleanText_ne_cr b
  | .number n => jsonNumber_ne_cr n
  | .string s => jsonString_ne_cr s
  | .array items => by
    simp [Json.stringify, intercalate_ne_cr (stringifyItems_ne_cr items)]
  | .object fields => by
    simp [Json.stringify, intercalate_ne_cr (stringifyFields_ne_cr fields)]

theorem stringifyItems_ne_cr : ∀ vs : List Json, ∀ s ∈ Json.stringifyItems vs, '\r' ∉ s
  | [] => by simp [Json.stringifyItems]
  | v :: vs => List.forall_mem_cons.mpr ⟨stringify_ne_cr v, stringifyItems_ne_cr vs⟩

theorem stringifyFields_ne_cr :
    ∀ fs : List (Text × Json), ∀ s ∈ Json.stringifyFields fs, '\r' ∉ s
  | [] => by simp [Json.stringifyFields]
  | (k, v) :: fs => by
    refine List.forall_mem_cons.mpr ⟨?_, stringifyFields_ne_cr fs⟩
    simp [jsonString_ne_cr k, stringify_ne_cr v]

end

theorem method_ne_cr (f : Method) : '\r' ∉ f.text := by
  have hnames : ∀ name ∈ methodNames, '\r' ∉ name := by
    unfold methodNames JsValue.inheritedNames
    decide +kernel
  unfold Method.text
  repeat rewrite [String.toList_ofList]
  split <;> simp [hnames f.name f.inherited]

theorem string_of_cr {v : Value} (h : '\r' ∈ v.text) : v = .string v.text := by
  cases v with
  | null => cases h
  | undefined => cases h
  | string s => rfl
  | number n => exact absurd rfl (numeric_ne_cr (n.ordinary _ h))
  | boolean b => exact absurd h (booleanText_ne_cr b)
  | nested v => exact absurd h (stringify_ne_cr v)
  | method f => exact absurd h (method_ne_cr f)

/-! ### Cells -/

theorem escape_eq (v : Value) :
    escape v = if needsQuotes v.text then Csv.quote v.text else v.text := by
  have hdouble : ∀ s : Text, (s.flatMap fun c => if c = '"' then ['"', '"'] else [c]) = Csv.double s := by
    intro s
    induction s with
    | nil => rfl
    | cons c s ih =>
      rw [List.flatMap_cons, ih, Csv.double]
      split <;> rfl
  rw [escape, hdouble]
  rfl

def headerCell (k : Text) : Csv.Cell := ⟨k, k, .inl rfl⟩

def bodyCell (v : Value) : Csv.Cell where
  content := v.text
  raw := escape v
  written := by
    rw [escape_eq]
    split
    · exact .inr rfl
    · exact .inl rfl

theorem quote_ne_self (s : Text) : Csv.quote s ≠ s := by
  have hle : ∀ s : Text, s.length ≤ (Csv.double s).length := by
    intro s
    induction s with
    | nil => exact Nat.zero_le _
    | cons c s ih =>
      rw [Csv.double]
      split <;> simp only [List.length_cons] <;> omega
  intro h
  have hlen := congrArg List.length h
  have hs := hle s
  simp only [Csv.quote, List.cons_append, List.length_cons, List.length_append, List.length_nil] at hlen
  omega

theorem clean_headerCell (k : Text) : (headerCell k).Clean ↔ Csv.Plain k := by
  refine or_iff_left fun h => ?_
  exact quote_ne_self k h.symm

theorem plain_iff (s : Text) : Csv.Plain s ↔ needsQuotes s = false ∧ '\r' ∉ s := by
  simp only [Csv.Plain, Csv.special, needsQuotes, List.any_eq_false, Bool.or_eq_false_iff,
    Bool.or_eq_true, beq_eq_false_iff_ne, beq_iff_eq, not_or]
  constructor
  · intro h
    refine ⟨fun c hc => ?_, fun hc => (h _ hc).1.2 rfl⟩
    obtain ⟨⟨⟨h1, h2⟩, -⟩, h4⟩ := h c hc
    exact ⟨⟨h2, h1⟩, h4⟩
  · rintro ⟨h, hcr⟩ c hc
    obtain ⟨⟨h2, h1⟩, h4⟩ := h c hc
    refine ⟨⟨⟨h1, h2⟩, ?_⟩, h4⟩
    rintro rfl
    exact hcr hc

theorem clean_bodyCell (v : Value) :
    (bodyCell v).Clean ↔ ('\r' ∈ v.text → needsQuotes v.text = true) := by
  have hraw : (bodyCell v).raw = if needsQuotes v.text then Csv.quote v.text else v.text := escape_eq v
  unfold Csv.Cell.Clean
  rw [hraw, show (bodyCell v).content = v.text from rfl, plain_iff]
  cases hq : needsQuotes v.text with
  | true => simp
  | false =>
    have hne : v.text ≠ Csv.quote v.text := (quote_ne_self v.text).symm
    simp [hne]

/-! ### The round trip -/

def cells (rows : List Row) : List (List Csv.Cell) :=
  (keysOf rows).map headerCell :: rows.map fun r => (keysOf rows).map fun k => bodyCell (r.get k)

theorem rowsToCsv_eq {rows : List Row} (hrows : rows ≠ []) :
    rowsToCsv rows = Csv.document (cells rows) := by
  have hline : ∀ l : List Csv.Cell, Csv.line l = [','].intercalate (l.map Csv.Cell.raw) := fun _ => rfl
  rw [rowsToCsv, if_neg hrows, Csv.document, cells, List.map_cons, List.map_map]
  congr 2
  · rw [hline, List.map_map]
    exact congrArg _ (List.map_id _).symm
  · refine List.map_congr_left fun r _ => ?_
    rw [Function.comp_apply, hline, List.map_map]
    rfl

theorem mem_keysOf {rows : List Row} {k : Text} : k ∈ keysOf rows ↔ ∃ r ∈ rows, k ∈ r.keys := by
  rw [keysOf_eq, List.mem_eraseDups, List.mem_flatMap]

theorem own_cases (r : Row) (k : Text) :
    (∃ v, r.own? k = some v ∧ (k, v) ∈ r.entries) ∨ r.own? k = none ∧ k ∉ r.keys := by
  unfold Row.own?
  cases hfind : r.entries.find? fun e => e.1 == k with
  | none =>
    refine .inr ⟨rfl, fun hk => ?_⟩
    obtain ⟨e, he, rfl⟩ := List.mem_map.mp hk
    simpa using List.find?_eq_none.mp hfind e he
  | some e =>
    obtain rfl : e.1 = k := by simpa using List.find?_some hfind
    exact .inl ⟨e.2, rfl, List.mem_of_find?_eq_some hfind⟩

theorem own_of_mem {r : Row} {k : Text} {v : Value} (h : (k, v) ∈ r.entries) : r.own? k = some v := by
  rcases own_cases r k with ⟨w, hown, hw⟩ | ⟨-, hlack⟩
  · have heq := List.inj_on_of_nodup_map r.nodup hw h rfl
    rw [hown]
    exact congrArg some (congrArg Prod.snd heq)
  · exact absurd (List.mem_map_of_mem (f := Prod.fst) h) hlack

theorem inheritedValue_of_not {k : Text} (h : ¬ inheritedName k) : inheritedValue k = .undefined := by
  rw [inheritedName, not_or] at h
  rw [inheritedValue, if_neg h.1, dif_neg h.2]

/-- Each inherited value is written with a brace. -/
theorem brace_method (f : Method) : '{' ∈ f.text := by
  unfold Method.text
  repeat rewrite [String.toList_ofList]
  simp

theorem brace_inherited {k : Text} (h : inheritedName k) : 0 < (inheritedValue k).text.count '{' := by
  unfold inheritedValue
  split
  next =>
    rw [Value.text, Json.stringify, Json.stringifyFields]
    decide
  next hproto =>
    rw [dif_pos (h.resolve_left hproto)]
    exact List.count_pos_iff.mpr (brace_method _)

theorem string_of_inherited (k : Text) (s : Text) : inheritedValue k ≠ .string s := by
  unfold inheritedValue
  split_ifs <;> simp

theorem cellText_cases (r : Row) (k : Text) :
    r.cellText k = (r.get k).text ∧ (k ∈ r.keys ∨ ¬ inheritedName k) ∨
      r.cellText k = [] ∧ (k ∉ r.keys ∧ inheritedName k) ∧ r.get k = inheritedValue k := by
  unfold Row.cellText Row.get
  rcases own_cases r k with ⟨v, hown, hmem⟩ | ⟨hown, hlack⟩
  · rw [hown]
    exact .inl ⟨rfl, .inl (List.mem_map_of_mem (f := Prod.fst) hmem)⟩
  · rw [hown]
    by_cases hk : inheritedName k
    · exact .inr ⟨rfl, ⟨hlack, hk⟩, rfl⟩
    · rw [inheritedValue_of_not hk]
      exact .inl ⟨rfl, .inr hk⟩

theorem braces_cellText (r : Row) (k : Text) :
    (r.cellText k).count '{' ≤ (r.get k).text.count '{' := by
  rcases cellText_cases r k with ⟨heq, -⟩ | ⟨heq, -⟩
  · rw [heq]
  · rw [heq]
    exact Nat.zero_le _

theorem contents_eq (rows : List Row) : (cells rows).map (fun r => r.map Csv.Cell.content) =
    keysOf rows :: rows.map fun r => (keysOf rows).map fun k => (r.get k).text := by
  rw [cells, List.map_cons, List.map_map, List.map_map]
  congr 1
  · exact List.map_id _
  · refine List.map_congr_left fun r _ => ?_
    rw [Function.comp_apply, List.map_map]
    rfl

theorem table_eq {rows : List Row} (h : OwnOnly rows) :
    table rows = (cells rows).map fun r => r.map Csv.Cell.content := by
  rw [table, contents_eq, ← keysOf_eq]
  congr 1
  refine List.map_congr_left fun r hr => List.map_congr_left fun k hk => ?_
  rcases cellText_cases r k with ⟨heq, -⟩ | ⟨-, ⟨hlack, hname⟩, -⟩
  · exact heq
  · obtain ⟨r', hr', hk'⟩ := mem_keysOf.mp hk
    exact absurd (h r hr r' hr' k hk' hname) hlack

/-- An inherited value would be read with a brace that the row does not have. -/
theorem ownOnly_of_read {rows : List Row} (h : Csv.parse (Csv.document (cells rows)) = some (table rows)) :
    OwnOnly rows := by
  intro r hr r' hr' k hk' hname
  by_contra hlack
  have hcount := (Csv.count_document (c := '{') rfl _).symm.trans (Csv.count_read rfl h)
  rw [contents_eq, table, ← keysOf_eq] at hcount
  simp only [Csv.occurs, List.map_cons, List.sum_cons, List.map_map, Function.comp_def]
    at hcount
  have hle : ∀ r : Row, ((keysOf rows).map fun k => (r.cellText k).count '{').sum ≤
      ((keysOf rows).map fun k => (r.get k).text.count '{').sum :=
    fun r => List.sum_le_sum fun k _ => braces_cellText r k
  have hless : ((keysOf rows).map fun k => (r.cellText k).count '{').sum <
      ((keysOf rows).map fun k => (r.get k).text.count '{').sum := by
    refine List.sum_lt_sum _ _ (fun k _ => braces_cellText r k) ⟨k, mem_keysOf.mpr ⟨r', hr', hk'⟩, ?_⟩
    rcases cellText_cases r k with ⟨-, hown⟩ | ⟨hempty, -, hget⟩
    · exact absurd hown (by simp [hlack, hname])
    · rw [hempty, hget]
      exact brace_inherited hname
  have htotal := List.sum_lt_sum
    (fun r : Row => ((keysOf rows).map fun k => (r.cellText k).count '{').sum)
    (fun r => ((keysOf rows).map fun k => (r.get k).text.count '{').sum)
    (fun r _ => hle r) ⟨r, hr, hless⟩
  exact absurd (Nat.add_left_cancel hcount).symm (Nat.ne_of_lt htotal)

theorem clean_cells_iff {rows : List Row} :
    (∀ r ∈ cells rows, ∀ c ∈ r, c.Clean) ↔ ∀ r ∈ rows, (∀ k ∈ r.keys, Csv.Plain k) ∧
      ∀ k s, (k, Value.string s) ∈ r.entries → '\r' ∈ s → needsQuotes s = true := by
  have hheader : (∀ c ∈ (keysOf rows).map headerCell, c.Clean) ↔
      ∀ r ∈ rows, ∀ k ∈ r.keys, Csv.Plain k := by
    simp only [List.forall_mem_map, clean_headerCell, mem_keysOf]
    exact ⟨fun h r hr k hk => h k ⟨r, hr, hk⟩, fun h k ⟨r, hr, hk⟩ => h r hr k hk⟩
  have hbody : ∀ r ∈ rows, (∀ c ∈ (keysOf rows).map fun k => bodyCell (r.get k), c.Clean) ↔
      ∀ k s, (k, Value.string s) ∈ r.entries → '\r' ∈ s → needsQuotes s = true := by
    intro r hr
    simp only [List.forall_mem_map, clean_bodyCell]
    constructor
    · intro h k s hentry hcr
      have hk : k ∈ keysOf rows :=
        mem_keysOf.mpr ⟨r, hr, List.mem_map.mpr ⟨(k, .string s), hentry, rfl⟩⟩
      have hcell := h k hk
      rw [Row.get, own_of_mem hentry] at hcell
      exact hcell hcr
    · intro h k _ hcr
      have hstring := string_of_cr hcr
      unfold Row.get at hcr hstring ⊢
      rcases own_cases r k with ⟨v, hown, hmem⟩ | ⟨hown, -⟩
      · rw [hown, Option.getD_some] at hcr hstring ⊢
        rw [hstring] at hmem
        exact h k _ hmem hcr
      · rw [hown, Option.getD_none] at hstring
        exact absurd hstring (string_of_inherited k _)
  rw [cells, List.forall_mem_cons, hheader, List.forall_mem_map]
  constructor
  · rintro ⟨hk, hc⟩ r hr
    exact ⟨hk r hr, (hbody r hr).mp (hc r hr)⟩
  · intro h
    exact ⟨fun r hr => (h r hr).1, fun r hr => (hbody r hr).mpr (h r hr).2⟩

/-- The export is read back exactly when its keys are plain, no string with a CR is left without
quotes and no row lacks a key that every object has. -/
theorem csv_read_back_iff (rows : List Row) (hkeys : ∃ r ∈ rows, 2 ≤ r.entries.length) :
    Csv.parse (rowsToCsv rows) = some (table rows) ↔ Readable rows := by
  obtain ⟨r, hr, hlen⟩ := hkeys
  have hrows : rows ≠ [] := List.ne_nil_of_mem hr
  have htwo : 2 ≤ (keysOf rows).length := by
    have hsub : r.keys.length ≤ (keysOf rows).length :=
      (r.nodup.subperm fun k hk => mem_keysOf.mpr ⟨r, hr, hk⟩).length_le
    rw [Row.keys, List.length_map] at hsub
    omega
  have hwide : ∀ l ∈ cells rows, 2 ≤ l.length := by
    refine List.forall_mem_cons.mpr ⟨by simpa using htwo, ?_⟩
    refine List.forall_mem_map.mpr fun _ _ => ?_
    simpa using htwo
  have hiff : Csv.parse (Csv.document (cells rows)) =
      some ((cells rows).map fun r => r.map Csv.Cell.content) ↔
        ∀ r ∈ cells rows, ∀ c ∈ r, c.Clean :=
    Csv.parse_document_iff (List.cons_ne_nil _ _) hwide
  rw [rowsToCsv_eq hrows, Readable, ← clean_cells_iff, ← hiff]
  constructor
  · intro h
    have hown := ownOnly_of_read h
    rw [table_eq hown] at h
    exact ⟨h, hown⟩
  · rintro ⟨h, hown⟩
    rw [table_eq hown]
    exact h

/-- A comma inside a cell, and a row that lacks a key. -/
def plainRows : List Row :=
  [⟨[("a".toList, .string "y,z".toList), ("b".toList, .null)], by decide⟩,
    ⟨[("b".toList, .boolean true)], by decide⟩]

theorem plain_rows_read_back :
    (Csv.parse (rowsToCsv plainRows) = some (table plainRows) ↔ Readable plainRows) ∧
      Csv.parse (rowsToCsv plainRows) =
        some [["a".toList, "b".toList], ["y,z".toList, []], [[], "true".toList]] :=
  ⟨csv_read_back_iff plainRows ⟨_, List.mem_cons_self, by decide⟩, by decide +kernel⟩

def totalRows : List Row :=
  [⟨[("Total, INR".toList, .string "5".toList), ("b".toList, .string "6".toList)], by decide⟩]

/-- The key takes two columns of the header. -/
theorem key_with_comma_split :
    (∃ r ∈ totalRows, 2 ≤ r.entries.length) ∧
      Csv.parse (rowsToCsv totalRows) =
        some [["Total".toList, " INR".toList, "b".toList], ["5".toList, "6".toList]] ∧
      Csv.parse (rowsToCsv totalRows) ≠ some (table totalRows) := by
  refine ⟨⟨_, List.mem_cons_self, by decide⟩, by decide +kernel, by decide +kernel⟩

end ElectronicsCart.Analytics
