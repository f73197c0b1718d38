import Mathlib.Data.List.Basic
import Mathlib.Tactic.Common

/-!
# Reading XML documents

A reader of the part of XML 1.0 that programs write by hand: elements, their attributes as they stand,
character data with the five predefined entities, and processing instructions.  It refuses everything
else, a document with a character that XML does not allow, and tags that do not match; line ends are
normalized before anything is read.
-/

namespace Xml

abbrev Text := List Char

inductive Event where
  | start (name attributes : Text)
  | stop (name : Text)
  | char (c : Char)
  | instruction (content : Text)
deriving DecidableEq

/-! ### Characters -/

def legal (c : Char) : Bool :=
  c == '\t' || c == '\n' || c == '\r' || (32 ≤ c.toNat && c.toNat != 0xFFFE && c.toNat != 0xFFFF)

def isSpace (c : Char) : Bool := c == ' ' || c == '\t' || c == '\n' || c == '\r'

/-- A line feed for every CR, and none for a line feed after one. -/
def normalizeFrom : Bool → Text → Text
  | _, [] => []
  | afterCr, c :: cs =>
    if c = '\r' then '\n' :: normalizeFrom true cs
    else if c = '\n' ∧ afterCr = true then normalizeFrom false cs
    else c :: normalizeFrom false cs

def normalize (s : Text) : Text := normalizeFrom false s

/-! ### The reader -/

inductive Mode where
  | text
  | reference (name : Text)
  | tag (markup : Text) (quote : Option Char)

def entity (name : Text) : Option Char :=
  if name = "amp".toList then some '&'
  else if name = "lt".toList then some '<'
  else if name = "gt".toList then some '>'
  else if name = "quot".toList then some '"'
  else if name = "apos".toList then some '\''
  else none

/-- What stands between two angle brackets. -/
def markup : Text → Option Event
  | [] => none
  | '!' :: _ => none
  | '?' :: s => some (.instruction s)
  | '/' :: s => some (.stop s)
  | s =>
    if s.getLast? = some '/' then none
    else some (.start (s.takeWhile fun c => !isSpace c) (s.dropWhile fun c => !isSpace c))

def lex : Mode → Text → Option (List Event)
  | .text, [] => some []
  | _, [] => none
  | .text, c :: cs =>
    if c = '<' then lex (.tag [] none) cs
    else if c = '&' then lex (.reference []) cs
    else (lex .text cs).map (.char c :: ·)
  | .reference name, c :: cs =>
    if c = ';' then (entity name).bind fun d => (lex .text cs).map (.char d :: ·)
    else lex (.reference (name ++ [c])) cs
  | .tag m (some q), c :: cs => lex (.tag (m ++ [c]) (if c = q then none else some q)) cs
  | .tag m none, c :: cs =>
    if c = '>' then (markup m).bind fun e => (lex .text cs).map (e :: ·)
    else if c = '<' then none
    else lex (.tag (m ++ [c]) (if c = '"' ∨ c = '\'' then some c else none)) cs

/-- Every end tag closes the element opened last, and one element holds all text. -/
def nested : List Text → Bool → List Event → Bool
  | stack, root, [] => stack.isEmpty && root
  | stack, root, .char c :: es => (!stack.isEmpty || isSpace c) && nested stack root es
  | stack, root, .instruction _ :: es => nested stack root es
  | stack, root, .start name _ :: es => (!stack.isEmpty || !root) && nested (name :: stack) true es
  | name :: stack, root, .stop name' :: es => name == name' && nested stack root es
  | [], _, .stop _ :: _ => false

def read (s : Text) : Option (List Event) :=
  if s.all legal then (lex .text (normalize s)).filter (nested [] false) else none

/-! ### Line ends -/

@[simp] theorem normalize_nil : normalize [] = [] := rfl

theorem normalizeFrom_plain {s : Text} (h : '\r' ∉ s) (t : Text) :
    normalizeFrom false (s ++ t) = s ++ normalizeFrom false t := by
  induction s with
  | nil => rfl
  | cons c s ih =>
    rw [List.mem_cons, not_or] at h
    have hc : ¬ c = '\r' := fun he => h.1 he.symm
    simp [normalizeFrom, hc, ih h.2]

theorem normalizeFrom_append (b : Bool) (s t : Text) :
    normalizeFrom b (s ++ '<' :: t) = normalizeFrom b s ++ '<' :: normalize t := by
  induction s generalizing b with
  | nil => rfl
  | cons c s ih =>
    simp only [List.cons_append, normalizeFrom]
    split_ifs
    · rw [ih]
      rfl
    · rw [ih]
    · rw [ih]
      rfl

theorem normalizeFrom_eq_self {s : Text} (h : '\r' ∉ s) : normalizeFrom false s = s := by
  have hs := normalizeFrom_plain h []
  rwa [List.append_nil, normalizeFrom, List.append_nil] at hs

theorem cr_notMem_normalizeFrom (b : Bool) (s : Text) : '\r' ∉ normalizeFrom b s := by
  induction s generalizing b with
  | nil => simp [normalizeFrom]
  | cons c s ih =>
    simp only [normalizeFrom]
    split_ifs with hcr hlf
    · simp [ih]
    · exact ih false
    · simp [ih, Ne.symm hcr]

theorem normalizeFrom_flatMap {α : Type} {pieces : List α} {print : α → Text} {f : α → α}
    (h : ∀ a t, normalizeFrom false (print a ++ t) = print (f a) ++ normalizeFrom false t) (t : Text) :
    normalizeFrom false (pieces.flatMap print ++ t) =
      (pieces.map f).flatMap print ++ normalizeFrom false t := by
  induction pieces with
  | nil => rfl
  | cons a pieces ih =>
    rw [List.flatMap_cons, List.append_assoc, h, ih, List.map_cons, List.flatMap_cons, List.append_assoc]

theorem normalize_eq_self_iff {s : Text} : normalize s = s ↔ '\r' ∉ s := by
  refine ⟨fun h => ?_, normalizeFrom_eq_self⟩
  rw [← h]
  exact cr_notMem_normalizeFrom false s

/-! ### Pieces of a document -/

theorem lex_append {m : Mode} {s : Text} {es : List Event} (h : lex m s = some es) (cs : Text) :
    lex m (s ++ cs) = (lex .text cs).map (es ++ ·) := by
  induction s generalizing m es with
  | nil =>
    cases m with
    | text =>
      cases h
      simp
    | reference name => cases h
    | tag acc q => cases q <;> cases h
  | cons c s ih =>
    have hmap : ∀ {es es' : List Event} {e : Event}, lex .text s = some es' → e :: es' = es →
        (lex .text (s ++ cs)).map (e :: ·) = (lex .text cs).map (es ++ ·) := by
      rintro _ es' e hs rfl
      rw [ih hs, Option.map_map]
      rfl
    rw [List.cons_append]
    cases m with
    | text =>
      simp only [lex] at h ⊢
      split_ifs at h ⊢
      · exact ih h
      · exact ih h
      · obtain ⟨es', hs, he⟩ := Option.map_eq_some_iff.mp h
        exact hmap hs he
    | reference name =>
      simp only [lex] at h ⊢
      split_ifs at h ⊢
      · obtain ⟨d, hd, h⟩ := Option.bind_eq_some_iff.mp h
        obtain ⟨es', hs, he⟩ := Option.map_eq_some_iff.mp h
        rw [hd, Option.bind_some]
        exact hmap hs he
      · exact ih h
    | tag acc q =>
      cases q with
      | some d => exact ih h
      | none =>
        simp only [lex] at h ⊢
        split_ifs at h ⊢
        · obtain ⟨d, hd, h⟩ := Option.bind_eq_some_iff.mp h
          obtain ⟨es', hs, he⟩ := Option.map_eq_some_iff.mp h
          rw [hd, Option.bind_some]
          exact hmap hs he
        · exact ih h
        · exact ih h

/-! ### Character data -/

def escapeChar (c : Char) : Text :=
  if c = '&' then "&amp;".toList
  else if c = '<' then "&lt;".toList
  else if c = '>' then "&gt;".toList
  else if c = '"' then "&quot;".toList
  else [c]

def escape (s : Text) : Text := s.flatMap escapeChar

@[simp] theorem escape_nil : escape [] = [] := rfl

@[simp] theorem escape_cons (c : Char) (s : Text) : escape (c :: s) = escapeChar c ++ escape s := rfl

theorem lex_escapeChar (c : Char) (cs : Text) :
    lex .text (escapeChar c ++ cs) = (lex .text cs).map (.char c :: ·) := by
  unfold escapeChar
  split_ifs with hamp hlt hgt hquot
  · subst hamp
    rfl
  · subst hlt
    rfl
  · subst hgt
    rfl
  · subst hquot
    rfl
  · simp [lex, hlt, hamp]

theorem lex_escape (s cs : Text) :
    lex .text (escape s ++ cs) = (lex .text cs).map (s.map .char ++ ·) := by
  induction s with
  | nil =>
    cases h : lex .text cs <;> simp [h]
  | cons c s ih =>
    rw [escape_cons, List.append_assoc, lex_escapeChar, ih, Option.map_map]
    rfl

theorem eq_nil_of_normalize {s : Text} (h : normalize s = []) : s = [] := by
  cases s with
  | nil => rfl
  | cons c cs =>
    simp only [normalize, normalizeFrom] at h
    split_ifs at h with hcr hbreak
    exact absurd hbreak.2 (by decide)

theorem normalize_escape (b : Bool) (s : Text) :
    normalizeFrom b (escape s) = escape (normalizeFrom b s) := by
  induction s generalizing b with
  | nil => rfl
  | cons c s ih =>
    by_cases hamp : c = '&'
    · subst hamp
      simp [normalizeFrom, escapeChar, ih]
    by_cases hlt : c = '<'
    · subst hlt
      simp [normalizeFrom, escapeChar, ih]
    by_cases hgt : c = '>'
    · subst hgt
      simp [normalizeFrom, escapeChar, ih]
    by_cases hquot : c = '"'
    · subst hquot
      simp [normalizeFrom, escapeChar, ih]
    · have hself : escapeChar c = [c] := by simp [escapeChar, hamp, hlt, hgt, hquot]
      rw [escape_cons, hself]
      simp only [List.cons_append, List.nil_append, normalizeFrom]
      split_ifs with hcr hlf
      · rw [ih]
        rfl
      · exact ih false
      · rw [ih, escape_cons, hself]
        rfl

theorem legal_escapeChar (c : Char) : (escapeChar c).all legal = legal c := by
  unfold escapeChar
  split_ifs with hamp hlt hgt hquot
  · subst hamp
    decide
  · subst hlt
    decide
  · subst hgt
    decide
  · subst hquot
    decide
  · simp

theorem legal_escape (s : Text) : (escape s).all legal = s.all legal := by
  induction s with
  | nil => rfl
  | cons c s ih => rw [escape_cons, List.all_append, legal_escapeChar, ih, List.all_cons]

/-! ### Elements -/

theorem nested_chars (stack : List Text) (name : Text) (s : Text) (es : List Event) :
    nested (name :: stack) true (s.map .char ++ es) = nested (name :: stack) true es := by
  induction s with
  | nil => rfl
  | cons c s ih => simpa [nested] using ih

theorem nested_flatMap {α : Type} (stack : List Text) {pieces : List α} {f : α → List Event}
    (h : ∀ a ∈ pieces, ∀ rest, nested stack true (f a ++ rest) = nested stack true rest)
    (rest : List Event) : nested stack true (pieces.flatMap f ++ rest) = nested stack true rest := by
  induction pieces with
  | nil => rfl
  | cons a pieces ih =>
    obtain ⟨ha, hrest⟩ := List.forall_mem_cons.mp h
    rw [List.flatMap_cons, List.append_assoc, ha, ih hrest]

theorem lex_flatMap {α : Type} {pieces : List α} {print : α → Text} {f : α → List Event}
    (h : ∀ a ∈ pieces, ∀ cs, lex .text (print a ++ cs) = (lex .text cs).map (f a ++ ·)) (cs : Text) :
    lex .text (pieces.flatMap print ++ cs) = (lex .text cs).map (pieces.flatMap f ++ ·) := by
  induction pieces with
  | nil =>
    cases hcs : lex .text cs <;> simp [hcs]
  | cons a pieces ih =>
    obtain ⟨ha, hrest⟩ := List.forall_mem_cons.mp h
    rw [List.flatMap_cons, List.append_assoc, ha, ih hrest, Option.map_map, List.flatMap_cons]
    congr 1
    funext es
    exact (List.append_assoc ..).symm

end Xml
