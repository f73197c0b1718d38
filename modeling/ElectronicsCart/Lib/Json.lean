import Mathlib.Data.List.Basic
import Mathlib.Data.List.TakeWhile
import Mathlib.Tactic.Common

/-!
# JSON texts

The texts of RFC 8259: a lexer that reads one character at a time, a parser of the tokens, and a
printer without white space.  A number keeps the literal that stands for it.  Of the escapes, those of
a surrogate without its other half are refused, since no character stands for them.
-/

namespace JsonText

abbrev Text := List Char

/-! ### Numbers -/

def isDigit (c : Char) : Bool := '0' ≤ c && c ≤ '9'

def isExponent : Text → Bool
  | [] => true
  | e :: s =>
    (e == 'e' || e == 'E') &&
      match s with
      | '+' :: ds => !ds.isEmpty && ds.all isDigit
      | '-' :: ds => !ds.isEmpty && ds.all isDigit
      | ds => !ds.isEmpty && ds.all isDigit

def isTail : Text → Bool
  | '.' :: s => !(s.takeWhile isDigit).isEmpty && isExponent (s.dropWhile isDigit)
  | s => isExponent s

def isUnsigned : Text → Bool
  | '0' :: s => isTail s
  | c :: s => isDigit c && isTail (s.dropWhile isDigit)
  | [] => false

def isNumber : Text → Bool
  | '-' :: s => isUnsigned s
  | s => isUnsigned s

abbrev Literal := {s : Text // isNumber s = true}

/-! ### Values and tokens -/

inductive Value where
  | null
  | boolean (b : Bool)
  | number (literal : Literal)
  | string (s : Text)
  | array (items : List Value)
  | object (members : List (Text × Value))

inductive Token where
  | null
  | boolean (b : Bool)
  | number (literal : Literal)
  | string (s : Text)
  | openArray | closeArray | openObject | closeObject | comma | colon

/-! ### The lexer -/

def isSpace (c : Char) : Bool := c == ' ' || c == '\t' || c == '\n' || c == '\r'

def punctuation (c : Char) : Option Token :=
  if c = '[' then some .openArray
  else if c = ']' then some .closeArray
  else if c = '\x7b' then some .openObject
  else if c = '\x7d' then some .closeObject
  else if c = ',' then some .comma
  else if c = ':' then some .colon
  else none

def isDelimiter (c : Char) : Bool := isSpace c || c == '"' || (punctuation c).isSome

def word (w : Text) : Option Token :=
  if w = "null".toList then some .null
  else if w = "true".toList then some (.boolean true)
  else if w = "false".toList then some (.boolean false)
  else if h : isNumber w = true then some (.number ⟨w, h⟩)
  else none

def escaped (c : Char) : Option ℕ :=
  if c = '"' ∨ c = '\\' ∨ c = '/' then some c.toNat
  else if c = 'b' then some 8
  else if c = 'f' then some 12
  else if c = 'n' then some 10
  else if c = 'r' then some 13
  else if c = 't' then some 9
  else none

def hexValue (c : Char) : Option ℕ :=
  if isDigit c then some (c.toNat - 48)
  else if 'a' ≤ c ∧ c ≤ 'f' then some (c.toNat - 87)
  else if 'A' ≤ c ∧ c ≤ 'F' then some (c.toNat - 55)
  else none

def isHigh (u : ℕ) : Bool := 0xD800 ≤ u && u < 0xDC00

def isLow (u : ℕ) : Bool := 0xDC00 ≤ u && u < 0xE000

/-- The characters that code units stand for; two surrogates are one character. -/
def decode : List ℕ → Option Text
  | [] => some []
  | [u] => if isHigh u || isLow u then none else some [Char.ofNat u]
  | u :: v :: us =>
    if isHigh u && isLow v then
      (decode us).map (Char.ofNat (0x10000 + (u - 0xD800) * 0x400 + (v - 0xDC00)) :: ·)
    else if isHigh u || isLow u then none
    else (decode (v :: us)).map (Char.ofNat u :: ·)

inductive Mode where
  | between
  | word (w : Text)
  | string (units : List ℕ)
  | escape (units : List ℕ)
  | unicode (units : List ℕ) (count value : ℕ)

/-- What a character outside of strings and literals is, and what it begins. -/
def start (c : Char) : Option Token × Mode :=
  if isSpace c then (none, .between)
  else if c = '"' then (none, .string [])
  else match punctuation c with
    | some t => (some t, .between)
    | none => (none, .word [c])

def lex : Mode → Text → Option (List Token)
  | .between, [] => some []
  | .word w, [] => (word w).map ([·])
  | _, [] => none
  | .between, c :: cs => (lex (start c).2 cs).map ((start c).1.toList ++ ·)
  | .word w, c :: cs =>
    if isDelimiter c then
      (word w).bind fun t => (lex (start c).2 cs).map fun ts => t :: ((start c).1.toList ++ ts)
    else lex (.word (w ++ [c])) cs
  | .string us, c :: cs =>
    if c = '"' then (decode us).bind fun s => (lex .between cs).map (.string s :: ·)
    else if c = '\\' then lex (.escape us) cs
    else if c.toNat < 32 then none
    else lex (.string (us ++ [c.toNat])) cs
  | .escape us, c :: cs =>
    if c = 'u' then lex (.unicode us 0 0) cs
    else (escaped c).bind fun u => lex (.string (us ++ [u])) cs
  | .unicode us count value, c :: cs =>
    (hexValue c).bind fun h =>
      if count = 3 then lex (.string (us ++ [16 * value + h])) cs
      else lex (.unicode us (count + 1) (16 * value + h)) cs

/-! ### The parser -/

mutual

/-- A value and the tokens after it; `fuel` bounds the nesting. -/
def value : ℕ → List Token → Option (Value × List Token)
  | _ + 1, .null :: ts => some (.null, ts)
  | _ + 1, .boolean b :: ts => some (.boolean b, ts)
  | _ + 1, .number l :: ts => some (.number l, ts)
  | _ + 1, .string s :: ts => some (.string s, ts)
  | _ + 1, .openArray :: .closeArray :: ts => some (.array [], ts)
  | fuel + 1, .openArray :: ts => (items fuel ts).map fun r => (.array r.1, r.2)
  | _ + 1, .openObject :: .closeObject :: ts => some (.object [], ts)
  | fuel + 1, .openObject :: ts => (members fuel ts).map fun r => (.object r.1, r.2)
  | _, _ => none

def items : ℕ → List Token → Option (List Value × List Token)
  | 0, _ => none
  | fuel + 1, ts =>
    match value fuel ts with
    | some (v, .closeArray :: ts) => some ([v], ts)
    | some (v, .comma :: ts) => (items fuel ts).map fun r => (v :: r.1, r.2)
    | _ => none

def members : ℕ → List Token → Option (List (Text × Value) × List Token)
  | fuel + 1, .string key :: .colon :: ts =>
    match value fuel ts with
    | some (v, .closeObject :: ts) => some ([(key, v)], ts)
    | some (v, .comma :: ts) => (members fuel ts).map fun r => ((key, v) :: r.1, r.2)
    | _ => none
  | _, _ => none

end

def parse (s : Text) : Option Value :=
  (lex .between s).bind fun ts =>
    match value ts.length ts with
    | some (v, []) => some v
    | _ => none

/-! ### The printer -/

def hexEscape (c : Char) : Text :=
  ['\\', 'u', '0', '0', Nat.digitChar (c.toNat / 16), Nat.digitChar (c.toNat % 16)]

def quoteChar (c : Char) : Text :=
  if c = '"' then ['\\', '"']
  else if c = '\\' then ['\\', '\\']
  else if c.toNat = 8 then ['\\', 'b']
  else if c.toNat = 12 then ['\\', 'f']
  else if c.toNat = 10 then ['\\', 'n']
  else if c.toNat = 13 then ['\\', 'r']
  else if c.toNat = 9 then ['\\', 't']
  else if c.toNat < 32 then hexEscape c
  else [c]

def quote (s : Text) : Text := '"' :: (s.flatMap quoteChar ++ ['"'])

mutual

def render : Value → Text
  | .null => "null".toList
  | .boolean b => if b then "true".toList else "false".toList
  | .number l => l.1
  | .string s => quote s
  | .array xs => '[' :: ([','].intercalate (renderItems xs) ++ [']'])
  | .object ms => '\x7b' :: ([','].intercalate (renderMembers ms) ++ ['\x7d'])

def renderItems : List Value → List Text
  | [] => []
  | v :: vs => render v :: renderItems vs

def renderMembers : List (Text × Value) → List Text
  | [] => []
  | (key, v) :: ms => (quote key ++ ':' :: render v) :: renderMembers ms

end

mutual

def tokens : Value → List Token
  | .null => [.null]
  | .boolean b => [.boolean b]
  | .number l => [.number l]
  | .string s => [.string s]
  | .array xs => .openArray :: ([.comma].intercalate (itemTokens xs) ++ [.closeArray])
  | .object ms => .openObject :: ([.comma].intercalate (memberTokens ms) ++ [.closeObject])

def itemTokens : List Value → List (List Token)
  | [] => []
  | v :: vs => tokens v :: itemTokens vs

def memberTokens : List (Text × Value) → List (List Token)
  | [] => []
  | (key, v) :: ms => (.string key :: .colon :: tokens v) :: memberTokens ms

end

/-! ### Literals -/

def isNumberChar (c : Char) : Bool := isDigit c || c == '-' || c == '+' || c == '.' || c == 'e' || c == 'E'

theorem not_delimiter {c : Char} (h : isNumberChar c = true) : isDelimiter c = false := by
  have hne : ∀ d : Char, isNumberChar d = false → c ≠ d := by
    intro d hd he
    rw [he, hd] at h
    cases h
  have h₁ := hne ' ' rfl
  have h₂ := hne '\t' rfl
  have h₃ := hne '\n' rfl
  have h₄ := hne '\r' rfl
  have h₅ := hne '"' rfl
  have h₆ := hne '[' rfl
  have h₇ := hne ']' rfl
  have h₈ := hne '\x7b' rfl
  have h₉ := hne '\x7d' rfl
  have h₁₀ := hne ',' rfl
  have h₁₁ := hne ':' rfl
  simp [isDelimiter, isSpace, punctuation, h₁, h₂, h₃, h₄, h₅, h₆, h₇, h₈, h₉, h₁₀, h₁₁]

theorem numberChar_of_digit {c : Char} (h : isDigit c = true) : isNumberChar c = true := by
  simp [isNumberChar, h]

theorem all_of_digits {s : Text} (h : ∀ c ∈ s.dropWhile isDigit, isNumberChar c = true) :
    ∀ c ∈ s, isNumberChar c = true := by
  intro c hc
  rw [← List.takeWhile_append_dropWhile (p := isDigit) (l := s), List.mem_append] at hc
  rcases hc with hc | hc
  · exact numberChar_of_digit (List.mem_takeWhile_imp hc)
  · exact h c hc

theorem isExponent_chars {s : Text} (h : isExponent s = true) : ∀ c ∈ s, isNumberChar c = true := by
  have hdigits : ∀ ds : Text, (!ds.isEmpty && ds.all isDigit) = true → ∀ c ∈ ds, isNumberChar c = true := by
    intro ds hds c hc
    rw [Bool.and_eq_true, List.all_eq_true] at hds
    exact numberChar_of_digit (hds.2 c hc)
  cases s with
  | nil => exact fun c hc => absurd hc List.not_mem_nil
  | cons e s =>
    simp only [isExponent, Bool.and_eq_true] at h
    obtain ⟨he, hs⟩ := h
    have he' : isNumberChar e = true := by
      simp only [isNumberChar, Bool.or_eq_true] at he ⊢
      tauto
    intro c hc
    rcases List.mem_cons.mp hc with rfl | hc
    · exact he'
    · split at hs
      · rcases List.mem_cons.mp hc with rfl | hc
        · rfl
        · exact hdigits _ hs c hc
      · rcases List.mem_cons.mp hc with rfl | hc
        · rfl
        · exact hdigits _ hs c hc
      · exact hdigits _ hs c hc

theorem isTail_chars {s : Text} (h : isTail s = true) : ∀ c ∈ s, isNumberChar c = true := by
  unfold isTail at h
  split at h
  next s =>
    rw [Bool.and_eq_true] at h
    intro c hc
    rcases List.mem_cons.mp hc with rfl | hc
    · rfl
    · exact all_of_digits (isExponent_chars h.2) c hc
  next => exact isExponent_chars h

theorem isUnsigned_chars {s : Text} (h : isUnsigned s = true) : ∀ c ∈ s, isNumberChar c = true := by
  unfold isUnsigned at h
  split at h
  next s =>
    intro c hc
    rcases List.mem_cons.mp hc with rfl | hc
    · rfl
    · exact isTail_chars h c hc
  next c' s _ =>
    rw [Bool.and_eq_true] at h
    intro c hc
    rcases List.mem_cons.mp hc with rfl | hc
    · exact numberChar_of_digit h.1
    · exact all_of_digits (isTail_chars h.2) c hc
  next => cases h

theorem isNumber_chars {s : Text} (h : isNumber s = true) : ∀ c ∈ s, isNumberChar c = true := by
  unfold isNumber at h
  split at h
  next s =>
    intro c hc
    rcases List.mem_cons.mp hc with rfl | hc
    · rfl
    · exact isUnsigned_chars h c hc
  next => exact isUnsigned_chars h

theorem word_number (l : Literal) : word l.1 = some (.number l) := by
  have hne : ∀ w : Text, isNumber w = false → l.1 ≠ w := by
    intro w hw he
    have hl := l.2
    rw [he, hw] at hl
    cases hl
  have h₁ := hne "null".toList (by decide +kernel)
  have h₂ := hne "true".toList (by decide +kernel)
  have h₃ := hne "false".toList (by decide +kernel)
  rw [word, if_neg h₁, if_neg h₂, if_neg h₃, dif_pos l.2]

/-! ### Reading what was printed -/

def Delimited (rest : Text) : Prop := ∀ c cs, rest = c :: cs → isDelimiter c = true

def Lexes (text : Text) (ts : List Token) : Prop :=
  ∀ rest, Delimited rest → lex .between (text ++ rest) = (lex .between rest).map (ts ++ ·)

theorem lex_word {w text rest : Text} (ht : ∀ c ∈ text, isDelimiter c = false) (hr : Delimited rest) :
    lex (.word w) (text ++ rest) = (word (w ++ text)).bind fun t => (lex .between rest).map (t :: ·) := by
  induction text generalizing w with
  | nil =>
    rw [List.nil_append, List.append_nil]
    cases rest with
    | nil => cases hw : word w <;> simp [lex, hw]
    | cons c cs =>
      simp only [lex, if_pos (hr c cs rfl), Option.map_map]
      rfl
  | cons c text ih =>
    have hc := ht c List.mem_cons_self
    rw [List.cons_append, lex, hc, if_neg Bool.false_ne_true, ih fun d hd => ht d (List.mem_cons_of_mem c hd)]
    simp

theorem start_of_not_delimiter {c : Char} (h : isDelimiter c = false) : start c = (none, .word [c]) := by
  simp only [isDelimiter, Bool.or_eq_false_iff, beq_eq_false_iff_ne, Option.isSome_eq_false_iff,
    Option.isNone_iff_eq_none] at h
  simp [start, h.1.1, h.1.2, h.2]

theorem lexes_word {w : Text} {t : Token} (hne : w ≠ []) (hd : ∀ c ∈ w, isDelimiter c = false)
    (hw : word w = some t) : Lexes w [t] := by
  intro rest hr
  cases w with
  | nil => exact absurd rfl hne
  | cons c text =>
    have htext : ∀ d ∈ text, isDelimiter d = false := fun d hd' => hd d (List.mem_cons_of_mem c hd')
    rw [List.cons_append, lex, start_of_not_delimiter (hd c List.mem_cons_self), lex_word htext hr,
      List.singleton_append, hw]
    cases lex .between rest <;> rfl

theorem not_delimiter_of_all {w : Text} (h : (w.all fun c => !isDelimiter c) = true) :
    ∀ c ∈ w, isDelimiter c = false := by
  intro c hc
  simpa using List.all_eq_true.mp h c hc

theorem lexes_number (l : Literal) : Lexes l.1 [.number l] := by
  refine lexes_word ?_ (fun c hc => not_delimiter (isNumber_chars l.2 c hc)) (word_number l)
  intro he
  have hl := l.2
  rw [he] at hl
  cases hl

theorem lex_punctuation {c : Char} {t : Token} (hc : punctuation c = some t) (hs : isSpace c = false)
    (hq : c ≠ '"') (rest : Text) : lex .between (c :: rest) = (lex .between rest).map (t :: ·) := by
  simp [lex, start, hs, hq, hc]

/-! ### Strings -/

theorem not_surrogate (c : Char) : isHigh c.toNat = false ∧ isLow c.toNat = false := by
  have hv := c.valid
  have hn : c.toNat = c.val.toNat := rfl
  simp only [isHigh, isLow, Bool.and_eq_false_iff, decide_eq_false_iff_not]
  rcases hv with h | h
  · omega
  · omega

theorem decode_map (s : Text) : decode (s.map Char.toNat) = some s := by
  induction s with
  | nil => rfl
  | cons c s ih =>
    obtain ⟨hhigh, hlow⟩ := not_surrogate c
    cases s with
    | nil => simp [decode, hhigh, hlow]
    | cons d s =>
      simp only [List.map_cons] at ih ⊢
      simp [decode, hhigh, hlow, ih]

theorem hexValue_digitChar : ∀ n < 16, hexValue (Nat.digitChar n) = some n := by decide

theorem lex_quoteChar (us : List ℕ) (c : Char) (rest : Text) :
    lex (.string us) (quoteChar c ++ rest) = lex (.string (us ++ [c.toNat])) rest := by
  unfold quoteChar
  split_ifs with hquote hback h8 h12 h10 h13 h9 h32
  · subst hquote
    rfl
  · subst hback
    rfl
  · rw [h8]
    rfl
  · rw [h12]
    rfl
  · rw [h10]
    rfl
  · rw [h13]
    rfl
  · rw [h9]
    rfl
  · -- two zeros and the two digits of a control character
    have hhigh := hexValue_digitChar (c.toNat / 16) (by omega)
    have hlow := hexValue_digitChar (c.toNat % 16) (by omega)
    have hzero : hexValue '0' = some 0 := rfl
    have hvalue : 16 * (16 * (16 * (16 * 0 + 0) + 0) + c.toNat / 16) + c.toNat % 16 = c.toNat := by omega
    simp only [hexEscape, List.cons_append, List.nil_append, lex, hzero, hhigh, hlow, Option.bind_some,
      hvalue]
    rfl
  · rw [List.singleton_append, lex, if_neg hquote, if_neg hback, if_neg h32]

theorem lex_quoted (us : List ℕ) (s rest : Text) :
    lex (.string us) (s.flatMap quoteChar ++ rest) = lex (.string (us ++ s.map Char.toNat)) rest := by
  induction s generalizing us with
  | nil => simp
  | cons c s ih =>
    rw [List.flatMap_cons, List.append_assoc, lex_quoteChar, ih, List.append_assoc]
    rfl

theorem lex_quote (s rest : Text) :
    lex .between (quote s ++ rest) = (lex .between rest).map (.string s :: ·) := by
  have hstart : start '"' = (none, .string []) := rfl
  rw [quote, List.cons_append, lex, hstart, List.append_assoc, lex_quoted, List.nil_append,
    List.singleton_append, lex, if_pos rfl, decode_map]
  cases lex .between rest <;> rfl

/-! ### Values -/

theorem lexes_of_forall {text : Text} {ts : List Token}
    (h : ∀ rest, lex .between (text ++ rest) = (lex .between rest).map (ts ++ ·)) : Lexes text ts :=
  fun rest _ => h rest

theorem lexes_intercalate {pieces : List (Text × List Token)} (h : ∀ x ∈ pieces, Lexes x.1 x.2) :
    Lexes ([','].intercalate (pieces.map Prod.fst)) ([.comma].intercalate (pieces.map Prod.snd)) := by
  induction pieces with
  | nil =>
    intro rest _
    change lex .between rest = (lex .between rest).map ([] ++ ·)
    cases lex .between rest <;> rfl
  | cons x pieces ih =>
    have hx := h x List.mem_cons_self
    have hrest := ih fun y hy => h y (List.mem_cons_of_mem x hy)
    cases pieces with
    | nil => simpa using hx
    | cons y pieces =>
      simp only [List.map_cons, List.intercalate_cons_cons] at hrest ⊢
      intro rest hr
      have hcomma : Delimited (',' :: ([','].intercalate (y.1 :: pieces.map Prod.fst) ++ rest)) := by
        rintro c cs ⟨⟩
        rfl
      have hmark : punctuation ',' = some .comma := rfl
      rw [List.append_assoc, List.append_assoc, List.singleton_append, hx _ hcomma,
        lex_punctuation hmark rfl (by decide), hrest rest hr, Option.map_map, Option.map_map]
      congr 1
      funext ts
      simp

theorem lexes_enclosed {a b : Char} {t u : Token} {text : Text} {ts : List Token}
    (ha : punctuation a = some t) (hsa : isSpace a = false) (hqa : a ≠ '"')
    (hb : punctuation b = some u) (hsb : isSpace b = false) (hqb : b ≠ '"') (h : Lexes text ts) :
    Lexes (a :: (text ++ [b])) (t :: (ts ++ [u])) := by
  intro rest _
  have hend : Delimited (b :: rest) := by
    rintro c cs ⟨⟩
    simp [isDelimiter, hb]
  rw [List.cons_append, List.append_assoc, List.singleton_append, lex_punctuation ha hsa hqa, h _ hend,
    lex_punctuation hb hsb hqb, Option.map_map, Option.map_map]
  congr 1
  funext ts'
  simp

theorem lexes_member {key text : Text} {ts : List Token} (h : Lexes text ts) :
    Lexes (quote key ++ ':' :: text) (.string key :: .colon :: ts) := by
  intro rest hr
  have hmark : punctuation ':' = some .colon := rfl
  rw [List.append_assoc, lex_quote, List.cons_append, lex_punctuation hmark rfl (by decide), h rest hr,
    Option.map_map, Option.map_map]
  rfl

mutual

theorem lexes_render : ∀ v, Lexes (render v) (tokens v)
  | .null => lexes_word (List.cons_ne_nil _ _) (not_delimiter_of_all rfl) rfl
  | .boolean true => lexes_word (List.cons_ne_nil _ _) (not_delimiter_of_all rfl) rfl
  | .boolean false => lexes_word (List.cons_ne_nil _ _) (not_delimiter_of_all rfl) rfl
  | .number l => lexes_number l
  | .string s => lexes_of_forall (lex_quote s)
  | .array xs => by
    obtain ⟨pieces, htexts, htokens, h⟩ := lexes_renderItems xs
    rw [render, tokens, ← htexts, ← htokens]
    exact lexes_enclosed rfl rfl (by decide) rfl rfl (by decide) (lexes_intercalate h)
  | .object ms => by
    obtain ⟨pieces, htexts, htokens, h⟩ := lexes_renderMembers ms
    rw [render, tokens, ← htexts, ← htokens]
    exact lexes_enclosed rfl rfl (by decide) rfl rfl (by decide) (lexes_intercalate h)

theorem lexes_renderItems : ∀ xs : List Value, ∃ pieces : List (Text × List Token),
    pieces.map Prod.fst = renderItems xs ∧ pieces.map Prod.snd = itemTokens xs ∧
      ∀ x ∈ pieces, Lexes x.1 x.2
  | [] => ⟨[], rfl, rfl, fun _ hx => absurd hx List.not_mem_nil⟩
  | v :: vs => by
    obtain ⟨pieces, htexts, htokens, h⟩ := lexes_renderItems vs
    refine ⟨(render v, tokens v) :: pieces, ?_, ?_, ?_⟩
    · rw [List.map_cons, htexts, renderItems]
    · rw [List.map_cons, htokens, itemTokens]
    · intro x hx
      rcases List.mem_cons.mp hx with rfl | hx
      · exact lexes_render v
      · exact h x hx

theorem lexes_renderMembers : ∀ ms : List (Text × Value), ∃ pieces : List (Text × List Token),
    pieces.map Prod.fst = renderMembers ms ∧ pieces.map Prod.snd = memberTokens ms ∧
      ∀ x ∈ pieces, Lexes x.1 x.2
  | [] => ⟨[], rfl, rfl, fun _ hx => absurd hx List.not_mem_nil⟩
  | (key, v) :: ms => by
    obtain ⟨pieces, htexts, htokens, h⟩ := lexes_renderMembers ms
    refine ⟨(quote key ++ ':' :: render v, .string key :: .colon :: tokens v) :: pieces, ?_, ?_, ?_⟩
    · rw [List.map_cons, htexts, renderMembers]
    · rw [List.map_cons, htokens, memberTokens]
    · intro x hx
      rcases List.mem_cons.mp hx with rfl | hx
      · exact lexes_member (lexes_render v)
      · exact h x hx

end

/-! ### Parsing the tokens -/

theorem tokens_head (v : Value) : ∃ t ts, tokens v = t :: ts ∧ t ≠ .closeArray := by
  cases v <;> exact ⟨_, _, rfl, by simp⟩

theorem itemTokens_head (v : Value) (vs : List Value) : ∃ t ts,
    [Token.comma].intercalate (itemTokens (v :: vs)) = t :: ts ∧ t ≠ .closeArray := by
  obtain ⟨t, ts, ht, hne⟩ := tokens_head v
  cases vs with
  | nil => exact ⟨t, ts, by simp [itemTokens, ht], hne⟩
  | cons w vs =>
    refine ⟨t, ts ++ ([.comma] ++ [Token.comma].intercalate (itemTokens (w :: vs))), ?_, hne⟩
    simp [itemTokens, ht]

theorem memberTokens_head (key : Text) (v : Value) (ms : List (Text × Value)) : ∃ ts,
    [Token.comma].intercalate (memberTokens ((key, v) :: ms)) = .string key :: ts := by
  cases ms with
  | nil => exact ⟨_, List.intercalate_singleton⟩
  | cons m ms => exact ⟨_, List.intercalate_cons_cons⟩

mutual

theorem value_tokens : ∀ (v : Value) (fuel : ℕ) (rest : List Token), (tokens v).length ≤ fuel →
    value fuel (tokens v ++ rest) = some (v, rest)
  | .null, fuel + 1, rest, _ => rfl
  | .boolean b, fuel + 1, rest, _ => rfl
  | .number l, fuel + 1, rest, _ => rfl
  | .string s, fuel + 1, rest, _ => rfl
  | .array [], fuel + 1, rest, _ => rfl
  | .object [], fuel + 1, rest, _ => rfl
  | .array (v :: vs), fuel + 1, rest, h => by
    obtain ⟨t, ts, ht, hclose⟩ := itemTokens_head v vs
    have hlength : ([Token.comma].intercalate (itemTokens (v :: vs))).length + 1 ≤ fuel := by
      simp only [tokens, List.length_cons, List.length_append, List.length_nil] at h
      omega
    have hitems := items_tokens v vs fuel rest hlength
    rw [ht, List.cons_append] at hitems
    rw [tokens, ht, List.cons_append, List.append_assoc, List.cons_append, List.singleton_append, value,
      hitems]
    · rfl
    · exact fun ts' h' => hclose (List.cons.inj h').1
  | .object ((key, v) :: ms), fuel + 1, rest, h => by
    obtain ⟨ts, ht⟩ := memberTokens_head key v ms
    have hlength : ([Token.comma].intercalate (memberTokens ((key, v) :: ms))).length + 1 ≤ fuel := by
      simp only [tokens, List.length_cons, List.length_append, List.length_nil] at h
      omega
    have hmembers := members_tokens key v ms fuel rest hlength
    rw [ht, List.cons_append] at hmembers
    rw [tokens, ht, List.cons_append, List.append_assoc, List.cons_append, List.singleton_append, value,
      hmembers]
    · rfl
    · exact fun ts' h' => by simp at h'
  | .null, 0, _, h => absurd h (by simp [tokens])
  | .boolean b, 0, _, h => absurd h (by simp [tokens])
  | .number l, 0, _, h => absurd h (by simp [tokens])
  | .string s, 0, _, h => absurd h (by simp [tokens])
  | .array xs, 0, _, h => absurd h (by simp [tokens])
  | .object ms, 0, _, h => absurd h (by simp [tokens])

theorem items_tokens : ∀ (v : Value) (vs : List Value) (fuel : ℕ) (rest : List Token),
    ([Token.comma].intercalate (itemTokens (v :: vs))).length + 1 ≤ fuel →
    items fuel ([Token.comma].intercalate (itemTokens (v :: vs)) ++ .closeArray :: rest) = some (v :: vs, rest)
  | v, vs, 0, rest, h => absurd h (by omega)
  | v, [], fuel + 1, rest, h => by
    simp only [itemTokens, List.intercalate_singleton] at h ⊢
    rw [items, value_tokens v fuel _ (by omega)]
  | v, w :: vs, fuel + 1, rest, h => by
    have hrest := items_tokens w vs fuel rest
    simp only [itemTokens, List.intercalate_cons_cons, List.length_append, List.length_singleton] at h hrest ⊢
    rw [items, List.append_assoc, List.append_assoc, value_tokens v fuel _ (by omega), List.singleton_append]
    simp only [hrest (by omega), Option.map_some]

theorem members_tokens : ∀ (key : Text) (v : Value) (ms : List (Text × Value)) (fuel : ℕ)
    (rest : List Token), ([Token.comma].intercalate (memberTokens ((key, v) :: ms))).length + 1 ≤ fuel →
    members fuel ([Token.comma].intercalate (memberTokens ((key, v) :: ms)) ++ .closeObject :: rest) =
      some ((key, v) :: ms, rest)
  | key, v, ms, 0, rest, h => absurd h (by omega)
  | key, v, [], fuel + 1, rest, h => by
    simp only [memberTokens, List.intercalate_singleton, List.length_cons] at h ⊢
    rw [List.cons_append, List.cons_append, members, value_tokens v fuel _ (by omega)]
  | key, v, (key', w) :: ms, fuel + 1, rest, h => by
    have hrest := members_tokens key' w ms fuel rest
    simp only [memberTokens, List.intercalate_cons_cons, List.length_append, List.length_cons,
      List.length_nil] at h hrest ⊢
    rw [List.append_assoc, List.append_assoc, List.cons_append, List.cons_append, members,
      value_tokens v fuel _ (by omega), List.singleton_append]
    simp only [hrest (by omega), Option.map_some]

end

theorem parse_render (v : Value) : parse (render v) = some v := by
  have hlex : lex .between (render v) = some (tokens v) := by
    have h := lexes_render v [] fun c cs he => by cases he
    simpa [lex] using h
  have hvalue := value_tokens v (tokens v).length [] (Nat.le_refl _)
  rw [List.append_nil] at hvalue
  simp only [parse, hlex, Option.bind_some, hvalue]

end JsonText
