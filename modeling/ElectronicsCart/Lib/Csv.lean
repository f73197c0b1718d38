import Mathlib.Algebra.GroupWithZero.Nat
import Mathlib.Data.List.Basic

/-!
# Comma-separated values

A reader of RFC 4180: records end with LF or CRLF, a quoted field may hold anything, and any other
field is made of characters other than the comma, the quote, CR and LF.  A writer puts a field down
as it is or in quotes, and the reader tells exactly when that was enough.
-/

namespace Csv

abbrev Field := List Char

/-- Where the reader stands: before a record or a field, inside one, after the quote that may close
one, or after a CR. -/
inductive Mode where
  | line | start | text | quoted | closed | cr
deriving DecidableEq

/-! ### The reader -/

/-- Of the records that are read from here on, the first field of the first one goes on before. -/
def prepend (x : Field) : List (List Field) → List (List Field)
  | (f :: fs) :: rs => ((x ++ f) :: fs) :: rs
  | rs => rs

def nextField : List (List Field) → List (List Field)
  | r :: rs => ([] :: r) :: rs
  | [] => []

def nextRecord (rs : List (List Field)) : List (List Field) := [[]] :: rs

def read : Mode → List Char → Option (List (List Field))
  | .line, [] => some []
  | .quoted, [] => none
  | .cr, [] => none
  | _, [] => some [[[]]]
  | .quoted, c :: cs =>
    if c = '"' then read .closed cs else (read .quoted cs).map (prepend [c])
  | .cr, c :: cs => if c = '\n' then (read .line cs).map nextRecord else none
  | m, c :: cs =>
    if c = ',' then (read .start cs).map nextField
    else if c = '\n' then (read .line cs).map nextRecord
    else if c = '\r' then read .cr cs
    else if c = '"' then
      match m with
      | .text => none
      | .closed => (read .quoted cs).map (prepend ['"'])
      | _ => read .quoted cs
    else if m = .closed then none
    else (read .text cs).map (prepend [c])

section Reader

variable {m : Mode} {c : Char} {cs : List Char}

theorem read_quoted : read .quoted (c :: cs) =
    if c = '"' then read .closed cs else (read .quoted cs).map (prepend [c]) := rfl

theorem read_cr :
    read .cr (c :: cs) = if c = '\n' then (read .line cs).map nextRecord else none := rfl

theorem read_other (hm : m ≠ .quoted ∧ m ≠ .cr) (hcomma : c ≠ ',') (hbreak : c ≠ '\n')
    (hcr : c ≠ '\r') (hquote : c ≠ '"') : read m (c :: cs) =
      if m = .closed then none else (read .text cs).map (prepend [c]) := by
  have hrest : read m (c :: cs) = if c = ',' then (read .start cs).map nextField
      else if c = '\n' then (read .line cs).map nextRecord
      else if c = '\r' then read .cr cs
      else if c = '"' then read m ('"' :: cs)
      else if m = .closed then none
      else (read .text cs).map (prepend [c]) := by
    cases m <;> first | exact absurd rfl hm.1 | exact absurd rfl hm.2 | rfl
  rw [hrest, if_neg hcomma, if_neg hbreak, if_neg hcr, if_neg hquote]

end Reader

/-- The last record may end with the document or with a line break. -/
def parse (cs : List Char) : Option (List (List Field)) := read .line cs

/-! ### The writer -/

def special (c : Char) : Bool := c == ',' || c == '"' || c == '\r' || c == '\n'

def Plain (x : Field) : Prop := ∀ c ∈ x, special c = false

instance (x : Field) : Decidable (Plain x) := inferInstanceAs (Decidable (∀ c ∈ x, _))

def double : Field → Field
  | [] => []
  | c :: cs => if c = '"' then '"' :: '"' :: double cs else c :: double cs

def quote (x : Field) : Field := '"' :: double x ++ ['"']

structure Cell where
  content : Field
  raw : Field
  written : raw = content ∨ raw = quote content

def Cell.Clean (c : Cell) : Prop := Plain c.content ∨ c.raw = quote c.content

def line (r : List Cell) : List Char := [','].intercalate (r.map Cell.raw)

def document (t : List (List Cell)) : List Char := ['\n'].intercalate (t.map line)

/-! ### Reading one field -/

theorem prepend_nil : prepend [] = id := by
  funext rs
  match rs with
  | [] => rfl
  | [] :: rs => rfl
  | (f :: fs) :: rs => rfl

theorem prepend_append (x y : Field) (rs : List (List Field)) :
    prepend x (prepend y rs) = prepend (x ++ y) rs := by
  match rs with
  | [] => rfl
  | [] :: rs => rfl
  | (f :: fs) :: rs => simp [prepend]

/-- What the reader makes of the character after a field. -/
def ended (sep : Char) (rest : List Char) : Option (List (List Field)) :=
  if sep = ',' then (read .start rest).map nextField else (read .line rest).map nextRecord

def Separates (sep : Char) : Prop := sep = ',' ∨ sep = '\n'

def Mode.begins (m : Mode) : Prop := m = .line ∨ m = .start

section Fields

variable {m : Mode} {x y : Field} {c sep : Char} {rest cs : List Char} {fs : List Field}
  {rs : List (List Field)}

theorem special_iff : special c = true ↔ c = ',' ∨ c = '"' ∨ c = '\r' ∨ c = '\n' := by
  simp only [special, Bool.or_eq_true, beq_iff_eq, or_assoc]

theorem read_separator (hm : m ≠ .quoted) (hcr : m ≠ .cr) (hsep : Separates sep) :
    read m (sep :: rest) = ended sep rest := by
  rcases hsep with rfl | rfl <;> cases m <;> first | exact absurd rfl hm | exact absurd rfl hcr | rfl

theorem read_ordinary (hm : m = .text ∨ m.begins) (hc : special c = false) :
    read m (c :: cs) = (read .text cs).map (prepend [c]) := by
  have hnot : ¬ special c = true := by simp [hc]
  rw [special_iff] at hnot
  simp only [not_or] at hnot
  obtain ⟨h1, h2, h3, h4⟩ := hnot
  have hmode : (m ≠ .quoted ∧ m ≠ .cr) ∧ m ≠ .closed := by rcases hm with rfl | rfl | rfl <;> simp
  rw [read_other hmode.1 h1 h4 h3 h2, if_neg hmode.2]

theorem read_text (hx : Plain x) :
    read .text (x ++ rest) = (read .text rest).map (prepend x) := by
  induction x with
  | nil =>
    rw [prepend_nil, Option.map_id]
    rfl
  | cons c x ih =>
    obtain ⟨hc, hx⟩ := List.forall_mem_cons.mp hx
    rw [List.cons_append, read_ordinary (.inl rfl) hc, ih hx, Option.map_map]
    congr 1
    funext rs
    exact prepend_append [c] x rs

theorem read_of_plain (hm : m.begins) (hx : Plain x) (hsep : Separates sep) :
    read m (x ++ sep :: rest) = (ended sep rest).map (prepend x) := by
  have hne : m ≠ .quoted ∧ m ≠ .cr := by rcases hm with rfl | rfl <;> simp
  cases x with
  | nil => rw [List.nil_append, read_separator hne.1 hne.2 hsep, prepend_nil, Option.map_id, id]
  | cons c x =>
    have hfirst : read m (c :: (x ++ sep :: rest)) = read .text (c :: (x ++ sep :: rest)) := by
      have hc := (List.forall_mem_cons.mp hx).1
      rw [read_ordinary (.inr hm) hc, read_ordinary (.inl rfl) hc]
    rw [List.cons_append, hfirst, ← List.cons_append, read_text hx,
      read_separator (by simp) (by simp) hsep]

theorem read_start (hx : Plain x) : read .start x = some [[x]] := by
  have htext : read .text x = some [[x]] := by
    have h : read .text (x ++ []) = (read .text []).map (prepend x) := read_text hx
    have hend : (read .text []).map (prepend x) = some [[x ++ []]] := rfl
    rwa [hend, List.append_nil] at h
  cases x with
  | nil => rfl
  | cons c x =>
    have hc := (List.forall_mem_cons.mp hx).1
    rw [read_ordinary (.inr (.inr rfl)) hc, ← read_ordinary (.inl rfl) hc, htext]

theorem read_double :
    read .quoted (double x ++ '"' :: rest) = (read .closed rest).map (prepend x) := by
  induction x with
  | nil =>
    rw [prepend_nil, Option.map_id]
    rfl
  | cons c x ih =>
    have hpush : ∀ o : Option (List (List Field)),
        (o.map (prepend x)).map (prepend [c]) = o.map (prepend (c :: x)) := by
      intro o
      rw [Option.map_map]
      congr 1
      funext rs
      exact prepend_append [c] x rs
    by_cases hc : c = '"'
    · subst hc
      have hpair : read .quoted (double ('"' :: x) ++ '"' :: rest) =
          (read .quoted (double x ++ '"' :: rest)).map (prepend ['"']) := rfl
      rw [hpair, ih]
      exact hpush _
    · have hdouble : double (c :: x) = c :: double x := if_neg hc
      rw [hdouble, List.cons_append, read_quoted, if_neg hc, ih]
      exact hpush _

theorem read_begins_quote (hm : m.begins) : read m ('"' :: rest) = read .quoted rest := by
  rcases hm with rfl | rfl <;> rfl

theorem read_cell (hm : m.begins) (hsep : Separates sep) {c : Cell} (hc : c.Clean) :
    read m (c.raw ++ sep :: rest) = (ended sep rest).map (prepend c.content) := by
  have hquoted : c.raw = quote c.content →
      read m (c.raw ++ sep :: rest) = (ended sep rest).map (prepend c.content) := by
    intro hraw
    have happ : c.raw ++ sep :: rest = '"' :: (double c.content ++ '"' :: sep :: rest) := by
      simp [hraw, quote]
    rw [happ, read_begins_quote hm, read_double, read_separator (by simp) (by simp) hsep]
  rcases c.written with hraw | hraw
  · rcases hc with hplain | hquote
    · rw [hraw, read_of_plain hm hplain hsep]
    · exact hquoted hquote
  · exact hquoted hraw

theorem read_last {c : Cell} (hc : c.Clean) : read .start c.raw = some [[c.content]] := by
  have hquoted : c.raw = quote c.content → read .start c.raw = some [[c.content]] := by
    intro hraw
    have happ : c.raw = '"' :: (double c.content ++ '"' :: []) := by simp [hraw, quote]
    have hend : (read .closed []).map (prepend c.content) = some [[c.content ++ []]] := rfl
    rw [happ, read_begins_quote (.inr rfl), read_double, hend, List.append_nil]
  rcases c.written with hraw | hraw
  · rcases hc with hplain | hquote
    · rw [hraw, read_start hplain]
    · exact hquoted hquote
  · exact hquoted hraw

theorem prepend_eq_some {o : Option (List (List Field))}
    (h : o.map (prepend y) = some ((x :: fs) :: rs)) :
    ∃ z, x = y ++ z ∧ o = some ((z :: fs) :: rs) := by
  obtain ⟨a, rfl, ha⟩ := Option.map_eq_some_iff.mp h
  match a, ha with
  | [], ha => cases ha
  | [] :: rs, ha => cases ha
  | (z :: fs) :: rs, ha =>
    cases ha
    exact ⟨z, rfl, rfl⟩

theorem ended_first (h : ended sep rest = some ((x :: fs) :: rs)) : x = [] := by
  unfold ended at h
  split at h
  · obtain ⟨a, -, ha⟩ := Option.map_eq_some_iff.mp h
    match a, ha with
    | [], ha => cases ha
    | r :: rs, ha =>
      cases ha
      rfl
  · obtain ⟨a, -, ha⟩ := Option.map_eq_some_iff.mp h
    cases ha
    rfl

theorem cr_first (h : read .cr cs = some ((x :: fs) :: rs)) : x = [] := by
  cases cs with
  | nil => cases h
  | cons d ds =>
    rw [read_cr] at h
    split at h
    · obtain ⟨a, -, ha⟩ := Option.map_eq_some_iff.mp h
      cases ha
      rfl
    · cases h

theorem plain_of_text (h : read .text (x ++ rest) = some ((x :: fs) :: rs)) : Plain x := by
  induction x with
  | nil => simp [Plain]
  | cons c x ih =>
    have hc : special c = false := by
      by_contra hspecial
      rcases special_iff.mp (by simpa using hspecial) with rfl | rfl | rfl | rfl
      · have hend : ended ',' (x ++ rest) = some (((',' :: x) :: fs) :: rs) := h
        exact absurd (ended_first hend) (by simp)
      · cases h
      · exact absurd (cr_first h) (by simp)
      · have hend : ended '\n' (x ++ rest) = some ((('\n' :: x) :: fs) :: rs) := h
        exact absurd (ended_first hend) (by simp)
    rw [List.cons_append, read_ordinary (.inl rfl) hc] at h
    obtain ⟨y, hy, h⟩ := prepend_eq_some h
    obtain rfl := (List.cons.inj hy).2
    exact List.forall_mem_cons.mpr ⟨hc, ih h⟩

def quotes (x : Field) : ℕ := (x.takeWhile (· == '"')).length

theorem quotes_le : ∀ {cs : List Char} {x : Field} {fs : List Field} {rs : List (List Field)},
    read .quoted cs = some ((x :: fs) :: rs) → 2 * quotes x ≤ quotes cs
  | [], _, _, _, h => nomatch h
  | c :: cs, x, fs, rs, h => by
    by_cases hc : c = '"'
    · subst hc
      have hclosed : read .closed cs = some ((x :: fs) :: rs) := h
      match cs, hclosed with
      | [], hclosed =>
        cases hclosed
        exact Nat.zero_le _
      | d :: ds, hclosed =>
        by_cases hd : d = '"'
        · subst hd
          obtain ⟨y, rfl, hy⟩ := prepend_eq_some (o := read .quoted ds) hclosed
          have hle := quotes_le hy
          simp only [quotes, List.singleton_append, List.takeWhile_cons, beq_self_eq_true, if_true,
            List.length_cons]
          simp only [quotes] at hle
          omega
        · have hx : x = [] := by
            by_cases hsep : Separates d
            · rw [read_separator (by simp) (by simp) hsep] at hclosed
              exact ended_first hclosed
            · have hne : d ≠ ',' ∧ d ≠ '\n' := not_or.mp hsep
              by_cases hcr : d = '\r'
              · subst hcr
                exact cr_first hclosed
              · rw [read_other (by simp) hne.1 hne.2 hcr hd, if_pos rfl] at hclosed
                cases hclosed
          subst hx
          exact Nat.zero_le _
    · have hopen : (read .quoted cs).map (prepend [c]) = some ((x :: fs) :: rs) := by
        rwa [read_quoted, if_neg hc] at h
      obtain ⟨y, rfl, -⟩ := prepend_eq_some hopen
      have hzero : quotes ([c] ++ y) = 0 := by simp [quotes, hc]
      omega

def Follows (rest : List Char) : Prop := ∀ c ∈ rest.head?, Separates c

theorem quotes_append (hrest : Follows rest) : quotes (x ++ rest) = quotes x := by
  induction x with
  | nil =>
    cases rest with
    | nil => rfl
    | cons c cs =>
      have hc : c ≠ '"' := by
        rcases hrest c rfl with rfl | rfl <;> decide
      simp [quotes, hc]
  | cons c x ih =>
    simp only [quotes] at ih
    by_cases hc : c = '"' <;> simp [quotes, hc, ih]

theorem plain_of_read (hm : m.begins) (hrest : Follows rest)
    (h : read m (x ++ rest) = some ((x :: fs) :: rs)) : Plain x := by
  cases x with
  | nil => simp [Plain]
  | cons c x =>
    by_cases hc : c = '"'
    · -- the field would have to start with more quotes than the text that it was read from
      subst hc
      rw [List.cons_append, read_begins_quote hm] at h
      have hle := quotes_le h
      rw [quotes_append hrest] at hle
      simp only [quotes, List.takeWhile_cons, beq_self_eq_true, if_true, List.length_cons] at hle
      omega
    · have hfirst : read m (c :: (x ++ rest)) = read .text (c :: (x ++ rest)) := by
        by_cases hspecial : special c = true
        · rcases special_iff.mp hspecial with rfl | rfl | rfl | rfl
          · rcases hm with rfl | rfl <;> rfl
          · exact absurd rfl hc
          · rcases hm with rfl | rfl <;> rfl
          · rcases hm with rfl | rfl <;> rfl
        · have hord : special c = false := by simpa using hspecial
          rw [read_ordinary (.inr hm) hord, read_ordinary (.inl rfl) hord]
      rw [List.cons_append, hfirst, ← List.cons_append] at h
      exact plain_of_text h

end Fields

/-! ### Reading a document -/

section Documents

variable {m : Mode} {sep : Char} {rest : List Char} {fs : List Field} {rs : List (List Field)}
  {c d : Cell} {r : List Cell}

theorem read_cell_iff (hm : m.begins) (hsep : Separates sep) :
    read m (c.raw ++ sep :: rest) = some ((c.content :: fs) :: rs) ↔
      c.Clean ∧ ended sep rest = some (([] :: fs) :: rs) := by
  constructor
  · intro h
    have hclean : c.Clean := by
      rcases c.written with hraw | hraw
      · rw [hraw] at h
        refine .inl (plain_of_read hm ?_ h)
        rintro _ ⟨⟩
        exact hsep
      · exact .inr hraw
    rw [read_cell hm hsep hclean] at h
    obtain ⟨z, hz, h⟩ := prepend_eq_some h
    obtain rfl : z = [] := by simpa using hz
    exact ⟨hclean, h⟩
  · rintro ⟨hclean, h⟩
    rw [read_cell hm hsep hclean, h]
    simp [prepend]

theorem ended_comma :
    ended ',' rest = some (([] :: fs) :: rs) ↔ read .start rest = some (fs :: rs) := by
  rw [ended, if_pos rfl, Option.map_eq_some_iff]
  constructor
  · rintro ⟨a, ha, hnext⟩
    match a, hnext with
    | r :: rs, hnext =>
      cases hnext
      exact ha
  · intro h
    exact ⟨_, h, rfl⟩

theorem ended_break :
    ended '\n' rest = some (([] :: fs) :: rs) ↔ fs = [] ∧ read .line rest = some rs := by
  rw [ended, if_neg (by decide), Option.map_eq_some_iff]
  constructor
  · rintro ⟨a, ha, hnext⟩
    cases hnext
    exact ⟨rfl, ha⟩
  · rintro ⟨rfl, h⟩
    exact ⟨_, h, rfl⟩

theorem line_cons : line (c :: d :: r) = c.raw ++ ',' :: line (d :: r) := by
  simp [line, List.intercalate]

theorem line_single : line [c] = c.raw := by simp [line, List.intercalate]

theorem clean_cons : (∀ a ∈ c :: r, a.Clean) ↔ c.Clean ∧ ∀ a ∈ r, a.Clean := List.forall_mem_cons

theorem read_record_iff (hm : m.begins) (hr : r ≠ []) :
    read m (line r ++ '\n' :: rest) = some (r.map Cell.content :: rs) ↔
      (∀ c ∈ r, c.Clean) ∧ read .line rest = some rs := by
  induction r generalizing m with
  | nil => exact absurd rfl hr
  | cons c r ih =>
    rw [List.map_cons, clean_cons]
    cases r with
    | nil => rw [line_single, read_cell_iff hm (.inr rfl), ended_break]; simp
    | cons d r =>
      rw [line_cons, List.append_assoc, List.cons_append, read_cell_iff hm (.inl rfl), ended_comma,
        ih (.inr rfl) (by simp), and_assoc]

theorem read_end_iff (hm : m.begins) (hr : r ≠ []) (hlen : m = .line → 2 ≤ r.length) :
    read m (line r) = some [r.map Cell.content] ↔ ∀ c ∈ r, c.Clean := by
  induction r generalizing m with
  | nil => exact absurd rfl hr
  | cons c r ih =>
    rw [List.map_cons, clean_cons]
    cases r with
    | nil =>
      obtain rfl : m = .start := by
        rcases hm with rfl | rfl
        · exact absurd (hlen rfl) (by simp)
        · rfl
      rw [line_single]
      constructor
      · intro h
        refine ⟨?_, by simp⟩
        rcases c.written with hraw | hraw
        · have hnone : Follows [] := by simp [Follows]
          rw [hraw, ← List.append_nil c.content] at h
          exact .inl (plain_of_read (.inr rfl) hnone (by simpa using h))
        · exact .inr hraw
      · rintro ⟨hc, -⟩
        exact read_last hc
    | cons d r =>
      rw [line_cons, read_cell_iff hm (.inl rfl), ended_comma,
        ih (.inr rfl) (by simp) (by simp)]

theorem document_cons {r r' : List Cell} {t : List (List Cell)} :
    document (r :: r' :: t) = line r ++ '\n' :: document (r' :: t) := by
  simp [document, List.intercalate]

theorem document_single : document [r] = line r := by simp [document, List.intercalate]

theorem parse_document_iff {t : List (List Cell)} (ht : t ≠ []) (hlen : ∀ r ∈ t, 2 ≤ r.length) :
    parse (document t) = some (t.map fun r => r.map Cell.content) ↔ ∀ r ∈ t, ∀ c ∈ r, c.Clean := by
  unfold parse
  induction t with
  | nil => exact absurd rfl ht
  | cons r t ih =>
    obtain ⟨hr, hlen⟩ := List.forall_mem_cons.mp hlen
    have hne : r ≠ [] := by
      rintro rfl
      simp at hr
    rw [List.forall_mem_cons, List.map_cons]
    cases t with
    | nil => rw [document_single, List.map_nil, read_end_iff (.inl rfl) hne fun _ => hr]; simp
    | cons r' t => rw [document_cons, read_record_iff (.inl rfl) hne, ih (by simp) hlen]

end Documents

/-! ### Counting characters -/

def occurs (c : Char) (rs : List (List Field)) : ℕ := (rs.map fun r => (r.map (List.count c)).sum).sum

def Headed (rs : List (List Field)) : Prop := ∃ f fs rs', rs = (f :: fs) :: rs'

section Counts

variable {m : Mode} {c d : Char} {cs : List Char} {rs : List (List Field)}

theorem read_cases (h : read m (d :: cs) = some rs) :
    special d = true ∧ ((∃ m', m' ≠ .line ∧ read m' cs = some rs) ∨
      (∃ rs', read .start cs = some rs' ∧ nextField rs' = rs) ∨
      ∃ rs', read .line cs = some rs' ∧ nextRecord rs' = rs) ∨
    ∃ m' rs', m' ≠ .line ∧ read m' cs = some rs' ∧ prepend [d] rs' = rs := by
  by_cases hquoted : m = .quoted
  · subst hquoted
    rw [read_quoted] at h
    split at h
    next hd => exact .inl ⟨special_iff.mpr (.inr (.inl hd)), .inl ⟨.closed, by simp, h⟩⟩
    next =>
      obtain ⟨rs', hread, hrs⟩ := Option.map_eq_some_iff.mp h
      exact .inr ⟨.quoted, rs', by simp, hread, hrs⟩
  by_cases hcr : m = .cr
  · subst hcr
    rw [read_cr] at h
    split at h
    next hd => exact .inl ⟨special_iff.mpr (by simp [hd]), .inr (.inr (Option.map_eq_some_iff.mp h))⟩
    next => cases h
  by_cases hspecial : special d = true
  · rcases special_iff.mp hspecial with rfl | rfl | rfl | rfl
    · rw [read_separator hquoted hcr (.inl rfl), ended, if_pos rfl] at h
      exact .inl ⟨hspecial, .inr (.inl (Option.map_eq_some_iff.mp h))⟩
    · cases m with
      | line => exact .inl ⟨hspecial, .inl ⟨.quoted, by simp, h⟩⟩
      | start => exact .inl ⟨hspecial, .inl ⟨.quoted, by simp, h⟩⟩
      | text => cases h
      | quoted => exact absurd rfl hquoted
      | closed =>
        obtain ⟨rs', hread, hrs⟩ := Option.map_eq_some_iff.mp h
        exact .inr ⟨.quoted, rs', by simp, hread, hrs⟩
      | cr => exact absurd rfl hcr
    · refine .inl ⟨hspecial, .inl ⟨.cr, by simp, ?_⟩⟩
      cases m <;> first | exact absurd rfl hquoted | exact absurd rfl hcr | exact h
    · rw [read_separator hquoted hcr (.inr rfl), ended, if_neg (by decide)] at h
      exact .inl ⟨hspecial, .inr (.inr (Option.map_eq_some_iff.mp h))⟩
  · simp only [special_iff, not_or] at hspecial
    obtain ⟨h1, h2, h3, h4⟩ := hspecial
    rw [read_other ⟨hquoted, hcr⟩ h1 h4 h3 h2] at h
    split at h
    next => cases h
    next =>
      obtain ⟨rs', hread, hrs⟩ := Option.map_eq_some_iff.mp h
      exact .inr ⟨.text, rs', by simp, hread, hrs⟩

theorem headed_read (hm : m ≠ .line) (h : read m cs = some rs) : Headed rs := by
  induction cs generalizing m rs with
  | nil => cases m <;> first | exact absurd rfl hm | (cases h; exact ⟨[], [], [], rfl⟩) | cases h
  | cons d cs ih =>
    rcases read_cases h with
      ⟨-, ⟨m', hm', hrest⟩ | ⟨rs', hrest, rfl⟩ | ⟨rs', -, rfl⟩⟩ | ⟨m', rs', hm', hrest, rfl⟩
    · exact ih hm' hrest
    · obtain ⟨f, fs, rs, rfl⟩ := ih (by simp : Mode.start ≠ .line) hrest
      exact ⟨[], f :: fs, rs, rfl⟩
    · exact ⟨[], [], rs', rfl⟩
    · obtain ⟨f, fs, rs, rfl⟩ := ih hm' hrest
      exact ⟨[d] ++ f, fs, rs, rfl⟩

/-- The reader drops no ordinary character. -/
theorem count_read (hc : special c = false) (h : read m cs = some rs) : cs.count c = occurs c rs := by
  induction cs generalizing m rs with
  | nil => cases m <;> first | (cases h; rfl) | cases h
  | cons d cs ih =>
    rcases read_cases h with ⟨hd, hcases⟩ | ⟨m', rs', hm', hrest, rfl⟩
    · have hne : d ≠ c := by
        rintro rfl
        rw [hc] at hd
        cases hd
      rw [List.count_cons_of_ne hne]
      rcases hcases with ⟨m', -, hrest⟩ | ⟨rs', hrest, rfl⟩ | ⟨rs', hrest, rfl⟩
      · exact ih hrest
      · obtain ⟨f, fs, rs, rfl⟩ := headed_read (by simp : Mode.start ≠ .line) hrest
        rw [ih hrest]
        simp [occurs, nextField]
      · rw [ih hrest]
        simp [occurs, nextRecord]
    · obtain ⟨f, fs, rs, rfl⟩ := headed_read hm' hrest
      rw [List.count_cons, ih hrest]
      simp only [occurs, prepend, List.map_cons, List.sum_cons, List.singleton_append, List.count_cons]
      omega

theorem count_double (hc : special c = false) (x : Field) : (double x).count c = x.count c := by
  have hquote : '"' ≠ c := by
    rintro rfl
    cases hc
  induction x with
  | nil => rfl
  | cons d x ih =>
    rw [double]
    split
    next hd => rw [hd, List.count_cons_of_ne hquote, List.count_cons_of_ne hquote,
        List.count_cons_of_ne hquote, ih]
    next => rw [List.count_cons, List.count_cons, ih]

theorem count_raw (hc : special c = false) (a : Cell) : a.raw.count c = a.content.count c := by
  have hquote : '"' ≠ c := by
    rintro rfl
    cases hc
  rcases a.written with hraw | hraw
  · rw [hraw]
  · rw [hraw, quote, List.cons_append, List.count_cons_of_ne hquote, List.count_append, count_double hc,
      List.count_singleton, if_neg (by simpa using hquote), Nat.add_zero]

theorem count_intercalate {sep : Char} (hne : sep ≠ c) (l : List Field) :
    ([sep].intercalate l).count c = (l.map (List.count c)).sum := by
  induction l with
  | nil => rfl
  | cons x l ih =>
    cases l with
    | nil => simp [List.intercalate]
    | cons y l =>
      simp only [List.intercalate, List.intersperse_cons_cons, List.flatten_cons, List.count_append] at ih ⊢
      rw [ih]
      simp [hne]

theorem count_document (hc : special c = false) (t : List (List Cell)) :
    (document t).count c = occurs c (t.map fun r => r.map Cell.content) := by
  have hcomma : ',' ≠ c := by
    rintro rfl
    cases hc
  have hbreak : '\n' ≠ c := by
    rintro rfl
    cases hc
  have hline : ∀ r : List Cell, (line r).count c = (r.map fun a => a.content.count c).sum := by
    intro r
    rw [line, count_intercalate hcomma, List.map_map]
    exact congrArg _ (List.map_congr_left fun a _ => count_raw hc a)
  rw [document, count_intercalate hbreak, List.map_map, occurs, List.map_map]
  refine congrArg _ (List.map_congr_left fun r _ => ?_)
  rw [Function.comp_apply, hline, Function.comp_apply, List.map_map]
  rfl

end Counts

end Csv
