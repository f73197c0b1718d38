import ElectronicsCart.Analytics.Export
import ElectronicsCart.Lib.Xml

/-!
# Spreadsheets of reports

`rowsToXlsxXml` of `modules/analytics/utils/export.util.ts` writes every cell as a string into one
element.  Read as XML, the document gives back the header and the cells.
-/

namespace ElectronicsCart.Analytics

/-! ### `rowsToXlsxXml` -/

/-- `s.replace(/c/g, text)` -/
def replaceAll (c : Char) (text s : Text) : Text := s.flatMap fun d => if d = c then text else [d]

def escapeXml (s : Text) : Text :=
  replaceAll '"' "&quot;".toList (replaceAll '>' "&gt;".toList
    (replaceAll '<' "&lt;".toList (replaceAll '&' "&amp;".toList s)))

def cellOpen : Text := "<Cell><Data ss:Type=\"String\">".toList

def cellClose : Text := "</Data></Cell>".toList

def cell (v : Value) : Text := cellOpen ++ escapeXml v.text ++ cellClose

def rowOpen : Text := "<Row>".toList

def rowClose : Text := "</Row>".toList

def workbookOpen : Text :=
  "<?xml version=\"1.0\"?>\n".toList ++
  "<?mso-application progid=\"Excel.Sheet\"?>\n".toList ++
  "<Workbook xmlns=".toList ++ "\"urn:schemas-microsoft-com:office:spreadsheet\"\n".toList ++
  " xmlns:ss=".toList ++ "\"urn:schemas-microsoft-com:office:spreadsheet\">\n".toList ++
  "<Worksheet ss:Name=\"Report\"><Table>".toList

def workbookClose : Text := "</Table></Worksheet>\n</Workbook>".toList

def sheetKeys (rows : List Row) : List Text := if rows = [] then ["value".toList] else keysOf rows

def rowsToXlsxXml (rows : List Row) : Text :=
  workbookOpen ++ (rowOpen ++ (sheetKeys rows).flatMap (fun k => cell (.string k)) ++ rowClose) ++
    rows.flatMap (fun r => rowOpen ++ (sheetKeys rows).flatMap (fun k => cell (r.get k)) ++ rowClose) ++
    workbookClose

/-! ### Reading a sheet -/

/-- What has been found of the rows from the end of the document. -/
structure Scan where
  text : Text := []
  row : List Text := []
  rows : List (List Text) := []
  inData : Bool := false

def scanEvent : Xml.Event → Scan → Scan
  | .stop name, s =>
    if name = "Data".toList then { s with text := [], inData := true }
    else if name = "Row".toList then { s with row := [] }
    else s
  | .char c, s => if s.inData then { s with text := c :: s.text } else s
  | .start name _, s =>
    if name = "Data".toList then { s with row := s.text :: s.row, inData := false }
    else if name = "Row".toList then { s with rows := s.row :: s.rows }
    else s
  | .instruction _, s => s

/-- The texts of the `Data` elements of every `Row`. -/
def rowsOf (es : List Xml.Event) : List (List Text) := (es.foldr scanEvent {}).rows

def readSheet (document : Text) : Option (List (List Text)) := (Xml.read document).map rowsOf

def sheet (rows : List Row) : List (List Text) :=
  sheetKeys rows :: rows.map fun r => (sheetKeys rows).map r.cellText

def writtenSheet (rows : List Row) : List (List Text) :=
  sheetKeys rows :: rows.map fun r => (sheetKeys rows).map fun k => (r.get k).text

/-! ### The document of a sheet -/

theorem replaceAll_append (c : Char) (text s s' : Text) :
    replaceAll c text (s ++ s') = replaceAll c text s ++ replaceAll c text s' := List.flatMap_append

theorem replaceAll_other {c d : Char} (text : Text) (h : ¬ d = c) : replaceAll c text [d] = [d] := by
  rw [replaceAll, List.flatMap_singleton, if_neg h]

theorem escapeXml_char (c : Char) : escapeXml [c] = Xml.escapeChar c := by
  by_cases hamp : c = '&'
  · subst hamp
    rfl
  by_cases hlt : c = '<'
  · subst hlt
    rfl
  by_cases hgt : c = '>'
  · subst hgt
    rfl
  by_cases hquot : c = '"'
  · subst hquot
    rfl
  · rw [escapeXml, replaceAll_other _ hamp, replaceAll_other _ hlt, replaceAll_other _ hgt,
      replaceAll_other _ hquot, Xml.escapeChar, if_neg hamp, if_neg hlt, if_neg hgt, if_neg hquot]

theorem escapeXml_eq (s : Text) : escapeXml s = Xml.escape s := by
  induction s with
  | nil => rfl
  | cons c s ih =>
    have happend : escapeXml ([c] ++ s) = escapeXml [c] ++ escapeXml s := by
      simp only [escapeXml, replaceAll_append]
    rw [Xml.escape_cons, ← ih, ← escapeXml_char, ← happend, List.singleton_append]

def cellText (s : Text) : Text := cellOpen ++ Xml.escape s ++ cellClose

def rowText (cells : List Text) : Text := rowOpen ++ cells.flatMap cellText ++ rowClose

def sheetText (lines : List (List Text)) : Text := workbookOpen ++ lines.flatMap rowText ++ workbookClose

theorem cell_eq (v : Value) : cell v = cellText v.text := by
  rw [cell, escapeXml_eq, cellText]

theorem rowsToXlsxXml_eq (rows : List Row) : rowsToXlsxXml rows = sheetText (writtenSheet rows) := by
  simp only [rowsToXlsxXml, sheetText, writtenSheet, rowText, cell_eq, List.flatMap_cons, List.flatMap_map,
    List.append_assoc]
  rfl

/-! ### Its events -/

def cellEvents (s : Text) : List Xml.Event :=
  [.start "Cell".toList [], .start "Data".toList " ss:Type=\"String\"".toList] ++ s.map .char ++
    [.stop "Data".toList, .stop "Cell".toList]

def rowEvents (cells : List Text) : List Xml.Event :=
  [.start "Row".toList []] ++ cells.flatMap cellEvents ++ [.stop "Row".toList]

def openEvents : List Xml.Event :=
  [.instruction "xml version=\"1.0\"?".toList, .char '\n',
    .instruction "mso-application progid=\"Excel.Sheet\"?".toList, .char '\n',
    .start "Workbook".toList
      (" xmlns=".toList ++ "\"urn:schemas-microsoft-com:office:spreadsheet\"\n".toList ++
        " xmlns:ss=".toList ++ "\"urn:schemas-microsoft-com:office:spreadsheet\"".toList),
    .char '\n', .start "Worksheet".toList " ss:Name=\"Report\"".toList, .start "Table".toList []]

def closeEvents : List Xml.Event :=
  [.stop "Table".toList, .stop "Worksheet".toList, .char '\n', .stop "Workbook".toList]

def sheetEvents (lines : List (List Text)) : List Xml.Event :=
  openEvents ++ lines.flatMap rowEvents ++ closeEvents

theorem lex_markup :
    (Xml.lex .text workbookOpen = some openEvents ∧ Xml.lex .text workbookClose = some closeEvents) ∧
      (Xml.lex .text rowOpen = some [.start "Row".toList []] ∧
        Xml.lex .text rowClose = some [.stop "Row".toList]) ∧
      Xml.lex .text cellOpen =
        some [.start "Cell".toList [], .start "Data".toList " ss:Type=\"String\"".toList] ∧
      Xml.lex .text cellClose = some [.stop "Data".toList, .stop "Cell".toList] := by
  unfold workbookOpen openEvents workbookClose closeEvents rowOpen rowClose cellOpen cellClose
  -- a literal is taken apart before it is read: to evaluate its characters one by one is slow
  repeat rewrite [String.toList_ofList]
  decide +kernel

theorem plain_markup : [workbookOpen, workbookClose, rowOpen, rowClose, cellOpen, cellClose].all
    (fun part => part.all fun c => Xml.legal c && c != '\r') = true := by
  unfold workbookOpen workbookClose rowOpen rowClose cellOpen cellClose
  repeat rewrite [String.toList_ofList]
  decide +kernel

theorem plain_of_mem (part : Text)
    (h : part ∈ [workbookOpen, workbookClose, rowOpen, rowClose, cellOpen, cellClose]) :
    part.all Xml.legal = true ∧ '\r' ∉ part := by
  have hall := List.all_eq_true.mp plain_markup part h
  simp only [List.all_eq_true, Bool.and_eq_true, bne_iff_ne] at hall ⊢
  exact ⟨fun c hc => (hall c hc).1, fun hcr => (hall _ hcr).2 rfl⟩

theorem lex_cellText (s cs : Text) :
    Xml.lex .text (cellText s ++ cs) = (Xml.lex .text cs).map (cellEvents s ++ ·) := by
  obtain ⟨-, -, hopen, hclose⟩ := lex_markup
  rw [cellText, List.append_assoc, List.append_assoc, Xml.lex_append hopen, Xml.lex_escape,
    Xml.lex_append hclose, Option.map_map, Option.map_map, cellEvents]
  congr 1
  funext es
  simp only [Function.comp_apply, List.append_assoc]

theorem lex_rowText (cells : List Text) (cs : Text) :
    Xml.lex .text (rowText cells ++ cs) = (Xml.lex .text cs).map (rowEvents cells ++ ·) := by
  obtain ⟨-, ⟨hopen, hclose⟩, -⟩ := lex_markup
  rw [rowText, List.append_assoc, List.append_assoc, Xml.lex_append hopen,
    Xml.lex_flatMap (fun s _ => lex_cellText s), Xml.lex_append hclose, Option.map_map, Option.map_map,
    rowEvents]
  congr 1
  funext es
  simp only [Function.comp_apply, List.append_assoc]

theorem lex_sheetText (lines : List (List Text)) :
    Xml.lex .text (sheetText lines) = some (sheetEvents lines) := by
  obtain ⟨⟨hopen, hclose⟩, -⟩ := lex_markup
  rw [sheetText, List.append_assoc, Xml.lex_append hopen,
    Xml.lex_flatMap (fun cells _ => lex_rowText cells), hclose]
  simp [sheetEvents]

theorem nested_cellEvents {stack : List Xml.Text} {outer : Xml.Text} (s : Text) (es : List Xml.Event) :
    Xml.nested (outer :: stack) true (cellEvents s ++ es) = Xml.nested (outer :: stack) true es := by
  have hchars := Xml.nested_chars ("Cell".toList :: outer :: stack) "Data".toList s
    ([.stop "Data".toList, .stop "Cell".toList] ++ es)
  rw [cellEvents, List.append_assoc, List.append_assoc]
  refine (?_ : _ = _).trans (hchars.trans ?_)
  · simp [Xml.nested]
  · simp [Xml.nested]

theorem nested_rowEvents {stack : List Xml.Text} {outer : Xml.Text} (cells : List Text)
    (es : List Xml.Event) :
    Xml.nested (outer :: stack) true (rowEvents cells ++ es) = Xml.nested (outer :: stack) true es := by
  have hcells := Xml.nested_flatMap ("Row".toList :: outer :: stack)
    (fun s (_ : s ∈ cells) rest => nested_cellEvents s rest) ([.stop "Row".toList] ++ es)
  rw [rowEvents, List.append_assoc, List.append_assoc]
  refine (?_ : _ = _).trans (hcells.trans ?_)
  · simp [Xml.nested]
  · simp [Xml.nested]

theorem nested_sheetEvents (lines : List (List Text)) :
    Xml.nested [] false (sheetEvents lines) = true := by
  have hlines := Xml.nested_flatMap ["Table".toList, "Worksheet".toList, "Workbook".toList]
    (fun cells (_ : cells ∈ lines) rest => nested_rowEvents cells rest) closeEvents
  rw [sheetEvents, List.append_assoc]
  refine (?_ : _ = _).trans (hlines.trans ?_)
  · rfl
  · rfl

/-! ### Its characters -/

theorem legal_sheetText (lines : List (List Text)) :
    (sheetText lines).all Xml.legal = lines.all fun cells => cells.all fun s => s.all Xml.legal := by
  have hopen := (plain_of_mem workbookOpen (by simp)).1
  have hclose := (plain_of_mem workbookClose (by simp)).1
  have hrow := (plain_of_mem rowOpen (by simp)).1
  have hrow' := (plain_of_mem rowClose (by simp)).1
  have hcell := (plain_of_mem cellOpen (by simp)).1
  have hcell' := (plain_of_mem cellClose (by simp)).1
  have hcells : ∀ s, (cellText s).all Xml.legal = s.all Xml.legal := by
    intro s
    rw [cellText, List.all_append, List.all_append, hcell, hcell', Xml.legal_escape]
    simp
  have hrows : ∀ cells, (rowText cells).all Xml.legal = cells.all fun s => s.all Xml.legal := by
    intro cells
    rw [rowText, List.all_append, List.all_append, hrow, hrow', List.all_flatMap]
    simp [hcells]
  rw [sheetText, List.all_append, List.all_append, hopen, hclose, List.all_flatMap]
  simp [hrows]

/-! ### Its line ends -/

theorem normalize_cellText (s t : Text) :
    Xml.normalizeFrom false (cellText s ++ t) =
      cellText (Xml.normalize s) ++ Xml.normalizeFrom false t := by
  have hclose : cellClose = '<' :: "/Data></Cell>".toList := by
    unfold cellClose
    repeat rewrite [String.toList_ofList]
    rfl
  have hplain : '\r' ∉ "/Data></Cell>".toList := by
    have hcr := (plain_of_mem cellClose (by simp)).2
    rw [hclose, List.mem_cons, not_or] at hcr
    exact hcr.2
  have hopen := (plain_of_mem cellOpen (by simp)).2
  rw [cellText, cellText, hclose, List.append_assoc, List.append_assoc, Xml.normalizeFrom_plain hopen,
    List.cons_append, Xml.normalizeFrom_append, Xml.normalize_escape, Xml.normalize,
    Xml.normalizeFrom_plain hplain]
  simp [Xml.normalize]

theorem normalize_rowText (cells : List Text) (t : Text) :
    Xml.normalizeFrom false (rowText cells ++ t) =
      rowText (cells.map Xml.normalize) ++ Xml.normalizeFrom false t := by
  have hopen := (plain_of_mem rowOpen (by simp)).2
  have hclose := (plain_of_mem rowClose (by simp)).2
  rw [rowText, rowText, List.append_assoc, List.append_assoc, Xml.normalizeFrom_plain hopen,
    Xml.normalizeFrom_flatMap normalize_cellText, Xml.normalizeFrom_plain hclose]
  simp

theorem normalize_sheetText (lines : List (List Text)) :
    Xml.normalize (sheetText lines) = sheetText (lines.map fun cells => cells.map Xml.normalize) := by
  have hopen := (plain_of_mem workbookOpen (by simp)).2
  have hclose := (plain_of_mem workbookClose (by simp)).2
  rw [Xml.normalize, sheetText, sheetText, List.append_assoc, Xml.normalizeFrom_plain hopen,
    Xml.normalizeFrom_flatMap normalize_rowText, Xml.normalizeFrom_eq_self hclose, List.append_assoc]

/-! ### Reading it back -/

theorem scan_chars (s : Text) (scan : Scan) (h : scan.inData = true) :
    (s.map Xml.Event.char).foldr scanEvent scan = { scan with text := s ++ scan.text } := by
  induction s with
  | nil => rfl
  | cons c s ih =>
    rw [List.map_cons, List.foldr_cons, ih]
    simp [scanEvent, h]

theorem scan_cellEvents (s : Text) (scan : Scan) :
    ∃ text, (cellEvents s).foldr scanEvent scan =
      { text, row := s :: scan.row, rows := scan.rows, inData := false } := by
  refine ⟨s, ?_⟩
  have hclose : [Xml.Event.stop "Data".toList, .stop "Cell".toList].foldr scanEvent scan =
      { scan with text := [], inData := true } := rfl
  rw [cellEvents, List.foldr_append, List.foldr_append, hclose, scan_chars _ _ rfl, List.append_nil]
  rfl

theorem scan_cells (cells : List Text) (scan : Scan) (h : scan.inData = false) :
    ∃ text, (cells.flatMap cellEvents).foldr scanEvent scan =
      { text, row := cells ++ scan.row, rows := scan.rows, inData := false } := by
  induction cells with
  | nil => exact ⟨scan.text, by simp [← h]⟩
  | cons s cells ih =>
    obtain ⟨text, hcells⟩ := ih
    obtain ⟨text', hcell⟩ := scan_cellEvents s
      { text, row := cells ++ scan.row, rows := scan.rows, inData := false }
    refine ⟨text', ?_⟩
    rw [List.flatMap_cons, List.foldr_append, hcells, hcell]
    rfl

theorem scan_rows (lines : List (List Text)) (scan : Scan) (h : scan.inData = false) :
    ∃ text row, (lines.flatMap rowEvents).foldr scanEvent scan =
      { text, row, rows := lines ++ scan.rows, inData := false } := by
  induction lines with
  | nil => exact ⟨scan.text, scan.row, by simp [← h]⟩
  | cons cells lines ih =>
    obtain ⟨text, row, hlines⟩ := ih
    obtain ⟨text', hcells⟩ := scan_cells cells
      { text, row := [], rows := lines ++ scan.rows, inData := false } rfl
    refine ⟨text', cells, ?_⟩
    have hclose : [Xml.Event.stop "Row".toList].foldr scanEvent
        { text, row, rows := lines ++ scan.rows, inData := false } =
          { text, row := [], rows := lines ++ scan.rows, inData := false } := rfl
    rw [List.flatMap_cons, List.foldr_append, hlines, rowEvents, List.foldr_append, List.foldr_append,
      hclose, hcells, List.append_nil]
    rfl

theorem rowsOf_sheetEvents (lines : List (List Text)) : rowsOf (sheetEvents lines) = lines := by
  have hclose : closeEvents.foldr scanEvent {} = {} := rfl
  obtain ⟨text, row, hlines⟩ := scan_rows lines {} rfl
  rw [rowsOf, sheetEvents, List.foldr_append, List.foldr_append, hclose, hlines]
  exact List.append_nil lines

theorem readSheet_sheetText (lines : List (List Text)) :
    readSheet (sheetText lines) =
      if lines.all (fun cells => cells.all fun s => s.all Xml.legal) then
        some (lines.map fun cells => cells.map Xml.normalize)
      else none := by
  rw [readSheet, Xml.read, legal_sheetText, normalize_sheetText, lex_sheetText, Option.filter_some,
    nested_sheetEvents]
  split
  · rw [if_pos rfl, Option.map_some, rowsOf_sheetEvents]
  · rfl

theorem sheet_eq {rows : List Row} (h : OwnOnly rows) : sheet rows = writtenSheet rows := by
  rw [sheet, writtenSheet]
  congr 1
  refine List.map_congr_left fun r hr => List.map_congr_left fun k hk => ?_
  rcases cellText_cases r k with ⟨heq, -⟩ | ⟨-, ⟨hlack, hname⟩, -⟩
  · exact heq
  · rw [sheetKeys, if_neg (List.ne_nil_of_mem hr)] at hk
    obtain ⟨r', hr', hk'⟩ := mem_keysOf.mp hk
    exact absurd (h r hr r' hr' k hk' hname) hlack

/-- What is inherited is not read as an empty cell. -/
theorem ownOnly_of_normalize {rows : List Row}
    (h : (writtenSheet rows).map (fun cells => cells.map Xml.normalize) = sheet rows) :
    OwnOnly rows := by
  intro r hr r' hr' k hk' hname
  have hkeys : sheetKeys rows = keysOf rows := if_neg (List.ne_nil_of_mem hr)
  rw [writtenSheet, sheet, hkeys, List.map_cons, List.map_map] at h
  have hrow := List.map_inj_left.mp (List.cons.inj h).2 r hr
  rw [Function.comp_apply, List.map_map] at hrow
  have hcell : Xml.normalize (r.get k).text = r.cellText k :=
    List.map_inj_left.mp hrow k (mem_keysOf.mpr ⟨r', hr', hk'⟩)
  rcases cellText_cases r k with ⟨-, hown⟩ | ⟨hempty, -, hget⟩
  · simpa [hname] using hown
  · have hbrace := List.count_pos_iff.mp (brace_inherited hname)
    rw [hempty, hget] at hcell
    rw [Xml.eq_nil_of_normalize hcell] at hbrace
    cases hbrace

/-- A spreadsheet is read back exactly when its keys and cells hold no character that XML does not
allow and no CR, whatever markup, quotes or line feeds they hold, and no row lacks a key that every
object has. -/
theorem xlsx_read_back_iff (rows : List Row) :
    readSheet (rowsToXlsxXml rows) = some (sheet rows) ↔
      (∀ line ∈ sheet rows, ∀ s ∈ line, s.all Xml.legal = true ∧ '\r' ∉ s) ∧ OwnOnly rows := by
  rw [rowsToXlsxXml_eq, readSheet_sheetText]
  have hself : ∀ {α : Type} {f : α → α} {l : List α}, l.map f = l ↔ ∀ a ∈ l, f a = a := by
    intro α f l
    have hid := List.map_inj_left (l := l) (f := f) (g := id)
    rwa [List.map_id] at hid
  by_cases hown : OwnOnly rows
  · rw [← sheet_eq hown, and_iff_left hown]
    simp only [List.all_eq_true]
    split
    next hlegal =>
      rw [Option.some.injEq, hself]
      refine forall₂_congr fun line hline => ?_
      rw [hself]
      refine forall₂_congr fun s hs => ?_
      rw [Xml.normalize_eq_self_iff]
      exact (and_iff_right (hlegal line hline s hs)).symm
    next hillegal =>
      refine iff_of_false (fun h => (Option.some_ne_none _ h.symm).elim) ?_
      intro h
      exact hillegal fun line hline s hs => (h line hline s hs).1
  · refine iff_of_false (fun h => hown ?_) fun h => hown h.2
    split at h
    next => exact ownOnly_of_normalize (Option.some.inj h)
    next => cases h

/-- Markup in a key, quotes and a line feed in the cells, and a row that lacks a key. -/
def markupRows : List Row :=
  [⟨[("a<b&c".toList, .string "say \"x\"\n".toList), ("d".toList, .null)], by decide⟩,
    ⟨[("d".toList, .boolean true)], by decide⟩]

example : readSheet (rowsToXlsxXml markupRows) = some
    [["a<b&c".toList, "d".toList], ["say \"x\"\n".toList, []], [[], "true".toList]] := by
  rw [rowsToXlsxXml_eq, readSheet_sheetText]
  decide +kernel

end ElectronicsCart.Analytics
