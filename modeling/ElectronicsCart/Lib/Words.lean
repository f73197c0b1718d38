import Mathlib.Data.List.DropRight
import Mathlib.Tactic.Common

/-!
# The words of a text

Elements that are no separators make up the words of a list.  To write one `d` for each run of
separators and to drop what stands at both ends joins the words by `d` (`trimmed_collapse`).
-/

namespace Words

variable {α : Type} {sep : α → Bool} {d : α} {u w xs ys : List α} {ws : List (List α)} {c : α}

def words (sep : α → Bool) (xs : List α) : List (List α) :=
  (xs.splitOnP sep).filter fun w => !w.isEmpty

structure IsWord (sep : α → Bool) (w : List α) : Prop where
  ne_nil : w ≠ []
  solid : ∀ c ∈ w, sep c = false

/-- Each run of separators becomes one `d`; `inRun` tells that the last element was a separator. -/
def collapse (sep : α → Bool) (d : α) (inRun : Bool) : List α → List α
  | [] => []
  | c :: cs =>
    if sep c then
      if inRun then collapse sep d true cs else d :: collapse sep d true cs
    else c :: collapse sep d false cs

/-- The list without the copies of `d` at its ends. -/
def trimmed [BEq α] (d : α) (xs : List α) : List α := (xs.dropWhile (· == d)).rdropWhile (· == d)

/-! ### Words -/

@[simp] theorem words_nil : words sep [] = [] := rfl

theorem words_cons (h : sep c = true) : words sep (c :: xs) = words sep xs := by
  simp [words, List.splitOnP_cons_eq_if_modifyHead, h]

theorem words_append_cons (h : sep c = true) :
    words sep (xs ++ c :: ys) = words sep xs ++ words sep ys := by
  rw [words, List.splitOnP_append_cons xs ys h, List.filter_append]
  rfl

theorem IsWord.words_eq (h : IsWord sep w) : words sep w = [w] := by
  rw [words, List.splitOnP_eq_singleton h.solid]
  simp [h.ne_nil]

theorem flatten_splitOnP (sep : α → Bool) (xs : List α) :
    (xs.splitOnP sep).flatten = xs.filter fun c => !sep c := by
  induction xs with
  | nil => rfl
  | cons c xs ih =>
    obtain ⟨first, rest, hsplit⟩ := List.exists_cons_of_ne_nil (List.splitOnP_ne_nil sep xs)
    rw [hsplit] at ih
    cases hc : sep c <;> simp [List.splitOnP_cons_eq_if_modifyHead, hc, hsplit, ← ih]

theorem flatten_words (sep : α → Bool) (xs : List α) :
    (words sep xs).flatten = xs.filter fun c => !sep c := by
  rw [words, List.flatten_filter_not_isEmpty, flatten_splitOnP]

theorem mem_of_mem_words (hw : w ∈ words sep xs) (hc : c ∈ w) : c ∈ xs ∧ sep c = false := by
  have hmem : c ∈ (words sep xs).flatten := List.mem_flatten_of_mem hw hc
  simpa [flatten_words] using hmem

theorem isWord_of_mem (hw : w ∈ words sep xs) : IsWord sep w where
  ne_nil := by simpa using List.of_mem_filter hw
  solid c hc := (mem_of_mem_words hw hc).2

theorem words_eq_nil : words sep xs = [] ↔ ∀ c ∈ xs, sep c = true := by
  constructor
  · intro h c hc
    have hnone : xs.filter (fun c => !sep c) = [] := by
      rw [← flatten_words, h]
      rfl
    simpa using List.filter_eq_nil_iff.mp hnone c hc
  · intro h
    refine List.eq_nil_iff_forall_not_mem.mpr fun w hw => ?_
    obtain ⟨c, hc⟩ := List.exists_mem_of_ne_nil w (isWord_of_mem hw).ne_nil
    obtain ⟨hmem, hsolid⟩ := mem_of_mem_words hw hc
    rw [h c hmem] at hsolid
    cases hsolid

theorem mem_dropWhile {p : α → Bool} (h : p c = false) : c ∈ xs.dropWhile p ↔ c ∈ xs := by
  refine ⟨fun hc => (List.dropWhile_sublist p).subset hc, fun hc => ?_⟩
  rw [← List.takeWhile_append_dropWhile (p := p) (l := xs), List.mem_append] at hc
  refine hc.resolve_left fun htake => ?_
  rw [List.mem_takeWhile_imp htake] at h
  cases h

/-! ### Words joined by a separator -/

theorem words_intercalate (hd : sep d = true) (h : ∀ w ∈ ws, IsWord sep w) :
    words sep ([d].intercalate ws) = ws := by
  induction ws with
  | nil => rfl
  | cons w ws ih =>
    rw [List.forall_mem_cons] at h
    cases ws with
    | nil => rw [List.intercalate_singleton, h.1.words_eq]
    | cons w' ws =>
      rw [List.intercalate_cons_cons, List.append_assoc, List.singleton_append, words_append_cons hd,
        h.1.words_eq, ih h.2]
      rfl

theorem intercalate_eq_nil (h : ∀ w ∈ ws, IsWord sep w) : [d].intercalate ws = [] ↔ ws = [] := by
  cases ws with
  | nil => simp
  | cons w ws =>
    obtain ⟨c, rest, rfl⟩ := List.exists_cons_of_ne_nil (h w (.head _)).ne_nil
    simp

theorem intercalate_append {ws' : List (List α)} (h : ws ≠ []) (h' : ws' ≠ []) :
    [d].intercalate (ws ++ ws') = [d].intercalate ws ++ d :: [d].intercalate ws' := by
  induction ws with
  | nil => exact absurd rfl h
  | cons w ws ih =>
    cases ws with
    | nil => simp [List.intercalate_cons_of_ne_nil h']
    | cons v ws =>
      have hrest := ih (List.cons_ne_nil v ws)
      rw [List.cons_append] at hrest
      rw [List.cons_append, List.cons_append, List.intercalate_cons_cons, List.intercalate_cons_cons,
        hrest, List.append_assoc, List.append_assoc, List.append_assoc]

theorem solid_getLast (h : ∀ w ∈ ws, IsWord sep w) (hne : [d].intercalate ws ≠ []) :
    sep (([d].intercalate ws).getLast hne) = false := by
  induction ws with
  | nil => exact absurd rfl hne
  | cons w ws ih =>
    rw [List.forall_mem_cons] at h
    cases ws with
    | nil =>
      simp only [List.intercalate_singleton] at hne ⊢
      exact h.1.solid _ (List.getLast_mem hne)
    | cons w' ws =>
      have hrest : [d].intercalate (w' :: ws) ≠ [] :=
        fun he => List.cons_ne_nil w' ws ((intercalate_eq_nil h.2).mp he)
      simp only [List.intercalate_cons_cons, List.getLast_append_of_ne_nil _ hrest]
      exact ih h.2 hrest

/-! ### Runs of separators -/

theorem collapse_cons_sep (h : sep c = true) (inRun : Bool) :
    collapse sep d inRun (c :: xs) =
      if inRun then collapse sep d true xs else d :: collapse sep d true xs := by
  rw [collapse, if_pos h]

theorem collapse_cons (h : sep c = false) (inRun : Bool) :
    collapse sep d inRun (c :: xs) = c :: collapse sep d false xs := by
  rw [collapse, h]
  rfl

theorem collapse_eq (sep : α → Bool) (d : α) (xs : List α) :
    (∃ t, (t = [] ∨ t = [d] ∧ words sep xs ≠ []) ∧
      collapse sep d true xs = [d].intercalate (words sep xs) ++ t) ∧
    ∀ u, IsWord sep u → ∃ t, (t = [] ∨ t = [d]) ∧
      u ++ collapse sep d false xs = [d].intercalate (words sep (u ++ xs)) ++ t := by
  induction xs with
  | nil =>
    refine ⟨⟨[], .inl rfl, rfl⟩, fun u hu => ⟨[], .inl rfl, ?_⟩⟩
    have hwhole : u ++ collapse sep d false [] = u := List.append_nil u
    rw [hwhole, List.append_nil, List.append_nil, hu.words_eq, List.intercalate_singleton]
  | cons c xs ih =>
    obtain ⟨⟨t, ht, hrun⟩, hword⟩ := ih
    cases hc : sep c with
    | true =>
      refine ⟨⟨t, ?_, ?_⟩, fun u hu => ?_⟩
      · rwa [words_cons hc]
      · rw [words_cons hc, collapse_cons_sep hc, if_pos rfl, hrun]
      · rw [collapse_cons_sep hc, if_neg Bool.false_ne_true, hrun, words_append_cons hc, hu.words_eq]
        by_cases hnil : words sep xs = []
        · -- nothing but separators follows: the last `d` is the one written here
          obtain rfl : t = [] := ht.resolve_right fun h => h.2 hnil
          refine ⟨[d], .inr rfl, ?_⟩
          simp [hnil]
        · refine ⟨t, ht.imp_right And.left, ?_⟩
          rw [List.singleton_append, List.intercalate_cons_of_ne_nil hnil]
          simp
    | false =>
      have hfirst : IsWord sep [c] := ⟨List.cons_ne_nil c [], by simpa using hc⟩
      refine ⟨?_, fun u hu => ?_⟩
      · obtain ⟨t, ht, heq⟩ := hword [c] hfirst
        refine ⟨t, ht.imp_right fun h => ⟨h, fun hnil => ?_⟩, ?_⟩
        · have hsep := words_eq_nil.mp hnil c (.head _)
          rw [hc] at hsep
          cases hsep
        · rw [collapse_cons hc]
          exact heq
      · have hlonger : IsWord sep (u ++ [c]) := by
          refine ⟨by simp, fun x hx => ?_⟩
          rcases List.mem_append.mp hx with hx | hx
          · exact hu.solid x hx
          · exact hfirst.solid x hx
        obtain ⟨t, ht, heq⟩ := hword (u ++ [c]) hlonger
        refine ⟨t, ht, ?_⟩
        rw [collapse_cons hc]
        simpa using heq

theorem dropWhile_collapse [BEq α] [LawfulBEq α] (hd : sep d = true) (xs : List α) :
    (collapse sep d true xs).dropWhile (· == d) = collapse sep d true xs ∧
      (collapse sep d false xs).dropWhile (· == d) = collapse sep d true xs := by
  induction xs with
  | nil => exact ⟨rfl, rfl⟩
  | cons c xs ih =>
    cases hc : sep c with
    | true =>
      simp only [collapse_cons_sep hc, if_true, Bool.false_eq_true, if_false]
      refine ⟨ih.1, ?_⟩
      rw [List.dropWhile_cons_of_pos (by simp)]
      exact ih.1
    | false =>
      have hne : (c == d) = false := by
        refine beq_eq_false_iff_ne.mpr fun he => ?_
        rw [he, hd] at hc
        cases hc
      simp [collapse_cons hc, hne]

theorem trimmed_collapse [BEq α] [LawfulBEq α] (hd : sep d = true) (xs : List α) :
    trimmed d (collapse sep d false xs) = [d].intercalate (words sep xs) := by
  obtain ⟨⟨t, ht, hrun⟩, -⟩ := collapse_eq sep d xs
  have hjoined : ([d].intercalate (words sep xs)).rdropWhile (· == d) =
      [d].intercalate (words sep xs) := by
    refine List.rdropWhile_eq_self_iff.mpr fun hne hlast => ?_
    have hwords : ∀ w ∈ words sep xs, IsWord sep w := fun w hw => isWord_of_mem hw
    have hsolid := solid_getLast hwords hne
    rw [beq_iff_eq.mp hlast, hd] at hsolid
    cases hsolid
  rw [trimmed, (dropWhile_collapse hd xs).2, hrun]
  rcases ht with rfl | ⟨rfl, -⟩
  · rw [List.append_nil, hjoined]
  · rw [List.rdropWhile_concat_pos (· == d) _ d (beq_self_eq_true d), hjoined]

end Words
