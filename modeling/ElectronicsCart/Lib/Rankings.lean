import Mathlib.Data.List.Sort
import Mathlib.Data.List.Count
import Mathlib.Order.Monotone.Basic
import Mathlib.Tactic.Common

/-!
# Scores by position

A sorted list gives each place a score that grows with the place.  Items with one key stand next to
each other, from the number of items below the key to the number of items up to it.  They have one
score exactly when the score is the same at both ends of that stretch.
-/

namespace Rankings

variable {ρ κ : Type} [LinearOrder κ] (key : ρ → κ)

def ranking (rows : List ρ) : List ρ := rows.insertionSort fun a b => key a ≤ key b

def below (rows : List ρ) (v : κ) : ℕ := rows.countP fun r => key r < v

def upTo (rows : List ρ) (v : κ) : ℕ := rows.countP fun r => key r ≤ v

def place [DecidableEq ρ] (rows : List ρ) (r : ρ) : ℕ := (ranking key rows).idxOf r

/-- No stretch of equal keys reaches over places of different score. -/
def Unsplit (score : ℕ → ℕ) (rows : List ρ) : Prop :=
  ∀ r ∈ rows, score (below key rows (key r)) = score (upTo key rows (key r) - 1)

variable {key} {rows rows' : List ρ} {v : κ} {score : ℕ → ℕ} {r r' : ρ} {i j : ℕ}

theorem perm_ranking (rows : List ρ) : (ranking key rows).Perm rows :=
  List.perm_insertionSort _ rows

theorem mem_ranking : r ∈ ranking key rows ↔ r ∈ rows := (perm_ranking rows).mem_iff

theorem length_ranking (rows : List ρ) : (ranking key rows).length = rows.length :=
  (perm_ranking rows).length_eq

theorem sorted_ranking (rows : List ρ) :
    (ranking key rows).Pairwise fun a b => key a ≤ key b := by
  have htotal : Std.Total fun a b : ρ => key a ≤ key b := ⟨fun a b => le_total _ _⟩
  have htrans : IsTrans ρ fun a b => key a ≤ key b := ⟨fun a b c => le_trans⟩
  exact List.pairwise_insertionSort _ rows

theorem below_perm (h : rows.Perm rows') (v : κ) : below key rows v = below key rows' v :=
  h.countP_eq _

theorem upTo_perm (h : rows.Perm rows') (v : κ) : upTo key rows v = upTo key rows' v :=
  h.countP_eq _

theorem unsplit_perm (h : rows.Perm rows') : Unsplit key score rows ↔ Unsplit key score rows' := by
  simp only [Unsplit, below_perm h, upTo_perm h, h.mem_iff]

theorem lt_countP_iff {p : ρ → Bool} {l : List ρ}
    (hl : l.Pairwise fun a b => p b = true → p a = true) (hi : i < l.length) :
    i < l.countP p ↔ p l[i] = true := by
  induction l generalizing i with
  | nil => exact absurd hi (Nat.not_lt_zero i)
  | cons a l ih =>
    obtain ⟨ha, hl⟩ := List.pairwise_cons.mp hl
    cases hp : p a with
    | true =>
      rw [List.countP_cons_of_pos hp]
      cases i with
      | zero => simp [hp]
      | succ i => simpa using ih hl (Nat.lt_of_succ_lt_succ hi)
    | false =>
      have hrest : ∀ b ∈ a :: l, p b = false := by
        intro b hb
        rcases List.mem_cons.mp hb with rfl | hb
        · exact hp
        · cases hpb : p b with
          | false => rfl
          | true => rw [ha b hb hpb] at hp; exact hp
      have hnone : (a :: l).countP p = 0 := by
        rw [List.countP_eq_zero]
        exact fun b hb => by simp [hrest b hb]
      rw [hnone, hrest _ (List.getElem_mem hi)]
      simp

section Sorted

variable {l : List ρ} (hl : l.Pairwise fun a b => key a ≤ key b)

include hl

theorem below_le_iff (hi : i < l.length) : below key l v ≤ i ↔ v ≤ key l[i] := by
  have hcount := lt_countP_iff (p := fun r => key r < v) (hl.imp fun hab => by
    simpa using fun hb => lt_of_le_of_lt hab hb) hi
  rw [← not_lt, ← not_lt, below, hcount, decide_eq_true_eq]

theorem lt_upTo_iff (hi : i < l.length) : i < upTo key l v ↔ key l[i] ≤ v := by
  have hcount := lt_countP_iff (p := fun r => key r ≤ v) (hl.imp fun hab => by
    simpa using fun hb => le_trans hab hb) hi
  rw [upTo, hcount, decide_eq_true_eq]

theorem key_getElem_iff (hi : i < l.length) :
    key l[i] = v ↔ below key l v ≤ i ∧ i < upTo key l v := by
  rw [below_le_iff hl hi, lt_upTo_iff hl hi]
  exact ⟨fun h => ⟨h.ge, h.le⟩, fun h => le_antisymm h.2 h.1⟩

theorem score_eq (hmono : Monotone score) (h : Unsplit key score l) (hi : i < l.length) :
    score i = score (below key l (key l[i])) := by
  obtain ⟨hlow, hhigh⟩ := (key_getElem_iff hl hi).mp rfl
  refine le_antisymm ?_ (hmono hlow)
  rw [h _ (List.getElem_mem hi)]
  exact hmono (by omega)

theorem equal_scores_iff (hmono : Monotone score) :
    (∀ i j (hi : i < l.length) (hj : j < l.length), key l[i] = key l[j] → score i = score j) ↔
      Unsplit key score l := by
  constructor
  · intro h r hr
    obtain ⟨i, hi, rfl⟩ := List.getElem_of_mem hr
    obtain ⟨hlow, hhigh⟩ := (key_getElem_iff hl hi).mp rfl
    have hupto : upTo key l (key l[i]) ≤ l.length := List.countP_le_length
    have hfirst : below key l (key l[i]) < l.length := by omega
    have hlast : upTo key l (key l[i]) - 1 < l.length := by omega
    have hfirstKey : key (l[below key l (key l[i])]) = key l[i] :=
      (key_getElem_iff hl hfirst).mpr ⟨le_rfl, by omega⟩
    have hlastKey : key (l[upTo key l (key l[i]) - 1]) = key l[i] :=
      (key_getElem_iff hl hlast).mpr ⟨by omega, by omega⟩
    exact h _ _ hfirst hlast (hfirstKey.trans hlastKey.symm)
  · intro h i j hi hj hkey
    rw [score_eq hl hmono h hi, score_eq hl hmono h hj, hkey]

theorem score_le (hmono : Monotone score) (hi : i < l.length) (hj : j < l.length)
    (h : key l[i] < key l[j]) : score i ≤ score j := by
  refine hmono (Nat.le_of_not_lt fun hji => ?_)
  have hle : key l[j] ≤ key l[i] := List.pairwise_iff_getElem.mp hl j i hj hi hji
  exact absurd h (not_lt.mpr hle)

end Sorted

/-! ### The places of a ranking -/

theorem below_map {τ : Type} {f : τ → ρ} (l : List τ) (v : κ) :
    below key (l.map f) v = below (key ∘ f) l v := by
  simp [below, List.countP_map, Function.comp_def]

theorem upTo_map {τ : Type} {f : τ → ρ} (l : List τ) (v : κ) :
    upTo key (l.map f) v = upTo (key ∘ f) l v := by
  simp [upTo, List.countP_map, Function.comp_def]

theorem unsplit_map {τ : Type} {f : τ → ρ} {l : List τ} :
    Unsplit key score (l.map f) ↔ Unsplit (key ∘ f) score l := by
  simp [Unsplit, below_map, upTo_map]

theorem ranking_map {τ : Type} (f : τ → ρ) (l : List τ) :
    ranking key (l.map f) = (ranking (key ∘ f) l).map f :=
  (List.map_insertionSort _ _ f l fun _ _ _ _ => Iff.rfl).symm

/-- Keys that compare alike rank alike. -/
theorem ranking_congr {κ' : Type} [LinearOrder κ'] {key' : ρ → κ'}
    (h : ∀ a ∈ rows, ∀ b ∈ rows, key a ≤ key b ↔ key' a ≤ key' b) :
    ranking key rows = ranking key' rows := by
  have hmap := List.map_insertionSort _ (fun a b => key' a ≤ key' b) id rows h
  rwa [List.map_id, List.map_id] at hmap

variable [DecidableEq ρ]

theorem place_lt (hr : r ∈ rows) : place key rows r < (ranking key rows).length :=
  List.idxOf_lt_length_of_mem (mem_ranking.mpr hr)

theorem getElem_place (h : place key rows r < (ranking key rows).length) :
    (ranking key rows)[place key rows r] = r :=
  List.getElem_idxOf h

theorem score_place (hmono : Monotone score) (h : Unsplit key score rows) (hr : r ∈ rows) :
    score (place key rows r) = score (below key rows (key r)) := by
  have hl : (ranking key rows).Pairwise fun a b => key a ≤ key b := sorted_ranking rows
  have hlt : place key rows r < (ranking key rows).length := place_lt hr
  rw [score_eq hl hmono ((unsplit_perm (perm_ranking rows)).mpr h) hlt, getElem_place hlt,
    below_perm (perm_ranking rows)]

theorem score_place_le (hmono : Monotone score) (hr : r ∈ rows) (hr' : r' ∈ rows)
    (h : key r < key r') : score (place key rows r) ≤ score (place key rows r') := by
  have hl : (ranking key rows).Pairwise fun a b => key a ≤ key b := sorted_ranking rows
  have hlt : place key rows r < (ranking key rows).length := place_lt hr
  have hlt' : place key rows r' < (ranking key rows).length := place_lt hr'
  have hkey : key (ranking key rows)[place key rows r] < key (ranking key rows)[place key rows r'] := by
    rwa [getElem_place hlt, getElem_place hlt']
  exact score_le hl hmono hlt hlt' hkey

theorem unsplit_iff (hmono : Monotone score) (hnd : rows.Nodup) :
    Unsplit key score rows ↔ ∀ r ∈ rows, ∀ r' ∈ rows, key r = key r' →
      score (place key rows r) = score (place key rows r') := by
  have hperm : (ranking key rows).Perm rows := perm_ranking rows
  have hndRanking : (ranking key rows).Nodup := hperm.nodup_iff.mpr hnd
  rw [← unsplit_perm hperm, ← equal_scores_iff (sorted_ranking rows) hmono]
  constructor
  · intro h r hr r' hr' hkey
    have hlt : place key rows r < (ranking key rows).length := place_lt hr
    have hlt' : place key rows r' < (ranking key rows).length := place_lt hr'
    refine h _ _ hlt hlt' ?_
    rw [getElem_place hlt, getElem_place hlt', hkey]
  · intro h i j hi hj hkey
    have hmem : ∀ k (hk : k < (ranking key rows).length), (ranking key rows)[k] ∈ rows :=
      fun k hk => mem_ranking.mp (List.getElem_mem hk)
    have hscore := h _ (hmem i hi) _ (hmem j hj) hkey
    simpa only [place, hndRanking.idxOf_getElem] using hscore

theorem score_of_keys {key' : ρ → κ} (hmono : Monotone score) (h : Unsplit key score rows)
    (hperm : (rows'.map key').Perm (rows.map key)) (hr : r ∈ rows) (hr' : r' ∈ rows')
    (hkey : key r = key' r') : score (place key rows r) = score (place key' rows' r') := by
  have hsame : Unsplit id score (rows'.map key') ↔ Unsplit id score (rows.map key) := unsplit_perm hperm
  have hkeys : Unsplit id score (rows.map key) ↔ Unsplit key score rows := unsplit_map
  have hkeys' : Unsplit id score (rows'.map key') ↔ Unsplit key' score rows' := unsplit_map
  have h' : Unsplit key' score rows' := hkeys'.mp (hsame.mpr (hkeys.mpr h))
  have hbelow : below id (rows'.map key') (key r) = below id (rows.map key) (key r) := below_perm hperm _
  rw [below_map, below_map] at hbelow
  rw [score_place hmono h hr, score_place hmono h' hr', ← hkey]
  exact congrArg score hbelow.symm

end Rankings
