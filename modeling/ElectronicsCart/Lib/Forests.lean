import Mathlib.Data.Finset.Card
import Mathlib.Data.List.Perm.Lattice
import Mathlib.Logic.Relation

/-!
# Forests given by parents

A partial function sends each node to its parent.  A change of one parent keeps the relation without
cycles when the new parent is not below the node; without cycles every node of a finite relation has a
level, and a tree that is built downward from the nodes without a parent holds every node once.
-/

namespace Forests

variable {α β ν : Type}

/-! ### Parents -/

def Below (parent : α → Option α) : α → α → Prop :=
  Relation.TransGen fun a b => parent a = some b

def Acyclic (parent : α → Option α) : Prop := ∀ a, ¬ Below parent a a

variable {parent parent' : α → Option α} {a b : α}

theorem Acyclic.mono (h : Acyclic parent) (hsub : ∀ a b, parent' a = some b → parent a = some b) :
    Acyclic parent' := by
  intro a hcycle
  exact h a (Relation.TransGen.mono hsub _ _ hcycle)

theorem below_update [DecidableEq α] {q : Option α} {x y : α}
    (h : Below (Function.update parent a q) x y) :
    Below parent x y ∨ Relation.ReflTransGen (fun a b => parent a = some b) x a ∧
      ∃ p ∈ q, Relation.ReflTransGen (fun a b => parent a = some b) p y := by
  induction h with
  | @single y hxy =>
    by_cases hx : x = a
    · rw [hx, Function.update_self] at hxy
      exact .inr ⟨hx ▸ .refl, y, hxy, .refl⟩
    · rw [Function.update_of_ne hx] at hxy
      exact .inl (.single hxy)
  | @tail y z _ hyz ih =>
    by_cases hy : y = a
    · have hto : Relation.ReflTransGen (fun a b => parent a = some b) x a := by
        rcases ih with hbelow | ⟨hxa, -⟩
        · exact hy ▸ hbelow.to_reflTransGen
        · exact hxa
      rw [hy, Function.update_self] at hyz
      exact .inr ⟨hto, z, hyz, .refl⟩
    · rw [Function.update_of_ne hy] at hyz
      rcases ih with hbelow | ⟨hxa, p, hp, hpy⟩
      · exact .inl (hbelow.tail hyz)
      · exact .inr ⟨hxa, p, hp, hpy.tail hyz⟩

theorem Acyclic.update [DecidableEq α] {q : Option α} (h : Acyclic parent)
    (hq : ∀ p ∈ q, p ≠ a ∧ ¬ Below parent p a) : Acyclic (Function.update parent a q) := by
  intro x hcycle
  rcases below_update hcycle with hbelow | ⟨hxa, p, hp, hpx⟩
  · exact h x hbelow
  · obtain ⟨hne, hnot⟩ := hq p hp
    rcases Relation.reflTransGen_iff_eq_or_transGen.mp (hpx.trans hxa) with heq | hbelow
    · exact hne heq.symm
    · exact hnot hbelow

/-! ### Levels -/

/-- The node has so many nodes above it. -/
def AtLevel (parent : α → Option α) : ℕ → α → Prop
  | 0, a => parent a = none
  | k + 1, a => ∃ b, parent a = some b ∧ AtLevel parent k b

theorem AtLevel.unique {j k : ℕ} (hj : AtLevel parent j a) (hk : AtLevel parent k a) : j = k := by
  induction j generalizing a k with
  | zero =>
    cases k with
    | zero => rfl
    | succ k =>
      obtain ⟨b, hb, -⟩ := hk
      cases hb.symm.trans hj
  | succ j ih =>
    obtain ⟨b, hb, hjb⟩ := hj
    cases k with
    | zero => cases hb.symm.trans hk
    | succ k =>
      obtain ⟨c, hc, hkc⟩ := hk
      obtain rfl := Option.some.inj (hb.symm.trans hc)
      rw [ih hjb hkc]

theorem Acyclic.atLevel (h : Acyclic parent) (nodes : Finset α)
    (hnodes : ∀ a b, parent a = some b → b ∈ nodes) (a : α) : ∃ k, AtLevel parent k a := by
  classical
  -- by the number of nodes above `a`
  induction hn : (nodes.filter fun b => Below parent a b).card using Nat.strong_induction_on
    generalizing a with
  | _ n ih =>
    cases ha : parent a with
    | none => exact ⟨0, ha⟩
    | some b =>
      have hlt : (nodes.filter fun c => Below parent b c) ⊂ nodes.filter fun c => Below parent a c := by
        rw [Finset.ssubset_iff_of_subset]
        · refine ⟨b, ?_, fun hb => h b (Finset.mem_filter.mp hb).2⟩
          exact Finset.mem_filter.mpr ⟨hnodes a b ha, .single ha⟩
        · intro c hc
          obtain ⟨hmem, hbelow⟩ := Finset.mem_filter.mp hc
          exact Finset.mem_filter.mpr ⟨hmem, .head ha hbelow⟩
      obtain ⟨k, hk⟩ := ih _ (hn ▸ Finset.card_lt_card hlt) b rfl
      exact ⟨k + 1, b, ha, hk⟩

theorem AtLevel.chain {k : ℕ} (ha : AtLevel parent k a) {nodes : List α} (hmem : a ∈ nodes)
    (hup : ∀ a b, parent a = some b → b ∈ nodes) :
    ∃ l : List α, l.length = k + 1 ∧ l.Nodup ∧ ∀ b ∈ l, b ∈ nodes ∧ ∃ i ≤ k, AtLevel parent i b := by
  induction k generalizing a with
  | zero =>
    refine ⟨[a], rfl, List.nodup_singleton a, ?_⟩
    intro b hb
    obtain rfl := List.mem_singleton.mp hb
    exact ⟨hmem, 0, le_refl 0, ha⟩
  | succ k ih =>
    obtain ⟨b, hab, hb⟩ := ha
    obtain ⟨l, hlen, hnodup, hl⟩ := ih hb (hup a b hab)
    refine ⟨a :: l, by simp [hlen], List.nodup_cons.mpr ⟨fun hal => ?_, hnodup⟩, ?_⟩
    · obtain ⟨-, i, hi, hai⟩ := hl a hal
      have hlevel : i = k + 1 := hai.unique ⟨b, hab, hb⟩
      omega
    · intro c hc
      rcases List.mem_cons.mp hc with rfl | hc
      · exact ⟨hmem, k + 1, le_refl _, b, hab, hb⟩
      · obtain ⟨hcm, i, hi, hci⟩ := hl c hc
        exact ⟨hcm, i, by omega, hci⟩

theorem AtLevel.lt_length {k : ℕ} (ha : AtLevel parent k a) {nodes : List α} (hmem : a ∈ nodes)
    (hup : ∀ a b, parent a = some b → b ∈ nodes) : k < nodes.length := by
  obtain ⟨l, hlen, hnodup, hl⟩ := ha.chain hmem hup
  have hsub : l.Subperm nodes := hnodup.subperm fun b hb => (hl b hb).1
  have hle := hsub.length_le
  omega

/-! ### Paths -/

/-- The path from a node without a parent down to the node. -/
inductive RootPath (parent : α → Option α) : List α → α → Prop where
  | root {a : α} (h : parent a = none) : RootPath parent [a] a
  | snoc {l : List α} {a b : α} (h : parent b = some a) (ht : RootPath parent l a) :
      RootPath parent (l ++ [b]) b

theorem AtLevel.rootPath {k : ℕ} (ha : AtLevel parent k a) :
    ∃ l, RootPath parent l a ∧ l.length = k + 1 := by
  induction k generalizing a with
  | zero => exact ⟨[a], .root ha, rfl⟩
  | succ k ih =>
    obtain ⟨b, hab, hb⟩ := ha
    obtain ⟨l, hl, hlen⟩ := ih hb
    exact ⟨l ++ [a], .snoc hab hl, by simp [hlen]⟩

theorem RootPath.levels {l : List α} (h : RootPath parent l a) :
    AtLevel parent (l.length - 1) a ∧ 0 < l.length ∧
      ∀ b ∈ l, ∃ i < l.length, AtLevel parent i b := by
  induction h with
  | root ha =>
    refine ⟨ha, Nat.one_pos, ?_⟩
    intro b hb
    obtain rfl := List.mem_singleton.mp hb
    exact ⟨0, Nat.one_pos, ha⟩
  | @snoc l a b hab _ ih =>
    obtain ⟨ha, hpos, hl⟩ := ih
    have hb : AtLevel parent l.length b := by
      have hsucc : l.length = (l.length - 1) + 1 := by omega
      rw [hsucc]
      exact ⟨a, hab, ha⟩
    refine ⟨by simpa using hb, by simp, ?_⟩
    intro c hc
    rcases List.mem_append.mp hc with hc | hc
    · obtain ⟨i, hi, hci⟩ := hl c hc
      exact ⟨i, by simp; omega, hci⟩
    · obtain rfl := List.mem_singleton.mp hc
      exact ⟨l.length, by simp, hb⟩

theorem RootPath.nodup {l : List α} (h : RootPath parent l a) : l.Nodup := by
  induction h with
  | root => exact List.nodup_singleton _
  | @snoc l a b hab ht ih =>
    obtain ⟨ha, hpos, hl⟩ := ht.levels
    rw [List.nodup_append]
    refine ⟨ih, List.nodup_singleton b, ?_⟩
    intro c hc d hd heq
    obtain rfl := List.mem_singleton.mp hd
    subst heq
    obtain ⟨i, hi, hci⟩ := hl c hc
    have hlevel : i = (l.length - 1) + 1 := hci.unique ⟨a, hab, ha⟩
    omega

/-! ### Trees -/

inductive RoseTree (ν : Type) where
  | node (value : ν) (children : List (RoseTree ν))

mutual

def RoseTree.values : RoseTree ν → List ν
  | .node v ts => v :: valuesAll ts

def valuesAll : List (RoseTree ν) → List ν
  | [] => []
  | t :: ts => t.values ++ valuesAll ts

end

/-- The tree below a node, so many levels of it. -/
def expand (view : β → ν) (children : β → List β) : ℕ → β → RoseTree ν
  | 0, b => .node (view b) []
  | n + 1, b => .node (view b) ((children b).map (expand view children n))

variable {view : β → ν} {children : β → List β}

theorem valuesAll_append (ts us : List (RoseTree ν)) :
    valuesAll (ts ++ us) = valuesAll ts ++ valuesAll us := by
  induction ts with
  | nil => rfl
  | cons t ts ih => simp [valuesAll, ih]

theorem valuesAll_perm {ts us : List (RoseTree ν)} (h : ts.Perm us) :
    (valuesAll ts).Perm (valuesAll us) := by
  induction h with
  | nil => exact .nil
  | cons t _ ih => exact ih.append_left _
  | swap t u ts =>
    simp only [valuesAll, ← List.append_assoc]
    exact List.perm_append_comm.append_right _
  | trans _ _ ih₁ ih₂ => exact ih₁.trans ih₂

theorem valuesAll_zero (bs : List β) : valuesAll (bs.map (expand view children 0)) = bs.map view := by
  induction bs with
  | nil => rfl
  | cons b bs ih =>
    rw [List.map_cons, List.map_cons, valuesAll, ih]
    rfl

theorem valuesAll_succ (n : ℕ) (bs : List β) :
    (valuesAll (bs.map (expand view children (n + 1)))).Perm
      (bs.map view ++ valuesAll ((bs.flatMap children).map (expand view children n))) := by
  induction bs with
  | nil => exact .nil
  | cons b bs ih =>
    simp only [List.map_cons, valuesAll, expand, RoseTree.values, List.flatMap_cons, List.map_append,
      valuesAll_append, List.cons_append]
    apply List.Perm.cons
    refine (ih.append_left _).trans ?_
    rw [← List.append_assoc, ← List.append_assoc]
    exact List.perm_append_comm.append_right _

section Forest

variable {rows : List β} {parent : β → Option β}

theorem flatMap_level (hnodup : rows.Nodup) (hup : ∀ b c, parent b = some c → c ∈ rows)
    (hchildren : ∀ b ∈ rows, (children b).Nodup ∧ ∀ c, c ∈ children b ↔ c ∈ rows ∧ parent c = some b)
    {p q : β → Bool} {k : ℕ} (hp : ∀ b, p b = true ↔ AtLevel parent k b)
    (hq : ∀ b, q b = true ↔ AtLevel parent (k + 1) b) :
    ((rows.filter p).flatMap children).Perm (rows.filter q) := by
  have hflat : ((rows.filter p).flatMap children).Nodup := by
    rw [List.nodup_flatMap]
    refine ⟨fun b hb => (hchildren b (List.mem_filter.mp hb).1).1, ?_⟩
    refine (hnodup.filter p).imp_of_mem fun {b c} hb hc hne => ?_
    intro d hdb hdc
    have hb' := ((hchildren b (List.mem_filter.mp hb).1).2 d).mp hdb
    have hc' := ((hchildren c (List.mem_filter.mp hc).1).2 d).mp hdc
    exact hne (Option.some.inj (hb'.2.symm.trans hc'.2))
  rw [List.perm_ext_iff_of_nodup hflat (hnodup.filter q)]
  intro c
  constructor
  · intro hc
    obtain ⟨b, hb, hcb⟩ := List.mem_flatMap.mp hc
    obtain ⟨hmem, hlevel⟩ := List.mem_filter.mp hb
    obtain ⟨hcm, hpar⟩ := ((hchildren b hmem).2 c).mp hcb
    exact List.mem_filter.mpr ⟨hcm, (hq c).mpr ⟨b, hpar, (hp b).mp hlevel⟩⟩
  · intro hc
    obtain ⟨hcm, hlevel⟩ := List.mem_filter.mp hc
    obtain ⟨b, hpar, hb⟩ := (hq c).mp hlevel
    have hmem := hup c b hpar
    refine List.mem_flatMap.mpr ⟨b, List.mem_filter.mpr ⟨hmem, (hp b).mpr hb⟩, ?_⟩
    exact ((hchildren b hmem).2 c).mpr ⟨hcm, hpar⟩

theorem valuesAll_level (hnodup : rows.Nodup) (hup : ∀ b c, parent b = some c → c ∈ rows)
    (hchildren : ∀ b ∈ rows, (children b).Nodup ∧ ∀ c, c ∈ children b ↔ c ∈ rows ∧ parent c = some b)
    {level : β → ℕ} (hlevel : ∀ b k, level b = k ↔ AtLevel parent k b) (n k : ℕ) :
    (valuesAll ((rows.filter fun b => level b = k).map (expand view children n))).Perm
      ((rows.filter fun b => k ≤ level b ∧ level b ≤ k + n).map view) := by
  induction n generalizing k with
  | zero =>
    rw [valuesAll_zero]
    have hsame : (fun b => decide (level b = k)) = fun b => decide (k ≤ level b ∧ level b ≤ k + 0) := by
      funext b
      exact decide_eq_decide.mpr (by omega)
    rw [hsame]
  | succ n ih =>
    refine (valuesAll_succ n _).trans ?_
    have hnext : ((rows.filter fun b => level b = k).flatMap children).Perm
        (rows.filter fun b => level b = k + 1) :=
      flatMap_level hnodup hup hchildren (fun b => by rw [decide_eq_true_iff, hlevel b k])
        fun b => by rw [decide_eq_true_iff, hlevel b (k + 1)]
    refine ((valuesAll_perm (hnext.map _)).append_left _).trans ?_
    refine ((ih (k + 1)).append_left _).trans ?_
    rw [← List.map_append]
    apply List.Perm.map
    refine .trans ?_ (List.filter_append_perm (fun b => decide (level b = k)) _)
    rw [List.filter_filter, List.filter_filter]
    have hfirst : (fun b => decide (level b = k)) = fun b =>
        decide (level b = k) && decide (k ≤ level b ∧ level b ≤ k + (n + 1)) := by
      funext b
      rw [← Bool.decide_and]
      exact decide_eq_decide.mpr (by omega)
    have hrest : (fun b => decide (k + 1 ≤ level b ∧ level b ≤ k + 1 + n)) = fun b =>
        (!decide (level b = k)) && decide (k ≤ level b ∧ level b ≤ k + (n + 1)) := by
      funext b
      rw [← decide_not, ← Bool.decide_and]
      exact decide_eq_decide.mpr (by omega)
    rw [← hfirst, ← hrest]

theorem expand_enough (hup : ∀ b c, parent b = some c → c ∈ rows)
    (hchildren : ∀ b ∈ rows, ∀ c ∈ children b, c ∈ rows ∧ parent c = some b) {b : β} {k n : ℕ}
    (hb : b ∈ rows) (hk : AtLevel parent k b) (hn : rows.length ≤ k + n) (m : ℕ) :
    expand view children (n + m) b = expand view children n b := by
  induction n generalizing b k with
  | zero =>
    have hlt := hk.lt_length hb hup
    omega
  | succ n ih =>
    rw [show n + 1 + m = (n + m) + 1 by omega, expand, expand]
    congr 1
    apply List.map_congr_left
    intro c hc
    obtain ⟨hcm, hpar⟩ := hchildren b hb c hc
    have hlevel : AtLevel parent (k + 1) c := ⟨b, hpar, hk⟩
    exact ih hcm hlevel (by omega)

theorem valuesAll_forest (hnodup : rows.Nodup) (hup : ∀ b c, parent b = some c → c ∈ rows)
    (hlevels : ∀ b, ∃ k, AtLevel parent k b) {roots : List β}
    (hroots : roots.Perm (rows.filter fun b => (parent b).isNone))
    (hchildren : ∀ b ∈ rows, (children b).Nodup ∧ ∀ c, c ∈ children b ↔ c ∈ rows ∧ parent c = some b) :
    (valuesAll (roots.map (expand view children rows.length))).Perm (rows.map view) := by
  choose level hat using hlevels
  have hlevel : ∀ b k, level b = k ↔ AtLevel parent k b := by
    intro b k
    constructor
    · rintro rfl
      exact hat b
    · exact fun hk => (hat b).unique hk
  have htop : (rows.filter fun b => (parent b).isNone) = rows.filter fun b => level b = 0 := by
    congr 1
    funext b
    rw [Bool.eq_iff_iff, Option.isNone_iff_eq_none, decide_eq_true_iff, hlevel]
    rfl
  rw [htop] at hroots
  refine (valuesAll_perm (hroots.map _)).trans ?_
  refine (valuesAll_level hnodup hup hchildren hlevel rows.length 0).trans ?_
  rw [List.filter_eq_self.mpr]
  intro b hb
  have hlt := (hat b).lt_length hb hup
  exact decide_eq_true (by omega)

end Forest

end Forests
