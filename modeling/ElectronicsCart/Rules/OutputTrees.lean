import ElectronicsCart.Rules.Actions
import Mathlib.Data.List.Pairwise

/-!
# The tree of the output

The output of `applyActions` is a tree of objects that the call made, whose leaves may be objects of
the program.  A property of an object of the program is found in the program, so that only one path
leads to an object of the tree, and a write to it is seen along this path alone.
-/

namespace ElectronicsCart.Rules

open Walks

variable {e : Engine} {h₀ h h' : Heap} {out a b : ℕ} {name : String} {v : Slot}

/-! ### The objects of the program -/

/-- The objects before the call: nothing points to an address that is not in use. -/
structure Heap.WellFormed (h : Heap) : Prop where
  prototype_lt : objectPrototype < h.next
  prototype_proto : (h.cells objectPrototype).proto = .null
  prototype_own : h.own objectPrototype "__proto__" = none
  two_le_depth : 2 ≤ h.depth
  blank : ∀ a, h.next ≤ a → h.cells a = {}
  fields_lt : ∀ a name b, h.own a name = some (.ref b) → b < h.next
  proto_lt : ∀ a b, (h.cells a).proto = .ref b → b < h.next

structure Sprouted (h₀ h : Heap) : Prop where
  old : ∀ a < h₀.next, h.cells a = h₀.cells a
  next_le : h₀.next ≤ h.next
  depth : h.depth = h₀.depth
  proto : ∀ a, h₀.next ≤ a → (h.cells a).proto = .ref objectPrototype
  blank : ∀ a, h.next ≤ a → ∀ name, h.own a name = none
  lt : ∀ a name b, h₀.next ≤ a → h.own a name = some (.ref b) → b < h.next
  unique : ∀ a name a' name' b, h₀.next ≤ a → h₀.next ≤ a' → h₀.next ≤ b →
    h.own a name = some (.ref b) → h.own a' name' = some (.ref b) → a = a' ∧ name = name'

structure Grown (h₀ : Heap) (out : ℕ) (h : Heap) : Prop extends Sprouted h₀ h where
  root_le : h₀.next ≤ out
  root_lt : out < h.next
  root : ∀ a name, h₀.next ≤ a → h.own a name ≠ some (.ref out)

def Heap.inherited (h : Heap) (name : String) : Slot :=
  if name = "__proto__" then .ref objectPrototype else (h.own objectPrototype name).getD .undefined

theorem own_write : (h.write a name v).own b = if b = a then
    Function.update (h.cells a).fields name (some v) else h.own b := by
  funext m
  by_cases hb : b = a
  · simp [Heap.own, Heap.write, Cell.write, hb]
  · simp [Heap.own, Heap.write, hb]

theorem own_write_self : (h.write a name v).own a name = some v := by
  rw [own_write, if_pos rfl, Function.update_self]

theorem own_write_of_ne {m : String} (hne : ¬ (b = a ∧ m = name)) :
    (h.write a name v).own b m = h.own b m := by
  rw [own_write]
  split
  next hb =>
    subst hb
    rw [Function.update_of_ne fun hm => hne ⟨rfl, hm⟩]
    rfl
  · rfl

theorem proto_write : ((h.write a name v).cells b).proto = (h.cells b).proto := by
  by_cases hb : b = a
  · simp [Heap.write, Cell.write, hb]
  · simp [Heap.write, hb]

/-! ### Reads -/

theorem lookupFrom_old (hw : h₀.WellFormed) (hs : Sprouted h₀ h) {this : ℕ}
    (hthis : this < h₀.next) (k : ℕ) {v : Slot} (hv : ∀ b, v = .ref b → b < h₀.next) :
    lookupFrom e h this name k v = lookupFrom e h₀ this name k v ∧
      ∀ b, lookupFrom e h₀ this name k v = .ref b → b < h₀.next := by
  induction k generalizing v with
  | zero => exact ⟨rfl, nofun⟩
  | succ k ih =>
    have hmethods : ∀ x : Slot,
        (e.methods x name).getD (lookupFrom e h this name k (.ref objectPrototype)) =
            (e.methods x name).getD (lookupFrom e h₀ this name k (.ref objectPrototype)) ∧
          ∀ b, (e.methods x name).getD (lookupFrom e h₀ this name k (.ref objectPrototype)) =
            .ref b → b < h₀.next := by
      intro x
      obtain ⟨heq, hlt⟩ := ih (v := .ref objectPrototype) fun b hb => by
        cases hb
        exact hw.prototype_lt
      refine ⟨by rw [heq], fun b hb => ?_⟩
      cases hm : e.methods x name with
      | none =>
        rw [hm] at hb
        exact hlt b hb
      | some m =>
        rw [hm] at hb
        exact (e.methods_ne_ref x name b (hm.trans (congrArg some hb))).elim
    cases v with
    | ref a =>
      have ha : a < h₀.next := hv a rfl
      have hown : h.own a name = h₀.own a name := by
        rw [Heap.own, hs.old a ha]
        rfl
      simp only [lookupFrom, hown, hs.old a ha, hs.old this hthis]
      cases hf : h₀.own a name with
      | some w => exact ⟨rfl, fun b hb => hw.fields_lt a name b (hf.trans (congrArg some hb))⟩
      | none =>
        dsimp only
        split
        · exact ⟨rfl, fun b hb => hw.proto_lt this b hb⟩
        · exact ih fun b hb => hw.proto_lt a b hb
    | array items => exact hmethods _
    | date time => exact hmethods _
    | builtin f => exact hmethods _
    | _ => exact ⟨rfl, nofun⟩

theorem get_old (hw : h₀.WellFormed) (hs : Sprouted h₀ h) (ha : a < h₀.next) :
    get e h a name = get e h₀ a name ∧ ∀ b, get e h₀ a name = .ref b → b < h₀.next := by
  unfold get
  rw [hs.depth]
  refine lookupFrom_old hw hs ha h₀.depth fun b hb => ?_
  cases hb
  exact ha

theorem get_fresh (hw : h₀.WellFormed) (hs : Sprouted h₀ h) (ha : h₀.next ≤ a) :
    get e h a name = (h.own a name).getD (h₀.inherited name) := by
  have hne : ¬ (a = objectPrototype ∧ name = "__proto__") := by
    rintro ⟨rfl, -⟩
    exact absurd hw.prototype_lt (not_lt.mpr ha)
  obtain ⟨k, hk⟩ : ∃ k, h.depth = k + 2 := by
    refine ⟨h.depth - 2, ?_⟩
    have hdepth := hw.two_le_depth
    rw [← hs.depth] at hdepth
    omega
  unfold get
  rw [hk]
  cases hown : h.own a name with
  | some w => simp [lookupFrom, hown]
  | none =>
    have hown₀ : h.own objectPrototype name = h₀.own objectPrototype name := by
      rw [Heap.own, hs.old _ hw.prototype_lt]
      rfl
    have hproto : (h.cells objectPrototype).proto = .null := by
      rw [hs.old _ hw.prototype_lt]
      exact hw.prototype_proto
    simp only [lookupFrom, hown, if_neg hne, hs.proto a ha, hown₀, Option.getD_none, Heap.inherited]
    by_cases hname : name = "__proto__"
    · subst hname
      simp [hw.prototype_own]
    · cases hf : h₀.own objectPrototype name with
      | some w => simp [hname]
      | none =>
        simp only [hname, and_false, if_false, Option.getD_none, hproto]
        cases k <;> rfl

def Owned (h₀ : Heap) (v : Slot) : Prop := ∃ a, v = .ref a ∧ h₀.next ≤ a

theorem inherited_lt (hw : h₀.WellFormed) (h : h₀.inherited name = .ref b) : b < h₀.next := by
  unfold Heap.inherited at h
  split at h
  · cases h
    exact hw.prototype_lt
  · cases hf : h₀.own objectPrototype name with
    | none =>
      rw [hf] at h
      cases h
    | some w =>
      rw [hf] at h
      exact hw.fields_lt _ name b (hf.trans (congrArg some h))

theorem owned_read (hw : h₀.WellFormed) (hs : Sprouted h₀ h) {x : Slot}
    (ho : Owned h₀ (read e h x name)) :
    ∃ a b, x = .ref a ∧ h₀.next ≤ a ∧ read e h x name = .ref b ∧ h₀.next ≤ b ∧
      h.own a name = some (.ref b) := by
  obtain ⟨b, hb, hfresh⟩ := ho
  cases x with
  | ref a =>
    refine ⟨a, b, rfl, ?_⟩
    change get e h a name = .ref b at hb
    rcases Nat.lt_or_ge a h₀.next with ha | ha
    · have hold : get e h a name = get e h₀ a name ∧ ∀ b, get e h₀ a name = .ref b → b < h₀.next :=
        get_old hw hs ha
      have hlt := hold.2 b (hold.1 ▸ hb)
      omega
    · refine ⟨ha, hb, hfresh, ?_⟩
      rw [get_fresh hw hs ha] at hb
      cases hown : h.own a name with
      | some w =>
        rw [hown] at hb
        exact congrArg some hb
      | none =>
        rw [hown] at hb
        have hlt := inherited_lt hw hb
        omega
  | _ => cases hb

theorem Grown.rooted (hw : h₀.WellFormed) (hg : Grown h₀ out h) :
    Rooted (read e h) (Owned h₀) (.ref out) := by
  refine ⟨fun x y n m ho heq => ?_, fun x n ho => ?_, fun x n _ heq => ?_⟩
  · obtain ⟨a, b, rfl, ha, hb, hfresh, hown⟩ := owned_read hw hg.toSprouted ho
    rw [heq] at ho hb
    obtain ⟨a', b', rfl, ha', hb', -, hown'⟩ := owned_read hw hg.toSprouted ho
    obtain rfl := Slot.ref.inj (hb.symm.trans hb')
    obtain ⟨rfl, rfl⟩ := hg.unique a n a' m b ha ha' hfresh hown hown'
    exact ⟨rfl, rfl⟩
  · obtain ⟨a, -, rfl, ha, -⟩ := owned_read hw hg.toSprouted ho
    exact ⟨a, rfl, ha⟩
  · have ho : Owned h₀ (read e h x n) := ⟨out, heq, hg.root_le⟩
    obtain ⟨a, b, rfl, ha, hb, -, hown⟩ := owned_read hw hg.toSprouted ho
    obtain rfl := Slot.ref.inj (heq.symm.trans hb)
    exact hg.root a n ha hown

theorem read_congr (hw : h₀.WellFormed) (hs : Sprouted h₀ h) (hs' : Sprouted h₀ h') {x : Slot}
    (hown : ∀ a, x = .ref a → h₀.next ≤ a → h'.own a name = h.own a name) :
    read e h' x name = read e h x name := by
  cases x with
  | ref a =>
    change get e h' a name = get e h a name
    rcases Nat.lt_or_ge a h₀.next with ha | ha
    · rw [(get_old hw hs' ha).1, (get_old hw hs ha).1]
    · rw [get_fresh hw hs' ha, get_fresh hw hs ha, hown a rfl ha]
  | _ => rfl

/-! ### Writes -/

/-- A value that may be written: none of the objects of the tree, or a new one. -/
def Storable (h₀ : Heap) (out : ℕ) (h : Heap) (v : Slot) : Prop :=
  ∀ b, v = .ref b → b < h₀.next ∨
    b < h.next ∧ b ≠ out ∧ ∀ a name, h₀.next ≤ a → h.own a name ≠ some (.ref b)

theorem Grown.write (hg : Grown h₀ out h) (ha : h₀.next ≤ a)
    (hlt : a < h.next) (hv : Storable h₀ out h v) : Grown h₀ out (h.write a name v) := by
  -- a reference in the new tree is the one that was written, or was there
  have href : ∀ c m b, (h.write a name v).own c m = some (.ref b) →
      (c = a ∧ m = name ∧ v = .ref b) ∨ ¬ (c = a ∧ m = name) ∧ h.own c m = some (.ref b) := by
    intro c m b hb
    by_cases hne : c = a ∧ m = name
    · obtain ⟨rfl, rfl⟩ := hne
      rw [own_write_self] at hb
      exact .inl ⟨rfl, rfl, Option.some.inj hb⟩
    · rw [own_write_of_ne hne] at hb
      exact .inr ⟨hne, hb⟩
  refine ⟨⟨fun c hc => ?_, hg.next_le, hg.depth, fun c hc => ?_, fun c hc m => ?_, ?_, ?_⟩,
    hg.root_le, hg.root_lt, fun c m hc hb => ?_⟩
  · have hne : c ≠ a := by omega
    rw [← hg.old c hc]
    exact Function.update_of_ne hne _ _
  · rw [proto_write]
    exact hg.proto c hc
  · have hne : ¬ (c = a ∧ m = name) := by
      rintro ⟨rfl, -⟩
      exact absurd hlt (not_lt.mpr hc)
    rw [own_write_of_ne hne]
    exact hg.blank c hc m
  · intro c m b hc hb
    rcases href c m b hb with ⟨-, -, rfl⟩ | ⟨-, hb⟩
    · rcases hv b rfl with hold | ⟨hnew, -⟩
      · exact lt_of_lt_of_le hold hg.next_le
      · exact hnew
    · exact hg.lt c m b hc hb
  · intro c m c' m' b hc hc' hfresh hb hb'
    rcases href c m b hb with ⟨hca, hm, hvb⟩ | ⟨-, hold⟩ <;>
      rcases href c' m' b hb' with ⟨hca', hm', hvb'⟩ | ⟨-, hold'⟩
    · exact ⟨hca.trans hca'.symm, hm.trans hm'.symm⟩
    · rcases hv b hvb with hlow | ⟨-, -, hnone⟩
      · omega
      · exact (hnone c' m' hc' hold').elim
    · rcases hv b hvb' with hlow | ⟨-, -, hnone⟩
      · omega
      · exact (hnone c m hc hold).elim
    · exact hg.unique c m c' m' b hc hc' hfresh hold hold'
  · rcases href c m out hb with ⟨-, -, rfl⟩ | ⟨-, hb⟩
    · rcases hv out rfl with hold | ⟨-, hne, -⟩
      · have hle := hg.root_le
        omega
      · exact hne rfl
    · exact hg.root c m hc hb

theorem follow_write (hw : h₀.WellFormed) (hg : Grown h₀ out h)
    (hg' : Grown h₀ out (h.write a name v)) {p q : List String}
    (hp : follow e h out p = .ref a) (ha : h₀.next ≤ a) (hq : ¬ p ++ [name] <+: q) :
    follow e (h.write a name v) out q = follow e h out q := by
  refine (hg.rooted hw).walk_eq_of_redirect ⟨a, hp, ha⟩ ?_ hq
  intro x m hne
  refine read_congr hw hg.toSprouted hg'.toSprouted fun c hc _ => own_write_of_ne ?_
  rintro ⟨rfl, rfl⟩
  exact hne ⟨hc.trans hp.symm, rfl⟩

theorem follow_write_self (hw : h₀.WellFormed) (hg : Grown h₀ out h)
    (hg' : Grown h₀ out (h.write a name v)) {p : List String}
    (hp : follow e h out p = .ref a) (ha : h₀.next ≤ a) :
    follow e (h.write a name v) out (p ++ [name]) = v := by
  have hself : ¬ p ++ [name] <+: p := by
    intro hpre
    have hlen := hpre.length_le
    simp at hlen
  have hparent := follow_write hw hg hg' hp ha hself
  unfold follow at hparent hp ⊢
  rw [walk_concat, hparent, hp]
  change get e _ a name = v
  rw [get_fresh hw hg'.toSprouted ha, own_write_self]
  rfl

/-! ### The clone -/

/-- Only new addresses were filled, with references to new ones. -/
structure Extends (h h' : Heap) : Prop where
  next_le : h.next ≤ h'.next
  old : ∀ a < h.next, h'.cells a = h.cells a
  later : ∀ a name b, h.next ≤ a → h'.own a name = some (.ref b) → h.next ≤ b

theorem Extends.trans {h'' : Heap} (h₁ : Extends h h') (h₂ : Extends h' h'') : Extends h h'' := by
  refine ⟨h₁.next_le.trans h₂.next_le, fun a ha => ?_, fun a name b ha hb => ?_⟩
  · rw [h₂.old a (lt_of_lt_of_le ha h₁.next_le), h₁.old a ha]
  · rcases Nat.lt_or_ge a h'.next with hlt | hge
    · rw [Heap.own, h₂.old a hlt] at hb
      exact h₁.later a name b ha hb
    · exact h₁.next_le.trans (h₂.later a name b hge hb)

theorem Sprouted.refl (hw : h.WellFormed) : Sprouted h h := by
  have hown : ∀ a name, h.next ≤ a → h.own a name = none := by
    intro a name ha
    rw [Heap.own, hw.blank a ha]
  refine ⟨fun _ _ => rfl, le_rfl, rfl, fun a ha => ?_, fun a ha name => hown a name ha, ?_, ?_⟩
  · rw [hw.blank a ha]
  · intro a name b ha hb
    rw [hown a name ha] at hb
    cases hb
  · intro a name a' name' b ha ha' _ hb
    rw [hown a name ha] at hb
    cases hb

theorem Sprouted.extends (hs : Sprouted h₀ h) : Extends h h := by
  refine ⟨le_rfl, fun _ _ => rfl, fun a name b ha hb => ?_⟩
  rw [hs.blank a ha] at hb
  cases hb

/-- A value that is new since `h` and that nothing points to. -/
def New (h₀ h h' : Heap) (v : Slot) : Prop :=
  ∀ b, v = .ref b → h.next ≤ b ∧ b < h'.next ∧
    ∀ a name, h₀.next ≤ a → h'.own a name ≠ some (.ref b)

theorem New.extends {h'' : Heap} (hn : New h₀ h h' v) (he : Extends h' h'') : New h₀ h h'' v := by
  intro b hb
  obtain ⟨hge, hlt, hnone⟩ := hn b hb
  refine ⟨hge, lt_of_lt_of_le hlt he.next_le, fun a name ha hown => ?_⟩
  rcases Nat.lt_or_ge a h'.next with hlow | hhigh
  · rw [Heap.own, he.old a hlow] at hown
    exact hnone a name ha hown
  · exact absurd (he.later a name b hhigh hown) (not_le.mpr hlt)

/-- The slots of a new object: each is new, and no two are the same object. -/
structure NewSlots (h₀ h h' : Heap) (slots : List (String × Slot)) : Prop where
  new : ∀ x ∈ slots, New h₀ h h' x.2
  distinct : slots.Pairwise fun x y => ∀ b, x.2 = .ref b → y.2 ≠ .ref b

def Heap.push (h : Heap) (slots : List (String × Slot)) : Heap :=
  (h.alloc { fields := fun name => slots.lookup name }).2

variable {slots : List (String × Slot)}

theorem own_push : (h.push slots).own a name =
    if a = h.next then slots.lookup name else h.own a name := by
  by_cases ha : a = h.next
  · simp [Heap.push, Heap.alloc, Heap.own, ha]
  · simp [Heap.push, Heap.alloc, Heap.own, ha]

theorem cells_push_of_ne (ha : a ≠ h.next) : (h.push slots).cells a = h.cells a :=
  Function.update_of_ne ha _ _

theorem NewSlots.lookup (hn : NewSlots h₀ h h' slots) (hl : slots.lookup name = some (.ref b)) :
    h.next ≤ b ∧ b < h'.next ∧ ∀ a name, h₀.next ≤ a → h'.own a name ≠ some (.ref b) := by
  obtain ⟨l₁, l₂, rfl, -⟩ := List.lookup_eq_some_iff.mp hl
  exact hn.new (name, .ref b) (by simp) b rfl

theorem NewSlots.inj (hn : NewSlots h₀ h h' slots) {name' : String}
    (hl : slots.lookup name = some (.ref b)) (hl' : slots.lookup name' = some (.ref b)) :
    name = name' := by
  obtain ⟨l₁, l₂, heq, -⟩ := List.lookup_eq_some_iff.mp hl
  obtain ⟨l₁', l₂', heq', -⟩ := List.lookup_eq_some_iff.mp hl'
  have hm : (name, Slot.ref b) ∈ slots := by simp [heq]
  have hm' : (name', Slot.ref b) ∈ slots := by simp [heq']
  by_contra hne
  have hsymm : Std.Symm fun x y : String × Slot => ∀ b, x.2 = .ref b → y.2 ≠ .ref b :=
    ⟨fun x y hxy c hy hx => hxy c hx hy⟩
  exact hn.distinct.forall hm hm' (fun heq => hne (Prod.mk.inj heq).1) b rfl rfl

theorem push_spec (hs : Sprouted h₀ h') (he : Extends h h') (hn : NewSlots h₀ h h' slots) :
    Sprouted h₀ (h'.push slots) ∧ Extends h (h'.push slots) ∧
      New h₀ h (h'.push slots) (.ref h'.next) := by
  have hsucc : h'.next < (h'.push slots).next := Nat.lt_succ_self _
  refine ⟨⟨fun a ha => ?_, hs.next_le.trans hsucc.le, hs.depth, fun a ha => ?_, fun a ha m => ?_,
    fun a m b ha hb => ?_, fun a m a' m' b ha ha' hfresh hb hb' => ?_⟩,
    ⟨he.next_le.trans hsucc.le, fun a ha => ?_, fun a m b ha hb => ?_⟩, ?_⟩
  · rw [cells_push_of_ne (lt_of_lt_of_le ha hs.next_le).ne, hs.old a ha]
  · by_cases heq : a = h'.next
    · simp [Heap.push, Heap.alloc, heq]
    · rw [cells_push_of_ne heq]
      exact hs.proto a ha
  · have hge : h'.next < a := Nat.lt_of_succ_le ha
    rw [own_push, if_neg hge.ne']
    exact hs.blank a hge.le m
  · rw [own_push] at hb
    split at hb
    · exact (hn.lookup hb).2.1.trans hsucc
    · exact (hs.lt a m b ha hb).trans hsucc
  · rw [own_push] at hb hb'
    split at hb <;> split at hb'
    next heq heq' => exact ⟨heq.trans heq'.symm, hn.inj hb hb'⟩
    · exact ((hn.lookup hb).2.2 a' m' ha' hb').elim
    · exact ((hn.lookup hb').2.2 a m ha hb).elim
    · exact hs.unique a m a' m' b ha ha' hfresh hb hb'
  · rw [cells_push_of_ne (lt_of_lt_of_le ha he.next_le).ne, he.old a ha]
  · rw [own_push] at hb
    split at hb
    · exact (hn.lookup hb).1
    · exact he.later a m b ha hb
  · intro b hb
    obtain rfl := Slot.ref.inj hb
    refine ⟨he.next_le, hsucc, fun a m ha hown => ?_⟩
    rw [own_push] at hown
    split at hown
    · exact absurd (hn.lookup hown).2.1 (lt_irrefl _)
    · exact absurd (hs.lt a m _ ha hown) (lt_irrefl _)

mutual

theorem cloneValue_spec {h : Heap} (hs : Sprouted h₀ h) (v : FactValue) :
    Sprouted h₀ (cloneValue h v).2 ∧ Extends h (cloneValue h v).2 ∧
      New h₀ h (cloneValue h v).2 (cloneValue h v).1 := by
  cases v with
  | object fields =>
    obtain ⟨hs', he, hn⟩ := cloneFields_spec hs fields
    exact push_spec hs' he hn
  | _ => exact ⟨hs, hs.extends, nofun⟩

theorem cloneFields_spec {h : Heap} (hs : Sprouted h₀ h) (fields : List (String × FactValue)) :
    Sprouted h₀ (cloneFields h fields).2 ∧ Extends h (cloneFields h fields).2 ∧
      NewSlots h₀ h (cloneFields h fields).2 (cloneFields h fields).1 := by
  cases fields with
  | nil => exact ⟨hs, hs.extends, nofun, .nil⟩
  | cons field rest =>
    obtain ⟨name, value⟩ := field
    obtain ⟨hs₁, he₁, hn₁⟩ := cloneValue_spec hs value
    obtain ⟨hs₂, he₂, hn₂⟩ := cloneFields_spec hs₁ rest
    refine ⟨hs₂, he₁.trans he₂, ?_, ?_⟩
    · intro x hx
      rcases List.mem_cons.mp hx with rfl | hx
      · exact hn₁.extends he₂
      · intro b hb
        obtain ⟨hge, hrest⟩ := hn₂.new x hx b hb
        exact ⟨he₁.next_le.trans hge, hrest⟩
    · refine List.pairwise_cons.mpr ⟨fun y hy b hb hb' => ?_, hn₂.distinct⟩
      have hlt := (hn₁ b hb).2.1
      have hge := (hn₂.new y hy b hb').1
      omega

end

theorem structuredClone_grown (hw : h.WellFormed) (facts : List (String × FactValue)) :
    Grown h (structuredClone h facts).1 (structuredClone h facts).2 := by
  have hs := Sprouted.refl hw
  obtain ⟨hs', he, hn⟩ := cloneFields_spec hs facts
  obtain ⟨hpush, -, hnew⟩ := push_spec hs' he hn
  obtain ⟨hge, hlt, hnone⟩ := hnew _ rfl
  exact ⟨hpush, hge, hlt, hnone⟩

end ElectronicsCart.Rules
