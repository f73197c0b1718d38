import ElectronicsCart.Rules.OutputTrees

/-!
# What actions leave alone

As long as an action writes to objects of the output only, and sets no prototype, it leaves the objects
of the program alone and changes the output along its path.  A path through `__proto__` leaves the
output, and so does one that goes on behind the value of an earlier `set`.
-/

namespace ElectronicsCart.Rules

open Walks

variable {e : Engine} {h₀ h h' : Heap} {out a b : ℕ} {name : String} {v : Slot}

/-! ### The way to the parent -/

def ActionOp.isSet : ActionOp → Bool
  | .set _ => true
  | _ => false

def Slot.isRef : Slot → Bool
  | .ref _ => true
  | _ => false

/-- An empty object gives no object for the name. -/
def Heap.harmless (h : Heap) (name : String) : Bool :=
  name != "__proto__" && !((h.own objectPrototype name).any Slot.isRef)

/-- From `a` on, the action goes through objects from the address `made` on, writes `__proto__` as an
own field only, and finds no object behind a container that it makes. -/
def staysInside (e : Engine) (made : ℕ) (h : Heap) (op : ActionOp) (last : String) :
    ℕ → List String → Bool
  | a, [] => decide (made ≤ a) && (last != "__proto__" || (h.own a last).isSome || !op.isSet)
  | a, key :: rest =>
    decide (made ≤ a) && (key != "__proto__" || (h.own a key).isSome) &&
      match get e h a key with
      | .ref b => staysInside e made h op last b rest
      | _ => (rest ++ [last]).all h.harmless

def Ordinary (h : Heap) (a : ℕ) (name : String) : Prop :=
  name = "__proto__" → (h.own a name).isSome = true

/-- No name of the path is one that every object inherits. -/
def Plain (h : Heap) (q : List String) : Prop :=
  ∀ name ∈ q, name ≠ "__proto__" ∧ h.own objectPrototype name = none

variable {op : ActionOp} {last key : String} {p q init rest : List String}

theorem put_ordinary (ho : Ordinary h a name) : put h a name v = .ok (h.write a name v) := by
  refine if_neg ?_
  rintro ⟨hnone, hname, -⟩
  have hsome := ho hname
  cases hown : h.own a name with
  | none => simp [hown] at hsome
  | some w => simp [hown] at hnone

theorem harmless_iff :
    h.harmless name = true ↔ name ≠ "__proto__" ∧ ∀ b, h.own objectPrototype name ≠ some (.ref b) := by
  unfold Heap.harmless
  rw [Bool.and_eq_true, bne_iff_ne, Bool.not_eq_true']
  refine and_congr_right fun _ => ?_
  cases h.own objectPrototype name with
  | none => simp
  | some w => cases w <;> simp [Slot.isRef]

theorem Sprouted.own_prototype (hw : h₀.WellFormed) (hs : Sprouted h₀ h) :
    h.own objectPrototype name = h₀.own objectPrototype name := by
  rw [Heap.own, hs.old _ hw.prototype_lt]
  rfl

theorem inherited_of_plain (hp : Plain h₀ (name :: q)) : h₀.inherited name = .undefined := by
  obtain ⟨hne, hnone⟩ := hp name List.mem_cons_self
  rw [Heap.inherited, if_neg hne, hnone]
  rfl

theorem follow_lt (hw : h₀.WellFormed) (hg : Grown h₀ out h) (hp : follow e h out p = .ref a)
    (ha : h₀.next ≤ a) : a < h.next := by
  unfold follow at hp
  induction p using List.reverseRecOn with
  | nil =>
    obtain rfl := Slot.ref.inj hp
    exact hg.root_lt
  | append_singleton p n _ =>
    rw [walk_concat] at hp
    obtain ⟨c, b, -, hc, hb, -, hown⟩ := owned_read hw hg.toSprouted ⟨a, hp, ha⟩
    obtain rfl := Slot.ref.inj (hp.symm.trans hb)
    exact hg.lt c n a hc hown

def Heap.grow (h : Heap) : Heap := { h with next := h.next + 1 }

theorem alloc_empty (hs : Sprouted h₀ h) : h.alloc {} = (h.next, h.grow) := by
  have hcell : ({} : Cell) = h.cells h.next := by
    have hproto := hs.proto h.next hs.next_le
    have hfields : (h.cells h.next).fields = fun _ => none :=
      funext fun name => hs.blank h.next le_rfl name
    cases hc : h.cells h.next with
    | mk proto fields =>
      rw [hc] at hproto hfields
      rw [show proto = .ref objectPrototype from hproto, show fields = fun _ => none from hfields]
  rw [Heap.alloc, hcell, Function.update_eq_self]
  rfl

theorem Grown.grow (hg : Grown h₀ out h) : Grown h₀ out h.grow := by
  refine ⟨⟨hg.old, hg.next_le.trans (Nat.le_succ _), hg.depth, hg.proto, fun a ha => ?_, ?_,
    hg.unique⟩, hg.root_le, hg.root_lt.trans (Nat.lt_succ_self _), hg.root⟩
  · exact hg.blank a ((Nat.le_succ _).trans ha)
  · intro a name b ha hb
    exact (hg.lt a name b ha hb).trans (Nat.lt_succ_self _)

theorem Grown.storable_next (hg : Grown h₀ out h) : Storable h₀ out h.grow (.ref h.next) := by
  intro b hb
  obtain rfl := Slot.ref.inj hb
  refine .inr ⟨Nat.lt_succ_self _, hg.root_lt.ne', fun a name ha hown => ?_⟩
  exact (hg.lt a name _ ha hown).ne rfl

def Heap.contain (h : Heap) (a : ℕ) (key : String) : Heap := h.grow.write a key (.ref h.next)

theorem Grown.contain (hg : Grown h₀ out h) (ha : h₀.next ≤ a) (hlt : a < h.next) :
    Grown h₀ out (h.contain a key) :=
  hg.grow.write ha (hlt.trans (Nat.lt_succ_self _)) hg.storable_next

theorem get_contain (hw : h₀.WellFormed) (hg : Grown h₀ out h) (ha : h₀.next ≤ a)
    (hlt : a < h.next) : get e (h.contain a key) a key = .ref h.next := by
  rw [get_fresh hw (hg.contain ha hlt).toSprouted ha, Heap.contain, own_write_self]
  rfl

theorem enter_ref (hget : get e h a key = .ref b) : enter e h a key = (.ok b, h) := by
  unfold enter
  rw [hget]

theorem enter_new (hw : h₀.WellFormed) (hg : Grown h₀ out h) (ha : h₀.next ≤ a) (hlt : a < h.next)
    (ho : Ordinary h a key) (hget : ∀ b, get e h a key ≠ .ref b) :
    enter e h a key = (.ok h.next, h.contain a key) := by
  have hput : put h.grow a key (.ref h.next) = .ok (h.contain a key) := put_ordinary ho
  unfold enter
  split
  next b hb => exact (hget b hb).elim
  · simp only [alloc_empty hg.toSprouted, hput, get_contain hw hg ha hlt]

theorem own_contain_next (hg : Grown h₀ out h) (hlt : a < h.next) (m : String) :
    (h.contain a key).own h.next m = none := by
  rw [Heap.contain, own_write_of_ne fun hne => hlt.ne' hne.1]
  exact hg.blank h.next le_rfl m

theorem staysInside_of_empty (hw : h₀.WellFormed) (hs : Sprouted h₀ h) (ha : h₀.next ≤ a)
    (hempty : ∀ m, h.own a m = none) (hall : (rest ++ [last]).all h.harmless = true) :
    staysInside e h₀.next h op last a rest = true := by
  cases rest with
  | nil =>
    have hlast : last ≠ "__proto__" := (harmless_iff.mp (by simpa using hall)).1
    simp [staysInside, ha, hlast]
  | cons key rest =>
    rw [List.cons_append, List.all_cons, Bool.and_eq_true] at hall
    obtain ⟨hkey, hrest⟩ := hall
    obtain ⟨hne, hnone⟩ := harmless_iff.mp hkey
    have hget : ∀ b, get e h a key ≠ .ref b := by
      intro b hb
      rw [get_fresh hw hs ha, hempty key, Option.getD_none, Heap.inherited, if_neg hne,
        ← hs.own_prototype hw] at hb
      cases hf : h.own objectPrototype key with
      | none =>
        rw [hf] at hb
        cases hb
      | some w =>
        rw [hf] at hb
        exact hnone b (hf.trans (congrArg some hb))
    unfold staysInside
    split
    next b hb => exact (hget b hb).elim
    · simp [ha, hne, hrest]

/-- The parent of the last part, and what the way to it made. -/
structure Entered (e : Engine) (h₀ : Heap) (out : ℕ) (op : ActionOp) (last : String) (h : Heap)
    (path : List String) (parent : ℕ) (h' : Heap) : Prop where
  grown : Grown h₀ out h'
  leads : follow e h' out path = .ref parent
  fresh : h₀.next ≤ parent
  ordinary : Ordinary h' parent last ∨ op.isSet = false
  /-- nothing, or containers that only names of `Object.prototype` show outside the path -/
  same : h' = h ∨ (∀ b, follow e h out path ≠ .ref b) ∧
    ∀ q, Plain h₀ q → ¬ q <+: path → follow e h' out q = follow e h out q

theorem follow_append :
    follow e h out (p ++ q) = Walks.walk (read e h) (follow e h out p) q :=
  walk_append

theorem walk_of_not_ref (hv : ∀ b, v ≠ .ref b) :
    Walks.walk (read e h) v (name :: q) = .undefined := by
  have hread : read e h v name = .undefined := by
    cases v with
    | ref b => exact (hv b rfl).elim
    | _ => rfl
  rw [walk_cons, hread, walk_of_sink fun _ => rfl]

theorem follow_grow (hw : h₀.WellFormed) (hg : Grown h₀ out h) :
    follow e h.grow out q = follow e h out q := by
  refine walk_eq_of_agree fun r n _ => ?_
  exact (read_congr hw hg.toSprouted hg.grow.toSprouted fun _ _ _ => rfl).symm

theorem follow_contain_self (hw : h₀.WellFormed) (hg : Grown h₀ out h)
    (hp : follow e h out p = .ref a) (ha : h₀.next ≤ a) :
    follow e (h.contain a key) out (p ++ [key]) = .ref h.next := by
  have hg' : Grown h₀ out (h.contain a key) := hg.contain ha (follow_lt hw hg hp ha)
  exact follow_write_self hw hg.grow hg' ((follow_grow hw hg).trans hp) ha

theorem read_contain_next (hw : h₀.WellFormed) (hg : Grown h₀ out h) (ha : h₀.next ≤ a)
    (hlt : a < h.next) : read e (h.contain a key) (.ref h.next) name = h₀.inherited name := by
  change get e _ h.next name = _
  rw [get_fresh hw (hg.contain ha hlt).toSprouted hg.next_le, own_contain_next hg hlt,
    Option.getD_none]

theorem follow_contain (hw : h₀.WellFormed) (hg : Grown h₀ out h) (hp : follow e h out p = .ref a)
    (ha : h₀.next ≤ a) (hget : ∀ b, get e h a key ≠ .ref b) (hq : Plain h₀ q)
    (hpre : ¬ q <+: p ++ key :: rest) :
    follow e (h.contain a key) out q = follow e h out q := by
  have hlt := follow_lt hw hg hp ha
  by_cases hext : p ++ [key] <+: q
  · -- the path goes through the container
    obtain ⟨s, rfl⟩ := hext
    cases s with
    | nil =>
      refine (hpre ?_).elim
      rw [List.append_nil]
      exact ⟨rest, by simp⟩
    | cons m s =>
      have hplain : Plain h₀ (m :: s) := fun n hn => hq n (List.mem_append_right _ hn)
      have hblank : read e (h.contain a key) (.ref h.next) m = .undefined :=
        (read_contain_next hw hg ha hlt).trans (inherited_of_plain hplain)
      have hbefore : follow e h out (p ++ [key]) = get e h a key := by
        rw [follow_append, hp]
        rfl
      calc follow e (h.contain a key) out (p ++ [key] ++ m :: s)
          = Walks.walk (read e (h.contain a key)) .undefined s := by
            rw [follow_append, follow_contain_self hw hg hp ha, walk_cons, hblank]
        _ = .undefined := walk_of_sink (fun _ => rfl) s
        _ = follow e h out (p ++ [key] ++ m :: s) := by
            rw [follow_append, hbefore, walk_of_not_ref hget]
  · have hg' : Grown h₀ out (h.contain a key) := hg.contain ha hlt
    rw [Heap.contain, follow_write hw hg.grow hg' ((follow_grow hw hg).trans hp) ha hext,
      follow_grow hw hg]

theorem harmless_congr (hw : h₀.WellFormed) (hs : Sprouted h₀ h) (hs' : Sprouted h₀ h') :
    h'.harmless = h.harmless := by
  funext n
  rw [Heap.harmless, Heap.harmless, hs.own_prototype hw, hs'.own_prototype hw]

theorem enterAll_spec (hw : h₀.WellFormed) (hg : Grown h₀ out h) (hp : follow e h out p = .ref a)
    (hsafe : staysInside e h₀.next h op last a init = true) :
    ∃ parent h', enterAll e h a init = (.ok parent, h') ∧
      Entered e h₀ out op last h (p ++ init) parent h' := by
  induction init generalizing h a p with
  | nil =>
    simp only [staysInside, Bool.and_eq_true, decide_eq_true_eq, Bool.or_eq_true,
      bne_iff_ne, Bool.not_eq_true'] at hsafe
    obtain ⟨ha, hlast⟩ := hsafe
    refine ⟨a, h, rfl, hg, by rwa [List.append_nil], ha, ?_, .inl rfl⟩
    rcases hlast with (hne | hown) | hset
    · exact .inl fun heq => (hne heq).elim
    · exact .inl fun _ => hown
    · exact .inr hset
  | cons key rest ih =>
    have hassoc : p ++ key :: rest = p ++ [key] ++ rest := by simp
    have hstep : follow e h out (p ++ [key]) = get e h a key := by
      rw [follow_append, hp]
      rfl
    rw [staysInside, Bool.and_eq_true, Bool.and_eq_true, decide_eq_true_eq, Bool.or_eq_true,
      bne_iff_ne] at hsafe
    obtain ⟨⟨ha, hkey⟩, hrest⟩ := hsafe
    have ho : Ordinary h a key := fun heq => hkey.resolve_left fun hne => hne heq
    by_cases hget : ∃ b, get e h a key = .ref b
    · obtain ⟨b, hb⟩ := hget
      rw [hb] at hrest
      obtain ⟨parent, h', heq, hentered⟩ := ih hg (hstep.trans hb) hrest
      refine ⟨parent, h', ?_, hassoc ▸ hentered⟩
      rw [enterAll, enter_ref hb]
      exact heq
    · have hnone : ∀ b, get e h a key ≠ .ref b := fun b hb => hget ⟨b, hb⟩
      have hall : (rest ++ [last]).all h.harmless = true := by
        split at hrest
        next b hb => exact (hnone b hb).elim
        · exact hrest
      have hlt := follow_lt hw hg hp ha
      have hg' : Grown h₀ out (h.contain a key) := hg.contain ha hlt
      have hsafe' : staysInside e h₀.next (h.contain a key) op last h.next rest = true := by
        refine staysInside_of_empty hw hg'.toSprouted hg.next_le (own_contain_next hg hlt) ?_
        rwa [harmless_congr hw hg.toSprouted hg'.toSprouted]
      obtain ⟨parent, h', heq, hentered⟩ := ih hg' (follow_contain_self hw hg hp ha) hsafe'
      refine ⟨parent, h', ?_, hentered.grown, hassoc ▸ hentered.leads, hentered.fresh,
        hentered.ordinary, .inr ⟨fun b => ?_, fun q hq hpre => ?_⟩⟩
      · rw [enterAll, enter_new hw hg ha hlt ho hnone]
        exact heq
      · rw [hassoc, follow_append, hstep]
        cases rest with
        | nil => exact hnone b
        | cons m rest =>
          rw [walk_of_not_ref hnone]
          exact nofun
      · have hfirst := follow_contain hw hg hp ha hnone hq hpre
        rcases hentered.same with rfl | ⟨-, hsame⟩
        · exact hfirst
        · rw [hsame q hq (hassoc ▸ hpre), hfirst]

/-! ### The operations -/

theorem store_ordinary (ho : Ordinary h a name) :
    store h a name v = (.ok none, h.write a name v) := by
  rw [store, put_ordinary ho]

theorem store_number (h : Heap) (a : ℕ) (name : String) (n : JsNumber) :
    store h a name (.number n) = (.ok none, h) ∨
      store h a name (.number n) = (.ok none, h.write a name (.number n)) := by
  have hput : put h a name (.number n) = .ok h ∨
      put h a name (.number n) = .ok (h.write a name (.number n)) := by
    unfold put
    split
    · exact .inl rfl
    · exact .inr rfl
  rcases hput with hput | hput
  · exact .inl (by rw [store, hput])
  · exact .inr (by rw [store, hput])

variable {r : Except String (Option String)} {action : RuleAction}

theorem compute_cases {verb path : String} {f : JsNumber → JsNumber}
    (heq : compute e verb path f h a name = (r, h')) :
    h' = h ∨ ∃ n, r = .ok none ∧ h' = h.write a name (.number n) := by
  unfold compute at heq
  split at heq
  · exact .inl (Prod.mk.inj heq).2.symm
  next cur _ =>
    split at heq
    · rcases store_number h a name (f cur) with hst | hst
      · rw [hst] at heq
        exact .inl (Prod.mk.inj heq).2.symm
      · rw [hst] at heq
        obtain ⟨rfl, rfl⟩ := Prod.mk.inj heq
        exact .inr ⟨_, rfl, rfl⟩
    · exact .inl (Prod.mk.inj heq).2.symm

theorem perform_cases (hw : h₀.WellFormed) (hs : Sprouted h₀ h) (ha : h₀.next ≤ a)
    (ho : Ordinary h a name ∨ action.op.isSet = false)
    (heq : perform e action h a name = (r, h')) :
    (h' = h ∧ action.op.isSet = false) ∨
      ∃ v, r = .ok none ∧ h' = h.write a name v ∧
        (action.op = .set v ∨ action.op.isSet = false ∧ ∀ b, v ≠ .ref b) := by
  have hnumber : (h' = h ∨ ∃ n, r = .ok none ∧ h' = h.write a name (.number n)) →
      action.op.isSet = false → (h' = h ∧ action.op.isSet = false) ∨
        ∃ v, r = .ok none ∧ h' = h.write a name v ∧
          (action.op = .set v ∨ action.op.isSet = false ∧ ∀ b, v ≠ .ref b) := by
    rintro (hsame | ⟨n, hr, hwrite⟩) hset
    · exact .inl ⟨hsame, hset⟩
    · exact .inr ⟨_, hr, hwrite, .inr ⟨hset, nofun⟩⟩
  unfold perform at heq
  cases hop : action.op with
  | set value =>
    rw [hop] at ho heq
    have hord := ho.resolve_right nofun
    dsimp only at heq
    rw [store_ordinary hord] at heq
    obtain ⟨rfl, rfl⟩ := Prod.mk.inj heq
    exact .inr ⟨value, rfl, rfl, .inl rfl⟩
  | add value =>
    rw [hop] at heq hnumber
    exact hnumber (compute_cases heq) rfl
  | multiply value =>
    rw [hop] at heq hnumber
    exact hnumber (compute_cases heq) rfl
  | percent value =>
    rw [hop] at heq hnumber
    exact hnumber (compute_cases heq) rfl
  | appendTag value =>
    rw [hop] at heq
    by_cases hord : Ordinary h a name
    · have harray : ∀ items, store h a name (.array items) = (r, h') →
          ∃ v, r = .ok none ∧ h' = h.write a name v ∧
            (ActionOp.appendTag value = .set v ∨
              (ActionOp.appendTag value).isSet = false ∧ ∀ b, v ≠ .ref b) := by
        intro items hst
        rw [store_ordinary hord] at hst
        obtain ⟨rfl, rfl⟩ := Prod.mk.inj hst
        exact ⟨_, rfl, rfl, .inr ⟨rfl, nofun⟩⟩
      dsimp only at heq
      split at heq
      · exact .inr (harray _ heq)
      · exact .inr (harray _ heq)
      · exact .inr (harray _ heq)
      · exact .inl ⟨(Prod.mk.inj heq).2.symm, rfl⟩
    · -- the prototype is no array
      obtain ⟨hname, hnone⟩ : name = "__proto__" ∧ h.own a name = none := by
        rw [Ordinary, Classical.not_imp, Bool.not_eq_true, Option.isSome_eq_false_iff,
          Option.isNone_iff_eq_none] at hord
        exact hord
      have hget : get e h a name = .ref objectPrototype := by
        rw [get_fresh hw hs ha, hnone, Option.getD_none, Heap.inherited, if_pos hname]
      simp only [hget] at heq
      exact .inl ⟨(Prod.mk.inj heq).2.symm, rfl⟩
  | unknown =>
    rw [hop] at heq
    exact .inl ⟨(Prod.mk.inj heq).2.symm, rfl⟩

/-! ### One action -/

/-- The parts of two paths, neither of which goes on from the other. -/
def Apart (p q : List String) : Prop := ¬ p <+: q ∧ ¬ q <+: p

def Opened (e : Engine) (h : Heap) (out : ℕ) (path : String) : Prop :=
  ∃ b, follow e h out (parentParts path) = .ref b

structure ActionLaw (e : Engine) (h₀ : Heap) (out : ℕ) (action : RuleAction) (w w' : Work) :
    Prop where
  /-- the values beside the path stay -/
  frame : ∀ path, Apart (pathParts path) (pathParts action.path) →
    Opened e w.heap out action.path ∨ Plain h₀ (pathParts path) →
      resolveIn e w'.heap out path = resolveIn e w.heap out path
  set : ∀ v, isValidPath action.path = true → action.op = .set v →
    resolveIn e w'.heap out action.path = .ok v
  /-- an action that reports an error leaves the value at its path -/
  error : w'.errors ≠ w.errors →
    Opened e w.heap out action.path ∨ Plain h₀ (pathParts action.path) →
      resolveIn e w'.heap out action.path = resolveIn e w.heap out action.path

/-- The action writes to objects of the output only, and sets no prototype. -/
def actsInside (e : Engine) (made : ℕ) (out : ℕ) (w : Work) (action : RuleAction) : Bool :=
  w.thrown.isSome || !isValidPath action.path ||
    staysInside e made w.heap action.op (lastPart action.path) out (parentParts action.path)

theorem pathParts_eq (path : String) : pathParts path = parentParts path ++ [lastPart path] := by
  have hne : pathParts path ≠ [] := by
    rw [pathParts, Ne, List.map_eq_nil_iff]
    exact List.splitOn_ne_nil _ _
  rw [parentParts, lastPart, List.getLast?_eq_some_getLast hne, Option.getD_some,
    List.dropLast_concat_getLast hne]

theorem resolveIn_congr {path : String}
    (heq : follow e h' out (pathParts path) = follow e h out (pathParts path)) :
    resolveIn e h' out path = resolveIn e h out path := by
  rw [resolveIn, resolveIn, heq]

variable {w : Work}

theorem applyAction_spec (hw : h₀.WellFormed) (hg : Grown h₀ out w.heap)
    (hv : ∀ b, action.op = .set (.ref b) → b < h₀.next)
    (hsafe : actsInside e h₀.next out w action = true) :
    Grown h₀ out (applyAction e out w action).heap ∧
      ((applyAction e out w action).thrown = none →
        ActionLaw e h₀ out action w (applyAction e out w action)) := by
  have hparts := pathParts_eq action.path
  unfold applyAction
  split
  next hthrown =>
    refine ⟨hg, fun hnone => ?_⟩
    rw [hnone] at hthrown
    cases hthrown
  next hthrown =>
    split
    next hinvalid =>
      refine ⟨hg, fun _ => ⟨fun _ _ _ => rfl, fun v hvalid => ?_, fun _ _ => rfl⟩⟩
      rw [hvalid] at hinvalid
      cases hinvalid
    next hvalid =>
      simp only [Bool.not_eq_true', Bool.not_eq_false] at hthrown hvalid
      simp only [actsInside, hthrown, hvalid, Bool.not_true, Bool.false_or] at hsafe
      obtain ⟨parent, h, heq, hentered⟩ := enterAll_spec (p := []) hw hg rfl hsafe
      rw [List.nil_append] at hentered
      rw [heq]
      -- the way to the parent
      have hway : ∀ path, ¬ pathParts path <+: parentParts action.path →
          Opened e w.heap out action.path ∨ Plain h₀ (pathParts path) →
            follow e h out (pathParts path) = follow e w.heap out (pathParts path) := by
        intro path hpre hopen
        rcases hentered.same with rfl | ⟨hclosed, hsame⟩
        · rfl
        · rcases hopen with ⟨b, hb⟩ | hplain
          · exact (hclosed b hb).elim
          · exact hsame _ hplain hpre
      have hself : ¬ pathParts action.path <+: parentParts action.path := by
        intro hpre
        have hlen := hpre.length_le
        rw [hparts] at hlen
        simp at hlen
      have happart : ∀ path, Apart (pathParts path) (pathParts action.path) →
          ¬ pathParts path <+: parentParts action.path := by
        intro path hapart hpre
        exact hapart.1 (hpre.trans (hparts ▸ List.prefix_append _ _))
      dsimp only
      rcases hperform : perform e action h parent (lastPart action.path) with ⟨r, h'⟩
      rcases perform_cases hw hentered.grown.toSprouted hentered.fresh hentered.ordinary hperform
        with ⟨rfl, hset⟩ | ⟨v, rfl, rfl, hval⟩
      · have hlaw : ∀ errors, ActionLaw e h₀ out action w { w with heap := h', errors } := by
          intro errors
          refine ⟨fun path hapart hopen => ?_, fun v _ hop => ?_, fun _ hopen => ?_⟩
          · exact resolveIn_congr (hway path (happart path hapart) hopen)
          · rw [hop] at hset
            cases hset
          · exact resolveIn_congr (hway _ hself hopen)
        cases r with
        | error t => exact ⟨hentered.grown, nofun⟩
        | ok error => exact ⟨hentered.grown, fun _ => hlaw _⟩
      · have hstorable : Storable h₀ out h v := by
          intro b hb
          rcases hval with hop | ⟨-, hnone⟩
          · exact .inl (hv b (hb ▸ hop))
          · exact (hnone b hb).elim
        have hlt := follow_lt hw hentered.grown hentered.leads hentered.fresh
        have hg' : Grown h₀ out (h.write parent (lastPart action.path) v) :=
          hentered.grown.write hentered.fresh hlt hstorable
        refine ⟨hg', fun _ => ⟨fun path hapart hopen => ?_, fun v' hvalid hop => ?_,
          fun herr => ?_⟩⟩
        · have hwrite := follow_write hw hentered.grown hg' hentered.leads hentered.fresh
            (hparts ▸ hapart.2)
          exact resolveIn_congr (hwrite.trans (hway path (happart path hapart) hopen))
        · have hwrite := follow_write_self hw hentered.grown hg' hentered.leads hentered.fresh
          rw [resolveIn, hvalid, if_pos rfl, hparts, hwrite]
          rcases hval with hop' | ⟨hset, -⟩
          · rw [hop] at hop'
            rw [ActionOp.set.inj hop']
          · rw [hop] at hset
            cases hset
        · simp at herr

/-! ### Whole runs -/

/-- Every action of the run writes to objects of the output only. -/
def RunsInside (e : Engine) (made out : ℕ) : Work → List RuleAction → Prop
  | _, [] => True
  | w, action :: rest =>
    actsInside e made out w action = true ∧ RunsInside e made out (applyAction e out w action) rest

def RunLaw (e : Engine) (h₀ : Heap) (out : ℕ) : Work → List RuleAction → Prop
  | _, [] => True
  | w, action :: rest =>
    ((applyAction e out w action).thrown = none →
        ActionLaw e h₀ out action w (applyAction e out w action)) ∧
      RunLaw e h₀ out (applyAction e out w action) rest

theorem run_spec {actions : List RuleAction} (hw : h₀.WellFormed) (hg : Grown h₀ out w.heap)
    (hv : ∀ action ∈ actions, ∀ b, action.op = .set (.ref b) → b < h₀.next)
    (hsafe : RunsInside e h₀.next out w actions) :
    Grown h₀ out (actions.foldl (applyAction e out) w).heap ∧ RunLaw e h₀ out w actions := by
  induction actions generalizing w with
  | nil => exact ⟨hg, trivial⟩
  | cons action rest ih =>
    obtain ⟨hfirst, hrest⟩ := hsafe
    obtain ⟨hg', hlaw⟩ := applyAction_spec hw hg (hv action List.mem_cons_self) hfirst
    obtain ⟨hend, hlaws⟩ := ih hg' (fun x hx => hv x (List.mem_cons_of_mem _ hx)) hrest
    exact ⟨hend, hlaw, hlaws⟩

/-- Where every action writes to objects of the output only, the objects of the program stay as they
are, and every action changes the output at its path alone. -/
theorem applyActions_keeps (e : Engine) (h : Heap) (facts : List (String × FactValue))
    (actions : List RuleAction) (hw : h.WellFormed)
    (hv : ∀ action ∈ actions, ∀ b, action.op = .set (.ref b) → b < h.next)
    (hsafe : RunsInside e h.next (structuredClone h facts).1 ⟨(structuredClone h facts).2, [], none⟩
      actions) :
    (∀ a < h.next, (applyActions e h facts actions).2.heap.cells a = h.cells a) ∧
      RunLaw e h (structuredClone h facts).1 ⟨(structuredClone h facts).2, [], none⟩ actions := by
  obtain ⟨hg, hlaws⟩ := run_spec hw (structuredClone_grown hw facts) hv hsafe
  exact ⟨hg.old, hlaws⟩

/-! ### A cart -/

/-- An engine without methods of its own; no object has a numeric value. -/
def Engine.plain : Engine where
  toRuntime := Runtime.plain
  methods := fun _ _ => none
  methods_ne_ref := nofun
  numberOfObject := fun _ _ => .ok .nan

def methodOf (name : String) : Option Slot :=
  if JsValue.inheritedNames.contains name then some (.builtin name) else none

def totalOnly (name : String) : Option Slot :=
  if name = "total" then some (.number (.finite 10)) else none

/-- `Object.prototype`, and the facts of a cart. -/
def cartHeap : Heap where
  cells
    | 0 => { proto := .null, fields := methodOf }
    | 1 => { fields := totalOnly }
    | _ => {}
  next := 2
  depth := 2

def cartFacts : List (String × FactValue) := [("total", .number (.finite 10))]

theorem cartHeap_wellFormed : cartHeap.WellFormed := by
  have hfields : ∀ a name b, cartHeap.own a name ≠ some (.ref b) := by
    intro a name b
    match a with
    | 0 =>
      change methodOf name ≠ _
      unfold methodOf
      split <;> nofun
    | 1 =>
      change totalOnly name ≠ _
      unfold totalOnly
      split <;> nofun
    | _ + 2 => nofun
  refine ⟨by decide, rfl, by decide +kernel, le_rfl, fun a ha => ?_, fun a name b hb => ?_,
    fun a b hb => ?_⟩
  · match a, ha with
    | _ + 2, _ => rfl
  · exact (hfields a name b hb).elim
  · match a, hb with
    | 0, hb => cases hb
    | 1, hb =>
      cases hb
      decide
    | _ + 2, hb =>
      cases hb
      decide

def discount : List RuleAction := [⟨"total", .add (.finite (-3))⟩, ⟨"vip", .set (.boolean true)⟩]

/-- Two actions on the fields of the output. -/
theorem discount_keeps :
    let out := (structuredClone cartHeap cartFacts).1
    (∀ a < cartHeap.next, (applyActions Engine.plain cartHeap cartFacts discount).2.heap.cells a =
        cartHeap.cells a) ∧
      RunLaw Engine.plain cartHeap out ⟨(structuredClone cartHeap cartFacts).2, [], none⟩
        discount := by
  refine applyActions_keeps Engine.plain cartHeap cartFacts discount cartHeap_wellFormed ?_
    ⟨by decide +kernel, by decide +kernel, trivial⟩
  intro action hm b hop
  rcases List.mem_cons.mp hm with rfl | hm
  · cases hop
  · rcases List.mem_singleton.mp hm with rfl
    cases hop

/-- A path through `__proto__` gives every object of the program a property. -/
theorem proto_path_reaches_program :
    ¬ ∀ (e : Engine) (h : Heap) (facts : List (String × FactValue)) (actions : List RuleAction),
      h.WellFormed → (∀ action ∈ actions, ∀ b, action.op = .set (.ref b) → b < h.next) →
        ∀ a < h.next, (applyActions e h facts actions).2.heap.cells a = h.cells a := by
  intro hall
  have hsame := hall Engine.plain cartHeap cartFacts [⟨"__proto__.vip", .set (.boolean true)⟩]
    cartHeap_wellFormed (by simp) objectPrototype (by decide)
  have hbefore : (cartHeap.own objectPrototype "vip").isSome = false := by decide +kernel
  have hafter : ((applyActions Engine.plain cartHeap cartFacts
      [⟨"__proto__.vip", .set (.boolean true)⟩]).2.heap.own objectPrototype "vip").isSome = true := by
    decide +kernel
  rw [Heap.own, hsame] at hafter
  rw [Heap.own, hafter] at hbefore
  cases hbefore

end ElectronicsCart.Rules
