import ElectronicsCart.Rules.Operators
import Mathlib.Tactic.Linarith

/-!
# How the ordering operators agree

`compareOrdered` compares two texts by `localeCompare`, and a text and a number by their numeric
values; `valuesEqual` wants both of one kind.  So two texts and a number may be ordered in a circle,
and a text is never equal to a number.  An invalid date is neither below a date nor not below it.
Otherwise the operators are those of an order.
-/

namespace ElectronicsCart.Rules

/-! ### Comparison functions -/

/-- The sign of `cmp` is that of a total order. -/
structure TotalComparison {α : Type} (cmp : α → α → ℤ) : Prop where
  eq_zero : ∀ x y, cmp x y = 0 ↔ x = y
  swap : ∀ x y, 0 < cmp x y ↔ cmp y x < 0
  trans : ∀ x y z, cmp x y < 0 → cmp y z < 0 → cmp x z < 0

theorem totalComparison_of_lt {α : Type} [DecidableEq α] {r : α → α → Prop} [DecidableRel r]
    (hirrefl : ∀ x, ¬ r x x) (htrans : ∀ x y z, r x y → r y z → r x z)
    (htotal : ∀ x y, x ≠ y → r x y ∨ r y x) :
    TotalComparison fun x y => if r x y then (-1 : ℤ) else if x = y then 0 else 1 := by
  have hneg : ∀ x y, (if r x y then (-1 : ℤ) else if x = y then 0 else 1) < 0 ↔ r x y := by
    intro x y
    by_cases hr : r x y
    · simp [hr]
    · have hpos : ¬ (if x = y then (0 : ℤ) else 1) < 0 := by
        split <;> omega
      simp [hr, hpos]
  refine ⟨fun x y => ?_, fun x y => ?_, fun x y z hxy hyz => ?_⟩
  · by_cases hr : r x y
    · have hne : x ≠ y := fun he => hirrefl y (he ▸ hr)
      simp [hr, hne]
    · rw [if_neg hr]
      by_cases he : x = y <;> simp [he]
  · rw [hneg]
    by_cases he : x = y
    · subst he
      simp [hirrefl x]
    · by_cases hr : r x y
      · have hback : ¬ r y x := fun h => hirrefl x (htrans x y x hr h)
        simp [hr, hback]
      · have hback : r y x := (htotal x y he).resolve_left hr
        simp [hr, he, hback]
  · rw [hneg] at hxy hyz ⊢
    exact htrans x y z hxy hyz

theorem plain_localeCompare : TotalComparison Runtime.plain.localeCompare := by
  refine totalComparison_of_lt (fun s => String.lt_irrefl s) (fun s t u => String.lt_trans) ?_
  intro s t hne
  by_contra hnot
  obtain ⟨hst, hts⟩ := not_or.mp hnot
  exact hne (String.le_antisymm (String.not_lt.mp hts) (String.not_lt.mp hst))

/-! ### Comparisons by kind -/

variable {rt : Runtime} {x y z : Comparable}

def Comparable.isString : Comparable → Bool
  | string _ => true
  | _ => false

/-- `compareOrdered` of what `toComparable` gave. -/
def compared (rt : Runtime) (x y : Comparable) : Except String (Option ℚ) :=
  match x, y with
  | .null, _ => .error "Cannot compare null/undefined"
  | _, .null => .error "Cannot compare null/undefined"
  | .number m, .number n => .ok (some (m - n))
  | .date m, .date n => .ok (m.bind fun m => n.map fun (n : ℤ) => (m - n : ℚ))
  | .string s, .string t => .ok (some (rt.localeCompare s t))
  | _, _ =>
    match coerced rt x, coerced rt y with
    | some m, some n => .ok (some (m - n))
    | _, _ => .error ("Incomparable types: " ++ x.kind ++ " vs " ++ y.kind)

theorem compareOrdered_eq (rt : Runtime) (a b : JsValue) :
    compareOrdered rt a b = compared rt (toComparable rt a) (toComparable rt b) := rfl

theorem coerced_cases {m : ℚ} (h : coerced rt x = some m) :
    x = .number m ∨ ∃ s, x = .string s := by
  cases x with
  | number q => exact .inl (congrArg _ (Option.some.inj h))
  | string s => exact .inr ⟨s, rfl⟩
  | _ => cases h

inductive Compares (rt : Runtime) : Comparable → Comparable → ℚ → Prop
  | dates (m n : ℤ) : Compares rt (.date (some m)) (.date (some n)) (m - n)
  | strings (s t : String) : Compares rt (.string s) (.string t) (rt.localeCompare s t)
  | coerced {x y : Comparable} {m n : ℚ} (hkinds : (x.isString && y.isString) = false)
      (hx : coerced rt x = some m) (hy : Rules.coerced rt y = some n) : Compares rt x y (m - n)

def Untimed : Comparable → Comparable → Prop
  | .date m, .date n => m = none ∨ n = none
  | _, _ => False

theorem compared_iff {q : ℚ} : compared rt x y = .ok (some q) ↔ Compares rt x y q := by
  constructor
  · intro h
    unfold compared at h
    split at h
    · cases h
    · cases h
    · cases h
      exact .coerced rfl rfl rfl
    next m n =>
      cases m with
      | none => cases h
      | some m =>
        cases n with
        | none => cases h
        | some n =>
          cases h
          exact .dates m n
    · cases h
      exact .strings _ _
    next hstrings =>
      split at h
      next m n hm hn =>
        cases h
        refine .coerced ?_ hm hn
        cases x with
        | string s =>
          cases y with
          | string t => exact (hstrings s t rfl rfl).elim
          | _ => rfl
        | _ => rfl
      · cases h
  · rintro (⟨m, n⟩ | ⟨s, t⟩ | ⟨hkinds, hm, hn⟩)
    · rfl
    · rfl
    · rcases coerced_cases hm with rfl | ⟨s, rfl⟩ <;> rcases coerced_cases hn with rfl | ⟨t, rfl⟩
      · rfl
      · unfold compared
        simp only [hm, hn]
      · unfold compared
        simp only [hm, hn]
      · cases hkinds

theorem compared_untimed : compared rt x y = .ok none ↔ Untimed x y := by
  constructor
  · intro h
    unfold compared at h
    split at h
    · cases h
    · cases h
    · cases h
    next m n =>
      cases m with
      | none => exact .inl rfl
      | some m =>
        cases n with
        | none => exact .inr rfl
        | some n => cases h
    · cases h
    · split at h <;> cases h
  · intro h
    unfold Untimed at h
    split at h
    next m n =>
      rcases h with rfl | rfl
      · rfl
      · cases m <;> rfl
    · exact h.elim

theorem Compares.unique {p q : ℚ} (hp : Compares rt x y p) (hq : Compares rt x y q) : p = q := by
  have h := (compared_iff.mpr hp).symm.trans (compared_iff.mpr hq)
  exact Option.some.inj (Except.ok.inj h)

/-- Dates that can be compared with others can be compared with each other. -/
theorem Compares.not_untimed {p q : ℚ} (hxy : Compares rt x y p) (hyz : Compares rt y z q) :
    ¬ Untimed x z := by
  intro h
  cases hxy with
  | dates m n =>
    cases hyz with
    | dates n k => rcases h with h | h <;> cases h
    | coerced hkinds hn hk => cases hn
  | strings s t => exact h
  | coerced hkinds hm hn =>
    rcases coerced_cases hm with rfl | ⟨s, rfl⟩ <;> exact h

theorem Compares.swap (hl : TotalComparison rt.localeCompare) {q : ℚ} (h : Compares rt x y q) :
    ∃ p, Compares rt y x p ∧ (0 < q ↔ p < 0) := by
  rcases h with ⟨m, n⟩ | ⟨s, t⟩ | ⟨hkinds, hm, hn⟩
  · exact ⟨_, .dates n m, by rw [sub_pos, sub_neg]⟩
  · refine ⟨_, .strings t s, ?_⟩
    have hswap := hl.swap s t
    exact_mod_cast hswap
  · exact ⟨_, .coerced (by rwa [Bool.and_comm]) hn hm, by rw [sub_pos, sub_neg]⟩

/-! ### Transitivity -/

/-- `localeCompare` orders the two texts as their numbers, if both are numeric. -/
def SameOrder (rt : Runtime) (s t : String) : Prop :=
  ∀ m n, coerced rt (.string s) = some m → coerced rt (.string t) = some n →
    (rt.localeCompare s t < 0 ↔ m < n) ∧ (rt.localeCompare t s < 0 ↔ n < m)

theorem SameOrder.symm {s t : String} (h : SameOrder rt s t) : SameOrder rt t s :=
  fun m n hm hn => (h n m hn hm).symm

/-- Where two of the three are texts and the third is a number, both orders of the texts are one. -/
def Straight (rt : Runtime) : Comparable → Comparable → Comparable → Prop
  | .string s, .string t, .number _ => SameOrder rt s t
  | .string s, .number _, .string t => SameOrder rt s t
  | .number _, .string s, .string t => SameOrder rt s t
  | _, _, _ => True

theorem Straight.symm (h : Straight rt x y z) : Straight rt z y x := by
  cases x <;> cases y <;> cases z <;> first | trivial | exact SameOrder.symm h

theorem less_trans (hl : TotalComparison rt.localeCompare) (hs : Straight rt x y z) {p q r : ℚ}
    (hxy : Compares rt x y p) (hyz : Compares rt y z q) (hxz : Compares rt x z r) (hp : p < 0)
    (hq : q < 0) : r < 0 := by
  rcases hxy with ⟨m, n⟩ | ⟨s, t⟩ | ⟨hkinds, hm, hn⟩
  · rcases hyz with ⟨n, k⟩ | ⟨t, u⟩ | ⟨hkinds, hn, hk⟩
    · obtain rfl := hxz.unique (.dates m k)
      linarith
    · cases hn
  · rcases hyz with ⟨n, k⟩ | ⟨t, u⟩ | ⟨hkinds, hn, hk⟩
    · obtain rfl := hxz.unique (.strings s u)
      have hlt := hl.trans s t u (by exact_mod_cast hp) (by exact_mod_cast hq)
      exact_mod_cast hlt
    · -- two texts, and a number above the second
      rcases coerced_cases hk with rfl | ⟨u, rfl⟩
      · rcases hxz with ⟨n, k⟩ | ⟨t, u⟩ | ⟨hkinds, hm, hk'⟩
        obtain rfl := Option.some.inj (hk.symm.trans hk')
        have hlt := (hs _ _ hm hn).1.mp (by exact_mod_cast hp)
        linarith
      · cases hkinds
  · rcases hyz with ⟨n, k⟩ | ⟨t, u⟩ | ⟨hkinds', hn', hk⟩
    · cases hn
    · rcases coerced_cases hm with rfl | ⟨s, rfl⟩
      · -- a number below the first of two texts
        rcases hxz with ⟨n, k⟩ | ⟨s, v⟩ | ⟨-, hm', hk⟩
        obtain rfl := Option.some.inj (hm.symm.trans hm')
        have hlt := (hs _ _ hn hk).1.mp (by exact_mod_cast hq)
        linarith
      · cases hkinds
    · obtain rfl := Option.some.inj (hn.symm.trans hn')
      rcases hxz with ⟨n, k⟩ | ⟨s, u⟩ | ⟨hkinds'', hm', hk'⟩
      · cases hm
      · -- a number between two texts
        rcases coerced_cases hn with rfl | ⟨t, rfl⟩
        · have hlt := (hs _ _ hm hk).1.mpr (by linarith)
          exact_mod_cast hlt
        · cases hkinds
      · obtain rfl := Option.some.inj (hm.symm.trans hm')
        obtain rfl := Option.some.inj (hk.symm.trans hk')
        linarith

theorem greater_trans (hl : TotalComparison rt.localeCompare) (hs : Straight rt x y z) {p q r : ℚ}
    (hxy : Compares rt x y p) (hyz : Compares rt y z q) (hxz : Compares rt x z r) (hp : 0 < p)
    (hq : 0 < q) : 0 < r := by
  obtain ⟨p', hyx, hp'⟩ := hxy.swap hl
  obtain ⟨q', hzy, hq'⟩ := hyz.swap hl
  obtain ⟨r', hzx, hr'⟩ := hxz.swap hl
  rw [hr']
  exact less_trans hl hs.symm hzy hyx hzx (hq'.mp hq) (hp'.mp hp)

theorem valuesEqual_iff_kind (hl : TotalComparison rt.localeCompare) {a b : JsValue}
    (h : Compares rt (toComparable rt a) (toComparable rt b) 0) :
    valuesEqual rt a b = true ↔ (toComparable rt a).kind = (toComparable rt b).kind := by
  unfold valuesEqual
  generalize toComparable rt a = x at h ⊢
  generalize toComparable rt b = y at h ⊢
  generalize hq : (0 : ℚ) = q at h
  rcases h with ⟨m, n⟩ | ⟨s, t⟩ | ⟨hkinds, hm, hn⟩
  · have heq : m = n := by
      exact_mod_cast (sub_eq_zero.mp hq.symm)
    simp [heq]
  · have heq : s = t := (hl.eq_zero s t).mp (by exact_mod_cast hq.symm)
    simp [heq]
  · rcases coerced_cases hm with rfl | ⟨s, rfl⟩ <;> rcases coerced_cases hn with rfl | ⟨t, rfl⟩
    · have heq := sub_eq_zero.mp hq.symm
      simp [heq]
    · simp [Comparable.kind]
    · simp [Comparable.kind]
    · cases hkinds

/-! ### Operators -/

theorem cmpOp_matched {ctx : OperatorContext} {symbol : String} {pred : ℚ → Bool} :
    (cmpOp rt ctx symbol pred).matched = true ↔
      ∃ q, Compares rt (toComparable rt ctx.actual) (toComparable rt ctx.expected) q ∧
        pred q = true := by
  unfold cmpOp
  cases h : compareOrdered rt ctx.actual ctx.expected with
  | error e =>
    refine iff_of_false Bool.false_ne_true ?_
    rintro ⟨q, hq, -⟩
    rw [compareOrdered_eq, compared_iff.mpr hq] at h
    cases h
  | ok cmp =>
    cases cmp with
    | none =>
      refine iff_of_false Bool.false_ne_true ?_
      rintro ⟨q, hq, -⟩
      rw [compareOrdered_eq, compared_iff.mpr hq] at h
      cases h
    | some p =>
      have hp := compared_iff.mp (compareOrdered_eq rt _ _ ▸ h)
      constructor
      · intro hm
        exact ⟨p, hp, hm⟩
      · rintro ⟨q, hq, hm⟩
        rwa [hp.unique hq]

theorem cmpOp_error {ctx : OperatorContext} {symbol : String} {pred : ℚ → Bool} :
    (cmpOp rt ctx symbol pred).error = none ↔
      Untimed (toComparable rt ctx.actual) (toComparable rt ctx.expected) ∨
        ∃ q, Compares rt (toComparable rt ctx.actual) (toComparable rt ctx.expected) q := by
  unfold cmpOp
  cases h : compareOrdered rt ctx.actual ctx.expected with
  | error e =>
    rw [compareOrdered_eq] at h
    refine iff_of_false nofun ?_
    rintro (hu | ⟨q, hq⟩)
    · rw [compared_untimed.mpr hu] at h
      cases h
    · rw [compared_iff.mpr hq] at h
      cases h
  | ok cmp =>
    rw [compareOrdered_eq] at h
    refine iff_of_true rfl ?_
    cases cmp with
    | none => exact .inl (compared_untimed.mp h)
    | some p => exact .inr ⟨p, compared_iff.mp h⟩

variable {field : String} {a b c : JsValue}

theorem ltOperator_matched : (ltOperator rt ⟨field, a, b⟩).matched = true ↔
    ∃ q, Compares rt (toComparable rt a) (toComparable rt b) q ∧ q < 0 := by
  simp only [ltOperator, cmpOp_matched, decide_eq_true_eq]

theorem gtOperator_matched : (gtOperator rt ⟨field, a, b⟩).matched = true ↔
    ∃ q, Compares rt (toComparable rt a) (toComparable rt b) q ∧ 0 < q := by
  simp only [gtOperator, cmpOp_matched, decide_eq_true_eq]

theorem lteOperator_matched : (lteOperator rt ⟨field, a, b⟩).matched = true ↔
    ∃ q, Compares rt (toComparable rt a) (toComparable rt b) q ∧ q ≤ 0 := by
  simp only [lteOperator, cmpOp_matched, decide_eq_true_eq]

theorem gteOperator_matched : (gteOperator rt ⟨field, a, b⟩).matched = true ↔
    ∃ q, Compares rt (toComparable rt a) (toComparable rt b) q ∧ 0 ≤ q := by
  simp only [gteOperator, cmpOp_matched, decide_eq_true_eq]

theorem lt_or_gte (h : (ltOperator rt ⟨field, a, b⟩).error = none)
    (htimed : ¬ Untimed (toComparable rt a) (toComparable rt b)) :
    (ltOperator rt ⟨field, a, b⟩).matched = !(gteOperator rt ⟨field, a, b⟩).matched := by
  obtain ⟨q, hq⟩ := (cmpOp_error.mp h).resolve_left htimed
  rw [Bool.eq_iff_iff, Bool.not_eq_true', ← Bool.not_eq_true, ltOperator_matched,
    gteOperator_matched]
  constructor
  · rintro ⟨p, hp, hneg⟩ ⟨p', hp', hpos⟩
    obtain rfl := hp.unique hp'
    linarith
  · intro hnot
    refine ⟨q, hq, ?_⟩
    by_contra hpos
    exact hnot ⟨q, hq, not_lt.mp hpos⟩

theorem untimed_operators (h : Untimed (toComparable rt a) (toComparable rt b)) :
    (ltOperator rt ⟨field, a, b⟩).matched = false ∧ (gteOperator rt ⟨field, a, b⟩).matched = false := by
  have hcmp : compareOrdered rt a b = .ok none := compared_untimed.mpr h
  simp [ltOperator, gteOperator, cmpOp, hcmp, ok]

theorem betweenOperator_eq :
    (betweenOperator rt ⟨field, a, .array [b, c]⟩).matched =
        ((gteOperator rt ⟨field, a, b⟩).matched && (lteOperator rt ⟨field, a, c⟩).matched) ∧
      (betweenOperator rt ⟨field, a, .array [b, c]⟩).error =
        (gteOperator rt ⟨field, a, b⟩).error.or (lteOperator rt ⟨field, a, c⟩).error := by
  cases hb : compareOrdered rt a b with
  | error e => simp [betweenOperator, gteOperator, lteOperator, cmpOp, hb, fail]
  | ok lo =>
    cases hc : compareOrdered rt a c with
    | error e => simp [betweenOperator, gteOperator, lteOperator, cmpOp, hb, hc, fail, ok]
    | ok hi => simp [betweenOperator, gteOperator, lteOperator, cmpOp, hb, hc, ok]

/-- The laws of the ordering operators: an order where two texts are compared as their numbers are,
an equality for values of one kind, and nothing holds of a date and an invalid one. -/
theorem ordering_operators_agree (rt : Runtime) (hl : TotalComparison rt.localeCompare)
    (field : String) (a b c : JsValue) :
    (Straight rt (toComparable rt a) (toComparable rt b) (toComparable rt c) →
      (ltOperator rt ⟨field, a, c⟩).error = none →
        ((ltOperator rt ⟨field, a, b⟩).matched = true →
          (ltOperator rt ⟨field, b, c⟩).matched = true →
            (ltOperator rt ⟨field, a, c⟩).matched = true) ∧
        ((gtOperator rt ⟨field, a, b⟩).matched = true →
          (gtOperator rt ⟨field, b, c⟩).matched = true →
            (gtOperator rt ⟨field, a, c⟩).matched = true)) ∧
      ((gteOperator rt ⟨field, a, b⟩).matched = true →
        (lteOperator rt ⟨field, a, b⟩).matched = true →
          ((eqOperator rt ⟨field, a, b⟩).matched = true ↔
            (toComparable rt a).kind = (toComparable rt b).kind)) ∧
      ((ltOperator rt ⟨field, a, b⟩).error = none →
        ¬ Untimed (toComparable rt a) (toComparable rt b) →
          (ltOperator rt ⟨field, a, b⟩).matched = !(gteOperator rt ⟨field, a, b⟩).matched) ∧
      (Untimed (toComparable rt a) (toComparable rt b) →
        (ltOperator rt ⟨field, a, b⟩).matched = false ∧
          (gteOperator rt ⟨field, a, b⟩).matched = false) ∧
      (betweenOperator rt ⟨field, a, .array [b, c]⟩).matched =
        ((gteOperator rt ⟨field, a, b⟩).matched && (lteOperator rt ⟨field, a, c⟩).matched) ∧
      (betweenOperator rt ⟨field, a, .array [b, c]⟩).error =
        (gteOperator rt ⟨field, a, b⟩).error.or (lteOperator rt ⟨field, a, c⟩).error := by
  refine ⟨fun hs hac => ⟨?_, ?_⟩, ?_, lt_or_gte, untimed_operators, betweenOperator_eq⟩
  · simp only [ltOperator_matched]
    rintro ⟨p, hab, hp⟩ ⟨q, hbc, hq⟩
    obtain ⟨r, hr⟩ := (cmpOp_error.mp hac).resolve_left (hab.not_untimed hbc)
    exact ⟨r, hr, less_trans hl hs hab hbc hr hp hq⟩
  · simp only [gtOperator_matched]
    rintro ⟨p, hab, hp⟩ ⟨q, hbc, hq⟩
    obtain ⟨r, hr⟩ := (cmpOp_error.mp hac).resolve_left (hab.not_untimed hbc)
    exact ⟨r, hr, greater_trans hl hs hab hbc hr hp hq⟩
  · rw [gteOperator_matched, lteOperator_matched]
    rintro ⟨p, hab, hp⟩ ⟨q, hba, hq⟩
    obtain rfl := hab.unique hba
    obtain rfl : p = 0 := le_antisymm hq hp
    exact valuesEqual_iff_kind hl hab

/-- Two texts and a number between them. -/
theorem numeric_texts_agree :
    (ltOperator Runtime.plain ⟨"total", .string "2", .string "40"⟩).matched = true := by
  have hlaws := ordering_operators_agree Runtime.plain plain_localeCompare "total" (.string "2")
    (.number (.finite 7)) (.string "40")
  have hsame : SameOrder Runtime.plain "2" "40" := by
    rintro m n hm hn
    obtain rfl : (2 : ℚ) = m := Option.some.inj ((by decide +kernel : some (2 : ℚ) = _).trans hm)
    obtain rfl : (40 : ℚ) = n := Option.some.inj ((by decide +kernel : some (40 : ℚ) = _).trans hn)
    exact ⟨by decide +kernel, by decide +kernel⟩
  exact (hlaws.1 hsame (by decide +kernel)).1 (by decide +kernel) (by decide +kernel)

/-- The texts "10" and "9" and the number 10 are ordered in a circle, the text "5" and the number 5
are neither above nor below each other but not equal, and an invalid date is neither below a date nor
not below it. -/
theorem numeric_texts_circle :
    TotalComparison Runtime.plain.localeCompare ∧
      (ltOperator Runtime.plain ⟨"total", .string "10", .string "9"⟩).matched = true ∧
      (ltOperator Runtime.plain ⟨"total", .string "9", .number (.finite 10)⟩).matched = true ∧
      (ltOperator Runtime.plain ⟨"total", .string "10", .number (.finite 10)⟩) =
        ⟨false, "total < 10", none⟩ ∧
      (gteOperator Runtime.plain ⟨"total", .string "5", .number (.finite 5)⟩).matched = true ∧
      (lteOperator Runtime.plain ⟨"total", .string "5", .number (.finite 5)⟩).matched = true ∧
      (eqOperator Runtime.plain ⟨"total", .string "5", .number (.finite 5)⟩).matched = false ∧
      (ltOperator Runtime.plain ⟨"now", .invalidDate, .date 0⟩).error = none ∧
      (ltOperator Runtime.plain ⟨"now", .invalidDate, .date 0⟩).matched = false ∧
      (gteOperator Runtime.plain ⟨"now", .invalidDate, .date 0⟩).matched = false := by
  refine ⟨plain_localeCompare, ?_⟩
  decide +kernel

end ElectronicsCart.Rules
