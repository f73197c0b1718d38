import Mathlib.Algebra.Group.Int.Even
import Mathlib.Algebra.Order.Field.Power
import Mathlib.Data.Int.Log
import Mathlib.Data.Rat.Floor
import Mathlib.Tactic.Linarith
import Mathlib.Tactic.Positivity

/-!
# Rounding to doubles

A double is an integer of at most 53 binary digits times a power of two between `2 ^ -1074` and
`2 ^ 971`.  The result of an operation is the nearest double, and of two the even one.  Overflow is
left to the caller.
-/

namespace Doubles

/-- The exponent of the last digit that is kept of a number. -/
def grain (q : ℚ) : ℤ := max (Int.log 2 |q| - 52) (-1074)

/-- The nearest integer, and of two the even one. -/
def halfEven (x : ℚ) : ℤ :=
  if Int.fract x < 1 / 2 then ⌊x⌋
  else if 1 / 2 < Int.fract x then ⌊x⌋ + 1
  else if 2 ∣ ⌊x⌋ then ⌊x⌋ else ⌊x⌋ + 1

def nearest (q : ℚ) : ℚ := halfEven (q / 2 ^ grain q) * 2 ^ grain q

def overflow : ℚ := 2 ^ 1024

def IsDouble (q : ℚ) : Prop := ∃ m e : ℤ, |m| < 2 ^ 53 ∧ -1074 ≤ e ∧ e ≤ 971 ∧ q = m * 2 ^ e

variable {q x : ℚ}

theorem halfEven_intCast (k : ℤ) : halfEven k = k := by
  simp [halfEven]

theorem abs_halfEven_sub_le (x : ℚ) : |(halfEven x : ℚ) - x| ≤ 1 / 2 := by
  have hx := Int.floor_add_fract x
  have h0 := Int.fract_nonneg x
  have h1 := Int.fract_lt_one x
  unfold halfEven
  rw [abs_le]
  split_ifs <;> push_cast <;> constructor <;> linarith

theorem abs_nearest_sub_le (q : ℚ) : |nearest q - q| ≤ 2 ^ grain q / 2 := by
  have hpos : (0 : ℚ) < 2 ^ grain q := by positivity
  have hq : nearest q - q = (halfEven (q / 2 ^ grain q) - q / 2 ^ grain q) * 2 ^ grain q := by
    rw [nearest, sub_mul, div_mul_cancel₀ q hpos.ne']
  calc |nearest q - q| = |(halfEven (q / 2 ^ grain q) : ℚ) - q / 2 ^ grain q| * 2 ^ grain q := by
        rw [hq, abs_mul, abs_of_pos hpos]
    _ ≤ 1 / 2 * 2 ^ grain q := mul_le_mul_of_nonneg_right (abs_halfEven_sub_le _) hpos.le
    _ = 2 ^ grain q / 2 := by ring

/-- Down to `2 ^ -1022` the error is a fraction `2 ^ -53` of the number. -/
theorem abs_nearest_sub_le_mul (h : (2 : ℚ) ^ (-1022 : ℤ) ≤ |q|) :
    |nearest q - q| ≤ |q| / 2 ^ 53 := by
  have hq : 0 < |q| := lt_of_lt_of_le (by positivity) h
  have hlog : -1022 ≤ Int.log 2 |q| := by
    simpa using (Int.zpow_le_iff_le_log (b := 2) (by decide) hq).mp (by simpa using h)
  have hplace : grain q = Int.log 2 |q| - 52 := max_eq_left (by omega)
  have hle : ((2 : ℕ) : ℚ) ^ Int.log 2 |q| ≤ |q| := Int.zpow_log_le_self (by decide) hq
  calc |nearest q - q| ≤ 2 ^ grain q / 2 := abs_nearest_sub_le q
    _ = 2 ^ Int.log 2 |q| / 2 ^ 53 := by
        rw [hplace, zpow_sub₀ two_ne_zero]
        norm_num
        ring
    _ ≤ |q| / 2 ^ 53 := div_le_div_of_nonneg_right (by simpa using hle) (by positivity)

theorem nearest_nonneg (h : 0 ≤ q) : 0 ≤ nearest q := by
  have hpos : (0 : ℚ) < 2 ^ grain q := by positivity
  have hfloor : 0 ≤ ⌊q / 2 ^ grain q⌋ := Int.floor_nonneg.mpr (div_nonneg h hpos.le)
  have hround : 0 ≤ halfEven (q / 2 ^ grain q) := by
    unfold halfEven
    split_ifs <;> omega
  exact mul_nonneg (by exact_mod_cast hround) hpos.le

/-! ### The numbers that rounding leaves alone -/

theorem overflow_eq : overflow = 2 ^ 53 * 2 ^ (971 : ℤ) := by
  rw [overflow, ← zpow_natCast, ← zpow_natCast, ← zpow_add₀ two_ne_zero]
  norm_num

theorem IsDouble.lt_overflow (h : IsDouble q) : |q| < overflow := by
  obtain ⟨m, e, hm, -, he, rfl⟩ := h
  have hpow : (2 : ℚ) ^ e ≤ 2 ^ (971 : ℤ) := zpow_le_zpow_right₀ (by norm_num) he
  have hcast : |(m : ℚ)| < 2 ^ 53 := by exact_mod_cast hm
  rw [abs_mul, abs_of_pos (show (0 : ℚ) < 2 ^ e by positivity)]
  calc |(m : ℚ)| * 2 ^ e < 2 ^ 53 * 2 ^ e := mul_lt_mul_of_pos_right hcast (by positivity)
    _ ≤ 2 ^ 53 * 2 ^ (971 : ℤ) := mul_le_mul_of_nonneg_left hpow (by positivity)
    _ = overflow := overflow_eq.symm

theorem grain_le {e : ℤ} (hq : q ≠ 0) (he : -1074 ≤ e) (h : |q| < 2 ^ 53 * 2 ^ e) : grain q ≤ e := by
  have hlog : Int.log 2 |q| < 53 + e := by
    rw [← Int.lt_zpow_iff_log_lt (by decide) (abs_pos.mpr hq)]
    simpa [zpow_add₀] using h
  exact max_le (by omega) he

theorem IsDouble.nearest_eq (h : IsDouble q) : nearest q = q := by
  obtain ⟨m, e, hm, he, -, hq⟩ := h
  rcases eq_or_ne q 0 with h0 | h0
  · simp [h0, nearest, halfEven]
  have hcast : |(m : ℚ)| < 2 ^ 53 := by exact_mod_cast hm
  have hplace : grain q ≤ e := by
    refine grain_le h0 he ?_
    rw [hq, abs_mul, abs_of_pos (show (0 : ℚ) < 2 ^ e by positivity)]
    exact mul_lt_mul_of_pos_right hcast (by positivity)
  obtain ⟨n, hn⟩ := Int.eq_ofNat_of_zero_le (sub_nonneg.mpr hplace)
  have hdiv : q / 2 ^ grain q = ((m * 2 ^ n : ℤ) : ℚ) := by
    rw [div_eq_iff (by positivity)]
    push_cast
    rw [mul_assoc, ← zpow_natCast, ← hn, ← zpow_add₀ two_ne_zero, sub_add_cancel, hq]
  rw [nearest, hdiv, halfEven_intCast, ← hdiv, div_mul_cancel₀ q (by positivity)]

theorem isDouble_of_lt {m e : ℤ} (hm : |m| < 2 ^ 53) (he : -1074 ≤ e)
    (h : |(m : ℚ) * 2 ^ e| < overflow) : IsDouble (m * 2 ^ e) := by
  rcases le_total e 971 with hle | hle
  · exact ⟨m, e, hm, he, hle, rfl⟩
  obtain ⟨n, rfl⟩ := Int.le.dest hle
  have hsplit : (m : ℚ) * 2 ^ (971 + (n : ℤ)) = ((m * 2 ^ n : ℤ) : ℚ) * 2 ^ (971 : ℤ) := by
    rw [zpow_add₀ two_ne_zero, zpow_natCast, Int.cast_mul, Int.cast_pow, Int.cast_ofNat,
      mul_comm ((2 : ℚ) ^ (971 : ℤ)), mul_assoc]
  refine ⟨m * 2 ^ n, 971, ?_, by norm_num, le_rfl, hsplit⟩
  rw [hsplit, abs_mul, abs_of_pos (show (0 : ℚ) < 2 ^ (971 : ℤ) by positivity), overflow_eq] at h
  have hlt := lt_of_mul_lt_mul_right h (by positivity)
  exact_mod_cast hlt

theorem abs_halfEven_le {n : ℤ} (h : |x| < n) : |halfEven x| ≤ n := by
  obtain ⟨hlow, hhigh⟩ := abs_lt.mp h
  have hfloor : ⌊x⌋ < n := Int.floor_lt.mpr hhigh
  have hle : -n ≤ ⌊x⌋ := Int.le_floor.mpr (by push_cast; exact hlow.le)
  unfold halfEven
  rw [abs_le]
  split_ifs <;> omega

theorem isDouble_nearest (h : |nearest q| < overflow) : IsDouble (nearest q) := by
  rcases eq_or_ne q 0 with h0 | h0
  · exact ⟨0, 0, by norm_num, by norm_num, by norm_num, by simp [h0, nearest, halfEven]⟩
  have hpos : (0 : ℚ) < 2 ^ grain q := by positivity
  have hlog : |q| < 2 ^ (Int.log 2 |q| + 1) := by
    simpa using Int.lt_zpow_succ_log_self (R := ℚ) (b := 2) (by decide) |q|
  have hdigits : |q / 2 ^ grain q| < ((2 ^ 53 : ℤ) : ℚ) := by
    rw [abs_div, abs_of_pos hpos, div_lt_iff₀ hpos]
    calc |q| < 2 ^ (Int.log 2 |q| + 1) := hlog
      _ ≤ 2 ^ (53 + grain q) := zpow_le_zpow_right₀ (by norm_num) (by unfold grain; omega)
      _ = ((2 ^ 53 : ℤ) : ℚ) * 2 ^ grain q := by rw [zpow_add₀ two_ne_zero]; norm_num
  have hplace : -1074 ≤ grain q := le_max_right _ _
  rcases (abs_halfEven_le hdigits).lt_or_eq with hlt | heq
  · exact isDouble_of_lt hlt hplace h
  -- rounded up to `2 ^ 53` units of the last place
  · obtain ⟨m, hm⟩ : ∃ m, halfEven (q / 2 ^ grain q) = m * 2 := by
      rcases (abs_eq (by norm_num)).mp heq with hq | hq
      · exact ⟨2 ^ 52, hq⟩
      · exact ⟨-2 ^ 52, hq⟩
    have hnearest : nearest q = m * 2 ^ (grain q + 1) := by
      rw [nearest, hm, zpow_add_one₀ two_ne_zero]
      push_cast
      ring
    rw [hnearest] at h ⊢
    rw [hm] at heq
    refine isDouble_of_lt ?_ (by omega) h
    rw [abs_mul] at heq
    norm_num at heq ⊢
    omega

/-! ### Integers -/

theorem isDouble_intCast {z : ℤ} (h : |z| < 2 ^ 53) : IsDouble z :=
  ⟨z, 0, h, by norm_num, by norm_num, by simp⟩

theorem abs_le_abs_mul {z l : ℤ} (hl : l ≠ 0) : |z| ≤ |z * l| := by
  rw [abs_mul]
  exact le_mul_of_one_le_right (abs_nonneg z) (Int.one_le_abs hl)

/-- The powers of two in a product are shared out between its factors. -/
theorem exists_eq_mul_two_pow {k : ℕ} {z l m : ℤ} (hl : l ≠ 0) (h : z * l = m * 2 ^ k) :
    ∃ z' : ℤ, ∃ i ≤ k, z = z' * 2 ^ i ∧ |z'| ≤ |m| := by
  induction k generalizing z l with
  | zero =>
    rw [pow_zero, mul_one] at h
    exact ⟨z, 0, le_rfl, by simp, h ▸ abs_le_abs_mul hl⟩
  | succ k ih =>
    have heven : Even (z * l) := even_iff_two_dvd.mpr ⟨m * 2 ^ k, by rw [h]; ring⟩
    rcases (Int.even_mul.mp heven).imp Even.two_dvd Even.two_dvd with ⟨z₁, rfl⟩ | ⟨l₁, rfl⟩
    · have hhalf : z₁ * l = m * 2 ^ k := by
        rw [pow_succ] at h
        linarith
      obtain ⟨z', i, hi, rfl, hle⟩ := ih hl hhalf
      exact ⟨z', i + 1, by omega, by ring, hle⟩
    · have hhalf : z * l₁ = m * 2 ^ k := by
        rw [pow_succ] at h
        linarith
      obtain ⟨z', i, hi, rfl, hle⟩ := ih (right_ne_zero_of_mul hl) hhalf
      exact ⟨z', i, by omega, rfl, hle⟩

/-- A factor of a double that is an integer is a double. -/
theorem IsDouble.of_mul {z l : ℤ} (hl : l ≠ 0) (h : IsDouble (z * l)) : IsDouble z := by
  obtain ⟨m, e, hm, -, he, heq⟩ := h
  rcases le_total 0 e with h0 | h0
  case inl =>
    obtain ⟨k, rfl⟩ := Int.eq_ofNat_of_zero_le h0
    obtain ⟨z', i, hi, hz, hle⟩ := exists_eq_mul_two_pow hl (m := m) (by exact_mod_cast heq)
    refine ⟨z', i, hle.trans_lt hm, by omega, by omega, ?_⟩
    rw [hz]
    push_cast
    rw [zpow_natCast]
  case inr =>
    refine isDouble_intCast ((abs_le_abs_mul hl).trans_lt ?_)
    have hpow : (2 : ℚ) ^ e ≤ 1 := zpow_le_one_of_nonpos₀ (by norm_num) h0
    have hsmall : |((z * l : ℤ) : ℚ)| < 2 ^ 53 := by
      push_cast
      rw [heq, abs_mul, abs_of_pos (show (0 : ℚ) < 2 ^ e by positivity)]
      calc |(m : ℚ)| * 2 ^ e ≤ |(m : ℚ)| := mul_le_of_le_one_right (abs_nonneg _) hpow
        _ < 2 ^ 53 := by exact_mod_cast hm
    exact_mod_cast hsmall

end Doubles
