import ElectronicsCart.Core.Values
import ElectronicsCart.Lib.Doubles

/-!
# Pagination

`parsePaginationQuery` and `buildPaginationMeta` of `common/utils/pagination.util.ts`.

A page or a limit that is positive is rounded down after that was tested, so a number between 0 and
1 becomes 0.  For all other inputs the pages are numbered from 1, and their windows cover the
indexes below the total, as far as the doubles reach: the offset of a page and the number of pages
are rounded.
-/

namespace ElectronicsCart

open Doubles

/-! ### Windows of a fixed width -/

/-- An index lies in the window of page `p` when pages of `width` indexes are numbered from 1. -/
def InWindow (width p : ℤ) (i : ℕ) : Prop := (p - 1) * width ≤ i ∧ (i : ℤ) < p * width

theorem InWindow.unique {width p p' : ℤ} {i : ℕ} (hwidth : 0 < width) (h : InWindow width p i)
    (h' : InWindow width p' i) : p = p' := by
  have hle : ∀ {a b : ℤ}, InWindow width a i → InWindow width b i → a ≤ b := by
    intro a b ha hb
    have hlt : (a - 1) * width < b * width := lt_of_le_of_lt ha.1 hb.2
    have := lt_of_mul_lt_mul_right hlt hwidth.le
    omega
  exact le_antisymm (hle h h') (hle h' h)

theorem inWindow_div {width : ℤ} (hwidth : 0 < width) (i : ℕ) :
    InWindow width ((i : ℤ) / width + 1) i := by
  constructor
  · have := Int.ediv_mul_le (i : ℤ) hwidth.ne'
    rwa [add_sub_cancel_right]
  · exact Int.lt_ediv_add_one_mul_self _ hwidth

/-- The first `n` windows hold every index below the total. -/
theorem covers_iff {width n : ℤ} {total : ℚ} (hwidth : 0 < width) :
    (∀ i : ℕ, (i : ℚ) < total → ∃! p : ℤ, 1 ≤ p ∧ p ≤ n ∧ InWindow width p i) ↔
      ∀ k : ℕ, (k : ℚ) < total / width → (k : ℤ) < n := by
  have hpos : (0 : ℚ) < width := by exact_mod_cast hwidth
  constructor
  · intro h k hk
    obtain ⟨i, hi⟩ := Int.eq_ofNat_of_zero_le (mul_nonneg (Int.natCast_nonneg k) hwidth.le)
    have hcast : (i : ℚ) = k * width := by exact_mod_cast hi.symm
    obtain ⟨p, ⟨-, hpn, hp⟩, -⟩ := h i (hcast ▸ (lt_div_iff₀ hpos).mp hk)
    have hlt : (k : ℤ) * width < p * width := hi ▸ hp.2
    exact (lt_of_mul_lt_mul_right hlt hwidth.le).trans_le hpn
  · intro h i hi
    have hw := inWindow_div hwidth i
    have hnonneg := Int.ediv_nonneg (Int.natCast_nonneg i) hwidth.le
    refine ⟨(i : ℤ) / width + 1, ⟨by omega, ?_, hw⟩, fun p hp => hp.2.2.unique hwidth hw⟩
    obtain ⟨k, hk⟩ := Int.eq_ofNat_of_zero_le hnonneg
    have hle : ((i : ℤ) / width * width : ℤ) ≤ i := Int.ediv_mul_le _ hwidth.ne'
    rw [hk] at hle ⊢
    refine h k ((lt_div_iff₀ hpos).mpr ?_)
    calc (k : ℚ) * width ≤ i := by exact_mod_cast hle
      _ < total := hi

/-- An index below the total lies after the window of the page. -/
theorem lt_pages_iff {width page : ℤ} {total : ℚ} (hwidth : 0 < width) (hpage : 0 ≤ page) :
    (page : ℚ) < total / width ↔ ∃ i : ℕ, (i : ℚ) < total ∧ page * width ≤ i := by
  have hpos : (0 : ℚ) < width := by exact_mod_cast hwidth
  rw [lt_div_iff₀ hpos]
  constructor
  · intro h
    refine ⟨(page * width).toNat, ?_, Int.self_le_toNat _⟩
    have hcast : (((page * width).toNat : ℤ) : ℚ) = page * width := by
      rw [Int.toNat_of_nonneg (mul_nonneg hpage hwidth.le)]
      push_cast
      rfl
    calc (((page * width).toNat : ℕ) : ℚ) = page * width := by exact_mod_cast hcast
      _ < total := h
  · rintro ⟨i, hi, hle⟩
    calc (page : ℚ) * width = ((page * width : ℤ) : ℚ) := by push_cast; rfl
      _ ≤ i := by exact_mod_cast hle
      _ < total := hi

/-! ### The functions -/

inductive QueryField where
  | missing
  | number (n : JsNumber)
  | text (s : String)

/-- The double nearest to the exact result of an operation. -/
def JsNumber.rounded (q : ℚ) : JsNumber :=
  if |nearest q| < overflow then .finite (nearest q) else .infinity (decide (q < 0))

/-- `Number(value)`. -/
def QueryField.toNumber (rt : Runtime) : QueryField → JsNumber
  | missing => .nan
  | number n => n
  | text s => rt.numberOf s

structure PaginationQueryInput where
  page : QueryField := .missing
  limit : QueryField := .missing

structure PaginationParams where
  page : ℤ
  limit : ℤ
  skip : JsNumber
  take : ℤ
deriving DecidableEq, Repr

structure PaginationMeta where
  page : ℤ
  limit : ℤ
  total : ℚ
  totalPages : JsNumber
  hasNextPage : Bool
  hasPreviousPage : Bool
deriving DecidableEq, Repr

def defaultPage : ℤ := 1
def defaultLimit : ℤ := 20
def maxLimit : ℤ := 100

def toPositiveInt (rt : Runtime) (value : QueryField) (fallback : ℤ) : ℤ :=
  match value.toNumber rt with
  | .finite parsed => if parsed ≤ 0 then fallback else ⌊parsed⌋
  | _ => fallback

/-- `n * l`. -/
def times (n : JsNumber) (l : ℤ) : JsNumber :=
  match n with
  | .finite q => .rounded (q * l)
  | .infinity negative => if l = 0 then .nan else .infinity (negative != decide (l < 0))
  | .nan => .nan

def parsePaginationQuery (rt : Runtime) (input : PaginationQueryInput) : PaginationParams :=
  let page := toPositiveInt rt input.page defaultPage
  let limit := min (toPositiveInt rt input.limit defaultLimit) maxLimit
  { page, limit, skip := times (.rounded (page - 1)) limit, take := limit }

/-- `a / b`. -/
def divide (a b : ℚ) : JsNumber :=
  if b = 0 then if a = 0 then .nan else .infinity (decide (a < 0)) else .rounded (a / b)

/-- `Math.ceil`. -/
def JsNumber.ceil : JsNumber → JsNumber
  | finite q => finite ⌈q⌉
  | n => n

/-- `page < n`. -/
def before (page : ℤ) : JsNumber → Bool
  | .finite q => decide ((page : ℚ) < q)
  | .nan => false
  | .infinity negative => !negative

def buildPaginationMeta (page limit : ℤ) (total : ℚ) : PaginationMeta :=
  let totalPages := if 0 < total then (divide total limit).ceil else .finite 0
  { page, limit, total, totalPages
    hasNextPage := before page totalPages
    hasPreviousPage := decide (1 < page) }

/-! ### What the pages are for -/

/-- The parameters name a page, and with their limit the pages cover the indexes below the total. -/
structure Paginates (params : PaginationParams) (total : ℚ) : Prop where
  page : 1 ≤ params.page
  limit : 1 ≤ params.limit ∧ params.limit ≤ 100
  skip : params.skip = .finite ((params.page - 1) * params.limit) ∧
    0 ≤ (params.page - 1) * params.limit
  pages : ∃ n : ℤ, (buildPaginationMeta params.page params.limit total).totalPages = .finite n ∧
    ∀ i : ℕ, (i : ℚ) < total → ∃! p : ℤ, 1 ≤ p ∧ p ≤ n ∧ InWindow params.limit p i
  hasNextPage : (buildPaginationMeta params.page params.limit total).hasNextPage = true ↔
    ∃ i : ℕ, (i : ℚ) < total ∧ params.page * params.limit ≤ i

def BelowOne : JsNumber → Prop
  | .finite q => 0 < q ∧ q < 1
  | _ => False

/-- Rounding does not move the number down to or past an integer, nor up past the page. -/
def SameSide (page : ℤ) (x : ℚ) : JsNumber → Prop
  | .finite y => (∀ k : ℕ, (k : ℚ) < x → (k : ℚ) < y) ∧ ((page : ℚ) < y → (page : ℚ) < x)
  | _ => False

theorem one_le_toPositiveInt {rt : Runtime} {value : QueryField} {fallback : ℤ}
    (hfallback : 1 ≤ fallback) :
    1 ≤ toPositiveInt rt value fallback ↔ ¬ BelowOne (value.toNumber rt) := by
  unfold toPositiveInt
  cases value.toNumber rt with
  | finite q =>
    simp only [BelowOne]
    split
    next hq => exact iff_of_true hfallback fun h => absurd h.1 (not_lt.mpr hq)
    next hq =>
      rw [Int.le_floor, Int.cast_one, not_and, not_lt]
      exact ⟨fun h _ => h, fun h => h (not_le.mp hq)⟩
  | nan => simpa only [BelowOne, not_false_eq_true, iff_true] using hfallback
  | infinity b => simpa only [BelowOne, not_false_eq_true, iff_true] using hfallback

theorem rounded_eq {q : ℚ} (h : IsDouble q) : JsNumber.rounded q = .finite q := by
  rw [JsNumber.rounded, h.nearest_eq, if_pos h.lt_overflow]

theorem isDouble_of_rounded {q r : ℚ} (h : JsNumber.rounded q = .finite r) : IsDouble r := by
  unfold JsNumber.rounded at h
  split at h
  next hlt =>
    obtain rfl := JsNumber.finite.inj h
    exact isDouble_nearest hlt
  next => nomatch h

/-- The offset of a page is exact when it is a double, as then the number before the page is one. -/
theorem skip_eq_iff {page limit : ℤ} (hlimit : 1 ≤ limit) :
    times (.rounded (page - 1)) limit = .finite ((page - 1) * limit) ↔
      IsDouble ((page - 1) * limit) := by
  have hne : limit ≠ 0 := by omega
  constructor
  · intro h
    unfold times at h
    split at h
    · exact isDouble_of_rounded h
    · rw [if_neg hne] at h
      nomatch h
    · nomatch h
  · intro h
    have hbefore : IsDouble ((page : ℚ) - 1) := by
      have hcast : IsDouble (((page - 1 : ℤ) : ℚ) * limit) := by
        push_cast
        exact h
      simpa using hcast.of_mul hne
    rw [rounded_eq hbefore, times, rounded_eq h]

theorem totalPages_eq {page limit : ℤ} {total : ℚ} (hlimit : 1 ≤ limit) :
    (buildPaginationMeta page limit total).totalPages =
      if 0 < total then (JsNumber.rounded (total / limit)).ceil else .finite 0 := by
  have hne : (limit : ℚ) ≠ 0 := by exact_mod_cast (show limit ≠ 0 by omega)
  simp only [buildPaginationMeta, divide, if_neg hne]

theorem not_lt_total {total : ℚ} (h : ¬ 0 < total) (i : ℕ) : ¬ (i : ℚ) < total := by
  have : (0 : ℚ) ≤ i := by positivity
  linarith

/-- The pages cover the indexes below the total, and tell whether some come after the page, when
rounding keeps the quotient on its side of the integers. -/
theorem pages_iff {page limit : ℤ} {total : ℚ} (hpage : 1 ≤ page) (hlimit : 1 ≤ limit) :
    ((∃ n : ℤ, (buildPaginationMeta page limit total).totalPages = .finite n ∧
      ∀ i : ℕ, (i : ℚ) < total → ∃! p : ℤ, 1 ≤ p ∧ p ≤ n ∧ InWindow limit p i) ∧
      ((buildPaginationMeta page limit total).hasNextPage = true ↔
        ∃ i : ℕ, (i : ℚ) < total ∧ page * limit ≤ i)) ↔
      (0 < total → SameSide page (total / limit) (.rounded (total / limit))) := by
  have hpos : 0 < limit := by omega
  have hnext : (buildPaginationMeta page limit total).hasNextPage =
      before page (buildPaginationMeta page limit total).totalPages := rfl
  rw [hnext, totalPages_eq hlimit]
  by_cases htotal : 0 < total
  case neg =>
    simp only [htotal, if_false, false_imp_iff, iff_true]
    refine ⟨⟨0, rfl, fun i hi => absurd hi (not_lt_total htotal i)⟩, iff_of_false ?_ ?_⟩
    · rw [before, decide_eq_true_eq, ← Int.cast_zero, Int.cast_lt]
      omega
    · rintro ⟨i, hi, -⟩
      exact not_lt_total htotal i hi
  case pos =>
    rw [if_pos htotal, ← lt_pages_iff hpos (by omega), imp_iff_right htotal]
    cases JsNumber.rounded (total / limit) with
    | nan => exact iff_of_false (fun h => nomatch h.1.choose_spec.1) id
    | infinity b => exact iff_of_false (fun h => nomatch h.1.choose_spec.1) id
    | finite y =>
      simp only [covers_iff hpos, JsNumber.ceil, before, SameSide, decide_eq_true_eq, Int.cast_lt,
        Int.lt_ceil, JsNumber.finite.injEq, Int.cast_inj, exists_eq_left', Int.cast_natCast]
      constructor
      · rintro ⟨hcovers, hafter⟩
        exact ⟨hcovers, hafter.mp⟩
      · rintro ⟨hcovers, hafter⟩
        refine ⟨hcovers, hafter, fun h => ?_⟩
        obtain ⟨k, rfl⟩ := Int.eq_ofNat_of_zero_le (show 0 ≤ page by omega)
        exact_mod_cast hcovers k (by exact_mod_cast h)

def pageOf (rt : Runtime) (input : PaginationQueryInput) : ℤ :=
  toPositiveInt rt input.page defaultPage

def limitOf (rt : Runtime) (input : PaginationQueryInput) : ℤ :=
  min (toPositiveInt rt input.limit defaultLimit) maxLimit

/-- The pages are well numbered exactly when neither the page nor the limit is between 0 and 1, the
offset of the page is a double, and rounding the number of pages does not change what it says. -/
theorem paginates_iff (rt : Runtime) (input : PaginationQueryInput) (total : ℚ) :
    Paginates (parsePaginationQuery rt input) total ↔
      ¬ BelowOne (input.page.toNumber rt) ∧ ¬ BelowOne (input.limit.toNumber rt) ∧
        IsDouble ((pageOf rt input - 1) * limitOf rt input) ∧
          (0 < total → SameSide (pageOf rt input) (total / limitOf rt input)
            (.rounded (total / limitOf rt input))) := by
  have hp := @one_le_toPositiveInt rt input.page defaultPage (by decide)
  have hl := @one_le_toPositiveInt rt input.limit defaultLimit (by decide)
  rw [← hp, ← hl]
  constructor
  · intro h
    have hlimit : 1 ≤ limitOf rt input := h.limit.1
    exact ⟨h.page, (le_min_iff.mp hlimit).1, (skip_eq_iff hlimit).mp h.skip.1,
      (pages_iff h.page hlimit).mp ⟨h.pages, h.hasNextPage⟩⟩
  · rintro ⟨hpage, hlimit, hskip, hside⟩
    replace hlimit : 1 ≤ limitOf rt input := le_min hlimit (by decide)
    replace hpage : 1 ≤ pageOf rt input := hpage
    obtain ⟨hpages, hnext⟩ := (pages_iff hpage hlimit).mpr hside
    constructor
    case page => exact hpage
    case limit => exact ⟨hlimit, min_le_right _ _⟩
    case skip =>
      exact ⟨(skip_eq_iff hlimit).mpr hskip, mul_nonneg (sub_nonneg.mpr hpage) (zero_le_one.trans hlimit)⟩
    case pages => exact hpages
    case hasNextPage => exact hnext

/-- The page `0.5` becomes page 0, with a negative offset. -/
theorem half_page : ¬ Paginates (parsePaginationQuery .plain { page := .text "0.5" }) 55 := by
  intro h
  have hskip : (parsePaginationQuery .plain { page := .text "0.5" }).page = 0 := by decide +kernel
  have := hskip ▸ h.page
  omega

/-- The number of pages of fewer than `2 ^ 53` rows is rounded by less than the distance of the
quotient from another integer. -/
theorem rounded_toward {x : ℚ} {width total : ℕ} (hwidth : 1 ≤ width) (hmax : width ≤ 100)
    (hpos : 0 < total) (htotal : total < 2 ^ 53) (hx : x * width = total) {k : ℤ} :
    ((k : ℚ) < x → (k : ℚ) < nearest x) ∧ (x < k → nearest x < k) := by
  have hw : (0 : ℚ) < width := by exact_mod_cast hwidth
  have hcount : (1 : ℚ) ≤ x * width := by rw [hx]; exact_mod_cast hpos
  have hx0 : 0 < x := pos_of_mul_pos_left (zero_lt_one.trans_le hcount) hw.le
  have hnormal : (2 : ℚ) ^ (-1022 : ℤ) ≤ |x| := by
    have hle : (width : ℚ) ≤ 100 := by exact_mod_cast hmax
    rw [abs_of_pos hx0]
    refine le_of_mul_le_mul_right ?_ hw
    calc (2 : ℚ) ^ (-1022 : ℤ) * width ≤ 2 ^ (-7 : ℤ) * 100 :=
          mul_le_mul (zpow_le_zpow_right₀ (by norm_num) (by norm_num)) hle hw.le (by positivity)
      _ ≤ 1 := by norm_num
      _ ≤ x * width := hcount
  have herror : |nearest x * width - total| < 1 := by
    calc |nearest x * width - total| = |nearest x - x| * width := by
          rw [← hx, ← sub_mul, abs_mul, abs_of_pos hw]
      _ ≤ |x| / 2 ^ 53 * width :=
          mul_le_mul_of_nonneg_right (abs_nearest_sub_le_mul hnormal) hw.le
      _ = total / 2 ^ 53 := by rw [abs_of_pos hx0, div_mul_eq_mul_div, hx]
      _ < 1 := by rw [div_lt_one (by positivity)]; exact_mod_cast htotal
  obtain ⟨hlow, hhigh⟩ := abs_lt.mp herror
  constructor <;> intro hk <;> refine lt_of_mul_lt_mul_right ?_ hw.le
  · have hlt : (k : ℚ) * width < total := hx ▸ mul_lt_mul_of_pos_right hk hw
    have hnext : (k * width + 1 : ℚ) ≤ total := by exact_mod_cast hlt
    linarith
  · have hlt : (total : ℚ) < k * width := hx ▸ mul_lt_mul_of_pos_right hk hw
    have hnext : (total + 1 : ℚ) ≤ k * width := by exact_mod_cast hlt
    linarith

/-- Fewer than `2 ^ 53` rows make a number of pages that rounding leaves on its side. -/
theorem sameSide_of_count {page : ℤ} {width total : ℕ} (hpage : |page| < 2 ^ 53) (hwidth : 1 ≤ width)
    (hmax : width ≤ 100) (hpos : 0 < total) (htotal : total < 2 ^ 53) :
    SameSide page (total / width) (.rounded (total / width)) := by
  have hw : (1 : ℚ) ≤ width := by exact_mod_cast hwidth
  have hx : (total / width : ℚ) * width = total := div_mul_cancel₀ _ (by positivity)
  have hround := fun k => @rounded_toward _ width total hwidth hmax hpos htotal hx k
  have hfinite : |nearest ((total : ℚ) / width)| < overflow := by
    have hle : (total : ℚ) / width ≤ total := div_le_self (by positivity) hw
    have hlt := (hround (total + 1)).2 (by push_cast; linarith)
    rw [abs_of_nonneg (nearest_nonneg (by positivity))]
    calc nearest (total / width) < ((total + 1 : ℤ) : ℚ) := hlt
      _ ≤ 2 ^ 53 := by exact_mod_cast htotal
      _ ≤ overflow := by rw [overflow]; exact pow_le_pow_right₀ (by norm_num) (by norm_num)
  rw [JsNumber.rounded, if_pos hfinite]
  refine ⟨fun k hk => ?_, fun hafter => ?_⟩
  · exact_mod_cast (hround k).1 (by exact_mod_cast hk)
  · by_contra hle
    rcases (not_lt.mp hle).lt_or_eq with hlt | heq
    · exact lt_asymm hafter ((hround page).2 hlt)
    · rw [heq, (isDouble_intCast hpage).nearest_eq] at hafter
      exact lt_irrefl _ hafter

/-- For pages up to `2 ^ 46` of fewer than `2 ^ 53` rows rounding makes no difference. -/
theorem paginates_of_small (rt : Runtime) (input : PaginationQueryInput) {total : ℕ}
    (hpage : pageOf rt input ≤ 2 ^ 46) (htotal : total < 2 ^ 53) :
    Paginates (parsePaginationQuery rt input) total ↔
      ¬ BelowOne (input.page.toNumber rt) ∧ ¬ BelowOne (input.limit.toNumber rt) := by
  rw [paginates_iff]
  refine ⟨fun h => ⟨h.1, h.2.1⟩, fun ⟨hpage1, hlimit1⟩ => ⟨hpage1, hlimit1, ?_, fun hpos => ?_⟩⟩
  all_goals
    replace hpage1 : 1 ≤ pageOf rt input := (one_le_toPositiveInt (by decide)).mpr hpage1
    replace hlimit1 : 1 ≤ limitOf rt input :=
      le_min ((one_le_toPositiveInt (by decide)).mpr hlimit1) (by decide)
    have hmax : limitOf rt input ≤ 100 := min_le_right _ _
  · have hnonneg : 0 ≤ (pageOf rt input - 1) * limitOf rt input :=
      mul_nonneg (by omega) (by omega)
    have hle : (pageOf rt input - 1) * limitOf rt input ≤ 2 ^ 46 * 100 :=
      mul_le_mul (by omega) hmax (by omega) (by omega)
    have hdouble := isDouble_intCast (z := (pageOf rt input - 1) * limitOf rt input)
      (by rw [abs_of_nonneg hnonneg]; omega)
    exact_mod_cast hdouble
  · obtain ⟨width, hwidth⟩ := Int.eq_ofNat_of_zero_le (show 0 ≤ limitOf rt input by omega)
    rw [hwidth] at hlimit1 hmax ⊢
    exact sameSide_of_count (by rw [abs_of_nonneg] <;> omega) (by omega) (by omega)
      (by exact_mod_cast hpos) htotal

end ElectronicsCart
