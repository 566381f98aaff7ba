import Mathlib.Algebra.Order.Field.Power
import Mathlib.Algebra.Order.Round
import Mathlib.Data.Int.Log
import Mathlib.Data.Rat.Floor
import Mathlib.Tactic.FieldSimp
import Mathlib.Tactic.Linarith
import Mathlib.Tactic.NormNum
import Mathlib.Tactic.Positivity
import Mathlib.Tactic.Ring

/-!
# Numbers of double precision

A double is a rational of 53 binary digits, `nearest` the one a rational is rounded to.  What
is too large becomes `huge` or its negative, which stand for the infinities; there is one zero,
without a sign, and no NaN.

A number that is off by less than one part in `2 ^ 54` is rounded to the double it came from
(`nearest_of_close`).  Of 17 decimal digits the error is that small, so they are enough to find
a double again (`nearest_decimal`).
-/

namespace Growbox.Double

/-- The nearest integer; of two, the even one. -/
def roundEven (x : Rat) : Int :=
  if 2 * (x - ⌊x⌋) < 1 then ⌊x⌋
  else if 1 < 2 * (x - ⌊x⌋) then ⌊x⌋ + 1
  else if ⌊x⌋ % 2 = 0 then ⌊x⌋ else ⌊x⌋ + 1

/-- The exponent of the last of 53 binary digits. -/
def lastBit (x : Rat) : Int := max (Int.log 2 |x| - 52) (-1074)

/-- Stands for infinity: no double is as large. -/
def huge : Rat := 2 ^ 1024

def nearest (x : Rat) : Rat :=
  let y : Rat := roundEven (x / 2 ^ lastBit x) * 2 ^ lastBit x
  if |y| < huge then y else if 0 < x then huge else -huge

/-- `m * 2 ^ e`, with `m` of at most 53 binary digits. -/
def IsDouble (x : Rat) : Prop :=
  ∃ m e : Int, |m| < 2 ^ 53 ∧ -1074 ≤ e ∧ e ≤ 971 ∧ x = m * 2 ^ e

/-- `|x|` in `p` decimal digits, and the power of ten of the first of them. -/
def decimal (p : Nat) (x : Rat) : Int × Int :=
  let k := Int.log 10 |x|
  let n := roundEven (|x| / 10 ^ (k - p + 1))
  if n = 10 ^ p then (10 ^ (p - 1), k + 1) else (n, k)

/-- The number that the digits stand for. -/
def decimalValue (p : Nat) (x : Rat) : Rat :=
  (if x < 0 then -1 else 1) * (decimal p x).1 * 10 ^ ((decimal p x).2 - p + 1)

/-! ## Rounding -/

theorem roundEven_cases (x : Rat) :
    (roundEven x = ⌊x⌋ ∧ 2 * (x - ⌊x⌋) ≤ 1) ∨ (roundEven x = ⌊x⌋ + 1 ∧ 1 ≤ 2 * (x - ⌊x⌋)) := by
  unfold roundEven
  split_ifs with hlow hhigh heven
  · exact .inl ⟨rfl, hlow.le⟩
  · exact .inr ⟨rfl, hhigh.le⟩
  · exact .inl ⟨rfl, not_lt.mp hhigh⟩
  · exact .inr ⟨rfl, not_lt.mp hlow⟩

/-- Half a unit is the most that rounding changes. -/
theorem abs_roundEven_sub_le (x : Rat) : |roundEven x - x| ≤ 1 / 2 := by
  have hfloor := Int.floor_le x
  have hnext := Int.lt_floor_add_one x
  rw [abs_le]
  rcases roundEven_cases x with ⟨h, hle⟩ | ⟨h, hle⟩ <;> rw [h]
  · constructor <;> linarith
  · push_cast
    constructor <;> linarith

theorem roundEven_eq {x : Rat} {m : Int} (h : |x - m| < 1 / 2) : roundEven x = m := by
  have hround := abs_roundEven_sub_le x
  rw [abs_lt] at h
  rw [abs_le] at hround
  have hlow : (roundEven x : Rat) < m + 1 := by linarith
  have hhigh : (m : Rat) < roundEven x + 1 := by linarith
  have hlow' : roundEven x < m + 1 := by exact_mod_cast hlow
  have hhigh' : m < roundEven x + 1 := by exact_mod_cast hhigh
  omega

/-! ## Doubles -/

theorem zpow_pos' (e : Int) : (0 : Rat) < 2 ^ e := by positivity

theorem isDouble_zero : IsDouble 0 := ⟨0, 0, by norm_num, by norm_num, by norm_num, by simp⟩

theorem IsDouble.abs_lt_huge {x : Rat} (h : IsDouble x) : |x| < huge := by
  obtain ⟨m, e, hm, -, he, rfl⟩ := h
  have hm' : |(m : Rat)| < 2 ^ 53 := by exact_mod_cast hm
  have he' : (2 : Rat) ^ e ≤ 2 ^ (971 : Int) := zpow_le_zpow_right₀ (by norm_num) he
  rw [abs_mul, abs_of_pos (zpow_pos' e)]
  calc |(m : Rat)| * 2 ^ e < 2 ^ 53 * 2 ^ e := mul_lt_mul_of_pos_right hm' (zpow_pos' e)
    _ ≤ 2 ^ 53 * 2 ^ (971 : Int) := mul_le_mul_of_nonneg_left he' (by positivity)
    _ = huge := by rw [huge, ← zpow_natCast, ← zpow_natCast, ← zpow_add₀ two_ne_zero]; norm_num

theorem lastBit_ge (x : Rat) : -1074 ≤ lastBit x := le_max_right _ _

/-- A number is below `2 ^ 53` units of its last digit. -/
theorem abs_lt_lastBit (x : Rat) : |x| < 2 ^ (lastBit x + 53) := by
  have h := Int.lt_zpow_succ_log_self (R := Rat) one_lt_two |x|
  refine h.trans_le (zpow_le_zpow_right₀ one_le_two ?_)
  have := le_max_left (Int.log 2 |x| - 52) (-1074)
  unfold lastBit
  omega

/-- A double is an integer in units of its last digit, and of any smaller one. -/
theorem IsDouble.exists_units {x : Rat} (h : IsDouble x) {e : Int} (he : e ≤ lastBit x) :
    ∃ m : Int, x = m * 2 ^ e := by
  obtain ⟨m, e', hm, hlow, -, hx⟩ := h
  have hle : e ≤ e' ∨ x = 0 := by
    rcases eq_or_ne m 0 with rfl | hne
    · right
      rw [hx, Int.cast_zero, zero_mul]
    · left
      refine he.trans (max_le ?_ hlow)
      have hm' : |(m : Rat)| < 2 ^ 53 := by exact_mod_cast hm
      have hpos : 0 < |x| := by
        rw [hx, abs_mul]
        have : (m : Rat) ≠ 0 := by exact_mod_cast hne
        positivity
      have hlt : |x| < ((2 : Nat) : Rat) ^ (53 + e') := by
        rw [hx, abs_mul, abs_of_pos (zpow_pos' e'), Nat.cast_ofNat, zpow_add₀ two_ne_zero]
        exact mul_lt_mul_of_pos_right (by exact_mod_cast hm') (zpow_pos' e')
      have := (Int.lt_zpow_iff_log_lt one_lt_two hpos).mp hlt
      omega
  rcases hle with hle | rfl
  · refine ⟨m * 2 ^ (e' - e).toNat, ?_⟩
    have hexp : (2 : Rat) ^ e' = 2 ^ (e' - e).toNat * 2 ^ e := by
      rw [← zpow_natCast, Int.toNat_of_nonneg (by omega), ← zpow_add₀ two_ne_zero, sub_add_cancel]
    rw [hx, hexp]
    push_cast
    ring
  · exact ⟨0, by simp⟩

theorem isDouble_intCast {n : Int} (h : |n| < 2 ^ 53) : IsDouble n :=
  ⟨n, 0, h, by norm_num, by norm_num, by simp⟩

theorem isDouble_natCast {n : Nat} (h : n < 2 ^ 53) : IsDouble (n : Nat) := by
  exact_mod_cast isDouble_intCast (n := n) (by simpa using h)

/-- A double again: what is rounded up to `2 ^ 53` units has one digit less. -/
theorem isDouble_of_units {n e : Int} (hn : |n| ≤ 2 ^ 53) (hlow : -1074 ≤ e) (hhigh : e ≤ 971)
    (hlt : |(n : Rat) * 2 ^ e| < huge) : IsDouble (n * 2 ^ e) := by
  rcases hn.lt_or_eq with hn | hn
  · exact ⟨n, e, hn, hlow, hhigh, rfl⟩
  have hcast : |(n : Rat)| = 2 ^ 53 := by exact_mod_cast hn
  have hnext : e + 1 ≤ 971 := by
    by_contra hge
    obtain rfl : e = 971 := by omega
    rw [abs_mul, hcast, abs_of_pos (zpow_pos' 971)] at hlt
    refine hlt.ne ?_
    rw [huge, ← zpow_natCast, ← zpow_natCast, ← zpow_add₀ two_ne_zero]
    norm_num
  have hhalf : (n : Rat) * 2 ^ e = ((n / 2 : Int) : Rat) * 2 ^ (e + 1) := by
    have heven : n = n / 2 * 2 := by
      rcases abs_eq (by norm_num : (0 : Int) ≤ 2 ^ 53) |>.mp hn with h | h <;> rw [h] <;> norm_num
    have hcast' : (n : Rat) = ((n / 2 : Int) : Rat) * 2 := by exact_mod_cast congrArg (Int.cast : Int → Rat) heven
    rw [zpow_add₀ two_ne_zero, zpow_one, hcast']
    ring_nf
  refine hhalf ▸ ⟨n / 2, e + 1, ?_, by omega, hnext, rfl⟩
  rcases abs_eq (by norm_num : (0 : Int) ≤ 2 ^ 53) |>.mp hn with h | h <;> rw [h] <;> norm_num

/-- **What a number is rounded to** is a double or too large for one. -/
theorem isDouble_nearest (x : Rat) : IsDouble (nearest x) ∨ |nearest x| = huge := by
  have hpos := zpow_pos' (lastBit x)
  have hunits : |x / 2 ^ lastBit x| < 2 ^ 53 := by
    rw [abs_div, abs_of_pos hpos, div_lt_iff₀ hpos, ← zpow_natCast, ← zpow_add₀ two_ne_zero, add_comm]
    exact abs_lt_lastBit x
  have hround := abs_le.mp (abs_roundEven_sub_le (x / 2 ^ lastBit x))
  have hunits' := abs_lt.mp hunits
  unfold nearest
  dsimp only
  split_ifs with hlt hsign
  · left
    have hn : |roundEven (x / 2 ^ lastBit x)| ≤ 2 ^ 53 := by
      rw [abs_le]
      have hhigh : ((roundEven (x / 2 ^ lastBit x) : Int) : Rat) < 2 ^ 53 + 1 := by linarith
      have hlow : -(2 ^ 53 + 1) < ((roundEven (x / 2 ^ lastBit x) : Int) : Rat) := by linarith
      have hhigh' : roundEven (x / 2 ^ lastBit x) < 2 ^ 53 + 1 := by exact_mod_cast hhigh
      have hlow' : -(2 ^ 53 + 1) < roundEven (x / 2 ^ lastBit x) := by exact_mod_cast hlow
      omega
    refine isDouble_of_units hn (lastBit_ge x) ?_ hlt
    -- else there would be 52 digits in front of the last one, and they are too many
    by_contra hge
    have hlast : lastBit x = Int.log 2 |x| - 52 := by
      have := lastBit_ge x
      unfold lastBit at hge ⊢
      omega
    have hx : 0 < |x| := by
      rw [abs_pos]
      rintro rfl
      rw [hlast, abs_zero, Int.log_zero_right] at hge
      omega
    have hlog := Int.zpow_log_le_self (R := Rat) one_lt_two hx
    have hmany : (2 : Rat) ^ 52 ≤ |x / 2 ^ lastBit x| := by
      rw [abs_div, abs_of_pos hpos, le_div_iff₀ hpos, ← zpow_natCast, ← zpow_add₀ two_ne_zero, hlast]
      simpa using hlog
    have hn' : (2 : Rat) ^ 52 ≤ |((roundEven (x / 2 ^ lastBit x) : Int) : Rat)| := by
      have hclose : |x / 2 ^ lastBit x| - 1 / 2 ≤ |((roundEven (x / 2 ^ lastBit x) : Int) : Rat)| := by
        have := abs_sub_abs_le_abs_sub (x / 2 ^ lastBit x) (roundEven (x / 2 ^ lastBit x))
        rw [abs_sub_comm] at this
        linarith [abs_roundEven_sub_le (x / 2 ^ lastBit x)]
      have hgt : (2 : Rat) ^ 52 - 1 < |((roundEven (x / 2 ^ lastBit x) : Int) : Rat)| := by linarith
      have hgt' : (2 : Int) ^ 52 - 1 < |roundEven (x / 2 ^ lastBit x)| := by exact_mod_cast hgt
      exact_mod_cast (by omega : (2 : Int) ^ 52 ≤ |roundEven (x / 2 ^ lastBit x)|)
    refine absurd hlt (not_lt.mpr ?_)
    have he : (2 : Rat) ^ (972 : Int) ≤ 2 ^ lastBit x := zpow_le_zpow_right₀ (by norm_num) (by omega)
    calc huge = 2 ^ 52 * 2 ^ (972 : Int) := by
          rw [huge, ← zpow_natCast, ← zpow_natCast, ← zpow_add₀ two_ne_zero]
          norm_num
      _ ≤ |((roundEven (x / 2 ^ lastBit x) : Int) : Rat)| * 2 ^ lastBit x :=
          mul_le_mul hn' he (by positivity) (abs_nonneg _)
      _ = |((roundEven (x / 2 ^ lastBit x) : Int) : Rat) * 2 ^ lastBit x| := by
          rw [abs_mul, abs_of_pos hpos]
  · exact .inr (abs_of_pos (by unfold huge; positivity))
  · right
    rw [abs_neg]
    exact abs_of_pos (by unfold huge; positivity)

/-- Within half a unit of the last digit, a double is the nearest one. -/
theorem nearest_of_lastBit {d q : Rat} (hd : IsDouble d) (hle : lastBit q ≤ lastBit d)
    (hclose : |q - d| < 2 ^ (lastBit q - 1)) : nearest q = d := by
  obtain ⟨m, hm⟩ := hd.exists_units hle
  have hround : roundEven (q / 2 ^ lastBit q) = m := by
    apply roundEven_eq
    have heq : q / 2 ^ lastBit q - m = (q - d) / 2 ^ lastBit q := by
      rw [hm, sub_div, mul_div_cancel_right₀ _ (zpow_pos' _).ne']
    rw [heq, abs_div, abs_of_pos (zpow_pos' _), div_lt_iff₀ (zpow_pos' _)]
    calc |q - d| < 2 ^ (lastBit q - 1) := hclose
      _ = 1 / 2 * 2 ^ lastBit q := by rw [zpow_sub_one₀ two_ne_zero]; ring
  unfold nearest
  rw [hround, ← hm]
  exact if_pos hd.abs_lt_huge

theorem IsDouble.nearest_eq {d : Rat} (h : IsDouble d) : nearest d = d :=
  nearest_of_lastBit h le_rfl (by rw [sub_self, abs_zero]; exact zpow_pos' _)

/-- The logarithm of a number that is close to another. -/
theorem log_of_close {d q : Rat} (hd : d ≠ 0) (hclose : |q - d| * 2 ^ 54 < |d|) :
    q ≠ 0 ∧ Int.log 2 |d| ≤ Int.log 2 |q| + 1 := by
  have hpos : 0 < |d| := abs_pos.mpr hd
  have hsub := abs_sub_abs_le_abs_sub d q
  rw [abs_sub_comm] at hsub
  have hhalf : |d| / 2 < |q| := by linarith
  have hq : 0 < |q| := by linarith
  refine ⟨abs_pos.mp hq, ?_⟩
  have hlow := Int.zpow_log_le_self (R := Rat) one_lt_two hpos
  have hle : ((2 : Nat) : Rat) ^ (Int.log 2 |d| - 1) ≤ |q| := by
    rw [zpow_sub_one₀ (by norm_num)]
    push_cast at hlow ⊢
    linarith
  have := (Int.zpow_le_iff_le_log one_lt_two hq).mp hle
  omega

/-- Two numbers of the same unit are a unit apart. -/
theorem add_unit_le {m n e : Int} (h : (m : Rat) * 2 ^ e < n * 2 ^ e) : (m : Rat) * 2 ^ e + 2 ^ e ≤ n * 2 ^ e := by
  have hlt : m < n := by exact_mod_cast lt_of_mul_lt_mul_right h (zpow_pos' e).le
  have hle : (m : Rat) + 1 ≤ n := by exact_mod_cast hlt
  calc (m : Rat) * 2 ^ e + 2 ^ e = (m + 1) * 2 ^ e := by ring
    _ ≤ n * 2 ^ e := mul_le_mul_of_nonneg_right hle (zpow_pos' e).le

theorem zpow_units {c e : Int} (h : e ≤ c) : (2 : Rat) ^ c = ((2 ^ (c - e).toNat : Int) : Rat) * 2 ^ e := by
  push_cast
  rw [← zpow_natCast, Int.toNat_of_nonneg (by omega), ← zpow_add₀ two_ne_zero, sub_add_cancel]

/-- A double that is no 0 has at least one unit of its last digit. -/
theorem IsDouble.lastBit_le_log {d : Rat} (h : IsDouble d) (hd : d ≠ 0) : lastBit d ≤ Int.log 2 |d| := by
  obtain ⟨m, hm⟩ := h.exists_units le_rfl
  have hne : m ≠ 0 := by
    rintro rfl
    exact hd (by rw [hm, Int.cast_zero, zero_mul])
  have hone : (1 : Rat) ≤ |(m : Rat)| := by exact_mod_cast Int.one_le_abs hne
  apply (Int.zpow_le_iff_le_log one_lt_two (abs_pos.mpr hd)).mp
  calc ((2 : Nat) : Rat) ^ lastBit d = 1 * 2 ^ lastBit d := by rw [one_mul, Nat.cast_ofNat]
    _ ≤ |(m : Rat)| * 2 ^ lastBit d := mul_le_mul_of_nonneg_right hone (zpow_pos' _).le
    _ = |d| := by conv_rhs => rw [hm, abs_mul, abs_of_pos (zpow_pos' _)]

/-- **A double is the nearest** to whatever is off by less than one part in `2 ^ 54`. -/
theorem nearest_of_close {d q : Rat} (h : IsDouble d) (hclose : |q - d| * 2 ^ 54 < |d|) :
    nearest q = d := by
  have hpos : 0 < |d| := lt_of_le_of_lt (by positivity) hclose
  have hd : d ≠ 0 := abs_pos.mp hpos
  obtain ⟨hq, hlog⟩ := log_of_close hd hclose
  have hqpos : 0 < |q| := abs_pos.mpr hq
  have hunit := h.lastBit_le_log hd
  obtain ⟨m, hm⟩ := h.exists_units le_rfl
  have habs : |d| = (|m| : Int) * 2 ^ lastBit d := by
    conv_lhs => rw [hm, abs_mul, abs_of_pos (zpow_pos' _)]
    push_cast
    rfl
  have hbelow : |d| < 2 ^ (Int.log 2 |d| + 1) := Int.lt_zpow_succ_log_self (R := Rat) one_lt_two |d|
  have herr : |q - d| < 2 ^ (Int.log 2 |d| - 53) := by
    have heq : (2 : Rat) ^ (Int.log 2 |d| + 1) = 2 ^ (Int.log 2 |d| - 53) * 2 ^ 54 := by
      rw [← zpow_natCast, ← zpow_add₀ two_ne_zero]
      congr 1
      norm_num
      ring
    exact lt_of_mul_lt_mul_right (hclose.trans (heq ▸ hbelow)) (by positivity)
  have hsum : |q| ≤ |d| + |q - d| := by
    have := abs_sub_abs_le_abs_sub q d
    linarith
  generalize ha : Int.log 2 |d| = a at hlog hunit hbelow herr
  have hbit : lastBit d = max (a - 52) (-1074) := by rw [lastBit, ha]
  have hbit' : lastBit q = max (Int.log 2 |q| - 52) (-1074) := rfl
  -- the double is at least a unit below the next power of two
  have hle : Int.log 2 |q| ≤ a := by
    have hgap : |d| + 2 ^ lastBit d ≤ 2 ^ (a + 1) := by
      rw [habs] at hbelow ⊢
      rw [zpow_units (show lastBit d ≤ a + 1 by omega)] at hbelow ⊢
      exact add_unit_le hbelow
    have hsmall : (2 : Rat) ^ (a - 53) ≤ 2 ^ lastBit d :=
      zpow_le_zpow_right₀ one_le_two (by omega)
    have hlt : |q| < ((2 : Nat) : Rat) ^ (a + 1) := by
      push_cast
      linarith
    have := (Int.lt_zpow_iff_log_lt one_lt_two hqpos).mp hlt
    omega
  rcases (by omega : Int.log 2 |q| = a ∨ Int.log 2 |q| = a - 1) with heq | heq
  · refine nearest_of_lastBit h (by omega) (herr.trans_le (zpow_le_zpow_right₀ one_le_two (by omega)))
  · -- below a power of two, which the double must then be
    have hqlt : |q| < 2 ^ a := by
      have := Int.lt_zpow_succ_log_self (R := Rat) one_lt_two |q|
      rw [heq, sub_add_cancel] at this
      exact_mod_cast this
    have hpow : |d| ≤ 2 ^ a := by
      by_contra hgt
      rw [not_le] at hgt
      have hgap : (2 : Rat) ^ a + 2 ^ lastBit d ≤ |d| := by
        rw [habs] at hgt ⊢
        rw [zpow_units hunit] at hgt ⊢
        exact add_unit_le hgt
      have hsmall : (2 : Rat) ^ (a - 53) ≤ 2 ^ lastBit d :=
        zpow_le_zpow_right₀ one_le_two (by omega)
      have hsum' : |d| ≤ |q| + |q - d| := by
        have := abs_sub_abs_le_abs_sub d q
        rw [abs_sub_comm] at this
        linarith
      linarith
    have hpart : |q - d| < 2 ^ (a - 54) := by
      have hexp : (2 : Rat) ^ a = 2 ^ (a - 54) * 2 ^ 54 := by
        rw [← zpow_natCast, ← zpow_add₀ two_ne_zero]
        congr 1
        norm_num
      exact lt_of_mul_lt_mul_right (hclose.trans_le (hexp ▸ hpow)) (by positivity)
    exact nearest_of_lastBit h (by omega) (hpart.trans_le (zpow_le_zpow_right₀ one_le_two (by omega)))

/-! ## Decimal digits -/

/-- In units of the last of `p` digits a number is between two powers of ten. -/
theorem scaled_bounds {p : Nat} (hp : 0 < p) {x : Rat} (hx : x ≠ 0) :
    10 ^ (p - 1) ≤ |x| / 10 ^ (Int.log 10 |x| - p + 1) ∧ |x| / 10 ^ (Int.log 10 |x| - p + 1) < 10 ^ p := by
  have hlow := Int.zpow_log_le_self (R := Rat) (b := 10) (by norm_num) (abs_pos.mpr hx)
  have hhigh := Int.lt_zpow_succ_log_self (R := Rat) (b := 10) (by norm_num) |x|
  push_cast at hlow hhigh
  have hunit : (0 : Rat) < 10 ^ (Int.log 10 |x| - p + 1) := by positivity
  rw [le_div_iff₀ hunit, div_lt_iff₀ hunit]
  constructor
  · convert hlow using 1
    rw [← zpow_natCast, ← zpow_add₀ (by norm_num)]
    congr 1
    omega
  · convert hhigh using 1
    rw [← zpow_natCast, ← zpow_add₀ (by norm_num)]
    congr 1
    omega

theorem roundEven_scaled_bounds {p : Nat} (hp : 0 < p) {x : Rat} (hx : x ≠ 0) :
    10 ^ (p - 1) ≤ roundEven (|x| / 10 ^ (Int.log 10 |x| - p + 1)) ∧
      roundEven (|x| / 10 ^ (Int.log 10 |x| - p + 1)) ≤ 10 ^ p := by
  obtain ⟨hlow, hhigh⟩ := scaled_bounds hp hx
  have hround := abs_le.mp (abs_roundEven_sub_le (|x| / 10 ^ (Int.log 10 |x| - p + 1)))
  generalize |x| / 10 ^ (Int.log 10 |x| - p + 1) = y at hlow hhigh hround ⊢
  constructor
  · have : ((10 ^ (p - 1) : Int) : Rat) < (roundEven y : Rat) + 1 := by
      push_cast
      linarith
    have : (10 ^ (p - 1) : Int) < roundEven y + 1 := by exact_mod_cast this
    omega
  · have : (roundEven y : Rat) < ((10 ^ p : Int) : Rat) + 1 := by
      push_cast
      linarith
    have : roundEven y < (10 ^ p : Int) + 1 := by exact_mod_cast this
    omega

/-- The digits are `p` digits: the first is no 0. -/
theorem decimal_bounds {p : Nat} (hp : 0 < p) {x : Rat} (hx : x ≠ 0) :
    10 ^ (p - 1) ≤ (decimal p x).1 ∧ (decimal p x).1 < 10 ^ p := by
  obtain ⟨hlow, hhigh⟩ := roundEven_scaled_bounds hp hx
  unfold decimal
  dsimp only
  split_ifs with hcarry
  · exact ⟨le_refl _, pow_lt_pow_right₀ (by norm_num) (by omega)⟩
  · exact ⟨hlow, lt_of_le_of_ne hhigh hcarry⟩

/-- A carry into one digit more changes the digits only. -/
theorem decimalValue_eq {p : Nat} (hp : 0 < p) (x : Rat) :
    decimalValue p x = (if x < 0 then -1 else 1) * roundEven (|x| / 10 ^ (Int.log 10 |x| - p + 1)) *
      10 ^ (Int.log 10 |x| - p + 1) := by
  unfold decimalValue decimal
  dsimp only
  by_cases hcarry : roundEven (|x| / 10 ^ (Int.log 10 |x| - p + 1)) = 10 ^ p
  · rw [if_pos hcarry, hcarry]
    push_cast
    rw [mul_assoc, mul_assoc, ← zpow_natCast, ← zpow_natCast, ← zpow_add₀ (by norm_num),
      ← zpow_add₀ (by norm_num)]
    congr 2
    omega
  · rw [if_neg hcarry]

/-- Half a unit of the last digit is the most that is lost. -/
theorem abs_decimalValue_sub_le {p : Nat} (hp : 0 < p) (x : Rat) :
    |decimalValue p x - x| ≤ 10 ^ (Int.log 10 |x| - p + 1) / 2 := by
  rw [decimalValue_eq hp]
  generalize hu : (10 : Rat) ^ (Int.log 10 |x| - p + 1) = u
  have hunit : 0 < u := hu ▸ zpow_pos (by norm_num) _
  have hround := abs_roundEven_sub_le (|x| / u)
  generalize hs : (if x < 0 then -1 else 1 : Rat) = s
  have hfactor : |s| = 1 := by
    rw [← hs]
    split_ifs <;> norm_num
  have hsign : x = s * (|x| / u) * u := by
    rw [mul_assoc, div_mul_cancel₀ _ hunit.ne', ← hs]
    split_ifs with hneg
    · rw [abs_of_neg hneg]
      ring
    · rw [abs_of_nonneg (not_lt.mp hneg), one_mul]
  calc |s * (roundEven (|x| / u) : Rat) * u - x|
      = |s * (roundEven (|x| / u) : Rat) * u - s * (|x| / u) * u| := by rw [← hsign]
    _ = |s * ((roundEven (|x| / u) : Rat) - |x| / u) * u| := by
        congr 1
        ring
    _ = |(roundEven (|x| / u) : Rat) - |x| / u| * u := by
        rw [abs_mul, abs_mul, hfactor, one_mul, abs_of_pos hunit]
    _ ≤ 1 / 2 * u := mul_le_mul_of_nonneg_right hround hunit.le
    _ = u / 2 := by ring

/-- **17 digits are enough.** -/
theorem nearest_decimal {d : Rat} (h : IsDouble d) (hd : d ≠ 0) : nearest (decimalValue 17 d) = d := by
  apply nearest_of_close h
  have hlow := Int.zpow_log_le_self (R := Rat) (b := 10) (by norm_num) (abs_pos.mpr hd)
  have herr := abs_decimalValue_sub_le (p := 17) (by norm_num) d
  have hexp : (10 : Rat) ^ (Int.log 10 |d| - (17 : Nat) + 1) = 10 ^ Int.log 10 |d| / 10 ^ 16 := by
    rw [show Int.log 10 |d| - ((17 : Nat) : Int) + 1 = Int.log 10 |d| - (16 : Nat) by push_cast; ring,
      zpow_sub₀ (by norm_num), zpow_natCast]
  rw [hexp] at herr
  push_cast at hlow
  have hpos : (0 : Rat) < 10 ^ Int.log 10 |d| := by positivity
  calc |decimalValue 17 d - d| * 2 ^ 54 ≤ 10 ^ Int.log 10 |d| / 10 ^ 16 / 2 * 2 ^ 54 :=
        mul_le_mul_of_nonneg_right herr (by positivity)
    _ < 10 ^ Int.log 10 |d| := by linarith
    _ ≤ |d| := hlow

end Growbox.Double
