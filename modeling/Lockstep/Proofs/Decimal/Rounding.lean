import Mathlib.Algebra.Order.Field.Power
import Mathlib.Data.Rat.Cast.Order
import Mathlib.Tactic.FieldSimp
import Mathlib.Tactic.GCongr
import Mathlib.Tactic.Linarith
import Mathlib.Tactic.NormNum
import Mathlib.Tactic.Positivity
import Mathlib.Tactic.Ring
import Lockstep.Decimal.Binary64

/-!
# Rounding to doubles

How far a double is from the number it was rounded from, told in rationals. From the
least normal number on rounding moves a number by one part in `2 ^ 53` at most, and it
leaves the doubles from the middle between the greatest of them and `2 ^ 1024` on
(`ofRatio_rounds`).
-/

namespace Lockstep.Decimal.Binary64

/-- The middle between the greatest double and `2 ^ 1024`. -/
def limit : ℚ := (2 ^ 53 - 1 / 2) * 2 ^ 971

/-- Whether a number is that one up to a part in `2 ^ 53`. -/
structure Near (v q : ℚ) : Prop where
  least : (1 - 1 / 2 ^ 53) * q ≤ v
  greatest : v ≤ (1 + 1 / 2 ^ 53) * q

/-- Two near numbers have a product that is near to theirs. -/
theorem Near.mul {v w q r : ℚ} (near : Near v q) (near' : Near w r) (q_pos : 0 ≤ q) (r_pos : 0 ≤ r) :
    (1 - 1 / 2 ^ 53) ^ 2 * (q * r) ≤ v * w ∧ v * w ≤ (1 + 1 / 2 ^ 53) ^ 2 * (q * r) := by
  have small : (0 : ℚ) ≤ 1 - 1 / 2 ^ 53 := by norm_num
  have v_pos : 0 ≤ v := (mul_nonneg small q_pos).trans near.least
  have w_pos : 0 ≤ w := (mul_nonneg small r_pos).trans near'.least
  constructor
  · calc (1 - 1 / 2 ^ 53) ^ 2 * (q * r) = (1 - 1 / 2 ^ 53) * q * ((1 - 1 / 2 ^ 53) * r) := by ring
      _ ≤ v * w := mul_le_mul near.least near'.least (mul_nonneg small r_pos) v_pos
  · calc v * w ≤ (1 + 1 / 2 ^ 53) * q * ((1 + 1 / 2 ^ 53) * r) :=
          mul_le_mul near.greatest near'.greatest w_pos (by positivity)
      _ = (1 + 1 / 2 ^ 53) ^ 2 * (q * r) := by ring

/-- What the double nearest to a number may be: infinite from the limit on, and near
the number below it. -/
inductive Rounds (negative : Bool) (q : ℚ) : Binary64 → Prop
  | infinite (beyond : limit ≤ q) : Rounds negative q (.infinite negative)
  | finite {m : Nat} {e : Int} (within : q < limit) (near : Near (m * 2 ^ e) q) :
      Rounds negative q (.finite negative m e)

section
variable {num den a b m : Nat} {e : Int} {q : ℚ}

/-! ## Units -/

theorem overUnit_eq (num : Nat) (positive : 0 < den) (e : Int) : ∃ a b, overUnit num den e = (a,b) ∧ 0 < b ∧
    (a : ℚ) / b = num / den / 2 ^ e := by
  unfold overUnit
  split
  · next up =>
    obtain ⟨k,rfl⟩ := Int.eq_ofNat_of_zero_le up
    refine ⟨_,_,rfl,Nat.mul_pos positive (Nat.pow_pos two_pos),?_⟩
    simp [div_div]
  · next down =>
    obtain ⟨k,rfl⟩ : ∃ k : Nat, e = -k := ⟨(-e).toNat,by omega⟩
    refine ⟨_,_,rfl,positive,?_⟩
    simp only [neg_neg,Int.toNat_natCast,Nat.cast_mul,Nat.pow_eq,Nat.cast_pow,Nat.cast_ofNat,zpow_neg,zpow_natCast,
      div_inv_eq_mul]
    ring

/-- The lengths of a fraction's parts say what it is up to a factor of four. -/
theorem lengths_spec (some : 0 < num) (positive : 0 < den) {guess : Int}
    (guessed : (Nat.log2 num : Int) - Nat.log2 den - 52 = guess) :
    (2 : ℚ) ^ 52 * 2 ^ (guess - 1) ≤ num / den ∧ (num : ℚ) / den < 2 ^ 53 * 2 ^ guess := by
  have nonzero : (2 : ℚ) ≠ 0 := two_ne_zero
  have den_pos : (0 : ℚ) < den := by exact_mod_cast positive
  have num_least : (2 : ℚ) ^ Nat.log2 num ≤ num := by exact_mod_cast Nat.log2_self_le some.ne'
  have num_greatest : (num : ℚ) < 2 ^ (Nat.log2 num + 1) := by exact_mod_cast Nat.lt_log2_self
  have den_least : (2 : ℚ) ^ Nat.log2 den ≤ den := by exact_mod_cast Nat.log2_self_le positive.ne'
  have den_greatest : (den : ℚ) < 2 ^ (Nat.log2 den + 1) := by exact_mod_cast Nat.lt_log2_self
  constructor
  · rw [le_div_iff₀ den_pos]
    calc (2 : ℚ) ^ 52 * 2 ^ (guess - 1) * den ≤ 2 ^ 52 * 2 ^ (guess - 1) * 2 ^ (Nat.log2 den + 1) := by gcongr
      _ = 2 ^ ((52 : ℤ) + (guess - 1) + (Nat.log2 den + 1)) := by
        rw [zpow_add₀ nonzero,zpow_add₀ nonzero (52 : ℤ)]
        norm_cast
      _ = 2 ^ Nat.log2 num := by
        rw [← zpow_natCast,← guessed]
        congr 1
        omega
      _ ≤ num := num_least
  · rw [div_lt_iff₀ den_pos]
    calc (num : ℚ) < 2 ^ (Nat.log2 num + 1) := num_greatest
      _ = 2 ^ ((53 : ℤ) + guess + Nat.log2 den) := by
        rw [← zpow_natCast,← guessed]
        congr 1
        push_cast
        omega
      _ = 2 ^ 53 * 2 ^ guess * 2 ^ Nat.log2 den := by
        rw [zpow_add₀ nonzero,zpow_add₀ nonzero]
        norm_cast
      _ ≤ 2 ^ 53 * 2 ^ guess * den := by gcongr

/-- A normal number is not kept from its unit by the least one. -/
theorem over_normal {u : Int} (normal : (2 : ℚ) ^ (-1022 : ℤ) ≤ q) (least : (2 : ℚ) ^ 52 * 2 ^ u ≤ q)
    (greatest : q < 2 ^ 53 * 2 ^ u) : (2 : ℚ) ^ 52 ≤ q / 2 ^ max u (-1074) ∧ q / 2 ^ max u (-1074) < 2 ^ 53 := by
  have exponents : (2 : ℚ) ^ (-1022 : ℤ) < 2 ^ ((53 : ℤ) + u) := by
    rw [zpow_add₀ two_ne_zero]
    exact normal.trans_lt greatest
  have lowest : -1022 < 53 + u := (zpow_lt_zpow_iff_right₀ one_lt_two).mp exponents
  rw [max_eq_left (by omega),le_div_iff₀ (by positivity),div_lt_iff₀ (by positivity)]
  exact ⟨least,greatest⟩

/-- A positive number is at least `2 ^ 52` and less than `2 ^ 53` over its unit, as long
as that is no less than the least there is. -/
theorem unitOf_spec (some : 0 < num) (positive : 0 < den) (normal : (2 : ℚ) ^ (-1022 : ℤ) ≤ num / den) :
    (2 : ℚ) ^ 52 ≤ num / den / 2 ^ unitOf num den ∧ (num : ℚ) / den / 2 ^ unitOf num den < 2 ^ 53 := by
  -- The guess is right, or too great by one.
  generalize guessed : (Nat.log2 num : Int) - Nat.log2 den - 52 = guess
  obtain ⟨above,below⟩ := lengths_spec some positive guessed
  obtain ⟨a,b,unit,b_pos,ratio⟩ := overUnit_eq num positive guess
  have b_pos : (0 : ℚ) < b := by exact_mod_cast b_pos
  simp only [unitOf,guessed,unit]
  split
  · next small =>
    have small : (a : ℚ) / b < 2 ^ 52 := by
      rw [div_lt_iff₀ b_pos]
      exact_mod_cast small
    rw [ratio,div_lt_iff₀ (by positivity)] at small
    refine over_normal normal above ?_
    rw [zpow_sub_one₀ two_ne_zero]
    linarith
  · next great =>
    have great : (2 : ℚ) ^ 52 ≤ a / b := by
      rw [le_div_iff₀ b_pos]
      exact_mod_cast not_lt.mp great
    rw [ratio,le_div_iff₀ (by positivity)] at great
    exact over_normal normal great below

/-! ## Mantissas -/

/-- The nearest whole number is half a unit away at most. -/
theorem roundQuotient_near (positive : 0 < b) :
    (a : ℚ) / b - 1 / 2 ≤ roundQuotient a b ∧ (roundQuotient a b : ℚ) ≤ a / b + 1 / 2 := by
  have b_pos : (0 : ℚ) < b := by exact_mod_cast positive
  have whole : (b : ℚ) * (a / b : Nat) + (a % b : Nat) = a := by exact_mod_cast Nat.div_add_mod a b
  have ratio : (a : ℚ) / b = (a / b : Nat) + (a % b : Nat) / b := by
    rw [div_eq_iff b_pos.ne',← whole]
    field_simp
  have least : (0 : ℚ) ≤ (a % b : Nat) / b := by positivity
  have greatest : ((a % b : Nat) : ℚ) / b < 1 := by
    rw [div_lt_one b_pos]
    exact_mod_cast Nat.mod_lt a positive
  rw [ratio]
  unfold roundQuotient
  simp only
  split
  · next down =>
    have half : ((a % b : Nat) : ℚ) / b ≤ 1 / 2 := by
      rw [div_le_iff₀ b_pos]
      have down : 2 * ((a % b : Nat) : ℚ) < b := by exact_mod_cast down
      linarith
    constructor <;> linarith
  next down =>
  have half : 1 / 2 ≤ ((a % b : Nat) : ℚ) / b := by
    rw [le_div_iff₀ b_pos]
    have down : (b : ℚ) ≤ 2 * (a % b : Nat) := by exact_mod_cast not_lt.mp down
    linarith
  split
  · push_cast
    constructor <;> linarith
  · next up =>
    have tie : ((a % b : Nat) : ℚ) / b = 1 / 2 := by
      rw [div_eq_iff b_pos.ne']
      have up : 2 * ((a % b : Nat) : ℚ) ≤ b := by exact_mod_cast not_lt.mp up
      have down : (b : ℚ) ≤ 2 * (a % b : Nat) := by exact_mod_cast not_lt.mp down
      linarith
    have odd : ((a / b % 2 : Nat) : ℚ) ≤ 1 := by exact_mod_cast Nat.le_of_lt_succ (Nat.mod_lt (a / b) two_pos)
    have even : (0 : ℚ) ≤ (a / b % 2 : Nat) := by positivity
    push_cast
    constructor <;> linarith

/-- From the middle on, what is below an even number is rounded to it. -/
theorem roundQuotient_up {n : Nat} (positive : 0 < b) (even : n % 2 = 0) (half : (n : ℚ) - 1 / 2 ≤ a / b)
    (below : (a : ℚ) / b < n) : roundQuotient a b = n := by
  have b_pos : (0 : ℚ) < b := by exact_mod_cast positive
  rw [le_div_iff₀ b_pos] at half
  rw [div_lt_iff₀ b_pos] at below
  have half' : 2 * (n * b) ≤ 2 * a + b := by
    have doubled : 2 * ((n : ℚ) * b) ≤ 2 * a + b := by linarith
    exact_mod_cast doubled
  have below' : a < n * b := by exact_mod_cast below
  obtain ⟨k,rfl⟩ : ∃ k, n = k + 1 := Nat.exists_eq_add_one.mpr (Nat.pos_of_mul_pos_right (Nat.zero_lt_of_lt below'))
  rw [Nat.add_one_mul k b] at half' below'
  have quotient : a / b = k := Nat.div_eq_of_lt_le (by omega) (by rw [Nat.add_one_mul]; exact below')
  have remainder : k * b + a % b = a := by
    rw [← quotient,Nat.mul_comm]
    exact Nat.div_add_mod a b
  unfold roundQuotient
  simp only [quotient]
  split
  · omega
  · split
    · rfl
    · omega

/-! ## Doubles -/

theorem unit_le (low : e ≤ 971) : (2 : ℚ) ^ e ≤ 2 ^ 971 := by
  rw [← zpow_natCast]
  exact zpow_le_zpow_right₀ one_le_two low

theorem le_unit (high : 971 ≤ e) : (2 : ℚ) ^ 971 ≤ 2 ^ e := by
  rw [← zpow_natCast]
  exact zpow_le_zpow_right₀ one_le_two high

/-- A mantissa that is rounded up to one more binary place. -/
theorem rounds_carried (negative : Bool) (greatest : q < 2 ^ 53) (middle : 2 ^ 53 - 1 / 2 ≤ q)
    (near : Near ((2 * leadingBit : Nat) * 2 ^ e) (q * 2 ^ e)) : Rounds negative (q * 2 ^ e)
      (if 971 < e + 1 then .infinite negative else .finite negative leadingBit (e + 1)) := by
  split
  · next high =>
    have top_pos : (0 : ℚ) < 2 ^ 971 := by positivity
    have product : (2 ^ 53 - 1 / 2) * 2 ^ 971 ≤ q * 2 ^ e :=
      mul_le_mul middle (le_unit (Int.lt_add_one_iff.mp high)) top_pos.le (middle.trans' (by norm_num))
    exact .infinite product
  · next low =>
    have shifted : ((2 * leadingBit : Nat) : ℚ) * 2 ^ e = leadingBit * 2 ^ (e + 1) := by
      rw [zpow_add_one₀ two_ne_zero]
      push_cast
      ring
    rw [shifted] at near
    refine .finite ?_ near
    have half := unit_le (not_lt.mp low)
    rw [zpow_add_one₀ two_ne_zero] at half
    calc q * 2 ^ e < 2 ^ 53 * 2 ^ e := by gcongr
      _ = 2 ^ 52 * (2 ^ e * 2) := by ring
      _ ≤ 2 ^ 52 * 2 ^ 971 := by gcongr
      _ ≤ limit := by
        rw [limit]
        gcongr
        norm_num

theorem rounds_plain (negative : Bool) (least : 2 ^ 52 ≤ q) (middle : q < 2 ^ 53 - 1 / 2)
    (near : Near (m * 2 ^ e) (q * 2 ^ e)) : Rounds negative (q * 2 ^ e)
      (if 971 < e then .infinite negative else .finite negative m e) := by
  split
  · next high =>
    refine .infinite ?_
    have twice := le_unit (Int.le_sub_one_of_lt high)
    rw [zpow_sub_one₀ two_ne_zero] at twice
    calc limit ≤ 2 ^ 53 * 2 ^ 971 := by
          rw [limit]
          gcongr
          norm_num
      _ ≤ 2 ^ 53 * (2 ^ e * 2⁻¹) := by gcongr
      _ = 2 ^ 52 * 2 ^ e := by ring
      _ ≤ q * 2 ^ e := by gcongr
  · next low =>
    refine .finite ?_ near
    calc q * 2 ^ e < (2 ^ 53 - 1 / 2) * 2 ^ e := by gcongr
      _ ≤ limit := mul_le_mul_of_nonneg_left (unit_le (not_lt.mp low)) (by norm_num)

theorem ofRatio_rounds (negative : Bool) (positive : 0 < den) (normal : (2 : ℚ) ^ (-1022 : ℤ) ≤ num / den) :
    Rounds negative (num / den) (ofRatio negative num den) := by
  have some : 0 < num := by
    by_contra none
    obtain rfl : num = 0 := Nat.eq_zero_of_not_pos none
    rw [Nat.cast_zero,zero_div] at normal
    exact absurd normal (not_le.mpr (by positivity))
  obtain ⟨least,greatest⟩ := unitOf_spec some positive normal
  obtain ⟨a,b,unit,b_pos,ratio⟩ := overUnit_eq num positive (unitOf num den)
  simp only [ofRatio,if_neg some.ne',unit]
  generalize unitOf num den = e at *
  have unit_pos : (0 : ℚ) < 2 ^ e := by positivity
  have value : (num : ℚ) / den = a / b * 2 ^ e := by
    rw [ratio]
    field_simp
  rw [← ratio] at least greatest
  rw [value]
  obtain ⟨no_less,no_more⟩ := roundQuotient_near (a := a) b_pos
  have near : Near (roundQuotient a b * 2 ^ e) (a / b * 2 ^ e) := by
    constructor
    · rw [← mul_assoc]
      gcongr
      linarith
    · rw [← mul_assoc]
      gcongr
      linarith
  have double : ((2 * leadingBit : Nat) : ℚ) = 2 ^ 53 := by norm_num [leadingBit]
  by_cases carry : roundQuotient a b = 2 * leadingBit
  · rw [carry] at no_more near
    rw [double] at no_more
    simp only [if_pos carry]
    exact rounds_carried negative greatest (by linarith) near
  · simp only [if_neg carry]
    refine rounds_plain negative least ?_ near
    by_contra beyond
    refine carry (roundQuotient_up b_pos (by decide) ?_ ?_)
    · rw [double]
      exact not_lt.mp beyond
    · rw [double]
      exact greatest

theorem ofNat_rounds {n : Nat} (some : 0 < n) : Rounds false n (ofNat n) := by
  have normal : (2 : ℚ) ^ (-1022 : ℤ) ≤ (n : ℚ) / (1 : Nat) := by
    rw [Nat.cast_one,div_one]
    calc (2 : ℚ) ^ (-1022 : ℤ) ≤ 2 ^ (0 : ℤ) := zpow_le_zpow_right₀ one_le_two (by decide)
      _ = 1 := zpow_zero 2
      _ ≤ n := by exact_mod_cast some
  have rounds := ofRatio_rounds false one_pos normal
  rwa [Nat.cast_one,div_one] at rounds

theorem ratio_eq (m : Nat) (e : Int) : ∃ a b, ratio m e = (a,b) ∧ 0 < b ∧ (a : ℚ) / b = m * 2 ^ e := by
  unfold ratio
  split
  · next up =>
    obtain ⟨k,rfl⟩ := Int.eq_ofNat_of_zero_le up
    exact ⟨_,_,rfl,one_pos,by simp⟩
  · next down =>
    obtain ⟨k,rfl⟩ : ∃ k : Nat, e = -k := ⟨(-e).toNat,by omega⟩
    refine ⟨_,_,rfl,Nat.pow_pos two_pos,?_⟩
    simp [div_eq_mul_inv]

theorem mul_rounds {s s' : Bool} {m' : Nat} {e' : Int}
    (normal : (2 : ℚ) ^ (-1022 : ℤ) ≤ m * 2 ^ e * (m' * 2 ^ e')) :
    Rounds (s != s') (m * 2 ^ e * (m' * 2 ^ e')) (mul (.finite s m e) (.finite s' m' e')) := by
  obtain ⟨a,b,first,b_pos,left⟩ := ratio_eq m e
  obtain ⟨c,d,second,d_pos,right⟩ := ratio_eq m' e'
  have product : (m : ℚ) * 2 ^ e * (m' * 2 ^ e') = (a * c : Nat) / (b * d : Nat) := by
    rw [← left,← right,Nat.cast_mul,Nat.cast_mul,div_mul_div_comm]
  rw [product] at normal ⊢
  simp only [mul,first,second]
  exact ofRatio_rounds _ (Nat.mul_pos b_pos d_pos) normal

end

end Lockstep.Decimal.Binary64
