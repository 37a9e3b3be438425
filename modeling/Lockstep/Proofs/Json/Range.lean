import Lockstep.Proofs.Decimal.Rounding
import Lockstep.Proofs.Json.Numbers

/-!
# The range of numbers

The number that a numeral writes (`Literal.rational`), and which numerals are out of the
reader's range. Three roundings decide that: of the digits, of the power of ten, of their
product. So no numeral is out of range up to `2 ^ 1024 - 3 * 2 ^ 971`, and every one is
from `2 ^ 1024 + 2 ^ 972` on (`Numeral.ranged`).
-/

namespace Lockstep.Json

open Lockstep.Decimal (Binary64 ofValues)
open Lockstep.Decimal.Binary64 (Near Rounds)

/-! ## Numbers as they are written -/

/-- The power of ten that is written. -/
def Literal.power (n : Literal) : Int :=
  match n.exponent with
  | none => 0
  | some (below,ds) => if below then -(ofValues 0 ds) else ofValues 0 ds

/-- The number that the digits write, without sign and exponent. -/
def Literal.digits (n : Literal) : ℚ := ofValues 0 (n.whole ++ n.fraction) * 10 ^ (-n.fraction.length : Int)

/-- The number that a numeral writes. -/
def Literal.rational (n : Literal) : ℚ := (if n.negative then -1 else 1) * n.digits * 10 ^ n.power

/-- What the reader keeps of the digits: a number, and the power of ten at which its last
digit stands. -/
def Literal.kept (n : Literal) : Nat × Int :=
  let (first,dropped) := appendDigits 0 n.whole
  let (second,ignored) := appendDigits first n.fraction
  (second,dropped.length - (n.fraction.length - ignored.length : Nat))

section
variable {n m : Nat} {ds rest : List Nat}

/-! ## Digits -/

theorem ofValues_append (n : Nat) (ds rest : List Nat) : ofValues n (ds ++ rest) = ofValues (ofValues n ds) rest :=
  List.foldl_append

theorem ofValues_bounds (all : ∀ d ∈ ds, d ≤ 9) :
    n * 10 ^ ds.length ≤ ofValues n ds ∧ ofValues n ds < (n + 1) * 10 ^ ds.length := by
  induction ds generalizing n with
  | nil => simp [ofValues]
  | cons d ds ih =>
    obtain ⟨single,later⟩ := List.forall_mem_cons.mp all
    obtain ⟨no_less,no_more⟩ := ih (n := 10 * n + d) later
    have same : ofValues n (d :: ds) = ofValues (10 * n + d) ds := rfl
    rw [same,List.length_cons,Nat.pow_succ']
    constructor
    · calc n * (10 * 10 ^ ds.length) = 10 * n * 10 ^ ds.length := by ring
        _ ≤ (10 * n + d) * 10 ^ ds.length := Nat.mul_le_mul_right _ (by omega)
        _ ≤ _ := no_less
    · calc ofValues (10 * n + d) ds < (10 * n + d + 1) * 10 ^ ds.length := no_more
        _ ≤ (10 * n + 10) * 10 ^ ds.length := Nat.mul_le_mul_right _ (by omega)
        _ = _ := by ring

/-- Digits appended to a number as far as there is room for them. -/
structure Appended (n : Nat) (ds : List Nat) (m : Nat) (rest : List Nat) : Prop where
  fits : m < UInt64.size
  fewer : rest.length ≤ ds.length
  shifted : n * 10 ^ (ds.length - rest.length) ≤ m
  no_less : m * 10 ^ rest.length ≤ ofValues n ds
  no_more : ofValues n ds < (m + 1) * 10 ^ rest.length
  full : rest ≠ [] → UInt64.size ≤ 10 * m + 9 ∧ UInt64.size * 10 ^ (rest.length - 1) ≤ ofValues n ds

theorem appended (fits : n < UInt64.size) (all : ∀ d ∈ ds, d ≤ 9) (read : appendDigits n ds = (m,rest)) :
    Appended n ds m rest := by
  induction ds generalizing n with
  | nil =>
    cases read
    exact ⟨fits,Nat.le_refl _,by simp,by simp [ofValues],by simp [ofValues],fun some => absurd rfl some⟩
  | cons d ds ih =>
    obtain ⟨single,later⟩ := List.forall_mem_cons.mp all
    have same : ofValues n (d :: ds) = ofValues (10 * n + d) ds := rfl
    rw [appendDigits] at read
    split at read
    · next room =>
      obtain ⟨fits,fewer,shifted,no_less,no_more,full⟩ := ih room later read
      refine ⟨fits,Nat.le_succ_of_le fewer,?_,no_less,no_more,full⟩
      rw [List.length_cons,Nat.succ_sub fewer,Nat.pow_succ']
      calc n * (10 * 10 ^ (ds.length - rest.length)) = 10 * n * 10 ^ (ds.length - rest.length) := by ring
        _ ≤ (10 * n + d) * 10 ^ (ds.length - rest.length) := Nat.mul_le_mul_right _ (by omega)
        _ ≤ m := shifted
    · next room =>
      cases read
      obtain ⟨no_less,no_more⟩ := ofValues_bounds (n := m) all
      refine ⟨fits,Nat.le_refl _,by simp,no_less,no_more,fun _ => ⟨by omega,?_⟩⟩
      rw [same,List.length_cons,Nat.add_sub_cancel]
      calc UInt64.size * 10 ^ ds.length ≤ (10 * m + d) * 10 ^ ds.length := Nat.mul_le_mul_right _ (by omega)
        _ ≤ _ := (ofValues_bounds later).1

/-- Only what there was no room for is lost, less than a part in `2 ^ 60`. -/
theorem Appended.close (appended : Appended n ds m rest) :
    2 ^ 60 * ofValues n ds ≤ (2 ^ 60 + 1) * (m * 10 ^ rest.length) := by
  by_cases all : rest = []
  · subst all
    have whole := appended.no_more
    rw [List.length_nil] at whole ⊢
    omega
  · obtain ⟨great,_⟩ := appended.full all
    have size : UInt64.size = 2 ^ 64 := rfl
    have less := appended.no_more
    calc 2 ^ 60 * ofValues n ds ≤ 2 ^ 60 * ((m + 1) * 10 ^ rest.length) := Nat.mul_le_mul_left _ less.le
      _ = (2 ^ 60 * (m + 1)) * 10 ^ rest.length := by ring
      _ ≤ ((2 ^ 60 + 1) * m) * 10 ^ rest.length := Nat.mul_le_mul_right _ (by omega)
      _ = (2 ^ 60 + 1) * (m * 10 ^ rest.length) := by ring

theorem Appended.eq_of_nil (appended : Appended n ds m []) : ofValues n ds = m := by
  have no_less := appended.no_less
  have no_more := appended.no_more
  rw [List.length_nil,Nat.pow_zero,Nat.mul_one] at no_less no_more
  omega

section
variable {whole fraction dropped ignored : List Nat} {first second : Nat}

/-- Where digits before the point have been dropped, one behind it may still take the place
of the first of them, being less. -/
theorem kept_le (before : Appended 0 whole first dropped) (behind : Appended first fraction second ignored)
    (all : ∀ d ∈ fraction, d ≤ 9) :
    second * 10 ^ (dropped.length + ignored.length) ≤ ofValues (ofValues 0 whole) fraction := by
  by_cases none : dropped = []
  · subst none
    rw [before.eq_of_nil,List.length_nil,Nat.zero_add]
    exact behind.no_less
  obtain ⟨great,room⟩ := before.full none
  obtain ⟨no_less,_⟩ := ofValues_bounds (n := ofValues 0 whole) all
  have some : 0 < dropped.length := List.length_pos_iff.mpr none
  have fewer := behind.fewer
  have shifted := behind.shifted
  have fits := behind.fits
  have single : fraction.length - ignored.length ≤ 1 := by
    by_contra more
    have hundred : first * 10 ^ 2 ≤ first * 10 ^ (fraction.length - ignored.length) :=
      Nat.mul_le_mul_left _ (Nat.pow_le_pow_right (by decide) (by omega))
    have size : UInt64.size = 2 ^ 64 := rfl
    omega
  rcases Nat.le_one_iff_eq_zero_or_eq_one.mp single with none | one
  · have same : ignored.length = fraction.length := by omega
    have less : second * 10 ^ fraction.length < (first + 1) * 10 ^ fraction.length := by
      have no_less := behind.no_less
      rw [same] at no_less
      exact no_less.trans_lt (ofValues_bounds all).2
    have less : second ≤ first := Nat.le_of_lt_succ (Nat.lt_of_mul_lt_mul_right less)
    calc second * 10 ^ (dropped.length + ignored.length) = second * 10 ^ dropped.length * 10 ^ fraction.length := by
          rw [same,Nat.pow_add,Nat.mul_assoc]
      _ ≤ first * 10 ^ dropped.length * 10 ^ fraction.length := Nat.mul_le_mul_right _ (Nat.mul_le_mul_right _ less)
      _ ≤ ofValues 0 whole * 10 ^ fraction.length := Nat.mul_le_mul_right _ before.no_less
      _ ≤ _ := no_less
  · have same : dropped.length + ignored.length = dropped.length - 1 + fraction.length := by omega
    calc second * 10 ^ (dropped.length + ignored.length)
        = second * 10 ^ (dropped.length - 1) * 10 ^ fraction.length := by rw [same,Nat.pow_add,Nat.mul_assoc]
      _ ≤ UInt64.size * 10 ^ (dropped.length - 1) * 10 ^ fraction.length :=
        Nat.mul_le_mul_right _ (Nat.mul_le_mul_right _ fits.le)
      _ ≤ ofValues 0 whole * 10 ^ fraction.length := Nat.mul_le_mul_right _ room
      _ ≤ _ := no_less

theorem le_kept (before : Appended 0 whole first dropped) (behind : Appended first fraction second ignored)
    (all : ∀ d ∈ fraction, d ≤ 9) : 2 ^ 60 * ofValues (ofValues 0 whole) fraction ≤
      (2 ^ 60 + 1) * (second * 10 ^ (dropped.length + ignored.length)) := by
  by_cases none : dropped = []
  · subst none
    rw [before.eq_of_nil,List.length_nil,Nat.zero_add]
    exact behind.close
  obtain ⟨great,_⟩ := before.full none
  obtain ⟨_,no_more⟩ := ofValues_bounds (n := ofValues 0 whole) all
  have size : UInt64.size = 2 ^ 64 := rfl
  have kept : first * 10 ^ (dropped.length + fraction.length) ≤ second * 10 ^ (dropped.length + ignored.length) := by
    have fewer := behind.fewer
    have places : dropped.length + fraction.length =
        fraction.length - ignored.length + (dropped.length + ignored.length) := by omega
    rw [places,Nat.pow_add,← Nat.mul_assoc]
    exact Nat.mul_le_mul_right _ behind.shifted
  calc 2 ^ 60 * ofValues (ofValues 0 whole) fraction
      ≤ 2 ^ 60 * ((ofValues 0 whole + 1) * 10 ^ fraction.length) := Nat.mul_le_mul_left _ no_more.le
    _ ≤ 2 ^ 60 * ((first + 1) * 10 ^ dropped.length * 10 ^ fraction.length) :=
      Nat.mul_le_mul_left _ (Nat.mul_le_mul_right _ before.no_more)
    _ = 2 ^ 60 * (first + 1) * 10 ^ (dropped.length + fraction.length) := by
      rw [Nat.pow_add]
      ring
    _ ≤ (2 ^ 60 + 1) * first * 10 ^ (dropped.length + fraction.length) := Nat.mul_le_mul_right _ (by omega)
    _ ≤ _ := by
      rw [Nat.mul_assoc]
      exact Nat.mul_le_mul_left _ kept

end

/-- The number that the digits of a numeral write is the one that the reader keeps of them, or a
little more. -/
structure Literal.Keeps (n : Literal) (m : Nat) (p : Int) : Prop where
  fits : m < UInt64.size
  lowest : -(n.fraction.length : Int) ≤ p
  highest : p ≤ n.whole.length
  no_less : m * 10 ^ p ≤ n.digits
  no_more : n.digits ≤ (1 + 1 / 2 ^ 60) * (m * 10 ^ p)

theorem Literal.keeps (n : Literal) (all : ∀ d ∈ n.whole ++ n.fraction, d ≤ 9) : n.Keeps n.kept.1 n.kept.2 := by
  obtain ⟨negative,whole,fraction,exponent⟩ := n
  obtain ⟨whole_all,fraction_all⟩ := List.forall_mem_append.mp all
  unfold kept
  generalize first_read : appendDigits 0 whole = out
  obtain ⟨first,dropped⟩ := out
  generalize second_read : appendDigits first fraction = out
  obtain ⟨second,ignored⟩ := out
  have before : Appended 0 whole first dropped := appended (by decide) whole_all first_read
  have behind : Appended first fraction second ignored := appended before.fits fraction_all second_read
  have no_less := kept_le before behind fraction_all
  have no_more := le_kept before behind fraction_all
  have fewer := before.fewer
  have fewer' := behind.fewer
  simp only [second_read]
  have value : (second : ℚ) * 10 ^ ((dropped.length : Int) - (fraction.length - ignored.length : Nat)) =
      (second * 10 ^ (dropped.length + ignored.length) : Nat) * 10 ^ (-fraction.length : Int) := by
    have places : (dropped.length : Int) - (fraction.length - ignored.length : Nat) =
        (dropped.length + ignored.length : Nat) + -(fraction.length : Int) := by
      omega
    rw [places,zpow_add₀ (by norm_num),zpow_natCast,← mul_assoc]
    push_cast
    rfl
  refine ⟨behind.fits,by simp only; omega,by simp only; omega,?_,?_⟩
  · rw [value,digits,ofValues_append]
    gcongr
  · have close : (2 : ℚ) ^ 60 * (ofValues (ofValues 0 whole) fraction : Nat) ≤
        (2 ^ 60 + 1) * (second * 10 ^ (dropped.length + ignored.length) : Nat) := by
      exact_mod_cast no_more
    rw [value,digits,ofValues_append,← mul_assoc]
    gcongr
    linarith

/-! ## Doubles -/

theorem twice_limit : 2 * Binary64.limit = 18014398509481983 * 2 ^ 971 := by
  rw [Binary64.limit,← mul_assoc]
  congr 1
  norm_num

theorem power_lt_limit {k : Nat} (small : k ≤ 308) : (10 : ℚ) ^ k < Binary64.limit := by
  have greatest : 2 * 10 ^ 308 < 18014398509481983 * 2 ^ 971 := by decide +kernel
  have greatest : (2 : ℚ) * 10 ^ 308 < 18014398509481983 * 2 ^ 971 := by exact_mod_cast greatest
  rw [← twice_limit] at greatest
  exact (pow_le_pow_right₀ (by norm_num) small).trans_lt (lt_of_mul_lt_mul_left greatest two_pos.le)

theorem limit_lt_power {e : Int} (great : 308 < e) : Binary64.limit < 10 ^ e := by
  have least : 18014398509481983 * 2 ^ 971 < 2 * 10 ^ 309 := by decide +kernel
  have least : (18014398509481983 : ℚ) * 2 ^ 971 < 2 * 10 ^ 309 := by exact_mod_cast least
  rw [← twice_limit] at least
  calc Binary64.limit < 10 ^ (309 : Nat) := lt_of_mul_lt_mul_left least two_pos.le
    _ = 10 ^ (309 : Int) := (zpow_natCast 10 309).symm
    _ ≤ 10 ^ e := zpow_le_zpow_right₀ (by norm_num) great

theorem word_lt_limit (fits : m < UInt64.size) : (m : ℚ) < Binary64.limit := by
  have fits : (m : ℚ) < UInt64.size := by exact_mod_cast fits
  have size : ((UInt64.size : Nat) : ℚ) ≤ 10 ^ 20 := by norm_num [UInt64.size]
  exact fits.trans (size.trans_lt (power_lt_limit (by decide)))

/-- No number of 64 bits comes near to the limit by itself, with a power of ten that makes it
no greater. -/
theorem fraction_lt_limit {e : Int} (fits : m < UInt64.size) (low : m = 0 ∨ e ≤ 0) :
    (1 - 1 / 2 ^ 53) ^ 2 * ((m : ℚ) * 10 ^ e) < Binary64.limit := by
  have no_more : (m : ℚ) * 10 ^ e ≤ m := by
    rcases low with rfl | low
    · simp
    · exact mul_le_of_le_one_right (by positivity) (zpow_le_one_of_nonpos₀ (by norm_num) low)
  calc (1 - 1 / 2 ^ 53) ^ 2 * ((m : ℚ) * 10 ^ e) ≤ 1 * (m * 10 ^ e) := by
        gcongr
        norm_num
    _ ≤ m := by rwa [one_mul]
    _ < Binary64.limit := word_lt_limit fits

/-- The double of digits times that of a power of ten is infinite where their product is great, and
only there. -/
theorem product_cases {k : Nat} (some : m ≠ 0) (fits : m < UInt64.size) (small : k ≤ 308) :
    (Binary64.mul (.ofNat m) (.ofNat (10 ^ k)) = .infinite false ∧
      Binary64.limit ≤ (1 + 1 / 2 ^ 53) ^ 2 * (m * 10 ^ k)) ∨
    ((∃ a f, Binary64.mul (.ofNat m) (.ofNat (10 ^ k)) = .finite false a f) ∧
      (1 - 1 / 2 ^ 53) ^ 2 * (m * 10 ^ k) < Binary64.limit) := by
  have one_le : (1 : ℚ) ≤ m := by exact_mod_cast Nat.one_le_iff_ne_zero.mpr some
  have one_le' : (1 : ℚ) ≤ 10 ^ k := one_le_pow₀ (by norm_num)
  have ten_lt : ((10 ^ k : Nat) : ℚ) < Binary64.limit := by
    rw [Nat.cast_pow]
    exact power_lt_limit small
  have digits := Binary64.ofNat_rounds (Nat.pos_of_ne_zero some)
  have power := Binary64.ofNat_rounds (Nat.pow_pos (n := k) (by decide : 0 < 10))
  generalize Binary64.ofNat m = x at digits ⊢
  generalize Binary64.ofNat (10 ^ k) = y at power ⊢
  cases digits with
  | infinite beyond => exact absurd (word_lt_limit fits) (not_lt.mpr beyond)
  | @finite a f _ near =>
    cases power with
    | infinite beyond => exact absurd ten_lt (not_lt.mpr beyond)
    | @finite b g _ near' =>
      obtain ⟨no_less,no_more⟩ := near.mul near' (by positivity) (by positivity)
      rw [Nat.cast_pow,Nat.cast_ofNat] at no_less no_more
      have normal : (2 : ℚ) ^ (-1022 : ℤ) ≤ a * 2 ^ f * (b * 2 ^ g) := by
        calc (2 : ℚ) ^ (-1022 : ℤ) ≤ 2 ^ (-1 : ℤ) := zpow_le_zpow_right₀ one_le_two (by decide)
          _ ≤ (1 - 1 / 2 ^ 53) ^ 2 * (1 * 1) := by norm_num
          _ ≤ (1 - 1 / 2 ^ 53) ^ 2 * (m * 10 ^ k) := by gcongr
          _ ≤ _ := no_less
      have product : Rounds (false != false) _ (Binary64.mul (.finite false a f) (.finite false b g)) :=
        Binary64.mul_rounds normal
      generalize Binary64.mul _ _ = z at product ⊢
      cases product with
      | infinite beyond => exact .inl ⟨rfl,beyond.trans no_more⟩
      | finite within => exact .inr ⟨⟨_,_,rfl⟩,no_less.trans_lt within⟩

/-- Digits with a power of ten are read unless their double is infinite. -/
theorem scaled_cases (negative : Bool) (e : Int) (fits : m < UInt64.size) :
    (scaled negative m e = .error .numberOutOfRange ∧ Binary64.limit ≤ (1 + 1 / 2 ^ 53) ^ 2 * (m * 10 ^ e)) ∨
      ((∃ x, scaled negative m e = .ok x) ∧ (1 - 1 / 2 ^ 53) ^ 2 * (m * 10 ^ e) < Binary64.limit) := by
  simp only [scaled]
  split
  · next down =>
    exact .inr ⟨⟨_,rfl⟩,fraction_lt_limit fits (.inr down.le)⟩
  next up =>
  split
  · next none =>
    exact .inr ⟨⟨_,rfl⟩,fraction_lt_limit fits (.inl none)⟩
  next some =>
  split
  · next great =>
    have one_le : (1 : ℚ) ≤ m := by exact_mod_cast Nat.one_le_iff_ne_zero.mpr some
    refine .inl ⟨rfl,(limit_lt_power great).le.trans ?_⟩
    rw [← mul_assoc]
    refine le_mul_of_one_le_left (by positivity) ?_
    calc (1 : ℚ) ≤ (1 + 1 / 2 ^ 53) ^ 2 * 1 := by norm_num
      _ ≤ (1 + 1 / 2 ^ 53) ^ 2 * m := by gcongr
  · next small =>
    obtain ⟨k,rfl⟩ := Int.eq_ofNat_of_zero_le (not_lt.mp up)
    have small : k ≤ 308 := by omega
    rw [Int.toNat_natCast,powerOfTen,zpow_natCast,Nat.pow_eq]
    rcases product_cases some fits small with ⟨same,beyond⟩ | ⟨⟨_,_,same⟩,within⟩
    · rw [same]
      exact .inl ⟨rfl,beyond⟩
    · rw [same]
      exact .inr ⟨⟨_,rfl⟩,within⟩

/-! ## Numerals -/

/-- How a number is read from the digits that are kept: with its power of ten as a double,
unless it is a whole number or its exponent is out of all proportion. -/
inductive Literal.Taken (n : Literal) : Except Fault Number → Prop
  | scaled : n.Taken (scaled n.negative n.kept.1 (n.kept.2 + n.power))
  | whole {x : Number} (places : n.kept.2 = 0) (plain : n.power = 0) : n.Taken (.ok x)
  | nothing {x : Number} (vanishes : n.kept.1 = 0 ∨ n.power ≤ -2 ^ 31) : n.Taken (.ok x)
  | far (some : n.kept.1 ≠ 0) (above : 2 ^ 31 ≤ n.power) : n.Taken (.error .numberOutOfRange)

theorem Literal.value_taken (n : Literal) : n.Taken n.value := by
  obtain ⟨negative,whole,fraction,exponent⟩ := n
  unfold value
  generalize read : appendDigits 0 whole = out
  obtain ⟨first,dropped⟩ := out
  simp only
  split
  · have kept_eq : kept ⟨negative,whole,[],none⟩ = (first,(dropped.length : Int)) := by simp [kept,read,appendDigits]
    split
    · have taken := @Taken.scaled ⟨negative,whole,[],none⟩
      rwa [kept_eq,power,add_zero] at taken
    next all =>
    have places : (kept ⟨negative,whole,[],none⟩).2 = 0 := by
      rw [kept_eq,not_not.mp all]
      rfl
    split
    · exact .whole places rfl
    · split
      · exact .whole places rfl
      · exact .whole places rfl
  · generalize read' : appendDigits first fraction = out
    obtain ⟨second,ignored⟩ := out
    have kept_eq (e : Option (Bool × List Nat)) : kept ⟨negative,whole,fraction,e⟩ =
        (second,(dropped.length : Int) - (fraction.length - ignored.length : Nat)) := by
      simp only [kept,read,read']
    simp only
    split
    · have taken := @Taken.scaled ⟨negative,whole,fraction,none⟩
      rwa [kept_eq,power,add_zero] at taken
    next below ds _ =>
    have half : UInt32.size / 2 = 2 ^ 31 := rfl
    split
    · next great =>
      rw [half] at great
      have great : (2 : Int) ^ 31 ≤ ofValues 0 ds := by exact_mod_cast great
      cases below with
      | true =>
        rw [Bool.not_true,if_neg (fun up => Bool.noConfusion up.2)]
        exact .nothing (.inr (Int.neg_le_neg great))
      | false =>
        rw [Bool.not_false]
        split
        · next some => exact .far (by rw [kept_eq]; exact some.1) great
        · next none =>
          refine .nothing (.inl ?_)
          rw [kept_eq]
          simpa using none
    · have taken := @Taken.scaled ⟨negative,whole,fraction,some (below,ds)⟩
      rw [kept_eq] at taken
      cases below with
      | true => exact taken
      | false => exact taken

theorem Literal.abs_rational (n : Literal) : |n.rational| = n.digits * 10 ^ n.power := by
  have sign : |(if n.negative then -1 else 1 : ℚ)| = 1 := by
    split <;> simp
  have positive : 0 ≤ n.digits * 10 ^ n.power := by
    rw [digits]
    positivity
  rw [rational,mul_assoc,abs_mul,sign,one_mul,abs_of_nonneg positive]

/-- The number that is written, told by what is kept of its digits. -/
theorem Literal.Keeps.abs_rational {n : Literal} {m : Nat} {p : Int} (keeps : n.Keeps m p) :
    m * 10 ^ (p + n.power) ≤ |n.rational| ∧ |n.rational| ≤ (1 + 1 / 2 ^ 60) * (m * 10 ^ (p + n.power)) := by
  rw [n.abs_rational,zpow_add₀ (by norm_num),← mul_assoc,← mul_assoc (1 + 1 / 2 ^ 60 : ℚ)]
  constructor
  · gcongr
    exact keeps.no_less
  · gcongr
    exact keeps.no_more

theorem Literal.value_of_le {n : Literal} (all : ∀ d ∈ n.whole ++ n.fraction, d ≤ 9)
    (short : n.fraction.length < 2 ^ 30) (small : |n.rational| ≤ (2 ^ 53 - 3) * 2 ^ 971) : ∃ x, n.value = .ok x := by
  have keeps := n.keeps all
  obtain ⟨no_less,_⟩ := keeps.abs_rational
  have below : (1 + 1 / 2 ^ 53) ^ 2 * |n.rational| < Binary64.limit := by
    calc (1 + 1 / 2 ^ 53) ^ 2 * |n.rational| ≤ (1 + 1 / 2 ^ 53) ^ 2 * ((2 ^ 53 - 3) * 2 ^ 971) := by gcongr
      _ = (1 + 1 / 2 ^ 53) ^ 2 * (2 ^ 53 - 3) * 2 ^ 971 := by rw [mul_assoc]
      _ < Binary64.limit := by
        rw [Binary64.limit]
        gcongr
        norm_num
  have taken := n.value_taken
  generalize n.value = r at taken ⊢
  cases taken with
  | scaled =>
    rcases scaled_cases n.negative (n.kept.2 + n.power) keeps.fits with ⟨_,beyond⟩ | ⟨read,_⟩
    · refine absurd beyond (not_le.mpr (lt_of_le_of_lt ?_ below))
      gcongr
    · exact read
  | whole => exact ⟨_,rfl⟩
  | nothing => exact ⟨_,rfl⟩
  | far some above =>
    have lowest := keeps.lowest
    have one_le : (1 : ℚ) ≤ n.kept.1 := by exact_mod_cast Nat.one_le_iff_ne_zero.mpr some
    have great : Binary64.limit < |n.rational| := by
      calc Binary64.limit < 10 ^ (n.kept.2 + n.power) := limit_lt_power (by omega)
        _ ≤ n.kept.1 * 10 ^ (n.kept.2 + n.power) := le_mul_of_one_le_left (by positivity) one_le
        _ ≤ _ := no_less
    have less : |n.rational| ≤ (1 + 1 / 2 ^ 53) ^ 2 * |n.rational| :=
      le_mul_of_one_le_left (abs_nonneg _) (by norm_num)
    exact absurd (great.trans_le less) (lt_asymm below)

theorem Literal.value_of_ge {n : Literal} (all : ∀ d ∈ n.whole ++ n.fraction, d ≤ 9)
    (short : n.whole.length < 2 ^ 30) (great : (2 ^ 53 + 2) * 2 ^ 971 ≤ |n.rational|) :
    n.value = .error .numberOutOfRange := by
  have keeps := n.keeps all
  obtain ⟨_,no_more⟩ := keeps.abs_rational
  have above : (1 + 1 / 2 ^ 60) * Binary64.limit ≤ (1 - 1 / 2 ^ 53) ^ 2 * |n.rational| := by
    calc (1 + 1 / 2 ^ 60) * Binary64.limit = (1 + 1 / 2 ^ 60) * (2 ^ 53 - 1 / 2) * 2 ^ 971 := by
          rw [Binary64.limit,mul_assoc]
      _ ≤ (1 - 1 / 2 ^ 53) ^ 2 * (2 ^ 53 + 2) * 2 ^ 971 := by
        gcongr ?_ * _
        norm_num
      _ = (1 - 1 / 2 ^ 53) ^ 2 * ((2 ^ 53 + 2) * 2 ^ 971) := by rw [mul_assoc]
      _ ≤ _ := by gcongr
  have beyond : Binary64.limit ≤ (1 - 1 / 2 ^ 53) ^ 2 * (n.kept.1 * 10 ^ (n.kept.2 + n.power)) := by
    have beyond := above.trans (mul_le_mul_of_nonneg_left no_more (by positivity))
    rw [mul_left_comm] at beyond
    exact le_of_mul_le_mul_left beyond (by norm_num)
  have taken := n.value_taken
  generalize n.value = r at taken ⊢
  cases taken with
  | scaled =>
    rcases scaled_cases n.negative (n.kept.2 + n.power) keeps.fits with ⟨refused,_⟩ | ⟨_,within⟩
    · exact refused
    · exact absurd within (not_lt.mpr beyond)
  | whole places plain =>
    have low : n.kept.2 + n.power ≤ 0 := by omega
    exact absurd (fraction_lt_limit keeps.fits (.inr low)) (not_lt.mpr beyond)
  | nothing vanishes =>
    have highest := keeps.highest
    have low : n.kept.1 = 0 ∨ n.kept.2 + n.power ≤ 0 := vanishes.imp_right fun _ => by omega
    exact absurd (fraction_lt_limit keeps.fits low) (not_lt.mpr beyond)
  | far => rfl

theorem digitValues_le {ds : List UInt8} (all : ∀ b ∈ ds, ascii '0' ≤ b ∧ b ≤ ascii '9') : ∀ d ∈ digitValues ds, d ≤ 9 := by
  intro d member
  obtain ⟨b,digit,rfl⟩ := List.mem_map.mp member
  have greatest : b.toNat ≤ 0x39 := UInt8.le_iff_toNat_le.mp (all b digit).2
  omega

theorem Magnitude.digits {negative : Bool} {p : List UInt8} {n : Literal} (magnitude : Magnitude negative p n) :
    (∀ d ∈ n.whole ++ n.fraction, d ≤ 9) ∧ n.whole.length + n.fraction.length ≤ p.length := by
  cases magnitude with
  | mk whole places scale =>
    have ones := digitValues_le whole.digits.all
    cases places with
    | absent => simpa [digitValues] using ones
    | present digits =>
      refine ⟨List.forall_mem_append.mpr ⟨ones,digitValues_le digits.all⟩,?_⟩
      simp only [digitValues,List.length_map,List.length_append,List.length_cons]
      omega

theorem Numeral.digits {p : List UInt8} {n : Literal} (numeral : Numeral p n) :
    (∀ d ∈ n.whole ++ n.fraction, d ≤ 9) ∧ n.whole.length + n.fraction.length ≤ p.length := by
  cases numeral with
  | positive magnitude => exact magnitude.digits
  | negative magnitude => exact ⟨magnitude.digits.1,Nat.le_succ_of_le magnitude.digits.2⟩

theorem Literal.rational_of_digits {n : Literal} (plain : n.fraction = []) (alone : n.exponent = none) :
    n.rational = (if n.negative then -1 else 1) * (ofValues 0 n.whole : Nat) := by
  rw [rational,digits,power,plain,alone]
  simp

/-- How a numeral is read, told by the number that it writes. Whole numbers are read as they
are. A numeral that writes no more than the third greatest double is not out of range, and one that
writes `2 ^ 1024` or more is, but for a part in `2 ^ 52`. -/
structure Literal.Ranged (n : Literal) : Prop where
  unsigned : ∀ k, n.value = .ok (.unsigned k) → n.rational = k
  negative : ∀ k, n.value = .ok (.negative k) → n.rational = -k
  within : |n.rational| ≤ (2 ^ 53 - 3) * 2 ^ 971 → ∃ x, n.value = .ok x
  beyond : (2 ^ 53 + 2) * 2 ^ 971 ≤ |n.rational| → n.value = .error .numberOutOfRange

/-- That holds of all numerals of less than a gibibyte. -/
theorem Numeral.ranged {p : List UInt8} {n : Literal} (numeral : Numeral p n) (short : p.length < 2 ^ 30) : n.Ranged := by
  obtain ⟨all,length⟩ := numeral.digits
  refine ⟨fun k value => ?_,fun k value => ?_,Literal.value_of_le all (by omega),Literal.value_of_ge all (by omega)⟩
  · obtain ⟨plain,alone,_,same⟩ := whole_of_value value nofun
    rw [Literal.rational_of_digits plain alone]
    split at same
    · cases same
    · next positive =>
      cases same
      rw [if_neg positive,one_mul]
  · obtain ⟨plain,alone,_,same⟩ := whole_of_value value nofun
    rw [Literal.rational_of_digits plain alone]
    split at same
    · next negative =>
      cases same
      rw [if_pos negative,neg_one_mul]
    · cases same

theorem scaled_error {negative : Bool} {e : Int} {f : Fault} :
    scaled negative m e = .error f → f = .numberOutOfRange := by
  fun_cases scaled negative m e with
  | case1 | case2 | case5 =>
    intro same
    cases same
  | case3 | case4 =>
    intro same
    cases same
    rfl

/-- A number that is not read is out of range. -/
theorem Literal.value_error {n : Literal} {f : Fault} (refused : n.value = .error f) : f = .numberOutOfRange := by
  have taken := n.value_taken
  rw [refused] at taken
  generalize same : Except.error f = r at taken
  cases taken with
  | scaled => exact scaled_error same.symm
  | far =>
    cases same
    rfl
  | _ => cases same

end

end Lockstep.Json
