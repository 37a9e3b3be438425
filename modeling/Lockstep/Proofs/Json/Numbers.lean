import Lockstep.Proofs.Json.Strings

/-!
# Readers of numbers

A number goes on as long as it can, so a reader of numbers takes one off the
front of a text where the grammar has one there and what follows it ends it.
-/

namespace Lockstep.Json

/-- What may follow a value: nothing, a space, a comma or a closing bracket. -/
def Ends (t : List UInt8) : Prop :=
  ∀ b ∈ t.head?, b ∈ [ascii ' ',ascii '\n',ascii '\t',ascii '\r',ascii ',',0x5D,0x7D]

/-! ## Digits -/

section
variable {s t ds w : List UInt8} {b : UInt8} {f : Fault}

theorem isDigit_iff : isDigit b = true ↔ ascii '0' ≤ b ∧ b ≤ ascii '9' := by
  rw [isDigit,Bool.and_eq_true,decide_eq_true_iff,decide_eq_true_iff,UInt8.le_iff_toNat_le,UInt8.le_iff_toNat_le]
  rfl

/-- No digit stands at the front. -/
def NoDigit (t : List UInt8) : Prop := ∀ b ∈ t.head?, isDigit b = false

theorem spanDigits_append (all : ∀ b ∈ ds, ascii '0' ≤ b ∧ b ≤ ascii '9') (other : NoDigit t) :
    spanDigits (ds ++ t) = (digitValues ds,t) := by
  have digits : ∀ b ∈ ds, isDigit b = true := fun b member => isDigit_iff.mpr (all b member)
  have rest : t.takeWhile isDigit = [] ∧ t.dropWhile isDigit = t := by
    cases t with
    | nil => exact ⟨rfl,rfl⟩
    | cons b t => simp [other b rfl]
  rw [spanDigits,List.takeWhile_append_of_pos digits,List.dropWhile_append_of_pos digits,rest.1,rest.2,
    List.append_nil]
  rfl

theorem exists_digits (s : List UInt8) : ∃ ds t, (∀ b ∈ ds, ascii '0' ≤ b ∧ b ≤ ascii '9') ∧ s = ds ++ t ∧
    spanDigits s = (digitValues ds,t) := by
  refine ⟨s.takeWhile isDigit,s.dropWhile isDigit,?_,List.takeWhile_append_dropWhile.symm,rfl⟩
  intro b member
  exact isDigit_iff.mp (List.all_eq_true.mp List.all_takeWhile b member)

theorem digitValues_ne_nil (digits : Digits ds) : digitValues ds ≠ [] := by
  simp [digitValues,digits.some]

theorem exists_of_readWhole {vs : List Nat} (read : readWhole f s = .ok (vs,t)) :
    ∃ w, Whole w ∧ vs = digitValues w ∧ s = w ++ t := by
  obtain ⟨w,rest,all,rfl,span⟩ := exists_digits s
  simp only [readWhole,span] at read
  split at read
  · cases read
  · cases read
  · next some alone =>
    cases read
    refine ⟨w,⟨⟨fun none => some (by rw [none]; rfl),all⟩,fun zero => ?_⟩,rfl,rfl⟩
    cases w with
    | nil => cases zero
    | cons b w =>
      obtain rfl : b = ascii '0' := Option.some.inj zero
      cases w with
      | nil => rfl
      | cons c w => exact absurd rfl (alone (c.toNat - 0x30) (digitValues w))

theorem readWhole_complete (whole : Whole w) (other : NoDigit t) : readWhole f (w ++ t) = .ok (digitValues w,t) := by
  simp only [readWhole,spanDigits_append whole.digits.all other]
  split
  · next none => exact absurd none (digitValues_ne_nil whole.digits)
  · next none d vs leading =>
    cases w with
    | nil => cases leading
    | cons b w =>
      obtain ⟨first,later⟩ := List.cons.inj leading
      have zero : b.toNat - 0x30 = 0 := first
      obtain ⟨least,greatest⟩ := whole.digits.all b List.mem_cons_self
      rw [UInt8.le_iff_toNat_le] at least
      replace least : 0x30 ≤ b.toNat := least
      have same : b = ascii '0' := UInt8.toNat_inj.mp (by show b.toNat = 0x30; omega)
      have alone := whole.leading (congrArg some same)
      rw [(List.cons.inj alone).2] at later
      cases later
  · rfl

/-! ## Parts -/

theorem exists_of_readFraction {vs : List Nat} (read : readFraction f s = .ok (vs,t)) :
    ∃ p, Fraction p vs ∧ s = p ++ t := by
  unfold readFraction at read
  split at read
  · cases read
    exact ⟨[],.absent,rfl⟩
  next b rest =>
  split at read
  · next point =>
    obtain ⟨ds,u,all,rfl,span⟩ := exists_digits rest
    simp only [span] at read
    split at read
    · cases read
    next some =>
    cases read
    have digits : Digits ds := ⟨fun none => some (by rw [none]; rfl),all⟩
    exact ⟨_,.present digits,by rw [point]; rfl⟩
  · cases read
    exact ⟨[],.absent,rfl⟩

theorem readFraction_complete {vs : List Nat} (fraction : Fraction ds vs) (other : NoDigit t)
    (point : ∀ b ∈ t.head?, b ≠ ascii '.') : readFraction f (ds ++ t) = .ok (vs,t) := by
  cases fraction with
  | absent =>
    cases t with
    | nil => rfl
    | cons b t => simp only [List.nil_append,readFraction,if_neg (point b rfl)]
  | present digits =>
    simp only [List.cons_append,readFraction,if_true,spanDigits_append digits.all other]
    rw [if_neg (by simpa using digitValues_ne_nil digits)]

theorem exists_of_splitSign (s : List UInt8) : ∃ sign, Sign sign (splitSign s).1 ∧ s = sign ++ (splitSign s).2 := by
  fun_cases splitSign s with
  | case1 => exact ⟨[],.none,rfl⟩
  | case2 t => exact ⟨_,.minus,rfl⟩
  | case3 t => exact ⟨_,.plus,rfl⟩
  | case4 => exact ⟨[],.none,rfl⟩

theorem exists_of_readExponent {e : Option (Bool × List Nat)} (read : readExponent f s = .ok (e,t)) :
    ∃ p, Exponent p e ∧ s = p ++ t := by
  unfold readExponent at read
  split at read
  · cases read
    exact ⟨[],.absent,rfl⟩
  next b rest =>
  split at read
  · next mark =>
    obtain ⟨sign,signed,whole⟩ := exists_of_splitSign rest
    obtain ⟨ds,u,all,later,span⟩ := exists_digits (splitSign rest).2
    simp only [span] at read
    split at read
    · cases read
    next some =>
    cases read
    have digits : Digits ds := ⟨fun none => some (by rw [none]; rfl),all⟩
    exact ⟨_,.present mark signed digits,by rw [whole,later]; simp⟩
  · cases read
    exact ⟨[],.absent,rfl⟩

theorem splitSign_append {sign : List UInt8} {below : Bool} (signed : Sign sign below) (digits : Digits ds)
    (t : List UInt8) : splitSign (sign ++ (ds ++ t)) = (below,ds ++ t) := by
  cases signed with
  | plus => rfl
  | minus => rfl
  | none =>
    cases ds with
    | nil => exact absurd rfl digits.some
    | cons b ds =>
      obtain ⟨least,_⟩ := digits.all b List.mem_cons_self
      have minus : b ≠ ascii '-' := by
        rintro rfl
        exact absurd least (by decide)
      have plus : b ≠ ascii '+' := by
        rintro rfl
        exact absurd least (by decide)
      simp only [List.nil_append,List.cons_append,splitSign,if_neg minus,if_neg plus]

theorem Ends.apart (ends : Ends t) :
    ∀ b ∈ t.head?, isDigit b = false ∧ b ≠ ascii '.' ∧ b ≠ ascii 'e' ∧ b ≠ ascii 'E' := by
  intro b head
  have table : ∀ b ∈ [ascii ' ',ascii '\n',ascii '\t',ascii '\r',ascii ',',0x5D,0x7D],
      isDigit b = false ∧ b ≠ ascii '.' ∧ b ≠ ascii 'e' ∧ b ≠ ascii 'E' :=
    List.all_iff_forall_prop.mp (by decide)
  exact table b (ends b head)

theorem readExponent_complete {e : Option (Bool × List Nat)} (exponent : Exponent ds e) (ends : Ends t) :
    readExponent f (ds ++ t) = .ok (e,t) := by
  cases exponent with
  | absent =>
    cases t with
    | nil => rfl
    | cons b t =>
      obtain ⟨_,_,small,capital⟩ := ends.apart b rfl
      have other : ¬(b = ascii 'e' ∨ b = ascii 'E') := by simp [small,capital]
      simp only [List.nil_append,readExponent,if_neg other]
  | @present m sign ds below mark signed digits =>
    have other : NoDigit t := fun b head => (ends.apart b head).1
    rw [List.cons_append,List.append_assoc,readExponent,if_pos mark,splitSign_append signed digits]
    simp only [spanDigits_append digits.all other]
    rw [if_neg (by simpa using digitValues_ne_nil digits)]

/-! ## Numbers -/

/-- Neither an exponent nor what follows it goes on with digits or a point. -/
theorem Exponent.apart {p : List UInt8} {e : Option (Bool × List Nat)} (exponent : Exponent p e) (ends : Ends t) :
    ∀ b ∈ (p ++ t).head?, isDigit b = false ∧ b ≠ ascii '.' := by
  intro b head
  cases exponent with
  | absent => exact ⟨(ends.apart b head).1,(ends.apart b head).2.1⟩
  | present mark =>
    obtain rfl := Option.some.inj head
    rcases mark with rfl | rfl
    · decide
    · decide

theorem Fraction.apart {p u : List UInt8} {vs : List Nat} (fraction : Fraction p vs) (other : NoDigit u) :
    NoDigit (p ++ u) := by
  cases fraction with
  | absent => exact other
  | present =>
    intro b head
    obtain rfl := Option.some.inj head
    decide

theorem splitMinus_cases (s : List UInt8) :
    (∃ u, s = ascii '-' :: u ∧ splitMinus s = (true,u)) ∨ splitMinus s = (false,s) := by
  fun_cases splitMinus s with
  | case1 => exact .inr rfl
  | case2 u => exact .inl ⟨u,rfl,rfl⟩
  | case3 => exact .inr rfl

theorem exists_of_readLiteral {n : Literal} (read : readLiteral f s = .ok (n,t)) :
    ∃ p, Numeral p n ∧ s = p ++ t := by
  simp only [readLiteral] at read
  split at read
  · cases read
  next whole =>
  split at read
  · cases read
  next fraction =>
  split at read
  · cases read
  next exponent =>
  cases read
  obtain ⟨w,ones,rfl,front⟩ := exists_of_readWhole whole
  obtain ⟨p,places,rfl⟩ := exists_of_readFraction fraction
  obtain ⟨e,scale,rfl⟩ := exists_of_readExponent exponent
  rcases splitMinus_cases s with ⟨u,rfl,split⟩ | split
  · rw [split] at front ⊢
    refine ⟨_,.negative (.mk ones places scale),?_⟩
    rw [show u = w ++ (p ++ (e ++ t)) from front]
    simp
  · rw [split] at front ⊢
    refine ⟨_,.positive (.mk ones places scale),?_⟩
    rw [show s = w ++ (p ++ (e ++ t)) from front]
    simp

theorem readLiteral_of_split {negative : Bool} {p : List UInt8} {n : Literal}
    (split : splitMinus s = (negative,p ++ t)) (magnitude : Magnitude negative p n) (ends : Ends t) :
    readLiteral f s = .ok (n,t) := by
  cases magnitude with
  | @mk w p e fraction exponent whole places scale =>
    have point := scale.apart ends
    have other : NoDigit (e ++ t) := fun b head => (point b head).1
    rw [List.append_assoc,List.append_assoc] at split
    simp only [readLiteral,split,readWhole_complete whole (places.apart other),
      readFraction_complete places other fun b head => (point b head).2,readExponent_complete scale ends]

theorem splitMinus_magnitude {negative : Bool} {p : List UInt8} {n : Literal} (magnitude : Magnitude negative p n)
    (t : List UInt8) : splitMinus (p ++ t) = (false,p ++ t) := by
  cases magnitude with
  | @mk w _ _ _ _ whole _ _ =>
    cases w with
    | nil => exact absurd rfl whole.digits.some
    | cons b w =>
      obtain ⟨least,_⟩ := whole.digits.all b List.mem_cons_self
      have minus : b ≠ ascii '-' := by
        rintro rfl
        exact absurd least (by decide)
      simp only [List.cons_append,splitMinus,if_neg minus]

theorem readLiteral_complete {p : List UInt8} {n : Literal} (numeral : Numeral p n) (ends : Ends t) :
    readLiteral f (p ++ t) = .ok (n,t) := by
  cases numeral with
  | positive magnitude => exact readLiteral_of_split (splitMinus_magnitude magnitude t) magnitude ends
  | negative magnitude => exact readLiteral_of_split rfl magnitude ends

/-! ## Whole numbers of 64 bits -/

theorem le_ofValues (n : Nat) (vs : List Nat) : n ≤ Decimal.ofValues n vs := by
  induction vs generalizing n with
  | nil => exact Nat.le_refl n
  | cons d vs ih =>
    have bound : 10 * n + d ≤ Decimal.ofValues n (d :: vs) := ih _
    omega

theorem appendDigits_of_lt {n : Nat} {vs : List Nat} (fits : Decimal.ofValues n vs < UInt64.size) :
    appendDigits n vs = (Decimal.ofValues n vs,[]) := by
  induction vs generalizing n with
  | nil => rfl
  | cons d vs ih =>
    have below : 10 * n + d < UInt64.size := Nat.lt_of_le_of_lt (le_ofValues _ vs) fits
    rw [appendDigits,if_pos below]
    exact ih fits

theorem eq_of_appendDigits {n m : Nat} {vs : List Nat} (start : n < UInt64.size)
    (read : appendDigits n vs = (m,[])) : Decimal.ofValues n vs = m ∧ m < UInt64.size := by
  induction vs generalizing n with
  | nil =>
    cases read
    exact ⟨rfl,start⟩
  | cons d vs ih =>
    rw [appendDigits] at read
    split at read
    · next below => exact ih below read
    · cases read

theorem exists_float_of_scaled {negative : Bool} {significand : Nat} {exponent : Int} {x : Number} :
    scaled negative significand exponent = .ok x → ∃ y, x = .float y := by
  fun_cases scaled with
  | case1 | case2 | case5 =>
    rintro ⟨⟩
    exact ⟨_,rfl⟩
  | case3 | case4 => nofun

/-- Whatever is not read as a double is written in digits alone. -/
theorem whole_of_value {n : Literal} {x : Number} (value : n.value = .ok x) (whole : ∀ y, x ≠ .float y) :
    n.fraction = [] ∧ n.exponent = none ∧ Decimal.ofValues 0 n.whole < UInt64.size ∧
      x = if n.negative then .negative (Decimal.ofValues 0 n.whole) else .unsigned (Decimal.ofValues 0 n.whole) := by
  obtain ⟨negative,ds,fraction,exponent⟩ := n
  unfold Literal.value at value
  generalize read : appendDigits 0 ds = out at value
  obtain ⟨significand,dropped⟩ := out
  have double {negative : Bool} {digits : Nat} {exponent : Int} (value : scaled negative digits exponent = .ok x) :
      False := by
    obtain ⟨y,float⟩ := exists_float_of_scaled value
    exact whole y float
  simp only at value
  split at value
  · split at value
    · exact (double value).elim
    next all =>
    obtain rfl := Classical.not_not.mp all
    obtain ⟨same,fits⟩ := eq_of_appendDigits (by decide) read
    subst same
    refine ⟨rfl,rfl,fits,?_⟩
    cases negative with
    | false => exact (Except.ok.inj value).symm
    | true =>
      split at value
      · next positive => cases positive
      · split at value
        · exact absurd (Except.ok.inj value).symm (whole _)
        · exact (Except.ok.inj value).symm
  · split at value
    · exact (double value).elim
    · split at value
      · split at value
        · cases value
        · exact absurd (Except.ok.inj value).symm (whole _)
      · exact (double value).elim

/-- A number reads as a whole number of 64 bits exactly where it is written in
digits alone and not too great. -/
theorem value_eq_unsigned_iff {n : Literal} {m : Nat} : n.value = .ok (.unsigned m) ↔
    n.negative = false ∧ n.fraction = [] ∧ n.exponent = none ∧ Decimal.ofValues 0 n.whole = m ∧ m < UInt64.size := by
  obtain ⟨negative,whole,fraction,exponent⟩ := n
  constructor
  · intro value
    obtain ⟨plain,alone,fits,same⟩ := whole_of_value value nofun
    cases negative with
    | false =>
      cases same
      exact ⟨rfl,plain,alone,rfl,fits⟩
    | true => cases same
  · rintro ⟨rfl,rfl,rfl,whole,fits⟩
    subst whole
    simp only [Literal.value,appendDigits_of_lt fits,ne_eq,not_true,if_false,Bool.not_false,if_true]

theorem exists_of_readNumber {m : Nat} (read : readNumber s = .ok (.unsigned m,t)) :
    ∃ w, Whole w ∧ Decimal.ofValues 0 (digitValues w) = m ∧ m < UInt64.size ∧ s = w ++ t := by
  unfold readNumber at read
  split at read
  · cases read
  next n rest literal =>
  split at read
  · cases read
  next value =>
  cases read
  obtain ⟨positive,alone,plain,same,fits⟩ := value_eq_unsigned_iff.mp value
  obtain ⟨p,numeral,rfl⟩ := exists_of_readLiteral literal
  cases numeral with
  | negative magnitude =>
    cases magnitude
    cases positive
  | positive magnitude =>
    cases magnitude with
    | @mk w f e fraction exponent whole places scale =>
      obtain rfl : fraction = [] := alone
      obtain rfl : exponent = none := plain
      refine ⟨w,whole,same,fits,?_⟩
      generalize none : ([] : List Nat) = fraction at places
      cases places with
      | present digits => exact absurd none.symm (digitValues_ne_nil digits)
      | absent =>
        cases scale
        simp

theorem readNumber_complete {m : Nat} (whole : Whole w) (same : Decimal.ofValues 0 (digitValues w) = m)
    (fits : m < UInt64.size) (ends : Ends t) : readNumber (w ++ t) = .ok (.unsigned m,t) := by
  have numeral : Numeral (w ++ ([] ++ [])) ⟨false,digitValues w,[],none⟩ := .positive (.mk whole .absent .absent)
  rw [List.append_nil,List.append_nil] at numeral
  have value : Literal.value ⟨false,digitValues w,[],none⟩ = .ok (.unsigned m) :=
    value_eq_unsigned_iff.mpr ⟨rfl,rfl,rfl,same,fits⟩
  simp only [readNumber,readLiteral_complete numeral ends,value]

end

end Lockstep.Json
