import Mathlib.Algebra.Order.Field.Rat
import Mathlib.Tactic.FieldSimp
import Mathlib.Tactic.Ring
import Lockstep.Proofs.DurationText
import Lockstep.Proofs.PeerGrammar

/-!
# What the text of a duration adds up to

A text lists components (`Lists`), and where it is read its duration is their exact
sum (`ofText_cases`). Otherwise it is refused, but for one case: where the components
read so far make up 2⁶⁴ seconds to the nanosecond, the carry leaves the range
(`Brims`).
-/

namespace Lockstep.Duration

/-! ## Texts -/

/-- Digits with blanks before, among and after them. -/
structure Figures (w ds : List Char) : Prop where
  inside : ∀ c ∈ w, (c.isDigit || Text.isBlank c) = true
  digits : ds = w.filter Char.isDigit
  some : ds ≠ []

/-- A number of 64 bits, or one with a fraction of at most 19 digits. -/
inductive Number : List Char → Nat → Option (Nat × Nat) → Prop
  | whole {w ds : List Char} (figures : Figures w ds) (fits : Decimal.ofDigits ds < UInt64.size) :
      Number w (Decimal.ofDigits ds) none
  | fraction {w ds f fs : List Char} (figures : Figures w ds) (fits : Decimal.ofDigits ds < UInt64.size)
      (part : Figures f fs) (short : fs.length ≤ 19) :
      Number (w ++ '.' :: f) (Decimal.ofDigits ds) (some (Decimal.ofDigits fs,fs.length))

/-- A number and right behind it the name of a unit. -/
inductive Component.Writes : Component → List Char → Prop
  | mk {c : Component} {figures : List Char} {name : String} (number : Number figures c.whole c.fraction)
      (known : name ∈ c.unit.names) : c.Writes (figures ++ name.toList)

/-- A text that lists components; behind each is a blank, the digit of the next, or
nothing. -/
inductive Lists : List Char → List Component → Prop
  | nothing {s : List Char} (blank : ∀ c ∈ s, Text.isBlank c = true) : Lists s []
  | more {w rest : List Char} {c : Component} {cs : List Component} (first : c.Writes w) (ends : endsUnit rest = true)
      (later : Lists rest cs) : Lists (w ++ rest) (c :: cs)

/-! ## What components are worth -/

/-- The nanoseconds of a unit. -/
def TimeUnit.inNanos (u : TimeUnit) : Nat :=
  match u.measure with
  | .nanos n => n
  | .seconds n => n * 1000000000

/-- The nanoseconds of a component without its fraction. -/
def Component.wholeWorth (c : Component) : ℚ := c.whole * c.unit.inNanos

/-- The nanoseconds of a component. -/
def Component.worth (c : Component) : ℚ :=
  match c.fraction with
  | none => c.wholeWorth
  | some (value,places) => (c.whole + value / 10 ^ places) * c.unit.inNanos

/-- The nanoseconds of some components. -/
def total (cs : List Component) : ℚ := (cs.map Component.worth).sum

/-- The nanoseconds that are too many for 64-bit seconds. -/
def limit : ℚ := UInt64.size * 1000000000

/-- A text begins with components that fill up to the limit exactly what was there
before, the last of them with or without its fraction. -/
def BrimsFrom (before : ℚ) (s : List Char) : Prop :=
  ∃ w rest cs c, s = w ++ rest ∧ Lists w (cs ++ [c]) ∧
    (before + total cs + c.wholeWorth = limit ∨ before + total cs + c.worth = limit)

/-- A text begins with components that make up the limit exactly. -/
def Brims (s : List Char) : Prop := BrimsFrom 0 s

theorem total_cons (c : Component) (cs : List Component) : total (c :: cs) = c.worth + total cs := by
  rw [total,List.map_cons,List.sum_cons,total]

/-! ## Adding up -/

section
variable {d d' : Duration} {c : Component}

theorem add_ok {seconds nanos : Nat} (added : d.add seconds nanos = .ok d') :
    d'.inNanos = d.inNanos + (seconds * 1000000000 + nanos) := by
  unfold add at added
  simp only at added
  split at added
  · cases added
  split at added
  · split at added
    · cases added
    split at added
    · cases added
      simp only [inNanos]
      omega
    · cases added
  · split at added
    · cases added
      simp only [inNanos]
      omega
    · cases added

/-- A sum overflows only where it is the limit. -/
theorem add_overflow {seconds nanos : Nat} (full : d.add seconds nanos = .error .overflow) :
    d.inNanos + (seconds * 1000000000 + nanos) = UInt64.size * 1000000000 := by
  unfold add at full
  simp only at full
  split at full
  · cases full
  split at full
  · split at full
    · cases full
    split at full
    · cases full
    · simp only [inNanos]
      omega
  · split at full
    · cases full
    · cases full

theorem word?_eq_some_iff {n m : Nat} : word? n = some m ↔ n < UInt64.size ∧ m = n := by
  unfold word?
  split
  next fits => simp only [fits,true_and,Option.some.injEq,eq_comm]
  next large => simp only [large,false_and,reduceCtorEq]

theorem wholeParts_worth {seconds nanos : Nat} (parts : c.wholeParts? = some (seconds,nanos)) :
    seconds * 1000000000 + nanos = c.whole * c.unit.inNanos := by
  unfold Component.wholeParts? at parts
  unfold TimeUnit.inNanos
  cases measure : c.unit.measure with
  | nanos n =>
    simp only [measure] at parts ⊢
    obtain ⟨m,fits,same⟩ := Option.map_eq_some_iff.mp parts
    cases same
    rw [(word?_eq_some_iff.mp fits).2,Nat.zero_mul,Nat.zero_add]
  | seconds n =>
    simp only [measure] at parts ⊢
    obtain ⟨m,fits,same⟩ := Option.map_eq_some_iff.mp parts
    cases same
    rw [(word?_eq_some_iff.mp fits).2,Nat.add_zero,Nat.mul_assoc]

theorem fractionParts_worth {u : TimeUnit} {value places seconds nanos : Nat}
    (parts : Component.fractionParts? u value places = some (seconds,nanos)) :
    (seconds * 1000000000 + nanos) * 10 ^ places = value * u.inNanos := by
  have exact {scale m : Nat} (found : ((word? (value * scale)).bind fun n =>
      if n % Nat.pow 10 places = 0 then some (n / Nat.pow 10 places) else none) = some m) :
      m * 10 ^ places = value * scale := by
    obtain ⟨n,fits,divided⟩ := Option.bind_eq_some_iff.mp found
    obtain ⟨_,rfl⟩ := word?_eq_some_iff.mp fits
    split at divided
    next whole =>
      cases divided
      exact Nat.div_mul_cancel (Nat.dvd_of_mod_eq_zero whole)
    next => cases divided
  unfold Component.fractionParts? at parts
  unfold TimeUnit.inNanos
  cases measure : u.measure with
  | nanos n =>
    simp only [measure] at parts ⊢
    split at parts
    · cases parts
    obtain ⟨m,found,same⟩ := Option.map_eq_some_iff.mp parts
    cases same
    rw [Nat.zero_mul,Nat.zero_add,exact found]
  | seconds n =>
    simp only [measure] at parts ⊢
    split at parts
    · obtain ⟨m,found,same⟩ := Option.map_eq_some_iff.mp parts
      cases same
      rw [Nat.zero_mul,Nat.zero_add,exact found]
    · obtain ⟨m,found,same⟩ := Option.map_eq_some_iff.mp parts
      cases same
      rw [Nat.add_zero,Nat.mul_right_comm,exact found,Nat.mul_assoc]

/-- A fraction is worth its part of the unit. -/
theorem fraction_worth {u : TimeUnit} {value places seconds nanos : Nat}
    (parts : Component.fractionParts? u value places = some (seconds,nanos)) :
    ((seconds * 1000000000 + nanos : Nat) : ℚ) = value / 10 ^ places * u.inNanos := by
  have worth : (((seconds * 1000000000 + nanos) * 10 ^ places : Nat) : ℚ) = (value * u.inNanos : Nat) :=
    congrArg Nat.cast (fractionParts_worth parts)
  push_cast at worth ⊢
  field_simp
  exact worth

/-- A sum is exact, or it is refused, or it overflows at the limit. -/
def Sums (before : ℚ) (more : ℚ) : Except Fault Duration → Prop
  | .ok d => (d.inNanos : ℚ) = before + more
  | .error .refused => True
  | .error .overflow => before + more = limit

theorem addParts_sums {parts : Option (Nat × Nat)} {x : ℚ}
    (worth : ∀ seconds nanos, parts = some (seconds,nanos) → ((seconds * 1000000000 + nanos : Nat) : ℚ) = x) :
    Sums d.inNanos x (d.addParts parts) := by
  cases parts with
  | none => trivial
  | some p =>
    obtain ⟨seconds,nanos⟩ := p
    rw [← worth seconds nanos rfl,addParts]
    cases added : d.add seconds nanos with
    | ok d' =>
      have exact := congrArg (Nat.cast (R := ℚ)) (add_ok added)
      rwa [Nat.cast_add] at exact
    | error f =>
      cases f with
      | refused => trivial
      | overflow =>
        have full := congrArg (Nat.cast (R := ℚ)) (add_overflow added)
        rw [Nat.cast_add,Nat.cast_mul] at full
        exact full

/-- A component adds what it is worth. A sum may overflow at its whole part. -/
theorem addComponent_sums (d : Duration) (c : Component) :
    Sums d.inNanos c.worth (d.addComponent c) ∨
      d.addComponent c = .error .overflow ∧ Sums d.inNanos c.wholeWorth (.error .overflow) := by
  have first : Sums d.inNanos c.wholeWorth (d.addParts c.wholeParts?) := by
    refine addParts_sums fun seconds nanos parts => ?_
    rw [wholeParts_worth parts,Nat.cast_mul,Component.wholeWorth]
  unfold addComponent
  cases added : d.addParts c.wholeParts? with
  | error f =>
    rw [added] at first
    cases f with
    | refused => exact .inl trivial
    | overflow => exact .inr ⟨rfl,first⟩
  | ok d' =>
    rw [added] at first
    left
    cases fraction : c.fraction with
    | none =>
      rw [Component.worth,fraction]
      exact first
    | some p =>
      obtain ⟨value,places⟩ := p
      have second : Sums d'.inNanos (value / 10 ^ places * c.unit.inNanos)
          (d'.addParts (Component.fractionParts? c.unit value places)) :=
        addParts_sums fun seconds nanos parts => fraction_worth parts
      have both : (d'.inNanos : ℚ) + value / 10 ^ places * c.unit.inNanos = d.inNanos + c.worth := by
        rw [first,Component.worth,fraction,Component.wholeWorth]
        ring
      simp only
      cases added' : d'.addParts (Component.fractionParts? c.unit value places) with
      | ok d'' =>
        rw [added'] at second
        exact second.trans both
      | error f =>
        rw [added'] at second
        cases f with
        | refused => trivial
        | overflow => exact both.symm.trans second

end

/-! ## Reading -/

section
variable {s t w ds : List Char} {n : Nat} {f : Option (Nat × Nat)} {u : TimeUnit} {c : Component}

/-- What ends a number: neither a digit nor a blank. -/
def EndsFigures (t : List Char) : Prop := ∀ c ∈ t.head?, (c.isDigit || Text.isBlank c) = false

theorem spanNumber_figures (figures : Figures w ds) (ends : EndsFigures t) : spanNumber (w ++ t) = (ds,t) := by
  have rest : t.takeWhile (fun c => c.isDigit || Text.isBlank c) = [] ∧
      t.dropWhile (fun c => c.isDigit || Text.isBlank c) = t := by
    cases t with
    | nil => exact ⟨rfl,rfl⟩
    | cons c t => simp only [List.takeWhile_cons,List.dropWhile_cons,ends c rfl,Bool.false_eq_true,if_false,and_self]
  simp only [spanNumber]
  rw [List.takeWhile_append_of_pos figures.inside,List.dropWhile_append_of_pos figures.inside,rest.1,rest.2,
    List.append_nil,← figures.digits]

theorem exists_of_spanNumber (some : (spanNumber s).1 ≠ []) :
    ∃ w, s = w ++ (spanNumber s).2 ∧ Figures w (spanNumber s).1 := by
  refine ⟨_,List.takeWhile_append_dropWhile.symm,fun c member => ?_,rfl,some⟩
  exact (List.mem_takeWhile_imp member :)

/-- A text whose first character that is no blank is a digit has figures in front. -/
theorem figures_ne_nil {first : Char} {rest : List Char} (front : s.dropWhile Text.isBlank = first :: rest)
    (digit : first.isDigit = true) : (spanNumber s).1 ≠ [] := by
  obtain ⟨a,whole,blank,_⟩ := Text.exists_dropWhile s
  rw [front] at whole
  have inside : ∀ c ∈ a, (c.isDigit || Text.isBlank c) = true := by
    intro c member
    rw [blank c member,Bool.or_true]
  simp only [spanNumber]
  rw [whole,List.takeWhile_append_of_pos inside,List.takeWhile_cons,digit,Bool.true_or,if_pos rfl]
  exact List.ne_nil_of_mem (List.mem_filter.mpr ⟨List.mem_append_right _ List.mem_cons_self,digit⟩)

theorem exists_of_readNumber? (read : readNumber? s = some (n,f,t)) (front : (spanNumber s).1 ≠ []) :
    ∃ w, s = w ++ t ∧ Number w n f := by
  unfold readNumber? at read
  obtain ⟨w,whole,figures⟩ := exists_of_spanNumber front
  split at read
  · cases read
  next value rest word point =>
    obtain ⟨fits,rfl⟩ := word?_eq_some_iff.mp word
    rw [point] at whole
    obtain ⟨⟨⟨v,p⟩,r⟩,fraction,same⟩ := Option.map_eq_some_iff.mp read
    cases same
    unfold readFraction? at fraction
    simp only at fraction
    split at fraction
    · cases fraction
    next bounds =>
    cases fraction
    rw [not_or,Bool.not_eq_true,List.isEmpty_eq_false_iff,Nat.not_lt] at bounds
    obtain ⟨w',whole',part⟩ := exists_of_spanNumber bounds.1
    refine ⟨w ++ '.' :: w',?_,.fraction figures fits part bounds.2⟩
    rw [List.append_assoc,List.cons_append,← whole']
    exact whole
  next value rest word other =>
    obtain ⟨fits,rfl⟩ := word?_eq_some_iff.mp word
    cases read
    exact ⟨w,whole,.whole figures fits⟩

theorem readNumber?_number (number : Number w n f) (ends : EndsFigures t) (point : t.head? ≠ some '.') :
    readNumber? (w ++ t) = some (n,f,t) := by
  cases number with
  | @whole _ ds figures fits =>
    have span := spanNumber_figures figures ends
    have word : word? (Decimal.ofDigits ds) = some (Decimal.ofDigits ds) := word?_eq_some_iff.mpr ⟨fits,rfl⟩
    simp only [readNumber?,span,word]
    split
    next none => cases none
    next => exact absurd rfl point
    next same _ => rw [Option.some.inj same]
  | @fraction w ds f fs figures fits part short =>
    have span : spanNumber (w ++ '.' :: (f ++ t)) = (ds,'.' :: (f ++ t)) := by
      refine spanNumber_figures figures ?_
      rintro c ⟨⟩
      decide
    have span' := spanNumber_figures part ends
    have bounds : ¬(fs.isEmpty = true ∨ 19 < fs.length) := by
      rw [not_or,Bool.not_eq_true,List.isEmpty_eq_false_iff,Nat.not_lt]
      exact ⟨part.some,short⟩
    rw [List.append_assoc,List.cons_append]
    simp only [readNumber?,span,word?,if_pos fits,readFraction?,span',if_neg bounds,Option.map_some]

/-! ### Units -/

theorem names_of_mem {name : String} (known : name ∈ u.names) : Names u name := by
  have all : ∀ u, ∀ name ∈ TimeUnit.names u, Names u name := by
    intro u
    cases u <;> decide
  exact all u name known

theorem mem_names {name : String} (found : TimeUnit.ofName? name = some u) : name ∈ u.names :=
  List.contains_iff_mem.mp (List.find?_some (p := fun u : TimeUnit => u.names.contains name) found)

/-- No letter of a unit is a digit or a blank. -/
theorem not_unitLetter {c : Char} (ends : (c.isDigit || Text.isBlank c) = true) : isUnitLetter c = false := by
  simp only [Char.isDigit,Bool.or_eq_true,Bool.and_eq_true,decide_eq_true_eq,ge_iff_le,UInt32.le_iff_toNat_le] at ends
  have digit : 48 ≤ c.toNat ∧ c.toNat ≤ 57 ∨ Text.isBlank c = true := ends
  rw [isUnitLetter,Bool.or_eq_false_iff]
  simp only [Text.isBlank,Bool.or_eq_true,Bool.and_eq_true,decide_eq_true_eq,beq_iff_eq] at digit
  constructor
  · rw [← Bool.not_eq_true]
    intro letter
    delta Char.isAlpha Char.isUpper Char.isLower at letter
    simp only [Bool.or_eq_true,Bool.and_eq_true,decide_eq_true_eq,ge_iff_le,UInt32.le_iff_toNat_le] at letter
    have alpha : 65 ≤ c.toNat ∧ c.toNat ≤ 90 ∨ 97 ≤ c.toNat ∧ c.toNat ≤ 122 := letter
    omega
  · rw [beq_eq_false_iff_ne]
    rintro rfl
    revert digit
    decide

theorem exists_of_readUnit? (read : readUnit? s = some (u,t)) :
    ∃ name ∈ u.names, s = name.toList ++ t ∧ endsUnit t = true := by
  unfold readUnit? at read
  split at read
  next ends =>
    obtain ⟨unit,found,same⟩ := Option.map_eq_some_iff.mp read
    cases same
    refine ⟨_,mem_names found,?_,ends⟩
    rw [String.toList_ofList,List.takeWhile_append_dropWhile]
  next => cases read

theorem readUnit?_name {name : String} (known : name ∈ u.names) (ends : endsUnit t = true) :
    readUnit? (name.toList ++ t) = some (u,t) := by
  obtain ⟨found,_,letters⟩ := names_of_mem known
  have unit : ∀ c ∈ name.toList, isUnitLetter c = true := fun c member =>
    (of_decide_eq_true (List.all_eq_true.mp letters c member)).1
  have rest : t.takeWhile isUnitLetter = [] ∧ t.dropWhile isUnitLetter = t := by
    cases t with
    | nil => exact ⟨rfl,rfl⟩
    | cons c t => simp only [List.takeWhile_cons,List.dropWhile_cons,not_unitLetter ends,Bool.false_eq_true,if_false,
        and_self]
  rw [readUnit?,List.takeWhile_append_of_pos unit,List.dropWhile_append_of_pos unit,rest.1,rest.2,List.append_nil,
    if_pos ends,found]
  rfl

/-! ### Components -/

theorem exists_of_readComponent? (read : readComponent? s = some (c,t)) (front : (spanNumber s).1 ≠ []) :
    ∃ w, s = w ++ t ∧ c.Writes w ∧ endsUnit t = true := by
  unfold readComponent? at read
  split at read
  · cases read
  next n f rest number =>
    obtain ⟨⟨u,r⟩,unit,same⟩ := Option.map_eq_some_iff.mp read
    cases same
    obtain ⟨w,rfl,written⟩ := exists_of_readNumber? number front
    obtain ⟨name,known,rfl,ends⟩ := exists_of_readUnit? unit
    exact ⟨w ++ name.toList,(List.append_assoc ..).symm,.mk written known,ends⟩

theorem readComponent?_writes (writes : c.Writes w) (ends : endsUnit t = true) :
    readComponent? (w ++ t) = some (c,t) := by
  cases writes with
  | @mk w name number known =>
  obtain ⟨_,some,letters⟩ := names_of_mem known
  obtain ⟨first,rest,front⟩ := List.exists_cons_of_ne_nil some
  have letter : Letter first := of_decide_eq_true (List.all_eq_true.mp letters first (by simp [front]))
  obtain ⟨_,digit,blank,point⟩ := letter
  have figures : readNumber? (w ++ (name.toList ++ t)) = .some (c.whole,c.fraction,name.toList ++ t) := by
    apply readNumber?_number number
    · intro c head
      rw [front] at head
      cases head
      rw [digit,blank,Bool.false_or]
    · rw [front]
      exact fun same => point (Option.some.inj same)
  rw [List.append_assoc]
  simp only [readComponent?,figures,readUnit?_name known ends,Option.map_some]

/-- What a text comes to that is read on top of some nanoseconds: the exact sum with
its components, a refusal, or, at the limit, an overflow. -/
def Comes (before : ℚ) (s : List Char) : Except Fault Duration → Prop
  | .ok d => ∃ cs, Lists s cs ∧ (d.inNanos : ℚ) = before + total cs
  | .error .refused => True
  | .error .overflow => BrimsFrom before s

theorem readComponents_blank_eq (blank : s.dropWhile Text.isBlank = []) (d : Duration) : readComponents d s = .ok d := by
  rw [readComponents]
  simp only [blank]

theorem readComponents_eq {first : Char} {rest : List Char} (front : s.dropWhile Text.isBlank = first :: rest)
    (d : Duration) : readComponents d s =
      if first.isDigit then
        match readComponent? s with
        | none => .error .refused
        | some (c,t) => (d.addComponent c).bind (readComponents · t)
      else .error .refused := by
  rw [readComponents]
  simp only [front]
  split
  · split
    next unread => simp only [unread]
    next c t read =>
      simp only [read]
      cases d.addComponent c <;> rfl
  · rfl

theorem endsUnit_front {rest : List Char} (ends : endsUnit (w ++ rest) = true) : endsUnit w = true := by
  cases w with
  | nil => rfl
  | cons => exact ends

theorem readComponents_comes (d : Duration) (s : List Char) : Comes d.inNanos s (readComponents d s) := by
  induction d,s using readComponents.induct with
  | case1 d s blank =>
    rw [readComponents_blank_eq blank]
    exact ⟨[],.nothing (List.dropWhile_eq_nil_iff.mp blank),(add_zero _).symm⟩
  | case2 d s c rest front digit unread =>
    rw [readComponents_eq front,if_pos digit,unread]
    trivial
  | case5 d s c rest front other =>
    rw [readComponents_eq front,if_neg other]
    trivial
  | case3 d s first rest front digit c t read f full =>
    rw [readComponents_eq front,if_pos digit,read]
    simp only [full,Except.bind]
    obtain ⟨w,whole,written,ends⟩ := exists_of_readComponent? read (figures_ne_nil front digit)
    have one : Lists (w ++ []) ([] ++ [c]) := .more written rfl (.nothing nofun)
    rw [List.append_nil] at one
    cases f with
    | refused => trivial
    | overflow =>
      refine ⟨w,t,[],c,whole,one,?_⟩
      rw [total,List.map_nil,List.sum_nil,add_zero]
      rcases addComponent_sums d c with sums | ⟨_,sums⟩
      · rw [full] at sums
        exact .inr sums
      · exact .inl sums
  | case4 d s first rest front digit c t read d' added ih =>
    rw [readComponents_eq front,if_pos digit,read]
    simp only [added,Except.bind]
    obtain ⟨w,rfl,written,ends⟩ := exists_of_readComponent? read (figures_ne_nil front digit)
    have sum : (d'.inNanos : ℚ) = d.inNanos + c.worth := by
      rcases addComponent_sums d c with sums | ⟨full,_⟩
      · rw [added] at sums
        exact sums
      · rw [added] at full
        cases full
    rw [sum] at ih
    revert ih
    cases readComponents d' t with
    | ok d'' =>
      rintro ⟨cs,lists,total⟩
      exact ⟨c :: cs,.more written ends lists,by rw [total,total_cons,add_assoc]⟩
    | error f =>
      cases f with
      | refused => exact id
      | overflow =>
        rintro ⟨w',rest',cs,last,rfl,lists,full⟩
        refine ⟨w ++ w',rest',c :: cs,last,(List.append_assoc ..).symm,.more written (endsUnit_front ends) lists,?_⟩
        rwa [total_cons,← add_assoc]

/-- The text of a component starts with a digit after its blanks. -/
theorem Figures.front (figures : Figures w ds) :
    ∃ first, first.isDigit = true ∧ ∀ t, ∃ rest, (w ++ t).dropWhile Text.isBlank = first :: rest := by
  obtain ⟨a,whole,blank,solid⟩ := Text.exists_dropWhile w
  cases front : w.dropWhile Text.isBlank with
  | nil =>
    obtain ⟨c,rest,some⟩ := List.exists_cons_of_ne_nil figures.some
    have member : c ∈ w.filter Char.isDigit := by rw [← figures.digits,some]; exact List.mem_cons_self
    obtain ⟨inside,digit⟩ := List.mem_filter.mp member
    have nothing := (Decimal.solid_of_isDigit digit).1
    rw [List.dropWhile_eq_nil_iff.mp front c inside] at nothing
    cases nothing
  | cons first rest =>
    rw [front] at whole solid
    have other : Text.isBlank first = false := solid first rfl
    refine ⟨first,?_,fun t => ⟨rest ++ t,?_⟩⟩
    · have inside := figures.inside first (by rw [whole]; simp)
      rwa [other,Bool.or_false] at inside
    · rw [whole,List.append_assoc,List.dropWhile_append_of_pos blank,List.cons_append,
        List.dropWhile_cons_of_neg (by simp [other])]

theorem Component.Writes.front (writes : c.Writes w) :
    ∃ first, first.isDigit = true ∧ ∀ t, ∃ rest, (w ++ t).dropWhile Text.isBlank = first :: rest := by
  obtain ⟨number,_⟩ := writes
  generalize c.whole = whole,c.fraction = fraction at number
  cases number with
  | whole figures | fraction figures =>
    obtain ⟨first,digit,front⟩ := figures.front
    refine ⟨first,digit,fun t => ?_⟩
    simp only [List.append_assoc]
    exact front _

/-- A list of components is read by adding them up from left to right. -/
theorem readComponents_lists {cs : List Component} (lists : Lists s cs) (d : Duration) :
    readComponents d s = cs.foldlM addComponent d := by
  induction lists generalizing d with
  | nothing blank => exact readComponents_blank_eq (List.dropWhile_eq_nil_iff.mpr blank) d
  | @more w rest c cs first ends later ih =>
    obtain ⟨head,digit,front⟩ := first.front
    obtain ⟨_,front⟩ := front rest
    rw [readComponents_eq front,if_pos digit,readComponent?_writes first ends,List.foldlM_cons]
    simp only
    cases d.addComponent c with
    | error f => rfl
    | ok d' => exact ih d'

theorem Lists.blank (lists : Lists s []) : ∀ c ∈ s, Text.isBlank c = true := by
  cases lists with
  | nothing blank => exact blank

theorem foldlM_total {cs : List Component} {d d' : Duration} (added : cs.foldlM addComponent d = .ok d') :
    (d'.inNanos : ℚ) = d.inNanos + total cs := by
  induction cs generalizing d with
  | nil =>
    cases added
    exact (add_zero _).symm
  | cons c cs ih =>
    rw [List.foldlM_cons] at added
    cases first : d.addComponent c with
    | error f =>
      rw [first] at added
      cases added
    | ok d₁ =>
      rw [first] at added
      rw [ih added,total_cons,← add_assoc]
      rcases addComponent_sums d c with sums | ⟨full,_⟩
      · rw [first] at sums
        rw [sums]
      · rw [first] at full
        cases full

end

/-! ## Whole texts -/

/-- What the text of a duration comes to. The word `0` is one; any other text that is
read lists components, one at least, and however it is taken to list them, they add
up to the duration. -/
theorem ofText_cases (s : String) :
    (∃ d, ofText s = .ok d ∧ (s = "0" ∧ d = zero ∨
      (∃ cs ≠ [], Lists s.toList cs) ∧ ∀ cs, Lists s.toList cs → (d.inNanos : ℚ) = total cs)) ∨
    ofText s = .error .refused ∨
    ofText s = .error .overflow ∧ Brims s.toList := by
  unfold ofText
  by_cases word : s = "0"
  · rw [if_pos word]
    exact .inl ⟨zero,rfl,.inl ⟨word,rfl⟩⟩
  rw [if_neg word]
  by_cases blank : Text.allBlank s = true
  · rw [if_pos blank]
    exact .inr (.inl rfl)
  rw [if_neg blank]
  have nothing : (zero.inNanos : ℚ) = 0 := Nat.cast_zero
  have comes := readComponents_comes zero s.toList
  cases read : readComponents zero s.toList with
  | ok d =>
    rw [read] at comes
    obtain ⟨cs,lists,_⟩ := comes
    refine .inl ⟨d,rfl,.inr ⟨⟨cs,?_,lists⟩,fun cs' lists' => ?_⟩⟩
    · rintro rfl
      exact blank (List.all_eq_true.mpr lists.blank)
    · rw [readComponents_lists lists'] at read
      rw [foldlM_total read,nothing,zero_add]
  | error f =>
    rw [read] at comes
    cases f with
    | refused => exact .inr (.inl rfl)
    | overflow =>
      refine .inr (.inr ⟨rfl,?_⟩)
      unfold Brims
      rw [← nothing]
      exact comes

end Lockstep.Duration
