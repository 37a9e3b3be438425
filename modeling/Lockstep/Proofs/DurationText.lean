import Mathlib.Algebra.GroupWithZero.Nat
import Mathlib.Data.List.Basic
import Lockstep.Duration.Reader
import Lockstep.Proofs.Wire

/-!
# Durations in text

The text of a duration reads as that duration, whatever its size: its counts are
read one by one, and as they are added up nothing leaves the range and no
nanoseconds are carried over (`ofText_text`).
-/

namespace Lockstep.Duration

/-! ## Counts and units -/

/-- The name of a unit in a text, and whether it is a word. -/
def TimeUnit.written : TimeUnit → String × Bool
  | .nanosecond => ("ns",false)
  | .microsecond => ("us",false)
  | .millisecond => ("ms",false)
  | .second => ("s",false)
  | .minute => ("m",false)
  | .hour => ("h",false)
  | .day => ("day",true)
  | .week => ("week",true)
  | .month => ("month",true)
  | .year => ("year",true)

/-- The counts of a duration with their units. -/
def parts (d : Duration) : List (Nat × TimeUnit) :=
  [(d.seconds / 31557600,.year),
    (d.seconds % 31557600 / 2630016,.month),
    (d.seconds % 31557600 % 2630016 / 86400,.day),
    (d.seconds % 31557600 % 2630016 % 86400 / 3600,.hour),
    (d.seconds % 31557600 % 2630016 % 86400 % 3600 / 60,.minute),
    (d.seconds % 31557600 % 2630016 % 86400 % 60,.second),
    (d.nanos / 1000000,.millisecond),
    (d.nanos / 1000 % 1000,.microsecond),
    (d.nanos % 1000,.nanosecond)]

theorem counts_eq (d : Duration) : d.counts = d.parts.map fun (n,u) => (n,u.written) := rfl

/-- The seconds that a count stands for. -/
def secondsOf : Nat × TimeUnit → Nat
  | (n,u) =>
    match u.measure with
    | .nanos _ => 0
    | .seconds k => n * k

/-- The nanoseconds that a count below a second stands for. -/
def nanosOf : Nat × TimeUnit → Nat
  | (n,u) =>
    match u.measure with
    | .nanos k => n * k
    | .seconds _ => 0

-- Said for any `worth`: with one that it can unfold the kernel starts to multiply.
theorem sum_map_parts (worth : Nat × TimeUnit → Nat) (d : Duration) :
    (d.parts.map worth).sum = worth (d.seconds / 31557600,.year) +
      (worth (d.seconds % 31557600 / 2630016,.month) +
      (worth (d.seconds % 31557600 % 2630016 / 86400,.day) +
      (worth (d.seconds % 31557600 % 2630016 % 86400 / 3600,.hour) +
      (worth (d.seconds % 31557600 % 2630016 % 86400 % 3600 / 60,.minute) +
      (worth (d.seconds % 31557600 % 2630016 % 86400 % 60,.second) +
      (worth (d.nanos / 1000000,.millisecond) +
      (worth (d.nanos / 1000 % 1000,.microsecond) + (worth (d.nanos % 1000,.nanosecond) + 0)))))))) := by
  simp only [parts,List.map_cons,List.map_nil,List.sum_cons,List.sum_nil]

theorem sum_parts (d : Duration) :
    (d.parts.map secondsOf).sum = d.seconds ∧ (d.parts.map nanosOf).sum = d.nanos := by
  constructor
  · have year (n : Nat) : secondsOf (n,.year) = n * 31557600 := rfl
    have month (n : Nat) : secondsOf (n,.month) = n * 2630016 := rfl
    have day (n : Nat) : secondsOf (n,.day) = n * 86400 := rfl
    have hour (n : Nat) : secondsOf (n,.hour) = n * 3600 := rfl
    have minute (n : Nat) : secondsOf (n,.minute) = n * 60 := rfl
    have second (n : Nat) : secondsOf (n,.second) = n * 1 := rfl
    have below (n : Nat) : secondsOf (n,.millisecond) = 0 ∧ secondsOf (n,.microsecond) = 0 ∧
      secondsOf (n,.nanosecond) = 0 := ⟨rfl,rfl,rfl⟩
    simp only [sum_map_parts,year,month,day,hour,minute,second,below]
    omega
  · have above (n : Nat) : nanosOf (n,.year) = 0 ∧ nanosOf (n,.month) = 0 ∧ nanosOf (n,.day) = 0 ∧
      nanosOf (n,.hour) = 0 ∧ nanosOf (n,.minute) = 0 ∧ nanosOf (n,.second) = 0 := ⟨rfl,rfl,rfl,rfl,rfl,rfl⟩
    have milli (n : Nat) : nanosOf (n,.millisecond) = n * 1000000 := rfl
    have micro (n : Nat) : nanosOf (n,.microsecond) = n * 1000 := rfl
    have nano (n : Nat) : nanosOf (n,.nanosecond) = n * 1 := rfl
    simp only [sum_map_parts,above,milli,micro,nano]
    omega

/-- Counts of nothing add nothing. -/
theorem sum_filter (worth : Nat × TimeUnit → Nat) (nothing : ∀ u, worth (0,u) = 0) (ps : List (Nat × TimeUnit)) :
    ((ps.filter (·.1 ≠ 0)).map worth).sum = (ps.map worth).sum := by
  induction ps with
  | nil => rfl
  | cons p ps ih =>
    obtain ⟨n,u⟩ := p
    by_cases zero : n = 0
    · subst zero
      rw [List.filter_cons_of_neg (by simp),ih,List.map_cons,List.sum_cons,nothing,Nat.zero_add]
    · rw [List.filter_cons_of_pos (by simpa using zero),List.map_cons,List.sum_cons,ih,List.map_cons,List.sum_cons]

/-! ## One count -/

/-- The letters of a unit behind a number. -/
def TimeUnit.spelling (u : TimeUnit) (n : Nat) : List Char :=
  (u.written.1 ++ if u.written.2 ∧ 1 < n then "s" else "").toList

/-- A count as it is written. -/
def spelled : Nat × TimeUnit → List Char
  | (n,u) => Decimal.digits n ++ u.spelling n

theorem toList_writeCount (p : Nat × TimeUnit) : (writeCount (p.1,p.2.written)).toList = spelled p := by
  obtain ⟨n,u⟩ := p
  simp only [writeCount,spelled,TimeUnit.spelling,Decimal.text,String.toList_append,String.toList_ofList,
    List.append_assoc]

/-- A letter that ends a number and goes on with a unit. -/
def Letter (c : Char) : Prop :=
  isUnitLetter c = true ∧ c.isDigit = false ∧ Text.isBlank c = false ∧ c ≠ '.'

instance : DecidablePred Letter := fun c =>
  inferInstanceAs (Decidable (isUnitLetter c = true ∧ c.isDigit = false ∧ Text.isBlank c = false ∧ c ≠ '.'))

/-- A name of a unit is known, not empty, and all letters. -/
def Names (u : TimeUnit) (name : String) : Prop :=
  TimeUnit.ofName? (String.ofList name.toList) = some u ∧ name.toList ≠ [] ∧ name.toList.all (decide <| Letter ·) = true

instance (u : TimeUnit) (name : String) : Decidable (Names u name) :=
  inferInstanceAs (Decidable (_ ∧ _ ∧ _))

theorem names_written (u : TimeUnit) : Names u (u.written.1 ++ "") := by
  cases u <;> decide

theorem names_plural {u : TimeUnit} (word : u.written.2 = true) : Names u (u.written.1 ++ "s") := by
  revert word
  cases u <;> decide

theorem spelling_known (u : TimeUnit) (n : Nat) :
    TimeUnit.ofName? (String.ofList (u.spelling n)) = some u ∧ u.spelling n ≠ [] ∧ ∀ c ∈ u.spelling n, Letter c := by
  have names : Names u (u.written.1 ++ if u.written.2 ∧ 1 < n then "s" else "") := by
    split
    · next more => exact names_plural more.1
    · exact names_written u
  refine ⟨names.1,names.2.1,?_⟩
  intro c member
  exact of_decide_eq_true (List.all_eq_true.mp names.2.2 c member)

section
variable {n : Nat} {u : TimeUnit} {t : List Char}

theorem spanNumber_digits (n : Nat) (other : ∀ c ∈ t.head?, c.isDigit = false ∧ Text.isBlank c = false) :
    spanNumber (Decimal.digits n ++ t) = (Decimal.digits n,t) := by
  have digits : ∀ c ∈ Decimal.digits n, (c.isDigit || Text.isBlank c) = true := by
    intro c member
    rw [Decimal.isDigit_of_mem_digits member,Bool.true_or]
  have rest : t.takeWhile (fun c => c.isDigit || Text.isBlank c) = [] ∧
      t.dropWhile (fun c => c.isDigit || Text.isBlank c) = t := by
    cases t with
    | nil => exact ⟨rfl,rfl⟩
    | cons c t => simp [other c rfl]
  simp only [spanNumber]
  rw [List.takeWhile_append_of_pos digits,List.dropWhile_append_of_pos digits,rest.1,rest.2,List.append_nil,
    List.filter_eq_self.mpr fun c => Decimal.isDigit_of_mem_digits]

theorem readNumber?_digits (fits : n < UInt64.size)
    (other : ∀ c ∈ t.head?, c.isDigit = false ∧ Text.isBlank c = false ∧ c ≠ '.') :
    readNumber? (Decimal.digits n ++ t) = some (n,none,t) := by
  have span := spanNumber_digits n fun c head => ⟨(other c head).1,(other c head).2.1⟩
  have whole : word? n = some n := if_pos fits
  simp only [readNumber?,span,Decimal.ofDigits_digits,whole]
  split
  · next none => cases none
  · next point => exact absurd rfl (other '.' rfl).2.2
  · next same _ => rw [← Option.some.inj same]

/-- What may come after a count: nothing, or a blank and more. -/
def Ended (t : List Char) : Prop := ∀ c ∈ t.head?, c = ' '

theorem readUnit?_spelling (ended : Ended t) : readUnit? (u.spelling n ++ t) = some (u,t) := by
  obtain ⟨known,_,letters⟩ := spelling_known u n
  have unit : ∀ c ∈ u.spelling n, isUnitLetter c = true := fun c member => (letters c member).1
  have rest : t.takeWhile isUnitLetter = [] ∧ t.dropWhile isUnitLetter = t ∧ endsUnit t = true := by
    cases t with
    | nil => exact ⟨rfl,rfl,rfl⟩
    | cons c t =>
      obtain rfl := ended c rfl
      exact ⟨rfl,rfl,rfl⟩
  rw [readUnit?,List.takeWhile_append_of_pos unit,List.dropWhile_append_of_pos unit,rest.1,rest.2.1,List.append_nil,
    if_pos rest.2.2,known]
  rfl

theorem readComponent?_spelled (fits : n < UInt64.size) (ended : Ended t) :
    readComponent? (spelled (n,u) ++ t) = some (⟨n,none,u⟩,t) := by
  obtain ⟨_,some,letters⟩ := spelling_known u n
  have number : readNumber? (spelled (n,u) ++ t) = .some (n,none,u.spelling n ++ t) := by
    rw [spelled,List.append_assoc]
    apply readNumber?_digits fits
    intro c head
    rw [List.head?_append_of_ne_nil _ some] at head
    exact (letters c (List.mem_of_head? head)).2
  simp only [readComponent?,number,readUnit?_spelling ended,Option.map_some]

/-! ## Adding up -/

variable {d : Duration} {p : Nat × TimeUnit} {ps : List (Nat × TimeUnit)}

theorem add_of_lt {seconds nanos : Nat} (first : d.seconds + seconds < UInt64.size)
    (second : d.nanos + nanos < 1000000000) :
    d.add seconds nanos = .ok ⟨d.seconds + seconds,d.nanos + nanos,first,second⟩ := by
  have size : UInt64.size = 18446744073709551616 := rfl
  have none : (d.nanos + nanos) / 1000000000 = 0 := Nat.div_eq_of_lt second
  have whole : d.seconds + (seconds + (d.nanos + nanos) / 1000000000) < UInt64.size := by rwa [none]
  simp only [add]
  rw [if_neg (by omega),if_neg (by omega),dif_pos whole]
  simp only [none,Nat.mod_eq_of_lt second,Nat.add_zero]

theorem addComponent_of_lt (first : d.seconds + secondsOf p < UInt64.size)
    (second : d.nanos + nanosOf p < 1000000000) : d.addComponent ⟨p.1,none,p.2⟩ =
      .ok ⟨d.seconds + secondsOf p,d.nanos + nanosOf p,first,second⟩ := by
  have parts : Component.wholeParts? ⟨p.1,none,p.2⟩ = some (secondsOf p,nanosOf p) := by
    obtain ⟨n,u⟩ := p
    have size : UInt64.size = 18446744073709551616 := rfl
    cases measure : u.measure with
    | nanos k =>
      simp only [secondsOf,nanosOf,measure] at second ⊢
      have fits : n * k < UInt64.size := by omega
      simp only [Component.wholeParts?,measure,word?,if_pos fits,Option.map_some]
    | seconds k =>
      simp only [secondsOf,nanosOf,measure] at first ⊢
      have fits : n * k < UInt64.size := by omega
      simp only [Component.wholeParts?,measure,word?,if_pos fits,Option.map_some]
  simp only [addComponent,parts,addParts,add_of_lt first second]

theorem count_lt (first : d.seconds + secondsOf p < UInt64.size) (second : d.nanos + nanosOf p < 1000000000) :
    p.1 < UInt64.size := by
  obtain ⟨n,u⟩ := p
  have size : UInt64.size = 18446744073709551616 := rfl
  cases u <;> simp only [secondsOf,nanosOf,TimeUnit.measure] at first second <;> simp only <;> omega

theorem readComponents_blank (d : Duration) (t : List Char) : readComponents d (' ' :: t) = readComponents d t := by
  have drop : (' ' :: t).dropWhile Text.isBlank = t.dropWhile Text.isBlank := rfl
  have number : readComponent? (' ' :: t) = readComponent? t := rfl
  rw [readComponents,readComponents,drop,number]

theorem readComponents_spelled {d' : Duration} (fits : p.1 < UInt64.size) (ended : Ended t)
    (added : d.addComponent ⟨p.1,none,p.2⟩ = .ok d') :
    readComponents d (spelled p ++ t) = readComponents d' t := by
  obtain ⟨c,rest,first⟩ := List.exists_cons_of_ne_nil (Decimal.digits_ne_nil p.1)
  have digit : c.isDigit = true := Decimal.isDigit_of_mem_digits (by rw [first]; exact List.mem_cons_self)
  have solid : (spelled p ++ t).dropWhile Text.isBlank = c :: (rest ++ p.2.spelling p.1 ++ t) := by
    have whole : spelled p ++ t = c :: (rest ++ p.2.spelling p.1 ++ t) := by
      simp only [spelled,first,List.cons_append]
    rw [whole,List.dropWhile_cons_of_neg (by simp [(Decimal.solid_of_isDigit digit).1])]
  rw [readComponents]
  simp only [solid]
  rw [if_pos digit,readComponent?_spelled fits ended]
  simp only [added]

end

/-- Counts with a blank before each. -/
def spaced (ps : List (Nat × TimeUnit)) : List Char := ps.flatMap fun p => ' ' :: spelled p

theorem ended_spaced (ps : List (Nat × TimeUnit)) : Ended (spaced ps) := by
  cases ps with
  | nil => nofun
  | cons p ps =>
    rintro c ⟨⟩
    rfl

/-- A list of counts is read to its end, each count adding what it stands for. -/
theorem readComponents_spaced {d : Duration} {ps : List (Nat × TimeUnit)}
    (first : d.seconds + (ps.map secondsOf).sum < UInt64.size)
    (second : d.nanos + (ps.map nanosOf).sum < 1000000000) :
    readComponents d (spaced ps) =
      .ok ⟨d.seconds + (ps.map secondsOf).sum,d.nanos + (ps.map nanosOf).sum,first,second⟩ := by
  -- Sums only grow, so what holds of the last holds of those before.
  induction ps generalizing d with
  | nil =>
    have nothing : (spaced []).dropWhile Text.isBlank = [] := rfl
    rw [readComponents]
    simp only [nothing]
    rfl
  | cons p ps ih =>
    simp only [List.map_cons,List.sum_cons] at first second ⊢
    have front : d.seconds + secondsOf p < UInt64.size := by omega
    have part : d.nanos + nanosOf p < 1000000000 := by omega
    have whole : spaced (p :: ps) = ' ' :: (spelled p ++ spaced ps) := rfl
    rw [whole,readComponents_blank,
      readComponents_spelled (count_lt front part) (ended_spaced ps) (addComponent_of_lt front part),
      ih (by simp only; omega) (by simp only; omega)]
    simp only [Nat.add_assoc]

/-! ## Whole texts -/

theorem toList_intercalate (p : Nat × TimeUnit) (ps : List (Nat × TimeUnit)) :
    ' ' :: (" ".intercalate ((p :: ps).map fun q => writeCount (q.1,q.2.written))).toList = spaced (p :: ps) := by
  induction ps generalizing p with
  | nil =>
    rw [List.map_singleton,String.intercalate_singleton,toList_writeCount]
    exact (List.append_nil _).symm
  | cons q ps ih =>
    have further := ih q
    rw [List.map_cons] at further ⊢
    rw [List.map_cons,String.intercalate_cons_cons,String.toList_append,String.toList_append,toList_writeCount,
      List.append_assoc]
    exact congrArg (fun rest => ' ' :: (spelled p ++ rest)) further

theorem isZero_iff {d : Duration} : d.isZero = true ↔ d.seconds = 0 ∧ d.nanos = 0 := by
  rw [isZero,Bool.and_eq_true,beq_iff_eq,beq_iff_eq]

theorem eq_of_parts {d d' : Duration} (seconds : d.seconds = d'.seconds) (nanos : d.nanos = d'.nanos) : d = d' := by
  cases d
  cases d'
  cases seconds
  cases nanos
  rfl

/-- A text is a list of counts that make up the duration. -/
theorem exists_spaced (d : Duration) : ∃ p ps, ' ' :: d.text.toList = spaced (p :: ps) ∧
    ((p :: ps).map secondsOf).sum = d.seconds ∧ ((p :: ps).map nanosOf).sum = d.nanos := by
  by_cases zero : d.isZero = true
  · obtain ⟨seconds,nanos⟩ := isZero_iff.mp zero
    refine ⟨(0,.second),[],?_,seconds.symm,nanos.symm⟩
    rw [text,if_pos zero]
    decide
  · have total := sum_parts d
    rw [← sum_filter secondsOf (fun u => by cases u <;> rfl),← sum_filter nanosOf (fun u => by cases u <;> rfl)] at total
    have counts : (d.counts.filter (·.1 ≠ 0)).map writeCount =
        (d.parts.filter (·.1 ≠ 0)).map fun q => writeCount (q.1,q.2.written) := by
      rw [counts_eq,List.filter_map,List.map_map]
      rfl
    rw [text,if_neg zero,counts]
    cases found : d.parts.filter (·.1 ≠ 0) with
    | nil =>
      rw [found] at total
      exact absurd (isZero_iff.mpr ⟨total.1.symm,total.2.symm⟩) zero
    | cons p ps =>
      rw [found] at total
      exact ⟨p,ps,toList_intercalate p ps,total⟩

/-- What a duration is written as reads as that duration. -/
theorem ofText_text (d : Duration) : ofText d.text = .ok d := by
  obtain ⟨p,ps,whole,seconds,nanos⟩ := exists_spaced d
  obtain ⟨c,rest,front⟩ := List.exists_cons_of_ne_nil (Decimal.digits_ne_nil p.1)
  have digit : c.isDigit = true := Decimal.isDigit_of_mem_digits (by rw [front]; exact List.mem_cons_self)
  have chars : d.text.toList = c :: (rest ++ p.2.spelling p.1 ++ spaced ps) := by
    have inner : d.text.toList = spelled p ++ spaced ps := (List.cons.inj whole).2
    rw [inner,spelled,front]
    rfl
  have longer : d.text ≠ "0" := by
    intro same
    have single : c :: (rest ++ p.2.spelling p.1 ++ spaced ps) = ['0'] := by rw [← chars,same]; rfl
    obtain ⟨_,some,_⟩ := spelling_known p.2 p.1
    have nothing := (List.cons.inj single).2
    exact some (List.append_eq_nil_iff.mp (List.append_eq_nil_iff.mp nothing).1).2
  have solid : Text.allBlank d.text = false := by
    rw [Text.allBlank,chars,List.all_cons,(Decimal.solid_of_isDigit digit).1,Bool.false_and]
  have first : zero.seconds + ((p :: ps).map secondsOf).sum < UInt64.size := by
    rw [seconds,show zero.seconds = 0 from rfl,Nat.zero_add]
    exact d.seconds_lt
  have second : zero.nanos + ((p :: ps).map nanosOf).sum < 1000000000 := by
    rw [nanos,show zero.nanos = 0 from rfl,Nat.zero_add]
    exact d.nanos_lt
  rw [ofText,if_neg longer,if_neg (by simp [solid]),← readComponents_blank,whole,readComponents_spaced first second]
  exact congrArg Except.ok (eq_of_parts ((Nat.zero_add _).trans seconds) ((Nat.zero_add _).trans nanos))

theorem text_injective : Function.Injective text := by
  intro d d' same
  have read := ofText_text d
  rw [same,ofText_text d'] at read
  exact (Except.ok.inj read).symm

end Lockstep.Duration
