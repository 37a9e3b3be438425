import Mathlib.Data.List.Forall2
import Mathlib.Data.List.Induction
import Mathlib.Data.List.TakeWhile
import Mathlib.Data.Nat.Digits.Defs
import Lockstep.Proofs.Wire

/-!
# The grammar of commands

What texts the peer takes for a command, said without any reader: the text falls
into pieces at its spaces and commas, a word is what is left of a piece without the
blanks at its ends, and the words are `stop`, or `start` and a number of 64 bits.
The reader of commands accepts these texts and no others (`ofText?_grammar`).
-/

namespace Lockstep

/-! ## Pieces -/

namespace Text

section
variable {α : Type} {separates : α → Bool} {s : List α} {pieces : List (List α)}

/-- The pieces of a text between its separators, empty ones included. -/
inductive Parted (separates : α → Bool) : List α → List (List α) → Prop
  | last {piece : List α} (solid : ∀ c ∈ piece, separates c = false) : Parted separates piece [piece]
  | more {piece rest : List α} {mark : α} {pieces : List (List α)} (solid : ∀ c ∈ piece, separates c = false)
      (separator : separates mark = true) (further : Parted separates rest pieces) :
      Parted separates (piece ++ mark :: rest) (piece :: pieces)

theorem Parted.split_eq (parted : Parted separates s pieces) : split separates s = pieces := by
  induction parted with
  | last solid => exact split_word solid
  | more solid separator _ ih => rw [split_append solid separator,ih]

/-- A text can grow at its front by what is no separator. -/
theorem Parted.cons {c : α} {piece : List α} (clear : separates c = false)
    (parted : Parted separates s (piece :: pieces)) : Parted separates (c :: s) ((c :: piece) :: pieces) := by
  cases parted with
  | last solid => exact .last (List.forall_mem_cons.mpr ⟨clear,solid⟩)
  | more solid separator further => exact .more (List.forall_mem_cons.mpr ⟨clear,solid⟩) separator further

theorem parted_split (separates : α → Bool) (s : List α) : Parted separates s (split separates s) := by
  induction s with
  | nil => exact .last nofun
  | cons c s ih =>
    rw [split]
    by_cases mark : separates c = true
    · rw [if_pos mark]
      have clear : ∀ c ∈ ([] : List α), separates c = false := nofun
      exact .more clear mark ih
    · rw [if_neg mark]
      have clear : separates c = false := Bool.eq_false_of_not_eq_true mark
      generalize split separates s = pieces at ih
      cases pieces with
      | nil => cases ih
      | cons piece pieces => exact ih.cons clear

theorem split_eq_iff : split separates s = pieces ↔ Parted separates s pieces := by
  constructor
  · rintro rfl
    exact parted_split separates s
  · exact Parted.split_eq

end

/-! ## Blanks at the ends -/

/-- A text with blanks around it, and none at its own ends. -/
structure Stripped (s word : List Char) : Prop where
  around : ∃ a b, s = a ++ word ++ b ∧ (∀ c ∈ a, isBlank c = true) ∧ ∀ c ∈ b, isBlank c = true
  head : ∀ c ∈ word.head?, isBlank c = false
  last : ∀ c ∈ word.getLast?, isBlank c = false

theorem dropWhile_blank {a s : List Char} (blank : ∀ c ∈ a, isBlank c = true) (front : ∀ c ∈ s.head?, isBlank c = false) :
    (a ++ s).dropWhile isBlank = s := by
  rw [List.dropWhile_append_of_pos blank]
  cases s with
  | nil => rfl
  | cons c s => rw [List.dropWhile_cons_of_neg (by simp [front c rfl])]

/-- What stands before the first character that is no blank. -/
theorem exists_dropWhile (s : List Char) : ∃ a, s = a ++ s.dropWhile isBlank ∧ (∀ c ∈ a, isBlank c = true) ∧
    ∀ c ∈ (s.dropWhile isBlank).head?, isBlank c = false := by
  refine ⟨s.takeWhile isBlank,List.takeWhile_append_dropWhile.symm,fun c member => List.mem_takeWhile_imp member,?_⟩
  intro c front
  have clear := List.head?_dropWhile_not isBlank s
  rw [Option.mem_def.mp front] at clear
  simpa using clear

theorem stripped_trim (s : List Char) : Stripped s (trim s) := by
  obtain ⟨a,front,before,first⟩ := exists_dropWhile s
  obtain ⟨b,back,after,last⟩ := exists_dropWhile (s.dropWhile isBlank).reverse
  have whole : s.dropWhile isBlank = trim s ++ b.reverse := by
    rw [trim,← List.reverse_append,← back,List.reverse_reverse]
  refine ⟨⟨a,b.reverse,?_,before,fun c member => after c (List.mem_reverse.mp member)⟩,?_,?_⟩
  · rw [List.append_assoc,← whole]
    exact front
  · intro c member
    refine first c ?_
    rw [whole,List.head?_append,Option.mem_def.mp member]
    rfl
  · intro c member
    refine last c ?_
    rw [trim,List.getLast?_reverse] at member
    exact member

theorem Stripped.trim_eq {s word : List Char} (stripped : Stripped s word) : trim s = word := by
  obtain ⟨⟨a,b,rfl,before,after⟩,first,last⟩ := stripped
  cases word with
  | nil =>
    have blank : ∀ c ∈ a ++ b, isBlank c = true := by
      intro c member
      exact (List.mem_append.mp member).elim (before c) (after c)
    have none : (a ++ b).dropWhile isBlank = [] := List.dropWhile_eq_nil_iff.mpr blank
    rw [List.append_nil,trim,none]
    rfl
  | cons c word =>
    have front : (a ++ (c :: word) ++ b).dropWhile isBlank = c :: word ++ b := by
      rw [List.append_assoc]
      exact dropWhile_blank before (by simpa using first)
    have back : (b.reverse ++ (c :: word).reverse).dropWhile isBlank = (c :: word).reverse :=
      dropWhile_blank (fun d member => after d (List.mem_reverse.mp member)) fun d member =>
        last d (List.head?_reverse.symm.trans (Option.mem_def.mp member))
    rw [trim,front,List.reverse_append,back,List.reverse_reverse]

theorem trim_eq_iff {s word : List Char} : trim s = word ↔ Stripped s word := by
  constructor
  · rintro rfl
    exact stripped_trim s
  · exact Stripped.trim_eq

end Text

/-! ## Numbers with a sign -/

namespace Decimal

/-- Decimal digits after a plus sign or without one, and their value. Leading zeros
are allowed. -/
inductive Written : List Char → Nat → Prop
  | bare {ds : List Char} (some : ds ≠ []) (digits : ∀ c ∈ ds, '0' ≤ c ∧ c ≤ '9') :
      Written ds (Nat.ofDigits 10 (ds.reverse.map digitValue))
  | plus {ds : List Char} (some : ds ≠ []) (digits : ∀ c ∈ ds, '0' ≤ c ∧ c ≤ '9') :
      Written ('+' :: ds) (Nat.ofDigits 10 (ds.reverse.map digitValue))

theorem isDigit_iff {c : Char} : c.isDigit = true ↔ '0' ≤ c ∧ c ≤ '9' := by
  rw [Char.isDigit,Bool.and_eq_true,decide_eq_true_eq,decide_eq_true_eq]
  exact Iff.rfl

/-- The value of digits by their places. -/
theorem ofDigits_eq (ds : List Char) : ofDigits ds = Nat.ofDigits 10 (ds.reverse.map digitValue) := by
  induction ds using List.reverseRecOn with
  | nil => rfl
  | append_singleton ds d ih =>
    have last : ofDigits (ds ++ [d]) = 10 * ofDigits ds + digitValue d := by
      simp only [ofDigits,ofValues,List.map_append,List.foldl_append,List.map_cons,List.map_nil,List.foldl_cons,
        List.foldl_nil]
    rw [last,ih,List.reverse_append,List.reverse_singleton,List.singleton_append,List.map_cons,Nat.ofDigits_cons]
    omega

theorem read?_eq_some_iff {s : List Char} {n : Nat} :
    read? s = some n ↔ s ≠ [] ∧ (∀ c ∈ s, '0' ≤ c ∧ c ≤ '9') ∧ Nat.ofDigits 10 (s.reverse.map digitValue) = n := by
  have all : s.all Char.isDigit = true ↔ ∀ c ∈ s, '0' ≤ c ∧ c ≤ '9' := by
    rw [List.all_eq_true]
    exact forall₂_congr fun c _ => isDigit_iff
  rw [read?,ofDigits_eq,← all,← and_assoc]
  by_cases digits : s ≠ [] ∧ s.all Char.isDigit = true
  · rw [if_pos digits,Option.some_inj]
    exact (and_iff_right digits).symm
  · rw [if_neg digits]
    constructor
    · intro none
      cases none
    · rintro ⟨within,_⟩
      exact absurd within digits

theorem readWord?_bare {s : List Char} (bare : s.head? ≠ some '+') :
    readWord? s = (read? s).bind fun n => if n < UInt64.size then some (UInt64.ofNat n) else none := by
  unfold readWord?
  split
  next rest => exact absurd rfl bare
  next => rfl

theorem word_eq_some_iff {n : Nat} {w : UInt64} :
    (if n < UInt64.size then some (UInt64.ofNat n) else none) = some w ↔ n = w.toNat := by
  constructor
  · intro fits
    split at fits
    next below =>
      cases fits
      exact (UInt64.toNat_ofNat_of_lt' below).symm
    next => cases fits
  · rintro rfl
    rw [if_pos w.toNat_lt_size,UInt64.ofNat_toNat]

theorem readWord?_eq_some_iff {s : List Char} {w : UInt64} : readWord? s = some w ↔ Written s w.toNat := by
  have behind (ds : List Char) :
      ((read? ds).bind fun n => if n < UInt64.size then some (UInt64.ofNat n) else none) = some w ↔
        read? ds = some w.toNat := by
    rw [Option.bind_eq_some_iff]
    simp only [word_eq_some_iff,exists_eq_right]
  by_cases signed : s.head? = some '+'
  · obtain ⟨rest,rfl⟩ := List.head?_eq_some_iff.mp signed
    change ((read? rest).bind _ = some w) ↔ _
    rw [behind,read?_eq_some_iff]
    constructor
    · rintro ⟨some,digits,value⟩
      exact value ▸ .plus some digits
    · intro written
      generalize value : w.toNat = n at written
      cases written with
      | bare _ digits => exact absurd (digits '+' List.mem_cons_self).1 (by decide)
      | plus some digits => exact ⟨some,digits,rfl⟩
  · rw [readWord?_bare signed,behind,read?_eq_some_iff]
    constructor
    · rintro ⟨some,digits,value⟩
      exact value ▸ .bare some digits
    · intro written
      generalize value : w.toNat = n at written
      cases written with
      | bare some digits => exact ⟨some,digits,rfl⟩
      | plus => exact absurd rfl signed

end Decimal

/-! ## Commands -/

namespace Command

/-- The words of a text: it falls into pieces at its spaces and commas, the blanks at
the ends of the pieces do not count, and what is then empty is no word. -/
def Worded (s : List Char) (ws : List (List Char)) : Prop :=
  ∃ pieces stripped, Text.Parted (fun c => c == ' ' || c == ',') s pieces ∧
    List.Forall₂ Text.Stripped pieces stripped ∧ ws = stripped.filter (!·.isEmpty)

/-- Every text has its words. -/
theorem worded_iff {s : List Char} {ws : List (List Char)} : Worded s ws ↔ ws = words s := by
  constructor
  · rintro ⟨pieces,stripped,parted,strips,rfl⟩
    have trims : List.Forall₂ (· = ·) (pieces.map Text.trim) stripped :=
      List.forall₂_map_left_iff.mpr (strips.imp fun _ _ strip => Text.trim_eq_iff.mpr strip)
    rw [List.forall₂_eq_eq_eq] at trims
    rw [words,Text.split_eq_iff.mpr parted,trims]
  · rintro rfl
    refine ⟨_,_,Text.split_eq_iff.mp rfl,?_,rfl⟩
    rw [List.forall₂_map_right_iff,List.forall₂_same]
    exact fun _ _ => Text.trim_eq_iff.mp rfl

/-- The texts that are read as a command. -/
inductive Reads : List (List Char) → Command → Prop
  | stop : Reads ["stop".toList] .stop
  | start {d : List Char} {run : Run} (number : Decimal.Written d run.toNat) : Reads ["start".toList,d] (.start run)

theorem ofText?_eq_some_iff {s : String} {c : Command} : ofText? s = some c ↔ Reads (words s.toList) c := by
  unfold ofText?
  constructor
  · intro read
    split at read
    next verb alone =>
      split at read
      next same =>
        cases read
        rw [alone,same]
        exact .stop
      next => cases read
    next verb d pair =>
      split at read
      next same =>
        obtain ⟨run,number,rfl⟩ := Option.map_eq_some_iff.mp read
        rw [pair,same]
        exact .start (Decimal.readWord?_eq_some_iff.mp number)
      next => cases read
    next => cases read
  · intro reads
    generalize words s.toList = ws at reads
    cases reads with
    | stop => rfl
    | @start d run number =>
      show (Decimal.readWord? d).map start = some (.start run)
      rw [Decimal.readWord?_eq_some_iff.mpr number,Option.map_some]

/-- Every text has its words, and no others. It is read as a stop exactly where they
are `stop` alone, and as a start of a run exactly where they are `start` and a
number, leading zeros and a plus sign allowed, of the run's value. Where the words
are anything else, or the number takes more than 64 bits, the text is no command. -/
theorem ofText?_grammar (s : String) : ∃ ws, (∀ others, Worded s.toList others ↔ others = ws) ∧
    (ofText? s = some .stop ↔ ws = ["stop".toList]) ∧
    (∀ run, ofText? s = some (.start run) ↔ ∃ d, ws = ["start".toList,d] ∧ Decimal.Written d run.toNat) ∧
    (ofText? s = none ↔ ws ≠ ["stop".toList] ∧
      ∀ d n, ws = ["start".toList,d] → Decimal.Written d n → 2 ^ 64 ≤ n) := by
  refine ⟨words s.toList,fun _ => worded_iff,?_,?_,?_⟩
  · rw [ofText?_eq_some_iff]
    constructor
    · intro reads
      generalize words s.toList = ws at reads
      cases reads
      rfl
    · intro same
      exact same ▸ .stop
  · intro run
    rw [ofText?_eq_some_iff]
    constructor
    · intro reads
      generalize words s.toList = ws at reads
      cases reads with
      | start number => exact ⟨_,rfl,number⟩
    · rintro ⟨d,same,number⟩
      exact same ▸ .start number
  · rw [Option.eq_none_iff_forall_ne_some]
    constructor
    · intro none
      refine ⟨fun same => none .stop (ofText?_eq_some_iff.mpr (same ▸ .stop)),fun d n same written => ?_⟩
      -- A number that fits would make the text a start.
      by_contra small
      have value : (UInt64.ofNat n).toNat = n := UInt64.toNat_ofNat_of_lt' (Nat.not_le.mp small)
      have number : Decimal.Written d (UInt64.ofNat n).toNat := value.symm ▸ written
      exact none (.start (UInt64.ofNat n)) (ofText?_eq_some_iff.mpr (same ▸ .start number))
    · rintro ⟨other,large⟩ c read
      have reads := ofText?_eq_some_iff.mp read
      generalize words s.toList = ws at reads other large
      cases reads with
      | stop => exact other rfl
      | @start d run number => exact absurd run.toNat_lt (Nat.not_lt.mpr (large d _ rfl number))

end Command

end Lockstep
