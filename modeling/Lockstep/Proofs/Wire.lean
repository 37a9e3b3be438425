import Lockstep.Command

/-!
# Commands on the wire

The grammar by which the peer reads a command takes the text of every command
back to the command (`ofText?_wire`).
-/

namespace Lockstep

/-! ## Words -/

namespace Text

variable {α : Type} {separates : α → Bool} {word : List α}

theorem split_word (solid : ∀ c ∈ word, separates c = false) : split separates word = [word] := by
  induction word with
  | nil => rfl
  | cons c word ih =>
    have clear : separates c = false := solid c List.mem_cons_self
    simp only [split,clear,Bool.false_eq_true,if_false,
      ih (fun d member => solid d (List.mem_cons_of_mem _ member))]

theorem split_append (solid : ∀ c ∈ word, separates c = false) {mark : α} (separator : separates mark = true)
    (rest : List α) : split separates (word ++ mark :: rest) = word :: split separates rest := by
  induction word with
  | nil => simp only [List.nil_append,split,separator,if_true]
  | cons c word ih =>
    have clear : separates c = false := solid c List.mem_cons_self
    simp only [List.cons_append,split,clear,Bool.false_eq_true,if_false,
      ih (fun d member => solid d (List.mem_cons_of_mem _ member))]

private theorem dropWhile_solid {s : List Char} (solid : ∀ c ∈ s, isBlank c = false) : s.dropWhile isBlank = s := by
  cases s with
  | nil => rfl
  | cons c s => rw [List.dropWhile_cons_of_neg]; simp [solid c List.mem_cons_self]

/-- A text without blanks is left as it is. -/
theorem trim_solid {s : List Char} (solid : ∀ c ∈ s, isBlank c = false) : trim s = s := by
  have reversed : ∀ c ∈ s.reverse, isBlank c = false := fun c member => solid c (List.mem_reverse.mp member)
  rw [trim,dropWhile_solid solid,dropWhile_solid reversed,List.reverse_reverse]

end Text

/-! ## Run numbers -/

namespace Decimal

theorem digits_ne_nil (n : Nat) : digits n ≠ [] := Nat.toDigits_ne_nil
theorem isDigit_of_mem_digits {n : Nat} {c : Char} (member : c ∈ digits n) : c.isDigit = true :=
  Nat.isDigit_of_mem_toDigits (by decide) (by decide) member

theorem ofDigits_digits (n : Nat) : ofDigits (digits n) = n := by
  rw [ofDigits,ofValues,List.foldl_map]
  exact Nat.ofDigitChars_ten_toDigits

theorem read?_digits (n : Nat) : read? (digits n) = some n := by
  rw [read?,if_pos ⟨digits_ne_nil n,List.all_eq_true.mpr (fun _ => isDigit_of_mem_digits)⟩,ofDigits_digits]

/-- A word is read back from its digits. -/
theorem readWord?_digits (n : UInt64) : readWord? (digits n.toNat) = some n := by
  unfold readWord?
  split
  next rest signed =>
    have member : '+' ∈ digits n.toNat := by rw [signed]; exact List.mem_cons_self
    exact absurd (isDigit_of_mem_digits member) (by decide)
  next =>
    show (read? (digits n.toNat)).bind _ = some n
    rw [read?_digits,Option.bind_some,if_pos n.toNat_lt_size,UInt64.ofNat_toNat]

theorem range_of_isDigit {c : Char} (digit : c.isDigit = true) : 0x30 ≤ c.toNat ∧ c.toNat ≤ 0x39 := by
  simpa [Char.isDigit,UInt32.le_iff_toNat_le] using digit

/-- A digit is no blank and parts no words. -/
theorem solid_of_isDigit {c : Char} (digit : c.isDigit = true) :
    Text.isBlank c = false ∧ (c == ' ' || c == ',') = false := by
  have range := range_of_isDigit digit
  have space : c ≠ ' ' := by rintro rfl; simp at range
  have comma : c ≠ ',' := by rintro rfl; simp at range
  refine ⟨?_,by simp [space,comma]⟩
  simp only [Text.isBlank,Bool.or_eq_false_iff,Bool.and_eq_false_iff,decide_eq_false_iff_not,beq_eq_false_iff_ne]
  omega

end Decimal

/-! ## Commands -/

namespace Command

theorem words_stop : words "stop".toList = ["stop".toList] := by decide +kernel

/-- The words of a start are the verb and the digits of the run. -/
theorem words_start (run : Run) :
    words ("start " ++ run.text).toList = ["start".toList,Decimal.digits run.toNat] := by
  have parts : ("start " ++ run.text).toList = "start".toList ++ ' ' :: Decimal.digits run.toNat := by
    have number : run.text.toList = Decimal.digits run.toNat := String.toList_ofList
    rw [String.toList_append,number]
    exact List.append_assoc "start".toList [' '] (Decimal.digits run.toNat)
  have solid : ∀ c ∈ Decimal.digits run.toNat, Text.isBlank c = false ∧ (c == ' ' || c == ',') = false :=
    fun c member => Decimal.solid_of_isDigit (Decimal.isDigit_of_mem_digits member)
  have letters : "start".toList.all (fun c => !(c == ' ' || c == ',')) = true := by decide +kernel
  have verb : Text.trim "start".toList = "start".toList := by decide +kernel
  have number : Text.trim (Decimal.digits run.toNat) = Decimal.digits run.toNat :=
    Text.trim_solid (fun c member => (solid c member).1)
  rw [words,parts,
    Text.split_append (fun c member => (Bool.not_eq_true' _).mp (List.all_eq_true.mp letters c member)) (by decide),
    Text.split_word (fun c member => (solid c member).2),List.map_cons,List.map_singleton,verb,number]
  cases shape : Decimal.digits run.toNat with
  | nil => exact absurd shape (Decimal.digits_ne_nil _)
  | cons d ds => rfl

/-- Every command is read back from its text. -/
theorem ofText?_wire (c : Command) : ofText? c.wire = some c := by
  cases c with
  | start run =>
    rw [ofText?,wire,words_start]
    exact congrArg (Option.map start) (Decimal.readWord?_digits run)
  | stop => rw [ofText?,wire,words_stop]; rfl

end Command

end Lockstep
