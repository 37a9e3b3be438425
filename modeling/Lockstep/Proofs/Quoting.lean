import Lockstep.Log.Sink
import Lockstep.Proofs.Wire
import Lockstep.Synchronizer

/-!
# Quoted text

A text between quotes can be read back: a reader that takes one character at a time
undoes every escape (`unquoted?_quoted`), so no two texts are quoted alike. And it
stays on its line: what controls a terminal or ends a line is always escaped
(`steady_quoted`). Both hold of the reply in a warning (`message_notAcknowledged`).
-/

namespace Lockstep

namespace Text

/-! ## Reading back -/

/-- Where a reader of quoted text stands: between two characters, after a backslash,
after the letter of a code point, or among its digits with the number so far. -/
inductive Stage where
  | plain
  | escape
  | letter
  | code (n : Nat)

/-- What a letter after a backslash stands for. -/
def escaped? (c : Char) : Option Char :=
  if c = '"' ∨ c = '\\' then some c
  else if c = 'n' then some '\n'
  else if c = 'r' then some '\r'
  else if c = 't' then some '\t'
  else if c = '0' then some '\x00'
  else none

/-- Reads on to the closing quote, which must be the end. -/
def unquoteFrom : Stage → List Char → Option (List Char)
  | _,[] => none
  | .plain,c :: s =>
    if c = '"' then if s = [] then some [] else none
    else if c = '\\' then unquoteFrom .escape s
    else (unquoteFrom .plain s).map (c :: ·)
  | .escape,c :: s =>
    if c = 'u' then unquoteFrom .letter s
    else (escaped? c).bind fun d => (unquoteFrom .plain s).map (d :: ·)
  | .letter,c :: s => if c = '\x7b' then unquoteFrom (.code 0) s else none
  | .code n,c :: s =>
    if c = '\x7d' then (unquoteFrom .plain s).map (Char.ofNat n :: ·)
    else (hexDigit? c).bind fun d => unquoteFrom (.code (16 * n + d)) s

/-- The text that is quoted. -/
def unquoted? (s : String) : Option String :=
  match s.toList with
  | '"' :: rest => (unquoteFrom .plain rest).map String.ofList
  | _ => none

/-- A character is quoted by its letter after a backslash, by its code point where it
has no shape of its own, or as it is. -/
theorem quoteChar_cases (c : Char) :
    (∃ l, escaped? l = some c ∧ l ≠ 'u' ∧ 0x20 ≤ l.toNat ∧ l.toNat < 0x7F ∧ quoteChar c = ['\\',l]) ∨
    (isShapeless c = true ∧ quoteChar c = '\\' :: 'u' :: '\x7b' :: (hexDigits c.toNat ++ ['\x7d'])) ∨
    (isShapeless c = false ∧ c ≠ '"' ∧ c ≠ '\\' ∧ quoteChar c = [c]) := by
  fun_cases quoteChar c with
  | case1 same => exact .inl ⟨'"',by rw [same]; decide⟩
  | case2 _ same => exact .inl ⟨'\\',by rw [same]; decide⟩
  | case3 _ _ same => exact .inl ⟨'n',by rw [same]; decide⟩
  | case4 _ _ _ same => exact .inl ⟨'r',by rw [same]; decide⟩
  | case5 _ _ _ _ same => exact .inl ⟨'t',by rw [same]; decide⟩
  | case6 _ _ _ _ _ same => exact .inl ⟨'0',by rw [same]; decide⟩
  | case7 _ _ _ _ _ _ shapeless => exact .inr (.inl ⟨shapeless,rfl⟩)
  | case8 quote backslash _ _ _ _ shaped => exact .inr (.inr ⟨Bool.eq_false_iff.mpr shaped,quote,backslash,rfl⟩)

theorem hexDigit?_digitChar : ∀ d < 16, hexDigit? (Nat.digitChar d) = some d ∧ Nat.digitChar d ≠ '\x7d' := by decide

theorem unquoteFrom_digit {d : Nat} (small : d < 16) (n : Nat) (s : List Char) :
    unquoteFrom (.code n) (Nat.digitChar d :: s) = unquoteFrom (.code (16 * n + d)) s := by
  obtain ⟨value,inside⟩ := hexDigit?_digitChar d small
  rw [unquoteFrom,if_neg inside,value,Option.bind_some]

/-- The digits of a number are read as the number: all but the last are those of its
sixteenth. -/
theorem unquoteFrom_hexDigits (n : Nat) (s : List Char) :
    unquoteFrom (.code 0) (hexDigits n ++ s) = unquoteFrom (.code n) s := by
  induction n using Nat.strongRecOn generalizing s with
  | ind n ih =>
    by_cases small : n < 16
    · rw [hexDigits,Nat.toDigits_of_lt_base small,List.singleton_append,unquoteFrom_digit small,Nat.mul_zero,
        Nat.zero_add]
    · have split : hexDigits n = hexDigits (n / 16) ++ [Nat.digitChar (n % 16)] :=
        Nat.toDigits_of_base_le (by decide) (Nat.le_of_not_lt small)
      rw [split,List.append_assoc,ih (n / 16) (by omega),List.singleton_append,unquoteFrom_digit (by omega),
        Nat.div_add_mod]

theorem unquoteFrom_quoteChar (c : Char) (s : List Char) :
    unquoteFrom .plain (quoteChar c ++ s) = (unquoteFrom .plain s).map (c :: ·) := by
  have escape (s : List Char) : unquoteFrom .plain ('\\' :: s) = unquoteFrom .escape s := by simp [unquoteFrom]
  rcases quoteChar_cases c with ⟨l,stands,other,_,_,quoted⟩ | ⟨_,quoted⟩ | ⟨_,quote,backslash,quoted⟩
  · simp only [quoted,List.cons_append,List.nil_append]
    rw [escape,unquoteFrom,if_neg other,stands,Option.bind_some]
  · simp only [quoted,List.cons_append,List.append_assoc,List.nil_append]
    rw [escape,unquoteFrom,if_pos rfl,unquoteFrom,if_pos rfl,unquoteFrom_hexDigits,unquoteFrom,if_pos rfl,
      Char.ofNat_toNat]
  · simp only [quoted,List.cons_append,List.nil_append]
    rw [unquoteFrom,if_neg quote,if_neg backslash]

/-- Every text is read back from its quoted form. -/
theorem unquoted?_quoted (s : String) : unquoted? (quoted s) = some s := by
  have body (cs : List Char) : unquoteFrom .plain (cs.flatMap quoteChar ++ ['"']) = some cs := by
    induction cs with
    | nil => rfl
    | cons c cs ih => rw [List.flatMap_cons,List.append_assoc,unquoteFrom_quoteChar,ih,Option.map_some]
  rw [unquoted?,quoted,String.toList_ofList]
  show (unquoteFrom .plain (s.toList.flatMap quoteChar ++ ['"'])).map String.ofList = some s
  rw [body,Option.map_some,String.ofList_toList]

/-! ## One line -/

/-- The control characters. -/
def IsControl (c : Char) : Prop := c.toNat < 0x20 ∨ 0x7F ≤ c.toNat ∧ c.toNat < 0xA0

/-- The characters that end a line. -/
def EndsLine (c : Char) : Prop := c.toNat ∈ [0xA,0xB,0xC,0xD,0x85,0x2028,0x2029]

/-- A text that can neither control a terminal nor end its line. -/
def Steady (s : List Char) : Prop := ∀ c ∈ s, ¬IsControl c ∧ ¬EndsLine c

instance : DecidablePred IsControl := fun c =>
  inferInstanceAs (Decidable (c.toNat < 0x20 ∨ 0x7F ≤ c.toNat ∧ c.toNat < 0xA0))

instance : DecidablePred EndsLine := fun c =>
  inferInstanceAs (Decidable (c.toNat ∈ [0xA,0xB,0xC,0xD,0x85,0x2028,0x2029]))

-- Named, because the instance for statements on characters goes through all of them.
instance : DecidablePred Steady := List.decidableBAll fun c => ¬IsControl c ∧ ¬EndsLine c

theorem steady_append {s t : List Char} (first : Steady s) (second : Steady t) : Steady (s ++ t) := by
  intro c member
  rcases List.mem_append.mp member with early | late
  · exact first c early
  · exact second c late

theorem steady_ascii {s : List Char} (printable : ∀ c ∈ s, 0x20 ≤ c.toNat ∧ c.toNat < 0x7F) : Steady s := by
  intro c member
  have range := printable c member
  simp only [IsControl,EndsLine,List.mem_cons,List.not_mem_nil,or_false]
  omega

theorem isShapeless_of_mem {c : Char} {first last : Nat} (known : (first,last) ∈ shapelessRanges)
    (inside : first ≤ c.toNat ∧ c.toNat ≤ last) (outside : ¬(0x20 ≤ c.toNat ∧ c.toNat < 0x7F)) :
    isShapeless c = true := by
  rw [isShapeless,if_neg outside]
  exact List.any_eq_true.mpr ⟨(first,last),known,by simpa using inside⟩

/-- What has a shape of its own stays on its line. -/
theorem steady_of_shaped {c : Char} (shaped : isShapeless c = false) : Steady [c] := by
  have apart (first last : Nat) (known : (first,last) ∈ shapelessRanges) :
      ¬((first ≤ c.toNat ∧ c.toNat ≤ last) ∧ ¬(0x20 ≤ c.toNat ∧ c.toNat < 0x7F)) := by
    rintro ⟨inside,outside⟩
    rw [isShapeless_of_mem known inside outside] at shaped
    cases shaped
  have low := apart 0x0 0x1F (List.mem_of_elem_eq_true (by decide +kernel))
  have high := apart 0x7F 0xA0 (List.mem_of_elem_eq_true (by decide +kernel))
  have separators := apart 0x2028 0x202F (List.mem_of_elem_eq_true (by decide +kernel))
  intro d member
  obtain rfl := List.mem_singleton.mp member
  simp only [IsControl,EndsLine,List.mem_cons,List.not_mem_nil,or_false]
  omega

theorem mem_hexDigits {n : Nat} {c : Char} (member : c ∈ hexDigits n) : ∃ d < 16, c = Nat.digitChar d := by
  induction n using Nat.strongRecOn with
  | ind n ih =>
    by_cases small : n < 16
    · rw [hexDigits,Nat.toDigits_of_lt_base small] at member
      exact ⟨n,small,List.mem_singleton.mp member⟩
    · have split : hexDigits n = hexDigits (n / 16) ++ [Nat.digitChar (n % 16)] :=
        Nat.toDigits_of_base_le (by decide) (Nat.le_of_not_lt small)
      rw [split] at member
      rcases List.mem_append.mp member with early | late
      · exact ih (n / 16) (by omega) early
      · exact ⟨n % 16,by omega,List.mem_singleton.mp late⟩

theorem printable_digitChar : ∀ d < 16, 0x20 ≤ (Nat.digitChar d).toNat ∧ (Nat.digitChar d).toNat < 0x7F := by decide

theorem steady_quoteChar (c : Char) : Steady (quoteChar c) := by
  rcases quoteChar_cases c with ⟨l,_,_,least,below,quoted⟩ | ⟨_,quoted⟩ | ⟨shaped,_,_,quoted⟩
  · have letter : Steady [l] := steady_ascii (by simpa using ⟨least,below⟩)
    rw [quoted]
    exact steady_append (s := ['\\']) (by decide) letter
  · have digits : Steady (hexDigits c.toNat) := by
      refine steady_ascii fun x member => ?_
      obtain ⟨d,small,rfl⟩ := mem_hexDigits member
      exact printable_digitChar d small
    rw [quoted]
    exact steady_append (s := ['\\','u','\x7b']) (by decide) (steady_append digits (by decide))
  · rw [quoted]
    exact steady_of_shaped shaped

/-- A quoted text stays on its line. -/
theorem steady_quoted (s : String) : Steady (quoted s).toList := by
  have body (cs : List Char) : Steady (cs.flatMap quoteChar) := by
    intro x member
    obtain ⟨c,_,within⟩ := List.mem_flatMap.mp member
    exact steady_quoteChar c x within
  rw [quoted,String.toList_ofList]
  exact steady_append (steady_append (s := ['"']) (by decide) (body s.toList)) (by decide)

theorem split_steady {s : List Char} (steady : Steady s) : split (· == '\n') s = [s] := by
  refine split_word fun c member => ?_
  have other : c ≠ '\n' := by
    rintro rfl
    exact (steady '\n' member).2 (by simp [EndsLine])
  simpa using other

theorem steady_digits (n : Nat) : Steady (Decimal.digits n) := by
  refine steady_ascii fun c member => ?_
  have range := Decimal.range_of_isDigit (Decimal.isDigit_of_mem_digits member)
  omega

theorem steady_wire (c : Command) : Steady c.wire.toList := by
  cases c with
  | stop => decide +kernel
  | start run =>
    have number : run.text.toList = Decimal.digits run.toNat := String.toList_ofList
    rw [Command.wire,String.toList_append,number]
    exact steady_append (by decide +kernel) (steady_digits run.toNat)

end Text

/-! ## Warnings -/

namespace LinkError

open Synchronizer

theorem toList_message (response : String) : (notAcknowledged response).message.toList =
    "scouting peer did not acknowledge (response: ".toList ++ (Text.quoted response).toList ++ ")".toList := by
  unfold message
  rw [String.toList_append,String.toList_append]

theorem steady_message (response : String) : Text.Steady (notAcknowledged response).message.toList := by
  have front : Text.Steady "scouting peer did not acknowledge (response: ".toList := by decide +kernel
  have back : Text.Steady ")".toList := by decide +kernel
  rw [toList_message]
  exact Text.steady_append (Text.steady_append front (Text.steady_quoted response)) back

/-- The line of a warning is its fixed words, the command, a number and the message. -/
theorem steady_line (c : Command) (run : Lockstep.Run) (response : String) :
    Text.Steady (Event.notAcknowledged c run (.notAcknowledged response)).record.line.toList := by
  have words : (Event.notAcknowledged c run (.notAcknowledged response)).record.line.toList =
      ("WARN scout_sync::synchronizer: Command not acknowledged, will retry next cycle command=".toList ++
        c.wire.toList) ++ (" run=".toList ++ Decimal.digits run.toNat) ++
      (" error=".toList ++ (notAcknowledged response).message.toList) := by
    simp [Event.record,Log.Record.line,Log.Level.name,target,String.join,Log.Field.shown,runField,Decimal.text]
  rw [words]
  exact Text.steady_append
    (Text.steady_append (Text.steady_append (by decide +kernel) (Text.steady_wire c))
      (Text.steady_append (by decide +kernel) (Text.steady_digits run.toNat)))
    (Text.steady_append (by decide +kernel) (steady_message response))

/-- Whatever a peer replies, the message that it did not acknowledge tells the reply: the
quoted part reads back as it, so that another reply has another message. Neither the
message nor the line of the warning that carries it has a control character or the
end of a line, and that warning is one line of the log. -/
theorem message_notAcknowledged (response : String) :
    (∃ q, (notAcknowledged response).message = "scouting peer did not acknowledge (response: " ++ q ++ ")" ∧
      Text.unquoted? q = some response) ∧
    (∀ other, (notAcknowledged other).message = (notAcknowledged response).message → other = response) ∧
    (∀ x ∈ (notAcknowledged response).message.toList, ¬Text.IsControl x ∧ ¬Text.EndsLine x) ∧
    ∀ c run,
      let warning := (Event.notAcknowledged c run (.notAcknowledged response)).record
      Text.Steady warning.line.toList ∧ ∀ filter, (Log.Sink.mk filter .text).linesOf warning = [warning.line] := by
  refine ⟨⟨Text.quoted response,rfl,Text.unquoted?_quoted response⟩,?_,steady_message response,?_⟩
  · intro other same
    have texts := congrArg String.toList same
    rw [toList_message,toList_message] at texts
    have quoted : Text.quoted other = Text.quoted response :=
      String.toList_injective (List.append_cancel_left (List.append_cancel_right texts))
    have read := Text.unquoted?_quoted other
    rw [quoted,Text.unquoted?_quoted] at read
    exact (Option.some.inj read).symm
  · intro c run warning
    have steady : Text.Steady warning.line.toList := steady_line c run response
    refine ⟨steady,fun filter => ?_⟩
    rw [Log.Sink.linesOf,Log.Sink.render,Text.split_steady steady]
    exact congrArg ([·]) String.ofList_toList

end LinkError

end Lockstep
