import Lockstep.Proofs.Json.Values
import Lockstep.Proofs.Json.Written

/-!
# Indented text

The indented text of a value whose numbers are whole stands for that value, so it
reads as what was written (`ofString_pretty`).
-/

namespace Lockstep.Json

open Utf8 (encode encode_append)

/-- Values without numbers other than whole ones of 64 bits. -/
inductive Value.Plain : Value → Prop
  | null : Plain .null
  | bool (b : Bool) : Plain (.bool b)
  | nat {n : Nat} (fits : n < UInt64.size) : Plain (.nat n)
  | string (s : String) : Plain (.string s)
  | array {vs : List Value} (items : ∀ v ∈ vs, Plain v) : Plain (.array vs)
  | object {ms : List (String × Value)} (members : ∀ m ∈ ms, Plain m.2) : Plain (.object ms)

theorem blank_newLine (depth : Nat) : Blank (encode (newLine depth)) := by
  have low : ∀ c ∈ newLine depth, c.toNat < 0x80 := by
    intro c member
    rcases List.mem_cons.mp member with rfl | space
    · decide
    · rw [List.eq_of_mem_replicate space]
      decide
  rw [encode_word low]
  intro b member
  obtain ⟨c,inside,rfl⟩ := List.mem_map.mp member
  rcases List.mem_cons.mp inside with rfl | space
  · decide
  · rw [List.eq_of_mem_replicate space]
    decide

theorem encode_char {c : Char} (low : c.toNat < 0x80) (s : List Char) : encode (c :: s) = ascii c :: encode s :=
  Utf8.encode_ascii low s

theorem denotes_nat {n : Nat} (fits : n < UInt64.size) : Denotes (.value (.nat n)) (encode (Decimal.digits n)) :=
  denotes_whole (whole_digits n) (ofValues_digits n) fits

theorem encode_nil : encode [] = [] := rfl

theorem brackets : ascii '[' = 0x5B ∧ ascii ']' = 0x5D ∧ ascii '\x7b' = 0x7B ∧ ascii '\x7d' = 0x7D := by decide

/-- What an element of a list is written as, up to the next one or the bracket's end. -/
theorem denotes_items {depth : Nat} {z : List UInt8} (blank : Blank z) (v : Value) (vs : List Value)
    (each : ∀ w ∈ v :: vs, Denotes (.value w) (encode (w.writePretty depth))) :
    Denotes (.elements .list ((v :: vs).map fun w => ("",w)))
      (encode (newLine depth ++ v.writePretty depth ++ writePrettyItems depth vs) ++ z) := by
  have first := each v List.mem_cons_self
  induction vs generalizing v with
  | nil =>
    have last := Denotes.last .item (blank_newLine depth) first blank
    simpa [writePrettyItems,encode_append] using last
  | cons w vs ih =>
    have later : ∀ x ∈ w :: vs, Denotes (.value x) (encode (x.writePretty depth)) := fun x member =>
      each x (List.mem_cons_of_mem _ member)
    have further := ih w later (later w List.mem_cons_self)
    have more := Denotes.more .item (blank_newLine depth) first blank_nil further
    simpa [writePrettyItems,encode_append,encode_char] using more

theorem denotes_members {depth : Nat} {z : List UInt8} (blank : Blank z) (name : String) (v : Value)
    (ms : List (String × Value))
    (each : ∀ m ∈ (name,v) :: ms, Denotes (.value m.2) (encode (m.2.writePretty depth))) :
    Denotes (.elements .object ((name,v) :: ms))
      (encode (newLine depth ++ writeString name ++ ':' :: ' ' ::
        (v.writePretty depth ++ writePrettyMembers depth ms)) ++ z) := by
  have space : Blank [ascii ' '] := by simp [Blank]
  have label (name : String) := Label.member (blank_newLine depth) (quoted_writeString name) blank_nil
  have first := each (name,v) List.mem_cons_self
  induction ms generalizing name v with
  | nil =>
    have last := Denotes.last (label name) space first blank
    simpa [writePrettyMembers,encode_append,encode_char] using last
  | cons m ms ih =>
    obtain ⟨name',w⟩ := m
    have later : ∀ m ∈ (name',w) :: ms, Denotes (.value m.2) (encode (m.2.writePretty depth)) := fun m member =>
      each m (List.mem_cons_of_mem _ member)
    have further := ih name' w later (later _ List.mem_cons_self)
    have more := Denotes.more (label name) space first blank_nil further
    simpa [writePrettyMembers,encode_append,encode_char] using more

theorem denotes_pretty {v : Value} (plain : v.Plain) (depth : Nat) :
    Denotes (.value v) (encode (v.writePretty depth)) := by
  induction plain generalizing depth with
  | null => exact .null
  | bool b =>
    cases b with
    | true => exact .yes
    | false => exact .no
  | nat fits => exact denotes_nat fits
  | string s => exact .string (quoted_writeString s)
  | @array vs _ ih =>
    cases vs with
    | nil => exact Denotes.empty (k := .list) blank_nil
    | cons v vs =>
      have inside := denotes_items (blank_newLine depth) v vs fun w member => ih w member (depth + 1)
      have whole := Denotes.bracket inside
      have items : Bracket.list.holding ((v :: vs).map fun w => ("",w)) = .array (v :: vs) := by
        simp [Bracket.holding,Function.comp_def]
      rw [items] at whole
      simpa [Value.writePretty,encode_append,encode_char,encode_nil,brackets,Bracket.opening,Bracket.closing] using whole
  | @object ms _ ih =>
    cases ms with
    | nil => exact Denotes.empty (k := .object) blank_nil
    | cons m ms =>
      obtain ⟨name,v⟩ := m
      have inside := denotes_members (blank_newLine depth) name v ms fun m member => ih m member (depth + 1)
      have whole : Denotes (.value (.object ((name,v) :: ms))) _ := Denotes.bracket inside
      simpa [Value.writePretty,encode_append,encode_char,encode_nil,brackets,Bracket.opening,Bracket.closing] using whole

/-- What is written with indentation reads as what it was. -/
theorem ofString_pretty {v : Value} (plain : v.Plain) : Value.ofString v.pretty = .ok v := by
  have text : Utf8.ofString v.pretty = encode (v.writePretty 0) := by
    rw [Value.pretty,Utf8.ofString,String.toList_ofList]
  have read := ofBytes_complete blank_nil (denotes_pretty plain 0) blank_nil
  rw [List.nil_append,List.append_nil] at read
  rw [Value.ofString,text,read]

end Lockstep.Json
