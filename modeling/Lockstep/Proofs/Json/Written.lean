import Lockstep.Json.Value
import Lockstep.Proofs.Json.Strings
import Lockstep.Proofs.Wire

/-!
# Written text

The writer of JSON keeps to the grammar: what it puts between quotes spells the
string that it was given, whatever characters that has (`quoted_writeString`),
and the digits of a number are a whole number of that value (`whole_digits`,
`ofValues_digits`).
-/

namespace Lockstep.Json

open Utf8 (encode encode_append)

theorem encode_word {s : List Char} (low : ∀ c ∈ s, c.toNat < 0x80) : encode s = s.map ascii := by
  induction s with
  | nil => rfl
  | cons c s ih =>
    rw [Utf8.encode_ascii (low c List.mem_cons_self),ih fun d member => low d (List.mem_cons_of_mem c member)]
    rfl

/-! ## Strings -/

/-- A character is written by its letter after a backslash, by its number, or as
it is. -/
theorem writeChar_cases (c : Char) :
    (∃ l, (l,c) ∈ letters ∧ writeChar c = ['\\',l]) ∨
    (c.toNat < 0x20 ∧
      writeChar c = ['\\','u','0','0',Nat.digitChar (c.toNat / 16),Nat.digitChar (c.toNat % 16)]) ∨
    (0x20 ≤ c.toNat ∧ c ≠ '"' ∧ c ≠ '\\' ∧ writeChar c = [c]) := by
  fun_cases writeChar c with
  | case1 same => exact .inl ⟨'"',by rw [same]; decide,rfl⟩
  | case2 _ same => exact .inl ⟨'\\',by rw [same]; decide,rfl⟩
  | case3 _ _ same => exact .inl ⟨'b',by rw [same]; decide,rfl⟩
  | case4 _ _ _ same => exact .inl ⟨'t',by rw [same]; decide,rfl⟩
  | case5 _ _ _ _ same => exact .inl ⟨'n',by rw [same]; decide,rfl⟩
  | case6 _ _ _ _ _ same => exact .inl ⟨'f',by rw [same]; decide,rfl⟩
  | case7 _ _ _ _ _ _ same => exact .inl ⟨'r',by rw [same]; decide,rfl⟩
  | case8 _ _ _ _ _ _ _ control => exact .inr (.inl ⟨control,rfl⟩)
  | case9 quote backslash _ _ _ _ _ printable =>
    exact .inr (.inr ⟨Nat.le_of_not_lt printable,quote,backslash,rfl⟩)

theorem letters_ascii : ∀ m ∈ letters, m.1.toNat < 0x80 := by decide
theorem digitChar_ascii : ∀ v < 16, (Nat.digitChar v).toNat < 0x80 := by decide

/-- The number of a control character is written with the digits of a code unit. -/
theorem escape_control {c : Char} (control : c.toNat < 0x20) :
    Escape (['u','0','0',Nat.digitChar (c.toNat / 16),Nat.digitChar (c.toNat % 16)].map ascii) c := by
  have zero : HexDigit (ascii '0') 0 := ⟨by decide,.inl rfl⟩
  have high : HexDigit (ascii (Nat.digitChar (c.toNat / 16))) (c.toNat / 16) := ⟨by omega,.inl rfl⟩
  have low : HexDigit (ascii (Nat.digitChar (c.toNat % 16))) (c.toNat % 16) := ⟨by omega,.inl rfl⟩
  have number : 0 * 0x1000 + 0 * 0x100 + c.toNat / 16 * 0x10 + c.toNat % 16 = c.toNat := by omega
  have escape := Escape.code (.mk zero zero high low) (by omega)
  rw [number,Char.ofNat_toNat] at escape
  exact escape

theorem spells_writeChar {body : List UInt8} {s : List Char} (c : Char) (further : Spells body s) :
    Spells (encode (writeChar c) ++ body) (c :: s) := by
  rcases writeChar_cases c with ⟨l,known,written⟩ | ⟨control,written⟩ | ⟨printable,quote,backslash,written⟩
  · have low : ∀ d ∈ ['\\',l], d.toNat < 0x80 := by
      simp [letters_ascii _ known]
    rw [written,encode_word low]
    exact .escape (.letter known) further
  · have low : ∀ d ∈ ['\\','u','0','0',Nat.digitChar (c.toNat / 16),Nat.digitChar (c.toNat % 16)],
        d.toNat < 0x80 := by
      simp [digitChar_ascii (c.toNat / 16) (by omega),digitChar_ascii (c.toNat % 16) (by omega)]
    rw [written,encode_word low]
    exact .escape (escape_control control) further
  · have alone : encode [c] = Utf8.encodeChar c := List.append_nil _
    rw [written,alone]
    exact .plain printable quote backslash further

theorem spells_flatMap (s : List Char) : Spells (encode (s.flatMap writeChar)) s := by
  induction s with
  | nil => exact .nil
  | cons c s ih =>
    rw [List.flatMap_cons,encode_append]
    exact spells_writeChar c ih

/-- Every string is written as text of the grammar that stands for it. -/
theorem quoted_writeString (s : String) : Quoted (encode (writeString s)) s := by
  refine ⟨encode (s.toList.flatMap writeChar),spells_flatMap s.toList,?_⟩
  rw [writeString,encode_append,Utf8.encode_ascii (by decide)]
  rfl

/-! ## Numbers -/

theorem digit_ascii {n : Nat} {c : Char} (member : c ∈ Decimal.digits n) : 0x30 ≤ c.toNat ∧ c.toNat ≤ 0x39 :=
  Decimal.range_of_isDigit (Decimal.isDigit_of_mem_digits member)

theorem encode_digits (n : Nat) : encode (Decimal.digits n) = (Decimal.digits n).map ascii :=
  encode_word fun _ member => Nat.lt_of_le_of_lt (digit_ascii member).2 (by decide)

/-- A zero stands in front of no other digit. -/
theorem head_digits (n : Nat) (zero : (Decimal.digits n).head? = some '0') : Decimal.digits n = ['0'] := by
  induction n using Nat.strongRecOn with
  | ind n ih =>
    by_cases small : n < 10
    · rw [Decimal.digits,Nat.toDigits_of_lt_base small] at zero ⊢
      exact congrArg ([·]) (Option.some.inj zero)
    · have split : Decimal.digits n = Decimal.digits (n / 10) ++ [Nat.digitChar (n % 10)] :=
        Nat.toDigits_of_base_le (by decide) (Nat.le_of_not_lt small)
      rw [split,List.head?_append_of_ne_nil _ (Decimal.digits_ne_nil _)] at zero
      -- The front is a number of its own, and it is not zero.
      have front := congrArg Decimal.ofDigits (ih (n / 10) (by omega) zero)
      rw [Decimal.ofDigits_digits] at front
      have nothing : Decimal.ofDigits ['0'] = 0 := by decide
      omega

theorem whole_digits (n : Nat) : Whole (encode (Decimal.digits n)) := by
  rw [encode_digits]
  refine ⟨⟨?_,?_⟩,?_⟩
  · simp [Decimal.digits_ne_nil]
  · intro b member
    obtain ⟨c,digit,rfl⟩ := List.mem_map.mp member
    have range := digit_ascii digit
    have value : (ascii c).toNat = c.toNat := toNat_ascii (by omega)
    rw [UInt8.le_iff_toNat_le,UInt8.le_iff_toNat_le,value]
    exact range
  · intro zero
    rw [List.head?_map] at zero
    obtain ⟨c,front,same⟩ := Option.map_eq_some_iff.mp zero
    have low : c.toNat < 0x80 := by
      have range := digit_ascii (List.mem_of_head? front)
      omega
    obtain rfl : c = '0' := Utf8.ascii_inj low (by decide) same
    rw [head_digits n front]
    rfl

theorem ofValues_digits (n : Nat) : Decimal.ofValues 0 (digitValues (encode (Decimal.digits n))) = n := by
  have values : digitValues ((Decimal.digits n).map ascii) = (Decimal.digits n).map Decimal.digitValue := by
    rw [digitValues,List.map_map]
    apply List.map_congr_left
    intro c member
    have range := digit_ascii member
    show (ascii c).toNat - 0x30 = c.toNat - 0x30
    rw [toNat_ascii (by omega)]
  rw [encode_digits,values]
  exact Decimal.ofDigits_digits n

end Lockstep.Json
