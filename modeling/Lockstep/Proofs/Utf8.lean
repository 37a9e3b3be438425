import Mathlib.Data.List.Basic
import Lockstep.Text.Occurs
import Lockstep.Utf8

/-!
# Characters and broken stretches

Every byte string falls into the bytes of characters and broken stretches
between them, and no ASCII byte lies in a broken stretch (`pieces_decode`). Two
facts follow. Well-formed text is what encodes some characters
(`strict?_eq_some_iff`). And reading with replacements neither makes nor hides a
word of ASCII characters, whatever stands around it (`infix_lossy`).
-/

namespace Lockstep.Utf8

/-! ## The bytes of a character -/

/-- A byte that only goes on with a character. -/
def IsTail (b : UInt8) : Prop := 0x80 ≤ b.toNat ∧ b.toNat ≤ 0xBF

theorem toNat_char {n : Nat} (valid : n.isValidChar) : (Char.ofNat n).toNat = n := by
  rw [Char.ofNat,dif_pos valid]
  rfl

theorem encode_cons (c : Char) (s : List Char) : encode (c :: s) = encodeChar c ++ encode s := List.flatMap_cons

theorem encode_append (s t : List Char) : encode (s ++ t) = encode s ++ encode t := List.flatMap_append

theorem byte_eq {n : Nat} {b : UInt8} (same : n % 256 = b.toNat) : UInt8.ofNat n = b :=
  UInt8.toNat_inj.mp same

section
variable {c : Char}

theorem encodeChar_one (below : c.toNat < 0x80) : encodeChar c = [UInt8.ofNat c.toNat] := by
  simp only [encodeChar,if_pos below]

theorem encodeChar_two (least : 0x80 ≤ c.toNat) (below : c.toNat < 0x800) :
    encodeChar c = [UInt8.ofNat (0xC0 + c.toNat / 64),continuation c.toNat] := by
  simp only [encodeChar]
  rw [if_neg (by omega),if_pos below]

theorem encodeChar_three (least : 0x800 ≤ c.toNat) (below : c.toNat < 0x10000) :
    encodeChar c =
      [UInt8.ofNat (0xE0 + c.toNat / 4096),continuation (c.toNat / 64),continuation c.toNat] := by
  simp only [encodeChar]
  rw [if_neg (by omega),if_neg (by omega),if_pos below]

theorem encodeChar_four (least : 0x10000 ≤ c.toNat) :
    encodeChar c = [UInt8.ofNat (0xF0 + c.toNat / 262144),continuation (c.toNat / 4096),
      continuation (c.toNat / 64),continuation c.toNat] := by
  simp only [encodeChar]
  rw [if_neg (by omega),if_neg (by omega),if_neg (by omega)]

end

/-- The bits of a character with those of one more byte. -/
def extend (bits : Nat) (b : UInt8) : Nat := bits * 64 + b.toNat % 64

theorem encodeChar_of_ascii {a : UInt8} (low : a.toNat < 0x80) : encodeChar (Char.ofNat a.toNat) = [a] := by
  have code := toNat_char (n := a.toNat) (.inl (by omega))
  rw [encodeChar_one (by omega),code,UInt8.ofNat_toNat]

theorem encodeChar_of_two {a b : UInt8} (first : 0xC2 ≤ a.toNat) (last : a.toNat < 0xE0) (tail : IsTail b) :
    encodeChar (Char.ofNat (extend (a.toNat - 0xC0) b)) = [a,b] := by
  obtain ⟨low,high⟩ := tail
  obtain ⟨n,whole⟩ : ∃ n, n = extend (a.toNat - 0xC0) b := ⟨_,rfl⟩
  have bits : n = (a.toNat - 0xC0) * 64 + b.toNat % 64 := whole
  have code := toNat_char (n := n) (.inl (by omega))
  rw [← whole,encodeChar_two (by omega) (by omega),code,continuation,
    byte_eq (b := a) (by omega),byte_eq (b := b) (by omega)]

theorem encodeChar_of_three {a b c : UInt8} (first : 0xE0 ≤ a.toNat) (last : a.toNat < 0xF0) (second : IsTail b)
    (long : a.toNat = 0xE0 → 0xA0 ≤ b.toNat) (scalar : a.toNat = 0xED → b.toNat ≤ 0x9F) (third : IsTail c) :
    encodeChar (Char.ofNat (extend (extend (a.toNat - 0xE0) b) c)) = [a,b,c] := by
  obtain ⟨low,high⟩ := second
  obtain ⟨low',high'⟩ := third
  obtain ⟨n,whole⟩ : ∃ n, n = extend (extend (a.toNat - 0xE0) b) c := ⟨_,rfl⟩
  have bits : n = ((a.toNat - 0xE0) * 64 + b.toNat % 64) * 64 + c.toNat % 64 := whole
  have valid : n.isValidChar := by unfold Nat.isValidChar; omega
  have code := toNat_char valid
  rw [← whole,encodeChar_three (by omega) (by omega),code,continuation,continuation,
    byte_eq (b := a) (by omega),byte_eq (b := b) (by omega),byte_eq (b := c) (by omega)]

theorem encodeChar_of_four {a b c d : UInt8} (first : 0xF0 ≤ a.toNat) (last : a.toNat ≤ 0xF4) (second : IsTail b)
    (long : a.toNat = 0xF0 → 0x90 ≤ b.toNat) (bound : a.toNat = 0xF4 → b.toNat ≤ 0x8F) (third : IsTail c)
    (fourth : IsTail d) :
    encodeChar (Char.ofNat (extend (extend (extend (a.toNat - 0xF0) b) c) d)) = [a,b,c,d] := by
  obtain ⟨low,high⟩ := second
  obtain ⟨low',high'⟩ := third
  obtain ⟨low'',high''⟩ := fourth
  obtain ⟨n,whole⟩ : ∃ n, n = extend (extend (extend (a.toNat - 0xF0) b) c) d := ⟨_,rfl⟩
  have bits : n = (((a.toNat - 0xF0) * 64 + b.toNat % 64) * 64 + c.toNat % 64) * 64 + d.toNat % 64 := whole
  have valid : n.isValidChar := by unfold Nat.isValidChar; omega
  have code := toNat_char valid
  rw [← whole,encodeChar_four (by omega),code,continuation,continuation,continuation,
    byte_eq (b := a) (by omega),byte_eq (b := b) (by omega),byte_eq (b := c) (by omega),byte_eq (b := d) (by omega)]

/-! ## Characters begun -/

/-- Bytes that finish a character begun. -/
structure Begun.Fills (b : Begun) (q : List UInt8) : Prop where
  length : q.length = b.owed
  head : ∀ x ∈ q.head?, b.low ≤ x.toNat ∧ x.toNat ≤ b.high
  tails : ∀ x ∈ q, IsTail x

/-- A character of which some bytes have been read: whatever finishes it gives a
character that is encoded as those bytes and the ones that finish it. -/
structure Begun.After (b : Begun) (p : List UInt8) : Prop where
  nonempty : p ≠ []
  high : ∀ x ∈ p, 0x80 ≤ x.toNat
  owes : 0 < b.owed
  least : 0x80 ≤ b.low
  greatest : b.high ≤ 0xBF
  filled : ∀ q, b.Fills q → encodeChar (Char.ofNat (q.foldl extend b.bits)) = p ++ q

section
variable {a : UInt8} {bits low high : Nat}

theorem Begun.Fills.range {b : Begun} {x : UInt8} {q : List UInt8} (fills : b.Fills (x :: q)) :
    b.low ≤ x.toNat ∧ x.toNat ≤ b.high :=
  fills.head x rfl

theorem after_two (first : 0xC2 ≤ a.toNat) (last : a.toNat < 0xE0) :
    (Begun.mk (a.toNat - 0xC0) 1 0x80 0xBF).After [a] := by
  refine ⟨by simp,by simp; omega,by simp,by simp,by simp,?_⟩
  intro q fills
  obtain ⟨x,rfl⟩ := List.length_eq_one_iff.mp fills.length
  exact encodeChar_of_two first last (fills.tails x (by simp))

theorem after_three (first : 0xE0 ≤ a.toNat := by omega) (last : a.toNat < 0xF0 := by omega)
    (sum : bits = a.toNat - 0xE0 := by omega) (least : 0x80 ≤ low := by omega) (greatest : high ≤ 0xBF := by omega)
    (long : a.toNat = 0xE0 → 0xA0 ≤ low := by omega) (scalar : a.toNat = 0xED → high ≤ 0x9F := by omega) :
    (Begun.mk bits 2 low high).After [a] := by
  refine ⟨by simp,by simp; omega,by simp,least,greatest,?_⟩
  intro q fills
  obtain ⟨x,y,rfl⟩ := List.length_eq_two.mp fills.length
  obtain ⟨above,below⟩ : low ≤ x.toNat ∧ x.toNat ≤ high := fills.range
  have long' : a.toNat = 0xE0 → 0xA0 ≤ x.toNat := fun e => Nat.le_trans (long e) above
  have scalar' : a.toNat = 0xED → x.toNat ≤ 0x9F := fun e => Nat.le_trans below (scalar e)
  rw [sum]
  exact encodeChar_of_three first last (fills.tails x (by simp)) long' scalar' (fills.tails y (by simp))

theorem after_four (first : 0xF0 ≤ a.toNat := by omega) (last : a.toNat ≤ 0xF4 := by omega)
    (sum : bits = a.toNat - 0xF0 := by omega) (least : 0x80 ≤ low := by omega) (greatest : high ≤ 0xBF := by omega)
    (long : a.toNat = 0xF0 → 0x90 ≤ low := by omega) (bound : a.toNat = 0xF4 → high ≤ 0x8F := by omega) :
    (Begun.mk bits 3 low high).After [a] := by
  refine ⟨by simp,by simp; omega,by simp,least,greatest,?_⟩
  intro q fills
  obtain ⟨x,y,z,rfl⟩ := List.length_eq_three.mp fills.length
  obtain ⟨above,below⟩ : low ≤ x.toNat ∧ x.toNat ≤ high := fills.range
  have long' : a.toNat = 0xF0 → 0x90 ≤ x.toNat := fun e => Nat.le_trans (long e) above
  have bound' : a.toNat = 0xF4 → x.toNat ≤ 0x8F := fun e => Nat.le_trans below (bound e)
  rw [sum]
  exact encodeChar_of_four first last (fills.tails x (by simp)) long' bound' (fills.tails y (by simp))
    (fills.tails z (by simp))

end

/-- What a first byte can be. -/
theorem lead_cases (a : UInt8) :
    (∃ c, lead a = .char c ∧ encodeChar c = [a]) ∨ (lead a = .broken ∧ 0x80 ≤ a.toNat) ∨
      ∃ b, lead a = .begun b ∧ b.After [a] := by
  fun_cases lead a with
  | case1 n low => exact .inl ⟨_,rfl,encodeChar_of_ascii low⟩
  | case2 n low below => exact .inr (.inl ⟨rfl,by omega⟩)
  | case3 => exact .inr (.inr ⟨_,rfl,after_two (by omega) (by omega)⟩)
  | case4 | case5 | case6 => exact .inr (.inr ⟨_,rfl,after_three⟩)
  | case7 | case8 | case9 => exact .inr (.inr ⟨_,rfl,after_four⟩)
  | case10 => exact .inr (.inl ⟨rfl,by omega⟩)

/-! ## Pieces -/

/-- Bytes and what they decode to, piece by piece: the bytes of a character, or a
broken stretch, which holds no ASCII byte. -/
inductive Pieces : List UInt8 → List (Option Char) → Prop
  | nil : Pieces [] []
  | char (c : Char) {rest : List UInt8} {out : List (Option Char)} (further : Pieces rest out) :
      Pieces (encodeChar c ++ rest) (some c :: out)
  | broken {stretch rest : List UInt8} {out : List (Option Char)} (nonempty : stretch ≠ [])
      (high : ∀ b ∈ stretch, 0x80 ≤ b.toNat) (further : Pieces rest out) : Pieces (stretch ++ rest) (none :: out)

/-- A byte out of range breaks off the character begun and is read afresh. -/
theorem decodeFrom_outside {b : Begun} {a : UInt8} (outside : ¬(b.low ≤ a.toNat ∧ a.toNat ≤ b.high))
    (rest : List UInt8) : decodeFrom (some b) (a :: rest) = none :: decodeFrom none (a :: rest) := by
  simp only [decodeFrom,if_neg outside]
  cases lead a <;> rfl

/-- The last byte that is owed ends the character. -/
theorem Begun.After.last {b : Begun} {a : UInt8} {p : List UInt8} (read : b.After p) (owed : b.owed = 1)
    (inside : b.low ≤ a.toNat ∧ a.toNat ≤ b.high) : encodeChar (Char.ofNat (extend b.bits a)) = p ++ [a] := by
  have tail : IsTail a := ⟨Nat.le_trans read.least inside.1,Nat.le_trans inside.2 read.greatest⟩
  exact read.filled [a] ⟨owed.symm,by simpa using inside,by simpa using tail⟩

/-- Any other byte in range goes on with it. -/
theorem Begun.After.next {b : Begun} {a : UInt8} {p : List UInt8} (read : b.After p) (owed : b.owed ≠ 1)
    (inside : b.low ≤ a.toNat ∧ a.toNat ≤ b.high) :
    (Begun.mk (extend b.bits a) (b.owed - 1) 0x80 0xBF).After (p ++ [a]) := by
  have tail : IsTail a := ⟨Nat.le_trans read.least inside.1,Nat.le_trans inside.2 read.greatest⟩
  have owes := read.owes
  refine ⟨by simp,?_,by show 0 < b.owed - 1; omega,by simp,by simp,?_⟩
  · intro x member
    rcases List.mem_append.mp member with early | late
    · exact read.high x early
    · obtain rfl := List.mem_singleton.mp late
      exact tail.1
  · intro q fills
    have length : (a :: q).length = b.owed := by
      have := fills.length
      simp only [List.length_cons] at this ⊢
      omega
    have tails : ∀ x ∈ a :: q, IsTail x := by
      intro x member
      rcases List.mem_cons.mp member with rfl | later
      · exact tail
      · exact fills.tails x later
    rw [List.append_assoc]
    exact read.filled (a :: q) ⟨length,by simpa using inside,tails⟩

theorem pieces_decodeFrom (bytes : List UInt8) :
    Pieces bytes (decodeFrom none bytes) ∧
      ∀ b p, b.After p → Pieces (p ++ bytes) (decodeFrom (some b) bytes) := by
  induction bytes with
  | nil => exact ⟨.nil,fun b p read => .broken read.nonempty read.high .nil⟩
  | cons a rest ih =>
    obtain ⟨between,begun⟩ := ih
    have fresh : Pieces (a :: rest) (decodeFrom none (a :: rest)) := by
      rcases lead_cases a with ⟨c,read,whole⟩ | ⟨read,high⟩ | ⟨b,read,after⟩
      · have piece := Pieces.char c between
        rw [whole] at piece
        simpa only [decodeFrom,read,List.singleton_append] using piece
      · have piece : Pieces ([a] ++ rest) (none :: decodeFrom none rest) :=
          .broken (by simp) (by simpa using high) between
        simpa only [decodeFrom,read,List.singleton_append] using piece
      · have piece := begun b [a] after
        simpa only [decodeFrom,read,List.singleton_append] using piece
    refine ⟨fresh,fun b p read => ?_⟩
    by_cases inside : b.low ≤ a.toNat ∧ a.toNat ≤ b.high
    · rw [List.append_cons,decodeFrom,if_pos inside]
      by_cases owed : b.owed = 1
      · simp only [if_pos owed]
        have piece := Pieces.char (Char.ofNat (extend b.bits a)) between
        rw [read.last owed inside] at piece
        exact piece
      · simp only [if_neg owed]
        exact begun _ _ (read.next owed inside)
    · rw [decodeFrom_outside inside]
      exact .broken read.nonempty read.high fresh

/-- Every byte string falls into characters and broken stretches, and decoding
finds them. -/
theorem pieces_decode (bytes : List UInt8) : Pieces bytes (decode bytes) := (pieces_decodeFrom bytes).1

/-! ## Well-formed text -/

section
variable {a x : UInt8}

theorem lead_one (low : a.toNat < 0x80) : lead a = .char (Char.ofNat a.toNat) := by
  simp only [lead,if_pos low]

theorem lead_two (first : 0xC2 ≤ a.toNat) (last : a.toNat < 0xE0) :
    lead a = .begun ⟨a.toNat - 0xC0,1,0x80,0xBF⟩ := by
  simp only [lead]
  rw [if_neg (by omega),if_neg (by omega),if_pos last]

theorem lead_three (first : 0xE0 ≤ a.toNat) (last : a.toNat < 0xF0) (tail : IsTail x)
    (long : a.toNat = 0xE0 → 0xA0 ≤ x.toNat) (scalar : a.toNat = 0xED → x.toNat ≤ 0x9F) :
    ∃ low high, lead a = .begun ⟨a.toNat - 0xE0,2,low,high⟩ ∧ low ≤ x.toNat ∧ x.toNat ≤ high := by
  obtain ⟨least,greatest⟩ := tail
  fun_cases lead a with
  | case4 n _ _ _ here => exact ⟨_,_,by rw [show a.toNat = 0xE0 from here],long here,greatest⟩
  | case5 n _ _ _ _ here => exact ⟨_,_,by rw [show a.toNat = 0xED from here],least,scalar here⟩
  | case6 => exact ⟨_,_,rfl,least,greatest⟩
  | _ => omega

theorem lead_four (first : 0xF0 ≤ a.toNat) (last : a.toNat ≤ 0xF4) (tail : IsTail x)
    (long : a.toNat = 0xF0 → 0x90 ≤ x.toNat) (bound : a.toNat = 0xF4 → x.toNat ≤ 0x8F) :
    ∃ low high, lead a = .begun ⟨a.toNat - 0xF0,3,low,high⟩ ∧ low ≤ x.toNat ∧ x.toNat ≤ high := by
  obtain ⟨least,greatest⟩ := tail
  fun_cases lead a with
  | case7 n _ _ _ _ _ _ here => exact ⟨_,_,by rw [show a.toNat = 0xF0 from here],long here,greatest⟩
  | case8 => exact ⟨_,_,rfl,least,greatest⟩
  | case9 n _ _ _ _ _ _ _ _ here => exact ⟨_,_,by rw [show a.toNat = 0xF4 from here],least,bound here⟩
  | _ => omega

end

theorem toNat_continuation (n : Nat) : (continuation n).toNat = 0x80 + n % 64 := by
  show (0x80 + n % 64) % 256 = _
  omega

theorem isTail_continuation (n : Nat) : IsTail (continuation n) := by
  unfold IsTail
  rw [toNat_continuation]
  omega

theorem extend_continuation (n : Nat) : extend (n / 64) (continuation n) = n := by
  unfold extend
  rw [toNat_continuation]
  omega

section
variable {a x : UInt8} {b : Begun}

theorem decodeFrom_begun (first : lead a = .begun b) (rest : List UInt8) :
    decodeFrom none (a :: rest) = decodeFrom (some b) rest := by
  simp only [decodeFrom,first]

/-- Bytes that finish a character begun are read as that character. -/
theorem decodeFrom_fills {q : List UInt8} (fills : b.Fills (x :: q)) (rest : List UInt8) :
    decodeFrom (some b) (x :: q ++ rest) =
      some (Char.ofNat ((x :: q).foldl extend b.bits)) :: decodeFrom none rest := by
  induction q generalizing b x with
  | nil =>
    have last : 1 = b.owed := fills.length
    rw [List.cons_append,decodeFrom,if_pos fills.range]
    simp [← last,extend]
  | cons y q ih =>
    have length : q.length + 1 + 1 = b.owed := fills.length
    have tails : ∀ z ∈ y :: q, IsTail z := fun z member => fills.tails z (List.mem_cons_of_mem x member)
    rw [List.cons_append,decodeFrom,if_pos fills.range]
    simp only [if_neg (show b.owed ≠ 1 by omega)]
    refine ih (b := ⟨extend b.bits x,b.owed - 1,0x80,0xBF⟩) ⟨?_,?_,tails⟩
    · show q.length + 1 = b.owed - 1
      omega
    · exact fun z next => tails z (List.mem_of_mem_head? next)

end

/-- A character outside ASCII is begun by its first byte and finished by the others. -/
theorem lead_encodeChar {c : Char} (high : 0x80 ≤ c.toNat) :
    ∃ a x q b, encodeChar c = a :: x :: q ∧ lead a = .begun b ∧ b.Fills (x :: q) ∧
      Char.ofNat ((x :: q).foldl extend b.bits) = c := by
  have valid : c.toNat < 0xD800 ∨ 0xDFFF < c.toNat ∧ c.toNat < 0x110000 := c.valid
  have code : Char.ofNat c.toNat = c := Char.ofNat_toNat c
  have by64 : c.toNat / 4096 = c.toNat / 64 / 64 := by omega
  have by4096 : c.toNat / 262144 = c.toNat / 4096 / 64 := by omega
  by_cases two : c.toNat < 0x800
  · have first : (UInt8.ofNat (0xC0 + c.toNat / 64)).toNat = 0xC0 + c.toNat / 64 := Nat.mod_eq_of_lt (by omega)
    refine ⟨_,_,_,_,encodeChar_two high two,lead_two (by omega) (by omega),⟨rfl,?_,?_⟩,?_⟩
    · simpa [IsTail] using isTail_continuation c.toNat
    · simp [isTail_continuation]
    · rw [List.foldl_cons,List.foldl_nil,first,Nat.add_sub_cancel_left,extend_continuation,code]
  by_cases three : c.toNat < 0x10000
  · have first : (UInt8.ofNat (0xE0 + c.toNat / 4096)).toNat = 0xE0 + c.toNat / 4096 := Nat.mod_eq_of_lt (by omega)
    have second := toNat_continuation (c.toNat / 64)
    obtain ⟨low,high,lead,inside⟩ := lead_three (a := UInt8.ofNat (0xE0 + c.toNat / 4096)) (by omega) (by omega)
      (isTail_continuation (c.toNat / 64)) (by omega) (by omega)
    refine ⟨_,_,_,_,encodeChar_three (by omega) three,lead,⟨rfl,?_,?_⟩,?_⟩
    · simpa using inside
    · simp [isTail_continuation]
    · rw [List.foldl_cons,List.foldl_cons,List.foldl_nil,first,Nat.add_sub_cancel_left,by64,extend_continuation,
        extend_continuation,code]
  · have first : (UInt8.ofNat (0xF0 + c.toNat / 262144)).toNat = 0xF0 + c.toNat / 262144 :=
      Nat.mod_eq_of_lt (by omega)
    have second := toNat_continuation (c.toNat / 4096)
    obtain ⟨low,high,lead,inside⟩ := lead_four (a := UInt8.ofNat (0xF0 + c.toNat / 262144)) (by omega) (by omega)
      (isTail_continuation (c.toNat / 4096)) (by omega) (by omega)
    refine ⟨_,_,_,_,encodeChar_four (by omega),lead,⟨rfl,?_,?_⟩,?_⟩
    · simpa using inside
    · simp [isTail_continuation]
    · rw [List.foldl_cons,List.foldl_cons,List.foldl_cons,List.foldl_nil,first,Nat.add_sub_cancel_left,by4096,
        extend_continuation,by64,extend_continuation,extend_continuation,code]

theorem decodeFrom_encodeChar (c : Char) (rest : List UInt8) :
    decodeFrom none (encodeChar c ++ rest) = some c :: decodeFrom none rest := by
  by_cases one : c.toNat < 0x80
  · have first : (UInt8.ofNat c.toNat).toNat = c.toNat := Nat.mod_eq_of_lt (by omega)
    rw [encodeChar_one one,List.singleton_append,decodeFrom,lead_one (by omega),first,Char.ofNat_toNat]
  · obtain ⟨a,x,q,b,whole,lead,fills,code⟩ := lead_encodeChar (Nat.le_of_not_lt one)
    rw [whole,List.cons_append,decodeFrom_begun lead,decodeFrom_fills fills,code]

/-- Encoded characters decode to themselves, whatever comes after them. -/
theorem decode_append (s : List Char) (bytes : List UInt8) :
    decode (encode s ++ bytes) = s.map some ++ decode bytes := by
  unfold decode
  induction s with
  | nil => rfl
  | cons c s ih =>
    rw [encode_cons,List.append_assoc,decodeFrom_encodeChar,ih]
    rfl

theorem decode_encode (s : List Char) : decode (encode s) = s.map some := by
  have whole := decode_append s []
  rw [List.append_nil] at whole
  exact whole.trans (List.append_nil _)

theorem lossy_append (s : List Char) (bytes : List UInt8) : lossy (encode s ++ bytes) = s ++ lossy bytes := by
  rw [lossy,decode_append,List.map_append,List.map_map]
  exact congrArg (· ++ lossy bytes) (List.map_id s)

/-- Encoded text is read back whole, nothing in it being broken. -/
theorem lossy_encode (s : List Char) : lossy (encode s) = s := by
  rw [lossy,decode_encode,List.map_map]
  exact List.map_id s

theorem toLossyString_ofString (s : String) : toLossyString (ofString s) = s := by
  rw [toLossyString,ofString,lossy_encode,String.ofList_toList]

theorem Pieces.eq_encode {bytes : List UInt8} {out : List (Option Char)} (pieces : Pieces bytes out) {s : List Char}
    (whole : out = s.map some) : bytes = encode s := by
  induction pieces generalizing s with
  | nil =>
    obtain rfl : s = [] := List.map_eq_nil_iff.mp whole.symm
    rfl
  | char c _ ih =>
    cases s with
    | nil => cases whole
    | cons d s =>
      obtain ⟨same,further⟩ := List.cons.inj whole
      rw [ih further,Option.some.inj same]
      rfl
  | broken =>
    cases s with
    | nil => cases whole
    | cons d s => cases whole

theorem mapM_id_eq_some_iff {out : List (Option Char)} {s : List Char} : out.mapM id = some s ↔ out = s.map some := by
  induction out generalizing s with
  | nil => cases s <;> simp
  | cons piece out ih =>
    cases piece with
    | none => cases s <;> simp
    | some c =>
      cases s with
      | nil => simp [Option.bind_eq_some_iff]
      | cons d s => simp [Option.bind_eq_some_iff,ih,and_comm]

/-- Well-formed text is what encodes some characters, and no other bytes are. -/
theorem strict?_eq_some_iff {bytes : List UInt8} {s : List Char} : strict? bytes = some s ↔ bytes = encode s := by
  unfold strict?
  rw [mapM_id_eq_some_iff]
  constructor
  · exact fun whole => (pieces_decode bytes).eq_encode whole
  · rintro rfl
    exact decode_encode s

/-! ## Words of ASCII characters -/

/-- Bytes beside a text that was read from them with replacements: an ASCII byte
stands for itself, and whatever stands for another character is free of ASCII. -/
inductive Aligned : List UInt8 → List Char → Prop
  | nil : Aligned [] []
  | ascii {c : Char} {bytes : List UInt8} {s : List Char} (low : c.toNat < 0x80) (further : Aligned bytes s) :
      Aligned (UInt8.ofNat c.toNat :: bytes) (c :: s)
  | other {c : Char} {a : UInt8} {stretch bytes : List UInt8} {s : List Char} (high : 0x80 ≤ c.toNat)
      (first : 0x80 ≤ a.toNat) (later : ∀ b ∈ stretch, 0x80 ≤ b.toNat) (further : Aligned bytes s) :
      Aligned (a :: stretch ++ bytes) (c :: s)

/-- No byte of a character outside ASCII is ASCII. -/
theorem encodeChar_high {c : Char} (high : 0x80 ≤ c.toNat) :
    ∃ a stretch, encodeChar c = a :: stretch ∧ 0xC2 ≤ a.toNat ∧ ∀ b ∈ stretch, IsTail b := by
  have valid : c.toNat < 0xD800 ∨ 0xDFFF < c.toNat ∧ c.toNat < 0x110000 := c.valid
  by_cases two : c.toNat < 0x800
  · have first : (UInt8.ofNat (0xC0 + c.toNat / 64)).toNat = 0xC0 + c.toNat / 64 := Nat.mod_eq_of_lt (by omega)
    exact ⟨_,_,encodeChar_two high two,by omega,by simp [isTail_continuation]⟩
  by_cases three : c.toNat < 0x10000
  · have first : (UInt8.ofNat (0xE0 + c.toNat / 4096)).toNat = 0xE0 + c.toNat / 4096 := Nat.mod_eq_of_lt (by omega)
    exact ⟨_,_,encodeChar_three (by omega) three,by omega,by simp [isTail_continuation]⟩
  · have first : (UInt8.ofNat (0xF0 + c.toNat / 262144)).toNat = 0xF0 + c.toNat / 262144 :=
      Nat.mod_eq_of_lt (by omega)
    exact ⟨_,_,encodeChar_four (by omega),by omega,by simp [isTail_continuation]⟩

/-- The first byte of a character goes on with none, all others do. -/
theorem encodeChar_parts (c : Char) :
    ∃ a stretch, encodeChar c = a :: stretch ∧ ¬IsTail a ∧ ∀ b ∈ stretch, IsTail b := by
  by_cases low : c.toNat < 0x80
  · have first : (UInt8.ofNat c.toNat).toNat = c.toNat := Nat.mod_eq_of_lt (by omega)
    exact ⟨_,[],encodeChar_one low,fun tail => by have := tail.1; omega,nofun⟩
  · obtain ⟨a,stretch,whole,first,later⟩ := encodeChar_high (Nat.le_of_not_lt low)
    exact ⟨a,stretch,whole,fun tail => by have := tail.2; omega,later⟩

theorem aligned_lossy (bytes : List UInt8) : Aligned bytes (lossy bytes) := by
  have pieces := pieces_decode bytes
  unfold lossy
  generalize decode bytes = out at pieces
  induction pieces with
  | nil => exact .nil
  | char c _ ih =>
    by_cases low : c.toNat < 0x80
    · rw [encodeChar_one low]
      exact .ascii low ih
    · obtain ⟨a,stretch,whole,first,later⟩ := encodeChar_high (Nat.le_of_not_lt low)
      rw [whole]
      exact .other (Nat.le_of_not_lt low) (by omega) (fun b member => (later b member).1) ih
  | @broken stretch _ _ nonempty high _ ih =>
    cases stretch with
    | nil => exact absurd rfl nonempty
    | cons a stretch =>
      exact .other (by decide) (high a List.mem_cons_self) (fun b member => high b (List.mem_cons_of_mem a member)) ih

section
variable {word s : List Char} {bytes : List UInt8}

theorem encode_ascii {c : Char} (low : c.toNat < 0x80) (s : List Char) :
    encode (c :: s) = UInt8.ofNat c.toNat :: encode s := by
  rw [encode,List.flatMap_cons,encodeChar_one low]
  rfl

theorem ascii_inj {c d : Char} (low : c.toNat < 0x80) (low' : d.toNat < 0x80)
    (same : UInt8.ofNat c.toNat = UInt8.ofNat d.toNat) : c = d := by
  have code : c.toNat % 256 = d.toNat % 256 := congrArg UInt8.toNat same
  apply Char.toNat_inj.mp
  omega

/-- A word of ASCII characters stands in front of the text exactly where its bytes
stand in front. -/
theorem Aligned.prefix_iff (aligned : Aligned bytes s) (ascii : ∀ c ∈ word, c.toNat < 0x80) :
    word <+: s ↔ encode word <+: bytes := by
  induction aligned generalizing word with
  | nil =>
    cases word with
    | nil => simp [encode]
    | cons c word => simp [encode_ascii (ascii c List.mem_cons_self)]
  | @ascii d _ _ low _ ih =>
    cases word with
    | nil => simp [encode]
    | cons c word =>
      have low' := ascii c List.mem_cons_self
      have rest := ih fun c member => ascii c (List.mem_cons_of_mem _ member)
      rw [encode_ascii low',List.cons_prefix_cons,List.cons_prefix_cons,rest]
      exact and_congr_left fun _ => ⟨fun same => same ▸ rfl,ascii_inj low' low⟩
  | @other d a _ _ _ high first _ _ _ =>
    cases word with
    | nil => simp [encode]
    | cons c word =>
      have low' := ascii c List.mem_cons_self
      rw [encode_ascii low',List.cons_append,List.cons_prefix_cons,List.cons_prefix_cons]
      have apart : c ≠ d := fun same => by rw [same] at low'; omega
      have apart' : UInt8.ofNat c.toNat ≠ a := by
        intro same
        have code : c.toNat % 256 = a.toNat := congrArg UInt8.toNat same
        omega
      simp [apart,apart']

/-- A byte outside ASCII starts no word of ASCII characters. -/
theorem infix_of_high {c : Char} (low : c.toNat < 0x80) {stretch : List UInt8}
    (high : ∀ b ∈ stretch, 0x80 ≤ b.toNat) :
    encode (c :: word) <:+: stretch ++ bytes ↔ encode (c :: word) <:+: bytes := by
  induction stretch with
  | nil => rfl
  | cons a stretch ih =>
    have first := high a List.mem_cons_self
    have apart : UInt8.ofNat c.toNat ≠ a := by
      intro same
      have code : c.toNat % 256 = a.toNat := congrArg UInt8.toNat same
      omega
    rw [List.cons_append,List.infix_cons_iff,ih fun b member => high b (List.mem_cons_of_mem a member)]
    simp [encode_ascii low,List.cons_prefix_cons,apart]

theorem Aligned.infix_iff (aligned : Aligned bytes s) (ascii : ∀ c ∈ word, c.toNat < 0x80) :
    word <:+: s ↔ encode word <:+: bytes := by
  cases word with
  | nil => simp [encode]
  | cons c word =>
    have low := ascii c List.mem_cons_self
    induction aligned with
    | nil => simp [encode_ascii low]
    | @ascii d bytes s low' further ih =>
      have later : c :: word <:+: s ↔ encode (c :: word) <:+: bytes := ih
      rw [List.infix_cons_iff,List.infix_cons_iff,later,(Aligned.ascii low' further).prefix_iff ascii]
    | @other d a stretch bytes s high first later further ih =>
      have apart : ¬ c :: word <+: d :: s := by
        rw [List.cons_prefix_cons]
        rintro ⟨rfl,_⟩
        omega
      have all : ∀ b ∈ a :: stretch, 0x80 ≤ b.toNat := List.forall_mem_cons.mpr ⟨first,later⟩
      have rest : c :: word <:+: s ↔ encode (c :: word) <:+: bytes := ih
      rw [List.infix_cons_iff,infix_of_high low all,rest]
      simp [apart]

/-- Reading with replacements neither makes nor hides a word of ASCII characters,
whatever stands around it. -/
theorem infix_lossy (ascii : ∀ c ∈ word, c.toNat < 0x80) : word <:+: lossy bytes ↔ encode word <:+: bytes :=
  (aligned_lossy bytes).infix_iff ascii

/-- The bytes of a word stand at the end of those of a text exactly where the word
stands at the end of the text. -/
theorem encode_suffix_iff : encode word <:+ encode s ↔ word <:+ s := by
  constructor
  · rintro ⟨p,whole⟩
    induction s generalizing p with
    | nil =>
      obtain ⟨_,none⟩ := List.append_eq_nil_iff.mp whole
      have same : word = [] := by rw [← lossy_encode word,none]; rfl
      exact same ▸ List.suffix_refl []
    | cons d s ih =>
      rw [encode_cons] at whole
      rcases List.append_eq_append_iff.mp whole with ⟨r,first,rest⟩ | ⟨r,first,rest⟩
      · -- The word starts inside the first character of the text, or with it.
        cases p with
        | nil =>
          have same : word = d :: s := by
            rw [← lossy_encode word,← lossy_encode (d :: s),encode_cons]
            exact congrArg lossy whole
          exact same ▸ List.suffix_refl _
        | cons a p =>
          obtain ⟨a',stretch,bytes,_,tails⟩ := encodeChar_parts d
          rw [bytes] at first
          have inside : stretch = p ++ r := (List.cons.inj first).2
          cases r with
          | nil => exact (ih [] rest).trans (List.suffix_cons d s)
          | cons b r =>
            cases word with
            | nil => cases rest
            | cons c word =>
              obtain ⟨b',more,bytes',other,_⟩ := encodeChar_parts c
              rw [encode_cons,bytes'] at rest
              obtain rfl : b' = b := (List.cons.inj rest).1
              exact absurd (tails b' (by simp [inside])) other
      · exact (ih r rest.symm).trans (List.suffix_cons d s)
  · rintro ⟨p,rfl⟩
    exact ⟨encode p,(encode_append p word).symm⟩

end

end Lockstep.Utf8
