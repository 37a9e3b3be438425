import Lockstep.Json.Fault
import Lockstep.Utf8

/-!
# Spaces, words and strings

The smallest parts of a JSON text. A reader takes the bytes that are left and
answers with what it found and the bytes after it. Strings come in two grades:
`readString` decodes one and insists on well-formed text, `skipString` looks
only for its end.
-/

namespace Lockstep.Json

theorem exists_of_map_eq_ok {ε α β : Type} {f : α → β} {x : Except ε α} {y : β}
    (mapped : x.map f = .ok y) : ∃ a, x = .ok a ∧ f a = y := by
  cases x with
  | error => cases mapped
  | ok a => cases mapped; exact ⟨a,rfl,rfl⟩

/-- The byte of an ASCII character. -/
def ascii (c : Char) : UInt8 := UInt8.ofNat c.toNat

/-- The bytes that may stand between tokens. -/
def isSpace (b : UInt8) : Bool :=
  b == ascii ' ' || b == ascii '\n' || b == ascii '\t' || b == ascii '\r'

/-- What is left after the spaces. -/
def skipSpace (s : List UInt8) : List UInt8 := s.dropWhile isSpace

theorem length_skipSpace_le (s : List UInt8) : (skipSpace s).length ≤ s.length :=
  (List.dropWhile_sublist _).length_le

/-- The bytes of an ASCII word. -/
def word (s : String) : List UInt8 := s.toList.map ascii

/-- Reads the rest of one of the words `true`, `false` and `null`. -/
def readWord : List UInt8 → List UInt8 → Except Fault (List UInt8)
  | [],s => .ok s
  | _ :: _,[] => .error .endInValue
  | w :: ws,b :: s => if b = w then readWord ws s else .error .expectedWord

theorem length_readWord_le {w s t : List UInt8} (read : readWord w s = .ok t) :
    t.length ≤ s.length := by
  induction w generalizing s with
  | nil => cases read; exact Nat.le_refl _
  | cons a w ih =>
    cases s with
    | nil => simp [readWord] at read
    | cons b s =>
      by_cases same : b = a
      · simp only [readWord,if_pos same] at read
        exact Nat.le_succ_of_le (ih read)
      · simp [readWord,if_neg same] at read

/-! ## Escapes -/

/-- What a hexadecimal digit stands for. -/
def hexValue? (b : UInt8) : Option Nat :=
  let n := b.toNat
  if 0x30 ≤ n ∧ n ≤ 0x39 then some (n - 0x30)
  else if 0x41 ≤ n ∧ n ≤ 0x46 then some (n - 0x41 + 10)
  else if 0x61 ≤ n ∧ n ≤ 0x66 then some (n - 0x61 + 10)
  else none

/-- Reads the four digits of a `\u` escape. -/
def readHex : List UInt8 → Except Fault (Nat × List UInt8)
  | a :: b :: c :: d :: s =>
    match hexValue? a,hexValue? b,hexValue? c,hexValue? d with
    | some a,some b,some c,some d => .ok (((a * 16 + b) * 16 + c) * 16 + d,s)
    | _,_,_,_ => .error .badEscape
  | _ => .error .endInString

theorem length_readHex {s t : List UInt8} {n : Nat} (read : readHex s = .ok (n,t)) :
    t.length + 4 = s.length := by
  unfold readHex at read
  split at read
  · split at read
    · cases read; rfl
    · cases read
  · cases read

/-- Reads the second half of a surrogate pair, `\u` included, after the first
half `high`. -/
def readLowHalf (high : Nat) : List UInt8 → Except Fault (Char × List UInt8)
  | [] => .error .endInString
  | b :: s =>
    if b ≠ ascii '\\' then .error .cutSurrogate
    else match s with
      | [] => .error .endInString
      | b :: s =>
        if b ≠ ascii 'u' then .error .cutSurrogate
        else match readHex s with
          | .error f => .error f
          | .ok (low,s) =>
            if low < 0xDC00 ∨ 0xDFFF < low then .error .loneSurrogate
            else .ok (Char.ofNat (0x10000 + (high - 0xD800) * 0x400 + (low - 0xDC00)),s)

theorem length_readLowHalf {n : Nat} {s t : List UInt8} {c : Char}
    (read : readLowHalf n s = .ok (c,t)) : t.length ≤ s.length := by
  unfold readLowHalf at read
  split at read
  · cases read
  · split at read
    · cases read
    · split at read
      · cases read
      · split at read
        · cases read
        · split at read
          · cases read
          · next code =>
            split at read
            · cases read
            · simp only [Except.ok.injEq,Prod.mk.injEq] at read
              obtain ⟨_,rfl⟩ := read
              have := length_readHex code
              simp only [List.length_cons]
              omega

/-- Reads a `\u` escape after its `u`. Code units of a surrogate pair only come
as a pair. -/
def readUnicode (s : List UInt8) : Except Fault (Char × List UInt8) :=
  match readHex s with
  | .error f => .error f
  | .ok (n,s) =>
    if 0xDC00 ≤ n ∧ n ≤ 0xDFFF then .error .loneSurrogate
    else if n < 0xD800 ∨ 0xDBFF < n then .ok (Char.ofNat n,s)
    else readLowHalf n s

/-- The character of an escape of one letter. -/
def escaped? (b : UInt8) : Option Char :=
  if b = ascii '"' then some '"'
  else if b = ascii '\\' then some '\\'
  else if b = ascii '/' then some '/'
  else if b = ascii 'b' then some '\x08'
  else if b = ascii 'f' then some '\x0c'
  else if b = ascii 'n' then some '\n'
  else if b = ascii 'r' then some '\r'
  else if b = ascii 't' then some '\t'
  else none

/-- Reads an escape after its backslash. -/
def readEscape : List UInt8 → Except Fault (Char × List UInt8)
  | [] => .error .endInString
  | b :: s =>
    if b = ascii 'u' then readUnicode s
    else match escaped? b with
      | some c => .ok (c,s)
      | none => .error .badEscape

theorem length_readEscape {s t : List UInt8} {c : Char} (read : readEscape s = .ok (c,t)) :
    t.length < s.length := by
  unfold readEscape at read
  split at read
  · cases read
  · split at read
    · unfold readUnicode at read
      split at read
      · cases read
      · next code =>
        have four := length_readHex code
        simp only [List.length_cons]
        split at read
        · cases read
        · split at read
          · cases read; omega
          · have := length_readLowHalf read; omega
    · split at read
      · cases read; simp
      · cases read

/-- Passes over an escape after its backslash; surrogates need no partner. -/
def skipEscape : List UInt8 → Except Fault (List UInt8)
  | [] => .error .endInString
  | b :: s =>
    if b = ascii 'u' then
      match readHex s with
      | .error f => .error f
      | .ok (_,s) => .ok s
    else match escaped? b with
      | some _ => .ok s
      | none => .error .badEscape

theorem length_skipEscape {s t : List UInt8} (skipped : skipEscape s = .ok t) :
    t.length < s.length := by
  unfold skipEscape at skipped
  split at skipped
  · cases skipped
  · split at skipped
    · split at skipped
      · cases skipped
      · next code =>
        cases skipped
        have := length_readHex code
        simp only [List.length_cons]
        omega
    · split at skipped
      · cases skipped; simp
      · cases skipped

/-! ## Strings -/

/-- Reads a string after its opening quote: its bytes, escapes resolved, behind
those in `seen`, which are in reverse. -/
def readStringBytes (seen : List UInt8) (s : List UInt8) : Except Fault (List UInt8 × List UInt8) :=
  match s with
  | [] => .error .endInString
  | b :: s =>
    if b = ascii '"' then .ok (seen.reverse,s)
    else if b = ascii '\\' then
      match _h : readEscape s with
      | .error f => .error f
      | .ok (c,t) => readStringBytes ((Utf8.encodeChar c).reverse ++ seen) t
    else if b < 0x20 then .error .controlCharacter
    else readStringBytes (b :: seen) s
termination_by s.length
decreasing_by
  · have := length_readEscape _h
    simp only [List.length_cons]
    omega
  · simp

/-- Reads a string after its opening quote. That its bytes are well-formed text
is asked once it is closed. -/
def readString (s : List UInt8) : Except Fault (String × List UInt8) :=
  match readStringBytes [] s with
  | .error f => .error f
  | .ok (bytes,t) =>
    match Utf8.strict? bytes with
    | some text => .ok (String.ofList text,t)
    | none => .error .badText

theorem length_readStringBytes {seen s t bytes : List UInt8}
    (read : readStringBytes seen s = .ok (bytes,t)) : t.length < s.length := by
  fun_induction readStringBytes seen s with
  | case1 => cases read
  | case2 => cases read; simp
  | case3 => cases read
  | case4 seen s c t' escape _ ih =>
    have := length_readEscape escape
    have := ih read
    simp only [List.length_cons]
    omega
  | case5 => cases read
  | case6 seen b s _ _ _ ih => exact Nat.lt_succ_of_lt (ih read)

theorem length_readString {s t : List UInt8} {text : String} (read : readString s = .ok (text,t)) :
    t.length < s.length := by
  unfold readString at read
  split at read
  · cases read
  · next bytes =>
    split at read
    · cases read; exact length_readStringBytes bytes
    · cases read

/-- Passes over a string after its opening quote. -/
def skipString (s : List UInt8) : Except Fault (List UInt8) :=
  match s with
  | [] => .error .endInString
  | b :: s =>
    if b = ascii '"' then .ok s
    else if b = ascii '\\' then
      match _h : skipEscape s with
      | .error f => .error f
      | .ok t => skipString t
    else if b < 0x20 then .error .controlCharacter
    else skipString s
termination_by s.length
decreasing_by
  · have := length_skipEscape _h
    simp only [List.length_cons]
    omega
  · simp

theorem length_skipString {s t : List UInt8} (skipped : skipString s = .ok t) : t.length < s.length := by
  fun_induction skipString s with
  | case1 => cases skipped
  | case2 => cases skipped; simp
  | case3 => cases skipped
  | case4 s t' escape _ ih =>
    have := length_skipEscape escape
    have := ih skipped
    simp only [List.length_cons]
    omega
  | case5 => cases skipped
  | case6 b s _ _ _ ih => exact Nat.lt_succ_of_lt (ih skipped)

end Lockstep.Json
