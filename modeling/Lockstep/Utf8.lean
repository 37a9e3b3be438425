/-!
# UTF-8

Text as bytes. Decoding is a machine that reads one byte at a time: between
characters it stands at `none`, inside one it knows the range of the byte to
come. A byte that does not fit ends the character begun so far as broken and
then starts a character of its own, so each broken stretch is as long as it
can be and no longer.
-/

namespace Lockstep.Utf8

/-- A byte of which only the last six bits carry the character. -/
def continuation (bits : Nat) : UInt8 := UInt8.ofNat (0x80 + bits % 64)

/-- The bytes of one character. -/
def encodeChar (c : Char) : List UInt8 :=
  let n := c.toNat
  if n < 0x80 then [UInt8.ofNat n]
  else if n < 0x800 then [UInt8.ofNat (0xC0 + n / 64),continuation n]
  else if n < 0x10000 then
    [UInt8.ofNat (0xE0 + n / 4096),continuation (n / 64),continuation n]
  else
    [UInt8.ofNat (0xF0 + n / 262144),continuation (n / 4096),continuation (n / 64),
      continuation n]

/-- The bytes of a text. -/
def encode (s : List Char) : List UInt8 := s.flatMap encodeChar

/-- A character begun: the bits read so far, how many bytes are still owed and
the least and the greatest byte that may come next. -/
structure Begun where
  bits : Nat
  owed : Nat
  low : Nat
  high : Nat

/-- What the first byte of a character says: the character itself, how it goes
on, or that no character starts so. -/
inductive Lead where
  | char (c : Char)
  | begun (b : Begun)
  | broken

/-- The reading of a first byte. The second byte's range leaves out overlong
forms, surrogates and what lies beyond the last code point. -/
def lead (byte : UInt8) : Lead :=
  let n := byte.toNat
  if n < 0x80 then .char (Char.ofNat n)
  else if n < 0xC2 then .broken
  else if n < 0xE0 then .begun ⟨n - 0xC0,1,0x80,0xBF⟩
  else if n = 0xE0 then .begun ⟨0,2,0xA0,0xBF⟩
  else if n = 0xED then .begun ⟨0xD,2,0x80,0x9F⟩
  else if n < 0xF0 then .begun ⟨n - 0xE0,2,0x80,0xBF⟩
  else if n = 0xF0 then .begun ⟨0,3,0x90,0xBF⟩
  else if n < 0xF4 then .begun ⟨n - 0xF0,3,0x80,0xBF⟩
  else if n = 0xF4 then .begun ⟨4,3,0x80,0x8F⟩
  else .broken

/-- Reads on from a state; `none` in the answer is a broken stretch. -/
def decodeFrom : Option Begun → List UInt8 → List (Option Char)
  | none,[] => []
  | some _,[] => [none]
  | none,byte :: rest =>
    match lead byte with
    | .char c => some c :: decodeFrom none rest
    | .begun b => decodeFrom (some b) rest
    | .broken => none :: decodeFrom none rest
  | some b,byte :: rest =>
    if b.low ≤ byte.toNat ∧ byte.toNat ≤ b.high then
      let bits := b.bits * 64 + byte.toNat % 64
      if b.owed = 1 then some (Char.ofNat bits) :: decodeFrom none rest
      else decodeFrom (some ⟨bits,b.owed - 1,0x80,0xBF⟩) rest
    else
      match lead byte with
      | .char c => none :: some c :: decodeFrom none rest
      | .begun b => none :: decodeFrom (some b) rest
      | .broken => none :: none :: decodeFrom none rest

/-- The characters of a byte string, with `none` for each broken stretch. -/
def decode (bytes : List UInt8) : List (Option Char) := decodeFrom none bytes

/-- The replacement character, which stands for what cannot be decoded. -/
def replacement : Char := '\ufffd'

/-- Every byte string as text. -/
def lossy (bytes : List UInt8) : List Char := (decode bytes).map (·.getD replacement)

/-- The text of a well-formed byte string. -/
def strict? (bytes : List UInt8) : Option (List Char) := (decode bytes).mapM id

/-- The bytes of a string. -/
def ofString (s : String) : List UInt8 := encode s.toList

/-- `lossy` as a string. -/
def toLossyString (bytes : List UInt8) : String := String.ofList (lossy bytes)

end Lockstep.Utf8
