import Lockstep.Text.Hex
import Lockstep.Text.ShapelessTable

/-!
# Quoted text

A text between double quotes on one line. A quote, a backslash and the usual
control characters are written as escapes, any other character without a shape
of its own as its code point, `\u{200b}`; all else stands for itself.
-/

namespace Lockstep.Text

/-- Whether a character is written as its code point. -/
def isShapeless (c : Char) : Bool :=
  let n := c.toNat
  if 0x20 ≤ n ∧ n < 0x7F then false
  else shapelessRanges.any fun (first,last) => first ≤ n && n ≤ last

/-- One character of a quoted text. -/
def quoteChar (c : Char) : List Char :=
  if c = '"' then ['\\','"']
  else if c = '\\' then ['\\','\\']
  else if c = '\n' then ['\\','n']
  else if c = '\r' then ['\\','r']
  else if c = '\t' then ['\\','t']
  else if c = '\x00' then ['\\','0']
  else if isShapeless c then ['\\','u','\x7b'] ++ hexDigits c.toNat ++ ['\x7d']
  else [c]

/-- The text between its quotes. -/
def quoted (s : String) : String :=
  String.ofList ('"' :: s.toList.flatMap quoteChar ++ ['"'])

end Lockstep.Text
