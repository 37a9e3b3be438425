import Lockstep.Json.Skip
import Lockstep.Json.Value

/-!
# Reading JSON values

The counterpart of the writers: a byte string is read into the value it is the
text of. As when a value is passed over, the brackets still open are kept in a
list, here with what they hold so far.
-/

namespace Lockstep.Json

/-- A bracket that is open, with its earlier elements in reverse and, in an
object, the name of the member to come. -/
inductive Frame where
  | list (items : List Value)
  | object (members : List (String × Value)) (name : String)

namespace Frame

/-- The kind of bracket. -/
def bracket : Frame → Bracket
  | .list _ => .list
  | .object _ _ => .object

/-- The value that a frame becomes when its last element is `v`. -/
def close (v : Value) : Frame → Value
  | .list items => .array (v :: items).reverse
  | .object members name => .object ((name,v) :: members).reverse

end Frame

/-- The value of a bracket with nothing in it. -/
def Bracket.empty : Bracket → Value
  | .list => .array []
  | .object => .object []

/-- Reads the name of a member and its colon. -/
def readName (s : List UInt8) : Except Fault (String × List UInt8) :=
  match skipSpace s with
  | [] => .error .endInValue
  | b :: s =>
    if b = ascii '"' then
      match readString s with
      | .error f => .error f
      | .ok (name,s) =>
        match readColon s with
        | .error f => .error f
        | .ok s => .ok (name,s)
    else if b = Bracket.closing .object then .error .trailingComma
    else .error .keyNotString

theorem length_readName {s t : List UInt8} {name : String} (read : readName s = .ok (name,t)) :
    t.length < s.length := by
  have space := length_skipSpace_le s
  unfold readName at read
  split at read
  · cases read
  · next begun =>
    rw [begun,List.length_cons] at space
    split at read
    · split at read
      · cases read
      · next text =>
        split at read
        · cases read
        · next colon =>
          cases read
          have := length_readString text
          have := length_readColon colon
          omega
    · split at read <;> cases read

/-- Reads what comes before an element of a bracket; the frame waits for it. -/
def readLead (items : List Value) (members : List (String × Value)) :
    Bracket → List UInt8 → Except Fault (Frame × List UInt8)
  | .list,s =>
    match skipSpace s with
    | [] => .error .endInValue
    | b :: t => if b = Bracket.closing .list then .error .trailingComma else .ok (.list items,b :: t)
  | .object,s =>
    match readName s with
    | .error f => .error f
    | .ok (name,s) => .ok (.object members name,s)

theorem length_readLead_le {items : List Value} {members : List (String × Value)} {k : Bracket}
    {f : Frame} {s t : List UInt8} (read : readLead items members k s = .ok (f,t)) :
    t.length ≤ s.length := by
  cases k with
  | list =>
    have space := length_skipSpace_le s
    simp only [readLead] at read
    split at read
    · cases read
    · next begun =>
      split at read
      · cases read
      · cases read; rw [← begun]; exact space
  | object =>
    simp only [readLead] at read
    split at read
    · cases read
    · next name => cases read; exact Nat.le_of_lt (length_readName name)

/-- Reads a value that is no list and no object. -/
def readScalar (s : List UInt8) : Except Fault (Value × List UInt8) :=
  match s with
  | [] => .error .endInValue
  | b :: t =>
    if b = ascii 'n' then (readWord (word "ull") t).map (.null,·)
    else if b = ascii 't' then (readWord (word "rue") t).map (.bool true,·)
    else if b = ascii 'f' then (readWord (word "alse") t).map (.bool false,·)
    else if b = ascii '"' then (readString t).map fun (text,u) => (.string text,u)
    else if b = ascii '-' ∨ isDigit b then (readNumber s).map fun (n,u) => (.number n,u)
    else .error .expectedValue

theorem length_readScalar {s t : List UInt8} {v : Value} (read : readScalar s = .ok (v,t)) :
    t.length < s.length := by
  unfold readScalar at read
  split at read
  · cases read
  · split at read
    · obtain ⟨_,part,out⟩ := exists_of_map_eq_ok read
      cases out; exact Nat.lt_succ_of_le (length_readWord_le part)
    · split at read
      · obtain ⟨_,part,out⟩ := exists_of_map_eq_ok read
        cases out; exact Nat.lt_succ_of_le (length_readWord_le part)
      · split at read
        · obtain ⟨_,part,out⟩ := exists_of_map_eq_ok read
          cases out; exact Nat.lt_succ_of_le (length_readWord_le part)
        · split at read
          · obtain ⟨_,part,out⟩ := exists_of_map_eq_ok read
            cases out; exact Nat.lt_succ_of_lt (length_readString part)
          · split at read
            · obtain ⟨_,part,out⟩ := exists_of_map_eq_ok read
              cases out; exact length_readNumber part
            · cases read

/-- What reading has come to: the whole value, or another value to read inside
the open brackets. -/
inductive Progress where
  | done (v : Value) (rest : List UInt8)
  | more (frame : Frame) (frames : List Frame) (rest : List UInt8)

/-- The bytes not read yet. -/
def Progress.rest : Progress → List UInt8
  | .done _ s => s
  | .more _ _ s => s

/-- After a value: closes brackets until a comma announces another element. -/
def readClosed (v : Value) : List Frame → List UInt8 → Except Fault Progress
  | [],s => .ok (.done v s)
  | f :: fs,s =>
    match skipSpace s with
    | [] => .error f.bracket.atEnd
    | b :: t =>
      if b = ascii ',' then
        let lead := match f with
          | .list items => readLead (v :: items) [] .list t
          | .object members name => readLead [] ((name,v) :: members) .object t
        match lead with
        | .error e => .error e
        | .ok (f,u) => .ok (.more f fs u)
      else if b = f.bracket.closing then readClosed (f.close v) fs t
      else .error f.bracket.expectedEnd

theorem length_readClosed_le {v : Value} {fs : List Frame} {s : List UInt8} {p : Progress}
    (read : readClosed v fs s = .ok p) : p.rest.length ≤ s.length := by
  induction fs generalizing v s with
  | nil => cases read; exact Nat.le_refl _
  | cons f fs ih =>
    have space := length_skipSpace_le s
    unfold readClosed at read
    split at read
    · cases read
    · next begun =>
      rw [begun,List.length_cons] at space
      split at read
      · cases f <;> simp only at read <;> split at read
        · cases read
        · next lead => cases read; have := length_readLead_le lead; simp only [Progress.rest]; omega
        · cases read
        · next lead => cases read; have := length_readLead_le lead; simp only [Progress.rest]; omega
      · split at read
        · have := ih read; omega
        · cases read

/-- Reads a scalar or an opening bracket and all that closes with it. -/
def readStep (fs : List Frame) (s : List UInt8) : Except Fault Progress :=
  match skipSpace s with
  | [] => .error .endInValue
  | b :: t =>
    match Bracket.ofOpening? b with
    | some k =>
      match skipSpace t with
      | [] => .error k.atEnd
      | c :: u =>
        if c = k.closing then readClosed k.empty fs u
        else match readLead [] [] k (c :: u) with
          | .error e => .error e
          | .ok (f,u) => .ok (.more f fs u)
    | none =>
      match readScalar (b :: t) with
      | .error e => .error e
      | .ok (v,u) => readClosed v fs u

theorem length_readStep {fs : List Frame} {s : List UInt8} {p : Progress}
    (read : readStep fs s = .ok p) : p.rest.length < s.length := by
  have space := length_skipSpace_le s
  unfold readStep at read
  split at read
  · cases read
  · next b u begun =>
    rw [begun,List.length_cons] at space
    split at read
    · have inner := length_skipSpace_le u
      split at read
      · cases read
      · next within =>
        rw [within,List.length_cons] at inner
        split at read
        · have := length_readClosed_le read; omega
        · split at read
          · cases read
          · next lead =>
            cases read
            have := length_readLead_le lead
            simp only [List.length_cons,Progress.rest] at *
            omega
    · split at read
      · cases read
      · next scalar =>
        have := length_readScalar scalar
        have := length_readClosed_le read
        simp only [List.length_cons] at *
        omega

/-- Reads on until no bracket is open. -/
def readOpen (fs : List Frame) (s : List UInt8) : Except Fault (Value × List UInt8) :=
  match _h : readStep fs s with
  | .error e => .error e
  | .ok (.done v t) => .ok (v,t)
  | .ok (.more f fs t) => readOpen (f :: fs) t
termination_by s.length
decreasing_by exact length_readStep _h

namespace Value

/-- Reads a value that fills the text, spaces around it apart. -/
def ofBytes (s : List UInt8) : Except Fault Value :=
  match readOpen [] s with
  | .error e => .error e
  | .ok (v,t) => if (skipSpace t).isEmpty then .ok v else .error .trailingCharacters

/-- `ofBytes` on strings. -/
def ofString (s : String) : Except Fault Value := ofBytes (Utf8.ofString s)

end Value

end Lockstep.Json
