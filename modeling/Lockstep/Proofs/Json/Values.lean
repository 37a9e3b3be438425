import Lockstep.Json.Reader
import Lockstep.Proofs.Json.Skipped

/-!
# Reading values

JSON texts with the values they stand for (`Denotes`), said apart from the
reader, and that the reader finds the value of every such text
(`ofBytes_complete`). As where values are passed over, what follows a value is
told by the brackets that are open.
-/

namespace Lockstep.Json

/-! ## Texts and their values -/

/-- What comes before the value of an element: nothing in a list, a name and a
colon in an object. -/
inductive Label : Bracket → String → List UInt8 → Prop
  | item : Label .list "" []
  | member {a q b : List UInt8} {name : String} (before : Blank a) (quoted : Quoted q name) (between : Blank b) :
      Label .object name (a ++ q ++ b ++ [ascii ':'])

/-- The value of a bracket with its elements. -/
def Bracket.holding : Bracket → List (String × Value) → Value
  | .list,es => .array (es.map (·.2))
  | .object,es => .object es

/-- What a text stands for: a value, or the elements of a bracket, one or more,
with their names. -/
inductive Sense where
  | value (v : Value)
  | elements (k : Bracket) (es : List (String × Value))

/-- Texts of JSON. -/
inductive Denotes : Sense → List UInt8 → Prop
  | null : Denotes (.value .null) (word "null")
  | yes : Denotes (.value (.bool true)) (word "true")
  | no : Denotes (.value (.bool false)) (word "false")
  | number {p : List UInt8} {n : Literal} {x : Number} (numeral : Numeral p n) (value : n.value = .ok x) :
      Denotes (.value (.number x)) p
  | string {p : List UInt8} {s : String} (quoted : Quoted p s) : Denotes (.value (.string s)) p
  | empty {k : Bracket} {a : List UInt8} (inside : Blank a) :
      Denotes (.value (k.holding [])) (k.opening :: a ++ [k.closing])
  | bracket {k : Bracket} {es : List (String × Value)} {p : List UInt8} (inside : Denotes (.elements k es) p) :
      Denotes (.value (k.holding es)) (k.opening :: p ++ [k.closing])
  | last {k : Bracket} {name : String} {v : Value} {l a p b : List UInt8} (label : Label k name l) (before : Blank a)
      (value : Denotes (.value v) p) (after : Blank b) : Denotes (.elements k [(name,v)]) (l ++ a ++ p ++ b)
  | more {k : Bracket} {name : String} {v : Value} {es : List (String × Value)} {l a p b q : List UInt8}
      (label : Label k name l) (before : Blank a) (value : Denotes (.value v) p) (after : Blank b)
      (further : Denotes (.elements k es) q) :
      Denotes (.elements k ((name,v) :: es)) (l ++ a ++ p ++ b ++ ascii ',' :: q)

/-! ## Going on -/

/-- The bracket that waits for an element, with the earlier ones in reverse. -/
def Bracket.waiting : Bracket → List (String × Value) → String → Frame
  | .list,es,_ => .list (es.map (·.2))
  | .object,es,name => .object es name

/-- Reads on from what reading has come to. -/
def finish : Except Fault Progress → Except Fault (Value × List UInt8)
  | .error f => .error f
  | .ok (.done v t) => .ok (v,t)
  | .ok (.more f fs t) => readOpen (f :: fs) t

/-- Reads on after a value. -/
def readAfter (v : Value) (fs : List Frame) (s : List UInt8) : Except Fault (Value × List UInt8) :=
  finish (readClosed v fs s)

/-- Reads on before an element. -/
def readWithin (k : Bracket) (es : List (String × Value)) (fs : List Frame) (s : List UInt8) :
    Except Fault (Value × List UInt8) :=
  match readLead (es.map (·.2)) es k s with
  | .error f => .error f
  | .ok (f,t) => readOpen (f :: fs) t

section
variable {k : Bracket} {name : String} {v x : Value} {es : List (String × Value)} {fs : List Frame}
  {s t l a b p w : List UInt8}

theorem readOpen_eq (fs : List Frame) (s : List UInt8) : readOpen fs s = finish (readStep fs s) := by
  rw [readOpen]
  split
  · next step => rw [step]; rfl
  · next step => rw [step]; rfl
  · next step => rw [step]; rfl

theorem readAfter_comma (blank : Blank a) :
    readAfter v (k.waiting es name :: fs) (a ++ ascii ',' :: s) = readWithin k ((name,v) :: es) fs s := by
  have found : skipSpace (a ++ ascii ',' :: s) = ascii ',' :: s := skipSpace_eq_cons_iff.mpr ⟨by decide,a,blank,rfl⟩
  cases k with
  | list =>
    have lead : readLead (((name,v) :: es).map (·.2)) ((name,v) :: es) .list s =
        readLead (v :: es.map (·.2)) [] .list s := rfl
    simp only [readAfter,Bracket.waiting,readClosed,found,if_true,readWithin,lead]
    cases readLead (v :: es.map (·.2)) [] .list s <;> rfl
  | object =>
    have lead : readLead (((name,v) :: es).map (·.2)) ((name,v) :: es) .object s =
        readLead [] ((name,v) :: es) .object s := rfl
    simp only [readAfter,Bracket.waiting,readClosed,found,if_true,readWithin,lead]
    cases readLead [] ((name,v) :: es) .object s <;> rfl

theorem bracket_waiting (k : Bracket) (es : List (String × Value)) (name : String) :
    (k.waiting es name).bracket = k := by
  cases k <;> rfl

theorem close_waiting (k : Bracket) (es : List (String × Value)) (name : String) (v : Value) :
    (k.waiting es name).close v = k.holding (es.reverse ++ [(name,v)]) := by
  cases k <;> simp [Bracket.waiting,Frame.close,Bracket.holding]

theorem readAfter_closing (blank : Blank a) :
    readAfter v (k.waiting es name :: fs) (a ++ k.closing :: s) =
      readAfter (k.holding (es.reverse ++ [(name,v)])) fs s := by
  have solid : isSpace k.closing = false ∧ k.closing ≠ ascii ',' := by cases k <;> decide
  have found : skipSpace (a ++ k.closing :: s) = k.closing :: s := skipSpace_eq_cons_iff.mpr ⟨solid.1,a,blank,rfl⟩
  simp only [readAfter,readClosed,found,if_neg solid.2,bracket_waiting,if_true,close_waiting]

/-! ### Scalars -/

theorem readOpen_scalar {b : UInt8} (blank : Blank a) (solid : isSpace b = false)
    (scalar : Bracket.ofOpening? b = none) (read : readScalar (b :: (w ++ t)) = .ok (x,t)) :
    readOpen fs (a ++ b :: w ++ t) = readAfter x fs t := by
  have found : skipSpace (a ++ b :: (w ++ t)) = b :: (w ++ t) := skipSpace_eq_cons_iff.mpr ⟨solid,a,blank,rfl⟩
  rw [List.append_assoc,List.cons_append,readOpen_eq]
  simp only [readStep,found,scalar,read,readAfter]

theorem readScalar_null (t : List UInt8) : readScalar (ascii 'n' :: (word "ull" ++ t)) = .ok (.null,t) := by
  rw [readScalar,if_pos rfl,readWord_eq_ok_iff.mpr rfl]
  rfl

theorem readScalar_true (t : List UInt8) : readScalar (ascii 't' :: (word "rue" ++ t)) = .ok (.bool true,t) := by
  rw [readScalar,if_neg (by decide),if_pos rfl,readWord_eq_ok_iff.mpr rfl]
  rfl

theorem readScalar_false (t : List UInt8) : readScalar (ascii 'f' :: (word "alse" ++ t)) = .ok (.bool false,t) := by
  rw [readScalar,if_neg (by decide),if_neg (by decide),if_pos rfl,readWord_eq_ok_iff.mpr rfl]
  rfl

theorem readScalar_string {body : List UInt8} {text : String} (spells : Spells body text.toList) (t : List UInt8) :
    readScalar (ascii '"' :: (body ++ [ascii '"'] ++ t)) = .ok (.string text,t) := by
  have read : readString (body ++ [ascii '"'] ++ t) = .ok (text,t) :=
    readString_eq_ok_iff.mpr ⟨body,spells,by simp⟩
  rw [readScalar,if_neg (by decide),if_neg (by decide),if_neg (by decide),if_pos rfl,read]
  rfl

theorem readNumber_denotes {n : Literal} {y : Number} (numeral : Numeral p n) (value : n.value = .ok y) (ends : Ends t) :
    readNumber (p ++ t) = .ok (y,t) := by
  simp only [readNumber,readLiteral_complete numeral ends,value]

theorem readScalar_number {b : UInt8} {y : Number} (number : b = ascii '-' ∨ isDigit b = true)
    (read : readNumber (b :: s) = .ok (y,t)) : readScalar (b :: s) = .ok (.number y,t) := by
  rw [readScalar,if_neg (ne_of_number number (by decide)),if_neg (ne_of_number number (by decide)),
    if_neg (ne_of_number number (by decide)),if_neg (ne_of_number number (by decide)),if_pos number,read]
  rfl

theorem readOpen_number {n : Literal} {y : Number} (blank : Blank a) (numeral : Numeral p n) (value : n.value = .ok y)
    (ends : Ends t) : readOpen fs (a ++ p ++ t) = readAfter (.number y) fs t := by
  have read := readNumber_denotes numeral value ends
  obtain ⟨b,u,rfl,number⟩ := exists_head_of_numeral numeral
  have scalar : Bracket.ofOpening? b = none := by
    rw [Bracket.ofOpening?,if_neg (ne_of_number number (by decide)),if_neg (ne_of_number number (by decide))]
  exact readOpen_scalar blank (isSpace_of_number number) scalar (readScalar_number number read)

/-! ### Brackets -/

theorem empty_eq (k : Bracket) : k.empty = k.holding [] := by cases k <;> rfl

theorem readOpen_empty (blank : Blank a) (inside : Blank b) :
    readOpen fs (a ++ (k.opening :: b ++ [k.closing]) ++ t) = readAfter (k.holding []) fs t := by
  have found : skipSpace (a ++ k.opening :: (b ++ k.closing :: t)) = k.opening :: (b ++ k.closing :: t) :=
    skipSpace_eq_cons_iff.mpr ⟨(isSpace_bracket k).1,a,blank,rfl⟩
  have inner : skipSpace (b ++ k.closing :: t) = k.closing :: t :=
    skipSpace_eq_cons_iff.mpr ⟨(isSpace_bracket k).2,b,inside,rfl⟩
  simp only [List.append_assoc,List.cons_append,List.nil_append]
  rw [readOpen_eq]
  simp only [readStep,found,ofOpening?_opening,inner,if_true,readAfter,empty_eq]

theorem skipSpace_skipSpace (s : List UInt8) : skipSpace (skipSpace s) = skipSpace s := by
  obtain ⟨a,blank,whole⟩ := exists_blank s
  rw [← skipSpace_append blank (skipSpace s),← whole]

theorem readWithin_skipSpace (k : Bracket) (es : List (String × Value)) (fs : List Frame) (s : List UInt8) :
    readWithin k es fs (skipSpace s) = readWithin k es fs s := by
  cases k with
  | list => simp only [readWithin,readLead,skipSpace_skipSpace]
  | object => simp only [readWithin,readLead,readName,skipSpace_skipSpace]

theorem readOpen_bracket {c : UInt8} (blank : Blank a) (inside : Blank b) (solid : isSpace c = false)
    (further : c ≠ k.closing) :
    readOpen fs (a ++ (k.opening :: (b ++ c :: w) ++ [k.closing]) ++ t) =
      readWithin k [] fs (b ++ c :: w ++ k.closing :: t) := by
  have found : skipSpace (a ++ k.opening :: (b ++ c :: (w ++ k.closing :: t))) =
      k.opening :: (b ++ c :: (w ++ k.closing :: t)) :=
    skipSpace_eq_cons_iff.mpr ⟨(isSpace_bracket k).1,a,blank,rfl⟩
  have inner : skipSpace (b ++ c :: (w ++ k.closing :: t)) = c :: (w ++ k.closing :: t) :=
    skipSpace_eq_cons_iff.mpr ⟨solid,b,inside,rfl⟩
  simp only [List.append_assoc,List.cons_append,List.nil_append]
  rw [readOpen_eq,← readWithin_skipSpace,inner]
  simp only [readStep,found,ofOpening?_opening,inner,if_neg further,readWithin,List.map_nil]
  cases readLead [] [] k (c :: (w ++ k.closing :: t)) <;> rfl

/-- No value starts with a space or with what ends a list. -/
theorem Denotes.exists_head (denotes : Denotes (.value v) p) :
    ∃ c u, p = c :: u ∧ isSpace c = false ∧ c ≠ Bracket.closing .list := by
  generalize same : Sense.value v = sense at denotes
  cases denotes with
  | null => exact ⟨_,_,rfl,by decide,by decide⟩
  | yes => exact ⟨_,_,rfl,by decide,by decide⟩
  | no => exact ⟨_,_,rfl,by decide,by decide⟩
  | number numeral =>
    obtain ⟨c,u,rfl,number⟩ := exists_head_of_numeral numeral
    exact ⟨c,u,rfl,isSpace_of_number number,ne_of_number number (by decide)⟩
  | string quoted =>
    obtain ⟨body,_,rfl⟩ := quoted
    exact ⟨_,_,rfl,by decide,by decide⟩
  | @empty k => exact ⟨_,_,rfl,(isSpace_bracket k).1,by cases k <;> decide⟩
  | @bracket k => exact ⟨_,_,rfl,(isSpace_bracket k).1,by cases k <;> decide⟩
  | last => cases same
  | more => cases same

theorem readName_eq (before : Blank a) {q : List UInt8} (quoted : Quoted q name) (between : Blank b) (t : List UInt8) :
    readName (a ++ q ++ b ++ [ascii ':'] ++ t) = .ok (name,t) := by
  obtain ⟨body,spells,rfl⟩ := quoted
  have found : skipSpace (a ++ ascii '"' :: (body ++ ascii '"' :: (b ++ ascii ':' :: t))) =
      ascii '"' :: (body ++ ascii '"' :: (b ++ ascii ':' :: t)) :=
    skipSpace_eq_cons_iff.mpr ⟨by decide,a,before,rfl⟩
  have read : readString (body ++ ascii '"' :: (b ++ ascii ':' :: t)) = .ok (name,b ++ ascii ':' :: t) :=
    readString_eq_ok_iff.mpr ⟨body,spells,rfl⟩
  have colon : readColon (b ++ ascii ':' :: t) = .ok t := readColon_eq_ok_iff.mpr ⟨b,between,rfl⟩
  simp only [List.append_assoc,List.cons_append,List.nil_append,readName,found,if_true,read,colon]

theorem readOpen_skipSpace (fs : List Frame) (s : List UInt8) : readOpen fs (skipSpace s) = readOpen fs s := by
  rw [readOpen_eq,readOpen_eq]
  simp only [readStep,skipSpace_skipSpace]

/-- Before an element, what comes before its value is read. -/
theorem readWithin_label (label : Label k name l) (before : Blank a) (value : Denotes (.value v) p) (t : List UInt8) :
    readWithin k es fs (l ++ (a ++ p ++ t)) = readOpen (k.waiting es name :: fs) (a ++ p ++ t) := by
  cases label with
  | item =>
    obtain ⟨c,u,rfl,solid,other⟩ := value.exists_head
    have found : skipSpace (a ++ (c :: u) ++ t) = c :: (u ++ t) := by
      rw [List.append_assoc]
      exact skipSpace_eq_cons_iff.mpr ⟨solid,a,before,rfl⟩
    rw [List.nil_append,← readOpen_skipSpace _ (a ++ (c :: u) ++ t)]
    simp only [readWithin,readLead,found,if_neg other,Bracket.waiting]
  | member before' quoted between =>
    simp only [readWithin,readLead,readName_eq before' quoted between,Bracket.waiting]

theorem Denotes.exists_head_of_elements (denotes : Denotes (.elements k es) p) :
    ∃ b c u, Blank b ∧ p = b ++ c :: u ∧ isSpace c = false ∧ c ≠ k.closing := by
  have element {name : String} {v : Value} {l a q u : List UInt8} (label : Label k name l) (before : Blank a)
      (value : Denotes (.value v) q) : ∃ b c w, Blank b ∧ l ++ a ++ q ++ u = b ++ c :: w ∧ isSpace c = false ∧
        c ≠ k.closing := by
    cases label with
    | item =>
      obtain ⟨c,w,rfl,solid,other⟩ := value.exists_head
      exact ⟨a,c,w ++ u,before,by simp,solid,other⟩
    | @member b q' between name before' quoted blank =>
      obtain ⟨body,_,rfl⟩ := quoted
      exact ⟨b,ascii '"',body ++ ascii '"' :: (between ++ ascii ':' :: (a ++ (q ++ u))),before',by simp,by decide,
        by decide⟩
  generalize same : Sense.elements k es = sense at denotes
  cases denotes with
  | last label before value after =>
    cases same
    exact element label before value
  | more label before value after further =>
    cases same
    rw [List.append_assoc (_ ++ _ ++ _)]
    exact element label before value
  | _ => cases same

/-! ### All texts -/

/-- How the bytes of a text are read. -/
def Sense.Read : Sense → List UInt8 → Prop
  | .value v,p => ∀ fs a t, Blank a → Ends t → readOpen fs (a ++ p ++ t) = readAfter v fs t
  | .elements k es,p => ∀ earlier fs t,
      readWithin k earlier fs (p ++ k.closing :: t) = readAfter (k.holding (earlier.reverse ++ es)) fs t

theorem Denotes.read {sense : Sense} (denotes : Denotes sense p) : sense.Read p := by
  induction denotes with
  | null =>
    intro fs a t blank ends
    exact readOpen_scalar blank (by decide) (by decide) (readScalar_null t)
  | yes =>
    intro fs a t blank ends
    exact readOpen_scalar blank (by decide) (by decide) (readScalar_true t)
  | no =>
    intro fs a t blank ends
    exact readOpen_scalar blank (by decide) (by decide) (readScalar_false t)
  | number numeral value =>
    intro fs a t blank ends
    exact readOpen_number blank numeral value ends
  | string quoted =>
    intro fs a t blank ends
    obtain ⟨body,spells,rfl⟩ := quoted
    exact readOpen_scalar blank (by decide) (by decide) (readScalar_string spells t)
  | empty inside =>
    intro fs a t blank ends
    exact readOpen_empty blank inside
  | bracket inside ih =>
    intro fs a t blank ends
    obtain ⟨b,c,u,spaces,rfl,solid,further⟩ := inside.exists_head_of_elements
    rw [readOpen_bracket blank spaces solid further]
    exact ih [] fs t
  -- Inside a bracket a value is followed by spaces, a comma or the bracket's end.
  | @last k name v l a p b label before value after ih =>
    intro earlier fs t
    rw [show l ++ a ++ p ++ b ++ k.closing :: t = l ++ (a ++ p ++ (b ++ k.closing :: t)) by simp,
      readWithin_label label before value,ih _ a _ before (ends_blank after (ends_closing k t)),readAfter_closing after]
  | @more k name v es l a p b q label before value after further ih rest =>
    intro earlier fs t
    rw [show l ++ a ++ p ++ b ++ ascii ',' :: q ++ k.closing :: t =
      l ++ (a ++ p ++ (b ++ ascii ',' :: (q ++ k.closing :: t))) by simp,readWithin_label label before value,
      ih _ a _ before (ends_blank after (ends_comma _)),readAfter_comma after,rest]
    simp

/-- Digits stand for their number as long as it has 64 bits. -/
theorem denotes_whole {n : Nat} (whole : Whole w) (same : Decimal.ofValues 0 (digitValues w) = n)
    (fits : n < UInt64.size) : Denotes (.value (.nat n)) w := by
  have numeral : Numeral (w ++ ([] ++ [])) ⟨false,digitValues w,[],none⟩ := .positive (.mk whole .absent .absent)
  rw [List.append_nil,List.append_nil] at numeral
  exact .number numeral (value_eq_unsigned_iff.mpr ⟨rfl,rfl,rfl,same,fits⟩)

/-- Every text is read as the value that it stands for, with spaces around it or not. -/
theorem ofBytes_complete (before : Blank a) (denotes : Denotes (.value v) p) (after : Blank b) :
    Value.ofBytes (a ++ p ++ b) = .ok v := by
  have ends : Ends b := by
    have ends := ends_blank after (t := []) nofun
    rwa [List.append_nil] at ends
  have rest : skipSpace b = [] := by
    have rest := skipSpace_append after []
    rwa [List.append_nil] at rest
  have read : readOpen [] (a ++ p ++ b) = .ok (v,b) := denotes.read [] a b before ends
  simp only [Value.ofBytes,read,rest,List.isEmpty_nil,if_true]

end

end Lockstep.Json
