import Lockstep.Json.Found
import Lockstep.Proofs.Json.Values

/-!
# What is found in a value's place

Where something else was asked for, a value is told by its kind. That takes a scalar
whole, and of a list or an object only the bracket it starts with (`Shows`). Every text
with the form of a value shows something (`Conforms.exists_shows`), and just what it
shows is found (`Shows.found`).
-/

namespace Lockstep.Json

/-! ## Form -/

section
variable {p body : List UInt8}

theorem Loose.append {stretch : List UInt8} (plain : ∀ b ∈ stretch, Plain b) (further : Loose body) :
    Loose (stretch ++ body) := by
  induction stretch with
  | nil => exact further
  | cons b stretch ih =>
    obtain ⟨first,later⟩ := List.forall_mem_cons.mp plain
    exact .plain first (ih later)

/-- Each half of a surrogate pair is an escape of its own. -/
theorem Escape.loose {c : Char} (escape : Escape p c) (further : Loose body) : Loose (ascii '\\' :: p ++ body) := by
  cases escape with
  | letter known => exact .escape (.letter known) further
  | code digits => exact .escape (.code digits) further
  | pair first _ second _ =>
    have loose := Loose.escape (.code first) (.escape (.code second) further)
    simpa using loose

theorem Spells.loose {s : List Char} (spells : Spells body s) : Loose body := by
  induction spells with
  | nil => exact .nil
  | plain printable quote backslash _ ih => exact .append (plain_encodeChar printable quote backslash) ih
  | escape escape _ ih => exact escape.loose ih

theorem Label.lead {k : Bracket} {name : String} {l : List UInt8} (label : Label k name l) : Lead k l := by
  cases label with
  | item => exact .item
  | member before quoted between =>
    obtain ⟨body,spells,rfl⟩ := quoted
    have lead := Lead.member before spells.loose between
    simpa using lead

/-- The form of what a text stands for. -/
def Sense.form : Sense → Form
  | .value _ => .value
  | .elements k _ => .elements k

theorem Denotes.conforms {sense : Sense} (denotes : Denotes sense p) : Conforms sense.form p := by
  induction denotes with
  | null => exact .null
  | yes => exact .true
  | no => exact .false
  | number numeral _ => exact .number numeral
  | string quoted =>
    obtain ⟨body,spells,rfl⟩ := quoted
    exact .string spells.loose
  | empty inside => exact .empty inside
  | bracket _ ih => exact .bracket ih
  | last label before _ after ih => exact .last label.lead before ih after
  | more label before _ after _ ih further => exact .more label.lead before ih after further

end

/-! ## Kinds -/

/-- The kind of a bracket. -/
def Bracket.found : Bracket → Found
  | .list => .list
  | .object => .object

/-- What the start of a value shows: its kind, or that it is a number that is not read. -/
inductive Shows : Except Fault Found → List UInt8 → Prop
  | null : Shows (.ok .null) (word "null")
  | yes : Shows (.ok (.bool true)) (word "true")
  | no : Shows (.ok (.bool false)) (word "false")
  | number {p : List UInt8} {n : Literal} (numeral : Numeral p n) : Shows (n.value.map .number) p
  | string {p : List UInt8} {s : String} (quoted : Quoted p s) : Shows (.ok (.string s)) p
  | bracket {k : Bracket} {p : List UInt8} : Shows (.ok k.found) (k.opening :: p)

section
variable {v w : Value} {r r' : Except Fault Found} {b : UInt8} {p s t : List UInt8}

/-- Every value shows something. Only a string that is no text does not. -/
theorem Conforms.exists_shows (conforms : Conforms .value p)
    (text : p.head? = some (ascii '"') → ∃ s, Quoted p s) : ∃ r, Shows r p := by
  generalize same : Form.value = form at conforms
  cases conforms with
  | null => exact ⟨_,.null⟩
  | true => exact ⟨_,.yes⟩
  | false => exact ⟨_,.no⟩
  | number numeral => exact ⟨_,.number numeral⟩
  | string =>
    obtain ⟨_,quoted⟩ := text rfl
    exact ⟨_,.string quoted⟩
  | empty => exact ⟨_,.bracket⟩
  | bracket => exact ⟨_,.bracket⟩
  | last => cases same
  | more => cases same

theorem readNumber_numeral {n : Literal} (numeral : Numeral p n) (ends : Ends t) :
    readNumber (p ++ t) = n.value.map (·,t) := by
  simp only [readNumber,readLiteral_complete numeral ends]
  cases n.value <;> rfl

theorem readFound_number (number : b = ascii '-' ∨ isDigit b = true) (t : List UInt8) :
    readFound (b :: t) = (readNumber (b :: t)).map fun (n,_) => .number n := by
  rw [readFound,if_neg (ne_of_number number (by decide)),if_neg (ne_of_number number (by decide)),
    if_neg (ne_of_number number (by decide)),if_neg (ne_of_number number (by decide)),if_pos number]

/-- What a value shows is found, whatever comes behind it. -/
theorem Shows.found (shows : Shows r p) (ends : Ends t) : readFound (p ++ t) = r := by
  cases shows with
  | null =>
    show readFound (ascii 'n' :: (word "ull" ++ t)) = _
    rw [readFound,if_pos rfl,readWord_eq_ok_iff.mpr rfl]
    rfl
  | yes =>
    show readFound (ascii 't' :: (word "rue" ++ t)) = _
    rw [readFound,if_neg (by decide),if_pos rfl,readWord_eq_ok_iff.mpr rfl]
    rfl
  | no =>
    show readFound (ascii 'f' :: (word "alse" ++ t)) = _
    rw [readFound,if_neg (by decide),if_neg (by decide),if_pos rfl,readWord_eq_ok_iff.mpr rfl]
    rfl
  | @number p n numeral =>
    have read := readNumber_numeral numeral ends
    obtain ⟨b,u,rfl,number⟩ := exists_head_of_numeral numeral
    rw [List.cons_append] at read ⊢
    rw [readFound_number number,read]
    cases n.value <;> rfl
  | @string p text quoted =>
    obtain ⟨body,spells,rfl⟩ := quoted
    have read : readString (body ++ [ascii '"'] ++ t) = .ok (text,t) :=
      readString_eq_ok_iff.mpr ⟨body,spells,by simp⟩
    rw [List.cons_append,List.cons_append,readFound,if_neg (by decide),if_neg (by decide),if_neg (by decide),if_pos rfl,
      read]
    rfl
  | @bracket k p =>
    cases k with
    | list | object => rfl

theorem Shows.unique (first : Shows r p) (second : Shows r' p) : r = r' := by
  have found := first.found (t := []) nofun
  rw [second.found (t := []) nofun] at found
  exact found.symm

/-- No value starts with a space. -/
theorem Shows.exists_head (shows : Shows r p) : ∃ b t, p = b :: t ∧ isSpace b = false := by
  cases shows with
  | null => exact ⟨_,_,rfl,by decide⟩
  | yes => exact ⟨_,_,rfl,by decide⟩
  | no => exact ⟨_,_,rfl,by decide⟩
  | number numeral =>
    obtain ⟨b,t,rfl,number⟩ := exists_head_of_numeral numeral
    exact ⟨b,t,rfl,isSpace_of_number number⟩
  | string quoted =>
    obtain ⟨body,_,rfl⟩ := quoted
    exact ⟨_,_,rfl,by decide⟩
  | @bracket k => exact ⟨_,_,rfl,(isSpace_bracket k).1⟩

/-- What shows a number starts like one. -/
theorem Shows.head_number {x : Number} (shows : Shows (.ok (.number x)) (b :: p)) : b = ascii '-' ∨ isDigit b = true := by
  generalize same : Except.ok (Found.number x) = r at shows
  generalize whole : b :: p = q at shows
  cases shows with
  | number numeral =>
    obtain ⟨c,u,rfl,number⟩ := exists_head_of_numeral numeral
    rwa [(List.cons.inj whole).1]
  | @bracket k => cases k <;> cases same
  | _ => cases same

/-- What starts with a quote shows a string. -/
theorem Shows.head_string (shows : Shows r (ascii '"' :: p)) : ∃ s, r = .ok (.string s) := by
  generalize whole : ascii '"' :: p = q at shows
  cases shows with
  | string quoted => exact ⟨_,rfl⟩
  | number numeral =>
    obtain ⟨c,u,rfl,number⟩ := exists_head_of_numeral numeral
    exact absurd (List.cons.inj whole).1.symm (ne_of_number number (by decide))
  | null | yes | no => exact absurd (List.cons.inj whole).1 (by decide)
  | @bracket k =>
    cases k with
    | list | object => exact absurd (List.cons.inj whole).1 (by decide)

/-- A text that stands for a value shows its kind. -/
theorem Denotes.shows (denotes : Denotes (.value v) p) : Shows (.ok v.found) p := by
  generalize same : Sense.value v = sense at denotes
  cases denotes with
  | null =>
    cases same
    exact .null
  | yes =>
    cases same
    exact .yes
  | no =>
    cases same
    exact .no
  | number numeral value =>
    cases same
    have shows := Shows.number numeral
    rwa [value] at shows
  | string quoted =>
    cases same
    exact .string quoted
  | @empty k =>
    cases same
    cases k with
    | list => exact Shows.bracket (k := .list)
    | object => exact Shows.bracket (k := .object)
  | @bracket k =>
    cases same
    cases k with
    | list => exact Shows.bracket (k := .list)
    | object => exact Shows.bracket (k := .object)
  | last => cases same
  | more => cases same

/-- What starts with a quote and stands for a value is text. -/
theorem Denotes.quoted (denotes : Denotes (.value v) p) (quote : p.head? = some (ascii '"')) : ∃ s, Quoted p s := by
  generalize same : Sense.value v = sense at denotes
  cases denotes with
  | string quoted => exact ⟨_,quoted⟩
  | number numeral =>
    obtain ⟨b,t,rfl,number⟩ := exists_head_of_numeral numeral
    exact absurd (Option.some.inj quote) (ne_of_number number (by decide))
  | null | yes | no => exact absurd quote (by decide)
  | @empty k | @bracket k =>
    cases k with
    | list | object => exact absurd (Option.some.inj quote) (by decide)
  | last => cases same
  | more => cases same

/-- No text stands for two values. -/
theorem Denotes.unique (first : Denotes (.value v) p) (second : Denotes (.value w) p) : v = w := by
  have read := ofBytes_complete blank_nil first blank_nil
  rw [ofBytes_complete blank_nil second blank_nil] at read
  exact (Except.ok.inj read).symm

end

end Lockstep.Json
