import Lockstep.Proofs.Json.Numbers

/-!
# Passing over values

`skipValue` takes a value off the front of a text, with the spaces before it,
exactly where the grammar has one there (`exists_of_skipValue`,
`skipValue_complete`). Its brackets are in a list, so what is still to come is
told by the list: `Closes` after a value, `Opens` before one.
-/

namespace Lockstep.Json

section
variable {k : Bracket} {ks js : List Bracket} {s t l a : List UInt8}

/-! ## Names and scalars -/

theorem blank_append {b : List UInt8} (first : Blank a) (second : Blank b) : Blank (a ++ b) := by
  intro x member
  rcases List.mem_append.mp member with early | late
  · exact first x early
  · exact second x late

theorem readColon_eq_ok_iff : readColon s = .ok t ↔ ∃ a, Blank a ∧ s = a ++ ascii ':' :: t := by
  constructor
  · intro read
    unfold readColon at read
    split at read
    · cases read
    next found =>
    obtain ⟨_,a,blank,rfl⟩ := skipSpace_eq_cons_iff.mp found
    split at read
    · next colon =>
      cases read
      exact ⟨a,blank,by rw [colon]⟩
    · cases read
  · rintro ⟨a,blank,rfl⟩
    have found : skipSpace (a ++ ascii ':' :: t) = ascii ':' :: t :=
      skipSpace_eq_cons_iff.mpr ⟨by decide,a,blank,rfl⟩
    simp only [readColon,found,if_true]

theorem skipName_eq_ok_iff : skipName s = .ok t ↔ ∃ l, Lead .object l ∧ s = l ++ t := by
  constructor
  · intro read
    unfold skipName at read
    split at read
    · cases read
    next found =>
    obtain ⟨_,a,blank,rfl⟩ := skipSpace_eq_cons_iff.mp found
    split at read
    · next quote =>
      split at read
      · cases read
      next skipped =>
      obtain ⟨body,loose,rfl⟩ := skipString_eq_ok_iff.mp skipped
      obtain ⟨b,between,rfl⟩ := readColon_eq_ok_iff.mp read
      exact ⟨_,.member blank loose between,by rw [quote]; simp⟩
    · cases read
  · rintro ⟨l,lead,rfl⟩
    cases lead with
    | @member a body b before name between =>
      have found : skipSpace (a ++ ascii '"' :: (body ++ ascii '"' :: (b ++ ascii ':' :: t))) =
          ascii '"' :: (body ++ ascii '"' :: (b ++ ascii ':' :: t)) :=
        skipSpace_eq_cons_iff.mpr ⟨by decide,a,before,rfl⟩
      have skipped : skipString (body ++ ascii '"' :: (b ++ ascii ':' :: t)) = .ok (b ++ ascii ':' :: t) :=
        skipString_eq_ok_iff.mpr ⟨body,name,rfl⟩
      have colon : readColon (b ++ ascii ':' :: t) = .ok t := readColon_eq_ok_iff.mpr ⟨b,between,rfl⟩
      simp only [List.append_assoc,List.cons_append,List.nil_append,skipName,found,if_true,skipped,colon]

theorem skipLead_eq_ok_iff : skipLead k s = .ok t ↔ ∃ l, Lead k l ∧ s = l ++ t := by
  cases k with
  | object => exact skipName_eq_ok_iff
  | list =>
    constructor
    · intro read
      cases read
      exact ⟨[],.item,rfl⟩
    · rintro ⟨l,lead,rfl⟩
      cases lead
      rfl

theorem exists_of_skipScalar (read : skipScalar s = .ok t) : ∃ v, Conforms .value v ∧ s = v ++ t := by
  unfold skipScalar at read
  split at read
  · cases read
  next b rest =>
  split at read
  · next letter =>
    rw [readWord_eq_ok_iff.mp read,letter]
    exact ⟨_,.null,rfl⟩
  split at read
  · next letter =>
    rw [readWord_eq_ok_iff.mp read,letter]
    exact ⟨_,.true,rfl⟩
  split at read
  · next letter =>
    rw [readWord_eq_ok_iff.mp read,letter]
    exact ⟨_,.false,rfl⟩
  split at read
  · next quote =>
    obtain ⟨body,loose,rfl⟩ := skipString_eq_ok_iff.mp read
    exact ⟨_,.string loose,by rw [quote]; simp⟩
  split at read
  · split at read
    · cases read
    next literal =>
    cases read
    obtain ⟨p,numeral,whole⟩ := exists_of_readLiteral literal
    exact ⟨p,.number numeral,whole⟩
  · cases read

/-! ## What is passed over is a value -/

/-- What closes the brackets that are open, after a value. -/
inductive Closes : List Bracket → List UInt8 → Prop
  | done : Closes [] []
  | last {k : Bracket} {ks : List Bracket} {a u : List UInt8} (before : Blank a) (outer : Closes ks u) :
      Closes (k :: ks) (a ++ k.closing :: u)
  | more {k : Bracket} {ks : List Bracket} {a es u : List UInt8} (before : Blank a)
      (further : Conforms (.elements k) es) (outer : Closes ks u) :
      Closes (k :: ks) (a ++ ascii ',' :: es ++ k.closing :: u)

/-- A value, and what closes the brackets around it. -/
inductive Opens (ks : List Bracket) : List UInt8 → Prop
  | mk {a v u : List UInt8} (before : Blank a) (value : Conforms .value v) (closes : Closes ks u) :
      Opens ks (a ++ v ++ u)

/-- What is still to come where a value starts, or nothing where no bracket is
open. -/
def Owes : List Bracket → List UInt8 → Prop
  | [],q => q = []
  | k :: ks,q => Opens (k :: ks) q

/-- An element that has begun ends, alone or with others, at the end of its
bracket. -/
theorem exists_elements {q : List UInt8} (lead : Lead k l) (opens : Opens (k :: ks) q) :
    ∃ es u, Conforms (.elements k) es ∧ Closes ks u ∧ l ++ q = es ++ k.closing :: u := by
  obtain ⟨before,value,closes⟩ := opens
  cases closes with
  | last after outer => exact ⟨_,_,.last lead before value after,outer,by simp⟩
  | more after further outer => exact ⟨_,_,.more lead before value after further,outer,by simp⟩

/-- Spaces before an element are part of it. -/
theorem exists_elements_of_blank {q : List UInt8} (blank : Blank a) (lead : Lead k l) (opens : Opens (k :: ks) q) :
    ∃ es u, Conforms (.elements k) es ∧ Closes ks u ∧ a ++ (l ++ q) = es ++ k.closing :: u := by
  cases lead with
  | item =>
    obtain ⟨before,value,closes⟩ := opens
    obtain ⟨es,u,elements,outer,whole⟩ := exists_elements .item (.mk (blank_append blank before) value closes)
    exact ⟨es,u,elements,outer,by rw [← whole]; simp⟩
  | member before name between =>
    obtain ⟨es,u,elements,outer,whole⟩ :=
      exists_elements (.member (blank_append blank before) name between) opens
    exact ⟨es,u,elements,outer,by rw [← whole]; simp⟩

theorem exists_of_skipClosed (read : skipClosed ks s = .ok (js,t)) :
    ∃ p, s = p ++ t ∧ ∀ q, Owes js q → Closes ks (p ++ q) := by
  induction ks generalizing s with
  | nil =>
    cases read
    refine ⟨[],rfl,?_⟩
    rintro q rfl
    exact .done
  | cons k ks ih =>
    unfold skipClosed at read
    split at read
    · cases read
    next b rest found =>
    obtain ⟨_,a,blank,rfl⟩ := skipSpace_eq_cons_iff.mp found
    split at read
    · next comma =>
      split at read
      · cases read
      next skipped =>
      cases read
      obtain ⟨l,lead,rfl⟩ := skipLead_eq_ok_iff.mp skipped
      refine ⟨a ++ ascii ',' :: l,by rw [comma]; simp,?_⟩
      intro q owes
      -- `l` begins an element of `k`, which ends in `q` together with the bracket.
      obtain ⟨es,u,elements,outer,whole⟩ := exists_elements lead owes
      have closes := Closes.more blank elements outer
      rw [List.append_assoc,List.cons_append,← whole] at closes
      simpa using closes
    · next comma =>
      split at read
      · next closing =>
        obtain ⟨p,rfl,closes⟩ := ih read
        refine ⟨a ++ k.closing :: p,by rw [closing]; simp,?_⟩
        intro q owes
        rw [List.append_assoc]
        exact .last blank (closes q owes)
      · cases read

theorem ofOpening?_eq_some {b : UInt8} (opening : Bracket.ofOpening? b = some k) : b = k.opening := by
  unfold Bracket.ofOpening? at opening
  split at opening
  · next same =>
    cases opening
    exact same
  split at opening
  · next same =>
    cases opening
    exact same
  · cases opening

theorem exists_of_skipStep (read : skipStep ks s = .ok (js,t)) :
    ∃ p, s = p ++ t ∧ ∀ q, Owes js q → Opens ks (p ++ q) := by
  unfold skipStep at read
  split at read
  · cases read
  next b rest found =>
  obtain ⟨_,a,blank,rfl⟩ := skipSpace_eq_cons_iff.mp found
  split at read
  · next k opening =>
    obtain rfl := ofOpening?_eq_some opening
    split at read
    · cases read
    next c u inner =>
    obtain ⟨_,a',inside,rfl⟩ := skipSpace_eq_cons_iff.mp inner
    split at read
    · next closing =>
      obtain ⟨p,rfl,closes⟩ := exists_of_skipClosed read
      refine ⟨a ++ (k.opening :: a' ++ [k.closing]) ++ p,by rw [closing]; simp,?_⟩
      intro q owes
      rw [List.append_assoc]
      exact .mk blank (.empty inside) (closes q owes)
    · split at read
      · cases read
      next skipped =>
      cases read
      obtain ⟨l,lead,whole⟩ := skipLead_eq_ok_iff.mp skipped
      refine ⟨a ++ k.opening :: (a' ++ l),by rw [whole]; simp,?_⟩
      intro q owes
      -- The spaces inside the bracket have been passed before its first element was looked for.
      obtain ⟨es,u,elements,outer,whole⟩ := exists_elements_of_blank inside lead owes
      have opens := Opens.mk blank (.bracket elements) outer
      rw [show a ++ k.opening :: (a' ++ l) ++ q = a ++ (k.opening :: es ++ [k.closing]) ++ u by
        simpa using whole]
      exact opens
  · split at read
    · cases read
    next skipped =>
    obtain ⟨v,value,whole⟩ := exists_of_skipScalar skipped
    obtain ⟨p,rfl,closes⟩ := exists_of_skipClosed read
    refine ⟨a ++ v ++ p,by rw [whole]; simp,?_⟩
    intro q owes
    rw [List.append_assoc]
    exact .mk blank value (closes q owes)

theorem exists_of_skipOpen (read : skipOpen ks s = .ok t) : ∃ p, Opens ks p ∧ s = p ++ t := by
  fun_induction skipOpen ks s with
  | case1 => cases read
  | case2 ks s u step =>
    cases read
    obtain ⟨p,whole,opens⟩ := exists_of_skipStep step
    have done := opens [] rfl
    rw [List.append_nil] at done
    exact ⟨p,done,whole⟩
  | case3 ks s k js u step ih =>
    obtain ⟨q,further,rfl⟩ := ih read
    obtain ⟨p,rfl,opens⟩ := exists_of_skipStep step
    exact ⟨p ++ q,opens q further,by simp⟩

/-- What is passed over is a value. -/
theorem exists_of_skipValue (read : skipValue s = .ok t) :
    ∃ a v, Blank a ∧ Conforms .value v ∧ s = a ++ v ++ t := by
  obtain ⟨p,opens,rfl⟩ := exists_of_skipOpen read
  obtain ⟨before,value,closes⟩ := opens
  cases closes
  exact ⟨_,_,before,value,by simp⟩

/-! ## Every value is passed over -/

/-- Goes on where some brackets have been closed. -/
def proceed : Except Fault (List Bracket × List UInt8) → Except Fault (List UInt8)
  | .error f => .error f
  | .ok ([],t) => .ok t
  | .ok (k :: ks,t) => skipOpen (k :: ks) t

/-- Goes on after a value. -/
def resume (ks : List Bracket) (s : List UInt8) : Except Fault (List UInt8) := proceed (skipClosed ks s)

/-- Goes on before an element. -/
def enter (k : Bracket) (ks : List Bracket) (s : List UInt8) : Except Fault (List UInt8) :=
  match skipLead k s with
  | .error f => .error f
  | .ok t => skipOpen (k :: ks) t

theorem skipOpen_eq (ks : List Bracket) (s : List UInt8) : skipOpen ks s = proceed (skipStep ks s) := by
  rw [skipOpen]
  split
  · next step => rw [step]; rfl
  · next step => rw [step]; rfl
  · next step => rw [step]; rfl

theorem resume_comma (blank : Blank a) : resume (k :: ks) (a ++ ascii ',' :: s) = enter k ks s := by
  have found : skipSpace (a ++ ascii ',' :: s) = ascii ',' :: s := skipSpace_eq_cons_iff.mpr ⟨by decide,a,blank,rfl⟩
  simp only [resume,skipClosed,found,if_true,enter]
  cases skipLead k s <;> rfl

theorem resume_closing (blank : Blank a) : resume (k :: ks) (a ++ k.closing :: s) = resume ks s := by
  have solid : isSpace k.closing = false ∧ k.closing ≠ ascii ',' := by cases k <;> decide
  have found : skipSpace (a ++ k.closing :: s) = k.closing :: s := skipSpace_eq_cons_iff.mpr ⟨solid.1,a,blank,rfl⟩
  simp only [resume,skipClosed,found,if_neg solid.2,if_true]

/-! ### Scalars -/

theorem skipOpen_scalar {v : List UInt8} {b : UInt8} (blank : Blank a) (solid : isSpace b = false)
    (scalar : Bracket.ofOpening? b = none) (skipped : skipScalar (b :: (v ++ t)) = .ok t) :
    skipOpen ks (a ++ b :: v ++ t) = resume ks t := by
  have found : skipSpace (a ++ b :: (v ++ t)) = b :: (v ++ t) := skipSpace_eq_cons_iff.mpr ⟨solid,a,blank,rfl⟩
  rw [List.append_assoc,List.cons_append,skipOpen_eq]
  simp only [skipStep,found,scalar,skipped,resume]

theorem skipScalar_null (t : List UInt8) : skipScalar (ascii 'n' :: (word "ull" ++ t)) = .ok t := by
  rw [skipScalar,if_pos rfl]
  exact readWord_eq_ok_iff.mpr rfl

theorem skipScalar_true (t : List UInt8) : skipScalar (ascii 't' :: (word "rue" ++ t)) = .ok t := by
  rw [skipScalar,if_neg (by decide),if_pos rfl]
  exact readWord_eq_ok_iff.mpr rfl

theorem skipScalar_false (t : List UInt8) : skipScalar (ascii 'f' :: (word "alse" ++ t)) = .ok t := by
  rw [skipScalar,if_neg (by decide),if_neg (by decide),if_pos rfl]
  exact readWord_eq_ok_iff.mpr rfl

theorem skipScalar_string {body : List UInt8} (loose : Loose body) (t : List UInt8) :
    skipScalar (ascii '"' :: (body ++ [ascii '"'] ++ t)) = .ok t := by
  rw [skipScalar,if_neg (by decide),if_neg (by decide),if_neg (by decide),if_pos rfl,List.append_assoc]
  exact skipString_eq_ok_iff.mpr ⟨body,loose,rfl⟩

/-- How a number starts. -/
theorem exists_head_of_numeral {p : List UInt8} {n : Literal} (numeral : Numeral p n) :
    ∃ b u, p = b :: u ∧ (b = ascii '-' ∨ isDigit b = true) := by
  cases numeral with
  | negative => exact ⟨_,_,rfl,.inl rfl⟩
  | positive magnitude =>
    cases magnitude with
    | @mk w _ _ _ _ whole _ _ =>
      cases w with
      | nil => exact absurd rfl whole.digits.some
      | cons b w => exact ⟨b,_,rfl,.inr (isDigit_iff.mpr (whole.digits.all b List.mem_cons_self))⟩

theorem not_number : ∀ b ∈ [ascii 'n',ascii 't',ascii 'f',ascii '"',ascii ' ',ascii '\n',ascii '\t',ascii '\r',0x5B,0x5D,
    0x7B], ¬(b = ascii '-' ∨ isDigit b = true) :=
  List.all_iff_forall_prop.mp (by decide)

/-- A byte with which a number starts is none with which anything else does. -/
theorem ne_of_number {b c : UInt8} (number : b = ascii '-' ∨ isDigit b = true)
    (other : c ∈ [ascii 'n',ascii 't',ascii 'f',ascii '"',ascii ' ',ascii '\n',ascii '\t',ascii '\r',0x5B,0x5D,0x7B]) :
    b ≠ c := by
  rintro rfl
  exact not_number b other number

theorem isSpace_of_number {b : UInt8} (number : b = ascii '-' ∨ isDigit b = true) : isSpace b = false := by
  rw [← Bool.not_eq_true,isSpace_iff]
  intro member
  exact not_number b (by simp only [List.mem_cons,List.not_mem_nil,or_false] at member ⊢; tauto) number

theorem skipOpen_number {p : List UInt8} {n : Literal} (blank : Blank a) (numeral : Numeral p n) (ends : Ends t) :
    skipOpen ks (a ++ p ++ t) = resume ks t := by
  have read : readLiteral .badNumber (p ++ t) = .ok (n,t) := readLiteral_complete numeral ends
  obtain ⟨b,u,rfl,number⟩ := exists_head_of_numeral numeral
  have scalar : Bracket.ofOpening? b = none := by
    rw [Bracket.ofOpening?,if_neg (ne_of_number number (by decide)),if_neg (ne_of_number number (by decide))]
  refine skipOpen_scalar blank (isSpace_of_number number) scalar ?_
  rw [List.cons_append] at read
  rw [skipScalar,if_neg (ne_of_number number (by decide)),if_neg (ne_of_number number (by decide)),
    if_neg (ne_of_number number (by decide)),if_neg (ne_of_number number (by decide)),if_pos number,read]

/-! ### Brackets -/

theorem ofOpening?_opening (k : Bracket) : Bracket.ofOpening? k.opening = some k := by
  cases k <;> decide

theorem isSpace_bracket (k : Bracket) : isSpace k.opening = false ∧ isSpace k.closing = false := by
  cases k <;> decide

theorem skipOpen_empty {b : List UInt8} (blank : Blank a) (inside : Blank b) :
    skipOpen ks (a ++ (k.opening :: b ++ [k.closing]) ++ t) = resume ks t := by
  have found : skipSpace (a ++ k.opening :: (b ++ k.closing :: t)) = k.opening :: (b ++ k.closing :: t) :=
    skipSpace_eq_cons_iff.mpr ⟨(isSpace_bracket k).1,a,blank,rfl⟩
  have inner : skipSpace (b ++ k.closing :: t) = k.closing :: t :=
    skipSpace_eq_cons_iff.mpr ⟨(isSpace_bracket k).2,b,inside,rfl⟩
  simp only [List.append_assoc,List.cons_append,List.nil_append]
  rw [skipOpen_eq]
  simp only [skipStep,found,ofOpening?_opening,inner,if_true,resume]

/-- Spaces before an element make no difference. -/
theorem enter_skipSpace (k : Bracket) (ks : List Bracket) (s : List UInt8) :
    enter k ks (skipSpace s) = enter k ks s := by
  obtain ⟨a,blank,whole⟩ := exists_blank s
  have twice : skipSpace (skipSpace s) = skipSpace s := by rw [← skipSpace_append blank (skipSpace s),← whole]
  cases k with
  | list => simp only [enter,skipLead,skipOpen_eq,skipStep,twice]
  | object => simp only [enter,skipLead,skipName,twice]

theorem skipOpen_bracket {b es : List UInt8} {c : UInt8} (blank : Blank a) (inside : Blank b) (solid : isSpace c = false)
    (further : c ≠ k.closing) :
    skipOpen ks (a ++ (k.opening :: (b ++ c :: es) ++ [k.closing]) ++ t) =
      enter k ks (b ++ c :: es ++ k.closing :: t) := by
  have found : skipSpace (a ++ k.opening :: (b ++ c :: (es ++ k.closing :: t))) =
      k.opening :: (b ++ c :: (es ++ k.closing :: t)) :=
    skipSpace_eq_cons_iff.mpr ⟨(isSpace_bracket k).1,a,blank,rfl⟩
  have inner : skipSpace (b ++ c :: (es ++ k.closing :: t)) = c :: (es ++ k.closing :: t) :=
    skipSpace_eq_cons_iff.mpr ⟨solid,b,inside,rfl⟩
  simp only [List.append_assoc,List.cons_append,List.nil_append]
  rw [skipOpen_eq,← enter_skipSpace,inner]
  simp only [skipStep,found,ofOpening?_opening,inner,if_neg further,enter]
  cases skipLead k (c :: (es ++ k.closing :: t)) <;> rfl

/-- No value starts with a space or with what ends a list. -/
theorem exists_head_of_value {v : List UInt8} (value : Conforms .value v) :
    ∃ b u, v = b :: u ∧ isSpace b = false ∧ b ≠ Bracket.closing .list := by
  cases value with
  | null => exact ⟨_,_,rfl,by decide,by decide⟩
  | true => exact ⟨_,_,rfl,by decide,by decide⟩
  | false => exact ⟨_,_,rfl,by decide,by decide⟩
  | string => exact ⟨_,_,rfl,by decide,by decide⟩
  | @empty k => exact ⟨_,_,rfl,(isSpace_bracket k).1,by cases k <;> decide⟩
  | @bracket k => exact ⟨_,_,rfl,(isSpace_bracket k).1,by cases k <;> decide⟩
  | number numeral =>
    obtain ⟨b,u,rfl,number⟩ := exists_head_of_numeral numeral
    exact ⟨b,u,rfl,isSpace_of_number number,ne_of_number number (by decide)⟩

theorem exists_head_of_element {v u : List UInt8} (lead : Lead k l) (before : Blank a) (value : Conforms .value v) :
    ∃ b c w, Blank b ∧ l ++ a ++ v ++ u = b ++ c :: w ∧ isSpace c = false ∧ c ≠ k.closing := by
  cases lead with
  | item =>
    obtain ⟨c,w,rfl,solid,further⟩ := exists_head_of_value value
    exact ⟨a,c,w ++ u,before,by simp,solid,further⟩
  | @member b body between blank =>
    exact ⟨b,ascii '"',body ++ ascii '"' :: (between ++ ascii ':' :: (a ++ (v ++ u))),blank,by simp,by decide,
      by decide⟩

theorem exists_head_of_elements {es : List UInt8} (elements : Conforms (.elements k) es) :
    ∃ b c w, Blank b ∧ es = b ++ c :: w ∧ isSpace c = false ∧ c ≠ k.closing := by
  cases elements with
  | last lead before value after => exact exists_head_of_element lead before value
  | more lead before value after further =>
    rw [List.append_assoc (_ ++ _ ++ _)]
    exact exists_head_of_element lead before value

/-! ### All values -/

/-- How the bytes of a form are passed over. -/
def Form.Passed : Form → List UInt8 → Prop
  | .value,v => ∀ ks a t, Blank a → Ends t → skipOpen ks (a ++ v ++ t) = resume ks t
  | .elements k,es => ∀ ks t, enter k ks (es ++ k.closing :: t) = resume ks t

theorem ends_blank {b : List UInt8} (blank : Blank b) (ends : Ends t) : Ends (b ++ t) := by
  cases b with
  | nil => exact ends
  | cons x b =>
    rintro y ⟨⟩
    have space := blank x List.mem_cons_self
    simp only [List.mem_cons,List.not_mem_nil,or_false] at space ⊢
    tauto

theorem ends_closing (k : Bracket) (t : List UInt8) : Ends (k.closing :: t) := by
  rintro b ⟨⟩
  cases k <;> decide

theorem ends_comma (t : List UInt8) : Ends (ascii ',' :: t) := by
  rintro b ⟨⟩
  decide

/-- Before an element, what comes before its value is passed over. -/
theorem enter_lead (lead : Lead k l) (s : List UInt8) : enter k ks (l ++ s) = skipOpen (k :: ks) s := by
  have skipped : skipLead k (l ++ s) = .ok s := skipLead_eq_ok_iff.mpr ⟨l,lead,rfl⟩
  simp only [enter,skipped]

theorem passed {form : Form} {p : List UInt8} (conforms : Conforms form p) : form.Passed p := by
  induction conforms with
  | null =>
    intro ks a t blank ends
    exact skipOpen_scalar blank (by decide) (by decide) (skipScalar_null t)
  | true =>
    intro ks a t blank ends
    exact skipOpen_scalar blank (by decide) (by decide) (skipScalar_true t)
  | false =>
    intro ks a t blank ends
    exact skipOpen_scalar blank (by decide) (by decide) (skipScalar_false t)
  | number numeral =>
    intro ks a t blank ends
    exact skipOpen_number blank numeral ends
  | string loose =>
    intro ks a t blank ends
    exact skipOpen_scalar blank (by decide) (by decide) (skipScalar_string loose t)
  | empty inside =>
    intro ks a t blank ends
    exact skipOpen_empty blank inside
  | bracket inside ih =>
    intro ks a t blank ends
    obtain ⟨b,c,w,spaces,rfl,solid,further⟩ := exists_head_of_elements inside
    rw [skipOpen_bracket blank spaces solid further]
    exact ih ks t
  -- Only a number needs `Ends`: in a bracket spaces, a comma or the bracket's end follow a value.
  | @last k l a v b lead before value after ih =>
    intro ks t
    rw [show l ++ a ++ v ++ b ++ k.closing :: t = l ++ (a ++ v ++ (b ++ k.closing :: t)) by simp,enter_lead lead,
      ih _ a _ before (ends_blank after (ends_closing k t)),resume_closing after]
  | @more k l a v b es lead before value after further ih rest =>
    intro ks t
    rw [show l ++ a ++ v ++ b ++ ascii ',' :: es ++ k.closing :: t =
      l ++ (a ++ v ++ (b ++ ascii ',' :: (es ++ k.closing :: t))) by simp,enter_lead lead,
      ih _ a _ before (ends_blank after (ends_comma _)),resume_comma after]
    exact rest ks t

/-- Every value is passed over where something follows that ends it. -/
theorem skipValue_complete {v : List UInt8} (blank : Blank a) (value : Conforms .value v) (ends : Ends t) :
    skipValue (a ++ v ++ t) = .ok t :=
  passed value [] a t blank ends

end

end Lockstep.Json
