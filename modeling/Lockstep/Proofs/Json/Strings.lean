import Mathlib.Data.Bool.AllAny
import Lockstep.Proofs.Json.Grammar
import Lockstep.Proofs.Utf8

/-!
# Readers of spaces, words and strings

Each of these readers takes a token off the front of a text exactly where the
grammar has one there, and answers with what it stands for.
-/

namespace Lockstep.Json

/-! ## Spaces and words -/

theorem isSpace_iff {b : UInt8} : isSpace b = true ↔ b ∈ [ascii ' ',ascii '\n',ascii '\t',ascii '\r'] := by
  simp [isSpace,or_assoc]

theorem blank_nil : Blank [] := by simp [Blank]

theorem skipSpace_append {a : List UInt8} (blank : Blank a) (s : List UInt8) : skipSpace (a ++ s) = skipSpace s :=
  List.dropWhile_append_of_pos fun b member => isSpace_iff.mpr (blank b member)

theorem skipSpace_solid {b : UInt8} (solid : isSpace b = false) (s : List UInt8) : skipSpace (b :: s) = b :: s := by
  rw [skipSpace,List.dropWhile_cons_of_neg (by simp [solid])]

theorem exists_blank (s : List UInt8) : ∃ a, Blank a ∧ s = a ++ skipSpace s := by
  refine ⟨s.takeWhile isSpace,?_,List.takeWhile_append_dropWhile.symm⟩
  intro b member
  exact isSpace_iff.mp (List.all_eq_true.mp List.all_takeWhile b member)

/-- What is found behind the spaces. -/
theorem skipSpace_eq_cons_iff {b : UInt8} {s t : List UInt8} :
    skipSpace s = b :: t ↔ isSpace b = false ∧ ∃ a, Blank a ∧ s = a ++ b :: t := by
  constructor
  · intro found
    have solid : isSpace b = false := by
      have := List.head?_dropWhile_not isSpace s
      rw [show s.dropWhile isSpace = b :: t from found] at this
      simpa using this
    obtain ⟨a,blank,whole⟩ := exists_blank s
    exact ⟨solid,a,blank,found ▸ whole⟩
  · rintro ⟨solid,a,blank,rfl⟩
    rw [skipSpace_append blank,skipSpace_solid solid]

theorem readWord_eq_ok_iff {w s t : List UInt8} : readWord w s = .ok t ↔ s = w ++ t := by
  induction w generalizing s with
  | nil => simp [readWord]
  | cons a w ih =>
    cases s with
    | nil => simp [readWord]
    | cons b s =>
      by_cases same : b = a
      · simp [readWord,same,ih]
      · simp [readWord,same]

/-! ## Escapes -/

theorem hexValue?_digit : ∀ v < 16, hexValue? (ascii (Nat.digitChar v)) = some v ∧
    hexValue? (ascii (Nat.digitChar v).toUpper) = some v := by
  decide

theorem digit_of_value : ∀ v < 16, ascii (Nat.digitChar v) = UInt8.ofNat (if v < 10 then 0x30 + v else 0x57 + v) ∧
    ascii (Nat.digitChar v).toUpper = UInt8.ofNat (if v < 10 then 0x30 + v else 0x37 + v) := by
  decide

theorem hexValue?_eq_some_iff {b : UInt8} {v : Nat} : hexValue? b = some v ↔ HexDigit b v := by
  constructor
  · intro value
    unfold hexValue? at value
    simp only at value
    split at value
    · next range =>
      cases value
      refine ⟨by omega,.inl ?_⟩
      rw [(digit_of_value _ (by omega)).1,if_pos (by omega)]
      exact (Utf8.byte_eq (by omega)).symm
    · split at value
      · next range =>
        cases value
        refine ⟨by omega,.inr ?_⟩
        rw [(digit_of_value _ (by omega)).2,if_neg (by omega)]
        exact (Utf8.byte_eq (by omega)).symm
      · split at value
        · next range =>
          cases value
          refine ⟨by omega,.inl ?_⟩
          rw [(digit_of_value _ (by omega)).1,if_neg (by omega)]
          exact (Utf8.byte_eq (by omega)).symm
        · cases value
  · rintro ⟨below,rfl | rfl⟩
    · exact (hexValue?_digit v below).1
    · exact (hexValue?_digit v below).2

theorem readHex_eq_ok_iff {s t : List UInt8} {n : Nat} :
    readHex s = .ok (n,t) ↔ ∃ h, CodeUnit h n ∧ s = h ++ t := by
  constructor
  · intro read
    unfold readHex at read
    split at read
    · next a b c d rest =>
      split at read
      · next i j k l first second third fourth =>
        cases read
        refine ⟨[a,b,c,d],?_,rfl⟩
        have unit := CodeUnit.mk (hexValue?_eq_some_iff.mp first) (hexValue?_eq_some_iff.mp second)
          (hexValue?_eq_some_iff.mp third) (hexValue?_eq_some_iff.mp fourth)
        rw [show ((i * 16 + j) * 16 + k) * 16 + l = i * 0x1000 + j * 0x100 + k * 0x10 + l by omega]
        exact unit
      · cases read
    · cases read
  · rintro ⟨h,⟨first,second,third,fourth⟩,rfl⟩
    have nested (i j k l : Nat) : ((i * 16 + j) * 16 + k) * 16 + l = i * 0x1000 + j * 0x100 + k * 0x10 + l := by omega
    simp only [List.cons_append,List.nil_append,readHex,hexValue?_eq_some_iff.mpr first,
      hexValue?_eq_some_iff.mpr second,hexValue?_eq_some_iff.mpr third,hexValue?_eq_some_iff.mpr fourth,nested]

theorem escaped?_letters : ∀ m ∈ letters, escaped? (ascii m.1) = some m.2 ∧ ascii m.1 ≠ ascii 'u' :=
  List.all_iff_forall_prop.mp (by decide)

theorem escaped?_eq_some_iff {b : UInt8} {c : Char} : escaped? b = some c ↔ ∃ l, (l,c) ∈ letters ∧ b = ascii l := by
  constructor
  · fun_cases escaped? b with
    | case9 => intro none; cases none
    | _ =>
      rintro ⟨⟩
      subst b
      exact ⟨_,by simp [letters],rfl⟩
  · rintro ⟨l,known,rfl⟩
    exact (escaped?_letters _ known).1

theorem readLowHalf_eq_ok_iff {high : Nat} {s t : List UInt8} {c : Char} :
    readLowHalf high s = .ok (c,t) ↔ ∃ l low, CodeUnit l low ∧ (0xDC00 ≤ low ∧ low ≤ 0xDFFF) ∧
      c = Char.ofNat (0x10000 + (high - 0xD800) * 0x400 + (low - 0xDC00)) ∧
      s = ascii '\\' :: ascii 'u' :: l ++ t := by
  constructor
  · intro read
    unfold readLowHalf at read
    split at read
    · cases read
    split at read
    · cases read
    next backslash =>
    split at read
    · cases read
    split at read
    · cases read
    next letter =>
    split at read
    · cases read
    next low rest hex =>
    split at read
    · cases read
    next inside =>
    obtain ⟨same,rfl⟩ := Prod.mk.inj (Except.ok.inj read)
    obtain ⟨l,unit,rfl⟩ := readHex_eq_ok_iff.mp hex
    refine ⟨l,low,unit,by omega,same.symm,?_⟩
    rw [Classical.not_not.mp backslash,Classical.not_not.mp letter]
    rfl
  · rintro ⟨l,low,unit,range,same,rfl⟩
    have hex : readHex (l ++ t) = .ok (low,t) := readHex_eq_ok_iff.mpr ⟨l,unit,rfl⟩
    have inside : ¬(low < 0xDC00 ∨ 0xDFFF < low) := by omega
    simp only [readLowHalf,List.cons_append,ne_eq,not_true,if_false,hex,if_neg inside,same]

theorem exists_of_readUnicode {s t : List UInt8} {c : Char} (read : readUnicode s = .ok (c,t)) :
    ∃ p, Escape (ascii 'u' :: p) c ∧ s = p ++ t := by
  unfold readUnicode at read
  split at read
  · cases read
  next n rest hex =>
  obtain ⟨h,unit,rfl⟩ := readHex_eq_ok_iff.mp hex
  split at read
  · cases read
  next trailing =>
  split at read
  · next whole =>
    obtain ⟨same,rfl⟩ := Prod.mk.inj (Except.ok.inj read)
    exact ⟨h,same ▸ .code unit (by omega),rfl⟩
  · next leading =>
    obtain ⟨l,low,second,range,same,rfl⟩ := readLowHalf_eq_ok_iff.mp read
    refine ⟨h ++ ascii '\\' :: ascii 'u' :: l,?_,by simp⟩
    rw [same]
    exact .pair unit (by omega) second range

theorem readUnicode_code {h : List UInt8} {n : Nat} (digits : CodeUnit h n) (whole : n < 0xD800 ∨ 0xDFFF < n)
    (t : List UInt8) : readUnicode (h ++ t) = .ok (Char.ofNat n,t) := by
  have hex : readHex (h ++ t) = .ok (n,t) := readHex_eq_ok_iff.mpr ⟨h,digits,rfl⟩
  simp only [readUnicode,hex]
  rw [if_neg (by omega),if_pos (by omega)]

theorem readUnicode_pair {h l : List UInt8} {high low : Nat} (first : CodeUnit h high)
    (leading : 0xD800 ≤ high ∧ high ≤ 0xDBFF) (second : CodeUnit l low) (trailing : 0xDC00 ≤ low ∧ low ≤ 0xDFFF)
    (t : List UInt8) : readUnicode (h ++ (ascii '\\' :: ascii 'u' :: l ++ t)) =
      .ok (Char.ofNat (0x10000 + (high - 0xD800) * 0x400 + (low - 0xDC00)),t) := by
  have hex : readHex (h ++ (ascii '\\' :: ascii 'u' :: l ++ t)) = .ok (high,ascii '\\' :: ascii 'u' :: l ++ t) :=
    readHex_eq_ok_iff.mpr ⟨h,first,rfl⟩
  simp only [readUnicode,hex]
  rw [if_neg (by omega),if_neg (by omega)]
  exact readLowHalf_eq_ok_iff.mpr ⟨l,low,second,trailing,rfl,rfl⟩

theorem readEscape_eq_ok_iff {s t : List UInt8} {c : Char} :
    readEscape s = .ok (c,t) ↔ ∃ p, Escape p c ∧ s = p ++ t := by
  constructor
  · intro read
    unfold readEscape at read
    split at read
    · cases read
    next b rest =>
    split at read
    · next unicode =>
      obtain ⟨p,escape,rfl⟩ := exists_of_readUnicode read
      exact ⟨ascii 'u' :: p,escape,by rw [unicode]; rfl⟩
    · split at read
      · next letter =>
        cases read
        obtain ⟨l,known,rfl⟩ := escaped?_eq_some_iff.mp letter
        exact ⟨[ascii l],.letter known,rfl⟩
      · cases read
  · rintro ⟨p,escape,rfl⟩
    cases escape with
    | letter known =>
      obtain ⟨value,other⟩ := escaped?_letters _ known
      simp only [List.singleton_append,readEscape,if_neg other,value]
    | code digits whole =>
      rw [List.cons_append,readEscape,if_pos rfl]
      exact readUnicode_code digits whole t
    | pair first leading second trailing =>
      rw [List.append_assoc,List.cons_append,readEscape,if_pos rfl]
      exact readUnicode_pair first leading second trailing t

theorem skipEscape_eq_ok_iff {s t : List UInt8} : skipEscape s = .ok t ↔ ∃ p, LooseEscape p ∧ s = p ++ t := by
  constructor
  · intro read
    unfold skipEscape at read
    split at read
    · cases read
    next b rest =>
    split at read
    · next unicode =>
      split at read
      · cases read
      · next hex =>
        cases read
        obtain ⟨h,unit,rfl⟩ := readHex_eq_ok_iff.mp hex
        exact ⟨ascii 'u' :: h,.code unit,by rw [unicode]; rfl⟩
    · split at read
      · next letter =>
        cases read
        obtain ⟨l,known,rfl⟩ := escaped?_eq_some_iff.mp letter
        exact ⟨[ascii l],.letter known,rfl⟩
      · cases read
  · rintro ⟨p,escape,rfl⟩
    cases escape with
    | letter known =>
      obtain ⟨value,other⟩ := escaped?_letters _ known
      simp only [List.singleton_append,skipEscape,if_neg other,value]
    | @code h n digits =>
      have hex : readHex (h ++ t) = .ok (n,t) := readHex_eq_ok_iff.mpr ⟨h,digits,rfl⟩
      simp only [List.cons_append,skipEscape,if_true,hex]

/-! ## Strings -/

/-- The body of a string as it is read: escapes resolved, all other bytes as they
are, whether they are text or not. -/
inductive Resolves : List UInt8 → List UInt8 → Prop
  | nil : Resolves [] []
  | plain {b : UInt8} {body out : List UInt8} (plain : Plain b) (further : Resolves body out) :
      Resolves (b :: body) (b :: out)
  | escape {p body out : List UInt8} {c : Char} (escape : Escape p c) (further : Resolves body out) :
      Resolves (ascii '\\' :: p ++ body) (Utf8.encodeChar c ++ out)

theorem plain_iff {b : UInt8} : Plain b ↔ b ≠ ascii '"' ∧ b ≠ ascii '\\' ∧ ¬b < 0x20 := by
  have bound : ¬b < 0x20 ↔ 0x20 ≤ b.toNat := by rw [UInt8.not_lt]; rfl
  rw [bound]
  exact ⟨fun plain => ⟨plain.quote,plain.backslash,plain.printable⟩,fun ⟨quote,backslash,printable⟩ =>
    ⟨printable,quote,backslash⟩⟩

theorem exists_of_readStringBytes {seen s t bytes : List UInt8} (read : readStringBytes seen s = .ok (bytes,t)) :
    ∃ body out, Resolves body out ∧ s = body ++ ascii '"' :: t ∧ bytes = seen.reverse ++ out := by
  fun_induction readStringBytes seen s with
  | case1 => cases read
  | case2 =>
    cases read
    exact ⟨[],[],.nil,rfl,by simp⟩
  | case3 => cases read
  | case4 seen rest c u hex _ ih =>
    obtain ⟨body,out,resolves,rfl,rfl⟩ := ih read
    obtain ⟨p,escape,rfl⟩ := readEscape_eq_ok_iff.mp hex
    exact ⟨_,_,.escape escape resolves,by simp,by simp⟩
  | case5 => cases read
  | case6 seen b rest quote backslash printable ih =>
    obtain ⟨body,out,resolves,rfl,rfl⟩ := ih read
    exact ⟨_,_,.plain (plain_iff.mpr ⟨quote,backslash,printable⟩) resolves,rfl,by simp⟩

theorem readStringBytes_complete {body out : List UInt8} (resolves : Resolves body out) (seen t : List UInt8) :
    readStringBytes seen (body ++ ascii '"' :: t) = .ok (seen.reverse ++ out,t) := by
  induction resolves generalizing seen with
  | nil => simp [readStringBytes]
  | plain plain further ih =>
    obtain ⟨quote,backslash,printable⟩ := plain_iff.mp plain
    rw [List.cons_append,readStringBytes,if_neg quote,if_neg backslash,if_neg printable,ih]
    simp
  | @escape p body out c escape further ih =>
    have other : ascii '\\' ≠ ascii '"' := by decide
    have resolved : readEscape (p ++ (body ++ ascii '"' :: t)) = .ok (c,body ++ ascii '"' :: t) :=
      readEscape_eq_ok_iff.mpr ⟨p,escape,rfl⟩
    rw [List.append_assoc,List.cons_append,readStringBytes,if_neg other,if_pos rfl]
    split
    · next failed => rw [resolved] at failed; cases failed
    · next found =>
      rw [resolved] at found
      cases found
      rw [ih]
      simp

theorem skipString_eq_ok_iff {s t : List UInt8} :
    skipString s = .ok t ↔ ∃ body, Loose body ∧ s = body ++ ascii '"' :: t := by
  constructor
  · intro read
    fun_induction skipString s with
    | case1 => cases read
    | case2 =>
      cases read
      exact ⟨[],.nil,rfl⟩
    | case3 => cases read
    | case4 rest u skipped _ ih =>
      obtain ⟨body,loose,rfl⟩ := ih read
      obtain ⟨p,escape,rfl⟩ := skipEscape_eq_ok_iff.mp skipped
      exact ⟨_,.escape escape loose,by simp⟩
    | case5 => cases read
    | case6 b rest quote backslash printable ih =>
      obtain ⟨body,loose,rfl⟩ := ih read
      exact ⟨_,.plain (plain_iff.mpr ⟨quote,backslash,printable⟩) loose,rfl⟩
  · rintro ⟨body,loose,rfl⟩
    induction loose with
    | nil => simp [skipString]
    | plain plain further ih =>
      obtain ⟨quote,backslash,printable⟩ := plain_iff.mp plain
      rw [List.cons_append,skipString,if_neg quote,if_neg backslash,if_neg printable,ih]
    | @escape p body escape further ih =>
      have other : ascii '\\' ≠ ascii '"' := by decide
      have skipped : skipEscape (p ++ (body ++ ascii '"' :: t)) = .ok (body ++ ascii '"' :: t) :=
        skipEscape_eq_ok_iff.mpr ⟨p,escape,rfl⟩
      rw [List.append_assoc,List.cons_append,skipString,if_neg other,if_pos rfl]
      split
      · next failed => rw [skipped] at failed; cases failed
      · next found =>
        rw [skipped] at found
        cases found
        exact ih

/-! ## Text -/

theorem toNat_ascii {c : Char} (low : c.toNat < 0x80) : (ascii c).toNat = c.toNat := Nat.mod_eq_of_lt (by omega)

theorem ascii_ne {c d : Char} (low : c.toNat < 0x80) (low' : d.toNat < 0x80) (apart : c ≠ d) : ascii c ≠ ascii d :=
  fun same => apart (Utf8.ascii_inj low low' same)

theorem plain_encodeChar {c : Char} (printable : 0x20 ≤ c.toNat) (quote : c ≠ '"') (backslash : c ≠ '\\') :
    ∀ b ∈ Utf8.encodeChar c, Plain b := by
  intro b member
  by_cases low : c.toNat < 0x80
  · rw [Utf8.encodeChar_one low,List.mem_singleton] at member
    obtain rfl : b = ascii c := member
    exact ⟨by rw [toNat_ascii low]; exact printable,ascii_ne low (by decide) quote,ascii_ne low (by decide) backslash⟩
  · obtain ⟨a,stretch,whole,first,later⟩ := Utf8.encodeChar_high (Nat.le_of_not_lt low)
    have high : 0x80 ≤ b.toNat := by
      rw [whole] at member
      rcases List.mem_cons.mp member with rfl | member
      · omega
      · exact (later b member).1
    refine ⟨by omega,?_,?_⟩
    · rintro rfl
      exact absurd high (by decide)
    · rintro rfl
      exact absurd high (by decide)

theorem Resolves.append {stretch body out : List UInt8} (plain : ∀ b ∈ stretch, Plain b)
    (resolves : Resolves body out) : Resolves (stretch ++ body) (stretch ++ out) := by
  induction stretch with
  | nil => exact resolves
  | cons b stretch ih =>
    obtain ⟨first,later⟩ := List.forall_mem_cons.mp plain
    exact .plain first (ih later)

theorem Spells.resolves {body : List UInt8} {s : List Char} (spells : Spells body s) :
    Resolves body (Utf8.encode s) := by
  induction spells with
  | nil => exact .nil
  | plain printable quote backslash _ ih => exact ih.append (plain_encodeChar printable quote backslash)
  | escape escape _ ih => exact .escape escape ih

/-- No character ends where another goes on. -/
theorem encodeChar_append_inj {c d : Char} {x y : List UInt8}
    (same : Utf8.encodeChar c ++ x = Utf8.encodeChar d ++ y) : c = d ∧ x = y := by
  have decoded := congrArg (Utf8.decodeFrom none) same
  rw [Utf8.decodeFrom_encodeChar,Utf8.decodeFrom_encodeChar] at decoded
  obtain rfl : c = d := Option.some.inj (List.cons.inj decoded).1
  exact ⟨rfl,List.append_cancel_left same⟩

/-- Bytes that go on with a character stand for themselves, since no escape stands
for such a byte. -/
theorem Resolves.strip {stretch body out : List UInt8} (tails : ∀ b ∈ stretch, Utf8.IsTail b)
    (resolves : Resolves body (stretch ++ out)) : ∃ rest, body = stretch ++ rest ∧ Resolves rest out := by
  induction stretch generalizing body with
  | nil => exact ⟨body,rfl,resolves⟩
  | cons b stretch ih =>
    obtain ⟨tail,later⟩ := List.forall_mem_cons.mp tails
    generalize whole : b :: stretch ++ out = bytes at resolves
    cases resolves with
    | nil => cases whole
    | plain plain further =>
      obtain ⟨rfl,rfl⟩ := List.cons.inj whole
      obtain ⟨rest,rfl,resolves⟩ := ih later further
      exact ⟨rest,rfl,resolves⟩
    | @escape p _ _ c escape further =>
      obtain ⟨a,_,first,apart,_⟩ := Utf8.encodeChar_parts c
      rw [first] at whole
      exact absurd ((List.cons.inj whole).1 ▸ tail) apart

theorem Resolves.spells {body : List UInt8} {s : List Char} (resolves : Resolves body (Utf8.encode s)) :
    Spells body s := by
  induction s generalizing body with
  | nil =>
    generalize whole : Utf8.encode [] = bytes at resolves
    cases resolves with
    | nil => exact .nil
    | plain => cases whole
    | @escape p _ _ c =>
      obtain ⟨a,_,first,_⟩ := Utf8.encodeChar_parts c
      rw [first] at whole
      cases whole
  | cons c s ih =>
    generalize whole : Utf8.encode (c :: s) = bytes at resolves
    replace whole : Utf8.encodeChar c ++ Utf8.encode s = bytes := whole
    cases resolves with
    | nil =>
      obtain ⟨a,_,first,_⟩ := Utf8.encodeChar_parts c
      rw [first] at whole
      cases whole
    | @plain b rest out plain further =>
      -- A first byte that stands for itself: so do the bytes that go on with it, and `c` is there unescaped.
      by_cases low : c.toNat < 0x80
      · rw [Utf8.encodeChar_one low] at whole
        obtain ⟨rfl,rfl⟩ := List.cons.inj whole
        have printable := plain.printable
        rw [show UInt8.ofNat c.toNat = ascii c from rfl,toNat_ascii low] at printable
        have spells := Spells.plain printable (fun same => plain.quote (congrArg ascii same))
          (fun same => plain.backslash (congrArg ascii same)) (ih further)
        rw [Utf8.encodeChar_one low] at spells
        exact spells
      · obtain ⟨a,stretch,bytes,first,later⟩ := Utf8.encodeChar_high (Nat.le_of_not_lt low)
        rw [bytes] at whole
        obtain ⟨rfl,rfl⟩ := List.cons.inj whole
        obtain ⟨rest,rfl,resolves⟩ := further.strip later
        have quote : c ≠ '"' := by
          rintro rfl
          exact low (by decide)
        have backslash : c ≠ '\\' := by
          rintro rfl
          exact low (by decide)
        have spells := Spells.plain (by omega) quote backslash (ih resolves)
        rw [bytes] at spells
        simpa using spells
    | escape escape further =>
      obtain ⟨rfl,rfl⟩ := encodeChar_append_inj whole
      exact .escape escape (ih further)

theorem readString_eq_ok_iff {s t : List UInt8} {text : String} :
    readString s = .ok (text,t) ↔ ∃ body, Spells body text.toList ∧ s = body ++ ascii '"' :: t := by
  constructor
  · intro read
    unfold readString at read
    split at read
    · cases read
    next bytes rest found =>
    split at read
    · next chars decoded =>
      cases read
      obtain ⟨body,out,resolves,whole,same⟩ := exists_of_readStringBytes found
      rw [List.reverse_nil,List.nil_append] at same
      subst same
      rw [Utf8.strict?_eq_some_iff] at decoded
      rw [decoded] at resolves
      exact ⟨body,by rw [String.toList_ofList]; exact resolves.spells,whole⟩
    · cases read
  · rintro ⟨body,spells,rfl⟩
    have found := readStringBytes_complete spells.resolves [] t
    have decoded : Utf8.strict? (Utf8.encode text.toList) = some text.toList := Utf8.strict?_eq_some_iff.mpr rfl
    rw [List.reverse_nil,List.nil_append] at found
    simp only [readString,found,decoded,String.ofList_toList]

end Lockstep.Json
