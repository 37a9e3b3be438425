import Lockstep.Proofs.Utf8
import Lockstep.Text.Blank
import Lockstep.Text.Upper

/-!
# Upper case is final

What a character becomes in upper case stays as it is when it is put in upper case
again (`uppercase_uppercase`), and where the character is no blank nothing of it is
(`isBlank_upper`). Both are facts about the whole table: the images of its stretches
lie apart from the stretches, from the letters with longer images and from the blanks.
-/

namespace Lockstep.Text

/-! ## The table -/

/-- Whether the images of a stretch lie apart from another stretch: below it, above
it, or between its code points. -/
def CaseRun.isApart (r s : CaseRun) : Bool :=
  s.last < r.image || r.image + (r.last - r.first) < s.first ||
    s.step == 2 && (r.step == 2 || r.first == r.last) && (r.image + s.first) % 2 == 1

/-- Whether the images of a stretch are characters and no blanks. -/
def CaseRun.isSolid (r : CaseRun) : Bool :=
  let last := r.image + (r.last - r.first)
  (last < 0xD800 || 0xE000 ≤ r.image && last < 0x110000) &&
    ((0x20 < r.image && last < 0x85) || (0xA0 < r.image && last < 0x1680) ||
      (0x1680 < r.image && last < 0x2000) || (0x205F < r.image && last < 0x3000) || 0x3000 < r.image)

theorem runs_apart : (caseRuns.all fun r => caseRuns.all r.isApart) = true := by decide +kernel

theorem runs_solid : (caseRuns.all CaseRun.isSolid) = true := by decide +kernel

theorem runs_short : (caseRuns.all fun r => caseExpansions.all fun e =>
    e.1 < r.image || r.image + (r.last - r.first) < e.1) = true := by decide +kernel

theorem expansions_short : (caseExpansions.all fun e => e.2.all fun n =>
    caseRuns.all (!·.covers n) && caseExpansions.all (·.1 != n)) = true := by decide +kernel

theorem expansions_solid : (caseExpansions.all fun e => !e.2.isEmpty && e.2.all fun n =>
    decide n.isValidChar && !isBlank (Char.ofNat n)) = true := by decide +kernel

variable {r s : CaseRun} {c d : Char} {n : Nat} {images : List Nat}

/-- The code points that no part of the table maps. -/
structure Uncovered (n : Nat) : Prop where
  runs : ∀ r ∈ caseRuns, r.covers n = false
  expansions : ∀ e ∈ caseExpansions, e.1 ≠ n

theorem covers_iff : r.covers n = true ↔ r.first ≤ n ∧ n ≤ r.last ∧ (n - r.first) % r.step = 0 := by
  simp [CaseRun.covers,and_assoc]

/-- The images of a stretch are mapped no further. -/
theorem uncovered_image (member : r ∈ caseRuns) (covers : r.covers n = true) : Uncovered (r.image + (n - r.first)) := by
  obtain ⟨low,high,step⟩ := covers_iff.mp covers
  constructor
  · intro s other
    have apart : r.isApart s = true := List.all_eq_true.mp (List.all_eq_true.mp runs_apart r member) s other
    simp only [CaseRun.isApart,Bool.or_eq_true,Bool.and_eq_true,decide_eq_true_eq,beq_iff_eq] at apart
    rw [← Bool.not_eq_true,covers_iff]
    rintro ⟨low',high',step'⟩
    rcases apart with (above | below) | ⟨⟨two,even⟩,odd⟩
    · omega
    · omega
    · rw [two] at step'
      rcases even with two' | single
      · rw [two'] at step
        omega
      · omega
  · intro e other same
    have apart := List.all_eq_true.mp (List.all_eq_true.mp runs_short r member) e other
    simp only [Bool.or_eq_true,decide_eq_true_eq] at apart
    omega

/-- A character that the table does not map is its own upper case. -/
theorem upper_of_uncovered (uncovered : Uncovered c.toNat) : upper c = [c] := by
  have letters : (⟨0x61,0x7A,1,0x41⟩ : CaseRun).covers c.toNat = false :=
    uncovered.runs _ List.mem_cons_self
  have expansion : caseExpansions.lookup c.toNat = none := by
    rw [List.lookup_eq_none_iff]
    intro e member
    exact bne_iff_ne.mpr (uncovered.expansions e member).symm
  have run : caseRuns.find? (·.covers c.toNat) = none := by
    rw [List.find?_eq_none]
    intro r member
    exact Bool.not_eq_true _ ▸ uncovered.runs r member
  unfold upper
  simp only [expansion,run]
  split
  · rw [if_neg]
    rintro ⟨low,high⟩
    rw [← Bool.not_eq_true,covers_iff] at letters
    exact letters ⟨low,high,Nat.mod_one _⟩
  · rfl

/-! ## Images -/

/-- A code point that the table maps to: a character that is no blank and its own
upper case. -/
structure Capital (n : Nat) : Prop where
  valid : n.isValidChar
  solid : isBlank (Char.ofNat n) = false
  uncovered : Uncovered n

theorem Capital.upper_eq (capital : Capital n) : upper (Char.ofNat n) = [Char.ofNat n] := by
  apply upper_of_uncovered
  rw [Utf8.toNat_char capital.valid]
  exact capital.uncovered

theorem capital_image (member : r ∈ caseRuns) (covers : r.covers n = true) : Capital (r.image + (n - r.first)) := by
  have solid := List.all_eq_true.mp runs_solid r member
  obtain ⟨low,high,_⟩ := covers_iff.mp covers
  simp only [CaseRun.isSolid,Bool.and_eq_true,Bool.or_eq_true,decide_eq_true_eq] at solid
  have valid : (r.image + (n - r.first)).isValidChar := by
    unfold Nat.isValidChar
    omega
  refine ⟨valid,?_,uncovered_image member covers⟩
  simp only [isBlank,Utf8.toNat_char valid,Bool.or_eq_false_iff,Bool.and_eq_false_iff,
    decide_eq_false_iff_not,beq_eq_false_iff_ne]
  omega

theorem capital_expansion (member : (n,images) ∈ caseExpansions) : images ≠ [] ∧ ∀ m ∈ images, Capital m := by
  have solid := List.all_eq_true.mp expansions_solid _ member
  have short := List.all_eq_true.mp expansions_short _ member
  simp only [Bool.and_eq_true,Bool.not_eq_true',List.isEmpty_eq_false_iff,List.all_eq_true,decide_eq_true_eq,
    bne_iff_ne] at solid short
  refine ⟨solid.1,fun m inside => ⟨(solid.2 m inside).1,(solid.2 m inside).2,?_⟩⟩
  exact ⟨fun r => (short m inside).1 r,fun e => (short m inside).2 e⟩

/-- A character is its own upper case, or all that it becomes is in the table. -/
theorem upper_cases (c : Char) :
    upper c = [c] ∨ ∃ images, upper c = images.map Char.ofNat ∧ images ≠ [] ∧ ∀ n ∈ images, Capital n := by
  have first : (⟨0x61,0x7A,1,0x41⟩ : CaseRun) ∈ caseRuns := List.mem_cons_self
  unfold upper
  simp only
  split
  · split
    next letter =>
      have covers : (⟨0x61,0x7A,1,0x41⟩ : CaseRun).covers c.toNat = true :=
        covers_iff.mpr ⟨letter.1,letter.2,Nat.mod_one _⟩
      have image : 0x41 + (c.toNat - 0x61) = c.toNat - 0x20 := by omega
      have capital : Capital (0x41 + (c.toNat - 0x61)) := capital_image first covers
      rw [image] at capital
      exact .inr ⟨[c.toNat - 0x20],rfl,by simp,by simpa using capital⟩
    next => exact .inl rfl
  · split
    next images found =>
      obtain ⟨before,after,whole,_⟩ := List.lookup_eq_some_iff.mp found
      have member : (c.toNat,images) ∈ caseExpansions := by simp [whole]
      obtain ⟨some,capital⟩ := capital_expansion member
      exact .inr ⟨images,rfl,some,capital⟩
    next =>
      split
      next r found =>
        have covers : r.covers c.toNat = true := by simpa using List.find?_some found
        have capital := capital_image (List.mem_of_find?_eq_some found) covers
        exact .inr ⟨[r.image + (c.toNat - r.first)],rfl,by simp,by simpa using capital⟩
      next => exact .inl rfl

theorem upper_ne_nil (c : Char) : upper c ≠ [] := by
  rcases upper_cases c with same | ⟨images,mapped,some,_⟩
  · simp [same]
  · simpa [mapped] using some

/-- What a character becomes is its own upper case. -/
theorem upper_upper (image : d ∈ upper c) : upper d = [d] := by
  rcases upper_cases c with same | ⟨images,mapped,_,capital⟩
  · rw [same,List.mem_singleton] at image
    rw [image,same]
  · rw [mapped] at image
    obtain ⟨n,member,rfl⟩ := List.mem_map.mp image
    exact (capital n member).upper_eq

/-- A character that is no blank becomes none. -/
theorem isBlank_upper (solid : isBlank c = false) (image : d ∈ upper c) : isBlank d = false := by
  rcases upper_cases c with same | ⟨images,mapped,_,capital⟩
  · rw [same,List.mem_singleton] at image
    rw [image,solid]
  · rw [mapped] at image
    obtain ⟨n,member,rfl⟩ := List.mem_map.mp image
    exact (capital n member).solid

/-- Upper case is put in upper case already. -/
theorem uppercase_uppercase (s : List Char) : uppercase (uppercase s) = uppercase s := by
  have still : ∀ w : List Char, (∀ d ∈ w, upper d = [d]) → uppercase w = w := by
    intro w own
    induction w with
    | nil => rfl
    | cons d w ih =>
      obtain ⟨first,rest⟩ := List.forall_mem_cons.mp own
      rw [uppercase,List.flatMap_cons,first,← uppercase,ih rest]
      rfl
  apply still
  intro d member
  obtain ⟨c,_,image⟩ := List.mem_flatMap.mp member
  exact upper_upper image

end Lockstep.Text
