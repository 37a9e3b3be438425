import Lockstep.Snapshot
import Lockstep.Text.Blank
import Lockstep.Text.Upper

/-!
# Allow-lists

Beam modes and DAQ states are compared by a normal form that forgets letter
case and the blanks around a word. An allow-list is the set of the normal forms
of its entries, and scouting is wanted where both parts of a snapshot are
allowed.
-/

namespace Lockstep

/-- The form in which modes and states are compared. -/
def normalForm (s : String) : String := String.ofList (Text.uppercase (Text.trim s.toList))

/-- The members of a list, each once. -/
def distinct : List String → List String
  | [] => []
  | x :: xs => if x ∈ distinct xs then distinct xs else x :: distinct xs

theorem nodup_distinct (xs : List String) : (distinct xs).Nodup := by
  induction xs with
  | nil => exact List.nodup_nil
  | cons x xs ih =>
    unfold distinct
    split
    · exact ih
    · next new => exact List.nodup_cons.2 ⟨new,ih⟩

theorem mem_distinct {x : String} {xs : List String} : x ∈ distinct xs ↔ x ∈ xs := by
  induction xs with
  | nil => exact Iff.rfl
  | cons y ys ih =>
    unfold distinct
    split
    · next held =>
      rw [ih,List.mem_cons]
      constructor
      · exact Or.inr
      · rintro (rfl | later)
        · exact ih.1 held
        · exact later
    · rw [List.mem_cons,List.mem_cons,ih]

/-- A set of words, compared by their normal forms. -/
structure AllowList where
  forms : List String
  nodup : forms.Nodup

namespace AllowList

/-- The allow-list of some entries. -/
def ofList (entries : List String) : AllowList :=
  ⟨distinct (entries.map normalForm),nodup_distinct _⟩

/-- Whether a word is allowed. -/
def contains (l : AllowList) (word : String) : Bool := l.forms.contains (normalForm word)

/-- A word is allowed where some entry has its normal form. -/
theorem contains_ofList {entries : List String} {word : String} :
    (ofList entries).contains word = true ↔ ∃ entry ∈ entries, normalForm entry = normalForm word := by
  rw [contains,List.contains_iff_mem,ofList,mem_distinct,List.mem_map]

/-- How many different words are allowed. -/
def size (l : AllowList) : Nat := l.forms.length

/-- Whether nothing is allowed. -/
def isEmpty (l : AllowList) : Bool := l.forms.isEmpty

/-- Two allow-lists are the same when they hold the same normal forms. -/
instance : BEq AllowList where
  beq l m := l.forms.all (m.forms.contains ·) && m.forms.all (l.forms.contains ·)

end AllowList

/-- What must hold for scouting to be wanted. -/
structure Conditions where
  beamModes : AllowList
  daqStates : AllowList

/-- Whether scouting is wanted while the facility is as in the snapshot. -/
def Conditions.wants (c : Conditions) (s : Snapshot) : Bool :=
  c.beamModes.contains s.beamMode && c.daqStates.contains s.daqState

end Lockstep
