import Mathlib.Data.Finset.Card
import Lockstep.AllowList
import Lockstep.Proofs.PeerGrammar
import Lockstep.Proofs.UpperCase

/-!
# Allow-lists as sets of normal forms

A normal form is its own (`normalForm_normalForm`): upper case is final, and it
brings no blank to the ends of a text. So an allow-list is the set of the normal
forms of its entries and nothing else: membership, equality, size and what a
snapshot needs in order to be wanted are all told by that set (`ofList_normalForms`).
-/

namespace Lockstep

/-! ## Normal forms -/

namespace Text

/-- Upper case leaves no blank at the ends of a text that has none there. -/
theorem trim_uppercase (s : List Char) : trim (uppercase (trim s)) = uppercase (trim s) := by
  obtain ⟨_,head,last⟩ := stripped_trim s
  generalize trim s = word at head last
  have whole : uppercase word = [] ++ uppercase word ++ [] := by simp
  refine Stripped.trim_eq ⟨⟨[],[],whole,nofun,nofun⟩,?_,?_⟩
  · intro d front
    cases word with
    | nil => cases front
    | cons c rest =>
      have clear : isBlank c = false := head c rfl
      rw [uppercase,List.flatMap_cons,List.head?_append_of_ne_nil _ (upper_ne_nil c)] at front
      exact isBlank_upper clear (List.mem_of_head? front)
  · intro d back
    cases word using List.reverseRecOn with
    | nil => cases back
    | append_singleton rest c =>
      have clear : isBlank c = false := last c (by simp)
      rw [uppercase,List.flatMap_append,List.flatMap_singleton,List.getLast?_append_of_ne_nil _ (upper_ne_nil c)] at back
      exact isBlank_upper clear (List.mem_of_getLast? back)

end Text

theorem toList_normalForm (s : String) : (normalForm s).toList = Text.uppercase (Text.trim s.toList) :=
  String.toList_ofList

/-- A normal form is its own. -/
theorem normalForm_normalForm (s : String) : normalForm (normalForm s) = normalForm s := by
  rw [normalForm,toList_normalForm,Text.trim_uppercase,Text.uppercase_uppercase,normalForm]

/-! ## Sets of forms -/

namespace AllowList

variable {l m : AllowList} {entries others : List String} {word form : String}

/-- The forms that an allow-list holds are those of its entries. -/
theorem mem_ofList : form ∈ (ofList entries).forms ↔ ∃ entry ∈ entries, normalForm entry = form := by
  rw [ofList,mem_distinct,List.mem_map]

/-- Equal allow-lists hold the same forms. -/
theorem beq_iff : (l == m) = true ↔ ∀ form, form ∈ l.forms ↔ form ∈ m.forms := by
  change (l.forms.all (m.forms.contains ·) && m.forms.all (l.forms.contains ·)) = true ↔ _
  simp only [Bool.and_eq_true,List.all_eq_true,List.contains_iff_mem]
  exact ⟨fun ⟨first,second⟩ form => ⟨first form,second form⟩,
    fun same => ⟨fun form => (same form).mp,fun form => (same form).mpr⟩⟩

/-- Allow-lists are equal where they allow the same words. -/
theorem beq_iff_contains :
    (ofList entries == ofList others) = true ↔ ∀ word, (ofList entries).contains word = (ofList others).contains word := by
  have allowed (entries : List String) (word : String) :
      (ofList entries).contains word = true ↔ normalForm word ∈ (ofList entries).forms := by
    rw [contains_ofList,mem_ofList]
  rw [beq_iff]
  constructor
  · intro same word
    rw [Bool.eq_iff_iff,allowed,allowed]
    exact same (normalForm word)
  · intro alike form
    -- A form is held for an entry that has it, and that entry is a word to ask for.
    constructor
    · intro held
      obtain ⟨entry,_,rfl⟩ := mem_ofList.mp held
      rw [← allowed,← alike,allowed]
      exact held
    · intro held
      obtain ⟨other,_,rfl⟩ := mem_ofList.mp held
      rw [← allowed,alike,allowed]
      exact held

theorem contains_normalForm (l : AllowList) (word : String) : l.contains (normalForm word) = l.contains word := by
  rw [contains,normalForm_normalForm,contains]

theorem ofList_map_normalForm (entries : List String) : ofList (entries.map normalForm) = ofList entries := by
  have forms : (entries.map normalForm).map normalForm = entries.map normalForm := by
    rw [List.map_map]
    exact List.map_congr_left fun entry _ => normalForm_normalForm entry
  simp only [ofList,forms]

/-- The size of an allow-list is the number of different forms of its entries. -/
theorem size_ofList (entries : List String) : (ofList entries).size = (entries.map normalForm).toFinset.card := by
  have same : (ofList entries).forms.toFinset = (entries.map normalForm).toFinset := by
    ext form
    rw [List.mem_toFinset,List.mem_toFinset,mem_ofList,List.mem_map]
  rw [← same,List.toFinset_card_of_nodup (ofList entries).nodup,size]

/-- An allow-list is the set of the normal forms of its entries, and these are forms
of their own. A word is allowed where some entry has its form, and so is its form;
entries count by their forms; lists are equal when their entries have the same forms,
which is when they allow the same words; the size is the number of forms; and scouting
is wanted where both words of a snapshot have the form of some entry. -/
theorem ofList_normalForms (entries others : List String) (word : String) :
    (∀ form, form ∈ (ofList entries).forms ↔ ∃ entry ∈ entries, normalForm entry = form) ∧
    normalForm (normalForm word) = normalForm word ∧
    ((ofList entries).contains word = true ↔ ∃ entry ∈ entries, normalForm entry = normalForm word) ∧
    (ofList entries).contains word = (ofList entries).contains (normalForm word) ∧
    (ofList entries == ofList (entries.map normalForm)) = true ∧
    ((ofList entries == ofList others) = true ↔
      ∀ form, (∃ entry ∈ entries, normalForm entry = form) ↔ ∃ other ∈ others, normalForm other = form) ∧
    ((ofList entries == ofList others) = true ↔
      ∀ w, (ofList entries).contains w = (ofList others).contains w) ∧
    (ofList entries).size = (entries.map normalForm).toFinset.card ∧
    ∀ s : Snapshot, (Conditions.mk (ofList entries) (ofList others)).wants s = true ↔
      (∃ entry ∈ entries, normalForm entry = normalForm s.beamMode) ∧
        ∃ other ∈ others, normalForm other = normalForm s.daqState := by
  refine ⟨fun form => mem_ofList,normalForm_normalForm word,contains_ofList,(contains_normalForm _ word).symm,?_,?_,
    beq_iff_contains,size_ofList entries,fun s => ?_⟩
  · rw [ofList_map_normalForm,beq_iff]
    exact fun form => Iff.rfl
  · simp only [beq_iff,mem_ofList]
  · rw [Conditions.wants,Bool.and_eq_true,contains_ofList,contains_ofList]

/-- Entries that differ in case and blanks make one word. -/
example : (ofList ["Stable Beams","STABLE BEAMS"," adjust "]).size = 2 := by decide +kernel

end AllowList

end Lockstep
