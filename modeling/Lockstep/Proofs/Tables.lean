import Mathlib.Data.List.Forall2
import Mathlib.Data.List.Nodup

/-!
# Tables

Lists of keys with values, told by what a look-up finds in them: the entries of a file
tree and the members of a document are such tables. Where lists correspond entry by
entry, a member of one has its counterpart (`exists_of_mem_right`).
-/

namespace Lockstep.Table

theorem exists_of_mem_right {α β : Type} {R : α → β → Prop} {as : List α} {bs : List β} {b : β}
    (each : List.Forall₂ R as bs) (member : b ∈ bs) : ∃ a ∈ as, R a b := by
  obtain ⟨i,inside,rfl⟩ := List.getElem_of_mem member
  have inside' : i < as.length := each.length_eq ▸ inside
  exact ⟨as[i],List.getElem_mem inside',each.get inside' inside⟩

variable {α β : Type} {table other : List (α × β)} {key : α} {value : β}

/-- Two tables of the same keys, each once, are the same if one holds all the other does. -/
theorem eq_of_keys (keys : table.map (·.1) = other.map (·.1)) (distinct : (other.map (·.1)).Nodup)
    (within : table ⊆ other) : table = other := by
  have length : table.length = other.length := by simpa using congrArg List.length keys
  refine List.ext_getElem length fun i inside inside' => ?_
  have key : table[i].1 = other[i].1 := by simpa [inside,inside'] using congrArg (·[i]?) keys
  exact List.inj_on_of_nodup_map distinct (within (List.getElem_mem inside)) (List.getElem_mem inside') key

variable [BEq α] [LawfulBEq α]

theorem mem_of_lookup (found : table.lookup key = some value) : (key,value) ∈ table := by
  obtain ⟨before,after,rfl,_⟩ := List.lookup_eq_some_iff.mp found
  simp

theorem lookup_of_mem (distinct : (table.map (·.1)).Nodup) (member : (key,value) ∈ table) :
    table.lookup key = some value := by
  induction table with
  | nil => cases member
  | cons first table ih =>
    rw [List.map_cons,List.nodup_cons] at distinct
    rw [List.lookup_cons]
    rcases List.mem_cons.mp member with same | later
    · cases same
      rw [beq_self_eq_true]
    · have apart : key ≠ first.1 := by
        rintro rfl
        exact distinct.1 (List.mem_map.mpr ⟨_,later,rfl⟩)
      rw [beq_false_of_ne apart]
      exact ih distinct.2 later

theorem lookup_eq_none : table.lookup key = none ↔ key ∉ table.map (·.1) := by
  rw [List.lookup_eq_none_iff]
  constructor
  · intro apart there
    obtain ⟨e,member,rfl⟩ := List.mem_map.mp there
    simpa using apart e member
  · intro unknown e member
    refine bne_iff_ne.mpr ?_
    rintro rfl
    exact unknown (List.mem_map.mpr ⟨e,member,rfl⟩)

theorem lookup_map (f : α → β → β) (table : List (α × β)) (key : α) :
    (table.map fun e => (e.1,f e.1 e.2)).lookup key = (table.lookup key).map (f key) := by
  induction table with
  | nil => rfl
  | cons first table ih =>
    rw [List.map_cons,List.lookup_cons,List.lookup_cons,ih]
    by_cases same : key = first.1
    · subst same
      rw [beq_self_eq_true]
      rfl
    · rw [beq_false_of_ne same]

theorem lookup_filter [DecidableEq α] (table : List (α × β)) (gone key : α) :
    (table.filter (·.1 != gone)).lookup key = if key = gone then none else table.lookup key := by
  induction table with
  | nil => simp
  | cons first table ih =>
    by_cases out : first.1 = gone
    · rw [List.filter_cons_of_neg (by simp [out]),ih]
      by_cases same : key = gone
      · rw [if_pos same,if_pos same]
      · rw [if_neg same,if_neg same,List.lookup_cons,out,beq_false_of_ne same]
    · rw [List.filter_cons_of_pos (by simp [out]),List.lookup_cons,List.lookup_cons,ih]
      by_cases same : key = first.1
      · subst same
        rw [beq_self_eq_true]
        exact (if_neg out).symm
      · rw [beq_false_of_ne same]

end Lockstep.Table
