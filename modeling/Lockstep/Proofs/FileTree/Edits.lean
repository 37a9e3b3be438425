import Lockstep.Proofs.FileTree.Listing
import Lockstep.Proofs.FileTree.Marks

/-!
# Edits of a file tree

A tree that comes from another by writing files and taking entries away differs
from it at the places of these edits and nowhere else (`Edited.get?_eq`).
-/

namespace Lockstep.FileTree

/-- Trees that come from another by writing files and taking entries away, at some
places only. -/
inductive Edited (places : Place → Prop) (t : FileTree) : FileTree → Prop
  | same : Edited places t t
  | written {t' : FileTree} {r : Place} {content : List UInt8} (before : Edited places t t') (root : r ≠ [])
      (here : places r) : Edited places t (t'.put r (.file content))
  | erased {t' : FileTree} {p : Place} (before : Edited places t t') (root : p ≠ []) (here : places p) :
      Edited places t (t'.erase p)

variable {t t' t'' : FileTree} {places others : Place → Prop} {q : Place}

theorem Edited.get?_eq (edited : Edited places t t') (elsewhere : ¬places q) : t'.get? q = t.get? q := by
  induction edited with
  | same => rfl
  | @written _ r _ _ root here ih =>
    have apart : q ≠ r := fun same => elsewhere (same ▸ here)
    rw [get?_put root,if_neg apart,ih]
  | @erased _ p _ root here ih =>
    have apart : q ≠ p := fun same => elsewhere (same ▸ here)
    rw [get?_erase root,if_neg apart,ih]

theorem Edited.isGuarded_eq (edited : Edited places t t') (elsewhere : ¬places q) :
    t'.isGuarded q = t.isGuarded q := by
  induction edited with
  | same => rfl
  | written _ _ _ ih => rw [isGuarded_put,ih]
  | @erased _ p _ _ here ih =>
    have apart : q ≠ p := fun same => elsewhere (same ▸ here)
    rw [isGuarded_erase apart,ih]

theorem distinct_erase (distinct : (t.entries.map (·.1)).Nodup) (p : Place) :
    ((t.erase p).entries.map (·.1)).Nodup :=
  distinct.sublist (List.filter_sublist.map _)

theorem distinct_put (distinct : (t.entries.map (·.1)).Nodup) (p : Place) (n : Node) :
    ((t.put p n).entries.map (·.1)).Nodup := by
  have absent : p ∉ (t.erase p).entries.map (·.1) := by simp [erase]
  rw [put,List.map_append,List.map_singleton,List.nodup_append]
  refine ⟨distinct_erase distinct p,List.nodup_singleton _,?_⟩
  intro q member last here same
  obtain rfl : q = p := same.trans (List.mem_singleton.mp here)
  exact absent member

/-- Nothing comes to stand at a place twice. -/
theorem Edited.distinct (edited : Edited places t t') (distinct : (t.entries.map (·.1)).Nodup) :
    (t'.entries.map (·.1)).Nodup := by
  induction edited with
  | same => exact distinct
  | written _ _ _ ih => exact distinct_put ih _ _
  | erased _ _ _ ih => exact distinct_erase ih _

theorem Edited.trans (edited : Edited places t t') (later : Edited places t' t'') : Edited places t t'' := by
  induction later with
  | same => exact edited
  | written _ root here ih => exact .written ih root here
  | erased _ root here ih => exact .erased ih root here

theorem Edited.mono (edited : Edited places t t') (more : ∀ q, places q → others q) : Edited others t t' := by
  induction edited with
  | same => exact .same
  | written _ root here ih => exact .written ih root (more _ here)
  | erased _ root here ih => exact .erased ih root (more _ here)

end Lockstep.FileTree
