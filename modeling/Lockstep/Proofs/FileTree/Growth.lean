import Lockstep.Proofs.FileTree.Marks

/-!
# Where new files come to stand

A tree in which files come and anything may go has nothing else that is new
(`Grows`). What a path names there it named before, or it is one of the new files
(`Grows.names`).
-/

namespace Lockstep.FileTree

variable {t t' t'' : FileTree} {fresh others : Place → Prop} {p q r : Place}

/-- What stands in a tree stood in the other, or is a file; where there was nothing
before it is at one of the places `fresh`. -/
def Grows (t t' : FileTree) (fresh : Place → Prop) : Prop :=
  ∀ q n, t'.get? q = some n → t.get? q = some n ∨ (∃ content, n = .file content) ∧ (t.get? q = none → fresh q)

theorem Grows.refl (t : FileTree) (fresh : Place → Prop) : Grows t t fresh := fun _ _ here => .inl here

theorem Grows.mono (grows : Grows t t' fresh) (more : ∀ q, fresh q → others q) : Grows t t' others := by
  intro q n here
  rcases grows q n here with before | ⟨file,came⟩
  · exact .inl before
  · exact .inr ⟨file,fun nothing => more q (came nothing)⟩

theorem Grows.trans (first : Grows t t' fresh) (second : Grows t' t'' fresh) : Grows t t'' fresh := by
  intro q n here
  rcases second q n here with between | ⟨file,came⟩
  · exact first q n between
  · refine .inr ⟨file,fun nothing => ?_⟩
    cases middle : t'.get? q with
    | none => exact came middle
    | some n' =>
      rcases first q n' middle with before | ⟨_,came'⟩
      · rw [nothing] at before
        cases before
      · exact came' nothing

theorem grows_put (root : r ≠ []) (content : List UInt8) (here : t.get? r = none → fresh r) :
    Grows t (t.put r (.file content)) fresh := by
  intro q n node
  rw [get?_put root] at node
  split at node
  next same =>
    cases node
    subst same
    exact .inr ⟨⟨content,rfl⟩,here⟩
  next => exact .inl node

theorem grows_fill (root : r ≠ []) (content : List UInt8) (here : t.get? r = none → fresh r) :
    Grows t (t.fill r content) fresh := by
  intro q n node
  rcases get?_fill (t := t) (p := r) content q with same | ⟨_,⟨old,before⟩,after⟩
  · exact grows_put root content here q n (same ▸ node)
  · rw [after] at node
    cases node
    refine .inr ⟨⟨content,rfl⟩,fun nothing => ?_⟩
    rw [nothing] at before
    cases before

theorem grows_erase (root : r ≠ []) : Grows t (t.erase r) fresh := by
  intro q n node
  rw [get?_erase root] at node
  split at node
  · cases node
  · exact .inl node

/-- What is no file has stood there before. -/
theorem Grows.solid {n : Node} (grows : Grows t t' fresh) (node : t'.get? q = some n) (other : ∀ content, n ≠ .file content) :
    t.get? q = some n := by
  rcases grows q n node with before | ⟨⟨content,file⟩,_⟩
  · exact before
  · exact absurd file (other content)

/-- A walk that ends at something has gone the same way before. Where it ends at a
file, something else may have been in the file's place, and the walk must be one that
ends there. -/
theorem Grows.walks {aim : Aim} {links : Nat} {s : List Name} {n : Node} (grows : Grows t t' fresh)
    (walks : Walks t' aim links p s q) (node : t'.get? q = some n)
    (file : ∀ content, n = .file content → aim = .entry ∧ t.get? q ≠ none) : Walks t aim links p s q := by
  have dirs {d : Place} (dir : t'.get? d = some .dir) : t.get? d = some .dir := grows.solid dir (by simp)
  induction walks with
  | done => exact .done
  | stay dir idle _ ih => exact .stay (dirs dir) idle (ih node file)
  | up dir _ ih => exact .up (dirs dir) (ih node file)
  | absent _ _ nothing =>
    rw [nothing] at node
    cases node
  | halt dir own entry link => exact .halt (dirs dir) own entry (grows.solid link (by simp))
  | follow dir own more link _ ih => exact .follow (dirs dir) own more (grows.solid link (by simp)) (ih node file)
  | @enter links p q name rest m dir own node' solid further ih =>
    cases m with
    | link target => exact absurd rfl (solid target)
    | dir => exact .enter (dirs dir) own (dirs node') (by simp) (ih node file)
    | special => exact .enter (dirs dir) own (grows.solid node' (by simp)) (by simp) (ih node file)
    | file content =>
      obtain ⟨rfl,rfl⟩ := further.of_node node' (by simp)
      rw [node'] at node
      cases node
      obtain ⟨entry,there⟩ := file content rfl
      obtain ⟨before,was⟩ := Option.ne_none_iff_exists'.mp there
      by_cases link : ∃ target, before = .link target
      · obtain ⟨target,rfl⟩ := link
        exact .halt (dirs dir) own entry was
      · exact .enter (dirs dir) own was (fun target same => link ⟨target,same⟩) .done

/-- What a path names was named by it before, or it is a new file. -/
theorem Grows.names {links : Nat} {s : List Name} {n : Node} (grows : Grows t t' fresh)
    (walks : Walks t' .entry links p s q) (node : t'.get? q = some n) :
    (Walks t .entry links p s q ∧ t.get? q ≠ none) ∨ (∃ content, n = .file content) ∧ fresh q := by
  by_cases there : t.get? q = none
  · rcases grows q n node with before | ⟨file,came⟩
    · rw [there] at before
      cases before
    · exact .inr ⟨file,came there⟩
  · exact .inl ⟨grows.walks walks node fun _ _ => ⟨rfl,there⟩,there⟩

/-- A directory has been found by the same path before. -/
theorem Grows.walks_dir {aim : Aim} {links : Nat} {s : List Name} (grows : Grows t t' fresh)
    (walks : Walks t' aim links p s q) (dir : t'.get? q = some .dir) : Walks t aim links p s q :=
  grows.walks walks dir fun _ file => Node.noConfusion file

end Lockstep.FileTree
