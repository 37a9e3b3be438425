import Mathlib.Data.List.Induction
import Mathlib.Data.List.Nodup
import Lockstep.Proofs.FileTree.Walks
import Lockstep.Proofs.Wire

/-!
# Directories and the paths of what they hold

In a proper tree a directory lists each of its entries once, and the path of an
entry, joined from the directory's path and the entry's name, takes the
directory's steps and then one more (`steps_join`).
-/

namespace Lockstep.FileTree

variable {t : FileTree} {dir : Place} {name : Name}

/-! ## Proper trees -/

/-- A name that an entry of a directory can have. -/
structure ProperName (name : Name) : Prop where
  some : name ≠ []
  solid : slash ∉ name
  here : name ≠ here
  above : name ≠ above

/-- A tree as file systems have them: nothing stands at a place twice, entries
have proper names, and each lies in a directory. -/
structure Proper (t : FileTree) : Prop where
  distinct : (t.entries.map (·.1)).Nodup
  names : ∀ e ∈ t.entries, ∀ name ∈ e.1, ProperName name
  inside : ∀ e ∈ t.entries, t.get? e.1.dropLast = some .dir

instance : DecidablePred ProperName := fun name =>
  decidable_of_iff (name ≠ [] ∧ slash ∉ name ∧ name ≠ here ∧ name ≠ above)
    ⟨fun ⟨full,solid,here,above⟩ => ⟨full,solid,here,above⟩,fun ⟨full,solid,here,above⟩ => ⟨full,solid,here,above⟩⟩

instance : DecidablePred Proper := fun t =>
  decidable_of_iff ((t.entries.map (·.1)).Nodup ∧ (∀ e ∈ t.entries, ∀ name ∈ e.1, ProperName name) ∧
      ∀ e ∈ t.entries, t.get? e.1.dropLast = some .dir)
    ⟨fun ⟨distinct,names,inside⟩ => ⟨distinct,names,inside⟩,fun ⟨distinct,names,inside⟩ => ⟨distinct,names,inside⟩⟩

/-- Nothing is guarded where no entry is. -/
theorem isGuarded_eq_false (free : ∀ e ∈ t.entries, e.2.isGuarded = false) (p : Place) : t.isGuarded p = false := by
  rw [isGuarded]
  cases found : t.entries.lookup p with
  | none => rfl
  | some e => exact free _ (Table.mem_of_lookup found)

theorem mem_of_get? {p : Place} {n : Node} (root : p ≠ []) (found : t.get? p = some n) :
    ∃ e, (p,e) ∈ t.entries ∧ e.node = n := by
  rw [get?,if_neg root] at found
  obtain ⟨e,there,node⟩ := Option.map_eq_some_iff.mp found
  exact ⟨e,Table.mem_of_lookup there,node⟩

theorem get?_of_mem (distinct : (t.entries.map (·.1)).Nodup) {e : Entry} (member : (dir ++ [name],e) ∈ t.entries) :
    t.get? (dir ++ [name]) = some e.node := by
  rw [get?,if_neg (by simp),Table.lookup_of_mem distinct member]
  rfl

theorem Proper.get?_of_mem (proper : t.Proper) {e : Entry} (member : (dir ++ [name],e) ∈ t.entries) :
    t.get? (dir ++ [name]) = some e.node :=
  FileTree.get?_of_mem proper.distinct member

theorem Proper.rooted (proper : t.Proper) : t.Rooted := by
  intro p found
  by_cases root : p = []
  · subst root
    rfl
  · obtain ⟨_,member,_⟩ := mem_of_get? root found
    exact proper.inside _ member

theorem Rooted.dir_of_dir {p : Place} {s : List Name} (rooted : Rooted t) (dir : t.get? (p ++ s) = some .dir) :
    t.get? p = some .dir := by
  induction s using List.reverseRecOn with
  | nil => rwa [List.append_nil] at dir
  | append_singleton s name ih =>
    have above := rooted _ dir
    rw [← List.append_assoc,List.dropLast_concat] at above
    exact ih above

/-- What lies above a node is a directory. -/
theorem Proper.dir_of_node {p : Place} {s : List Name} {n : Node} (proper : t.Proper)
    (node : t.get? (p ++ name :: s) = some n) : t.get? p = some .dir := by
  obtain ⟨_,member,_⟩ := mem_of_get? (by simp) node
  have above := proper.inside _ member
  rw [List.dropLast_append_of_ne_nil (by simp)] at above
  exact proper.rooted.dir_of_dir above

/-! ## Listing -/

theorem nameIn?_eq_some_iff {p : Place} : nameIn? dir p = some name ↔ p = dir ++ [name] := by
  unfold nameIn?
  constructor
  · intro found
    split at found
    · next last ending =>
      split at found
      · next inside =>
        cases found
        rw [← inside]
        exact (List.dropLast_append_getLast? name ending).symm
      · cases found
    · cases found
  · rintro rfl
    simp

theorem mem_children {n : Node} :
    (name,n) ∈ t.children dir ↔ ∃ e, (dir ++ [name],e) ∈ t.entries ∧ e.node = n := by
  unfold children
  rw [List.mem_filterMap]
  constructor
  · rintro ⟨⟨p,e⟩,member,found⟩
    obtain ⟨last,inside,same⟩ := Option.map_eq_some_iff.mp found
    cases same
    obtain rfl := nameIn?_eq_some_iff.mp inside
    exact ⟨e,member,rfl⟩
  · rintro ⟨e,member,rfl⟩
    exact ⟨_,member,Option.map_eq_some_iff.mpr ⟨name,nameIn?_eq_some_iff.mpr rfl,rfl⟩⟩

theorem nodup_children (distinct : (t.entries.map (·.1)).Nodup) (dir : Place) :
    ((t.children dir).map (·.1)).Nodup := by
  have same : (t.children dir).map (·.1) = (t.entries.map (·.1)).filterMap (nameIn? dir) := by
    rw [children,List.map_filterMap,List.filterMap_map]
    congr 1
    funext e
    cases found : nameIn? dir e.1 <;> simp [found]
  rw [same]
  refine distinct.filterMap ?_
  intro p q last first second
  rw [nameIn?_eq_some_iff.mp first,nameIn?_eq_some_iff.mp second]

theorem Proper.nodup_children (proper : t.Proper) (dir : Place) : ((t.children dir).map (·.1)).Nodup :=
  FileTree.nodup_children proper.distinct dir

theorem exists_of_list {cwd : Place} {path : List UInt8} {entries : List (Name × Node)}
    (listed : t.list cwd path = .ok entries) :
    ∃ dir, t.find .content cwd path = .ok (dir,some .dir) ∧ entries = t.children dir := by
  unfold list at listed
  split at listed
  · cases listed
  · next dir found =>
    cases listed
    exact ⟨dir,found,rfl⟩
  · cases listed
  · cases listed

/-! ## Paths -/

theorem split_ne_nil {α : Type} (separates : α → Bool) (s : List α) : Text.split separates s ≠ [] := by
  fun_cases Text.split separates s <;> simp

theorem split_mark {α : Type} {separates : α → Bool} {mark : α} (separator : separates mark = true)
    (s rest : List α) : Text.split separates (s ++ mark :: rest) = Text.split separates s ++ Text.split separates rest := by
  induction s with
  | nil => simp [Text.split,separator]
  | cons c s ih =>
    rw [List.cons_append,Text.split,Text.split,ih]
    by_cases mark : separates c = true
    · rw [if_pos mark,if_pos mark]
      rfl
    · rw [if_neg mark,if_neg mark]
      cases pieces : Text.split separates s with
      | nil => exact absurd pieces (split_ne_nil separates s)
      | cons piece pieces => rfl

theorem names_slash (path rest : List UInt8) : names (path ++ slash :: rest) = names path ++ names rest := by
  have parted : Text.split (· == slash) (path ++ slash :: rest) =
      Text.split (· == slash) path ++ Text.split (· == slash) rest := split_mark (by simp) path rest
  rw [names,parted,List.filter_append]
  rfl

theorem names_of_proper (proper : ProperName name) : names name = [name] := by
  have solid : ∀ c ∈ name, (c == slash) = false := by
    intro c member
    rw [beq_eq_false_iff_ne]
    rintro rfl
    exact proper.solid member
  rw [names,Text.split_word solid]
  simp [proper.some]

theorem endsInSlash_proper (proper : ProperName name) (path : List UInt8) :
    endsInSlash (path ++ slash :: name) = false := by
  cases last : name.getLast? with
  | none => exact absurd (List.getLast?_eq_none_iff.mp last) proper.some
  | some c =>
    have other : c ≠ slash := by
      rintro rfl
      exact proper.solid (List.mem_of_getLast? last)
    rw [endsInSlash,List.getLast?_append,List.getLast?_cons,last]
    simpa using other

theorem steps_slash (proper : ProperName name) (path : List UInt8) :
    steps (path ++ slash :: name) = names path ++ [name] := by
  rw [steps,endsInSlash_proper proper,names_slash,names_of_proper proper]
  simp

theorem exists_of_endsInSlash {path : List UInt8} (slashed : endsInSlash path = true) : ∃ d, path = d ++ [slash] := by
  obtain ⟨d,whole⟩ := List.getLast?_eq_some_iff.mp (beq_iff_eq.mp slashed)
  exact ⟨d,whole⟩

/-- The steps of an entry's path are those to its directory and its name. -/
theorem steps_join {path : List UInt8} (some : path ≠ []) (proper : ProperName name) :
    steps (join path name) = names path ++ [name] := by
  unfold join
  split
  · next cases =>
    rcases cases with empty | slashed
    · exact absurd (List.isEmpty_iff.mp empty) some
    · obtain ⟨d,rfl⟩ := exists_of_endsInSlash slashed
      have plain : names (d ++ [slash]) = names d := by
        rw [names_slash d []]
        exact List.append_nil _
      rw [List.append_assoc,plain]
      exact steps_slash proper d
  · exact steps_slash proper path

theorem origin_join {path : List UInt8} (some : path ≠ []) (cwd : Place) (name : Name) :
    origin cwd (join path name) = origin cwd path := by
  cases path with
  | nil => exact absurd rfl some
  | cons c path =>
    unfold join
    split <;> rfl

theorem exists_mem_split {α : Type} {separates : α → Bool} {c : α} {s : List α} (member : c ∈ s)
    (other : separates c = false) : ∃ piece ∈ Text.split separates s, c ∈ piece := by
  induction s with
  | nil => cases member
  | cons d s ih =>
    rw [Text.split]
    by_cases mark : separates d = true
    · rw [if_pos mark]
      rcases List.mem_cons.mp member with rfl | later
      · rw [other] at mark
        cases mark
      · obtain ⟨piece,found,inside⟩ := ih later
        exact ⟨piece,List.mem_cons_of_mem _ found,inside⟩
    · rw [if_neg mark]
      cases pieces : Text.split separates s with
      | nil => exact absurd pieces (split_ne_nil separates s)
      | cons first rest =>
        rcases List.mem_cons.mp member with rfl | later
        · exact ⟨c :: first,List.mem_cons_self,List.mem_cons_self⟩
        · obtain ⟨piece,found,inside⟩ := ih later
          rw [pieces] at found
          rcases List.mem_cons.mp found with rfl | found
          · exact ⟨d :: piece,List.mem_cons_self,List.mem_cons_of_mem d inside⟩
          · exact ⟨piece,List.mem_cons_of_mem _ found,inside⟩

/-- A path that is not all slashes has names. -/
theorem names_ne_nil {path : List UInt8} {c : UInt8} (member : c ∈ path) (other : c ≠ slash) : names path ≠ [] := by
  obtain ⟨piece,found,inside⟩ : ∃ piece ∈ Text.split (· == slash) path, c ∈ piece :=
    exists_mem_split member (beq_eq_false_iff_ne.mpr other)
  intro none
  have kept : piece ∈ names path := by
    refine List.mem_filter.mpr ⟨found,?_⟩
    cases piece with
    | nil => cases inside
    | cons => rfl
  rw [none] at kept
  cases kept

/-- A walk by the name of an entry ends at that entry, where no link is followed. -/
theorem Walks.last {aim : Aim} {links : Nat} {p : Place} (proper : ProperName name)
    (straight : ∀ target, t.get? (dir ++ [name]) = some (.link target) → aim = .entry)
    (walks : Walks t aim links dir [name] p) : p = dir ++ [name] := by
  cases walks with
  | stay _ idle =>
    rcases idle with here | empty
    · exact absurd here proper.here
    · exact absurd empty proper.some
  | up => exact absurd rfl proper.above
  | absent => rfl
  | halt => rfl
  | follow _ _ more link => exact absurd ⟨rfl,straight _ link⟩ more
  | enter _ _ _ _ further =>
    cases further
    rfl

theorem ProperName.proceeds {aim : Aim} {rest : List Name} (proper : ProperName name)
    (short : name.length ≤ nameLimit) (last : rest ≠ [slashStep]) : Proceeds aim name rest :=
  ⟨fun idle => idle.elim proper.here proper.some,proper.above,fun writing => last writing.2,Nat.not_lt.mpr short⟩

/-- In a proper tree a node that is no link is found by the names that lead to it. -/
theorem Proper.walks {aim : Aim} {links : Nat} {p : Place} {s : List Name} {n : Node} (proper : t.Proper)
    (node : t.get? (p ++ s) = some n) (solid : ∀ target, n ≠ .link target)
    (short : ∀ name ∈ s, name.length ≤ nameLimit) : Walks t aim links p s (p ++ s) := by
  induction s generalizing p with
  | nil =>
    rw [List.append_nil]
    exact .done
  | cons name rest ih =>
    obtain ⟨_,member,_⟩ := mem_of_get? (by simp) node
    have names : ∀ name' ∈ name :: rest, ProperName name' := fun name' inside =>
      proper.names _ member name' (List.mem_append_right _ inside)
    have last : rest ≠ [slashStep] := by
      rintro rfl
      exact (names slashStep (by simp)).some rfl
    have own : Proceeds aim name rest := (names name (by simp)).proceeds (short name (by simp)) last
    have dir := proper.dir_of_node node
    have split : p ++ name :: rest = p ++ [name] ++ rest := by simp
    rw [split] at node ⊢
    have further : Walks t aim links (p ++ [name]) rest (p ++ [name] ++ rest) :=
      ih node fun name' inside => short name' (List.mem_cons_of_mem _ inside)
    cases rest with
    | nil =>
      rw [List.append_nil] at node
      exact .enter dir own node solid further
    | cons next rest => exact .enter dir own (proper.dir_of_node node) (by simp) further

/-- A name stays proper when something without a slash is added. -/
theorem ProperName.append {more : List UInt8} (proper : ProperName name) (flat : slash ∉ more) :
    ProperName (name ++ more) := by
  obtain ⟨some,solid,here,above⟩ := proper
  refine ⟨by simp [some],by simp [solid,flat],?_,?_⟩
  · intro same
    cases name with
    | nil => exact some rfl
    | cons c rest =>
      obtain ⟨rfl,empty⟩ := List.cons.inj same
      obtain ⟨rfl,_⟩ := List.append_eq_nil_iff.mp empty
      exact here rfl
  · intro same
    cases name with
    | nil => exact some rfl
    | cons c rest =>
      obtain ⟨rfl,later⟩ := List.cons.inj same
      cases rest with
      | nil => exact here rfl
      | cons d rest =>
        obtain ⟨rfl,empty⟩ := List.cons.inj later
        obtain ⟨rfl,_⟩ := List.append_eq_nil_iff.mp empty
        exact above rfl

/-- What the steps of a directory's path lead to its names lead to. -/
theorem Leads.names {p : Place} {path : List UInt8} (leads : Leads t p (steps path) dir) :
    Leads t p (names path) dir := by
  unfold steps at leads
  split at leads
  · obtain ⟨links,walks⟩ := leads
    obtain ⟨d,j,k,before,_,after⟩ := walks.split
    have stays : Leads t d [] dir := Leads.of_stay ⟨k,after⟩ (.inr rfl)
    obtain rfl := Leads.unique ⟨0,.done⟩ stays
    exact ⟨j,before⟩
  · rw [List.append_nil] at leads
    exact leads

end Lockstep.FileTree
