import Mathlib.Data.List.Basic
import Lockstep.FileTree
import Lockstep.Proofs.Tables
import Lockstep.Proofs.Wire

/-!
# Walks through a changing tree

What a path leads to, told by the steps of the walk (`Walks`), and how far it
stays the same while a tree changes (`Drift`): files come and go, and a link may
be removed. A path that led somewhere still leads there, unless a removed link
stood in its way, and then it led to where that link led (`Drift.walks`,
`Drift.led`).
-/

namespace Lockstep.FileTree

variable {t t' : FileTree} {p q r : Place}

/-! ## Looking up -/

theorem get?_erase (some : p ≠ []) (q : Place) : (t.erase p).get? q = if q = p then none else t.get? q := by
  unfold get?
  by_cases root : q = []
  · subst root
    rw [if_pos rfl,if_neg (Ne.symm some),if_pos rfl]
  · rw [if_neg root,if_neg root,erase,Table.lookup_filter]
    split <;> rfl

theorem lookup_put (n : Node) (q : Place) : (t.put p n).entries.lookup q =
    if q = p then some (.after (t.entries.lookup p) n) else t.entries.lookup q := by
  simp only [put,erase,List.lookup_append,Table.lookup_filter]
  by_cases same : q = p
  · subst same
    simp
  · simp [same,List.lookup_cons,beq_false_of_ne same]

theorem node_after (before : Option Entry) (n : Node) : (Entry.after before n).node = n := by
  cases before with
  | none | some => rfl

theorem get?_put (root : p ≠ []) (n : Node) (q : Place) :
    (t.put p n).get? q = if q = p then some n else t.get? q := by
  unfold get?
  by_cases top : q = []
  · subst top
    rw [if_pos rfl,if_neg (Ne.symm root),if_pos rfl]
  · rw [if_neg top,if_neg top,lookup_put]
    split
    · exact congrArg some (node_after _ n)
    · rfl

/-! ## The steps of a walk -/

/-- Where the target of a link is taken from: the directory in which it lies, or
the root. -/
def base (dir : Place) (target : List UInt8) : Place := if isAbsolute target then [] else dir

/-- A step that is a name of its own and may be taken; `rest` is what follows it. -/
structure Proceeds (aim : Aim) (name : Name) (rest : List Name) : Prop where
  idle : ¬(name = here ∨ name = slashStep)
  down : name ≠ above
  open_ : ¬(aim = .writing ∧ rest = [slashStep])
  short : ¬nameLimit < name.length

/-- The walks that come to an end, with the place where. -/
inductive Walks (t : FileTree) (aim : Aim) : Nat → Place → List Name → Place → Prop
  | done {links : Nat} {p : Place} : Walks t aim links p [] p
  | stay {links : Nat} {p q : Place} {name : Name} {rest : List Name} (dir : t.get? p = some .dir)
      (idle : name = here ∨ name = slashStep) (further : Walks t aim links p rest q) :
      Walks t aim links p (name :: rest) q
  | up {links : Nat} {p q : Place} {rest : List Name} (dir : t.get? p = some .dir)
      (further : Walks t aim links p.dropLast rest q) : Walks t aim links p (above :: rest) q
  | absent {links : Nat} {p : Place} {name : Name} (dir : t.get? p = some .dir) (own : Proceeds aim name [])
      (nothing : t.get? (p ++ [name]) = none) : Walks t aim links p [name] (p ++ [name])
  | halt {links : Nat} {p : Place} {name : Name} {target : List UInt8} (dir : t.get? p = some .dir)
      (own : Proceeds aim name []) (entry : aim = .entry) (link : t.get? (p ++ [name]) = some (.link target)) :
      Walks t aim links p [name] (p ++ [name])
  | follow {links : Nat} {p q : Place} {name : Name} {rest : List Name} {target : List UInt8}
      (dir : t.get? p = some .dir) (own : Proceeds aim name rest) (more : ¬(rest.isEmpty ∧ aim = .entry))
      (link : t.get? (p ++ [name]) = some (.link target))
      (further : Walks t aim links (base p target) (steps target ++ rest) q) :
      Walks t aim (links + 1) p (name :: rest) q
  | enter {links : Nat} {p q : Place} {name : Name} {rest : List Name} {n : Node} (dir : t.get? p = some .dir)
      (own : Proceeds aim name rest) (node : t.get? (p ++ [name]) = some n) (solid : ∀ target, n ≠ .link target)
      (further : Walks t aim links (p ++ [name]) rest q) : Walks t aim links p (name :: rest) q

section
variable {aim : Aim} {links : Nat} {s rest : List Name} {name : Name} {target : List UInt8}

theorem walks_of_walk {n : Option Node} (walk : t.walk aim links p s = .ok (q,n)) :
    Walks t aim links p s q ∧ n = t.get? q := by
  fun_induction FileTree.walk t aim links p s with
  | case1 =>
    cases walk
    exact ⟨.done,rfl⟩
  | case2 | case5 | case6 | case8 | case10 => cases walk
  | case3 links p name rest dir idle ih =>
    obtain ⟨further,same⟩ := ih walk
    exact ⟨.stay (Classical.not_not.mp dir) idle further,same⟩
  | case4 links p rest dir _ ih =>
    obtain ⟨further,same⟩ := ih walk
    exact ⟨.up (Classical.not_not.mp dir) further,same⟩
  | case7 links p name rest dir idle down writing short nothing last =>
    cases walk
    obtain rfl := List.isEmpty_iff.mp last
    exact ⟨.absent (Classical.not_not.mp dir) ⟨idle,down,writing,short⟩ nothing,nothing.symm⟩
  | case9 links p name rest dir idle down writing short target link last =>
    cases walk
    obtain rfl := List.isEmpty_iff.mp last.1
    exact ⟨.halt (Classical.not_not.mp dir) ⟨idle,down,writing,short⟩ last.2 link,link.symm⟩
  | case11 p name rest dir idle down writing short target link more links ih =>
    simp only [dite_eq_ite] at ih
    obtain ⟨further,same⟩ := ih walk
    exact ⟨.follow (Classical.not_not.mp dir) ⟨idle,down,writing,short⟩ more link further,same⟩
  | case12 links p name rest dir idle down writing short n solid node ih =>
    obtain ⟨further,same⟩ := ih walk
    exact ⟨.enter (Classical.not_not.mp dir) ⟨idle,down,writing,short⟩ node solid further,same⟩

theorem Walks.walk (walks : Walks t aim links p s q) : t.walk aim links p s = .ok (q,t.get? q) := by
  induction walks with
  | done => rw [FileTree.walk]
  | stay dir idle _ ih => rw [FileTree.walk,if_neg (not_not.mpr dir),if_pos idle,ih]
  | up dir _ ih => rw [FileTree.walk,if_neg (not_not.mpr dir),if_neg (by decide),if_pos rfl,ih]
  | absent dir own nothing =>
    rw [FileTree.walk,if_neg (not_not.mpr dir),if_neg own.idle,if_neg own.down,if_neg own.open_,if_neg own.short,
      nothing]
    rfl
  | halt dir own entry link =>
    rw [FileTree.walk,if_neg (not_not.mpr dir),if_neg own.idle,if_neg own.down,if_neg own.open_,if_neg own.short,link]
    exact if_pos ⟨rfl,entry⟩
  | follow dir own more link _ ih =>
    rw [FileTree.walk,if_neg (not_not.mpr dir),if_neg own.idle,if_neg own.down,if_neg own.open_,if_neg own.short,link]
    simp only [if_neg more]
    exact ih
  | @enter links p q name rest n dir own node solid _ ih =>
    rw [FileTree.walk,if_neg (not_not.mpr dir),if_neg own.idle,if_neg own.down,if_neg own.open_,if_neg own.short,node]
    cases n with
    | link target => exact absurd rfl (solid target)
    | file | dir | special => exact ih

/-- What a file holds is nothing to a walk. -/
theorem Walks.rewrite {content : List UInt8} (walks : Walks t aim links p s q) (file : t.get? r = some (.file content))
    (content' : List UInt8) : Walks (t.put r (.file content')) aim links p s q := by
  have root : r ≠ [] := by
    rintro rfl
    cases file
  have kept {o : Place} {n : Option Node} (found : t.get? o = n) (other : ∀ c, n ≠ some (.file c)) :
      (t.put r (.file content')).get? o = n := by
    have apart : o ≠ r := by
      rintro rfl
      exact other content (found.symm.trans file)
    rw [get?_put root,if_neg apart,found]
  induction walks with
  | done => exact .done
  | stay dir idle _ ih => exact .stay (kept dir (by simp)) idle ih
  | up dir _ ih => exact .up (kept dir (by simp)) ih
  | absent dir own nothing => exact .absent (kept dir (by simp)) own (kept nothing (by simp))
  | halt dir own entry link => exact .halt (kept dir (by simp)) own entry (kept link (by simp))
  | follow dir own more link _ ih => exact .follow (kept dir (by simp)) own more (kept link (by simp)) ih
  | @enter links p q name rest n dir own node solid _ ih =>
    cases n with
    | link target => exact absurd rfl (solid target)
    | dir | special => exact .enter (kept dir (by simp)) own (kept node (by simp)) solid ih
    | file c =>
      have node' : ∃ c, (t.put r (.file content')).get? (p ++ [name]) = some (.file c) := by
        rw [get?_put root]
        split
        · exact ⟨content',rfl⟩
        · exact ⟨c,node⟩
      obtain ⟨c,node'⟩ := node'
      exact .enter (kept dir (by simp)) own node' (by simp) ih

theorem Walks.more (walks : Walks t aim links p s q) (k : Nat) : Walks t aim (links + k) p s q := by
  induction walks with
  | done => exact .done
  | stay dir idle _ ih => exact .stay dir idle ih
  | up dir _ ih => exact .up dir ih
  | absent dir own nothing => exact .absent dir own nothing
  | halt dir own entry link => exact .halt dir own entry link
  | follow dir own more link _ ih =>
    rw [Nat.add_right_comm]
    exact .follow dir own more link ih
  | enter dir own node solid _ ih => exact .enter dir own node solid ih

/-- However many links may be followed, a walk ends in one place. -/
theorem Walks.unique {links' : Nat} (first : Walks t aim links p s q) (second : Walks t aim links' p s r) : q = r := by
  have one := (first.more links').walk
  have two := (second.more links).walk
  rw [Nat.add_comm links' links,one] at two
  exact (Prod.mk.inj (Except.ok.inj two)).1

/-- A step that may be taken may be taken on the way to a content. -/
theorem Proceeds.content (own : Proceeds aim name rest) (later : List Name) : Proceeds .content name later :=
  ⟨own.idle,own.down,fun writing => Aim.noConfusion writing.1,own.short⟩

theorem not_entry (rest : List Name) : ¬(rest.isEmpty ∧ Aim.content = .entry) :=
  fun last => Aim.noConfusion last.2

/-- A walk that does not end at a link is one to what the path leads to. -/
theorem Walks.content (walks : Walks t aim links p s q) (solid : ∀ target, t.get? q ≠ some (.link target)) :
    Walks t .content links p s q := by
  induction walks with
  | done => exact .done
  | stay dir idle _ ih => exact .stay dir idle (ih solid)
  | up dir _ ih => exact .up dir (ih solid)
  | absent dir own nothing => exact .absent dir (own.content _) nothing
  | halt dir own entry link => exact absurd link (solid _)
  | follow dir own more link _ ih => exact .follow dir (own.content _) (not_entry _) link (ih solid)
  | enter dir own node other _ ih => exact .enter dir (own.content _) node other (ih solid)

/-- Only a walk for an entry may end at a link, so every other is one to what the
path leads to. -/
theorem Walks.content_of_ne (walks : Walks t aim links p s q) (other : aim ≠ .entry) : Walks t .content links p s q := by
  induction walks with
  | done => exact .done
  | stay dir idle _ ih => exact .stay dir idle ih
  | up dir _ ih => exact .up dir ih
  | absent dir own nothing => exact .absent dir (own.content _) nothing
  | halt _ _ entry => exact absurd entry other
  | follow dir own _ link _ ih => exact .follow dir (own.content _) (not_entry _) link ih
  | enter dir own node solid _ ih => exact .enter dir (own.content _) node solid ih

/-- A path that can be walked names an entry, and no more links are followed on the
way to that. -/
theorem Walks.entry (walks : Walks t aim links p s q) : ∃ r, Walks t .entry links p s r := by
  have own' {name : Name} {rest later : List Name} (own : Proceeds aim name rest) : Proceeds .entry name later :=
    ⟨own.idle,own.down,fun writing => Aim.noConfusion writing.1,own.short⟩
  induction walks with
  | done => exact ⟨_,.done⟩
  | stay dir idle _ ih =>
    obtain ⟨r,further⟩ := ih
    exact ⟨r,.stay dir idle further⟩
  | up dir _ ih =>
    obtain ⟨r,further⟩ := ih
    exact ⟨r,.up dir further⟩
  | absent dir own nothing => exact ⟨_,.absent dir (own' own) nothing⟩
  | halt dir own _ link => exact ⟨_,.halt dir (own' own) rfl link⟩
  | @follow links p q name rest target dir own _ link _ ih =>
    cases rest with
    | nil => exact ⟨_,.halt dir (own' own) rfl link⟩
    | cons next rest =>
      obtain ⟨r,further⟩ := ih
      exact ⟨r,.follow dir (own' own) (by simp) link further⟩
  | enter dir own node solid _ ih =>
    obtain ⟨r,further⟩ := ih
    exact ⟨r,.enter dir (own' own) node solid further⟩

theorem Walks.dir (walks : Walks t aim links p (name :: rest) q) : t.get? p = some .dir := by
  cases walks <;> assumption

theorem Walks.start (walks : Walks t aim links p (s ++ [name]) q) : t.get? p = some .dir := by
  cases s with
  | nil => exact walks.dir
  | cons => exact walks.dir

/-- A walk comes through a directory after each of its steps but the last. -/
theorem Walks.split {later : List Name} (walks : Walks t aim links p (s ++ name :: later) q) :
    ∃ d j k, Walks t .content j p s d ∧ t.get? d = some .dir ∧ Walks t aim k d (name :: later) q := by
  -- A link puts the steps of its target before those of `s`, so the induction is on the walk, for all `s`.
  generalize whole : s ++ name :: later = path at walks
  induction walks generalizing s with
  | done => simp at whole
  | @stay links p q step rest dir idle further ih =>
    cases s with
    | nil =>
      obtain ⟨rfl,rfl⟩ := List.cons.inj whole
      exact ⟨p,0,links,.done,dir,.stay dir idle further⟩
    | cons first s =>
      obtain ⟨rfl,rest⟩ := List.cons.inj whole
      obtain ⟨d,j,k,before,middle,after⟩ := ih rest
      exact ⟨d,j,k,.stay dir idle before,middle,after⟩
  | @up links p q rest dir further ih =>
    cases s with
    | nil =>
      obtain ⟨rfl,rfl⟩ := List.cons.inj whole
      exact ⟨p,0,links,.done,dir,.up dir further⟩
    | cons first s =>
      obtain ⟨rfl,rest⟩ := List.cons.inj whole
      obtain ⟨d,j,k,before,middle,after⟩ := ih rest
      exact ⟨d,j,k,.up dir before,middle,after⟩
  | @absent links p step dir own nothing =>
    cases s with
    | nil =>
      obtain ⟨rfl,rfl⟩ := List.cons.inj whole
      exact ⟨p,0,links,.done,dir,.absent dir own nothing⟩
    | cons first s => simp at whole
  | @halt links p step target dir own entry link =>
    cases s with
    | nil =>
      obtain ⟨rfl,rfl⟩ := List.cons.inj whole
      exact ⟨p,0,links,.done,dir,.halt dir own entry link⟩
    | cons first s => simp at whole
  | @follow links p q step rest target dir own more link further ih =>
    cases s with
    | nil =>
      obtain ⟨rfl,rfl⟩ := List.cons.inj whole
      exact ⟨p,0,links + 1,.done,dir,.follow dir own more link further⟩
    | cons first s =>
      obtain ⟨rfl,rfl⟩ := List.cons.inj whole
      obtain ⟨d,j,k,before,middle,after⟩ := ih (s := steps target ++ s) (by simp)
      exact ⟨d,j + 1,k,.follow dir (own.content _) (not_entry _) link before,middle,after⟩
  | @enter links p q step rest n dir own node solid further ih =>
    cases s with
    | nil =>
      obtain ⟨rfl,rfl⟩ := List.cons.inj whole
      exact ⟨p,0,links,.done,dir,.enter dir own node solid further⟩
    | cons first s =>
      obtain ⟨rfl,rest⟩ := List.cons.inj whole
      obtain ⟨d,j,k,before,middle,after⟩ := ih rest
      exact ⟨d,j,k,.enter dir (own.content _) node solid before,middle,after⟩

/-! ## What a path leads to -/

/-- What the steps lead to from a place, however many links they take. -/
def Leads (t : FileTree) (p : Place) (s : List Name) (q : Place) : Prop := ∃ links, Walks t .content links p s q

theorem Leads.unique (first : Leads t p s q) (second : Leads t p s r) : q = r := by
  obtain ⟨_,one⟩ := first
  obtain ⟨_,two⟩ := second
  exact one.unique two

theorem Leads.of_stay (leads : Leads t p (name :: rest) q) (idle : name = here ∨ name = slashStep) :
    Leads t p rest q := by
  obtain ⟨links,walks⟩ := leads
  cases walks with
  | stay _ _ further => exact ⟨_,further⟩
  | up => exact absurd idle (by decide)
  | absent _ own | halt _ own | follow _ own | enter _ own => exact absurd idle own.idle

theorem Leads.of_up (leads : Leads t p (above :: rest) q) : Leads t p.dropLast rest q := by
  obtain ⟨links,walks⟩ := leads
  cases walks with
  | up _ further => exact ⟨_,further⟩
  | stay _ idle => exact absurd idle (by decide)
  | absent _ own | halt _ own | follow _ own | enter _ own => exact absurd rfl own.down

theorem Leads.of_link (leads : Leads t p (name :: rest) q) (own : Proceeds aim name rest)
    (link : t.get? (p ++ [name]) = some (.link target)) : Leads t (base p target) (steps target ++ rest) q := by
  obtain ⟨links,walks⟩ := leads
  cases walks with
  | stay _ idle => exact absurd idle own.idle
  | up => exact absurd rfl own.down
  | absent _ _ nothing =>
    rw [link] at nothing
    cases nothing
  | halt _ _ entry => cases entry
  | follow _ _ _ same further =>
    rw [link] at same
    cases same
    exact ⟨_,further⟩
  | enter _ _ node solid =>
    rw [link] at node
    cases node
    exact absurd rfl (solid target)

theorem Leads.of_node {n : Node} (leads : Leads t p (name :: rest) q) (own : Proceeds aim name rest)
    (node : t.get? (p ++ [name]) = some n) (solid : ∀ target, n ≠ .link target) : Leads t (p ++ [name]) rest q := by
  obtain ⟨links,walks⟩ := leads
  cases walks with
  | stay _ idle => exact absurd idle own.idle
  | up => exact absurd rfl own.down
  | absent _ _ nothing =>
    rw [node] at nothing
    cases nothing
  | halt _ _ entry => cases entry
  | follow _ _ _ link =>
    rw [node] at link
    cases link
    exact absurd rfl (solid _)
  | enter _ _ _ _ further => exact ⟨_,further⟩

/-- A walk for an entry that ends at a link ends in its directory, and the path
leads on to where the link leads. -/
theorem Walks.link (walks : Walks t .entry links p s q) (link : t.get? q = some (.link target))
    (leads : Leads t p s r) (solid : ∀ target, t.get? r ≠ some (.link target)) :
    t.get? q.dropLast = some .dir ∧ Leads t (base q.dropLast target) (steps target) r := by
  induction walks with
  | done =>
    obtain rfl := Leads.unique ⟨0,.done⟩ leads
    exact absurd link (solid target)
  | stay _ idle _ ih => exact ih link (leads.of_stay idle)
  | up _ _ ih => exact ih link leads.of_up
  | absent _ _ nothing =>
    rw [link] at nothing
    cases nothing
  | halt dir own =>
    have further := leads.of_link own link
    rw [List.append_nil] at further
    rw [List.dropLast_concat]
    exact ⟨dir,further⟩
  | follow _ own _ link' _ ih => exact ih link (leads.of_link own link')
  | enter _ own node other _ ih => exact ih link (leads.of_node own node other)

/-! ## Trees that change -/

/-- A file, or nothing. -/
def Leaf (n : Option Node) : Prop := n = none ∨ ∃ content, n = some (.file content)

theorem not_leaf_dir : ¬Leaf (some .dir) := by
  rintro (none | ⟨_,file⟩)
  · cases none
  · cases file

theorem not_leaf_link {target : List UInt8} : ¬Leaf (some (.link target)) := by
  rintro (none | ⟨_,file⟩)
  · cases none
  · cases file

theorem not_leaf_special {kind : Special} : ¬Leaf (some (.special kind)) := by
  rintro (none | ⟨_,file⟩)
  · cases none
  · cases file

/-- Directories lie in directories. -/
def Rooted (t : FileTree) : Prop := ∀ p, t.get? p = some .dir → t.get? p.dropLast = some .dir

theorem base_dir (dir : t.get? p = some .dir) (target : List UInt8) : t.get? (base p target) = some .dir := by
  unfold base
  split
  · rfl
  · exact dir

/-- Nothing can be below what is no directory. -/
theorem Walks.of_node {n : Node} (walks : Walks t aim links p s q) (node : t.get? p = some n) (other : n ≠ .dir) :
    s = [] ∧ q = p := by
  cases s with
  | nil =>
    cases walks
    exact ⟨rfl,rfl⟩
  | cons name s =>
    have dir := walks.dir
    rw [node] at dir
    exact absurd (Option.some.inj dir) other

/-- A walk that ends at nothing ends in a directory. -/
theorem Walks.dir_of_none (walks : Walks t aim links p s q) (dir : t.get? p = some .dir) (rooted : Rooted t)
    (nothing : t.get? q = none) : t.get? q.dropLast = some .dir := by
  induction walks with
  | done =>
    rw [dir] at nothing
    cases nothing
  | stay _ _ _ ih => exact ih dir nothing
  | up _ _ ih => exact ih (rooted _ dir) nothing
  | absent dir => rwa [List.dropLast_concat]
  | halt _ _ _ link =>
    rw [link] at nothing
    cases nothing
  | follow _ _ _ _ _ ih => exact ih (base_dir dir _) nothing
  | @enter _ _ _ _ _ n _ _ node solid further ih =>
    by_cases inner : n = .dir
    · exact ih (inner ▸ node) nothing
    · obtain ⟨rfl,rfl⟩ := further.of_node node inner
      rw [node] at nothing
      cases nothing

/-- Only a walk for an entry ends at a link. -/
theorem Walks.solid (walks : Walks t aim links p s q) (other : aim ≠ .entry) (rooted : Rooted t)
    (dir : t.get? p = some .dir) : ∀ target, t.get? q ≠ some (.link target) := by
  induction walks with
  | done => simp [dir]
  | stay _ _ _ ih => exact ih dir
  | up _ _ ih => exact ih (rooted _ dir)
  | absent _ _ nothing => simp [nothing]
  | halt _ _ entry => exact absurd entry other
  | follow _ _ _ _ _ ih => exact ih (base_dir dir _)
  | @enter _ _ _ _ _ n _ _ node solid further ih =>
    cases n with
    | link target => exact absurd rfl (solid target)
    | dir => exact ih node
    | file | special =>
      obtain ⟨rfl,rfl⟩ := further.of_node node (by simp)
      simp [node]

/-- What may have become of a place: nothing, a file has come or gone, or a link
is gone that led to one of the places `lost`. -/
inductive Change (t t' : FileTree) (lost : Place → Prop) (q : Place) : Prop
  | same (same : t'.get? q = t.get? q)
  | leaf (before : Leaf (t.get? q)) (after : Leaf (t'.get? q))
  | unlinked {target : List UInt8} {r : Place} (link : t.get? q = some (.link target)) (after : Leaf (t'.get? q))
      (dir : t.get? q.dropLast = some .dir) (leads : Leads t (base q.dropLast target) (steps target) r)
      (lost : lost r) (leaf : Leaf (t.get? r))

/-- A tree changes in no other way. -/
def Drift (t t' : FileTree) (lost : Place → Prop) : Prop := ∀ q, Change t t' lost q

variable {lost : Place → Prop}

theorem Drift.dir_iff (drift : Drift t t' lost) (q : Place) : t'.get? q = some .dir ↔ t.get? q = some .dir := by
  rcases drift q with same | ⟨before,after⟩ | ⟨link,after⟩
  · rw [same]
  · constructor
    · intro dir
      exact absurd (dir ▸ after) not_leaf_dir
    · intro dir
      exact absurd (dir ▸ before) not_leaf_dir
  · constructor
    · intro dir
      exact absurd (dir ▸ after) not_leaf_dir
    · intro dir
      rw [dir] at link
      cases link

theorem Drift.rooted (drift : Drift t t' lost) (rooted : Rooted t) : Rooted t' := by
  intro p dir
  exact (drift.dir_iff _).mpr (rooted p ((drift.dir_iff p).mp dir))

/-- No link comes. -/
theorem Drift.link_before (drift : Drift t t' lost) (link : t'.get? q = some (.link target)) :
    t.get? q = some (.link target) := by
  rcases drift q with same | ⟨_,after⟩ | ⟨_,after⟩
  · exact same.symm.trans link
  · exact absurd (link ▸ after) not_leaf_link
  · exact absurd (link ▸ after) not_leaf_link

/-- Special files stay as they are, and none comes. -/
theorem Drift.special_iff {kind : Special} (drift : Drift t t' lost) (q : Place) :
    t'.get? q = some (.special kind) ↔ t.get? q = some (.special kind) := by
  rcases drift q with same | ⟨before,after⟩ | ⟨link,after⟩
  · rw [same]
  · constructor
    · intro special
      exact absurd (special ▸ after) not_leaf_special
    · intro special
      exact absurd (special ▸ before) not_leaf_special
  · constructor
    · intro special
      exact absurd (special ▸ after) not_leaf_special
    · intro special
      rw [special] at link
      cases link

theorem walks_leaf (dir : t.get? p = some .dir) (own : Proceeds aim name []) (leaf : Leaf (t.get? (p ++ [name]))) :
    Walks t aim links p [name] (p ++ [name]) := by
  rcases leaf with nothing | ⟨content,file⟩
  · exact .absent dir own nothing
  · exact .enter dir own file (by simp) .done

/-- A walk that ends at no link and not at a place `lost` goes the same way after
the change. -/
theorem Drift.walks (drift : Drift t t' lost) (walks : Walks t aim links p s q)
    (solid : ∀ target, t.get? q ≠ some (.link target)) (kept : ¬lost q) : Walks t' aim links p s q := by
  induction walks with
  | done => exact .done
  | stay dir idle _ ih => exact .stay ((drift.dir_iff _).mpr dir) idle (ih solid kept)
  | up dir _ ih => exact .up ((drift.dir_iff _).mpr dir) (ih solid kept)
  | absent dir own nothing =>
    have dir' := (drift.dir_iff _).mpr dir
    rcases drift _ with same | ⟨_,after⟩ | ⟨link⟩
    · exact .absent dir' own (same.trans nothing)
    · exact walks_leaf dir' own after
    · rw [nothing] at link
      cases link
  | halt _ _ _ link => exact absurd link (solid _)
  | @follow links p q name rest target dir own more link further ih =>
    have dir' := (drift.dir_iff _).mpr dir
    rcases drift (p ++ [name]) with same | ⟨before⟩ | ⟨link',_,_,leads,lost,leaf⟩
    · exact .follow dir' own more (same.trans link) (ih solid kept)
    · exact absurd (link ▸ before) not_leaf_link
    · -- A link that is gone led to a place `lost`: the walk does not go through there.
      rw [link] at link'
      cases link'
      rw [List.dropLast_concat] at leads
      cases rest with
      | nil =>
        rw [List.append_nil] at further
        obtain rfl := leads.unique ⟨_,further.content solid⟩
        exact absurd lost kept
      | cons next rest =>
        obtain ⟨d,_,_,before,middle,_⟩ := further.split
        obtain rfl := leads.unique ⟨_,before⟩
        exact absurd (middle ▸ leaf) not_leaf_dir
  | @enter links p q name rest n dir own node other further ih =>
    have dir' := (drift.dir_iff _).mpr dir
    cases n with
    | link target => exact absurd rfl (other target)
    | dir => exact .enter dir' own ((drift.dir_iff _).mpr node) (by simp) (ih solid kept)
    | special =>
      obtain ⟨rfl,rfl⟩ := further.of_node node (by simp)
      exact .enter dir' own ((drift.special_iff _).mpr node) (by simp) .done
    | file content =>
      obtain ⟨rfl,rfl⟩ := further.of_node node (by simp)
      refine walks_leaf dir' own ?_
      rcases drift (p ++ [name]) with same | ⟨_,after⟩ | ⟨link⟩
      · exact .inr ⟨content,same.trans node⟩
      · exact after
      · rw [node] at link
        cases link

/-- What stands where a walk ends after the change is no directory, and there was no
link there: a file or nothing was there before. -/
theorem Drift.leaf_before (drift : Drift t t' lost) (after : Leaf (t'.get? q))
    (solid : ∀ target, t.get? q ≠ some (.link target)) : Leaf (t.get? q) := by
  rcases drift q with same | ⟨before,_⟩ | ⟨link⟩
  · exact same ▸ after
  · exact before
  · exact absurd link (solid _)

/-- A walk to where the path led before, to no link, went the same way before the
change. -/
theorem Drift.walks_back (drift : Drift t t' lost) (walks : Walks t' aim links p s q) (leads : Leads t p s q)
    (solid : ∀ target, t.get? q ≠ some (.link target)) : Walks t aim links p s q := by
  induction walks with
  | done => exact .done
  | stay dir idle _ ih => exact .stay ((drift.dir_iff _).mp dir) idle (ih (leads.of_stay idle) solid)
  | up dir _ ih => exact .up ((drift.dir_iff _).mp dir) (ih leads.of_up solid)
  | absent dir own nothing =>
    exact walks_leaf ((drift.dir_iff _).mp dir) own (drift.leaf_before (.inl nothing) solid)
  | halt _ _ _ link => exact absurd (drift.link_before link) (solid _)
  | follow dir own more link _ ih =>
    have link' := drift.link_before link
    exact .follow ((drift.dir_iff _).mp dir) own more link' (ih (leads.of_link own link') solid)
  | @enter links p q name rest n dir own node other further ih =>
    have dir' := (drift.dir_iff _).mp dir
    cases n with
    | link target => exact absurd rfl (other target)
    | dir =>
      have node' := (drift.dir_iff _).mp node
      exact .enter dir' own node' (by simp) (ih (leads.of_node own node' (by simp)) solid)
    | special =>
      obtain ⟨rfl,rfl⟩ := further.of_node node (by simp)
      exact .enter dir' own ((drift.special_iff _).mp node) (by simp) .done
    | file content =>
      obtain ⟨rfl,rfl⟩ := further.of_node node (by simp)
      exact walks_leaf dir' own (drift.leaf_before (.inr ⟨content,node⟩) solid)

theorem Leads.stay (leads : Leads t p rest q) (dir : t.get? p = some .dir) (idle : name = here ∨ name = slashStep) :
    Leads t p (name :: rest) q := by
  obtain ⟨links,further⟩ := leads
  exact ⟨links,.stay dir idle further⟩

theorem Leads.up (leads : Leads t p.dropLast rest q) (dir : t.get? p = some .dir) : Leads t p (above :: rest) q := by
  obtain ⟨links,further⟩ := leads
  exact ⟨links,.up dir further⟩

theorem Leads.follow (leads : Leads t (base p target) (steps target ++ rest) q) (dir : t.get? p = some .dir)
    (own : Proceeds .content name rest) (link : t.get? (p ++ [name]) = some (.link target)) :
    Leads t p (name :: rest) q := by
  obtain ⟨links,further⟩ := leads
  exact ⟨links + 1,.follow dir own (not_entry _) link further⟩

theorem Leads.enter {n : Node} (leads : Leads t (p ++ [name]) rest q) (dir : t.get? p = some .dir)
    (own : Proceeds .content name rest) (node : t.get? (p ++ [name]) = some n) (solid : ∀ target, n ≠ .link target) :
    Leads t p (name :: rest) q := by
  obtain ⟨links,further⟩ := leads
  exact ⟨links,.enter dir own node solid further⟩

/-- Where a path led that now leads to `q`: to the same place, where at most files
have come or gone, or to a place `lost`. -/
def Led (t t' : FileTree) (lost : Place → Prop) (p : Place) (s : List Name) (q : Place) : Prop :=
  (Leads t p s q ∧ (t'.get? q = t.get? q ∨ Leaf (t.get? q))) ∨ ∃ r, Leads t p s r ∧ lost r ∧ Leaf (t.get? r)

theorem Led.map {p' : Place} {s' : List Name} (led : Led t t' lost p s q)
    (step : ∀ r, Leads t p s r → Leads t p' s' r) : Led t t' lost p' s' q := by
  rcases led with ⟨leads,same⟩ | ⟨r,leads,lost,leaf⟩
  · exact .inl ⟨step q leads,same⟩
  · exact .inr ⟨r,step r leads,lost,leaf⟩

/-- The last step to a place that is no link now. -/
theorem Drift.led_last (drift : Drift t t' lost) (dir : t.get? p = some .dir) (own : Proceeds .content name [])
    (after : Leaf (t'.get? (p ++ [name]))) : Led t t' lost p [name] (p ++ [name]) := by
  rcases drift (p ++ [name]) with same | ⟨before⟩ | ⟨link,_,_,leads,lost,leaf⟩
  · exact .inl ⟨⟨0,walks_leaf dir own (same ▸ after)⟩,.inl same⟩
  · exact .inl ⟨⟨0,walks_leaf dir own before⟩,.inr before⟩
  · rw [List.dropLast_concat] at leads
    refine .inr ⟨_,.follow ?_ dir own link,lost,leaf⟩
    rw [List.append_nil]
    exact leads

/-- What a path leads to after the change it led to before, unless it led to a
place `lost`. -/
theorem Drift.led (drift : Drift t t' lost) (rooted : Rooted t) (dir : t.get? p = some .dir)
    (leads : Leads t' p s q) : Led t t' lost p s q := by
  obtain ⟨links,walks⟩ := leads
  induction walks with
  | @done _ p =>
    exact .inl ⟨⟨0,.done⟩,.inl (((drift.dir_iff p).mpr dir).trans dir.symm)⟩
  | stay _ idle _ ih => exact (ih dir).map fun r leads => leads.stay dir idle
  | up _ _ ih => exact (ih (rooted _ dir)).map fun r leads => leads.up dir
  | absent _ own nothing =>
    exact drift.led_last dir own (.inl nothing)
  | halt _ _ entry =>
    cases entry
  | follow _ own _ link _ ih =>
    exact (ih (base_dir dir _)).map fun r leads => leads.follow dir own (drift.link_before link)
  | @enter links p q name rest n _ own node solid further ih =>
    cases n with
    | link target => exact absurd rfl (solid target)
    | dir =>
      have before := (drift.dir_iff _).mp node
      exact (ih before).map fun r leads => leads.enter dir own before (by simp)
    | special =>
      obtain ⟨rfl,rfl⟩ := further.of_node node (by simp)
      have before := (drift.special_iff _).mp node
      exact .inl ⟨⟨0,.enter dir own before (by simp) .done⟩,.inl (node.trans before.symm)⟩
    | file content =>
      obtain ⟨rfl,rfl⟩ := further.of_node node (by simp)
      exact drift.led_last dir own (.inr ⟨content,node⟩)

/-! ## Single changes and many -/

theorem Drift.refl (t : FileTree) (lost : Place → Prop) : Drift t t lost := fun _ => .same rfl

theorem Drift.mono {lost' : Place → Prop} (drift : Drift t t' lost) (more : ∀ r, lost r → lost' r) :
    Drift t t' lost' := by
  intro q
  rcases drift q with same | ⟨before,after⟩ | ⟨link,after,dir,leads,gone,leaf⟩
  · exact .same same
  · exact .leaf before after
  · exact .unlinked link after dir leads (more _ gone) leaf

/-- Only a file or nothing is lost. -/
theorem Drift.leaves (drift : Drift t t' lost) : Drift t t' fun r => lost r ∧ Leaf (t.get? r) := by
  intro q
  rcases drift q with same | ⟨before,after⟩ | ⟨link,after,dir,leads,gone,leaf⟩
  · exact .same same
  · exact .leaf before after
  · exact .unlinked link after dir leads ⟨gone,leaf⟩ leaf

theorem Leaf.ne_nil (leaf : Leaf (t.get? p)) : p ≠ [] := by
  rintro rfl
  rcases leaf with nothing | ⟨_,file⟩
  · cases nothing
  · cases file

theorem drift_put (leaf : Leaf (t.get? p)) (content : List UInt8) : Drift t (t.put p (.file content)) lost := by
  intro q
  by_cases same : q = p
  · subst same
    exact .leaf leaf (by rw [get?_put leaf.ne_nil,if_pos rfl]; exact .inr ⟨content,rfl⟩)
  · exact .same (by rw [get?_put leaf.ne_nil,if_neg same])

theorem drift_erase (leaf : Leaf (t.get? p)) : Drift t (t.erase p) lost := by
  intro q
  by_cases same : q = p
  · subst same
    exact .leaf leaf (by rw [get?_erase leaf.ne_nil,if_pos rfl]; exact .inl rfl)
  · exact .same (by rw [get?_erase leaf.ne_nil,if_neg same])

theorem drift_unlink (link : t.get? p = some (.link target)) (dir : t.get? p.dropLast = some .dir)
    (leads : Leads t (base p.dropLast target) (steps target) r) (gone : lost r) (leaf : Leaf (t.get? r)) :
    Drift t (t.erase p) lost := by
  have root : p ≠ [] := by
    rintro rfl
    cases link
  intro q
  by_cases same : q = p
  · subst same
    exact .unlinked link (by rw [get?_erase root,if_pos rfl]; exact .inl rfl) dir leads gone leaf
  · exact .same (by rw [get?_erase root,if_neg same])

/-- Changes one after the other; what a link led to in between it led to before,
or to a place `lost`. -/
theorem Drift.trans {t'' : FileTree} (first : Drift t t' lost) (second : Drift t' t'' lost) (rooted : Rooted t) :
    Drift t t'' lost := by
  intro q
  rcases first q with same | ⟨before,middle⟩ | ⟨link,middle,dir,leads,gone,leaf⟩
  · rcases second q with same' | ⟨middle,after⟩ | ⟨link,after,dir,leads,gone,leaf⟩
    · exact .same (same'.trans same)
    · exact .leaf (same ▸ middle) after
    · rw [same] at link
      have dir' := (first.dir_iff _).mp dir
      rcases first.led rooted (base_dir dir' _) leads with ⟨leads',kept⟩ | ⟨r',leads',gone',leaf'⟩
      · refine .unlinked link after dir' leads' gone ?_
        rcases kept with kept | kept
        · exact kept ▸ leaf
        · exact kept
      · exact .unlinked link after dir' leads' gone' leaf'
  · rcases second q with same | ⟨_,after⟩ | ⟨link⟩
    · exact .leaf before (same ▸ middle)
    · exact .leaf before after
    · exact absurd (link ▸ middle) not_leaf_link
  · rcases second q with same | ⟨_,after⟩ | ⟨link'⟩
    · exact .unlinked link (same ▸ middle) dir leads gone leaf
    · exact .unlinked link after dir leads gone leaf
    · exact absurd (link' ▸ middle) not_leaf_link

end

end Lockstep.FileTree
