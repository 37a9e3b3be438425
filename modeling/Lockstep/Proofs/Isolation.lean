import Lockstep.Proofs.Discards

/-!
# Files do not disturb each other

What trying a file comes to is settled by the tree at the start of the pass and by
what the codec does with that file (`outcome`, `compress_outcome`): other files change
nothing at the places it has to do with, and it changes nothing at theirs. So a codec
that does something else with one file makes no difference to the others, and the order
in which files are tried makes none at all (`pass_isolates`).

As in the division of a pass, a link in the place of an output must lead out of both
directories, and what stands where an output goes must be an ordinary file, neither
special nor one of two names. Where a link leads to the output of another file, what
becomes of that file is up to both (`spoiled_output`).
-/

namespace Lockstep.Mover

open FileTree (Leads Walks Drift Leaf Rooted Proper ProperName)

/-! ## Codecs that do the same -/

/-- What is seen of a codec: what it wrote and how it ended, or nothing if it could not
be started. -/
def reply (answer : Except SystemError CodecRun) : Option (List UInt8 × Exit) :=
  answer.toOption.map fun run => (run.output,run.exit)

/-- What is read by the path of a file, if anything. -/
def reading (m : Mover) (t : FileTree) (name : Name) : Option (List UInt8) :=
  (t.readFile m.cwd (m.sourcePath name)).toOption

/-- Two codecs do the same with a file wherever the same is read from it. -/
def Alike (m : Mover) (codec codec' : Codec) (name : Name) : Prop :=
  ∀ t t', m.reading t name = m.reading t' name →
    reply (codec t (m.sourcePath name)) = reply (codec' t' (m.sourcePath name))

section
variable {m : Mover} {codec codec' : Codec} {t t' : FileTree} {dir dest p q r : Place} {name : Name}
  {names done later : List Name} {content : List UInt8} {lost places : Place → Prop} {progress : Progress}

theorem Alike.symm (alike : m.Alike codec codec' name) : m.Alike codec' codec name :=
  fun t t' same => (alike t' t same.symm).symm

theorem Alike.self (alike : m.Alike codec codec' name) : m.Alike codec codec name :=
  fun t t' same => (alike t t' same).trans (alike t' t' rfl).symm

/-! ## Where a file has a part -/

/-- The places that have to do with a file: its own and those its output may take. -/
def Concerns (m : Mover) (t : FileTree) (dir dest : Place) (name : Name) (q : Place) : Prop :=
  q = dir ++ [name] ∨ m.Taken t dest name q

/-- No place has to do with two files. -/
theorem Grounds.concerns_inj (grounds : Grounds m t dir dest) {a b : Name} (first : m.Candidate t dir a)
    (second : m.Candidate t dir b) (concerns : m.Concerns t dir dest a q) (concerns' : m.Concerns t dir dest b q) : a = b := by
  rcases concerns with rfl | taken
  · rcases concerns' with same | taken'
    · exact (List.cons.inj (List.append_cancel_left same)).1
    · exact absurd (List.prefix_append dir _) (grounds.taken second taken').1
  · rcases concerns' with rfl | taken'
    · exact absurd (List.prefix_append dir _) (grounds.taken first taken).1
    · by_cases inside : dest <+: q
      · have same := ((grounds.taken first taken).2 inside).symm.trans ((grounds.taken second taken').2 inside)
        have names := (List.cons.inj (List.append_cancel_left same)).1
        exact List.append_cancel_right names
      · rcases taken with rfl | ⟨outputs,free⟩
        · exact absurd (List.prefix_append dest _) inside
        · rcases taken' with rfl | ⟨outputs',_⟩
          · exact absurd (List.prefix_append dest _) inside
          · exact grounds.output_inj first second free outputs outputs'

/-! ## The source of a file while a tree drifts -/

/-- The path of a file leads to that file. -/
theorem source_leads (source : t.find .content m.cwd m.sourceDir = .ok (dir,some .dir)) (proper : ProperName name)
    (file : t.get? (dir ++ [name]) = some (.file content))
    (leads : Leads t (FileTree.origin m.cwd (m.sourcePath name)) (FileTree.steps (m.sourcePath name)) q) :
    q = dir ++ [name] := by
  obtain ⟨_,there,_⟩ := find_eq_ok_iff.mp source
  have some := path_ne_nil source
  obtain ⟨_,walks⟩ := leads
  rw [sourcePath,FileTree.steps_join some proper,FileTree.origin_join some] at walks
  obtain ⟨d,_,_,before,_,last⟩ := walks.split
  obtain rfl := Leads.unique ⟨_,before⟩ (FileTree.Leads.names ⟨_,there⟩)
  refine last.last proper ?_
  intro target link
  rw [file] at link
  cases link

theorem reading_eq_some_iff {c : List UInt8} (source : t.find .content m.cwd m.sourceDir = .ok (dir,some .dir))
    (proper : ProperName name) (file : t.get? (dir ++ [name]) = some (.file content)) :
    m.reading t name = some c ↔ t.find .content m.cwd (m.sourcePath name) = .ok (dir ++ [name],some (.file c)) := by
  constructor
  · intro read
    unfold reading FileTree.readFile at read
    cases found : t.find .content m.cwd (m.sourcePath name) with
    | error e =>
      rw [found] at read
      cases read
    | ok there =>
      obtain ⟨q,n⟩ := there
      obtain ⟨_,walks,same⟩ := find_eq_ok_iff.mp found
      obtain rfl := source_leads source proper file ⟨_,walks⟩
      rw [file] at same
      subst same
      rw [found] at read
      cases read
      rfl
  · intro found
    rw [reading,readFile_of_find found]
    rfl

theorem remove_source_iff (rooted : Rooted t) (source : t.find .content m.cwd m.sourceDir = .ok (dir,some .dir))
    (proper : ProperName name) (file : t.get? (dir ++ [name]) = some (.file content)) :
    t.remove m.cwd (m.sourcePath name) = .ok t' ↔ t' = t.erase (dir ++ [name]) ∧ t.isGuarded dir = false ∧
      t.find .entry m.cwd (m.sourcePath name) = .ok (dir ++ [name],some (.file content)) := by
  constructor
  · intro removed
    obtain ⟨q,n,found,free,_,rfl⟩ := exists_of_remove removed
    obtain rfl := entry_place rooted (.refl t fun _ => False) source proper found
    obtain ⟨_,_,same⟩ := find_eq_ok_iff.mp found
    rw [file] at same
    rw [List.dropLast_concat] at free
    exact ⟨rfl,free,same ▸ found⟩
  · rintro ⟨rfl,free,found⟩
    rw [remove_of_find found (by simp),List.dropLast_concat,free]
    rfl

/-- A file is in a tree as it was in `t`, and so is the way to it. -/
structure Intact (m : Mover) (t : FileTree) (dir : Place) (name : Name) (tree : FileTree) : Prop where
  proper : ProperName name
  rooted : Rooted t
  source : t.find .content m.cwd m.sourceDir = .ok (dir,some .dir)
  file : ∃ content, t.get? (dir ++ [name]) = some (.file content) ∧ tree.get? (dir ++ [name]) = some (.file content)
  drift : ∃ lost, Drift t tree lost ∧ ¬lost (dir ++ [name])
  guard : tree.isGuarded dir = t.isGuarded dir

section
variable {tree : FileTree}

theorem Intact.source_now (intact : Intact m t dir name tree) :
    tree.find .content m.cwd m.sourceDir = .ok (dir,some .dir) := by
  obtain ⟨lost,drift,_⟩ := intact.drift
  exact find_dir drift intact.source

/-- The path of the file leads to it if it did before. -/
theorem Intact.find_iff {aim : FileTree.Aim} {n : Node} (intact : Intact m t dir name tree) :
    tree.find aim m.cwd (m.sourcePath name) = .ok (dir ++ [name],some n) ↔
      t.find aim m.cwd (m.sourcePath name) = .ok (dir ++ [name],some n) := by
  obtain ⟨content,file,file'⟩ := intact.file
  obtain ⟨lost,drift,kept⟩ := intact.drift
  rw [find_eq_ok_iff,find_eq_ok_iff,file,file']
  refine and_congr_right fun _ => and_congr_left fun _ => ⟨?_,?_⟩
  · intro walks
    have steps := walks
    rw [sourcePath,FileTree.steps_join (path_ne_nil intact.source) intact.proper] at steps
    have start := (drift.dir_iff _).mp steps.start
    rcases drift.led intact.rooted start ⟨_,walks.content (by simp [file'])⟩ with ⟨leads,_⟩ | ⟨r,leads,gone,_⟩
    · exact drift.walks_back walks leads (by simp [file])
    · obtain rfl := source_leads intact.source intact.proper file leads
      exact absurd gone kept
  · intro walks
    exact drift.walks walks (by simp [file]) kept

/-- What is read from the file is what was read before. -/
theorem Intact.reading_eq (intact : Intact m t dir name tree) : m.reading tree name = m.reading t name := by
  obtain ⟨content,file,file'⟩ := intact.file
  ext c
  rw [reading_eq_some_iff intact.source_now intact.proper file',reading_eq_some_iff intact.source intact.proper file,
    intact.find_iff]

/-- The file can be removed if it could be before. -/
theorem Intact.remove_iff (intact : Intact m t dir name tree) :
    tree.remove m.cwd (m.sourcePath name) = .ok t' ↔
      t' = tree.erase (dir ++ [name]) ∧ ∃ after, t.remove m.cwd (m.sourcePath name) = .ok after := by
  obtain ⟨content,file,file'⟩ := intact.file
  obtain ⟨lost,drift,_⟩ := intact.drift
  rw [remove_source_iff (drift.rooted intact.rooted) intact.source_now intact.proper file',intact.find_iff,intact.guard]
  simp only [remove_source_iff intact.rooted intact.source intact.proper file,exists_eq_left]

end

/-! ## What trying a file comes to -/

/-- Takes an output away again, if that is allowed in the tree `t` at the start of the
pass. -/
def discarding (m : Mover) (t : FileTree) (dest : Place) (name : Name) (tree : FileTree) : FileTree :=
  if t.isGuarded dest then tree else tree.erase (dest ++ [m.outputName name])

/-- The change to a tree, and whether the file is moved, when the codec does as `said`.
Where the output goes and what is allowed is told by the tree `t` at the start of the
pass. -/
def outcome (m : Mover) (t : FileTree) (dir dest : Place) (name : Name) (said : Option (List UInt8 × Exit)) :
    (FileTree → FileTree) × Bool :=
  match t.create m.cwd (m.destPath name) with
  | .refused _ | .stuck => (id,false)
  | .opened r _ =>
    match said with
    | none => (fun tree => m.discarding t dest name (tree.put r (.file [])),false)
    | some (output,exit) =>
      if exit = .code 0 then
        match t.remove m.cwd (m.sourcePath name) with
        | .ok _ => (fun tree => (tree.put r (.file output)).erase (dir ++ [name]),true)
        | .error _ => (fun tree => tree.put r (.file output),false)
      else (fun tree => m.discarding t dest name (tree.put r (.file output)),false)

/-- A change that is the same for all trees: at one of the places it leaves there what
it leaves in every tree, and elsewhere what was there. -/
def Fixed (change : FileTree → FileTree) (places : Place → Prop) : Prop :=
  ∀ q, (places q ∧ ∃ n, ∀ tree, (change tree).get? q = n) ∨ ∀ tree, (change tree).get? q = tree.get? q

theorem Fixed.elsewhere {change : FileTree → FileTree} (fixed : Fixed change places) (elsewhere : ¬places q)
    (tree : FileTree) : (change tree).get? q = tree.get? q := by
  rcases fixed q with ⟨here,_⟩ | same
  · exact absurd here elsewhere
  · exact same tree

theorem Fixed.congr {change : FileTree → FileTree} {tree tree' : FileTree} (fixed : Fixed change places)
    (same : tree.get? q = tree'.get? q) : (change tree).get? q = (change tree').get? q := by
  rcases fixed q with ⟨_,n,left⟩ | kept
  · rw [left,left]
  · rw [kept,kept,same]

theorem fixed_put (root : r ≠ []) (here : places r) (n : Node) : Fixed (fun tree => tree.put r n) places := by
  intro q
  by_cases same : q = r
  · subst same
    exact .inl ⟨here,some n,fun tree => get?_put_self root n⟩
  · exact .inr fun tree => by rw [FileTree.get?_put root,if_neg same]

theorem Fixed.erase {change : FileTree → FileTree} (fixed : Fixed change places) (root : p ≠ []) (here : places p) :
    Fixed (fun tree => (change tree).erase p) places := by
  intro q
  by_cases same : q = p
  · subst same
    exact .inl ⟨here,none,fun tree => by rw [FileTree.get?_erase root,if_pos rfl]⟩
  · have kept (tree : FileTree) : ((change tree).erase p).get? q = (change tree).get? q := by
      rw [FileTree.get?_erase root,if_neg same]
    simp only [kept]
    exact fixed q

theorem Fixed.discarding {change : FileTree → FileTree} (fixed : Fixed change places)
    (here : places (dest ++ [m.outputName name])) : Fixed (fun tree => m.discarding t dest name (change tree)) places := by
  unfold Mover.discarding
  split
  · exact fixed
  · exact fixed.erase (by simp) here

/-- Trying a file changes nothing but what has to do with it. -/
theorem outcome_fixed (m : Mover) (t : FileTree) (dir dest : Place) (name : Name) (said : Option (List UInt8 × Exit)) :
    Fixed (m.outcome t dir dest name said).1 (m.Concerns t dir dest name) := by
  have own : m.Concerns t dir dest name (dir ++ [name]) := .inl rfl
  have entry : m.Concerns t dir dest name (dest ++ [m.outputName name]) := .inr (.inl rfl)
  unfold outcome
  cases created : t.create m.cwd (m.destPath name) with
  | refused | stuck => exact fun q => .inr fun tree => rfl
  | opened r _ =>
    obtain ⟨opened,_⟩ := exists_of_create created
    obtain ⟨_,walks,other⟩ := target_eq_ok_iff.mp opened
    have here : m.Concerns t dir dest name r :=
      .inr (.inr ⟨outputs_iff.mpr ⟨_,walks.content_of_ne (by decide)⟩,other⟩)
    have put (content : List UInt8) : Fixed (fun tree => tree.put r (.file content)) (m.Concerns t dir dest name) :=
      fixed_put (ne_root other) here _
    cases said with
    | none => exact (put []).discarding entry
    | some run =>
      obtain ⟨output,exit⟩ := run
      simp only
      split
      · split
        · exact (put output).erase (by simp) own
        · exact put output
      · exact (put output).discarding entry

/-- What is removed again when the codec fails is the entry of the output's name. -/
theorem discard_eq (rooted : Rooted t) (drift : Drift t t' lost) (proper : ProperName name)
    (proper' : ProperName (m.outputName name)) (target : t.find .content m.cwd m.destDir = .ok (dest,some .dir))
    (ordinary : t'.Ordinary r) (opened : t'.target m.cwd (m.destPath name) = .ok r) (content : List UInt8) :
    (m.discard (t'.put r (.file content)) (m.destPath name)).1 =
      m.discarding t' dest name (t'.put r (.file content)) := by
  obtain ⟨sound,leaf,walks⟩ := exists_of_target (drift.rooted rooted) proper ordinary opened
  have written : Drift t' (t'.put r (.file content)) lost := FileTree.drift_put leaf content
  have walks' : Walks (t'.put r (.file content)) .content FileTree.linkLimit
      (FileTree.origin m.cwd (m.destPath name)) (FileTree.steps (m.destPath name)) r := by
    have plain : Drift t' (t'.put r (.file content)) fun _ => False := FileTree.drift_put leaf content
    exact plain.walks walks (Leaf.solid leaf) id
  have file := get?_put_self (t := t') leaf.ne_nil (.file content)
  -- The output can be opened, so its path names an entry.
  obtain ⟨q,entry⟩ := walks'.entry
  have found := find_eq_ok_iff.mpr ⟨sound,entry,rfl⟩
  obtain rfl := entry_place rooted (drift.trans written rooted) target proper' found
  have led (solid : ∀ target, (t'.put r (.file content)).get? (dest ++ [m.outputName name]) ≠ some (.link target)) :
      dest ++ [m.outputName name] = r := (entry.content solid).unique walks'
  obtain ⟨n,node,other⟩ : ∃ n, (t'.put r (.file content)).get? (dest ++ [m.outputName name]) = some n ∧ n ≠ .dir := by
    cases node : (t'.put r (.file content)).get? (dest ++ [m.outputName name]) with
    | none =>
      rw [led (by simp [node]),file] at node
      cases node
    | some n =>
      refine ⟨n,rfl,?_⟩
      rintro rfl
      rw [led (by simp [node]),file] at node
      cases node
  rw [node] at found
  have removed := remove_of_find found other
  rw [List.dropLast_concat,FileTree.isGuarded_put] at removed
  unfold discard discarding
  split at removed
  next guarded => rw [removed,if_pos guarded]
  next free => rw [removed,if_neg free]

/-- The next output is opened where it would have been before the pass, or not at all. -/
theorem Sofar.target_iff {b : Name} (sofar : Sofar m codec t dir names done progress) (ready : Ready m t dir names)
    (whole : names = done ++ b :: later) :
    progress.tree.target m.cwd (m.destPath b) = .ok r ↔ t.target m.cwd (m.destPath b) = .ok r := by
  obtain ⟨next,new⟩ := ready.next whole
  have proper := ready.proper b next
  constructor
  · intro opened
    obtain ⟨links,leads⟩ := outputs_iff.mp (sofar.outputs ready whole opened)
    obtain ⟨sound,walks,other⟩ := target_eq_ok_iff.mp opened
    have solid := leads.solid (by decide) ready.rooted (origin_dir proper leads)
    refine target_eq_ok_iff.mpr ⟨sound,sofar.drift.walks_back walks ⟨links,leads⟩ solid,?_⟩
    exact fun dir => other ((sofar.drift.dir_iff r).mpr dir)
  · intro opened
    obtain ⟨sound,walks,other⟩ := target_eq_ok_iff.mp opened
    have solid := walks.solid (by decide) ready.rooted (origin_dir proper walks)
    have kept : ¬∃ a ∈ done, m.Outputs t a r := by
      rintro ⟨a,before,outputs⟩
      have outputs' : m.Outputs t b r := outputs_iff.mpr ⟨_,walks.content_of_ne (by decide)⟩
      obtain rfl := ready.outputs a (ready.earlier whole a before).1 b next r other outputs outputs'
      exact new before
    refine target_eq_ok_iff.mpr ⟨sound,sofar.drift.walks walks solid kept,?_⟩
    exact fun dir => other ((sofar.drift.dir_iff r).mp dir)

section
variable {b : Name} {moved failed : List Name}

/-- What has to do with none of the files tried is as it was, and so is its guard. -/
theorem Parted.elsewhere (parted : Parted m t dir dest progress done moved failed)
    (none : ∀ a ∈ done, ¬m.Concerns t dir dest a q) :
    progress.tree.get? q = t.get? q ∧ progress.tree.isGuarded q = t.isGuarded q := by
  have apart : ¬((∃ name ∈ moved, q = dir ++ [name]) ∨ ∃ name ∈ done, m.Taken t dest name q) := by
    rintro (⟨a,gone,same⟩ | ⟨a,member,taken⟩)
    · exact none a (parted.told.order.1.subset gone) (.inl same)
    · exact none a member (.inr taken)
  exact ⟨parted.edited.get?_eq apart,parted.edited.isGuarded_eq apart⟩

/-- The guards of the two directories stay as they are. -/
theorem Parted.isGuarded_eq (grounds : Grounds m t dir dest) (candidates : ∀ a ∈ done, m.Candidate t dir a)
    (parted : Parted m t dir dest progress done moved failed) :
    progress.tree.isGuarded dir = t.isGuarded dir ∧ progress.tree.isGuarded dest = t.isGuarded dest := by
  constructor
  · refine (parted.elsewhere ?_).2
    rintro a member (same | taken)
    · simp at same
    · exact (grounds.taken (candidates a member) taken).1 (List.prefix_refl dir)
  · refine (parted.elsewhere ?_).2
    rintro a member (same | taken)
    · exact grounds.not_inside' [a] (same ▸ List.prefix_refl dest)
    · have same := (grounds.taken (candidates a member) taken).2 (List.prefix_refl dest)
      simp at same

/-- What is allowed where an output goes has been allowed before the pass. -/
theorem Parted.mayOpen_eq (grounds : Grounds m t dir dest) (ready : Ready m t dir names)
    (candidates : ∀ name ∈ names, m.Candidate t dir name) (whole : names = done ++ b :: later)
    (parted : Parted m t dir dest progress done moved failed) (opened : t.target m.cwd (m.destPath b) = .ok r) :
    progress.tree.mayOpen r = t.mayOpen r := by
  obtain ⟨next,new⟩ := ready.next whole
  obtain ⟨_,walks,other⟩ := target_eq_ok_iff.mp opened
  have leads := walks.content_of_ne (by decide)
  have taken : m.Taken t dest b r := .inr ⟨outputs_iff.mpr ⟨_,leads⟩,other⟩
  have earlier : ∀ a ∈ done, m.Candidate t dir a := fun a before => candidates a (ready.earlier whole a before).1
  obtain ⟨same,guard⟩ := parted.elsewhere (q := r) fun a before concerns => by
    obtain rfl := grounds.concerns_inj (earlier a before) (candidates b next) concerns (.inr taken)
    exact new before
  unfold FileTree.mayOpen
  rw [same]
  cases node : t.get? r with
  | some n => simp only [Option.isSome_some,if_true,guard]
  | none =>
    -- What may be made is settled by the directory around it, and no file tried has to do with that.
    have above := leads.dir_of_none (origin_dir (ready.proper b next) leads) ready.rooted node
    have guard' : progress.tree.isGuarded r.dropLast = t.isGuarded r.dropLast := by
      refine (parted.elsewhere ?_).2
      rintro a before (same | same | ⟨_,free⟩)
      · obtain ⟨content,file⟩ := ready.files a (ready.earlier whole a before).1
        rw [same,file] at above
        cases above
      · obtain ⟨name,root⟩ : ∃ name, r = r.dropLast ++ [name] :=
          ⟨_,(List.dropLast_append_getLast (ne_root other)).symm⟩
        have inside : dest <+: r := by
          rw [root,same,List.append_assoc]
          exact List.prefix_append _ _
        have place := (grounds.taken (candidates b next) taken).2 inside
        rw [root,same] at place
        simp at place
      · exact free above
    simp only [Option.isSome_none,Bool.false_eq_true,if_false,guard']

/-- When an output has been opened, the file is still as it was before the pass. -/
theorem Sofar.intact (sofar : Sofar m codec t dir names done progress) (ready : Ready m t dir names)
    (whole : names = done ++ b :: later) (guard : progress.tree.isGuarded dir = t.isGuarded dir)
    (opened : progress.tree.target m.cwd (m.destPath b) = .ok r) (output : List UInt8) :
    Intact m t dir b (progress.tree.put r (.file output)) := by
  obtain ⟨next,new⟩ := ready.next whole
  have proper := ready.proper b next
  obtain ⟨_,ordinary⟩ := sofar.ordinary ready whole opened
  obtain ⟨_,leaf,_⟩ := exists_of_target (sofar.drift.rooted ready.rooted) proper ordinary opened
  have apart : dir ++ [b] ≠ r := by
    rintro rfl
    exact ready.sources b next b next (sofar.outputs ready whole opened)
  obtain ⟨content,file⟩ := ready.files b next
  refine ⟨proper,ready.rooted,ready.source,⟨content,file,?_⟩,⟨_,
    sofar.drift.trans (FileTree.drift_put leaf output) ready.rooted,?_⟩,(FileTree.isGuarded_put _ dir).trans guard⟩
  · rw [FileTree.get?_put leaf.ne_nil,if_neg apart]
    exact sofar.waiting b next new content file
  · rintro ⟨a,before,outputs⟩
    exact ready.sources a (ready.earlier whole a before).1 b next outputs

/-- Trying a file comes to what the tree at the start of the pass and the codec's reply
say, and the reply is the one to that tree where the codec does the same with the same
content. -/
theorem compress_outcome (quiet : Quiet codec) (grounds : Grounds m t dir dest) (ready : Ready m t dir names)
    (candidates : ∀ name ∈ names, m.Candidate t dir name) (whole : names = done ++ b :: later)
    (sofar : Sofar m codec t dir names done progress) (parted : Parted m t dir dest progress done moved failed) :
    ∃ said, (m.Alike codec codec b → said = reply (codec t (m.sourcePath b))) ∧
      (m.compress codec progress.tree b).tree = (m.outcome t dir dest b said).1 progress.tree ∧
      ((m.compress codec progress.tree b).verdict = .moved ↔ (m.outcome t dir dest b said).2 = true) := by
  obtain ⟨next,_⟩ := ready.next whole
  have proper := ready.proper b next
  have target {r : Place} := sofar.target_iff ready whole (r := r)
  have idle (said : Option (List UInt8 × Exit)) {e e' : SystemError}
      (refused : progress.tree.create m.cwd (m.destPath b) = .refused e) (refused' : t.create m.cwd (m.destPath b) = .refused e') :
      (m.compress codec progress.tree b).tree = (m.outcome t dir dest b said).1 progress.tree ∧
        ((m.compress codec progress.tree b).verdict = .moved ↔ (m.outcome t dir dest b said).2 = true) := by
    simp only [compress,refused,outcome,refused']
    exact ⟨rfl,by simp⟩
  cases opened' : progress.tree.target m.cwd (m.destPath b) with
  | error e' =>
    cases opened : t.target m.cwd (m.destPath b) with
    | ok r =>
      rw [target.mpr opened] at opened'
      cases opened'
    | error e =>
      have refused' : progress.tree.create m.cwd (m.destPath b) = .refused e' := by simp only [FileTree.create,opened']
      have refused : t.create m.cwd (m.destPath b) = .refused e := by simp only [FileTree.create,opened]
      exact ⟨_,fun _ => rfl,idle _ refused' refused⟩
  | ok r =>
    have opened := target.mp opened'
    obtain ⟨ordinary,ordinary'⟩ := sofar.ordinary ready whole opened'
    have created' := create_of_target ordinary' opened'
    have created := create_of_target ordinary opened
    rw [parted.mayOpen_eq grounds ready candidates whole opened] at created'
    obtain ⟨guard,guard'⟩ := parted.isGuarded_eq grounds fun a before => candidates a (ready.earlier whole a before).1
    by_cases allowed : t.mayOpen r = true
    · rw [if_pos allowed] at created created'
      have intact := sofar.intact ready whole guard opened'
      have discarded (output : List UInt8) : (m.discard (progress.tree.put r (.file output)) (m.destPath b)).1 =
          m.discarding t dest b (progress.tree.put r (.file output)) := by
        rw [discard_eq ready.rooted sofar.drift proper (proper.append grounds.flat) grounds.target ordinary' opened' output,
          discarding,discarding,guard']
      refine ⟨reply (codec (progress.tree.put r (.file [])) (m.sourcePath b)),
        fun alike => alike _ _ (intact []).reading_eq,?_⟩
      cases called : codec (progress.tree.put r (.file [])) (m.sourcePath b) with
      | error e =>
        simp only [compress,created',called,discarded,outcome,created,reply,Except.toOption]
        exact ⟨rfl,by simp⟩
      | ok run =>
        obtain ⟨_,leaf,_⟩ := exists_of_target (sofar.drift.rooted ready.rooted) proper ordinary' opened'
        simp only [compress,created',called,written_eq quiet leaf.ne_nil ordinary' called,discarded,outcome,created,reply,
          Except.toOption,Option.map_some]
        by_cases success : run.exit = .code 0
        · simp only [if_pos success]
          cases removable : t.remove m.cwd (m.sourcePath b) with
          | ok after =>
            rw [(intact run.output).remove_iff.mpr ⟨rfl,after,removable⟩]
            exact ⟨rfl,by simp⟩
          | error e =>
            cases removed : (progress.tree.put r (.file run.output)).remove m.cwd (m.sourcePath b) with
            | ok after =>
              obtain ⟨_,_,removable'⟩ := (intact run.output).remove_iff.mp removed
              rw [removable] at removable'
              cases removable'
            | error e' => exact ⟨rfl,by simp⟩
        · simp [if_neg success]
    · rw [if_neg allowed] at created created'
      exact ⟨_,fun _ => rfl,idle _ created' created⟩

end

/-! ## A pass -/

/-- What a file comes to when it is tried alone. -/
def fate (m : Mover) (codec : Codec) (t : FileTree) (dir dest : Place) (name : Name) : (FileTree → FileTree) × Bool :=
  m.outcome t dir dest name (reply (codec t (m.sourcePath name)))

/-- A pass so far: a file with which the codec does the same wherever it reads the same
has come to what it comes to alone, and what has to do with no file is as it was. -/
structure Foreseen (m : Mover) (codec : Codec) (t : FileTree) (dir dest : Place) (p : Progress)
    (done moved failed : List Name) : Prop where
  told : Told m p.report done moved failed
  verdicts : ∀ a ∈ done, m.Alike codec codec a → (a ∈ moved ↔ (m.fate codec t dir dest a).2 = true)
  concerned : ∀ a ∈ done, m.Alike codec codec a → ∀ q, m.Concerns t dir dest a q →
    p.tree.get? q = ((m.fate codec t dir dest a).1 t).get? q
  others : ∀ q, (∀ a ∈ done, ¬m.Concerns t dir dest a q) → p.tree.get? q = t.get? q

section
variable {done' moved moved' failed failed' : List Name} {report report' : Report} {progress' : Progress}

theorem Foreseen.step {b : Name} (quiet : Quiet codec) (grounds : Grounds m t dir dest) (ready : Ready m t dir names)
    (candidates : ∀ name ∈ names, m.Candidate t dir name) (whole : names = done ++ b :: later)
    (sofar : Sofar m codec t dir names done progress) (parted : Parted m t dir dest progress done moved' failed')
    (free : (m.advance codec progress b).isStuck = false)
    (foreseen : Foreseen m codec t dir dest progress done moved failed) :
    ∃ moved' failed', Foreseen m codec t dir dest (m.advance codec progress b) (done ++ [b]) moved' failed' := by
  obtain ⟨next,_⟩ := ready.next whole
  obtain ⟨said,alone,tree,verdict⟩ := compress_outcome quiet grounds ready candidates whole sofar parted
  rw [← advance_tree sofar.free] at tree
  have fixed := outcome_fixed m t dir dest b said
  have apart : ∀ a ∈ done, ∀ q, m.Concerns t dir dest a q → ¬m.Concerns t dir dest b q := by
    intro a before q concerns concerns'
    obtain ⟨member,other⟩ := ready.earlier whole a before
    exact other (grounds.concerns_inj (candidates a member) (candidates b next) concerns concerns')
  have kept : ∀ q, ¬m.Concerns t dir dest b q → (m.advance codec progress b).tree.get? q = progress.tree.get? q := by
    intro q elsewhere
    rw [tree,fixed.elsewhere elsewhere]
  have concerned : ∀ a ∈ done ++ [b], m.Alike codec codec a → ∀ q, m.Concerns t dir dest a q →
      (m.advance codec progress b).tree.get? q = ((m.fate codec t dir dest a).1 t).get? q := by
    intro a member alike q concerns
    rcases List.mem_append.mp member with before | last
    · rw [kept q (apart a before q concerns)]
      exact foreseen.concerned a before alike q concerns
    · obtain rfl := List.mem_singleton.mp last
      -- No file before has to do with the place, so it is as it was at the start.
      have untouched := foreseen.others q fun c before concerns' => apart c before q concerns' concerns
      rw [tree,fate,← alone alike]
      exact fixed.congr untouched
  have others : ∀ q, (∀ a ∈ done ++ [b], ¬m.Concerns t dir dest a q) →
      (m.advance codec progress b).tree.get? q = t.get? q := by
    intro q none
    rw [kept q (none b (by simp))]
    exact foreseen.others q fun a before => none a (List.mem_append_left _ before)
  rcases foreseen.told.step sofar.free free with ⟨success,told⟩ | ⟨⟨e,failure⟩,told⟩
  · refine ⟨_,_,told,?_,concerned,others⟩
    intro a member alike
    rcases List.mem_append.mp member with before | last
    · rw [List.mem_append,List.mem_singleton,or_iff_left (ready.earlier whole a before).2]
      exact foreseen.verdicts a before alike
    · obtain rfl := List.mem_singleton.mp last
      rw [fate,← alone alike]
      exact iff_of_true (by simp) (verdict.mp success)
  · refine ⟨_,_,told,?_,concerned,others⟩
    intro a member alike
    rcases List.mem_append.mp member with before | last
    · exact foreseen.verdicts a before alike
    · obtain rfl := List.mem_singleton.mp last
      have new : a ∉ moved := fun gone => (ready.earlier whole a (foreseen.told.order.1.subset gone)).2 rfl
      rw [fate,← alone alike,← verdict,failure]
      exact iff_of_false new (by simp)

theorem Foreseen.run (quiet : Quiet codec) (grounds : Grounds m t dir dest) (ready : Ready m t dir names)
    (candidates : ∀ name ∈ names, m.Candidate t dir name) (whole : names = done ++ later) :
    ∃ moved failed, Foreseen m codec t dir dest (done.foldl (m.advance codec) (.start t)) done moved failed := by
  induction done using List.reverseRecOn generalizing later with
  | nil => exact ⟨[],[],⟨rfl,.refl _,.refl _,.refl _⟩,nofun,nofun,fun _ _ => rfl⟩
  | append_singleton done b ih =>
    rw [List.append_assoc,List.singleton_append] at whole
    obtain ⟨moved,failed,foreseen⟩ := ih whole
    obtain ⟨_,_,parted⟩ := Parted.run quiet grounds ready candidates whole
    have free := (Sofar.run quiet ready (whole.trans (List.append_cons done b later))).free
    rw [List.foldl_concat] at free ⊢
    exact foreseen.step quiet grounds ready candidates whole (Sofar.run quiet ready whole) parted free

/-- Two passes over the same files, in whatever order, with codecs that do the same with
most: these are moved by both or by neither, and the trees are the same where none of the
others has a part. -/
theorem Foreseen.agree (except : Name → Prop) (first : Foreseen m codec t dir dest progress done moved failed)
    (second : Foreseen m codec' t dir dest progress' done' moved' failed') (same : ∀ a, a ∈ done ↔ a ∈ done')
    (alike : ∀ a ∈ done, ¬except a → m.Alike codec codec' a) :
    (∀ a ∈ done, ¬except a → (a ∈ moved ↔ a ∈ moved')) ∧
      ∀ q, (∀ a ∈ done, except a → ¬m.Concerns t dir dest a q) → progress.tree.get? q = progress'.tree.get? q := by
  have fates : ∀ a ∈ done, ¬except a → m.fate codec t dir dest a = m.fate codec' t dir dest a := by
    intro a member spared
    rw [fate,fate,alike a member spared t t rfl]
  constructor
  · intro a member spared
    have alike := alike a member spared
    rw [first.verdicts a member alike.self,second.verdicts a ((same a).mp member) alike.symm.self,fates a member spared]
  · intro q none
    by_cases concerns : ∃ a ∈ done, m.Concerns t dir dest a q
    · obtain ⟨a,member,concerns⟩ := concerns
      have spared : ¬except a := fun excepted => none a member excepted concerns
      have alike := alike a member spared
      rw [first.concerned a member alike.self q concerns,second.concerned a ((same a).mp member) alike.symm.self q concerns,
        fates a member spared]
    · rw [first.others q fun a member here => concerns ⟨a,member,here⟩,
        second.others q fun a member here => concerns ⟨a,(same a).mpr member,here⟩]

/-! ## Reports -/

theorem Told.mem_moved (told : Told m report done moved failed) : m.sourcePath name ∈ report.moved ↔ name ∈ moved := by
  rw [told.report]
  exact List.mem_map_of_injective fun _ _ => join_inj

theorem Told.mem_failed (told : Told m report done moved failed) (nodup : done.Nodup) (member : name ∈ done) :
    m.sourcePath name ∈ report.failed ↔ m.sourcePath name ∉ report.moved := by
  rw [told.mem_moved,told.report]
  have once := (List.nodup_append.mp (told.perm.nodup_iff.mpr nodup)).2.2
  refine (List.mem_map_of_injective fun _ _ => join_inj).trans ⟨fun kept gone => once name gone name kept rfl,?_⟩
  intro kept
  exact (List.mem_append.mp (told.perm.mem_iff.mpr member)).resolve_left kept

/-- Reports on the same files that tell the same of each are the same but for the order. -/
theorem Told.perm_of_same (first : Told m report done moved failed) (second : Told m report' done' moved' failed')
    (nodup : done.Nodup) (perm : done'.Perm done) (same : ∀ a ∈ done, a ∈ moved ↔ a ∈ moved') :
    report.moved.Perm report'.moved ∧ report.failed.Perm report'.failed := by
  have gone : moved.Perm moved' := by
    refine (List.perm_ext_iff_of_nodup (nodup.sublist first.order.1)
      ((perm.nodup_iff.mpr nodup).sublist second.order.1)).mpr fun a => ?_
    constructor
    · intro member
      exact (same a (first.order.1.subset member)).mp member
    · intro member
      exact (same a (perm.mem_iff.mp (second.order.1.subset member))).mpr member
  have all : (moved ++ failed).Perm (moved ++ failed') := calc
    List.Perm (moved ++ failed) done := first.perm
    List.Perm done done' := perm.symm
    List.Perm done' (moved' ++ failed') := second.perm.symm
    List.Perm (moved' ++ failed') (moved ++ failed') := gone.symm.append_right failed'
  rw [first.report,second.report]
  exact ⟨gone.map m.sourcePath,((List.perm_append_left_iff moved).mp all).map m.sourcePath⟩

theorem Ready.perm {order : List Name} (ready : Ready m t dir names) (perm : order.Perm names) : Ready m t dir order := by
  have within : ∀ name ∈ order, name ∈ names := fun name => perm.mem_iff.mp
  refine ⟨ready.rooted,ready.source,fun name member => ready.proper name (within name member),
    fun name member => ready.files name (within name member),perm.nodup_iff.mpr ready.nodup,?_,?_,
    fun a member => ready.ordinary a (within a member)⟩
  · intro a first b second
    exact ready.sources a (within a first) b (within b second)
  · intro a first b second
    exact ready.outputs a (within a first) b (within b second)

end

/-- Files do not disturb each other. Two passes with codecs that do the same with all
candidates but one agree on the others: each is moved by both or fails with both, its
entry is the same and so is that of its output; and the trees are the same wherever that
one has no part. With a codec that does the same with a file wherever it reads the same
from it, the order in which the candidates are tried changes neither the tree nor which
of them are moved and which fail. -/
theorem pass_isolates (quiet : Quiet codec) (quiet' : Quiet codec') (grounds : Grounds m t dir dest) (f : Name)
    (alike : ∀ name, m.Candidate t dir name → name ≠ f → m.Alike codec codec' name) :
    (∃ p p', m.pass codec t = .ok p ∧ m.pass codec' t = .ok p' ∧ (p.isStuck = false ∧ p'.isStuck = false) ∧
      (∀ name, m.Candidate t dir name → name ≠ f →
        (m.sourcePath name ∈ p.report.moved ↔ m.sourcePath name ∈ p'.report.moved) ∧
        (m.sourcePath name ∈ p.report.failed ↔ m.sourcePath name ∉ p.report.moved) ∧
        (m.sourcePath name ∈ p'.report.failed ↔ m.sourcePath name ∉ p'.report.moved) ∧
        p.tree.get? (dir ++ [name]) = p'.tree.get? (dir ++ [name]) ∧
        p.tree.get? (dest ++ [m.outputName name]) = p'.tree.get? (dest ++ [m.outputName name])) ∧
      ∀ q, (m.Candidate t dir f → ¬m.Concerns t dir dest f q) → p.tree.get? q = p'.tree.get? q) ∧
    ((∀ name, m.Candidate t dir name → m.Alike codec codec name) →
      ∃ p, m.pass codec t = .ok p ∧ p.isStuck = false ∧
        ∀ order : List Name, order.Nodup → (∀ name, name ∈ order ↔ m.Candidate t dir name) →
          let p' := order.foldl (m.advance codec) (.start t)
          p'.isStuck = false ∧ (∀ q, p.tree.get? q = p'.tree.get? q) ∧ p.report.moved.Perm p'.report.moved ∧
            p.report.failed.Perm p'.report.failed) := by
  obtain ⟨names,pending,candidates,nodup,_⟩ := exists_pending grounds.proper.distinct grounds.source
  have within : ∀ name ∈ names, m.Candidate t dir name := fun name => (candidates name).mp
  have ready := grounds.ready pending within
  have free := (Sofar.run quiet ready (List.append_nil names).symm).free
  obtain ⟨moved,failed,first⟩ := Foreseen.run (m := m) quiet grounds ready within (List.append_nil names).symm
  constructor
  · have free' := (Sofar.run quiet' ready (List.append_nil names).symm).free
    obtain ⟨moved',failed',second⟩ := Foreseen.run (m := m) quiet' grounds ready within (List.append_nil names).symm
    obtain ⟨verdicts,places⟩ := first.agree (· = f) second (fun _ => Iff.rfl) fun a member => alike a (within a member)
    have elsewhere : ∀ q, (m.Candidate t dir f → ¬m.Concerns t dir dest f q) →
        (names.foldl (m.advance codec) (.start t)).tree.get? q =
          (names.foldl (m.advance codec') (.start t)).tree.get? q := by
      intro q apart
      refine places q ?_
      rintro a member rfl
      exact apart (within a member)
    refine ⟨_,_,by rw [pass,pending]; rfl,by rw [pass,pending]; rfl,⟨free,free'⟩,?_,elsewhere⟩
    intro name candidate other
    have member := (candidates name).mpr candidate
    have apart {q : Place} (concerns : m.Concerns t dir dest name q) (candidate' : m.Candidate t dir f) :
        ¬m.Concerns t dir dest f q :=
      fun concerns' => other (grounds.concerns_inj candidate candidate' concerns concerns')
    refine ⟨?_,first.told.mem_failed nodup member,second.told.mem_failed nodup member,elsewhere _ (apart (.inl rfl)),
      elsewhere _ (apart (.inr (.inl rfl)))⟩
    rw [first.told.mem_moved,second.told.mem_moved]
    exact verdicts name member other
  · intro steady
    refine ⟨_,by rw [pass,pending]; rfl,free,?_⟩
    intro order once all
    have perm : order.Perm names :=
      (List.perm_ext_iff_of_nodup once nodup).mpr fun name => (all name).trans (candidates name).symm
    have free' := (Sofar.run quiet (ready.perm perm) (List.append_nil order).symm).free
    obtain ⟨moved',failed',second⟩ := Foreseen.run (m := m) quiet grounds (ready.perm perm)
      (fun name => (all name).mp) (List.append_nil order).symm
    obtain ⟨verdicts,places⟩ := first.agree (fun _ => False) second (fun a => perm.mem_iff.symm)
      fun a member _ => steady a (within a member)
    refine ⟨free',fun q => places q fun _ _ => False.elim,?_⟩
    exact first.told.perm_of_same second.told nodup perm fun a member => verdicts a member id

end

/-! ## Two files -/

/-- The name of another file. -/
def note : Name := Utf8.ofString "b.dat"

/-- The name of its output. -/
def packedNote : Name := Utf8.ofString "b.dat.bz2"

/-- Two directories, one with two files. -/
def twoFiles (more : List (Place × Entry)) : FileTree :=
  ⟨[([inbox],.dir),([inbox,letter],.file (Utf8.ofString "payload")),([inbox,note],.file (Utf8.ofString "postscript")),
    ([outbox],.dir)] ++ more⟩

/-- A codec that writes what it reads, but fails with one path. -/
def refusing (refused : List UInt8) : Codec := fun t path => if path = refused then failing t path else copying t path

theorem refusing_quiet (refused : List UInt8) : Quiet (refusing refused) := by
  intro t path run called
  unfold refusing at called
  split at called
  · exact failing_quiet t path run called
  · exact copying_quiet t path run called

theorem reply_copying {m : Mover} (cwd : m.cwd = []) (t : FileTree) (name : Name) :
    reply (copying t (m.sourcePath name)) = (m.reading t name).map fun content => (content,.code 0) := by
  rw [copying,reading,cwd]
  cases t.readFile [] (m.sourcePath name) <;> rfl

theorem copying_alike (name : Name) : filing.Alike copying copying name := by
  intro t t' same
  rw [reply_copying rfl,reply_copying rfl,same]

theorem refusing_alike {name : Name} (other : name ≠ note) :
    filing.Alike copying (refusing (filing.sourcePath note)) name := by
  intro t t' same
  have apart : filing.sourcePath name ≠ filing.sourcePath note := fun path => other (join_inj path)
  rw [refusing,if_neg apart]
  exact copying_alike name t t' same

theorem twoFiles_grounds : Grounds filing (twoFiles []) [inbox] [outbox] := by
  have proper : (twoFiles []).Proper := by decide
  obtain ⟨source,target⟩ := filing_dirs proper ⟨rfl,rfl⟩
  have straight : ∀ name p, ¬filing.Diverted (twoFiles []) [inbox] [outbox] name p := by
    rintro name p ⟨_,⟨target,link⟩,_⟩
    obtain ⟨e,entry,node⟩ := FileTree.mem_of_get? (by simp) link
    have plain : ∀ e ∈ (twoFiles []).entries, e.2.node ≠ .link target := by simp [twoFiles,Entry.file,Entry.dir]
    exact plain _ entry node
  refine ⟨proper,source,target,by decide,by decide,fun name p diverted => absurd diverted (straight name p),
    fun a _ p diverted => absurd diverted (straight a p),?_⟩
  exact fun name p _ _ _ => FileTree.ordinary_of_entries (by simp [twoFiles,Entry.file,Entry.dir]) p

theorem letter_candidate (more : List (Place × Entry)) : filing.Candidate (twoFiles more) [inbox] letter :=
  ⟨⟨Utf8.ofString "payload",rfl⟩,"a.dat".toList,rfl,by decide⟩

/-- Whether the codec fails with one of the two files makes no difference to the other. -/
theorem refused_note_is_alone :
    Quiet copying ∧ Quiet (refusing (filing.sourcePath note)) ∧ Grounds filing (twoFiles []) [inbox] [outbox] ∧
    (∀ name, filing.Candidate (twoFiles []) [inbox] name → name ≠ note →
      filing.Alike copying (refusing (filing.sourcePath note)) name) ∧
    ∃ p p', filing.pass copying (twoFiles []) = .ok p ∧
      filing.pass (refusing (filing.sourcePath note)) (twoFiles []) = .ok p' ∧ (p.isStuck = false ∧ p'.isStuck = false) ∧
      (filing.sourcePath letter ∈ p.report.moved ↔ filing.sourcePath letter ∈ p'.report.moved) ∧
      (filing.sourcePath letter ∈ p.report.failed ↔ filing.sourcePath letter ∉ p.report.moved) ∧
      (filing.sourcePath letter ∈ p'.report.failed ↔ filing.sourcePath letter ∉ p'.report.moved) ∧
      p.tree.get? ([inbox] ++ [letter]) = p'.tree.get? ([inbox] ++ [letter]) ∧
      p.tree.get? ([outbox] ++ [filing.outputName letter]) = p'.tree.get? ([outbox] ++ [filing.outputName letter]) := by
  have alike : ∀ name, filing.Candidate (twoFiles []) [inbox] name → name ≠ note →
      filing.Alike copying (refusing (filing.sourcePath note)) name := fun _ _ other => refusing_alike other
  refine ⟨copying_quiet,refusing_quiet _,twoFiles_grounds,alike,?_⟩
  obtain ⟨p,p',passed,passed',free,others,_⟩ :=
    (pass_isolates copying_quiet (refusing_quiet _) twoFiles_grounds note alike).1
  exact ⟨p,p',passed,passed',free,others letter (letter_candidate []) (by decide)⟩

/-! ## An output that leads to another -/

/-- A codec that succeeds with no file, and writes something for one. -/
def spoiling (output : List UInt8) : Codec := fun t path =>
  .ok ⟨if path = filing.sourcePath note then output else [],.code 1,t⟩

theorem spoiling_quiet (output : List UInt8) : Quiet (spoiling output) := by
  intro t path run called
  cases called
  rfl

/-- The two files, and a link in the place of one output that leads to the other. -/
def linkedOutputs : FileTree := twoFiles [([outbox,packedNote],.link packed)]

theorem linkedOutputs_pending : filing.pending linkedOutputs = .ok [letter,note] := by
  have candidate (name : Name) (content : List UInt8) (text : Utf8.strict? name ≠ none)
      (suffix : (Utf8.ofString ".dat").isSuffixOf name = true) : filing.isCandidate name (.file content) = true := by
    rw [isCandidate,Bool.and_eq_true]
    exact ⟨Option.isSome_iff_ne_none.mpr text,suffix⟩
  have listed : linkedOutputs.list filing.cwd filing.sourceDir =
      .ok [(letter,.file (Utf8.ofString "payload")),(note,.file (Utf8.ofString "postscript"))] := by
    have proper : linkedOutputs.Proper := by decide
    have cwd : filing.cwd = [] := rfl
    rw [FileTree.list,cwd,(filing_dirs proper ⟨rfl,rfl⟩).1]
    decide
  rw [pending,listed]
  simp only [Except.map,List.filter_cons,candidate letter _ (by decide) (by decide),
    candidate note _ (by decide) (by decide),List.filter_nil,if_true,List.map_cons,List.map_nil]
  rw [List.mergeSort_of_pairwise (by decide)]

/-- What the codec has written for a file stays where the output's path has led. -/
theorem spoiling_tree {t : FileTree} {name : Name} {r : Place} (output : List UInt8) (proper : t.Proper)
    (free : ∀ q, t.isGuarded q = false) (plain : t.get? [inbox] = some .dir ∧ t.get? [outbox] = some .dir)
    (name_proper : ProperName name) (ordinary : t.Ordinary r) (opened : t.target [] (filing.destPath name) = .ok r) :
    (filing.compress (spoiling output) t name).tree =
        (t.put r (.file (if filing.sourcePath name = filing.sourcePath note then output else []))).erase
          ([outbox] ++ [filing.outputName name]) ∧
      (filing.compress (spoiling output) t name).verdict = .failed (filing.codecFailure (.code 1)) := by
  have unsuccessful : Exit.code 1 ≠ .code 0 := by decide
  have allowed : t.mayOpen r = true := by rw [FileTree.mayOpen,free]; rfl
  obtain ⟨tree,verdict⟩ := compress_refused (spoiling_quiet output) (ne_root (target_eq_ok_iff.mp opened).2.2) ordinary
    allowed opened rfl unsuccessful
  refine ⟨?_,verdict⟩
  rw [tree]
  refine (discard_eq proper.rooted (.refl t fun _ => False) name_proper (name_proper.append (by decide))
    (filing_dirs proper plain).2 ordinary opened _).trans ?_
  rw [discarding,free]
  rfl

/-- What is written for the one file ends up in the output of the other. -/
theorem linkedOutputs_pass (output : List UInt8) : ∃ p, filing.pass (spoiling output) linkedOutputs = .ok p ∧
    p.tree.get? [outbox,packed] = some (.file output) := by
  -- The output of the first file has come and gone.
  have opened : linkedOutputs.target [] (filing.destPath letter) = .ok [outbox,packed] := by
    have steps : FileTree.steps (filing.destPath letter) = [outbox,packed] := by decide
    refine target_eq_ok_iff.mpr ⟨by decide,?_,by decide⟩
    rw [steps]
    refine .enter rfl ⟨by decide,by decide,by decide,by decide⟩ (n := .dir) rfl nofun ?_
    exact .absent rfl ⟨by decide,by decide,by decide,by decide⟩ (by decide)
  obtain ⟨first,refused⟩ := spoiling_tree output (by decide) (FileTree.isGuarded_eq_false (by decide)) ⟨rfl,rfl⟩ (by decide)
    (FileTree.ordinary_of_none (by decide)) opened
  rw [if_neg (by decide)] at first
  -- That of the second is opened there.
  have opened' : (filing.compress (spoiling output) linkedOutputs letter).tree.target [] (filing.destPath note) =
      .ok [outbox,packed] := by
    have steps : FileTree.steps (filing.destPath note) = [outbox,packedNote] := by decide
    have further : FileTree.steps packed = [packed] := by decide
    rw [first]
    refine target_eq_ok_iff.mpr ⟨by decide,?_,by decide⟩
    have link : ((linkedOutputs.put [outbox,packed] (.file [])).erase [outbox,packed]).get? [outbox,packedNote] =
        some (.link packed) := rfl
    rw [steps]
    refine .enter rfl ⟨by decide,by decide,by decide,by decide⟩ (n := .dir) rfl nofun ?_
    refine .follow rfl ⟨by decide,by decide,by decide,by decide⟩ (by decide) link ?_
    rw [further]
    exact .absent rfl ⟨by decide,by decide,by decide,by decide⟩ (by decide)
  obtain ⟨second,_⟩ := spoiling_tree output (by rw [first]; decide)
    (by rw [first]; exact FileTree.isGuarded_eq_false (by decide)) (by rw [first]; exact ⟨rfl,rfl⟩) (by decide)
    (by rw [first]; exact FileTree.ordinary_of_none (by decide)) opened'
  rw [if_pos rfl] at second
  refine ⟨_,by rw [pass,linkedOutputs_pending]; rfl,?_⟩
  change (filing.advance (spoiling output) (filing.advance (spoiling output) (.start linkedOutputs) letter) note).tree.get? _ = _
  have free : (filing.advance (spoiling output) (.start linkedOutputs) letter).isStuck = false := by
    rw [advance_of_failed rfl refused]
  rw [advance_tree free,advance_tree rfl]
  change (filing.compress (spoiling output) (filing.compress (spoiling output) linkedOutputs letter).tree note).tree.get? _ = _
  rw [second,FileTree.get?_erase (by simp),if_neg (by decide)]
  exact get?_put_self (by simp) _

/-- Where a link in the place of an output leads to the output of another file, what
becomes of that depends on what the codec does with the first. -/
theorem spoiled_output :
    Quiet (spoiling []) ∧ Quiet (spoiling [0]) ∧ linkedOutputs.Proper ∧
    linkedOutputs.find .content filing.cwd filing.sourceDir = .ok ([inbox],some .dir) ∧
    linkedOutputs.find .content filing.cwd filing.destDir = .ok ([outbox],some .dir) ∧
    (¬[inbox] <+: [outbox] ∧ ¬[outbox] <+: [inbox]) ∧ FileTree.slash ∉ Utf8.ofString filing.settings.extension ∧
    filing.Candidate linkedOutputs [inbox] letter ∧ letter ≠ note ∧
    (∀ name, name ≠ note → filing.Alike (spoiling []) (spoiling [0]) name) ∧
    ∃ p p', filing.pass (spoiling []) linkedOutputs = .ok p ∧ filing.pass (spoiling [0]) linkedOutputs = .ok p' ∧
      p.tree.get? ([outbox] ++ [filing.outputName letter]) ≠ p'.tree.get? ([outbox] ++ [filing.outputName letter]) := by
  obtain ⟨source,target⟩ := filing_dirs (t := linkedOutputs) (by decide) ⟨rfl,rfl⟩
  refine ⟨spoiling_quiet _,spoiling_quiet _,by decide,source,target,by decide,by decide,letter_candidate _,by decide,?_,?_⟩
  · intro name other t t' _
    have apart : filing.sourcePath name ≠ filing.sourcePath note := fun path => other (join_inj path)
    simp only [spoiling,if_neg apart]
    rfl
  · obtain ⟨p,passed,empty⟩ := linkedOutputs_pass []
    obtain ⟨p',passed',full⟩ := linkedOutputs_pass [0]
    refine ⟨p,p',passed,passed',?_⟩
    change p.tree.get? [outbox,packed] ≠ p'.tree.get? [outbox,packed]
    rw [empty,full]
    decide

end Lockstep.Mover
