import Mathlib.Data.List.Induction
import Lockstep.Mover
import Lockstep.Proofs.FileTree.Listing
import Lockstep.Proofs.FileTree.Marks

/-!
# Moving files without loss

With a codec that touches no file itself, a pass loses nothing as long as no
output goes to a pending file, no two go to the same place and none goes to a
special file or to one that has another name (`Apart`): each pending file is still
there with its content, or the codec succeeded with it and its output stands at the
destination (`pass_keeps`).

Where the output of a file goes to the file itself, the file is gone whatever the
codec does (`compress_self`), and accepted settings can bring that about
(`inward_loses`).
-/

namespace Lockstep.Mover

open FileTree (Leads Walks Drift Leaf Rooted Proper ProperName Sparser)

/-- A codec that touches no file itself: it reads, writes its output and ends. -/
def Quiet (codec : Codec) : Prop := ∀ t path run, codec t path = .ok run → run.tree = t

section
variable (m : Mover) (t : FileTree)

/-- The path of a file's output leads to a place, however many links it takes. -/
def Outputs (name : Name) (p : Place) : Prop :=
  ∃ links n, t.walk .content links (FileTree.origin m.cwd (m.destPath name)) (FileTree.steps (m.destPath name)) =
    .ok (p,n)

/-- No output goes to a pending file, no two go to the same place, and none to a
special file or one with another name. `dir` is where the source directory is. -/
structure Apart (dir : Place) (names : List Name) : Prop where
  sources : ∀ a ∈ names, ∀ b ∈ names, ¬m.Outputs t a (dir ++ [b])
  outputs : ∀ a ∈ names, ∀ b ∈ names, ∀ p, m.Outputs t a p → m.Outputs t b p → a = b
  ordinary : ∀ a ∈ names, ∀ p, m.Outputs t a p → t.Ordinary p

end

section
variable {m : Mover} {codec : Codec} {t t' : FileTree} {dir p q r : Place} {name : Name} {names : List Name}
  {lost : Place → Prop}

theorem outputs_iff : m.Outputs t name p ↔
    Leads t (FileTree.origin m.cwd (m.destPath name)) (FileTree.steps (m.destPath name)) p := by
  constructor
  · rintro ⟨links,n,walk⟩
    exact ⟨links,(FileTree.walks_of_walk walk).1⟩
  · rintro ⟨links,walks⟩
    exact ⟨links,_,walks.walk⟩

/-! ## Finding and opening -/

theorem find_eq_ok_iff {aim : FileTree.Aim} {cwd : Place} {path : List UInt8} {n : Option Node} :
    t.find aim cwd path = .ok (p,n) ↔ FileTree.defect? path = none ∧
      Walks t aim FileTree.linkLimit (FileTree.origin cwd path) (FileTree.steps path) p ∧ n = t.get? p := by
  unfold FileTree.find
  cases FileTree.defect? path with
  | some e => simp
  | none =>
    constructor
    · exact fun walk => ⟨rfl,FileTree.walks_of_walk walk⟩
    · rintro ⟨_,walks,rfl⟩
      exact walks.walk

theorem target_eq_ok_iff {cwd : Place} {path : List UInt8} :
    t.target cwd path = .ok r ↔ FileTree.defect? path = none ∧
      Walks t .writing FileTree.linkLimit (FileTree.origin cwd path) (FileTree.steps path) r ∧ t.get? r ≠ some .dir := by
  unfold FileTree.target
  constructor
  · intro opened
    split at opened
    · cases opened
    · cases opened
    next place n other found =>
    cases opened
    obtain ⟨sound,walks,same⟩ := find_eq_ok_iff.mp found
    exact ⟨sound,walks,fun dir => other (same.trans dir)⟩
  · rintro ⟨sound,walks,other⟩
    rw [find_eq_ok_iff.mpr ⟨sound,walks,rfl⟩]
    split
    next same => cases same
    next same => exact absurd (Prod.mk.inj (Except.ok.inj same)).2 other
    next same => rw [(Prod.mk.inj (Except.ok.inj same)).1]

theorem path_ne_nil {aim : FileTree.Aim} {cwd : Place} {path : List UInt8} {n : Option Node}
    (found : t.find aim cwd path = .ok (p,n)) : path ≠ [] := by
  rintro rfl
  obtain ⟨sound,_⟩ := find_eq_ok_iff.mp found
  cases sound

/-- In a proper tree the names from the root lead to what is there. -/
theorem find_names {aim : FileTree.Aim} {path : List UInt8} {n : Node} (proper : t.Proper)
    (sound : FileTree.defect? path = none) (steps : FileTree.steps path = p) (node : t.get? p = some n)
    (solid : ∀ target, n ≠ .link target) (short : ∀ name ∈ p, name.length ≤ FileTree.nameLimit) :
    t.find aim [] path = .ok (p,some n) := by
  have origin : FileTree.origin [] path = [] := by
    unfold FileTree.origin
    split <;> rfl
  refine find_eq_ok_iff.mpr ⟨sound,?_,node.symm⟩
  rw [origin,steps]
  exact proper.walks (p := []) node solid short

theorem readFile_of_find {cwd : Place} {path content : List UInt8}
    (found : t.find .content cwd path = .ok (p,some (.file content))) : t.readFile cwd path = .ok content := by
  simp only [FileTree.readFile,found]

theorem exists_of_remove {cwd : Place} {path : List UInt8} (removed : t.remove cwd path = .ok t') :
    ∃ p n, t.find .entry cwd path = .ok (p,some n) ∧ t.isGuarded p.dropLast = false ∧ n ≠ .dir ∧ t' = t.erase p := by
  unfold FileTree.remove at removed
  split at removed
  · cases removed
  · cases removed
  next p n found =>
  split at removed
  · cases removed
  next free =>
  split at removed
  · cases removed
  next other =>
  cases removed
  exact ⟨p,n,found,eq_false_of_ne_true free,other,rfl⟩

/-- What a path names is removed, unless it is a directory or a guard forbids it. -/
theorem remove_of_find {cwd : Place} {path : List UInt8} {n : Node} (found : t.find .entry cwd path = .ok (p,some n))
    (other : n ≠ .dir) : t.remove cwd path =
      if t.isGuarded p.dropLast then .error .permissionDenied else .ok (t.erase p) := by
  simp only [FileTree.remove,found,if_neg other]

/-- To open a path to an ordinary file, or to nothing, is to put an empty file there. -/
theorem create_of_target {cwd : Place} {path : List UInt8} (ordinary : t.Ordinary r)
    (opened : t.target cwd path = .ok r) : t.create cwd path =
      if t.mayOpen r then .opened r (t.put r (.file [])) else .refused .permissionDenied := by
  rw [FileTree.create,opened]
  exact FileTree.openAt_ordinary ordinary

theorem mem_join {c : UInt8} (path : List UInt8) (member : c ∈ name) : c ∈ FileTree.join path name := by
  unfold FileTree.join
  split
  · exact List.mem_append_right _ member
  · exact List.mem_append_right _ (List.mem_cons_of_mem _ member)

/-- The path of an output has a step, so it starts in a directory. -/
theorem origin_dir {aim : FileTree.Aim} {links : Nat} (proper : ProperName name)
    (walks : Walks t aim links (FileTree.origin m.cwd (m.destPath name)) (FileTree.steps (m.destPath name)) p) :
    t.get? (FileTree.origin m.cwd (m.destPath name)) = some .dir := by
  cases whole : name with
  | nil => exact absurd whole proper.some
  | cons c rest =>
    have member : c ∈ name := by rw [whole]; exact List.mem_cons_self
    have other : c ≠ FileTree.slash := by
      rintro rfl
      exact proper.solid member
    have inside : c ∈ m.destPath name := mem_join _ (List.mem_append_left _ member)
    rw [FileTree.steps] at walks
    cases steps : FileTree.names (m.destPath name) with
    | nil => exact absurd steps (FileTree.names_ne_nil inside other)
    | cons first later =>
      rw [steps] at walks
      rw [← whole]
      exact walks.dir

/-- Where a file is opened for writing there is a file or nothing. -/
theorem exists_of_target (rooted : Rooted t) (proper : ProperName name) (ordinary : t.Ordinary r)
    (opened : t.target m.cwd (m.destPath name) = .ok r) :
    FileTree.defect? (m.destPath name) = none ∧ Leaf (t.get? r) ∧
      Walks t .content FileTree.linkLimit (FileTree.origin m.cwd (m.destPath name))
        (FileTree.steps (m.destPath name)) r := by
  obtain ⟨sound,walks,other⟩ := target_eq_ok_iff.mp opened
  have start := origin_dir proper walks
  have solid := walks.solid (by decide) rooted start
  refine ⟨sound,?_,walks.content solid⟩
  cases node : t.get? r with
  | none => exact .inl rfl
  | some n =>
    cases n with
    | file content => exact .inr ⟨content,rfl⟩
    | link target => exact absurd node (solid target)
    | dir => exact absurd node other
    | special kind => exact absurd node (ordinary.plain kind)

/-! ## One file -/

/-- Files keep their content, but for some. -/
def Spares (t t' : FileTree) (but : Place → Prop) : Prop :=
  ∀ q content, t.get? q = some (.file content) → ¬but q → t'.get? q = some (.file content)

theorem Leaf.solid (leaf : Leaf (t.get? r)) : ∀ target, t.get? r ≠ some (.link target) := by
  rcases leaf with nothing | ⟨content,file⟩
  · simp [nothing]
  · simp [file]

/-- An output that is removed again, at `r`, takes no other file with it: a link
on the way to it may be removed in its stead. -/
theorem discard_changes {links : Nat}
    (leads : Walks t .content links (FileTree.origin m.cwd (m.destPath name)) (FileTree.steps (m.destPath name)) r)
    (leaf : Leaf (t.get? r)) :
    Drift t (m.discard t (m.destPath name)).1 (· = r) ∧ Spares t (m.discard t (m.destPath name)).1 (· = r) := by
  have unchanged : Drift t t (· = r) ∧ Spares t t (· = r) := ⟨.refl t _,fun _ _ file _ => file⟩
  have erased {q : Place} (root : q ≠ []) (other : ∀ content, t.get? q = some (.file content) → q = r) :
      Spares t (t.erase q) (· = r) := by
    intro p content file apart
    have differ : p ≠ q := by
      rintro rfl
      exact apart (other content file)
    rw [FileTree.get?_erase root,if_neg differ]
    exact file
  unfold discard
  cases removed : t.remove m.cwd (m.destPath name) with
  | error e => exact unchanged
  | ok t' =>
    obtain ⟨q,n,found,_,other,rfl⟩ := exists_of_remove removed
    obtain ⟨_,walks,node⟩ := find_eq_ok_iff.mp found
    cases n with
    | dir => exact absurd rfl other
    | file | special =>
      have same : q = r := (walks.content (by simp [← node])).unique leads
      subst same
      exact ⟨FileTree.drift_erase leaf,erased leaf.ne_nil fun _ _ => rfl⟩
    | link target =>
      -- What goes is the link, and the path has led through it to `r`.
      obtain ⟨parent,further⟩ := walks.link node.symm ⟨links,leads⟩ (Leaf.solid leaf)
      have root : q ≠ [] := by
        rintro rfl
        cases node
      refine ⟨FileTree.drift_unlink node.symm parent further rfl leaf,erased root fun content file => ?_⟩
      rw [← node] at file
      cases file

theorem discard_sparser (m : Mover) (t : FileTree) (dest : List UInt8) : Sparser t (m.discard t dest).1 := by
  unfold discard
  cases removed : t.remove m.cwd dest with
  | error e => exact .refl t
  | ok t' =>
    obtain ⟨p,_,_,_,_,rfl⟩ := exists_of_remove removed
    exact FileTree.sparser_erase t p

/-- What comes of compressing a file, its output being opened at `r`. -/
inductive Compressed (m : Mover) (codec : Codec) (t : FileTree) (name : Name) : FileTree → Verdict → Prop
  | unopened {e : SystemError} : Compressed m codec t name t (.failed e)
  | kept {r : Place} {t' : FileTree} {e : SystemError} (opened : t.target m.cwd (m.destPath name) = .ok r)
      (drift : Drift t t' (· = r)) (spares : Spares t t' (· = r)) (sparser : Sparser t t') :
      Compressed m codec t name t' (.failed e)
  | moved {r p : Place} {run : CodecRun} {n : Node} (opened : t.target m.cwd (m.destPath name) = .ok r)
      (created : t.create m.cwd (m.destPath name) = .opened r (t.put r (.file [])))
      (called : codec (t.put r (.file [])) (m.sourcePath name) = .ok run) (exit : run.exit = .code 0)
      (found : (t.put r (.file run.output)).find .entry m.cwd (m.sourcePath name) = .ok (p,some n)) :
      Compressed m codec t name ((t.put r (.file run.output)).erase p) .moved

theorem put_changes (leaf : Leaf (t.get? r)) (content : List UInt8) :
    Drift t (t.put r (.file content)) (· = r) ∧ Spares t (t.put r (.file content)) (· = r) := by
  refine ⟨FileTree.drift_put leaf content,?_⟩
  intro q kept file apart
  rw [FileTree.get?_put leaf.ne_nil,if_neg apart]
  exact file

theorem Spares.trans {t'' : FileTree} {but : Place → Prop} (first : Spares t t' but) (second : Spares t' t'' but) :
    Spares t t'' but :=
  fun q content file apart => second q content (first q content file apart) apart

theorem get?_put_self (root : r ≠ []) (n : Node) : (t.put r n).get? r = some n := by
  rw [FileTree.get?_put root,if_pos rfl]

/-- Writing over what was written leaves the last content. -/
theorem put_put (r : Place) (n n' : Node) : (t.put r n).put r n' = t.put r n' := by
  have marks : Entry.after ((t.put r n).entries.lookup r) n' = .after (t.entries.lookup r) n' := by
    rw [FileTree.lookup_put,if_pos rfl]
    cases t.entries.lookup r with
    | none | some => rfl
  rw [FileTree.put,marks]
  simp [FileTree.put,FileTree.erase,List.filter_append,List.filter_filter]

theorem put_erase (p : Place) (n : Node) : (t.put p n).erase p = t.erase p := by
  simp [FileTree.put,FileTree.erase,List.filter_append,List.filter_filter]

/-- What a quiet codec wrote stands in the file that was opened for it. -/
theorem written_eq {path : List UInt8} {run : CodecRun} (quiet : Quiet codec) (root : r ≠ []) (ordinary : t.Ordinary r)
    (called : codec (t.put r (.file [])) path = .ok run) :
    run.tree.written r run.output = t.put r (.file run.output) := by
  have alone : ∀ q, (t.put r (.file [])).isTwin r q = false := (FileTree.sparser_put t r _).alone ordinary.alone
  rw [quiet _ _ _ called,FileTree.written_ordinary alone (get?_put_self root _)]
  exact put_put r _ _

/-- Opening an output and removing it again spares all other files, whatever has
been written to it. -/
theorem discarded (rooted : Rooted t) (proper : ProperName name) (ordinary : t.Ordinary r)
    (opened : t.target m.cwd (m.destPath name) = .ok r) (content : List UInt8) (e : SystemError) :
    Compressed m codec t name (m.discard (t.put r (.file content)) (m.destPath name)).1 (.failed e) := by
  obtain ⟨_,leaf,walks⟩ := exists_of_target rooted proper ordinary opened
  have drift : Drift t (t.put r (.file content)) fun _ => False := FileTree.drift_put leaf content
  have walks' := drift.walks walks (Leaf.solid leaf) id
  have leaf' : Leaf ((t.put r (.file content)).get? r) := .inr ⟨content,get?_put_self leaf.ne_nil _⟩
  obtain ⟨written,spared⟩ := put_changes leaf content
  obtain ⟨removed,spared'⟩ := discard_changes walks' leaf'
  have sparser := (FileTree.sparser_put t r (.file content)).trans (discard_sparser m _ (m.destPath name))
  exact .kept opened (written.trans removed rooted) (spared.trans spared') sparser

theorem compress_cases (quiet : Quiet codec) (rooted : Rooted t) (proper : ProperName name)
    (ordinary : ∀ r, t.target m.cwd (m.destPath name) = .ok r → t.Ordinary r) :
    Compressed m codec t name (m.compress codec t name).tree (m.compress codec t name).verdict := by
  cases opened : t.target m.cwd (m.destPath name) with
  | error e =>
    simp only [compress,FileTree.create,opened]
    exact .unopened
  | ok r =>
    have ordinary := ordinary r opened
    have created := create_of_target ordinary opened
    by_cases allowed : t.mayOpen r = true
    · rw [if_pos allowed] at created
      obtain ⟨_,leaf,_⟩ := exists_of_target rooted proper ordinary opened
      cases called : codec (t.put r (.file [])) (m.sourcePath name) with
      | error e =>
        simp only [compress,created,called]
        exact discarded rooted proper ordinary opened [] e
      | ok run =>
        have output := written_eq quiet leaf.ne_nil ordinary called
        simp only [compress,created,called,output]
        by_cases success : run.exit = .code 0
        · rw [if_pos success]
          cases removed : (t.put r (.file run.output)).remove m.cwd (m.sourcePath name) with
          | error e =>
            obtain ⟨drift,spares⟩ := put_changes leaf run.output
            exact .kept opened drift spares (FileTree.sparser_put t r _)
          | ok t' =>
            obtain ⟨p,n,found,_,_,rfl⟩ := exists_of_remove removed
            exact .moved opened created called success found
        · rw [if_neg success]
          exact discarded rooted proper ordinary opened run.output _
    · rw [if_neg allowed] at created
      simp only [compress,created]
      exact .unopened

/-! ## Outputs in a directory -/

/-- The name of a file's output. -/
def outputName (m : Mover) (name : Name) : Name := name ++ Utf8.ofString m.settings.extension

/-- Where no link stands in its place, the output of a file goes to the entry of its
name in the destination directory. -/
theorem output_place {d : Place} (found : t.find .content m.cwd m.destDir = .ok (d,some .dir))
    (proper : ProperName (m.outputName name)) (plain : ∀ target, t.get? (d ++ [m.outputName name]) ≠ some (.link target))
    (outputs : m.Outputs t name p) : p = d ++ [m.outputName name] := by
  obtain ⟨_,dest,_⟩ := find_eq_ok_iff.mp found
  have path := path_ne_nil found
  obtain ⟨links,walks⟩ := outputs_iff.mp outputs
  have steps : FileTree.steps (m.destPath name) = FileTree.names m.destDir ++ [m.outputName name] :=
    FileTree.steps_join path proper
  have origin : FileTree.origin m.cwd (m.destPath name) = FileTree.origin m.cwd m.destDir :=
    FileTree.origin_join path m.cwd _
  rw [steps,origin] at walks
  obtain ⟨e,_,_,before,_,last⟩ := walks.split
  obtain rfl := Leads.unique ⟨_,before⟩ (FileTree.Leads.names ⟨_,dest⟩)
  exact last.last proper fun target link => absurd link (plain target)

/-- Outputs stay apart where they go to ordinary entries of a directory that are no
links and no pending files. -/
theorem apart_of_plain {d : Place} (found : t.find .content m.cwd m.destDir = .ok (d,some .dir))
    (flat : FileTree.slash ∉ Utf8.ofString m.settings.extension) (proper : ∀ name ∈ names, ProperName name)
    (plain : ∀ name ∈ names, ∀ target, t.get? (d ++ [m.outputName name]) ≠ some (.link target))
    (ordinary : ∀ name ∈ names, t.Ordinary (d ++ [m.outputName name]))
    (other : d = dir → ∀ a ∈ names, ∀ b ∈ names, m.outputName a ≠ b) : m.Apart t dir names := by
  have place : ∀ name ∈ names, ∀ p, m.Outputs t name p → p = d ++ [m.outputName name] := by
    intro name member p outputs
    exact output_place found ((proper name member).append flat) (plain name member) outputs
  constructor
  · intro a first b second outputs
    obtain ⟨inside,same⟩ := List.append_inj' (place a first _ outputs) rfl
    exact other inside.symm a first b second (List.cons.inj same).1.symm
  · intro a first b second p outputs outputs'
    have same := (place a first p outputs).symm.trans (place b second p outputs')
    have names := (List.cons.inj (List.append_cancel_left same)).1
    exact List.append_cancel_right names
  · intro name member p outputs
    rw [place name member p outputs]
    exact ordinary name member

/-! ## Outputs in the place of their sources -/

/-- A file whose output goes to the file itself is gone, whatever the codec does, if no
guard forbids it. -/
theorem compress_self {content : List UInt8} (quiet : Quiet codec) (same : m.destPath name = m.sourcePath name)
    (there : t.find .entry m.cwd (m.sourcePath name) = .ok (p,some (.file content))) (ordinary : t.Ordinary p)
    (free : t.isGuarded p = false) (free' : t.isGuarded p.dropLast = false)
    (opened : t.target m.cwd (m.destPath name) = .ok p) : (m.compress codec t name).tree = t.erase p := by
  obtain ⟨sound,walks,file⟩ := find_eq_ok_iff.mp there
  have leaf : Leaf (t.get? p) := .inr ⟨content,file.symm⟩
  have removed (output : List UInt8) :
      (t.put p (.file output)).remove m.cwd (m.sourcePath name) = .ok (t.erase p) := by
    have found : (t.put p (.file output)).find .entry m.cwd (m.sourcePath name) = .ok (p,some (.file output)) :=
      find_eq_ok_iff.mpr ⟨sound,walks.rewrite file.symm output,(get?_put_self leaf.ne_nil _).symm⟩
    rw [remove_of_find found (by simp),FileTree.isGuarded_put,free',put_erase]
    rfl
  have created := create_of_target ordinary opened
  have allowed : t.mayOpen p = true := by simp [FileTree.mayOpen,← file,free]
  rw [if_pos allowed,same] at created
  cases called : codec (t.put p (.file [])) (m.sourcePath name) with
  | error e => simp only [compress,same,created,called,discard,removed]
  | ok run =>
    have output := written_eq quiet leaf.ne_nil ordinary called
    simp only [compress,same,created,called,output,discard,removed]
    split <;> rfl

/-- With a codec that never succeeds a file fails whose output goes to an ordinary
place. -/
theorem compress_fails (fails : ∀ t path run, codec t path = .ok run → run.exit ≠ .code 0)
    (ordinary : ∀ r, t.target m.cwd (m.destPath name) = .ok r → t.Ordinary r) :
    ∃ e, (m.compress codec t name).verdict = .failed e := by
  cases opened : t.target m.cwd (m.destPath name) with
  | error e =>
    simp only [compress,FileTree.create,opened]
    exact ⟨e,rfl⟩
  | ok r =>
    have created := create_of_target (ordinary r opened) opened
    split at created
    · cases called : codec (t.put r (.file [])) (m.sourcePath name) with
      | error e =>
        simp only [compress,created,called]
        exact ⟨e,rfl⟩
      | ok run =>
        simp only [compress,created,called,if_neg (fails _ _ _ called)]
        exact ⟨_,rfl⟩
    · simp only [compress,created]
      exact ⟨_,rfl⟩

section
variable {progress : Progress}

theorem advance_of_failed {e : SystemError} (free : progress.isStuck = false)
    (failed : (m.compress codec progress.tree name).verdict = .failed e) :
    m.advance codec progress name = ⟨(m.compress codec progress.tree name).tree,
      ⟨progress.report.moved,progress.report.failed ++ [m.sourcePath name]⟩,
      progress.events ++ (m.compress codec progress.tree name).events ++ [.failed (m.sourcePath name) e],false⟩ := by
  simp [advance,free,failed]

theorem advance_of_moved (free : progress.isStuck = false)
    (moved : (m.compress codec progress.tree name).verdict = .moved) :
    m.advance codec progress name = ⟨(m.compress codec progress.tree name).tree,
      ⟨progress.report.moved ++ [m.sourcePath name],progress.report.failed⟩,
      progress.events ++ (m.compress codec progress.tree name).events,false⟩ := by
  simp [advance,free,moved]

theorem advance_of_stuck (free : progress.isStuck = false)
    (stuck : (m.compress codec progress.tree name).verdict = .stuck) :
    m.advance codec progress name = ⟨(m.compress codec progress.tree name).tree,progress.report,
      progress.events ++ (m.compress codec progress.tree name).events,true⟩ := by
  simp [advance,free,stuck]

/-- A pass that is stuck stays as it is. -/
theorem advance_stuck (stuck : progress.isStuck = true) (name : Name) : m.advance codec progress name = progress := by
  simp [advance,stuck]

theorem free_of_advance (free : (m.advance codec progress name).isStuck = false) : progress.isStuck = false := by
  cases stuck : progress.isStuck with
  | false => rfl
  | true => rw [advance_stuck stuck,stuck] at free; exact free

theorem advance_tree (free : progress.isStuck = false) (name : Name) :
    (m.advance codec progress name).tree = (m.compress codec progress.tree name).tree := by
  cases verdict : (m.compress codec progress.tree name).verdict with
  | moved => rw [advance_of_moved free verdict]
  | failed e => rw [advance_of_failed free verdict]
  | stuck => rw [advance_of_stuck free verdict]

end

/-! ## A pass -/

/-- A pass over `names` calls the codec for a file, in the tree in which the
file's output has just been opened. -/
def Called (m : Mover) (codec : Codec) (t : FileTree) (names : List Name) (name : Name) (tree : FileTree)
    (run : CodecRun) : Prop :=
  ∃ earlier later place, names = earlier ++ name :: later ∧
    (earlier.foldl (m.advance codec) (.start t)).isStuck = false ∧
    (earlier.foldl (m.advance codec) (.start t)).tree.create m.cwd (m.destPath name) = .opened place tree ∧
    codec tree (m.sourcePath name) = .ok run

/-- What a pass needs to find: files with proper names, each once, in the source
directory at `dir`, outputs that go to none of them, no two to the same file and none
to a file that is not ordinary. -/
structure Ready (m : Mover) (t : FileTree) (dir : Place) (names : List Name) : Prop where
  rooted : Rooted t
  source : t.find .content m.cwd m.sourceDir = .ok (dir,some .dir)
  proper : ∀ name ∈ names, ProperName name
  files : ∀ name ∈ names, ∃ content, t.get? (dir ++ [name]) = some (.file content)
  nodup : names.Nodup
  sources : ∀ a ∈ names, ∀ b ∈ names, ¬m.Outputs t a (dir ++ [b])
  outputs : ∀ a ∈ names, ∀ b ∈ names, ∀ p, t.get? p ≠ some .dir → m.Outputs t a p → m.Outputs t b p → a = b
  ordinary : ∀ a ∈ names, ∀ p, t.get? p ≠ some .dir → m.Outputs t a p → t.Ordinary p

/-- What has become of a file that a pass has tried: it failed and the file is
still there, or it was moved and its output stands where its path led. -/
inductive Settled (m : Mover) (codec : Codec) (t : FileTree) (dir : Place) (names : List Name) (p : Progress)
    (name : Name) (content : List UInt8) : Prop
  | kept (listed : m.sourcePath name ∈ p.report.failed) (there : p.tree.get? (dir ++ [name]) = some (.file content)) :
      Settled m codec t dir names p name content
  | moved {tree : FileTree} {run : CodecRun} {r : Place} (listed : m.sourcePath name ∈ p.report.moved)
      (called : Called m codec t names name tree run)
      (read : tree.readFile m.cwd (m.sourcePath name) = .ok content) (exit : run.exit = .code 0)
      (outputs : m.Outputs t name r)
      (found : p.tree.find .content m.cwd (m.destPath name) = .ok (r,some (.file run.output))) :
      Settled m codec t dir names p name content

/-- A pass so far, when it has tried the files `done`: the rest are as they were. -/
structure Sofar (m : Mover) (codec : Codec) (t : FileTree) (dir : Place) (names done : List Name)
    (p : Progress) : Prop where
  free : p.isStuck = false
  drift : Drift t p.tree fun r => ∃ name ∈ done, m.Outputs t name r
  sparser : Sparser t p.tree
  waiting : ∀ name ∈ names, name ∉ done → ∀ content, t.get? (dir ++ [name]) = some (.file content) →
    p.tree.get? (dir ++ [name]) = some (.file content)
  settled : ∀ name ∈ done, ∀ content, t.get? (dir ++ [name]) = some (.file content) →
    Settled m codec t dir names p name content

section
variable {done : List Name} {progress progress' : Progress} {content : List UInt8}

theorem Ready.earlier {b : Name} {later : List Name} (ready : Ready m t dir names) (whole : names = done ++ b :: later) :
    ∀ a ∈ done, a ∈ names ∧ a ≠ b := by
  intro a before
  have nodup := ready.nodup
  rw [whole,List.nodup_append] at nodup
  refine ⟨?_,nodup.2.2 a before b List.mem_cons_self⟩
  rw [whole]
  exact List.mem_append_left _ before

theorem Ready.next {b : Name} {later : List Name} (ready : Ready m t dir names) (whole : names = done ++ b :: later) :
    b ∈ names ∧ b ∉ done :=
  ⟨by simp [whole],fun before => (ready.earlier whole b before).2 rfl⟩

/-- The path of the next output leads where it led before the pass. -/
theorem Sofar.outputs {b : Name} {later : List Name} (sofar : Sofar m codec t dir names done progress)
    (ready : Ready m t dir names) (whole : names = done ++ b :: later)
    (opened : progress.tree.target m.cwd (m.destPath b) = .ok r) : m.Outputs t b r := by
  obtain ⟨next,new⟩ := ready.next whole
  obtain ⟨_,walks,_⟩ := target_eq_ok_iff.mp opened
  have start := (sofar.drift.dir_iff _).mp (origin_dir (ready.proper b next) walks)
  rcases sofar.drift.led ready.rooted start ⟨_,walks.content_of_ne (by decide)⟩ with
    ⟨leads,_⟩ | ⟨r',leads,⟨a,earlier,outputs⟩,before⟩
  · exact outputs_iff.mpr leads
  · have other : t.get? r' ≠ some .dir := fun dir => FileTree.not_leaf_dir (dir ▸ before)
    have within := (ready.earlier whole a earlier).1
    obtain rfl := ready.outputs a within b next r' other outputs (outputs_iff.mpr leads)
    exact absurd earlier new

/-- The next output is opened at an ordinary place. -/
theorem Sofar.ordinary {b : Name} {later : List Name} (sofar : Sofar m codec t dir names done progress)
    (ready : Ready m t dir names) (whole : names = done ++ b :: later)
    (opened : progress.tree.target m.cwd (m.destPath b) = .ok r) : t.Ordinary r ∧ progress.tree.Ordinary r := by
  obtain ⟨next,_⟩ := ready.next whole
  obtain ⟨_,_,other⟩ := target_eq_ok_iff.mp opened
  have other' : t.get? r ≠ some .dir := fun dir => other ((sofar.drift.dir_iff r).mpr dir)
  have ordinary := ready.ordinary b next r other' (sofar.outputs ready whole opened)
  exact ⟨ordinary,ordinary.sparser sofar.drift sofar.sparser⟩

/-- A directory stays where it is found. -/
theorem find_dir {cwd : Place} {path : List UInt8} (drift : Drift t t' lost)
    (found : t.find .content cwd path = .ok (p,some .dir)) : t'.find .content cwd path = .ok (p,some .dir) := by
  obtain ⟨sound,walks,dir⟩ := find_eq_ok_iff.mp found
  refine find_eq_ok_iff.mpr ⟨sound,?_,((drift.dir_iff p).mpr dir.symm).symm⟩
  refine drift.leaves.walks walks (by simp [← dir]) ?_
  rintro ⟨_,leaf⟩
  exact FileTree.not_leaf_dir (dir ▸ leaf)

/-- While a tree drifts, the path of an entry in a directory leads to that entry. -/
theorem entry_place {path : List UInt8} (rooted : Rooted t) (drift : Drift t t' lost)
    (directory : t.find .content m.cwd path = .ok (dir,some .dir)) (proper : ProperName name) {n : Option Node}
    (found : t'.find .entry m.cwd (FileTree.join path name) = .ok (p,n)) : p = dir ++ [name] := by
  obtain ⟨_,there,whole⟩ := find_eq_ok_iff.mp directory
  have some := path_ne_nil directory
  obtain ⟨_,walks,_⟩ := find_eq_ok_iff.mp found
  rw [FileTree.steps_join some proper,FileTree.origin_join some] at walks
  obtain ⟨d,_,_,before,_,last⟩ := walks.split
  obtain rfl := last.last proper fun _ _ => rfl
  have start := walks.start
  have led := FileTree.Leads.names ⟨_,there⟩
  rcases drift.led rooted ((drift.dir_iff _).mp start) ⟨_,before⟩ with ⟨leads,_⟩ | ⟨r,leads,_,leaf⟩
  · rw [leads.unique led]
  · obtain rfl := leads.unique led
    exact absurd (whole ▸ leaf) FileTree.not_leaf_dir

theorem source_place (ready : Ready m t dir names) (drift : Drift t t' lost) (member : name ∈ names) {n : Option Node}
    (found : t'.find .entry m.cwd (m.sourcePath name) = .ok (p,n)) : p = dir ++ [name] :=
  entry_place ready.rooted drift ready.source (ready.proper name member) found

/-- A file that is settled stays so while another is tried. -/
theorem Settled.keep {b : Name} (ready : Ready m t dir names) (past : Drift t progress.tree lost)
    (member : name ∈ names) (next : b ∈ names) (other : name ≠ b) (settled : Settled m codec t dir names progress name content)
    (failed : ∀ path ∈ progress.report.failed, path ∈ progress'.report.failed)
    (moved : ∀ path ∈ progress.report.moved, path ∈ progress'.report.moved)
    (drift : Drift progress.tree progress'.tree (m.Outputs t b))
    (spares : Spares progress.tree progress'.tree fun q => m.Outputs t b q ∨ q = dir ++ [b]) :
    Settled m codec t dir names progress' name content := by
  cases settled with
  | kept listed there =>
    refine .kept (failed _ listed) (spares _ content there ?_)
    rintro (output | same)
    · exact ready.sources b next name member output
    · exact other (by simpa using same)
  | @moved tree run r listed called read exit outputs found =>
    obtain ⟨sound,walks,file⟩ := find_eq_ok_iff.mp found
    have free : t.get? r ≠ some .dir := by
      intro dir
      rw [(past.dir_iff r).mpr dir] at file
      cases file
    have elsewhere : ¬m.Outputs t b r := fun output =>
      other (ready.outputs name member b next r free outputs output)
    have walks' := drift.walks walks (by simp [← file]) elsewhere
    have file' : progress'.tree.get? r = some (.file run.output) := by
      refine spares r run.output file.symm ?_
      rintro (output | rfl)
      · exact elsewhere output
      · exact ready.sources name member b next outputs
    exact .moved (moved _ listed) called read exit outputs (find_eq_ok_iff.mpr ⟨sound,walks',file'.symm⟩)

/-- One more file is tried. -/
theorem Sofar.extend {b : Name} {later : List Name} (ready : Ready m t dir names) (whole : names = done ++ b :: later)
    (sofar : Sofar m codec t dir names done progress) (free : progress'.isStuck = false)
    (failed : ∀ path ∈ progress.report.failed, path ∈ progress'.report.failed)
    (moved : ∀ path ∈ progress.report.moved, path ∈ progress'.report.moved)
    (drift : Drift progress.tree progress'.tree (m.Outputs t b)) (sparser : Sparser progress.tree progress'.tree)
    (spares : Spares progress.tree progress'.tree fun q => m.Outputs t b q ∨ q = dir ++ [b])
    (settles : ∀ content, t.get? (dir ++ [b]) = some (.file content) →
      Settled m codec t dir names progress' b content) :
    Sofar m codec t dir names (done ++ [b]) progress' := by
  obtain ⟨next,_⟩ := ready.next whole
  -- `b` takes nothing from the other files: its output goes to none of them, nor to where one of theirs has gone.
  refine ⟨free,?_,sofar.sparser.trans sparser,?_,?_⟩
  · have first : Drift t progress.tree fun r => ∃ name ∈ done ++ [b], m.Outputs t name r := by
      refine sofar.drift.mono ?_
      rintro r ⟨a,earlier,output⟩
      exact ⟨a,List.mem_append_left _ earlier,output⟩
    have second : Drift progress.tree progress'.tree fun r => ∃ name ∈ done ++ [b], m.Outputs t name r :=
      drift.mono fun r output => ⟨b,by simp,output⟩
    exact first.trans second ready.rooted
  · intro name member out content file
    have before : name ∉ done := fun earlier => out (List.mem_append_left _ earlier)
    have other : name ≠ b := fun same => out (by simp [same])
    refine spares _ content (sofar.waiting name member before content file) ?_
    rintro (output | same)
    · exact ready.sources b next name member output
    · exact other (by simpa using same)
  · intro name earlier content file
    rcases List.mem_append.mp earlier with before | last
    · obtain ⟨member,other⟩ := ready.earlier whole name before
      exact (sofar.settled name before content file).keep ready sofar.drift member next other failed moved drift spares
    · obtain rfl := List.mem_singleton.mp last
      exact settles content file

/-- A file that is found when an output has been written was there to be read
when the output had just been opened. -/
theorem read_of_written {path output : List UInt8} {n : Option Node} (leaf : Leaf (t.get? r))
    (file : t.get? p = some (.file content)) (apart : p ≠ r)
    (found : (t.put r (.file output)).find .entry m.cwd path = .ok (p,n)) :
    (t.put r (.file [])).readFile m.cwd path = .ok content := by
  obtain ⟨sound,walks,_⟩ := find_eq_ok_iff.mp found
  have there := (put_changes leaf output).2 p content file apart
  have there' := (put_changes leaf []).2 p content file apart
  have opened : Walks (t.put r (.file [])) .entry FileTree.linkLimit (FileTree.origin m.cwd path)
      (FileTree.steps path) p := by
    rw [← put_put r (.file output) (.file [])]
    exact walks.rewrite (get?_put_self leaf.ne_nil _) []
  exact readFile_of_find (find_eq_ok_iff.mpr ⟨sound,opened.content (by simp [there']),there'.symm⟩)

/-- Once its source is removed, an output is found by its path. -/
theorem find_output {output : List UInt8} (rooted : Rooted t) (proper : ProperName name) (ordinary : t.Ordinary r)
    (opened : t.target m.cwd (m.destPath name) = .ok r) (file : t.get? p = some (.file content)) (apart : p ≠ r) :
    ((t.put r (.file output)).erase p).find .content m.cwd (m.destPath name) = .ok (r,some (.file output)) := by
  obtain ⟨sound,leaf,walks⟩ := exists_of_target rooted proper ordinary opened
  have source : Leaf (t.get? p) := .inr ⟨content,file⟩
  have there := (put_changes leaf output).2 p content file apart
  have drift : Drift t ((t.put r (.file output)).erase p) fun _ => False :=
    (FileTree.drift_put leaf output).trans (FileTree.drift_erase (.inr ⟨content,there⟩)) rooted
  refine find_eq_ok_iff.mpr ⟨sound,drift.walks walks (Leaf.solid leaf) id,?_⟩
  rw [FileTree.get?_erase source.ne_nil,if_neg (Ne.symm apart),get?_put_self leaf.ne_nil]

/-- One more file is moved: what is removed is that file, and its output is where
its path led. -/
theorem Sofar.moved {b : Name} {later : List Name} {run : CodecRun} {n : Node} {events : List Event}
    (ready : Ready m t dir names) (whole : names = done ++ b :: later)
    (sofar : Sofar m codec t dir names done progress)
    (before : done.foldl (m.advance codec) (.start t) = progress)
    (opened : progress.tree.target m.cwd (m.destPath b) = .ok r) (outputs : m.Outputs t b r)
    (created : progress.tree.create m.cwd (m.destPath b) = .opened r (progress.tree.put r (.file [])))
    (called : codec (progress.tree.put r (.file [])) (m.sourcePath b) = .ok run) (exit : run.exit = .code 0)
    (found : (progress.tree.put r (.file run.output)).find .entry m.cwd (m.sourcePath b) = .ok (p,some n)) :
    Sofar m codec t dir names (done ++ [b]) ⟨(progress.tree.put r (.file run.output)).erase p,
      ⟨progress.report.moved ++ [m.sourcePath b],progress.report.failed⟩,events,false⟩ := by
  obtain ⟨next,new⟩ := ready.next whole
  have rooted := sofar.drift.rooted ready.rooted
  obtain ⟨_,ordinary⟩ := sofar.ordinary ready whole opened
  obtain ⟨_,leaf,_⟩ := exists_of_target rooted (ready.proper b next) ordinary opened
  have apart : dir ++ [b] ≠ r := by
    rintro rfl
    exact ready.sources b next b next outputs
  -- The output has been written: the source is found where it was.
  obtain ⟨written,spared⟩ := put_changes leaf run.output
  have drift : Drift t (progress.tree.put r (.file run.output)) fun r => ∃ name ∈ names, m.Outputs t name r := by
    refine (sofar.drift.mono ?_).trans (written.mono fun q same => ⟨b,next,same ▸ outputs⟩) ready.rooted
    rintro q ⟨a,earlier,output⟩
    exact ⟨a,by simp [whole,earlier],output⟩
  obtain rfl := source_place ready drift next found
  obtain ⟨content,file⟩ := ready.files b next
  have there := sofar.waiting b next new content file
  have there' := spared _ content there apart
  have gone : dir ++ [b] ≠ [] := by simp
  refine sofar.extend ready whole rfl (fun _ => id) (fun path => List.mem_append_left _) ?_
    ((FileTree.sparser_put _ r _).trans (FileTree.sparser_erase _ _)) ?_ ?_
  · have removed : Drift (progress.tree.put r (.file run.output))
        ((progress.tree.put r (.file run.output)).erase (dir ++ [b])) (m.Outputs t b) :=
      FileTree.drift_erase (.inr ⟨content,there'⟩)
    exact (written.mono fun q same => same ▸ outputs).trans removed rooted
  · intro q kept file out
    have other : q ≠ r := fun same => out (.inl (same ▸ outputs))
    rw [FileTree.get?_erase gone,if_neg fun same => out (.inr same)]
    exact spared q kept file other
  · intro content' file'
    rw [file] at file'
    cases file'
    refine .moved (by simp) ⟨done,later,r,whole,?_,?_,called⟩ ?_ exit outputs (r := r) ?_
    · rw [before]
      exact sofar.free
    · rw [before]
      exact created
    · exact read_of_written leaf there apart found
    · exact find_output rooted (ready.proper b next) ordinary opened there apart

/-- The step of a pass: with a quiet codec, one more file is settled. -/
theorem Sofar.step {b : Name} {later : List Name} (quiet : Quiet codec) (ready : Ready m t dir names)
    (whole : names = done ++ b :: later)
    (sofar : Sofar m codec t dir names done (done.foldl (m.advance codec) (.start t))) :
    Sofar m codec t dir names (done ++ [b]) ((done ++ [b]).foldl (m.advance codec) (.start t)) := by
  rw [List.foldl_concat]
  generalize before : done.foldl (m.advance codec) (.start t) = progress at sofar ⊢
  obtain ⟨next,new⟩ := ready.next whole
  have rooted := sofar.drift.rooted ready.rooted
  have cases := compress_cases (m := m) quiet rooted (ready.proper b next) fun r opened =>
    (sofar.ordinary ready whole opened).2
  have there : ∀ content, t.get? (dir ++ [b]) = some (.file content) →
      progress.tree.get? (dir ++ [b]) = some (.file content) := sofar.waiting b next new
  simp only [advance,sofar.free,Bool.false_eq_true,if_false]
  generalize m.compress codec progress.tree b = attempt at cases ⊢
  obtain ⟨tree,events,verdict⟩ := attempt
  cases cases with
  | unopened =>
    refine sofar.extend ready whole rfl (fun path => List.mem_append_left _) (fun _ => id) (.refl _ _) (.refl _)
      (fun _ _ file _ => file) fun content file => ?_
    exact .kept (by simp) (there content file)
  | @kept r _ _ opened drift spares sparser =>
    have outputs := sofar.outputs ready whole opened
    refine sofar.extend ready whole rfl (fun path => List.mem_append_left _) (fun _ => id)
      (drift.mono fun q same => same ▸ outputs) sparser (fun q content file out => ?_) fun content file => ?_
    · exact spares q content file fun same => out (.inl (same ▸ outputs))
    · refine .kept (by simp) (spares _ content (there content file) ?_)
      rintro rfl
      exact ready.sources b next b next outputs
  | @moved r q run n opened created called exit found =>
    have outputs := sofar.outputs ready whole opened
    exact sofar.moved ready whole before opened outputs created called exit found

theorem Sofar.run {done later : List Name} (quiet : Quiet codec) (ready : Ready m t dir names)
    (whole : names = done ++ later) :
    Sofar m codec t dir names done (done.foldl (m.advance codec) (.start t)) := by
  -- A pass adds files at the end of what it has done.
  induction done using List.reverseRecOn generalizing later with
  | nil =>
    exact ⟨rfl,.refl t _,.refl t,fun name _ _ content file => file,fun name member => by cases member⟩
  | append_singleton done b ih =>
    rw [List.append_assoc,List.singleton_append] at whole
    exact (ih whole).step quiet ready whole

/-! ## The pending files -/

/-- The pending files are entries of the source directory. -/
theorem entries_of_pending (pending : m.pending t = .ok names) :
    ∃ dir, t.find .content m.cwd m.sourceDir = .ok (dir,some .dir) ∧
      ∀ name ∈ names, ∃ e, (dir ++ [name],e) ∈ t.entries ∧ m.isCandidate name e.node = true := by
  obtain ⟨entries,listed,sorted⟩ := Json.exists_of_map_eq_ok pending
  obtain ⟨dir,found,rfl⟩ := FileTree.exists_of_list listed
  refine ⟨dir,found,?_⟩
  intro name within
  rw [← sorted,List.mem_mergeSort] at within
  obtain ⟨⟨_,n⟩,kept,rfl⟩ := List.mem_map.mp within
  obtain ⟨inside,candidate⟩ := List.mem_filter.mp kept
  obtain ⟨e,member,rfl⟩ := FileTree.mem_children.mp inside
  exact ⟨e,member,candidate⟩

theorem proper_of_pending (proper : t.Proper) (pending : m.pending t = .ok names) : ∀ name ∈ names, ProperName name := by
  obtain ⟨dir,_,entries⟩ := entries_of_pending pending
  intro name within
  obtain ⟨n,entry,_⟩ := entries name within
  exact proper.names _ entry name (by simp)

theorem ready_of_listed (proper : t.Proper) (source : t.find .content m.cwd m.sourceDir = .ok (dir,some .dir))
    (pending : m.pending t = .ok names) (sources : ∀ a ∈ names, ∀ b ∈ names, ¬m.Outputs t a (dir ++ [b]))
    (outputs : ∀ a ∈ names, ∀ b ∈ names, ∀ p, t.get? p ≠ some .dir → m.Outputs t a p → m.Outputs t b p → a = b)
    (ordinary : ∀ a ∈ names, ∀ p, t.get? p ≠ some .dir → m.Outputs t a p → t.Ordinary p) : Ready m t dir names := by
  obtain ⟨d,found,member⟩ := entries_of_pending pending
  rw [source] at found
  cases found
  refine ⟨proper.rooted,source,proper_of_pending proper pending,?_,?_,sources,outputs,ordinary⟩
  · intro name within
    obtain ⟨⟨node,_,_⟩,entry,candidate⟩ := member name within
    cases node with
    | file content => exact ⟨content,proper.get?_of_mem entry⟩
    | dir | link | special => cases candidate
  · obtain ⟨entries,listed,sorted⟩ := Json.exists_of_map_eq_ok pending
    obtain ⟨d,_,rfl⟩ := FileTree.exists_of_list listed
    rw [← sorted,(List.mergeSort_perm _ _).nodup_iff]
    exact (proper.nodup_children d).sublist (List.filter_sublist.map _)

theorem ready_of_pending (proper : t.Proper) (source : t.find .content m.cwd m.sourceDir = .ok (dir,some .dir))
    (pending : m.pending t = .ok names) (apart : m.Apart t dir names) : Ready m t dir names := by
  refine ready_of_listed proper source pending apart.sources ?_ ?_
  · intro a first b second p _ outputs outputs'
    exact apart.outputs a first b second p outputs outputs'
  · intro a member p _ outputs
    exact apart.ordinary a member p outputs

/-- A pass loses no file. -/
theorem pass_keeps (quiet : Quiet codec) (proper : t.Proper)
    (source : t.find .content m.cwd m.sourceDir = .ok (dir,some .dir)) (pending : m.pending t = .ok names)
    (apart : m.Apart t dir names) :
    ∃ p, m.pass codec t = .ok p ∧ p.isStuck = false ∧
      ∀ name ∈ names, ∃ content, t.get? (dir ++ [name]) = some (.file content) ∧
      ((m.sourcePath name ∈ p.report.failed ∧ p.tree.get? (dir ++ [name]) = some (.file content)) ∨
        (m.sourcePath name ∈ p.report.moved ∧ ∃ tree run, Called m codec t names name tree run ∧
          tree.readFile m.cwd (m.sourcePath name) = .ok content ∧ run.exit = .code 0 ∧
          p.tree.readFile m.cwd (m.destPath name) = .ok run.output)) := by
  have ready := ready_of_pending proper source pending apart
  have sofar := Sofar.run (m := m) quiet ready (List.append_nil names).symm
  refine ⟨names.foldl (m.advance codec) (.start t),?_,sofar.free,?_⟩
  · rw [pass,pending]
    rfl
  · intro name member
    obtain ⟨content,file⟩ := ready.files name member
    refine ⟨content,file,?_⟩
    cases sofar.settled name member content file with
    | kept listed there => exact .inl ⟨listed,there⟩
    | moved listed called read exit outputs found =>
      exact .inr ⟨listed,_,_,called,read,exit,readFile_of_find found⟩

end

end

/-! ## A file kept and a file lost -/

/-- The name of a directory. -/
def inbox : Name := Utf8.ofString "in"

/-- The name of a file in it. -/
def letter : Name := Utf8.ofString "a.dat"

/-- A directory with one file. -/
def oneFile : FileTree := ⟨[([inbox],.dir),([inbox,letter],.file (Utf8.ofString "payload"))]⟩

/-- A mover that puts outputs next to the directory. -/
def outward : Mover := ⟨{ sourceDir := "in", destDir := "." },[]⟩

/-- A codec that writes what it reads. -/
def copying : Codec := fun t path => (t.readFile [] path).map fun content => ⟨content,.code 0,t⟩

theorem copying_quiet : Quiet copying := by
  intro t path run called
  obtain ⟨content,_,rfl⟩ := Json.exists_of_map_eq_ok called
  rfl

theorem oneFile_dir : oneFile.find .content [] inbox = .ok ([inbox],some .dir) :=
  find_names (by decide) (by decide) (by decide) (by decide) nofun (by decide)

theorem pending_letter {m : Mover} {t : FileTree} (source : m.settings.sourceDir = "in") (cwd : m.cwd = [])
    (suffix : m.settings.suffix = ".dat") (found : t.find .content [] inbox = .ok ([inbox],some .dir))
    (children : t.children [inbox] = [(letter,.file (Utf8.ofString "payload"))]) : m.pending t = .ok [letter] := by
  have candidate : m.isCandidate letter (.file (Utf8.ofString "payload")) = true := by
    rw [isCandidate,suffix]
    decide
  have listed : t.list m.cwd m.sourceDir = .ok [(letter,.file (Utf8.ofString "payload"))] := by
    rw [cwd,sourceDir,source,FileTree.list,← inbox,found]
    change Except.ok (t.children [inbox]) = _
    rw [children]
  rw [pending,listed]
  simp only [Except.map,List.filter_cons,candidate,List.filter_nil,if_true,List.map_singleton,
    List.mergeSort_singleton]

/-- The one file is pending where files of its name are moved out of its directory. -/
theorem oneFile_pending {m : Mover} (source : m.settings.sourceDir = "in") (cwd : m.cwd = [])
    (suffix : m.settings.suffix = ".dat") : m.pending oneFile = .ok [letter] :=
  pending_letter source cwd suffix oneFile_dir (by decide)

theorem outward_apart : outward.Apart oneFile [inbox] [letter] := by
  have dest : FileTree.steps outward.destDir = [FileTree.here] := by decide
  have found : oneFile.find .content outward.cwd outward.destDir = .ok ([],some .dir) := by
    refine find_eq_ok_iff.mpr ⟨by decide,?_,rfl⟩
    rw [dest]
    exact .stay rfl (.inl rfl) .done
  have nothing : oneFile.get? ([] ++ [outward.outputName letter]) = none := by decide
  refine apart_of_plain found (by decide) (by decide) ?_ ?_ ?_
  · intro name member target link
    obtain rfl := List.mem_singleton.mp member
    rw [nothing] at link
    cases link
  · intro name member
    obtain rfl := List.mem_singleton.mp member
    exact FileTree.ordinary_of_none nothing
  · intro same
    cases same

/-- A file that is moved out of its directory. -/
theorem outward_keeps :
    Quiet copying ∧ oneFile.Proper ∧
    oneFile.find .content outward.cwd outward.sourceDir = .ok ([inbox],some .dir) ∧
    outward.pending oneFile = .ok [letter] ∧ outward.Apart oneFile [inbox] [letter] ∧
    ∃ p, outward.pass copying oneFile = .ok p ∧ p.isStuck = false ∧ ∀ name ∈ [letter], ∃ content,
      oneFile.get? ([inbox] ++ [name]) = some (.file content) ∧
      ((outward.sourcePath name ∈ p.report.failed ∧ p.tree.get? ([inbox] ++ [name]) = some (.file content)) ∨
        (outward.sourcePath name ∈ p.report.moved ∧ ∃ tree run,
          Called outward copying oneFile [letter] name tree run ∧
          tree.readFile outward.cwd (outward.sourcePath name) = .ok content ∧ run.exit = .code 0 ∧
          p.tree.readFile outward.cwd (outward.destPath name) = .ok run.output)) := by
  have proper : oneFile.Proper := by decide
  have pending : outward.pending oneFile = .ok [letter] := oneFile_pending rfl rfl rfl
  exact ⟨copying_quiet,proper,oneFile_dir,pending,outward_apart,
    pass_keeps copying_quiet proper oneFile_dir pending outward_apart⟩

/-- Settings whose outputs go to the places of their sources. -/
def inPlace : Settings := { fileMover := { sourceDir := "in", destDir := "in", codec := "false", extension := "" } }

/-- The mover of these settings. -/
def inward : Mover := ⟨inPlace.fileMover,[]⟩

/-- A codec that reads nothing, writes nothing and fails. -/
def failing : Codec := fun t _ => .ok ⟨[],.code 1,t⟩

theorem failing_quiet : Quiet failing := by
  intro t path run called
  cases called
  rfl

theorem failing_fails (t : FileTree) (path : List UInt8) (run : CodecRun) (called : failing t path = .ok run) :
    run.exit ≠ .code 0 := by
  cases called
  exact (by decide : Exit.code 1 ≠ .code 0)

/-- Settings are accepted with which a pass fails with a file and does not keep it. -/
theorem inward_loses :
    inPlace.validate = .ok () ∧ Quiet failing ∧ oneFile.Proper ∧ inward.pending oneFile = .ok [letter] ∧
    ∃ p, inward.pass failing oneFile = .ok p ∧ p.report = ⟨[],[inward.sourcePath letter]⟩ ∧
      p.tree.get? [inbox,letter] = none := by
  have proper : oneFile.Proper := by decide
  have pending : inward.pending oneFile = .ok [letter] := oneFile_pending rfl rfl rfl
  have found (aim : FileTree.Aim) :
      oneFile.find aim [] (inward.sourcePath letter) = .ok ([inbox,letter],some (.file (Utf8.ofString "payload"))) :=
    find_names proper (by decide) (by decide) (by decide) nofun (by decide)
  have opened : oneFile.target [] (inward.destPath letter) = .ok [inbox,letter] := by
    change oneFile.target [] (inward.sourcePath letter) = _
    rw [FileTree.target,found]
  have ordinary : oneFile.Ordinary [inbox,letter] := FileTree.ordinary_of_file rfl rfl
  have gone : (inward.compress failing oneFile letter).tree = oneFile.erase [inbox,letter] :=
    compress_self failing_quiet rfl (found .entry) ordinary rfl rfl opened
  obtain ⟨e,failed⟩ : ∃ e, (inward.compress failing oneFile letter).verdict = .failed e := by
    refine compress_fails failing_fails fun r opened' => ?_
    obtain rfl : [inbox,letter] = r := Except.ok.inj (opened.symm.trans opened')
    exact ordinary
  have free : (Progress.start oneFile).isStuck = false := rfl
  have tried := advance_of_failed free failed
  refine ⟨by decide,failing_quiet,proper,pending,_,?_,congrArg Progress.report tried,?_⟩
  · rw [pass,pending]
    rfl
  · have nothing : (oneFile.erase [inbox,letter]).get? [inbox,letter] = none := by decide
    rw [← gone] at nothing
    rw [tried]
    exact nothing

end Lockstep.Mover
