import Lockstep.Proofs.FileTree.Growth
import Lockstep.Proofs.Partition

/-!
# What is left of an output that failed

The output of a file is opened, and emptied, before the codec starts, and where the
codec cannot be started or fails, what the output's path names is removed. So after
the pass the path names nothing, unless that was not allowed or a file of another
candidate came to stand there (`pass_discards`). It does not matter what was there
before: the output of an earlier pass is lost (`earlier_output_is_lost`).

Codecs may do here what they like to files, and remove what they like.
-/

namespace Lockstep.Mover

open FileTree (Walks Grows Laxer Proper ProperName)

/-- A codec that makes nothing but files. -/
def FilesOnly (codec : Codec) : Prop :=
  ∀ t path run, codec t path = .ok run →
    ∀ q n, run.tree.get? q = some n → t.get? q = some n ∨ ∃ content, n = .file content

/-- A codec that guards nothing. -/
def Lax (codec : Codec) : Prop := ∀ t path run, codec t path = .ok run → Laxer t run.tree

/-- A path names no entry. -/
def Vacant (t : FileTree) (cwd : Place) (path : List UInt8) : Prop :=
  ∀ q n, t.find .entry cwd path ≠ .ok (q,some n)

section
variable (m : Mover) (codec : Codec) (t : FileTree) (names : List Name) (name : Name)

/-- A pass over `names` opens the output of a file at a place. -/
def Opened (place : Place) : Prop :=
  ∃ earlier later tree, names = earlier ++ name :: later ∧
    (earlier.foldl (m.advance codec) (.start t)).isStuck = false ∧
    (earlier.foldl (m.advance codec) (.start t)).tree.create m.cwd (m.destPath name) = .opened place tree

/-- A pass over `names` opens the output of a file, and the codec cannot be started
for it or does not succeed. -/
def Refused : Prop :=
  ∃ earlier later place tree, names = earlier ++ name :: later ∧
    (earlier.foldl (m.advance codec) (.start t)).isStuck = false ∧
    (earlier.foldl (m.advance codec) (.start t)).tree.create m.cwd (m.destPath name) = .opened place tree ∧
    ∀ run, codec tree (m.sourcePath name) = .ok run → run.exit ≠ .code 0

/-- A file comes to stand at a place when a pass over `names` tries a candidate: its
output is opened there, or the codec makes the file. -/
def Brings (place : Place) : Prop :=
  m.Opened codec t names name place ∨
    ∃ tree run, m.Called codec t names name tree run ∧ tree.get? place = none ∧ run.tree.get? place ≠ none

end

section
variable {m : Mover} {codec : Codec} {t t' : FileTree} {fresh : Place → Prop} {place : Place} {name : Name}
  {names : List Name} {progress : Progress}

/-! ## One file -/

theorem exists_of_create {cwd : Place} {path : List UInt8} (created : t.create cwd path = .opened place t') :
    t.target cwd path = .ok place ∧
      (t' = t.fill place [] ∨ t' = t ∧ ∃ kind, t.get? place = some (.special kind)) := by
  unfold FileTree.create at created
  split at created
  · cases created
  next p opened =>
  obtain ⟨rfl,after⟩ := FileTree.exists_of_openAt created
  exact ⟨opened,after⟩

/-- Where an output is opened there is no directory, and its path leads there. -/
theorem walks_of_target {cwd : Place} {path : List UInt8} (opened : t.target cwd path = .ok place) :
    t.get? place ≠ some .dir ∧
      Walks t .writing FileTree.linkLimit (FileTree.origin cwd path) (FileTree.steps path) place := by
  obtain ⟨_,walks,other⟩ := target_eq_ok_iff.mp opened
  exact ⟨other,walks⟩

theorem ne_root (other : t.get? place ≠ some .dir) : place ≠ [] := by
  rintro rfl
  exact other rfl

theorem create_grows {cwd : Place} {path : List UInt8} (created : t.create cwd path = .opened place t') :
    Grows t t' (· = place) := by
  obtain ⟨opened,rfl | ⟨rfl,_⟩⟩ := exists_of_create created
  · exact FileTree.grows_fill (ne_root (walks_of_target opened).1) [] fun _ => rfl
  · exact .refl _ _

theorem remove_grows {cwd : Place} {path : List UInt8} (removed : t.remove cwd path = .ok t') : Grows t t' fresh := by
  obtain ⟨p,n,found,_,other,rfl⟩ := exists_of_remove removed
  obtain ⟨_,_,node⟩ := find_eq_ok_iff.mp found
  refine FileTree.grows_erase (ne_root (t := t) ?_)
  rw [← node]
  exact fun same => other (Option.some.inj same)

theorem discard_grows (m : Mover) (t : FileTree) (dest : List UInt8) : Grows t (m.discard t dest).1 fresh := by
  unfold discard
  cases removed : t.remove m.cwd dest with
  | error e => exact .refl t _
  | ok t' => exact remove_grows removed

theorem written_grows (t : FileTree) (place : Place) (output : List UInt8) : Grows t (t.written place output) fresh := by
  unfold FileTree.written
  split
  next content file =>
    refine FileTree.grows_fill (ne_root (t := t) (by simp [file])) output fun nothing => ?_
    rw [file] at nothing
    cases nothing
  next => exact .refl t _

theorem create_laxer {cwd : Place} {path : List UInt8} (created : t.create cwd path = .opened place t') :
    Laxer t t' := by
  obtain ⟨_,rfl | ⟨rfl,_⟩⟩ := exists_of_create created
  · exact FileTree.laxer_fill t place []
  · exact .refl _

theorem remove_laxer {cwd : Place} {path : List UInt8} (removed : t.remove cwd path = .ok t') : Laxer t t' := by
  obtain ⟨p,_,_,_,_,rfl⟩ := exists_of_remove removed
  exact FileTree.laxer_erase t p

theorem written_laxer (t : FileTree) (place : Place) (output : List UInt8) : Laxer t (t.written place output) := by
  unfold FileTree.written
  split
  · exact FileTree.laxer_fill t place output
  · exact .refl t

theorem discard_laxer (m : Mover) (t : FileTree) (dest : List UInt8) : Laxer t (m.discard t dest).1 := by
  unfold discard
  cases removed : t.remove m.cwd dest with
  | error e => exact .refl t
  | ok t' => exact remove_laxer removed

/-- What a codec leaves of the tree with an opened output, its own output written. -/
theorem codec_grows (place : Place) {path : List UInt8} {run : CodecRun} (files : FilesOnly codec)
    (called : codec t path = .ok run) (came : ∀ q, t.get? q = none → run.tree.get? q ≠ none → fresh q) :
    Grows t (run.tree.written place run.output) fresh := by
  refine .trans ?_ (written_grows run.tree place run.output)
  intro q n node
  rcases files t path run called q n node with same | file
  · exact .inl same
  · exact .inr ⟨file,fun nothing => came q nothing (by simp [node])⟩

/-- Where a path names no directory, it names nothing once its entry is removed, or a
guard has forbidden that. -/
theorem discard_vacant {dest : List UInt8} (solid : ∀ q, t.find .entry m.cwd dest ≠ .ok (q,some .dir)) :
    Vacant (m.discard t dest).1 m.cwd dest ∨ Event.partialKept dest .permissionDenied ∈ (m.discard t dest).2 ∧
      ∃ q n, t.find .entry m.cwd dest = .ok (q,some n) ∧ t.isGuarded q.dropLast = true := by
  by_cases named : ∃ q n, t.find .entry m.cwd dest = .ok (q,some n)
  · obtain ⟨q,n,named⟩ := named
    have removed := remove_of_find named fun dir => solid q (dir ▸ named)
    split at removed
    next guarded =>
      refine .inr ⟨?_,q,n,named,guarded⟩
      simp [discard,removed]
    next =>
      refine .inl ?_
      obtain ⟨_,walks,same⟩ := find_eq_ok_iff.mp named
      have grows : Grows t (t.erase q) fun _ => False := remove_grows removed
      have root : q ≠ [] := ne_root (t := t) (by rw [← same]; exact fun dir => solid q (Option.some.inj dir ▸ named))
      intro q' n' found
      simp only [discard,removed] at found
      obtain ⟨_,walks',same'⟩ := find_eq_ok_iff.mp found
      rcases grows.names walks' same'.symm with ⟨before,_⟩ | ⟨_,never⟩
      · -- The path named one entry only, and that is gone.
        obtain rfl := before.unique walks
        rw [FileTree.get?_erase root,if_pos rfl] at same'
        cases same'
      · exact never
  · refine .inl fun q n found => ?_
    unfold discard at found
    cases removed : t.remove m.cwd dest with
    | error e =>
      simp only [removed] at found
      exact named ⟨q,n,found⟩
    | ok after =>
      obtain ⟨p,node,there,_⟩ := exists_of_remove removed
      exact named ⟨p,node,there⟩

/-- However files come and entries go after an output was opened, its path names no
directory. -/
theorem solid_of_opened {path : List UInt8} {cwd q : Place} (opened : t.target cwd path = .ok place)
    (grows : Grows t t' fresh) : t'.find .entry cwd path ≠ .ok (q,some .dir) := by
  intro found
  obtain ⟨_,walks',same⟩ := find_eq_ok_iff.mp found
  obtain ⟨other,walks⟩ := walks_of_target opened
  have dir : t.get? q = some .dir := grows.solid same.symm (by simp)
  have leads := (grows.walks_dir walks' same.symm).content (by simp [dir])
  obtain rfl := leads.unique (walks.content_of_ne (by decide))
  exact other dir

/-- A file for which the codec cannot be started or fails is not moved, and its output
is discarded from what the codec has left of the tree. -/
theorem refused_left {tree : FileTree} (files : FilesOnly codec)
    (created : t.create m.cwd (m.destPath name) = .opened place tree)
    (fails : ∀ run, codec tree (m.sourcePath name) = .ok run → run.exit ≠ .code 0) :
    ∃ e left, (m.compress codec t name).verdict = .failed e ∧
      (m.compress codec t name).tree = (m.discard left (m.destPath name)).1 ∧
      (m.compress codec t name).events =
        .compressing (m.sourcePath name) (m.destPath name) :: (m.discard left (m.destPath name)).2 ∧
      Grows t left (fun _ => True) ∧ (Lax codec → Laxer t left) := by
  have begun : Grows t tree fun _ => True := (create_grows created).mono fun _ _ => trivial
  have lax := create_laxer created
  cases called : codec tree (m.sourcePath name) with
  | error e =>
    simp only [compress,created,called]
    exact ⟨e,tree,rfl,rfl,rfl,begun,fun _ => lax⟩
  | ok run =>
    simp only [compress,created,called,if_neg (fails run called)]
    have left : Grows tree (run.tree.written place run.output) fun _ => True :=
      codec_grows _ files called fun _ _ _ => trivial
    exact ⟨_,_,rfl,rfl,rfl,begun.trans left,fun codecLax =>
      lax.trans ((codecLax _ _ _ called).trans (written_laxer _ _ _))⟩

/-- What is left of a refused file's output: nothing, unless a guard has kept it. -/
theorem refused_vacant {tree : FileTree} (files : FilesOnly codec)
    (created : t.create m.cwd (m.destPath name) = .opened place tree)
    (fails : ∀ run, codec tree (m.sourcePath name) = .ok run → run.exit ≠ .code 0) :
    (∃ e, (m.compress codec t name).verdict = .failed e) ∧
      (Vacant (m.compress codec t name).tree m.cwd (m.destPath name) ∨
        Event.partialKept (m.destPath name) .permissionDenied ∈ (m.compress codec t name).events ∧
          ∃ left q n, Grows t left (fun _ => True) ∧ (Lax codec → Laxer t left) ∧
            left.find .entry m.cwd (m.destPath name) = .ok (q,some n) ∧ left.isGuarded q.dropLast = true) := by
  obtain ⟨opened,_⟩ := exists_of_create created
  obtain ⟨e,left,failed,tree,events,grows,lax⟩ := refused_left files created fails
  refine ⟨⟨e,failed⟩,?_⟩
  rw [tree,events]
  rcases discard_vacant (m := m) fun q => solid_of_opened opened grows with vacant | ⟨told,q,n,named,guarded⟩
  · exact .inl vacant
  · exact .inr ⟨List.mem_cons_of_mem _ told,left,q,n,grows,lax,named,guarded⟩

/-- Trying a file brings its opened output and what files the codec makes. -/
theorem compress_grows (files : FilesOnly codec) (t : FileTree) (name : Name) :
    Grows t (m.compress codec t name).tree fun q => ∃ place tree, t.create m.cwd (m.destPath name) = .opened place tree ∧
      (q = place ∨ ∃ run, codec tree (m.sourcePath name) = .ok run ∧ tree.get? q = none ∧ run.tree.get? q ≠ none) := by
  cases created : t.create m.cwd (m.destPath name) with
  | refused | stuck =>
    simp only [compress,created]
    exact .refl t _
  | opened place tree =>
    refine .trans ((create_grows created).mono fun q same => ⟨place,tree,rfl,.inl same⟩) ?_
    cases called : codec tree (m.sourcePath name) with
    | error e =>
      simp only [compress,created,called]
      exact discard_grows m tree _
    | ok run =>
      refine .trans (codec_grows place files called fun q nothing came =>
        ⟨place,tree,rfl,.inr ⟨run,called,nothing,came⟩⟩) ?_
      simp only [compress,created,called]
      split
      · cases removed : (run.tree.written place run.output).remove m.cwd (m.sourcePath name) with
        | error e => exact .refl _ _
        | ok after => exact remove_grows removed
      · exact discard_grows m _ _

/-! ## A pass -/

/-- While more files are tried, only what these bring is new. -/
theorem foldl_grows {later : List Name} (done : List Name) (files : FilesOnly codec) (more : List Name)
    (whole : names = done ++ more ++ later) :
    Grows (done.foldl (m.advance codec) (.start t)).tree ((done ++ more).foldl (m.advance codec) (.start t)).tree
      fun q => ∃ b ∈ more, m.Brings codec t names b q := by
  induction more using List.reverseRecOn generalizing later with
  | nil =>
    rw [List.append_nil]
    exact .refl _ _
  | append_singleton more b ih =>
    have whole' : names = done ++ more ++ b :: later := by simp [whole]
    have first := (ih whole').mono fun q brought => by
      obtain ⟨a,member,brings⟩ := brought
      exact (⟨a,List.mem_append_left _ member,brings⟩ : ∃ b' ∈ more ++ [b], m.Brings codec t names b' q)
    refine first.trans ?_
    rw [← List.append_assoc,List.foldl_concat]
    cases free : ((done ++ more).foldl (m.advance codec) (.start t)).isStuck with
    | true =>
      rw [advance_stuck free]
      exact .refl _ _
    | false =>
      rw [advance_tree free]
      refine (compress_grows files _ b).mono ?_
      rintro q ⟨place,tree,created,rfl | ⟨run,called,nothing,came⟩⟩
      · exact ⟨b,by simp,.inl ⟨_,_,tree,whole',free,created⟩⟩
      · exact ⟨b,by simp,.inr ⟨tree,run,⟨_,_,place,whole',free,created,called⟩,nothing,came⟩⟩

theorem compress_laxer (lax : Lax codec) (t : FileTree) (name : Name) : Laxer t (m.compress codec t name).tree := by
  cases created : t.create m.cwd (m.destPath name) with
  | refused | stuck =>
    simp only [compress,created]
    exact .refl t
  | opened place tree =>
    refine (create_laxer created).trans ?_
    cases called : codec tree (m.sourcePath name) with
    | error e =>
      simp only [compress,created,called]
      exact discard_laxer m tree _
    | ok run =>
      refine ((lax _ _ _ called).trans (written_laxer _ place run.output)).trans ?_
      simp only [compress,created,called]
      split
      · cases removed : (run.tree.written place run.output).remove m.cwd (m.sourcePath name) with
        | error e => exact .refl _
        | ok after => exact remove_laxer removed
      · exact discard_laxer m _ _

theorem foldl_laxer (lax : Lax codec) (done : List Name) :
    Laxer t (done.foldl (m.advance codec) (.start t)).tree := by
  induction done using List.reverseRecOn with
  | nil => exact .refl t
  | append_singleton done b ih =>
    rw [List.foldl_concat]
    cases free : (done.foldl (m.advance codec) (.start t)).isStuck with
    | true =>
      rw [advance_stuck free]
      exact ih
    | false =>
      rw [advance_tree free]
      exact ih.trans (compress_laxer lax _ b)

/-- What has been told of a pass is told to its end: its events and the files it failed
with. -/
theorem told_of_advance (m : Mover) (codec : Codec) (progress : Progress) (b : Name) :
    (∀ e ∈ progress.events, e ∈ (m.advance codec progress b).events) ∧
      ∀ path ∈ progress.report.failed, path ∈ (m.advance codec progress b).report.failed := by
  cases free : progress.isStuck with
  | true =>
    rw [advance_stuck free]
    exact ⟨fun _ => id,fun _ => id⟩
  | false =>
    cases verdict : (m.compress codec progress.tree b).verdict with
    | moved =>
      rw [advance_of_moved free verdict]
      exact ⟨fun _ => List.mem_append_left _,fun _ => id⟩
    | failed e =>
      rw [advance_of_failed free verdict]
      exact ⟨fun _ told => List.mem_append_left _ (List.mem_append_left _ told),fun _ => List.mem_append_left _⟩
    | stuck =>
      rw [advance_of_stuck free verdict]
      exact ⟨fun _ => List.mem_append_left _,fun _ => id⟩

theorem told_of_foldl (m : Mover) (codec : Codec) (t : FileTree) (done later : List Name) :
    (∀ e ∈ (done.foldl (m.advance codec) (.start t)).events,
      e ∈ ((done ++ later).foldl (m.advance codec) (.start t)).events) ∧
    ∀ path ∈ (done.foldl (m.advance codec) (.start t)).report.failed,
      path ∈ ((done ++ later).foldl (m.advance codec) (.start t)).report.failed := by
  induction later using List.reverseRecOn with
  | nil =>
    rw [List.append_nil]
    exact ⟨fun _ => id,fun _ => id⟩
  | append_singleton later b ih =>
    rw [← List.append_assoc,List.foldl_concat]
    obtain ⟨events,failed⟩ := told_of_advance m codec ((done ++ later).foldl (m.advance codec) (.start t)) b
    exact ⟨fun e told => events e (ih.1 e told),fun path told => failed path (ih.2 path told)⟩

/-- Where the destination directory was found the path of an output still goes through
it, and there takes the output's name. -/
theorem walks_output {aim : FileTree.Aim} {links : Nat} {dest q : Place}
    (found : t.find .content m.cwd m.destDir = .ok (dest,some .dir)) (proper : ProperName (m.outputName name))
    (grows : Grows t t' fresh)
    (walks : Walks t' aim links (FileTree.origin m.cwd (m.destPath name)) (FileTree.steps (m.destPath name)) q) :
    ∃ k, Walks t' aim k dest [m.outputName name] q := by
  obtain ⟨sound,there,_⟩ := find_eq_ok_iff.mp found
  have some : m.destDir ≠ [] := by
    intro none
    rw [none] at sound
    cases sound
  have steps : FileTree.steps (m.destPath name) = FileTree.names m.destDir ++ [m.outputName name] :=
    FileTree.steps_join some proper
  have origin : FileTree.origin m.cwd (m.destPath name) = FileTree.origin m.cwd m.destDir :=
    FileTree.origin_join some m.cwd _
  rw [steps,origin] at walks
  obtain ⟨d,_,k,before,dir,last⟩ := walks.split
  obtain rfl := FileTree.Leads.unique ⟨_,grows.walks_dir before dir⟩ (FileTree.Leads.names ⟨_,there⟩)
  exact ⟨k,last⟩

section
variable {dest q : Place}

/-- The path of an output names the entry of the output's name. -/
theorem entry_of_output (found : t.find .content m.cwd m.destDir = .ok (dest,some .dir))
    (proper : ProperName (m.outputName name)) (grows : Grows t t' fresh) {n : Option Node}
    (there : t'.find .entry m.cwd (m.destPath name) = .ok (q,n)) : q = dest ++ [m.outputName name] := by
  obtain ⟨_,walks,_⟩ := find_eq_ok_iff.mp there
  obtain ⟨_,last⟩ := walks_output found proper grows walks
  exact last.last proper fun _ _ => rfl

/-- Where there was no link in the way an output is opened at the entry of its name. -/
theorem place_of_output (found : t.find .content m.cwd m.destDir = .ok (dest,some .dir))
    (proper : ProperName (m.outputName name)) (plain : ∀ target, t.get? (dest ++ [m.outputName name]) ≠ some (.link target))
    (grows : Grows t t' fresh) (opened : t'.target m.cwd (m.destPath name) = .ok q) :
    q = dest ++ [m.outputName name] := by
  obtain ⟨_,last⟩ := walks_output found proper grows (walks_of_target opened).2
  exact last.last proper fun target link => absurd (grows.solid link (by simp)) (plain target)

end

/-- Of a refused file, listed as failed, the output's path names nothing after the
pass but a file that another candidate brought, unless a guard has kept it. -/
theorem Refused.brought (files : FilesOnly codec) (nodup : names.Nodup) (refused : m.Refused codec t names name) :
    m.sourcePath name ∈ (names.foldl (m.advance codec) (.start t)).report.failed ∧
      ((∀ q n, (names.foldl (m.advance codec) (.start t)).tree.find .entry m.cwd (m.destPath name) = .ok (q,some n) →
          (∃ content, n = .file content) ∧ ∃ other ∈ names, other ≠ name ∧ m.Brings codec t names other q) ∨
        Event.partialKept (m.destPath name) .permissionDenied ∈ (names.foldl (m.advance codec) (.start t)).events ∧
          ∃ left q n, Grows t left (fun _ => True) ∧ (Lax codec → Laxer t left) ∧
            left.find .entry m.cwd (m.destPath name) = .ok (q,some n) ∧ left.isGuarded q.dropLast = true) := by
  obtain ⟨earlier,later,place,tree,whole,free,created,fails⟩ := refused
  obtain ⟨⟨e,failed⟩,left⟩ := refused_vacant files created fails
  have split : names = earlier ++ [name] ++ later := by simp [whole]
  have tried : (earlier ++ [name]).foldl (m.advance codec) (.start t) =
      m.advance codec (earlier.foldl (m.advance codec) (.start t)) name := List.foldl_concat ..
  obtain ⟨events,report⟩ := told_of_foldl m codec t (earlier ++ [name]) later
  rw [← split] at events report
  refine ⟨?_,?_⟩
  · refine report _ ?_
    rw [tried,advance_of_failed free failed]
    simp
  rcases left with vacant | ⟨kept,left,q,n,grows,lax,named,guarded⟩
  · -- Nothing is left by the time the file is done, and then others come.
    refine .inl ?_
    rw [← advance_tree free,← tried] at vacant
    have grows := foldl_grows (m := m) (t := t) _ files later (split.trans (List.append_nil _).symm)
    rw [← split] at grows
    intro q n found
    obtain ⟨sound,walks,node⟩ := find_eq_ok_iff.mp found
    rcases grows.names walks node.symm with ⟨before,there⟩ | ⟨file,other,member,brings⟩
    · obtain ⟨n',was⟩ := Option.ne_none_iff_exists'.mp there
      exact absurd (find_eq_ok_iff.mpr ⟨sound,before,was.symm⟩) (vacant q n')
    · refine ⟨file,other,by simp [whole,member],?_,brings⟩
      rintro rfl
      rw [split,List.nodup_append] at nodup
      exact nodup.2.2 other (by simp) other member rfl
  · refine .inr ⟨events _ ?_,left,q,n,?_,fun codecLax => (foldl_laxer codecLax earlier).trans (lax codecLax),named,guarded⟩
    · rw [tried,advance_of_failed free failed]
      exact List.mem_append_left _ (List.mem_append_right _ kept)
    · have before : Grows t (earlier.foldl (m.advance codec) (.start t)).tree fun _ => True :=
        (foldl_grows [] files earlier whole).mono fun _ _ => trivial
      exact before.trans grows

/-- Where no link is in the way, no output is opened where the path of another one
leads. -/
theorem Opened.name_eq {dest q : Place} {other : Name} {n : Option Node} (files : FilesOnly codec)
    (found : t.find .content m.cwd m.destDir = .ok (dest,some .dir)) (proper : ProperName (m.outputName name))
    (proper' : ProperName (m.outputName other))
    (plain : ∀ target, t.get? (dest ++ [m.outputName other]) ≠ some (.link target))
    (opened : m.Opened codec t names other q)
    (there : (names.foldl (m.advance codec) (.start t)).tree.find .entry m.cwd (m.destPath name) = .ok (q,n)) :
    other = name := by
  obtain ⟨before,_,_,whole,_,created⟩ := opened
  obtain ⟨opened,_⟩ := exists_of_create created
  have named : q = dest ++ [m.outputName name] :=
    entry_of_output found proper (foldl_grows [] files names (List.append_nil _).symm) there
  have placed : q = dest ++ [m.outputName other] :=
    place_of_output found proper' plain (foldl_grows [] files before whole) opened
  have same := (List.cons.inj (List.append_cancel_left (placed.symm.trans named))).1
  exact List.append_cancel_right same

/-- After a pass nothing stands where the path of an output leads whose codec could
not be started or failed, be there what may before, unless its removal was forbidden, of
which the log tells, or another candidate brought a file there. Nothing does where the
destination directory is not guarded, the codec makes no files but its outputs and no
guards, and no link stands in the place of another candidate's output. -/
theorem pass_discards (files : FilesOnly codec) (proper : t.Proper) (pending : m.pending t = .ok names)
    (refused : m.Refused codec t names name) :
    ∃ p, m.pass codec t = .ok p ∧ m.sourcePath name ∈ p.report.failed ∧
      (Event.partialKept (m.destPath name) .permissionDenied ∉ p.events →
        ∀ q n, p.tree.find .entry m.cwd (m.destPath name) = .ok (q,some n) →
          (∃ content, n = .file content) ∧ ∃ other ∈ names, other ≠ name ∧ m.Brings codec t names other q) ∧
      ∀ dest, t.find .content m.cwd m.destDir = .ok (dest,some .dir) → t.isGuarded dest = false →
        FileTree.slash ∉ Utf8.ofString m.settings.extension →
        (∀ other ∈ names, other ≠ name → ∀ target, t.get? (dest ++ [m.outputName other]) ≠ some (.link target)) →
        (∀ t path run, codec t path = .ok run → ∀ q, t.get? q = none → run.tree.get? q = none) → Lax codec →
        Vacant p.tree m.cwd (m.destPath name) := by
  obtain ⟨entries,listed,_⟩ := Json.exists_of_map_eq_ok pending
  obtain ⟨dir,source,_⟩ := FileTree.exists_of_list listed
  obtain ⟨names',pending',candidates,nodup,_⟩ := exists_pending proper.distinct source
  obtain rfl : names' = names := Except.ok.inj (pending'.symm.trans pending)
  obtain ⟨failed,left⟩ := refused.brought files nodup
  have passed : m.pass codec t = .ok (names'.foldl (m.advance codec) (.start t)) := by
    rw [pass,pending]
    rfl
  refine ⟨_,passed,failed,?_,?_⟩
  · intro free
    rcases left with brought | ⟨kept,_⟩
    · exact brought
    · exact absurd kept free
  · intro dest found free flat plain sparing lax q n there
    obtain ⟨_,_,_,_,whole,_⟩ := refused
    have inside : name ∈ names' := by simp [whole]
    have proper' : ∀ b ∈ names', ProperName (m.outputName b) := fun b within =>
      (((candidates b).mp within).proper proper).append flat
    rcases left with brought | ⟨_,left,q',n',grows,laxer,named,guarded⟩
    · obtain ⟨_,other,member,differ,brings⟩ := brought q n there
      rcases brings with opened | ⟨_,run,⟨_,_,_,_,_,_,called⟩,nothing,came⟩
      · exact differ (opened.name_eq files found (proper' name inside) (proper' other member)
          (plain other member differ) there)
      · exact came (sparing _ _ _ called q nothing)
    · obtain rfl := entry_of_output found (proper' name inside) grows named
      rw [List.dropLast_concat] at guarded
      rw [laxer lax dest guarded] at free
      cases free

end

/-! ## An earlier output -/

/-- Two directories: one with a file, one with what an earlier pass made of a file of
that name. -/
def shelf : FileTree :=
  ⟨[([inbox],.dir),([inbox,letter],.file (Utf8.ofString "payload")),([outbox],.dir),
    ([outbox,packed],.file (Utf8.ofString "old"))]⟩

theorem Quiet.filesOnly {codec : Codec} (quiet : Quiet codec) : FilesOnly codec := by
  intro t path run called q n node
  rw [quiet t path run called] at node
  exact .inl node

theorem Quiet.lax {codec : Codec} (quiet : Quiet codec) : Lax codec := by
  intro t path run called
  rw [quiet t path run called]
  exact .refl t

theorem shelf_pending : filing.pending shelf = .ok [letter] :=
  pending_letter rfl rfl rfl (find_names (by decide) (by decide) (by decide) (by decide) nofun (by decide)) (by decide)

theorem shelf_output {aim : FileTree.Aim} :
    shelf.find aim [] (filing.destPath letter) = .ok ([outbox,packed],some (.file (Utf8.ofString "old"))) :=
  find_names (by decide) (by decide) (by decide) (by decide) nofun (by decide)

theorem shelf_created :
    shelf.create [] (filing.destPath letter) = .opened [outbox,packed] (shelf.put [outbox,packed] (.file [])) := by
  have opened : shelf.target [] (filing.destPath letter) = .ok [outbox,packed] := by
    rw [FileTree.target,shelf_output]
  rw [create_of_target (FileTree.ordinary_of_file rfl rfl) opened]
  rfl

theorem shelf_refused : filing.Refused failing shelf [letter] letter :=
  ⟨[],[],_,_,rfl,rfl,shelf_created,failing_fails _ _⟩

/-- The codec fails, and the output that an earlier pass has left is gone. -/
theorem earlier_output_is_lost :
    filing.settings.sourceDir ≠ filing.settings.destDir ∧ shelf.Proper ∧ Quiet failing ∧
    filing.pending shelf = .ok [letter] ∧ filing.Refused failing shelf [letter] letter ∧
    shelf.find .entry [] (filing.destPath letter) = .ok ([outbox,packed],some (.file (Utf8.ofString "old"))) ∧
    ∃ p, filing.pass failing shelf = .ok p ∧ p.report = ⟨[],[filing.sourcePath letter]⟩ ∧
      Vacant p.tree [] (filing.destPath letter) := by
  obtain ⟨⟨e,failed⟩,left⟩ := refused_vacant (m := filing) failing_quiet.filesOnly shelf_created (failing_fails _ _)
  have vacant : Vacant (filing.compress failing shelf letter).tree [] (filing.destPath letter) := by
    rcases left with vacant | ⟨_,_,q,_,_,lax,_,guarded⟩
    · exact vacant
    · have free := FileTree.isGuarded_eq_false (t := shelf) (by decide) q.dropLast
      rw [lax failing_quiet.lax _ guarded] at free
      cases free
  have free : (Progress.start shelf).isStuck = false := rfl
  have tried := advance_of_failed free failed
  refine ⟨by decide,by decide,failing_quiet,shelf_pending,shelf_refused,shelf_output,_,?_,
    congrArg Progress.report tried,?_⟩
  · rw [pass,shelf_pending]
    rfl
  · rw [tried]
    exact vacant

/-- After a pass that has failed with the one file there is no output. -/
theorem shelf_discards :
    FilesOnly failing ∧ shelf.Proper ∧ filing.pending shelf = .ok [letter] ∧
    filing.Refused failing shelf [letter] letter ∧
    ∃ p, filing.pass failing shelf = .ok p ∧ filing.sourcePath letter ∈ p.report.failed ∧
      Vacant p.tree [] (filing.destPath letter) := by
  have files := failing_quiet.filesOnly
  have proper : shelf.Proper := by decide
  obtain ⟨p,passed,failed,_,vacant⟩ := pass_discards files proper shelf_pending shelf_refused
  have dest : shelf.find .content [] filing.destDir = .ok ([outbox],some .dir) :=
    find_names proper (by decide) (by decide) (by decide) nofun (by decide)
  refine ⟨files,proper,shelf_pending,shelf_refused,p,passed,failed,
    vacant [outbox] dest (by decide) (by decide) ?_ ?_ failing_quiet.lax⟩
  · intro other member differ
    exact absurd (List.mem_singleton.mp member) differ
  · intro t path run called q nothing
    rw [failing_quiet t path run called]
    exact nothing

end Lockstep.Mover
