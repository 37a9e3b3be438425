import Mathlib.Data.List.Sort
import Lockstep.Proofs.FileTree.Edits
import Lockstep.Proofs.Relocation
import Lockstep.Proofs.Utf8

/-!
# What a pass does to the files it finds

With a codec that touches no file itself, a pass from one directory to another
divides the candidates (`Divides`): the report has each of them once, moved or
failed, in the order of paths; the source directory loses the moved ones and
nothing else, the destination directory changes at most at the names of outputs,
and what a next pass finds are the failed ones (`pass_divides`).

Outputs are opened through links, and what a file is opened for is lost under its
further names too. That is of no concern as long as links lead out of both directories
and outputs go where nothing stands or an ordinary file (`Grounds`); a link that leads
to another file in the destination directory is that file's end (`record_is_emptied`).
-/

namespace Lockstep.Mover

open FileTree (Leads Walks Drift Leaf Rooted Proper ProperName Edited)

/-! ## The order of names -/

theorem leBytes_iff {a b : List UInt8} : FileTree.leBytes a b = true ↔ a ≤ b := by
  rw [FileTree.leBytes,Bool.not_eq_true',decide_eq_false_iff_not,List.not_lt]

theorem pairwise_sorted (names : List Name) : (names.mergeSort FileTree.leBytes).Pairwise (· ≤ ·) := by
  refine (@List.pairwise_mergeSort _ FileTree.leBytes ?_ ?_ names).imp leBytes_iff.mp
  · intro a b c first second
    exact leBytes_iff.mpr (List.le_trans (leBytes_iff.mp first) (leBytes_iff.mp second))
  · intro a b
    rw [Bool.or_eq_true,leBytes_iff,leBytes_iff]
    exact List.le_total a b

theorem join_inj {path : List UInt8} {a b : Name} (same : FileTree.join path a = FileTree.join path b) : a = b := by
  unfold FileTree.join at same
  split at same
  · exact List.append_cancel_left same
  · exact (List.cons.inj (List.append_cancel_left same)).2

/-- Names in ascending order, each once, are in the order of their paths. -/
theorem ascending_paths {names : List Name} (sorted : names.Pairwise (· ≤ ·)) (nodup : names.Nodup) (m : Mover) :
    (names.map m.sourcePath).Pairwise (· < ·) := by
  rw [List.pairwise_map]
  refine (List.pairwise_and_iff.mpr ⟨sorted,nodup⟩).imp ?_
  rintro a b ⟨before,other⟩
  have less : a < b := Std.lt_of_le_of_ne before other
  unfold sourcePath FileTree.join
  split
  · exact List.append_left_lt less
  · exact List.append_left_lt (List.cons_lt_cons_iff.mpr (.inr ⟨rfl,less⟩))

/-! ## Candidates -/

/-- A file to move: its name is text that ends in the suffix. -/
def Candidate (m : Mover) (t : FileTree) (dir : Place) (name : Name) : Prop :=
  (∃ content, t.get? (dir ++ [name]) = some (.file content)) ∧
    ∃ text, name = Utf8.encode text ∧ m.settings.suffix.toList <:+ text

section
variable {m : Mover} {codec : Codec} {t t' : FileTree} {dir dest p q r : Place} {name : Name} {names : List Name}
  {lost places : Place → Prop}

theorem isCandidate_iff {n : Node} : m.isCandidate name n = true ↔
    (∃ content, n = .file content) ∧ ∃ text, name = Utf8.encode text ∧ m.settings.suffix.toList <:+ text := by
  cases n with
  | dir | link | special => simp [isCandidate]
  | file content =>
    rw [isCandidate,Bool.and_eq_true,Option.isSome_iff_exists,List.isSuffixOf_iff_suffix]
    constructor
    · rintro ⟨⟨text,strict⟩,suffix⟩
      obtain rfl := Utf8.strict?_eq_some_iff.mp strict
      exact ⟨⟨content,rfl⟩,text,rfl,Utf8.encode_suffix_iff.mp suffix⟩
    · rintro ⟨_,text,rfl,suffix⟩
      exact ⟨⟨text,Utf8.strict?_eq_some_iff.mpr rfl⟩,Utf8.encode_suffix_iff.mpr suffix⟩

/-- A readable directory has its pending files: the candidates in it, each once, in
ascending order. -/
theorem exists_pending (distinct : (t.entries.map (·.1)).Nodup)
    (source : t.find .content m.cwd m.sourceDir = .ok (dir,some .dir)) :
    ∃ names, m.pending t = .ok names ∧ (∀ name, name ∈ names ↔ m.Candidate t dir name) ∧ names.Nodup ∧
      names.Pairwise (· ≤ ·) := by
  have listed : t.list m.cwd m.sourceDir = .ok (t.children dir) := by rw [FileTree.list,source]
  refine ⟨_,by rw [pending,listed]; rfl,?_,?_,pairwise_sorted _⟩
  · intro name
    rw [List.mem_mergeSort,List.mem_map]
    constructor
    · rintro ⟨⟨_,n⟩,member,rfl⟩
      obtain ⟨inside,candidate⟩ := List.mem_filter.mp member
      obtain ⟨⟨content,rfl⟩,text⟩ := isCandidate_iff.mp candidate
      obtain ⟨e,entry,node⟩ := FileTree.mem_children.mp inside
      exact ⟨⟨content,node ▸ FileTree.get?_of_mem distinct entry⟩,text⟩
    · rintro ⟨⟨content,file⟩,text⟩
      have entry := FileTree.mem_of_get? (by simp) file
      exact ⟨(name,.file content),
        List.mem_filter.mpr ⟨FileTree.mem_children.mpr entry,isCandidate_iff.mpr ⟨⟨content,rfl⟩,text⟩⟩,rfl⟩
  · rw [(List.mergeSort_perm _ _).nodup_iff]
    exact (FileTree.nodup_children distinct dir).sublist (List.filter_sublist.map _)

/-! ## The report -/

/-- The files `done` have been told apart into moved and failed ones. -/
structure Told (m : Mover) (report : Report) (done moved failed : List Name) : Prop where
  report : report = ⟨moved.map m.sourcePath,failed.map m.sourcePath⟩
  perm : (moved ++ failed).Perm done
  order : moved.Sublist done ∧ failed.Sublist done

theorem Told.step {progress : Progress} {done moved failed : List Name}
    (told : Told m progress.report done moved failed) {codec : Codec} {b : Name} (free : progress.isStuck = false)
    (free' : (m.advance codec progress b).isStuck = false) :
    ((m.compress codec progress.tree b).verdict = .moved ∧
        Told m (m.advance codec progress b).report (done ++ [b]) (moved ++ [b]) failed) ∨
      (∃ e, (m.compress codec progress.tree b).verdict = .failed e) ∧
        Told m (m.advance codec progress b).report (done ++ [b]) moved (failed ++ [b]) := by
  obtain ⟨report,perm,first,second⟩ := told
  have later : done.Sublist (done ++ [b]) := List.sublist_append_left _ _
  cases verdict : (m.compress codec progress.tree b).verdict with
  | moved =>
    rw [advance_of_moved free verdict]
    refine .inl ⟨rfl,?_,?_,first.append_right [b],second.trans later⟩
    · simp only [report,List.map_append,List.map_singleton]
    · calc
        List.Perm (moved ++ [b] ++ failed) (moved ++ failed ++ [b]) := by
          rw [List.append_assoc,List.append_assoc]
          exact List.perm_append_comm.append_left moved
        List.Perm _ (done ++ [b]) := perm.append_right [b]
  | failed e =>
    rw [advance_of_failed free verdict]
    refine .inr ⟨⟨e,rfl⟩,?_,?_,first.trans later,second.append_right [b]⟩
    · simp only [report,List.map_append,List.map_singleton]
    · rw [← List.append_assoc]
      exact perm.append_right [b]
  | stuck =>
    rw [advance_of_stuck free verdict] at free'
    cases free'

/-- A pass that comes to an end has told all its files apart. -/
theorem exists_told {m : Mover} {codec : Codec} {t : FileTree} {done : List Name}
    (free : (done.foldl (m.advance codec) (.start t)).isStuck = false) :
    ∃ moved failed, Told m (done.foldl (m.advance codec) (.start t)).report done moved failed := by
  induction done using List.reverseRecOn with
  | nil => exact ⟨[],[],rfl,.refl _,.refl _,.refl _⟩
  | append_singleton done b ih =>
    rw [List.foldl_concat] at free ⊢
    have before := free_of_advance free
    obtain ⟨moved,failed,told⟩ := ih before
    rcases told.step before free with ⟨_,told⟩ | ⟨_,told⟩
    · exact ⟨_,_,told⟩
    · exact ⟨_,_,told⟩

/-! ## The places of outputs -/

/-- A link in the place of a file's output leads elsewhere, to a file or nothing. -/
def Diverted (m : Mover) (t : FileTree) (dir dest : Place) (name : Name) (p : Place) : Prop :=
  m.Candidate t dir name ∧ (∃ target, t.get? (dest ++ [m.outputName name]) = some (.link target)) ∧
    m.Outputs t name p ∧ t.get? p ≠ some .dir

/-- Two directories, neither inside the other, and outputs that are entries of the
second, or are diverted out of both, no two to the same place, and none to a special
file or one with another name. -/
structure Grounds (m : Mover) (t : FileTree) (dir dest : Place) : Prop where
  proper : t.Proper
  source : t.find .content m.cwd m.sourceDir = .ok (dir,some .dir)
  target : t.find .content m.cwd m.destDir = .ok (dest,some .dir)
  beside : ¬dir <+: dest ∧ ¬dest <+: dir
  flat : FileTree.slash ∉ Utf8.ofString m.settings.extension
  outside : ∀ name p, m.Diverted t dir dest name p → ¬dir <+: p ∧ ¬dest <+: p
  single : ∀ a b p, m.Diverted t dir dest a p → m.Diverted t dir dest b p → a = b
  ordinary : ∀ name p, m.Candidate t dir name → m.Outputs t name p → t.get? p ≠ some .dir → t.Ordinary p

/-- The places that a file's output may take: the entry of its name, and the place
that its path leads to. -/
def Taken (m : Mover) (t : FileTree) (dest : Place) (name : Name) (q : Place) : Prop :=
  q = dest ++ [m.outputName name] ∨ m.Outputs t name q ∧ t.get? q ≠ some .dir

theorem Candidate.proper (candidate : m.Candidate t dir name) (proper : t.Proper) : ProperName name := by
  obtain ⟨⟨content,file⟩,_⟩ := candidate
  obtain ⟨_,member,_⟩ := FileTree.mem_of_get? (by simp) file
  exact proper.names _ member name (by simp)

theorem Grounds.not_inside (grounds : Grounds m t dir dest) (s : List Name) : ¬dir <+: dest ++ s := by
  intro inside
  rcases List.prefix_or_prefix_of_prefix inside (List.prefix_append dest s) with one | other
  · exact grounds.beside.1 one
  · exact grounds.beside.2 other

theorem Grounds.not_inside' (grounds : Grounds m t dir dest) (s : List Name) : ¬dest <+: dir ++ s := by
  intro inside
  rcases List.prefix_or_prefix_of_prefix inside (List.prefix_append dir s) with one | other
  · exact grounds.beside.2 one
  · exact grounds.beside.1 other

/-- An output goes to the entry of its name or is diverted. -/
theorem Grounds.place_cases (grounds : Grounds m t dir dest) (candidate : m.Candidate t dir name)
    (outputs : m.Outputs t name p) (free : t.get? p ≠ some .dir) :
    p = dest ++ [m.outputName name] ∨ m.Diverted t dir dest name p := by
  by_cases link : ∃ target, t.get? (dest ++ [m.outputName name]) = some (.link target)
  · exact .inr ⟨candidate,link,outputs,free⟩
  · have proper := (candidate.proper grounds.proper).append grounds.flat
    exact .inl (output_place grounds.target proper (fun target there => link ⟨target,there⟩) outputs)

/-- Outputs take nothing in the source directory and only the entries of their
names in the destination directory. -/
theorem Grounds.taken (grounds : Grounds m t dir dest) (candidate : m.Candidate t dir name)
    (taken : m.Taken t dest name q) : ¬dir <+: q ∧ (dest <+: q → q = dest ++ [m.outputName name]) := by
  have place : q = dest ++ [m.outputName name] ∨ m.Diverted t dir dest name q := by
    rcases taken with same | ⟨outputs,free⟩
    · exact .inl same
    · exact grounds.place_cases candidate outputs free
  rcases place with rfl | diverted
  · exact ⟨grounds.not_inside _,fun _ => rfl⟩
  · obtain ⟨apart,apart'⟩ := grounds.outside _ _ diverted
    exact ⟨apart,fun inside => absurd inside apart'⟩

/-- No two outputs go to the same place. -/
theorem Grounds.output_inj (grounds : Grounds m t dir dest) {a b : Name} (first : m.Candidate t dir a)
    (second : m.Candidate t dir b) (free : t.get? p ≠ some .dir) (outputs : m.Outputs t a p)
    (outputs' : m.Outputs t b p) : a = b := by
  rcases grounds.place_cases first outputs free with rfl | diverted
  · rcases grounds.place_cases second outputs' free with same | diverted'
    · have names := (List.cons.inj (List.append_cancel_left same)).1
      exact List.append_cancel_right names
    · exact absurd (List.prefix_append dest _) (grounds.outside _ _ diverted').2
  · rcases grounds.place_cases second outputs' free with rfl | diverted'
    · exact absurd (List.prefix_append dest _) (grounds.outside _ _ diverted).2
    · exact grounds.single _ _ _ diverted diverted'

theorem Grounds.ready (grounds : Grounds m t dir dest) (pending : m.pending t = .ok names)
    (candidates : ∀ name ∈ names, m.Candidate t dir name) : Ready m t dir names := by
  refine ready_of_listed grounds.proper grounds.source pending ?_ ?_ fun a member p free outputs =>
    grounds.ordinary a p (candidates a member) outputs free
  · intro a first b second outputs
    obtain ⟨⟨content,file⟩,_⟩ := candidates b second
    have taken : m.Taken t dest a (dir ++ [b]) := .inr ⟨outputs,by simp [file]⟩
    exact (grounds.taken (candidates a first) taken).1 (List.prefix_append _ _)
  · intro a first b second p free outputs outputs'
    exact grounds.output_inj (candidates a first) (candidates b second) free outputs outputs'

/-! ## What changes in the tree -/

theorem discard_edited (rooted : Rooted t) (drift : Drift t t' lost)
    (target : t.find .content m.cwd m.destDir = .ok (dest,some .dir)) (proper : ProperName (m.outputName name)) :
    Edited (· = dest ++ [m.outputName name]) t' (m.discard t' (m.destPath name)).1 := by
  unfold discard
  cases removed : t'.remove m.cwd (m.destPath name) with
  | error e => exact .same
  | ok after =>
    obtain ⟨q,n,found,_,_,rfl⟩ := exists_of_remove removed
    obtain rfl : q = dest ++ [m.outputName name] := entry_place rooted drift target proper found
    exact .erased .same (by simp) rfl

theorem compress_refused {run : CodecRun} (quiet : Quiet codec) (root : r ≠ []) (ordinary : t.Ordinary r)
    (allowed : t.mayOpen r = true) (opened : t.target m.cwd (m.destPath name) = .ok r)
    (called : codec (t.put r (.file [])) (m.sourcePath name) = .ok run) (failed : run.exit ≠ .code 0) :
    (m.compress codec t name).tree = (m.discard (t.put r (.file run.output)) (m.destPath name)).1 ∧
      (m.compress codec t name).verdict = .failed (m.codecFailure run.exit) := by
  have created := create_of_target ordinary opened
  rw [if_pos allowed] at created
  simp only [compress,created,called,written_eq quiet root ordinary called]
  rw [if_neg failed]
  exact ⟨rfl,rfl⟩

/-- Compressing a file changes the places of its output, and takes away the file
if it succeeds. -/
theorem compress_edited (quiet : Quiet codec) (rooted : Rooted t) (drift : Drift t t' lost)
    (source : t.find .content m.cwd m.sourceDir = .ok (dir,some .dir))
    (target : t.find .content m.cwd m.destDir = .ok (dest,some .dir)) (proper : ProperName name)
    (proper' : ProperName (m.outputName name)) (entry : places (dest ++ [m.outputName name]))
    (opens : ∀ r, t'.target m.cwd (m.destPath name) = .ok r → t'.Ordinary r ∧ places r) :
    ∃ tree, Edited places t' tree ∧ (m.compress codec t' name).tree =
        if (m.compress codec t' name).verdict = .moved then tree.erase (dir ++ [name]) else tree := by
  cases opened : t'.target m.cwd (m.destPath name) with
  | error e =>
    simp only [compress,FileTree.create,opened]
    exact ⟨t',.same,rfl⟩
  | ok r =>
    obtain ⟨ordinary,here⟩ := opens r opened
    obtain ⟨_,leaf,_⟩ := exists_of_target (drift.rooted rooted) proper ordinary opened
    have drift' (content : List UInt8) : Drift t (t'.put r (.file content)) lost :=
      drift.trans (FileTree.drift_put leaf content) rooted
    have put (content : List UInt8) : Edited places t' (t'.put r (.file content)) := .written .same leaf.ne_nil here
    have discarded (content : List UInt8) :
        Edited places t' (m.discard (t'.put r (.file content)) (m.destPath name)).1 :=
      (put content).trans ((discard_edited rooted (drift' content) target proper').mono fun q same => same ▸ entry)
    have created := create_of_target ordinary opened
    split at created
    · cases called : codec (t'.put r (.file [])) (m.sourcePath name) with
      | error e =>
        simp only [compress,created,called]
        exact ⟨_,discarded [],rfl⟩
      | ok run =>
        have output := written_eq quiet leaf.ne_nil ordinary called
        simp only [compress,created,called,output]
        by_cases success : run.exit = .code 0
        · rw [if_pos success]
          cases removed : (t'.put r (.file run.output)).remove m.cwd (m.sourcePath name) with
          | error e => exact ⟨_,put run.output,rfl⟩
          | ok after =>
            obtain ⟨p,n,found,_,_,rfl⟩ := exists_of_remove removed
            obtain rfl : p = dir ++ [name] := entry_place rooted (drift' run.output) source proper found
            exact ⟨_,put run.output,rfl⟩
        · rw [if_neg success]
          exact ⟨_,discarded run.output,rfl⟩
    · simp only [compress,created]
      exact ⟨t',.same,rfl⟩

/-! ## A pass -/

/-- A pass so far: it has told the files `done` apart, the moved ones are gone, and
nothing has changed but the files moved and the places of outputs. -/
structure Parted (m : Mover) (t : FileTree) (dir dest : Place) (p : Progress) (done moved failed : List Name) :
    Prop where
  told : Told m p.report done moved failed
  gone : ∀ name ∈ moved, p.tree.get? (dir ++ [name]) = none
  edited : Edited (fun q => (∃ name ∈ moved, q = dir ++ [name]) ∨ ∃ name ∈ done, m.Taken t dest name q) t p.tree

section
variable {done later moved failed : List Name} {progress : Progress} {b : Name}

theorem Parted.step (quiet : Quiet codec) (grounds : Grounds m t dir dest) (ready : Ready m t dir names)
    (candidates : ∀ name ∈ names, m.Candidate t dir name) (whole : names = done ++ b :: later)
    (sofar : Sofar m codec t dir names done progress) (free : (m.advance codec progress b).isStuck = false)
    (parted : Parted m t dir dest progress done moved failed) :
    ∃ moved' failed', Parted m t dir dest (m.advance codec progress b) (done ++ [b]) moved' failed' := by
  obtain ⟨next,_⟩ := ready.next whole
  have proper := ready.proper b next
  have opens : ∀ r, progress.tree.target m.cwd (m.destPath b) = .ok r →
      progress.tree.Ordinary r ∧ m.Taken t dest b r := by
    intro r opened
    obtain ⟨_,_,other⟩ := target_eq_ok_iff.mp opened
    refine ⟨(sofar.ordinary ready whole opened).2,.inr ⟨sofar.outputs ready whole opened,?_⟩⟩
    exact fun dir => other ((sofar.drift.dir_iff r).mpr dir)
  obtain ⟨tree,edited,after⟩ := compress_edited (m := m) quiet ready.rooted sofar.drift grounds.source grounds.target
    proper (proper.append grounds.flat) (.inl rfl) opens
  rw [← advance_tree sofar.free] at after
  have kept : ∀ name ∈ moved, tree.get? (dir ++ [name]) = none := by
    intro name member
    have elsewhere : ¬m.Taken t dest b (dir ++ [name]) := fun taken =>
      (grounds.taken (candidates b next) taken).1 (List.prefix_append _ _)
    rw [edited.get?_eq elsewhere]
    exact parted.gone name member
  have edited' (moved' : List Name) (more : ∀ name ∈ moved, name ∈ moved') :
      Edited (fun q => (∃ name ∈ moved', q = dir ++ [name]) ∨ ∃ name ∈ done ++ [b], m.Taken t dest name q) t tree := by
    refine (parted.edited.mono ?_).trans (edited.mono fun q taken => .inr ⟨b,by simp,taken⟩)
    rintro q (⟨name,member,same⟩ | ⟨name,member,taken⟩)
    · exact .inl ⟨name,more name member,same⟩
    · exact .inr ⟨name,List.mem_append_left _ member,taken⟩
  rcases parted.told.step sofar.free free with ⟨success,told⟩ | ⟨⟨e,failure⟩,told⟩
  · -- The file goes last, after all that is done to the places of its output.
    rw [if_pos success] at after
    have root : dir ++ [b] ≠ [] := by simp
    refine ⟨_,_,told,?_,?_⟩
    · intro name member
      rw [after,FileTree.get?_erase root]
      split
      · rfl
      next other =>
      rcases List.mem_append.mp member with before | last
      · exact kept name before
      · exact absurd (by rw [List.mem_singleton.mp last]) other
    · rw [after]
      exact .erased (edited' _ fun name => List.mem_append_left _) root (.inl ⟨b,by simp,rfl⟩)
  · rw [failure,if_neg (by simp)] at after
    refine ⟨_,_,told,?_,?_⟩
    · rw [after]
      exact kept
    · rw [after]
      exact edited' _ fun _ => id

theorem Parted.run (quiet : Quiet codec) (grounds : Grounds m t dir dest) (ready : Ready m t dir names)
    (candidates : ∀ name ∈ names, m.Candidate t dir name) (whole : names = done ++ later) :
    ∃ moved failed, Parted m t dir dest (done.foldl (m.advance codec) (.start t)) done moved failed := by
  induction done using List.reverseRecOn generalizing later with
  | nil => exact ⟨[],[],⟨rfl,.refl _,.refl _,.refl _⟩,nofun,.same⟩
  | append_singleton done b ih =>
    rw [List.append_assoc,List.singleton_append] at whole
    obtain ⟨moved,failed,parted⟩ := ih whole
    have free := (Sofar.run quiet ready (whole.trans (List.append_cons done b later))).free
    rw [List.foldl_concat] at free ⊢
    exact parted.step quiet grounds ready candidates whole (Sofar.run quiet ready whole) free

end

/-- What a pass has done that has moved some of the files it found and failed with
the others. -/
structure Divides (m : Mover) (codec : Codec) (t : FileTree) (dir dest : Place) (p : Progress)
    (moved failed : List Name) : Prop where
  ends : p.isStuck = false
  report : p.report = ⟨moved.map m.sourcePath,failed.map m.sourcePath⟩
  candidates : ∀ name, name ∈ moved ++ failed ↔ m.Candidate t dir name
  once : (moved ++ failed).Nodup
  ascending : p.report.moved.Pairwise (· < ·) ∧ p.report.failed.Pairwise (· < ·)
  /-- The source directory has lost the moved files and nothing else. -/
  source : ∀ s, p.tree.get? (dir ++ s) = if ∃ name ∈ moved, s = [name] then none else t.get? (dir ++ s)
  /-- The destination directory has changed at most at the names of outputs. -/
  target : ∀ x s, (∀ name, m.Candidate t dir name → x ≠ m.outputName name) →
    p.tree.get? (dest ++ x :: s) = t.get? (dest ++ x :: s)
  /-- What the codec made of a moved file stands at its own destination. -/
  outputs : ∀ name ∈ moved, ∃ content names tree run, t.get? (dir ++ [name]) = some (.file content) ∧
    m.pending t = .ok names ∧ Called m codec t names name tree run ∧
    tree.readFile m.cwd (m.sourcePath name) = .ok content ∧ run.exit = .code 0 ∧
    p.tree.readFile m.cwd (m.destPath name) = .ok run.output
  /-- The failed files are the next to be considered. -/
  next : m.pending p.tree = .ok failed

theorem eq_of_ascending {names names' : List Name} (sorted : names.Pairwise (· ≤ ·)) (sorted' : names'.Pairwise (· ≤ ·))
    (nodup : names.Nodup) (nodup' : names'.Nodup) (same : ∀ name, name ∈ names ↔ name ∈ names') : names = names' := by
  have perm : names.Perm names' := (List.perm_ext_iff_of_nodup nodup nodup').mpr same
  exact perm.eq_of_pairwise (fun a b _ _ => List.le_antisymm) sorted sorted'

section
variable {moved failed : List Name} {progress : Progress}

theorem Parted.source (grounds : Grounds m t dir dest) (candidates : ∀ name ∈ names, m.Candidate t dir name)
    (parted : Parted m t dir dest progress names moved failed) (s : List Name) :
    progress.tree.get? (dir ++ s) = if ∃ name ∈ moved, s = [name] then none else t.get? (dir ++ s) := by
  split
  next gone =>
    obtain ⟨name,member,rfl⟩ := gone
    exact parted.gone name member
  next kept =>
    apply parted.edited.get?_eq
    rintro (⟨name,member,same⟩ | ⟨name,member,taken⟩)
    · exact kept ⟨name,member,List.append_cancel_left same⟩
    · exact (grounds.taken (candidates name member) taken).1 (List.prefix_append _ _)

theorem Parted.target (grounds : Grounds m t dir dest) (candidates : ∀ name ∈ names, m.Candidate t dir name)
    (parted : Parted m t dir dest progress names moved failed) {x : Name} {s : List Name}
    (other : ∀ name, m.Candidate t dir name → x ≠ m.outputName name) :
    progress.tree.get? (dest ++ x :: s) = t.get? (dest ++ x :: s) := by
  apply parted.edited.get?_eq
  rintro (⟨name,_,same⟩ | ⟨name,member,taken⟩)
  · exact grounds.not_inside' [name] (same ▸ List.prefix_append _ _)
  · have same := (grounds.taken (candidates name member) taken).2 (List.prefix_append _ _)
    exact other name (candidates name member) (List.cons.inj (List.append_cancel_left same)).1

/-- The candidates that are left are those that a pass has failed with. -/
theorem Parted.next (grounds : Grounds m t dir dest) (candidates : ∀ name, name ∈ names ↔ m.Candidate t dir name)
    (nodup : names.Nodup) (sorted : names.Pairwise (· ≤ ·)) (drift : Drift t progress.tree lost)
    (parted : Parted m t dir dest progress names moved failed) : m.pending progress.tree = .ok failed := by
  have once : (moved ++ failed).Nodup := parted.told.perm.nodup_iff.mpr nodup
  have both (name : Name) : name ∈ moved ++ failed ↔ m.Candidate t dir name :=
    parted.told.perm.mem_iff.trans (candidates name)
  obtain ⟨left,pending,remaining,nodup',sorted'⟩ :=
    exists_pending (parted.edited.distinct grounds.proper.distinct) (find_dir drift grounds.source)
  have same : left = failed := by
    refine eq_of_ascending sorted' (sorted.sublist parted.told.order.2) nodup' (nodup.sublist parted.told.order.2) ?_
    intro name
    rw [remaining]
    have place := parted.source grounds (fun name => (candidates name).mp) [name]
    constructor
    · rintro ⟨⟨content,file⟩,text⟩
      rw [place] at file
      split at file
      · cases file
      next kept =>
      have before : name ∈ moved ++ failed := (both name).mpr ⟨⟨content,file⟩,text⟩
      rcases List.mem_append.mp before with gone | still
      · exact absurd ⟨name,gone,rfl⟩ kept
      · exact still
    · intro still
      obtain ⟨⟨content,file⟩,text⟩ := (both name).mp (List.mem_append_right _ still)
      refine ⟨⟨content,?_⟩,text⟩
      rw [place,if_neg]
      · exact file
      · rintro ⟨other,gone,same⟩
        obtain rfl := List.singleton_inj.mp same
        exact (List.nodup_append.mp once).2.2 name gone name still rfl
  rw [pending,same]

end

/-- A pass over a readable directory divides the candidates in it. -/
theorem pass_divides (quiet : Quiet codec) (grounds : Grounds m t dir dest) :
    ∃ p moved failed, m.pass codec t = .ok p ∧ m.Divides codec t dir dest p moved failed ∧
      (∀ a b, m.destPath a = m.destPath b → a = b) ∧
      (∀ a b r, m.Candidate t dir a → m.Candidate t dir b → t.get? r ≠ some .dir → m.Outputs t a r →
        m.Outputs t b r → a = b) ∧
      ∀ codec', ∃ p', m.pass codec' p.tree = .ok p' ∧
        (p'.isStuck = false → (p'.report.moved ++ p'.report.failed).Perm (failed.map m.sourcePath)) := by
  obtain ⟨names,pending,candidates,nodup,sorted⟩ := exists_pending grounds.proper.distinct grounds.source
  have within : ∀ name ∈ names, m.Candidate t dir name := fun name => (candidates name).mp
  have ready := grounds.ready pending within
  have sofar := Sofar.run (m := m) quiet ready (List.append_nil names).symm
  obtain ⟨moved,failed,parted⟩ := Parted.run (m := m) quiet grounds ready within (List.append_nil names).symm
  have told := parted.told
  have next := parted.next grounds candidates nodup sorted sofar.drift
  refine ⟨_,moved,failed,by rw [pass,pending]; rfl,⟨sofar.free,told.report,?_,told.perm.nodup_iff.mpr nodup,?_,
    parted.source grounds within,fun x s => parted.target grounds within,?_,next⟩,?_,?_,?_⟩
  · intro name
    exact told.perm.mem_iff.trans (candidates name)
  · rw [told.report]
    exact ⟨ascending_paths (sorted.sublist told.order.1) (nodup.sublist told.order.1) m,
      ascending_paths (sorted.sublist told.order.2) (nodup.sublist told.order.2) m⟩
  · intro name gone
    have member := told.order.1.subset gone
    obtain ⟨content,file⟩ := ready.files name member
    cases sofar.settled name member content file with
    | kept listed =>
      rw [told.report] at listed
      obtain ⟨other,still,same⟩ := List.mem_map.mp listed
      obtain rfl := join_inj same
      exact absurd rfl ((List.nodup_append.mp (told.perm.nodup_iff.mpr nodup)).2.2 other gone other still)
    | moved _ called read exit _ found =>
      exact ⟨content,names,_,_,file,pending,called,read,exit,readFile_of_find found⟩
  · intro a b same
    exact List.append_cancel_right (join_inj same)
  · intro a b r first second free outputs outputs'
    exact grounds.output_inj first second free outputs outputs'
  · intro codec'
    refine ⟨_,by rw [pass,next]; rfl,fun free => ?_⟩
    obtain ⟨moved',failed',told'⟩ := exists_told free
    rw [told'.report]
    change (moved'.map m.sourcePath ++ failed'.map m.sourcePath).Perm _
    rw [← List.map_append]
    exact told'.perm.map _

end

/-! ## A link in the place of an output -/

/-- The name of a directory for outputs. -/
def outbox : Name := Utf8.ofString "out"

/-- The name of a file in it. -/
def record : Name := Utf8.ofString "keep"

/-- The name of a link in it. -/
def packed : Name := Utf8.ofString "a.dat.bz2"

/-- Two directories: one with a file, one with a file and a link. -/
def boxes (target : String) : FileTree :=
  ⟨[([inbox],.dir),([inbox,letter],.file (Utf8.ofString "payload")),([outbox],.dir),
    ([outbox,record],.file (Utf8.ofString "old")),([outbox,packed],.link (Utf8.ofString target))]⟩

/-- A mover from the one to the other. -/
def filing : Mover := ⟨{ sourceDir := "in", destDir := "out", codec := "false" },[]⟩

theorem filing_dirs {t : FileTree} (proper : t.Proper) (plain : t.get? [inbox] = some .dir ∧ t.get? [outbox] = some .dir) :
    t.find .content [] filing.sourceDir = .ok ([inbox],some .dir) ∧
      t.find .content [] filing.destDir = .ok ([outbox],some .dir) := by
  constructor
  · exact find_names proper (by decide) (by decide) plain.1 nofun (by decide)
  · exact find_names proper (by decide) (by decide) plain.2 nofun (by decide)

/-- The path of the output goes through the link. -/
theorem packed_walks {target : String} {aim : FileTree.Aim} {links : Nat} {q : Place} (other : aim ≠ .entry)
    (plain : (boxes target).get? [outbox] = some .dir)
    (link : (boxes target).get? [outbox,packed] = some (.link (Utf8.ofString target)))
    (further : Walks (boxes target) aim links (FileTree.base [outbox] (Utf8.ofString target))
      (FileTree.steps (Utf8.ofString target)) q) :
    Walks (boxes target) aim (links + 1) [] (FileTree.steps (filing.destPath letter)) q := by
  have steps : FileTree.steps (filing.destPath letter) = [outbox,packed] := by decide
  rw [steps]
  refine .enter rfl ⟨by decide,by decide,fun writing => absurd writing.2 (by decide),by decide⟩ plain nofun ?_
  refine .follow plain ⟨by decide,by decide,by simp,by decide⟩ (fun last => other last.2) link ?_
  rw [List.append_nil]
  exact further

theorem spare_grounds : Grounds filing (boxes "../spare") [inbox] [outbox] := by
  have proper : (boxes "../spare").Proper := by decide
  obtain ⟨source,target⟩ := filing_dirs proper (by decide)
  have led : Leads (boxes "../spare") [] (FileTree.steps (filing.destPath letter)) [Utf8.ofString "spare"] := by
    refine ⟨1,packed_walks (by decide) (by decide) (by decide) ?_⟩
    have steps : FileTree.steps (Utf8.ofString "../spare") = [FileTree.above,Utf8.ofString "spare"] := by decide
    rw [steps]
    refine .up (by decide) (.absent (by decide) ?_ (by decide))
    exact ⟨by decide,by decide,by decide,by decide⟩
  have place : ∀ name p, filing.Candidate (boxes "../spare") [inbox] name → filing.Outputs (boxes "../spare") name p →
      name = letter ∧ p = [Utf8.ofString "spare"] := by
    intro name p candidate outputs
    obtain ⟨names,pending,candidates,_⟩ := exists_pending (m := filing) proper.distinct source
    rw [pending_letter rfl rfl rfl source (by decide)] at pending
    cases pending
    obtain rfl := List.mem_singleton.mp ((candidates name).mpr candidate)
    exact ⟨rfl,(outputs_iff.mp outputs).unique led⟩
  refine ⟨proper,source,target,by decide,by decide,?_,?_,?_⟩
  · rintro name p ⟨candidate,_,outputs,_⟩
    obtain ⟨_,rfl⟩ := place name p candidate outputs
    decide
  · rintro a b p ⟨first,_,outputs,_⟩ ⟨second,_,outputs',_⟩
    rw [(place a p first outputs).1,(place b p second outputs').1]
  · intro name p candidate outputs _
    obtain ⟨_,rfl⟩ := place name p candidate outputs
    exact FileTree.ordinary_of_none (by decide)

/-- A pass whose output goes through a link, out of both directories. -/
theorem spare_divides :
    Quiet copying ∧ Grounds filing (boxes "../spare") [inbox] [outbox] ∧
    ∃ p moved failed, filing.pass copying (boxes "../spare") = .ok p ∧
      filing.Divides copying (boxes "../spare") [inbox] [outbox] p moved failed ∧
      (∀ a b, filing.destPath a = filing.destPath b → a = b) ∧
      (∀ a b r, filing.Candidate (boxes "../spare") [inbox] a → filing.Candidate (boxes "../spare") [inbox] b →
        (boxes "../spare").get? r ≠ some .dir → filing.Outputs (boxes "../spare") a r →
        filing.Outputs (boxes "../spare") b r → a = b) ∧
      ∀ codec', ∃ p', filing.pass codec' p.tree = .ok p' ∧
        (p'.isStuck = false → (p'.report.moved ++ p'.report.failed).Perm (failed.map filing.sourcePath)) :=
  ⟨copying_quiet,spare_grounds,pass_divides copying_quiet spare_grounds⟩

/-- Where a link in the place of an output leads to another file in the destination
directory, a pass empties that file. -/
theorem record_is_emptied :
    Quiet failing ∧ (boxes "keep").Proper ∧
    (boxes "keep").find .content [] filing.sourceDir = .ok ([inbox],some .dir) ∧
    (boxes "keep").find .content [] filing.destDir = .ok ([outbox],some .dir) ∧
    FileTree.slash ∉ Utf8.ofString filing.settings.extension ∧
    (∀ name, record ≠ filing.outputName name) ∧
    (boxes "keep").get? [outbox,record] = some (.file (Utf8.ofString "old")) ∧
    ∃ p, filing.pass failing (boxes "keep") = .ok p ∧ p.tree.get? [outbox,record] = some (.file []) := by
  have proper : (boxes "keep").Proper := by decide
  obtain ⟨source,target⟩ := filing_dirs proper (by decide)
  have walks : Walks (boxes "keep") .writing FileTree.linkLimit [] (FileTree.steps (filing.destPath letter))
      [outbox,record] := by
    refine packed_walks (by decide) (by decide) (by decide) ?_
    exact proper.walks (p := [outbox]) (s := [record]) (n := .file (Utf8.ofString "old")) (by decide) nofun (by decide)
  have opened : (boxes "keep").target [] (filing.destPath letter) = .ok [outbox,record] := by
    have sound : FileTree.defect? (filing.destPath letter) = none := by decide
    have found : (boxes "keep").find .writing [] (filing.destPath letter) =
        .ok ([outbox,record],some (.file (Utf8.ofString "old"))) :=
      find_eq_ok_iff.mpr ⟨sound,walks,by decide⟩
    rw [FileTree.target,found]
  -- The output is opened, and emptied, and what is removed again is the link.
  have old : (boxes "keep").get? [outbox,record] = some (.file (Utf8.ofString "old")) := by decide
  have emptied : Leaf ((boxes "keep").get? [outbox,record]) := .inr ⟨_,old⟩
  have drift : Drift (boxes "keep") ((boxes "keep").put [outbox,record] (.file [])) fun _ => False :=
    FileTree.drift_put emptied []
  have tree : (filing.compress failing (boxes "keep") letter).tree =
      (filing.discard ((boxes "keep").put [outbox,record] (.file [])) (filing.destPath letter)).1 :=
    (compress_refused failing_quiet emptied.ne_nil (FileTree.ordinary_of_file old rfl) (by decide) opened rfl (by decide)).1
  refine ⟨failing_quiet,proper,source,target,by decide,?_,by decide,?_⟩
  · intro name same
    have suffix : Utf8.ofString filing.settings.extension <:+ record := same ▸ List.suffix_append name _
    revert suffix
    decide
  · refine ⟨_,by rw [pass,pending_letter rfl rfl rfl source (by decide)]; rfl,?_⟩
    change (filing.advance failing (.start (boxes "keep")) letter).tree.get? _ = _
    rw [advance_tree rfl]
    change (filing.compress failing (boxes "keep") letter).tree.get? _ = _
    rw [tree,(discard_edited proper.rooted drift target (by decide)).get?_eq (by decide)]
    exact get?_put_self emptied.ne_nil _

end Lockstep.Mover
