import Lockstep.Proofs.Discards

/-!
# The waits between passes

A pass that moves some file and fails with none is followed by the next at once, and
every other by a wait that takes time, if the waits in the settings do, or by nothing at
all, where it is stuck with an output that cannot be opened for ever (`turn_rests`).
Since such a pass leaves nothing to move, as long as no file comes to be pending at
most one of the passes is not followed by a wait (`turns_rest`), whatever codecs and
others do to the tree. Left alone, two turns of the loop reach one (`untilWait_rests`).

Settings are accepted whose waits take no time, and with them the loop goes on for
ever at one moment (`empty_inbox_spins`).
-/

namespace Lockstep.Mover

open FileTree (Walks Grows ProperName)

/-! ## Waits -/

/-- A pause takes time, be it for ever. -/
def Pause.Lasts : Pause → Prop
  | .atOnce => False
  | .wait d => 0 < d.inNanos
  | .stuck => True

/-- A turn is followed by a wait that takes time, or it does not end. -/
def Turn.Rests (turn : Turn) : Prop := turn.pause.Lasts

/-- The waits of a mover take time. -/
structure Patient (m : Mover) : Prop where
  idle : m.settings.idleWait.isZero = false
  backoff : m.settings.errorBackoff.isZero = false

theorem inNanos_pos {d : Duration} (some : d.isZero = false) : 0 < d.inNanos := by
  rw [Duration.isZero,Bool.and_eq_false_iff,beq_eq_false_iff_ne,beq_eq_false_iff_ne] at some
  rw [Duration.inNanos]
  omega

section
variable {m : Mover} {codec : Codec} {t t' next : FileTree} {name : Name} {names done later : List Name}
  {p : Progress}

theorem turn_of_unreadable {e : SystemError} (unreadable : m.pass codec t = .error e) :
    m.turn codec t = ⟨t,[.unreadable m.settings.sourceDir (.system e) m.settings.errorBackoff],
      .wait m.settings.errorBackoff⟩ := by
  simp only [turn,unreadable]

theorem turn_tree (passed : m.pass codec t = .ok p) : (m.turn codec t).tree = p.tree := by
  simp only [turn,passed]
  split
  · rfl
  · split <;> rfl

/-- A turn is followed by a wait, or its pass came to its end, moved a file and failed
with none. -/
theorem turn_rests (patient : Patient m) (codec : Codec) (t : FileTree) :
    (m.turn codec t).Rests ∨ (m.turn codec t).pause = .atOnce ∧
      ∃ p, m.pass codec t = .ok p ∧ p.isStuck = false ∧ p.report.moved ≠ [] ∧ p.report.failed = [] := by
  have idle : (Pause.wait m.settings.idleWait).Lasts := inNanos_pos patient.idle
  unfold Turn.Rests
  cases passed : m.pass codec t with
  | error e =>
    rw [turn_of_unreadable passed]
    exact .inl (inNanos_pos patient.backoff)
  | ok p =>
    simp only [turn,passed]
    cases stuck : p.isStuck with
    | true => exact .inl trivial
    | false =>
      by_cases empty : p.report.isEmpty = true
      · simp only [Bool.false_eq_true,if_false,if_pos empty]
        exact .inl idle
      · simp only [Bool.false_eq_true,if_false,if_neg empty]
        by_cases none : p.report.failed = []
        · have moved : p.report.moved ≠ [] := fun moved => empty (by simp [Report.isEmpty,moved,none])
          exact .inr ⟨by simp [none],p,rfl,stuck,moved,none⟩
        · rw [if_neg (by simp [none])]
          exact .inl idle

/-! ## Pending files -/

/-- A file is pending: a pass would try it. -/
def Awaits (m : Mover) (t : FileTree) (name : Name) : Prop := ∃ names, m.pending t = .ok names ∧ name ∈ names

/-- No file comes to be pending. -/
def NoneNew (m : Mover) (t t' : FileTree) : Prop := ∀ name, m.Awaits t' name → m.Awaits t name

/-- No file comes to be pending while a pass tries one file after the other, nor from
its end to the start of the next. -/
structure Still (m : Mover) (codec : Codec) (t next : FileTree) : Prop where
  within : ∀ names done b later, m.pending t = .ok names → names = done ++ b :: later →
    m.NoneNew (done.foldl (m.advance codec) (.start t)).tree ((done ++ [b]).foldl (m.advance codec) (.start t)).tree
  after : m.NoneNew (m.turn codec t).tree next

/-- A file that has been removed by its path is not pending. -/
theorem not_awaits_of_remove (proper : ProperName name) (removed : t.remove m.cwd (m.sourcePath name) = .ok t') :
    ¬m.Awaits t' name := by
  rintro ⟨names,pending,member⟩
  obtain ⟨dir,source,entries⟩ := entries_of_pending pending
  obtain ⟨n,entry,_⟩ := entries name member
  have grows : Grows t t' fun _ => False := remove_grows removed
  obtain ⟨q,_,found,_,_,rfl⟩ := exists_of_remove removed
  obtain ⟨_,there,whole⟩ := find_eq_ok_iff.mp source
  have some := path_ne_nil source
  -- The path went through the source directory, so what was removed is the entry of this name.
  obtain ⟨_,walks,_⟩ := find_eq_ok_iff.mp found
  rw [sourcePath,FileTree.steps_join some proper,FileTree.origin_join some] at walks
  obtain ⟨d,_,_,before,_,last⟩ := walks.split
  obtain rfl := last.last proper fun _ _ => rfl
  have leads := (grows.walks_dir there whole.symm).content_of_ne (by decide)
  obtain rfl := FileTree.Leads.unique ⟨_,before⟩ (FileTree.Leads.names ⟨_,leads⟩)
  simp [FileTree.erase] at entry

/-- A file is moved by removing it, last of all. -/
theorem remove_of_compress (moved : (m.compress codec t name).verdict = .moved) :
    ∃ t' : FileTree, t'.remove m.cwd (m.sourcePath name) = .ok (m.compress codec t name).tree := by
  unfold compress at moved ⊢
  simp only at moved ⊢
  cases created : t.create m.cwd (m.destPath name) with
  | refused | stuck => simp only [created,reduceCtorEq] at moved
  | opened place tree =>
    simp only [created] at moved ⊢
    cases called : codec tree (m.sourcePath name) with
    | error e => simp only [called,reduceCtorEq] at moved
    | ok run =>
      simp only [called] at moved ⊢
      by_cases exit : run.exit = .code 0
      · rw [if_pos exit] at moved ⊢
        cases removed : (run.tree.written place run.output).remove m.cwd (m.sourcePath name) with
        | error e => simp only [removed,reduceCtorEq] at moved
        | ok after => exact ⟨_,removed⟩
      · simp only [if_neg exit,reduceCtorEq] at moved

theorem failed_of_advance (free : (m.advance codec p name).isStuck = false)
    (none : (m.advance codec p name).report.failed = []) :
    p.isStuck = false ∧ p.report.failed = [] ∧ (m.compress codec p.tree name).verdict = .moved := by
  have before := free_of_advance free
  cases verdict : (m.compress codec p.tree name).verdict with
  | moved =>
    rw [advance_of_moved before verdict] at none
    exact ⟨before,none,rfl⟩
  | failed e =>
    rw [advance_of_failed before verdict] at none
    simp at none
  | stuck =>
    rw [advance_of_stuck before verdict] at free
    cases free

/-! ## Passes that move everything -/

theorem NoneNew.trans {t'' : FileTree} (first : m.NoneNew t t') (second : m.NoneNew t' t'') : m.NoneNew t t'' :=
  fun name awaits => first name (second name awaits)

theorem Still.part (still : m.Still codec t next) (pending : m.pending t = .ok names) (whole : names = done ++ later) :
    m.NoneNew t (done.foldl (m.advance codec) (.start t)).tree := by
  induction done using List.reverseRecOn generalizing later with
  | nil => exact fun _ => id
  | append_singleton done b ih =>
    rw [List.append_assoc,List.singleton_append] at whole
    exact (ih whole).trans (still.within names done b later pending whole)

/-- No file comes to be pending from the start of the pass to that of the next. -/
theorem Still.noneNew (still : m.Still codec t next) : m.NoneNew t next := by
  refine NoneNew.trans ?_ still.after
  cases pending : m.pending t with
  | error e =>
    have unreadable : m.pass codec t = .error e := by rw [pass,pending]; rfl
    rw [turn_of_unreadable unreadable]
    exact fun _ => id
  | ok names =>
    rw [turn_tree (by rw [pass,pending]; rfl)]
    exact still.part pending (List.append_nil names).symm

/-- A pass that has failed with none leaves none of those it has tried. -/
theorem Still.tried (still : m.Still codec t next) (proper : ∀ name ∈ names, ProperName name)
    (pending : m.pending t = .ok names) (whole : names = done ++ later)
    (free : (done.foldl (m.advance codec) (.start t)).isStuck = false)
    (none : (done.foldl (m.advance codec) (.start t)).report.failed = []) :
    ∀ name ∈ done, ¬m.Awaits (done.foldl (m.advance codec) (.start t)).tree name := by
  induction done using List.reverseRecOn generalizing later with
  | nil => exact nofun
  | append_singleton done b ih =>
    rw [List.append_assoc,List.singleton_append] at whole
    have step := still.within names done b later pending whole
    rw [List.foldl_concat] at free none step ⊢
    obtain ⟨before,none,moved⟩ := failed_of_advance free none
    intro name member awaits
    rcases List.mem_append.mp member with earlier | last
    · exact ih whole before none name earlier (step name awaits)
    · obtain rfl := List.mem_singleton.mp last
      obtain ⟨_,removed⟩ := remove_of_compress moved
      rw [advance_tree before] at awaits
      exact not_awaits_of_remove (proper name (by simp [whole])) removed awaits

/-- A pass that no wait follows leaves nothing that is pending. -/
theorem Still.empties (still : m.Still codec t next) (patient : Patient m) (proper : t.Proper)
    (restless : ¬(m.turn codec t).Rests) (name : Name) : ¬m.Awaits next name := by
  rcases turn_rests patient codec t with rests | ⟨_,p,passed,free,_,none⟩
  · exact absurd rests restless
  · obtain ⟨names,pending,rfl⟩ := Json.exists_of_map_eq_ok passed
    intro awaits
    have left := still.after name awaits
    rw [turn_tree passed] at left
    obtain ⟨names',pending',member⟩ := still.noneNew name awaits
    rw [pending] at pending'
    cases pending'
    exact still.tried (proper_of_pending proper pending) pending (List.append_nil names).symm free none name member left

/-- Where nothing is pending a turn is followed by a wait. -/
theorem rests_of_none (patient : Patient m) (none : ∀ name, ¬m.Awaits t name) : (m.turn codec t).Rests := by
  rcases turn_rests patient codec t with rests | ⟨_,p,passed,_,moved,_⟩
  · exact rests
  · obtain ⟨names,pending,rfl⟩ := Json.exists_of_map_eq_ok passed
    cases names with
    | nil => exact absurd rfl moved
    | cons name names => exact absurd ⟨_,pending,List.mem_cons_self⟩ (none name)

/-! ## The loop -/

/-- After a pass that no wait follows every pass is followed by one, until a file
comes to be pending. -/
theorem rests_later {codecs : Nat → Codec} {seen : Nat → FileTree} {j k : Nat} (patient : Patient m) (before : j < k)
    (proper : (seen j).Proper) (still : ∀ i, j ≤ i → i < k → m.Still (codecs i) (seen i) (seen (i + 1)))
    (restless : ¬(m.turn (codecs j) (seen j)).Rests) : (m.turn (codecs k) (seen k)).Rests := by
  refine rests_of_none patient ?_
  have none : ∀ i, j < i → i ≤ k → ∀ name, ¬m.Awaits (seen i) name := by
    intro i after
    induction i,after using Nat.le_induction with
    | base => exact fun within => (still j (Nat.le_refl j) within).empties patient proper restless
    | succ i later ih =>
      intro within name awaits
      exact ih (Nat.le_of_succ_le within) name ((still i (Nat.le_of_succ_le later) within).noneNew name awaits)
  exact none k before (Nat.le_refl k)

theorem untilWait_of_rests (rests : (m.turn codec t).Rests) (turns : Nat) :
    m.untilWait codec (turns + 1) t = m.turn codec t := by
  unfold Turn.Rests at rests
  rw [untilWait]
  cases pause : (m.turn codec t).pause with
  | atOnce =>
    rw [pause] at rests
    cases rests
  | wait | stuck => rfl

/-- Two turns reach a wait, if no file comes to be pending. -/
theorem untilWait_rests (patient : Patient m) (proper : t.Proper) (still : m.Still codec t (m.turn codec t).tree)
    (turns : Nat) : (m.untilWait codec (turns + 2) t).Rests := by
  by_cases rests : (m.turn codec t).Rests
  · rw [untilWait_of_rests rests]
    exact rests
  · have second : (m.turn codec (m.turn codec t).tree).Rests := rests_of_none patient (still.empties patient proper rests)
    rcases turn_rests patient codec t with first | ⟨atOnce,_⟩
    · exact absurd first rests
    · rw [untilWait]
      simp only [atOnce]
      rw [untilWait_of_rests second]
      exact second

/-- The passes of a mover whose waits take time, over trees that codecs and others
change as they like: each is followed by a wait, or goes on for ever, or has moved a file
and failed with none, and of any two between which no file comes to be pending one is
followed by a wait or goes on for ever. -/
theorem turns_rest (patient : Patient m) (codecs : Nat → Codec) (seen : Nat → FileTree) :
    (∀ k, (m.turn (codecs k) (seen k)).Rests ∨ (m.turn (codecs k) (seen k)).pause = .atOnce ∧
      ∃ p, m.pass (codecs k) (seen k) = .ok p ∧ p.isStuck = false ∧ p.report.moved ≠ [] ∧ p.report.failed = []) ∧
    ∀ j k, j < k → (seen j).Proper → (∀ i, j ≤ i → i < k → m.Still (codecs i) (seen i) (seen (i + 1))) →
      (m.turn (codecs j) (seen j)).Rests ∨ (m.turn (codecs k) (seen k)).Rests := by
  refine ⟨fun k => turn_rests patient (codecs k) (seen k),?_⟩
  intro j k before proper still
  by_cases rests : (m.turn (codecs j) (seen j)).Rests
  · exact .inl rests
  · exact .inr (rests_later patient before proper still rests)

end

/-! ## One file, then none -/

theorem pending_nothing {m : Mover} {t : FileTree} (source : m.settings.sourceDir = "in") (cwd : m.cwd = [])
    (proper : t.Proper) (dir : t.get? [inbox] = some .dir) (nothing : t.children [inbox] = []) : m.pending t = .ok [] := by
  have found : t.find .content [] inbox = .ok ([inbox],some .dir) :=
    find_names proper (by decide) (by decide) dir nofun (by decide)
  have listed : t.list m.cwd m.sourceDir = .ok [] := by
    rw [cwd,sourceDir,source,FileTree.list,← inbox,found,← nothing]
  rw [pending,listed]
  simp only [Except.map,List.filter_nil,List.map_nil,List.mergeSort_nil]

/-- The tree of the one file when it has been moved. -/
def oneSent : FileTree := ⟨[([inbox],.dir),([packed],.file (Utf8.ofString "payload"))]⟩

theorem outward_sends : (outward.compress copying oneFile letter).verdict = .moved ∧
    (outward.compress copying oneFile letter).tree = oneSent := by
  have opened : oneFile.target [] (outward.destPath letter) = .ok [packed] := by
    have sound : FileTree.defect? (outward.destPath letter) = none := by decide
    have steps : FileTree.steps (outward.destPath letter) = [FileTree.here,packed] := by decide
    have found : oneFile.find .writing [] (outward.destPath letter) = .ok ([packed],none) := by
      refine find_eq_ok_iff.mpr ⟨sound,?_,by decide⟩
      rw [steps]
      exact .stay rfl (.inl rfl) (.absent rfl ⟨by decide,by decide,by decide,by decide⟩ (by decide))
    rw [FileTree.target,found]
  have there (content : List UInt8) (aim : FileTree.Aim) (proper : (oneFile.put [packed] (.file content)).Proper)
      (file : (oneFile.put [packed] (.file content)).get? [inbox,letter] = some (.file (Utf8.ofString "payload"))) :
      (oneFile.put [packed] (.file content)).find aim [] (outward.sourcePath letter) =
        .ok ([inbox,letter],some (.file (Utf8.ofString "payload"))) :=
    find_names proper (by decide) (by decide) file (by simp) (by decide)
  have called : copying (oneFile.put [packed] (.file [])) (outward.sourcePath letter) =
      .ok ⟨Utf8.ofString "payload",.code 0,oneFile.put [packed] (.file [])⟩ := by
    rw [copying,readFile_of_find (there [] .content (by decide) (by decide))]
    rfl
  have removed : (oneFile.put [packed] (.file (Utf8.ofString "payload"))).remove [] (outward.sourcePath letter) =
      .ok oneSent := by
    rw [FileTree.remove,there _ .entry (by decide) (by decide)]
    decide
  have ordinary : oneFile.Ordinary [packed] := FileTree.ordinary_of_none (by decide)
  have output := written_eq copying_quiet (by decide) ordinary called
  have created : oneFile.create [] (outward.destPath letter) = .opened [packed] (oneFile.put [packed] (.file [])) :=
    (create_of_target ordinary opened).trans (if_pos (by decide))
  have cwd : outward.cwd = [] := rfl
  simp only [compress,created,called,output,if_true,cwd,removed,and_self]

/-- A turn that no wait follows, and the next with one. -/
theorem outward_rests :
    Patient outward ∧ oneFile.Proper ∧ outward.Still copying oneFile oneSent ∧
    (outward.turn copying oneFile).pause = .atOnce ∧ (outward.turn copying oneSent).Rests := by
  have patient : Patient outward := ⟨by decide,by decide⟩
  have proper : oneFile.Proper := by decide
  have pending : outward.pending oneFile = .ok [letter] := oneFile_pending rfl rfl rfl
  have nothing : outward.pending oneSent = .ok [] := pending_nothing rfl rfl (by decide) (by decide) (by decide)
  have empty : ∀ t, outward.NoneNew t oneSent := by
    rintro t name ⟨names,pending',member⟩
    rw [nothing] at pending'
    cases pending'
    cases member
  obtain ⟨success,tree⟩ := outward_sends
  have free : (Progress.start oneFile).isStuck = false := rfl
  have sent := advance_of_moved free success
  have passed : outward.pass copying oneFile = .ok (outward.advance copying (.start oneFile) letter) := by
    rw [pass,pending]
    rfl
  have atOnce : (outward.turn copying oneFile).pause = .atOnce := by
    rw [turn,passed]
    simp only [sent]
    rfl
  have still : outward.Still copying oneFile oneSent := by
    refine ⟨?_,empty _⟩
    intro names done b later pending' whole
    rw [pending] at pending'
    cases pending'
    cases done with
    | nil =>
      obtain ⟨rfl,rfl⟩ := List.cons.inj whole
      change outward.NoneNew oneFile (outward.advance copying (.start oneFile) letter).tree
      rw [sent]
      change outward.NoneNew oneFile (outward.compress copying oneFile letter).tree
      rw [tree]
      exact empty _
    | cons => simp at whole
  refine ⟨patient,proper,still,atOnce,?_⟩
  rcases (turns_rest patient (fun _ => copying) fun k => if k = 0 then oneFile else oneSent).2 0 1 Nat.zero_lt_one proper
      (fun i _ within => by obtain rfl := Nat.lt_one_iff.mp within; exact still) with first | second
  · rw [if_pos rfl,Turn.Rests,atOnce] at first
    cases first
  · exact second

/-! ## Waits that take no time -/

/-- Where there is nothing to move and the wait for files takes no time, time stands
still however many passes there are. -/
theorem watch_spins {m : Mover} {t : FileTree} (instant : m.settings.idleWait.waitMillis = 0)
    (nothing : m.pending t = .ok []) (codec : Codec) (time n : Nat) :
    m.watch codec time t (List.replicate n id) = (List.replicate (n + 1) (time,.waiting),t) := by
  have turn : m.turn codec t = ⟨t,[.waiting],.wait m.settings.idleWait⟩ := by
    rw [Mover.turn,pass,nothing]
    rfl
  have turns : m.untilWait codec turnLimit t = ⟨t,[.waiting],.wait m.settings.idleWait⟩ := by
    rw [turnLimit,untilWait]
    simp only [turn]
  induction n with
  | zero =>
    rw [List.replicate_zero,watch]
    simp only [turns]
    rfl
  | succ n ih =>
    rw [List.replicate_succ,watch]
    simp only [turns,Pause.millis?,instant,Nat.add_zero,id,ih]
    rfl

/-- Settings whose wait for files takes no time. -/
def instant : Settings := { fileMover := { sourceDir := "in", idleWait := .zero } }

/-- An empty directory. -/
def emptyInbox : FileTree := ⟨[([inbox],.dir)]⟩

/-- Settings are accepted with which the loop makes any number of passes at one
moment, none of them moving a file. -/
theorem empty_inbox_spins :
    instant.validate = .ok () ∧ ∀ n, (⟨instant.fileMover,[]⟩ : Mover).watch failing 0 emptyInbox (List.replicate n id) =
      (List.replicate (n + 1) (0,.waiting),emptyInbox) := by
  exact ⟨by decide,watch_spins (by decide) (pending_nothing rfl rfl (by decide) (by decide) (by decide)) failing 0⟩

end Lockstep.Mover
