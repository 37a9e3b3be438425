import Lockstep.Proofs.FileTree.Listing

/-!
# Guards and files of several names

What is written to a file shows under each of its names and nowhere else
(`get?_fill`). Where neither a special file stands nor one that has a second name
(`Ordinary`), to open a file is to put an empty one there, if no guard forbids it
(`openAt_ordinary`). An ordinary place stays so while files lose names
(`Ordinary.sparser`).
-/

namespace Lockstep.FileTree

variable {t t' t'' : FileTree} {p q r : Place} {content : List UInt8}

/-! ## Marks -/

theorem number?_put (n : Node) (q : Place) : (t.put p n).number? q = t.number? q := by
  rw [number?,number?,lookup_put]
  by_cases same : q = p
  · subst same
    rw [if_pos rfl]
    cases t.entries.lookup q with
    | none | some => rfl
  · rw [if_neg same]

theorem isGuarded_put (n : Node) (q : Place) : (t.put p n).isGuarded q = t.isGuarded q := by
  rw [isGuarded,isGuarded,lookup_put]
  by_cases same : q = p
  · subst same
    rw [if_pos rfl]
    cases t.entries.lookup q with
    | none | some => rfl
  · rw [if_neg same]

theorem number?_erase (p q : Place) : (t.erase p).number? q = if q = p then none else t.number? q := by
  rw [number?,number?,erase,Table.lookup_filter]
  split <;> rfl

theorem isGuarded_erase (other : q ≠ p) : (t.erase p).isGuarded q = t.isGuarded q := by
  rw [isGuarded,isGuarded,erase,Table.lookup_filter,if_neg other]

/-- No guard is new. -/
def Laxer (t t' : FileTree) : Prop := ∀ q, t'.isGuarded q = true → t.isGuarded q = true

theorem Laxer.refl (t : FileTree) : Laxer t t := fun _ guarded => guarded

theorem Laxer.trans (first : Laxer t t') (second : Laxer t' t'') : Laxer t t'' :=
  fun q guarded => first q (second q guarded)

theorem laxer_erase (t : FileTree) (p : Place) : Laxer t (t.erase p) := by
  intro q guarded
  by_cases same : q = p
  · subst same
    rw [isGuarded,erase,Table.lookup_filter,if_pos rfl] at guarded
    cases guarded
  · rwa [isGuarded_erase same] at guarded

theorem isTwin_iff : t.isTwin p q = true ↔ p ≠ q ∧ ∃ i, t.number? p = some i ∧ t.number? q = some i := by
  rw [isTwin,Bool.and_eq_true,Bool.and_eq_true,bne_iff_ne,beq_iff_eq,Option.isSome_iff_exists]
  constructor
  · rintro ⟨⟨differ,i,number⟩,same⟩
    exact ⟨differ,i,number,same.trans number⟩
  · rintro ⟨differ,i,number,number'⟩
    exact ⟨⟨differ,i,number⟩,number'.trans number.symm⟩

/-! ## Writing -/

theorem lookup_fill (content : List UInt8) (q : Place) : (t.fill p content).entries.lookup q =
    ((t.put p (.file content)).entries.lookup q).map fun entry =>
      if t.isTwin p q then entry.rewritten content else entry :=
  Table.lookup_map (fun q (entry : Entry) => if t.isTwin p q then entry.rewritten content else entry) _ q

/-- What stands at a place when a file has been written: what stood there, or the file,
which then stands in the place of a file unless it was put there. -/
theorem get?_fill (content : List UInt8) (q : Place) :
    (t.fill p content).get? q = (t.put p (.file content)).get? q ∨
      t.isTwin p q = true ∧ (∃ old, t.get? q = some (.file old)) ∧ (t.fill p content).get? q = some (.file content) := by
  by_cases top : q = []
  · subst top
    exact .inl rfl
  · unfold get?
    rw [if_neg top,if_neg top,if_neg top,lookup_fill]
    by_cases twin : t.isTwin p q = true
    · have differ : q ≠ p := Ne.symm (isTwin_iff.mp twin).1
      simp only [if_pos twin]
      rw [lookup_put,if_neg differ]
      cases found : t.entries.lookup q with
      | none => exact .inl rfl
      | some entry =>
        obtain ⟨node,_,_⟩ := entry
        cases node with
        | file old => exact .inr ⟨twin,⟨old,rfl⟩,rfl⟩
        | dir | link | special => exact .inl rfl
    · simp only [if_neg twin]
      exact .inl (by simp)

theorem isGuarded_fill (content : List UInt8) (q : Place) : (t.fill p content).isGuarded q = t.isGuarded q := by
  refine .trans ?_ (isGuarded_put (p := p) (.file content) q)
  rw [isGuarded,isGuarded,lookup_fill]
  cases (t.put p (.file content)).entries.lookup q with
  | none => rfl
  | some entry =>
    obtain ⟨node,_,_⟩ := entry
    simp only [Option.map_some,Option.any_some]
    split
    · cases node with
      | file | dir | link | special => rfl
    · rfl

theorem laxer_fill (t : FileTree) (p : Place) (content : List UInt8) : Laxer t (t.fill p content) :=
  fun q guarded => (isGuarded_fill content q).symm.trans guarded

/-- A file with one name is put in its place. -/
theorem fill_eq_put (alone : ∀ q, t.isTwin p q = false) (content : List UInt8) :
    t.fill p content = t.put p (.file content) := by
  unfold fill
  simp [alone]

/-! ## Ordinary places -/

/-- No special file stands at a place, nor one that has another name. -/
structure Ordinary (t : FileTree) (p : Place) : Prop where
  plain : ∀ kind, t.get? p ≠ some (.special kind)
  alone : ∀ q, t.isTwin p q = false

/-- No file has gained a name. -/
def Sparser (t t' : FileTree) : Prop := ∀ q i, t'.number? q = some i → t.number? q = some i

theorem Sparser.refl (t : FileTree) : Sparser t t := fun _ _ number => number

theorem Sparser.trans (first : Sparser t t') (second : Sparser t' t'') : Sparser t t'' :=
  fun q i number => first q i (second q i number)

theorem sparser_put (t : FileTree) (p : Place) (n : Node) : Sparser t (t.put p n) :=
  fun q _ number => (number?_put n q).symm.trans number

theorem sparser_erase (t : FileTree) (p : Place) : Sparser t (t.erase p) := by
  intro q i number
  rw [number?_erase] at number
  split at number
  · cases number
  · exact number

theorem Sparser.alone (sparser : Sparser t t') (alone : ∀ q, t.isTwin p q = false) (q : Place) :
    t'.isTwin p q = false := by
  rw [← Bool.not_eq_true,isTwin_iff]
  rintro ⟨differ,i,number,number'⟩
  have twin : t.isTwin p q = true := isTwin_iff.mpr ⟨differ,i,sparser p i number,sparser q i number'⟩
  rw [alone q] at twin
  cases twin

theorem Ordinary.sparser {lost : Place → Prop} (ordinary : t.Ordinary p) (drift : Drift t t' lost)
    (sparser : Sparser t t') : t'.Ordinary p :=
  ⟨fun kind special => ordinary.plain kind ((drift.special_iff p).mp special),sparser.alone ordinary.alone⟩

theorem alone_of_unnumbered (number : t.number? p = none) (q : Place) : t.isTwin p q = false := by
  simp [isTwin,number]

theorem ordinary_of_file (file : t.get? p = some (.file content)) (number : t.number? p = none) : t.Ordinary p :=
  ⟨by simp [file],alone_of_unnumbered number⟩

theorem ordinary_of_none (nothing : t.get? p = none) : t.Ordinary p := by
  refine ⟨by simp [nothing],alone_of_unnumbered ?_⟩
  have root : p ≠ [] := by
    rintro rfl
    cases nothing
  rw [get?,if_neg root,Option.map_eq_none_iff] at nothing
  simp [number?,nothing]

/-- Where no special file and no file of several names is, every place is ordinary. -/
theorem ordinary_of_entries (plain : ∀ e ∈ t.entries, e.2.number = none ∧ ∀ kind, e.2.node ≠ .special kind) (p : Place) :
    t.Ordinary p := by
  by_cases root : p = []
  · subst root
    refine ⟨nofun,alone_of_unnumbered ?_⟩
    rw [number?]
    cases found : t.entries.lookup [] with
    | none => rfl
    | some e => exact (plain _ (Table.mem_of_lookup found)).1
  · cases found : t.entries.lookup p with
    | none => exact ordinary_of_none (by rw [get?,if_neg root,found]; rfl)
    | some e =>
      obtain ⟨unnumbered,usual⟩ := plain _ (Table.mem_of_lookup found)
      refine ⟨?_,alone_of_unnumbered (by rw [number?,found]; exact unnumbered)⟩
      intro kind special
      rw [get?,if_neg root,found] at special
      exact usual kind (Option.some.inj special)

/-- To open an ordinary file is to empty it, if that is allowed. -/
theorem openAt_ordinary (ordinary : t.Ordinary p) :
    t.openAt p = if t.mayOpen p then .opened p (t.put p (.file [])) else .refused .permissionDenied := by
  unfold openAt
  split
  · rw [← fill_eq_put ordinary.alone]
    split
    next special => exact absurd special (ordinary.plain _)
    next special => exact absurd special (ordinary.plain _)
    next special => exact absurd special (ordinary.plain _)
    next => rfl
  · rfl

/-- What is written to an ordinary file that is still there is put in its place. -/
theorem written_ordinary {old : List UInt8} (alone : ∀ q, t.isTwin p q = false) (file : t.get? p = some (.file old))
    (content : List UInt8) : t.written p content = t.put p (.file content) := by
  simp only [written,file]
  exact fill_eq_put alone content

/-- An open file is empty, or it is a special one and nothing has changed. -/
theorem exists_of_openAt (opened : t.openAt p = .opened q t') :
    q = p ∧ (t' = t.fill p [] ∨ t' = t ∧ ∃ kind, t.get? p = some (.special kind)) := by
  unfold openAt at opened
  split at opened
  · split at opened
    next => cases opened
    next special =>
      cases opened
      exact ⟨rfl,.inr ⟨rfl,_,special⟩⟩
    next => cases opened
    next =>
      cases opened
      exact ⟨rfl,.inl rfl⟩
  · cases opened

end Lockstep.FileTree
