import Mathlib.Data.List.Nodup
import Mathlib.Data.String.Basic
import Lockstep.Proofs.DurationText
import Lockstep.Proofs.Tables
import Lockstep.Settings.Layers

/-!
# Documents and their layers

Tables are looked up by their keys, which ascend, whatever has been put into them
(`lookup_insertEntry`, `ascending_insertEntry`). A layer over another gives its own
entries and leaves the others as they were (`lookup_overlayEntries`), and what texts
there are in the end come from one or the other (`holds_overlay`).
-/

namespace Lockstep

namespace Json.Value

/-- The members of an object. -/
def members : Value → List (String × Value)
  | .object ms => ms
  | _ => []

end Json.Value

namespace Settings

open Json (Value)

/-! ## Tables -/

section
variable {α : Type} {key known : String} {value : α} {table : List (String × α)}

theorem mem_insertEntry {e : String × α} (member : e ∈ insertEntry key value table) : e = (key,value) ∨ e ∈ table := by
  fun_induction insertEntry key value table with
  | case1 => exact .inl (List.mem_singleton.mp member)
  | case2 => exact List.mem_cons.mp member
  | case3 => exact (List.mem_cons.mp member).imp_right (List.mem_cons_of_mem _)
  | case4 k v rest _ _ ih =>
    rcases List.mem_cons.mp member with rfl | later
    · exact .inr List.mem_cons_self
    · exact (ih later).imp_right (List.mem_cons_of_mem _)

theorem mem_keys_insertEntry (known : String) :
    known ∈ (insertEntry key value table).map (·.1) ↔ known = key ∨ known ∈ table.map (·.1) := by
  fun_induction insertEntry key value table with
  | case1 => simp
  | case2 => simp
  | case3 => simp
  | case4 k v rest _ _ ih =>
    simp only [List.map_cons,List.mem_cons,ih]
    tauto

theorem lookup_insertEntry :
    (insertEntry key value table).lookup known = if known = key then some value else table.lookup known := by
  fun_induction insertEntry key value table with
  | case1 =>
    rw [List.lookup_cons]
    by_cases same : known = key
    · simp [same]
    · simp [same,beq_false_of_ne same]
  | case2 =>
    rw [List.lookup_cons]
    by_cases same : known = key
    · simp [same]
    · simp [same,beq_false_of_ne same]
  | case3 =>
    rw [List.lookup_cons]
    by_cases same : known = key
    · simp [same]
    · simp [same,List.lookup_cons,beq_false_of_ne same]
  | case4 k v rest _ other ih =>
    rw [List.lookup_cons,List.lookup_cons,ih]
    by_cases first : known = k
    · subst first
      simp [Ne.symm other]
    · simp [beq_false_of_ne first]

/-- The keys of a table ascend. -/
def Ascending (table : List (String × α)) : Prop := (table.map (·.1)).Pairwise (· < ·)

theorem ascending_nil : Ascending ([] : List (String × α)) := List.Pairwise.nil

theorem Ascending.nodup (ascending : Ascending table) : (table.map (·.1)).Nodup :=
  List.Pairwise.imp (fun less same => absurd (same ▸ less) (lt_irrefl _)) ascending

theorem ascending_insertEntry (ascending : Ascending table) : Ascending (insertEntry key value table) := by
  unfold Ascending at ascending ⊢
  fun_induction insertEntry key value table with
  | case1 => simp
  | case2 k v rest less =>
    rw [List.map_cons] at ascending ⊢
    refine List.pairwise_cons.mpr ⟨?_,ascending⟩
    intro later member
    rcases List.mem_cons.mp member with rfl | further
    · exact less
    · exact lt_trans less ((List.pairwise_cons.mp ascending).1 later further)
  | case3 v rest _ => exact ascending
  | case4 k v rest notLess other ih =>
    rw [List.map_cons] at ascending ⊢
    obtain ⟨first,rest'⟩ := List.pairwise_cons.mp ascending
    refine List.pairwise_cons.mpr ⟨?_,ih rest'⟩
    intro later member
    rcases (mem_keys_insertEntry later).mp member with rfl | further
    · exact lt_of_le_of_ne (not_lt.mp notLess) (Ne.symm other)
    · exact first later further

end

/-! ## Tables from objects -/

section
variable {o : Origin} {ms : List (String × Value)} {built : List (String × Document)}

theorem mem_ofMembers {e : String × Document} (member : e ∈ Document.ofMembers o ms built) :
    (∃ v, (e.1,v) ∈ ms ∧ e.2 = .ofValue o v) ∨ e ∈ built := by
  induction ms generalizing built with
  | nil => exact .inr member
  | cons m ms ih =>
    obtain ⟨name,v⟩ := m
    rw [Document.ofMembers] at member
    rcases ih member with ⟨w,inside,same⟩ | before
    · exact .inl ⟨w,List.mem_cons_of_mem _ inside,same⟩
    · rcases mem_insertEntry before with rfl | earlier
      · exact .inl ⟨v,List.mem_cons_self,rfl⟩
      · exact .inr earlier

theorem mem_keys_ofMembers (known : String) :
    known ∈ (Document.ofMembers o ms built).map (·.1) ↔ known ∈ ms.map (·.1) ∨ known ∈ built.map (·.1) := by
  induction ms generalizing built with
  | nil => simp [Document.ofMembers]
  | cons m ms ih =>
    obtain ⟨name,v⟩ := m
    rw [Document.ofMembers,ih,mem_keys_insertEntry,List.map_cons,List.mem_cons]
    tauto

theorem ascending_ofMembers (ascending : Ascending built) : Ascending (Document.ofMembers o ms built) := by
  induction ms generalizing built with
  | nil => exact ascending
  | cons m ms ih =>
    rw [Document.ofMembers]
    exact ih (ascending_insertEntry ascending)

/-- Where names do not repeat, each finds its own value. -/
theorem lookup_ofMembers {known : String} (distinct : (ms.map (·.1)).Nodup) :
    (Document.ofMembers o ms built).lookup known =
      match ms.lookup known with
      | some v => some (.ofValue o v)
      | none => built.lookup known := by
  induction ms generalizing built with
  | nil => rfl
  | cons m ms ih =>
    obtain ⟨name,v⟩ := m
    rw [List.map_cons,List.nodup_cons] at distinct
    rw [Document.ofMembers,ih distinct.2,lookup_insertEntry,List.lookup_cons]
    by_cases same : known = name
    · subst same
      rw [Table.lookup_eq_none.mpr distinct.1]
      simp
    · simp [same,beq_false_of_ne same]

end

/-! ## Layers -/

namespace Document

section
variable {below above : List (String × Document)} {known : String}

/-- Whether a document is a table. -/
def isTable : Document → Bool
  | .table _ _ => true
  | _ => false

theorem overlay_table (o o' : Origin) (below above : List (String × Document)) :
    (Document.table o below).overlay (.table o' above) = .table o' (overlayEntries below above) := by
  rw [overlay]

/-- A document takes the place of another, unless both are tables. -/
theorem overlay_cases (lower upper : Document) : lower.overlay upper = upper ∨
    ∃ o below o' above, lower = .table o below ∧ upper = .table o' above ∧
      lower.overlay upper = .table o' (overlayEntries below above) := by
  by_cases both : (∃ o below, lower = .table o below) ∧ ∃ o above, upper = .table o above
  · obtain ⟨⟨o,below,rfl⟩,o',above,rfl⟩ := both
    exact .inr ⟨o,below,o',above,rfl,rfl,overlay_table o o' below above⟩
  · left
    rw [overlay]
    rintro o below o' above rfl rfl
    exact both ⟨⟨o,below,rfl⟩,o',above,rfl⟩

theorem overlay_upper {lower upper : Document} (other : upper.isTable = false) : lower.overlay upper = upper := by
  rcases overlay_cases lower upper with same | ⟨_,_,o,above,_,rfl,_⟩
  · exact same
  · cases other

theorem overlay_lower {lower upper : Document} (other : lower.isTable = false) : lower.overlay upper = upper := by
  rcases overlay_cases lower upper with same | ⟨o,below,_,_,rfl,_⟩
  · exact same
  · cases other

@[simp] theorem overlayEntries_nil (below : List (String × Document)) : overlayEntries below [] = below := by
  rw [overlayEntries]

theorem ascending_overlayEntries (ascending : Ascending below) : Ascending (overlayEntries below above) := by
  induction above generalizing below with
  | nil =>
    rw [overlayEntries]
    exact ascending
  | cons e above ih =>
    rw [overlayEntries]
    exact ih (ascending_insertEntry ascending)

/-- One document over another that may be missing. -/
def laid (lower? : Option Document) (upper : Document) : Document :=
  match lower? with
  | some lower => lower.overlay upper
  | none => upper

/-- A layer gives its own entries, each over the one that was there, and leaves the
others. -/
theorem lookup_overlayEntries (distinct : (above.map (·.1)).Nodup) :
    (overlayEntries below above).lookup known =
      match above.lookup known with
      | some upper => some (laid (below.lookup known) upper)
      | none => below.lookup known := by
  induction above generalizing below with
  | nil =>
    rw [overlayEntries]
    rfl
  | cons e above ih =>
    obtain ⟨key,d⟩ := e
    rw [List.map_cons,List.nodup_cons] at distinct
    rw [overlayEntries,ih distinct.2,lookup_insertEntry,List.lookup_cons]
    by_cases same : known = key
    · subst same
      rw [Table.lookup_eq_none.mpr distinct.1]
      simp only [if_true,beq_self_eq_true]
      rfl
    · simp only [if_neg same,beq_false_of_ne same]

theorem lookup_overlayEntries_single (key : String) (d : Document) :
    (overlayEntries below [(key,d)]).lookup known =
      if known = key then some (laid (below.lookup key) d) else below.lookup known := by
  rw [lookup_overlayEntries (by simp),List.lookup_cons]
  by_cases same : known = key
  · subst same
    simp
  · simp [same,beq_false_of_ne same]

end

/-! ## Texts -/

/-- A text stands somewhere in a document. -/
inductive Holds (s : String) : Document → Prop
  | text (o : Origin) : Holds s (.text o s)
  | char {o : Origin} {c : Char} (single : s = String.singleton c) : Holds s (.char o c)
  | item {o : Origin} {items : List Document} {d : Document} (member : d ∈ items) (inside : Holds s d) :
      Holds s (.list o items)
  | entry {o : Origin} {entries : List (String × Document)} {e : String × Document} (member : e ∈ entries)
      (inside : Holds s e.2) : Holds s (.table o entries)

/-- The texts of a document laid over another come from one of them. -/
theorem holds_overlay {s : String} {lower upper : Document} (holds : (lower.overlay upper).Holds s) :
    lower.Holds s ∨ upper.Holds s := by
  let Some (entries : List (String × Document)) : Prop := ∃ e ∈ entries, e.2.Holds s
  have both := overlay.mutual_induct
    (fun lower upper => (lower.overlay upper).Holds s → lower.Holds s ∨ upper.Holds s)
    (fun below above => Some (overlayEntries below above) → Some below ∨ Some above)
  refine (both ?_ ?_ ?_ ?_).1 lower upper holds
  · intro o below o' above ih holds
    rw [overlay_table] at holds
    cases holds with
    | entry member inside =>
      rcases ih ⟨_,member,inside⟩ with ⟨e,there,held⟩ | ⟨e,there,held⟩
      · exact .inl (.entry there held)
      · exact .inr (.entry there held)
  · intro lower upper other holds
    rw [overlay] at holds
    · exact .inr holds
    · exact other
  · intro below some
    rw [overlayEntries] at some
    exact .inl some
  · intro below key d rest first ih some
    rw [overlayEntries] at some
    rcases ih some with ⟨e,member,held⟩ | ⟨e,member,held⟩
    · rcases mem_insertEntry member with rfl | there
      · cases found : below.lookup key with
        | none =>
          rw [found] at held
          exact .inr ⟨(key,d),List.mem_cons_self,held⟩
        | some lower =>
          rw [found] at held
          rcases first lower held with under | own
          · exact .inl ⟨(key,lower),Table.mem_of_lookup found,under⟩
          · exact .inr ⟨(key,d),List.mem_cons_self,own⟩
      · exact .inl ⟨e,there,held⟩
    · exact .inr ⟨e,List.mem_cons_of_mem _ member,held⟩

end Document

/-! ## Values that are read -/

section
variable {o : Origin} {grade : Grade}

theorem readText_string (expected : Shape) (text : String) :
    readText expected (.ofValue o (.string text)) = .ok text := rfl

theorem readDuration_durationValue (d : Duration) : readDuration (.ofValue o (durationValue d)) = .ok d := by
  simp only [readDuration,durationValue,readText_string,Duration.ofText_text]

theorem readTextsFrom_ofItems (texts : List String) (index : Nat) :
    readTextsFrom index (Document.ofItems o (texts.map .string)) = .ok texts := by
  induction texts generalizing index with
  | nil => rfl
  | cons text texts ih =>
    rw [List.map_cons,Document.ofItems,readTextsFrom]
    simp only [Document.ofValue,readText,under,ih,Except.map]

theorem readTexts_textsValue (texts : List String) : readTexts (.ofValue o (textsValue texts)) = .ok texts :=
  readTextsFrom_ofItems texts 0

theorem readBelow_nat {bound n : Nat} (below : n < bound) (expected : Shape) :
    readBelow bound expected (.ofValue o (.nat n)) = .ok n := by
  simp only [Value.nat,Document.ofValue,readBelow,if_pos below]

theorem readChoice_resend (p : ResendPolicy) :
    readChoice grade "ResendPolicy" ([ResendPolicy.onTransition,.everyCycle].map fun p => (resendName p,p))
      (.ofValue o (.string (resendName p))) = .ok p := by
  cases p <;> rfl

theorem readChoice_format (f : LogFormat) :
    readChoice grade "LogFormat" ([LogFormat.text,.json].map fun f => (formatName f,f))
      (.ofValue o (.string (formatName f))) = .ok f := by
  cases f <;> rfl

end

/-! ## Loading -/

/-- The layers, one over the other. -/
def merged (layer : Document) (vars : List (String × String)) : Document :=
  (defaultsLayer.overlay layer).overlay (environmentLayer vars)

theorem ofLayers_eq {file : Option (String × List UInt8)} {layer : Document} (found : fileLayer file = .ok layer)
    (vars : List (String × String)) :
    ofLayers file vars =
      match ofDocument .lenient (merged layer vars) with
      | .error m => .error (.mismatch m)
      | .ok s =>
        match s.defect? with
        | some d => .error (.defect d)
        | none => .ok s := by
  rw [ofLayers,found]
  rfl

end Settings

end Lockstep
