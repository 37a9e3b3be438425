import Lockstep.Proofs.Json.Written
import Lockstep.Proofs.Payload

/-!
# There and back

A snapshot is read back from its JSON text as it was (`ofPayload_toJson`), since
that text is one of the payloads that write the snapshot (`payload_toJson`). The
writer of an object is held to the grammar once, for any members
(`members_writeMembers`).
-/

namespace Lockstep.Snapshot

open Lockstep.Json (ascii Bracket Value writeString writeMembers)
open Lockstep.Utf8 (encode)

/-! ## Objects -/

/-- Members as they are written: their names and the bytes of their values. -/
def written (ms : List (String × Value)) : List (String × List UInt8) :=
  ms.map fun m => (m.1,encode m.2.writeCompact)

theorem encode_member (name : String) (v : Value) (rest : List Char) :
    encode (writeString name ++ ':' :: (v.writeCompact ++ rest)) =
      encode (writeString name) ++ ascii ':' :: encode v.writeCompact ++ encode rest := by
  rw [Utf8.encode_append,Utf8.encode_ascii (by decide),Utf8.encode_append]
  simp [ascii]

theorem member_written (name : String) (v : Value) :
    Member (name,encode v.writeCompact) (encode (writeString name) ++ ascii ':' :: encode v.writeCompact) := by
  have member : Member (name,encode v.writeCompact)
      ([] ++ encode (writeString name) ++ [] ++ ascii ':' :: [] ++ encode v.writeCompact) :=
    .mk Json.blank_nil (Json.quoted_writeString name) Json.blank_nil Json.blank_nil
  simpa using member

theorem members_writeMembers (name : String) (v : Value) (ms : List (String × Value)) :
    Members (written ((name,v) :: ms)) (encode (writeString name ++ ':' :: (v.writeCompact ++ writeMembers ms))) := by
  rw [encode_member]
  induction ms generalizing name v with
  | nil => exact .last (member_written name v) Json.blank_nil
  | cons m ms ih =>
    obtain ⟨next,w⟩ := m
    have further := Members.more (member_written name v) Json.blank_nil (ih next w)
    rw [List.append_nil,← encode_member] at further
    rw [writeMembers,Utf8.encode_ascii (by decide)]
    exact further

/-! ## Snapshots -/

/-- What a snapshot has for a field, as a value. -/
def value (s : Snapshot) : Field → Value
  | .run => .nat s.run.toNat
  | .beamMode => .string s.beamMode
  | .daqState => .string s.daqState

theorem holds_value (s : Snapshot) (field : Field) : Holds s field (encode (s.value field).writeCompact) := by
  cases field with
  | run => exact ⟨Json.whole_digits s.run.toNat,Json.ofValues_digits s.run.toNat⟩
  | beamMode => exact Json.quoted_writeString s.beamMode
  | daqState => exact Json.quoted_writeString s.daqState

/-- Every field is written once, and nothing else is written. -/
theorem writes_value (s : Snapshot) : Writes s (written (Field.all.map fun field => (field.name,s.value field))) := by
  refine ⟨fun field => ⟨_,holds_value s field,?_⟩,?_⟩
  · cases field with
    | run | beamMode | daqState => rfl
  · intro m member other
    obtain ⟨_,listed,rfl⟩ := List.mem_map.mp member
    obtain ⟨field,_,rfl⟩ := List.mem_map.mp listed
    exact absurd rfl (other field)

/-- The JSON text of a snapshot is a payload that writes it. -/
theorem payload_toJson (s : Snapshot) : Payload s (Utf8.ofString s.toJson) := by
  have members := members_writeMembers Field.run.name (s.value .run)
    [(Field.beamMode.name,s.value .beamMode),(Field.daqState.name,s.value .daqState)]
  have payload := Payload.object Json.blank_nil members (writes_value s) Json.blank_nil
  have text : s.toJson.toList = '\x7b' :: (writeString Field.run.name ++ ':' :: ((s.value .run).writeCompact ++
      writeMembers [(Field.beamMode.name,s.value .beamMode),(Field.daqState.name,s.value .daqState)])) ++ ['\x7d'] :=
    String.toList_ofList
  rw [Utf8.ofString,text,Utf8.encode_append,Utf8.encode_ascii (by decide)]
  exact payload

/-- Every snapshot is read back from its JSON text, whatever its run and whatever
characters its two words have. So no two snapshots have the same text. -/
theorem ofPayload_toJson : (∀ s : Snapshot, ofPayload (Utf8.ofString s.toJson) = .ok s) ∧
    Function.Injective toJson := by
  have back (s : Snapshot) : ofPayload (Utf8.ofString s.toJson) = .ok s := ofPayload_eq_ok_iff.mpr (payload_toJson s)
  refine ⟨back,?_⟩
  intro s t same
  have read := back s
  rw [same,back t] at read
  exact (Except.ok.inj read).symm

end Lockstep.Snapshot
