import Mathlib.Data.Bool.AllAny
import Lockstep.Proofs.Utf8
import Lockstep.TcpLink

/-!
# What acknowledges a command

The link reads a reply as text and looks for the acknowledging word in it. On the
bytes that is a simple matter all the same (`replied_acknowledged_iff`): the two
bytes of the word stand side by side among the first bytes of the reply, as many
as count, and nothing that is malformed around them, or that the limit cuts,
makes a difference.
-/

namespace Lockstep.TcpLink

/-- The bytes of the acknowledging word. -/
theorem encode_acknowledgment : Utf8.encode acknowledgment.toList = [0x6F,0x6B] := by decide +kernel

theorem acknowledgment_ascii : ∀ c ∈ acknowledgment.toList, c.toNat < 0x80 :=
  List.all_iff_forall_prop.mp (by decide +kernel)

/-- A reply acknowledges exactly where the bytes of the word stand among those that
count. -/
theorem acknowledges_response (bytes : List UInt8) :
    acknowledges (response bytes) = true ↔ [0x6F,0x6B] <:+: bytes.take replyLimit := by
  rw [acknowledges,Text.occurs_iff,response,Utf8.toLossyString,String.toList_ofList,
    Utf8.infix_lossy acknowledgment_ascii,encode_acknowledgment]

/-- Two bytes side by side in front of a limit. -/
theorem infix_take_iff (limit : Nat) {a b : UInt8} {bytes : List UInt8} :
    [a,b] <:+: bytes.take limit ↔ ∃ k, k + 1 < limit ∧ bytes[k]? = some a ∧ bytes[k + 1]? = some b := by
  rw [List.infix_iff_getElem?]
  constructor
  · rintro ⟨k,fits,same⟩
    have length : (bytes.take limit).length ≤ limit := List.length_take_le limit bytes
    have within : k + 1 < limit := by simp only [List.length_cons,List.length_nil] at fits; omega
    have first := same 0 (by simp)
    have second := same 1 (by simp)
    rw [List.getElem?_take_of_lt (by omega)] at first second
    exact ⟨k,within,by simpa using first,by simpa [Nat.add_comm] using second⟩
  · rintro ⟨k,within,first,second⟩
    obtain ⟨inside,_⟩ := List.getElem?_eq_some_iff.mp second
    refine ⟨k,by simp only [List.length_cons,List.length_nil,List.length_take]; omega,fun i bound => ?_⟩
    have here : i = 0 ∨ i = 1 := by simp only [List.length_cons,List.length_nil] at bound; omega
    rcases here with rfl | rfl
    · rw [List.getElem?_take_of_lt (by omega)]; simpa using first
    · rw [List.getElem?_take_of_lt (by omega)]; simpa [Nat.add_comm] using second

/-- Whatever bytes a peer replies with in one piece, the command is acknowledged exactly
where the bytes of `ok` stand side by side among the first 256 of them; a word beyond
that limit or across it does not count. Either way the result carries the reply as
text, and what is not acknowledged is refused for that reason. -/
theorem replied_acknowledged_iff (l : TcpLink) (c : Command) (bytes : List UInt8) (others : List Contact)
    (heard : List String) :
    let result := (l.link.send c ⟨.replied bytes :: others,heard⟩).1.result
    ((∃ text, result = .ok text) ↔
      ∃ k, k + 1 < 256 ∧ bytes[k]? = some 0x6F ∧ bytes[k + 1]? = some 0x6B) ∧
    (result = .ok (response bytes) ∨ result = .error (.notAcknowledged (response bytes))) := by
  intro result
  have reply : result = verdict (response bytes) := by
    show (l.deliver c (Line.next ⟨.replied bytes :: others,heard⟩).1).result = _
    cases others <;> rfl
  rw [reply,← infix_take_iff 256,← replyLimit,← acknowledges_response,verdict]
  by_cases said : acknowledges (response bytes) = true
  · simp [said]
  · simp [said]

end Lockstep.TcpLink
