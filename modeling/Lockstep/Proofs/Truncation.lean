import Lockstep.Proofs.RoundTrip

/-!
# Payloads that are cut off or run on

A payload is read up to the bracket that closes it and no further, whatever comes
behind. So nothing short of that bracket is a payload, wherever it is cut off, and
neither is a payload with anything but spaces behind it (`ofPayload_exact`).
-/

namespace Lockstep.Snapshot

open Lockstep.Json (Bracket Blank skipSpace)

/-- A body is refused: it is not read, and a complete and successful response with that
body makes its poll fail as malformed. -/
def Refused (body : List UInt8) : Prop :=
  ∃ f, ofPayload body = .error f ∧ ∀ url (r : Response), r.isSuccess = true → r.complete = true → r.payload = body →
    HttpFeed.read url r = .error (.malformed f.message)

section
variable {s s' : Snapshot} {u body : List UInt8}

theorem refused_of_forall (none : ∀ s, ofPayload body ≠ .ok s) : Refused body := by
  cases read : ofPayload body with
  | ok s => exact absurd read (none s)
  | error f =>
    refine ⟨f,read,?_⟩
    rintro url r success complete rfl
    exact read_malformed url success complete read

/-- Where a body is read, only spaces are left over. -/
theorem blank_of_ofPayload (accepted : ofPayload body = .ok s) (read : readSnapshot body = .ok (s',u)) : Blank u := by
  simp only [ofPayload,read] at accepted
  split at accepted
  · next empty => exact skipSpace_eq_nil_iff.mp (List.isEmpty_iff.mp empty)
  · cases accepted

/-- Behind a body that is read only spaces may stand for the whole to be read. -/
theorem blank_of_append (accepted : ofPayload body = .ok s) (more : ofPayload (body ++ u) = .ok s') : Blank u := by
  obtain ⟨b,_,read⟩ := (ofPayload_eq_ok_iff.mp accepted).exists_read
  intro x member
  exact blank_of_ofPayload more (read u) x (List.mem_append_right b member)

theorem Payload.exists_brackets (payload : Payload s body) : ∃ k a inside rest, Blank a ∧ Blank rest ∧
    body = a ++ Bracket.opening k :: inside ++ Bracket.closing k :: rest := by
  cases payload with
  | object before _ _ after => exact ⟨.object,_,_,_,before,after,rfl⟩
  | @list a x y z b before _ _ _ after =>
    exact ⟨.list,a,x ++ Json.ascii ',' :: y ++ Json.ascii ',' :: z,b,before,after,by simp⟩

end

/-- Let a body be read as a snapshot. Apart from spaces around them it has two brackets,
one at either end. Whatever stops before the closing one is refused, and so is the
body with anything behind it that is not all spaces. -/
theorem ofPayload_exact {body : List UInt8} {s : Snapshot} (accepted : ofPayload body = .ok s) :
    (∃ k a inside rest, Blank a ∧ Blank rest ∧
      body = a ++ Bracket.opening k :: inside ++ Bracket.closing k :: rest) ∧
    (∀ k front rest, Blank rest → body = front ++ Bracket.closing k :: rest →
      ∀ cut, cut <+: front → Refused cut) ∧
    ∀ more, ¬ Blank more → Refused (body ++ more) := by
  refine ⟨(ofPayload_eq_ok_iff.mp accepted).exists_brackets,?_,?_⟩
  · rintro k front rest _ rfl cut ⟨missing,rfl⟩
    apply refused_of_forall
    intro s' early
    rw [List.append_assoc] at accepted
    -- Had the cut body been read, the bracket that it lacks would be a space.
    have blank := blank_of_append early accepted
    have space : Json.isSpace k.closing = true := Json.isSpace_iff.mpr (blank _ (by simp))
    rw [(Json.isSpace_bracket k).2] at space
    cases space
  · intro more solid
    apply refused_of_forall
    intro s' read
    exact solid (blank_of_append accepted read)

/-- A snapshot sent by half is refused, and so is one that is sent twice. -/
theorem half_a_payload_refused :
    let s : Snapshot := ⟨5,"STABLE BEAMS","RUNNING"⟩
    let body := Utf8.ofString s.toJson
    ofPayload body = .ok s ∧ Refused (body.take 30) ∧ Refused (body ++ body) := by
  intro s body
  have accepted : ofPayload body = .ok s := ofPayload_eq_ok_iff.mpr (payload_toJson s)
  obtain ⟨_,shorter,longer⟩ := ofPayload_exact accepted
  have closed : body = body.dropLast ++ Bracket.closing .object :: [] := by decide +kernel
  refine ⟨accepted,shorter .object _ [] Json.blank_nil closed _ (by decide +kernel),longer body ?_⟩
  intro blank
  have opening := blank (Bracket.opening .object) (by decide +kernel)
  revert opening
  decide

end Lockstep.Snapshot
