import Lockstep.Proofs.StandIn

/-!
# The text of a reply

A reply is cut at a limit in bytes and then read as text. A text that fits is read
back as it was written. Of a longer one as many characters are left as fit, and one
replacement where the limit falls inside a character, however many of its bytes
were left (`lossy_take`). Bytes that are no text have no more characters than bytes.
-/

namespace Lockstep

namespace Utf8

/-! ## Characters that are cut off -/

/-- Every piece takes at least one byte. -/
theorem length_lossy (bytes : List UInt8) : (lossy bytes).length ≤ bytes.length := by
  have pieces := pieces_decode bytes
  rw [lossy,List.length_map]
  generalize decode bytes = out at pieces
  induction pieces with
  | nil => exact Nat.le_refl 0
  | char c _ ih =>
    obtain ⟨a,stretch,whole,_⟩ := encodeChar_parts c
    rw [whole]
    simp only [List.length_cons,List.length_append]
    omega
  | @broken stretch _ _ nonempty _ _ ih =>
    have some : 0 < stretch.length := List.length_pos_of_ne_nil nonempty
    simp only [List.length_cons,List.length_append]
    omega

/-- Bytes go on with a character begun, but not to its end. -/
theorem decodeFrom_short {b : Begun} {q : List UInt8} (short : q.length < b.owed)
    (head : ∀ x ∈ q.head?, b.low ≤ x.toNat ∧ x.toNat ≤ b.high) (tails : ∀ x ∈ q, IsTail x) :
    decodeFrom (some b) q = [none] := by
  induction q generalizing b with
  | nil => rfl
  | cons x q ih =>
    simp only [List.length_cons] at short
    rw [decodeFrom,if_pos (head x rfl)]
    simp only [if_neg (show b.owed ≠ 1 by omega)]
    apply ih
    · show q.length < b.owed - 1
      omega
    · intro y next
      exact tails y (List.mem_cons_of_mem x (List.mem_of_mem_head? next))
    · exact fun y member => tails y (List.mem_cons_of_mem x member)

/-- Some bytes of a character, but not all, are one broken stretch. -/
theorem lossy_begun {c : Char} {n : Nat} (some : 0 < n) (less : n < (encodeChar c).length) :
    lossy ((encodeChar c).take n) = [replacement] := by
  by_cases low : c.toNat < 0x80
  · rw [encodeChar_one low,List.length_singleton] at less
    omega
  · obtain ⟨a,x,q,b,whole,lead,fills,_⟩ := lead_encodeChar (Nat.le_of_not_lt low)
    obtain ⟨n,rfl⟩ : ∃ m, n = m + 1 := ⟨n - 1,by omega⟩
    rw [whole] at less ⊢
    have short : ((x :: q).take n).length < b.owed := by
      have all := fills.length
      simp only [List.length_cons,List.length_take] at less all ⊢
      omega
    have head : ∀ y ∈ ((x :: q).take n).head?, b.low ≤ y.toNat ∧ y.toNat ≤ b.high := by
      cases n with
      | zero => exact nofun
      | succ n => exact fills.head
    have one : decode (a :: (x :: q).take n) = [none] := by
      rw [decode,decodeFrom_begun lead]
      exact decodeFrom_short short head fun y member => fills.tails y (List.mem_of_mem_take member)
    rw [List.take_succ_cons,lossy,one]
    rfl

/-! ## Texts that are cut off -/

/-- The longest front of a text whose bytes fit into a limit. -/
structure LongestFront (limit : Nat) (s p : List Char) : Prop where
  front : p <+: s
  fits : (encode p).length ≤ limit
  longest : ∀ q, q <+: s → (encode q).length ≤ limit → q <+: p

/-- A limit falls inside a character: some of its bytes lie before the limit, some
behind it. -/
def Splits (limit : Nat) (s : List Char) : Prop :=
  ∃ p c rest, s = p ++ c :: rest ∧ (encode p).length < limit ∧ limit < (encode p).length + (encodeChar c).length

section
variable {limit : Nat} {s p q : List Char}

/-- A front is the longest if the character behind it does not fit any more. -/
theorem longestFront_of_next {rest : List Char} (fits : (encode p).length ≤ limit)
    (next : ∀ c ∈ rest.head?, limit < (encode p).length + (encodeChar c).length) :
    LongestFront limit (p ++ rest) p := by
  refine ⟨List.prefix_append p rest,fits,?_⟩
  intro q front small
  rcases List.prefix_or_prefix_of_prefix front (List.prefix_append p rest) with inside | ⟨more,rfl⟩
  · exact inside
  · cases more with
    | nil => simp
    | cons c more =>
      obtain ⟨others,rfl⟩ := (List.prefix_append_right_inj p).mp front
      have beyond := next c rfl
      rw [encode_append,encode_cons,List.length_append,List.length_append] at small
      omega

theorem LongestFront.unique (longest : LongestFront limit s p) (other : LongestFront limit s q) : p = q :=
  (other.longest p longest.front longest.fits).eq_of_length_le
    (longest.longest q other.front other.fits).length_le

/-- Every text parts into characters that fit and the others, the first of which does
not fit any more. -/
theorem exists_parts (limit : Nat) (s : List Char) : ∃ p rest, s = p ++ rest ∧ (encode p).length ≤ limit ∧
    ∀ c ∈ rest.head?, limit < (encode p).length + (encodeChar c).length := by
  induction s generalizing limit with
  | nil => exact ⟨[],[],rfl,Nat.zero_le limit,nofun⟩
  | cons c s ih =>
    by_cases fits : (encodeChar c).length ≤ limit
    · obtain ⟨p,rest,rfl,small,next⟩ := ih (limit - (encodeChar c).length)
      refine ⟨c :: p,rest,rfl,?_,?_⟩
      · rw [encode_cons,List.length_append]
        omega
      · intro d first
        have beyond := next d first
        rw [encode_cons,List.length_append]
        omega
    · refine ⟨[],c :: s,rfl,Nat.zero_le limit,?_⟩
      intro d first
      obtain rfl : c = d := Option.some.inj first
      have nothing : (encode []).length = 0 := rfl
      omega

/-- Of a text that is cut at a limit the longest front that fits is left, and one
replacement where the limit falls inside a character. -/
theorem lossy_take (limit : Nat) (s : List Char) : ∃ p, LongestFront limit s p ∧
    (Splits limit s → lossy ((encode s).take limit) = p ++ [replacement]) ∧
    (¬Splits limit s → lossy ((encode s).take limit) = p) := by
  obtain ⟨p,rest,rfl,fits,next⟩ := exists_parts limit s
  have longest : LongestFront limit (p ++ rest) p := longestFront_of_next fits next
  have bytes : (encode (p ++ rest)).take limit = encode p ++ (encode rest).take (limit - (encode p).length) := by
    rw [encode_append,List.take_append,List.take_of_length_le fits]
  refine ⟨p,longest,?_,?_⟩
  · rintro ⟨p',c,more,parts,begun,unfinished⟩
    have other : LongestFront limit (p ++ rest) p' := by
      rw [parts]
      refine longestFront_of_next (Nat.le_of_lt begun) ?_
      intro d first
      obtain rfl : c = d := Option.some.inj first
      exact unfinished
    obtain rfl := longest.unique other
    obtain rfl : rest = c :: more := List.append_cancel_left parts
    rw [bytes,lossy_append,encode_cons,List.take_append_of_le_length (by omega),lossy_begun (by omega) (by omega)]
  · intro clean
    rw [bytes,lossy_append]
    cases rest with
    | nil =>
      have nothing : (encode []).take (limit - (encode p).length) = [] := List.take_nil
      rw [nothing]
      exact List.append_nil p
    | cons c more =>
      -- The limit falls behind the front, or it would split the next character.
      have full : limit = (encode p).length := by
        have beyond := next c rfl
        by_contra other
        exact clean ⟨p,c,more,rfl,by omega,beyond⟩
      rw [full,Nat.sub_self,List.take_zero]
      exact List.append_nil p

end

end Utf8

namespace TcpLink

/-- Whatever bytes a peer replies with in one piece, the result carries a text of at most
256 characters. Where the bytes are those of a text it is this text if they are at most
256. If they are more it is the longest front of the text that fits into 256 bytes,
with one replacement behind it where the limit falls inside a character. -/
theorem replied_text (l : TcpLink) (c : Command) (bytes : List UInt8) (others : List Contact) (heard : List String) :
    let result := (l.link.send c ⟨.replied bytes :: others,heard⟩).1.result
    ∃ text, (result = .ok text ∨ result = .error (.notAcknowledged text)) ∧ text.length ≤ 256 ∧
      ∀ t : String, bytes = Utf8.ofString t →
        (bytes.length ≤ 256 → text = t) ∧
        (256 < bytes.length → ∃ p, Utf8.LongestFront 256 t.toList p ∧
          (Utf8.Splits 256 t.toList → text.toList = p ++ ['\ufffd']) ∧
          (¬Utf8.Splits 256 t.toList → text.toList = p)) := by
  intro result
  have reply : result = verdict (response bytes) := by
    show (l.deliver c (Line.next ⟨.replied bytes :: others,heard⟩).1).result = _
    cases others <;> rfl
  refine ⟨response bytes,?_,?_,?_⟩
  · rw [reply,verdict]
    by_cases said : acknowledges (response bytes) = true
    · exact .inl (if_pos said)
    · exact .inr (if_neg said)
  · have short := Utf8.length_lossy (bytes.take replyLimit)
    have cut : (bytes.take replyLimit).length ≤ 256 := List.length_take_le 256 bytes
    rw [response,Utf8.toLossyString,String.length_ofList]
    exact Nat.le_trans short cut
  · rintro t rfl
    refine ⟨fun fits => response_ofString fits,fun _ => ?_⟩
    have text : (response (Utf8.ofString t)).toList = Utf8.lossy ((Utf8.encode t.toList).take 256) :=
      String.toList_ofList
    rw [text]
    exact Utf8.lossy_take 256 t.toList

/-- Of a character of three bytes, the first of which is the last that counts, a
replacement is left. -/
theorem straddling_euro_replaced :
    let s := List.replicate 255 'x' ++ ['€']
    let result := (Peer.usualLink.link.send .stop
      ⟨[.replied (Utf8.ofString (String.ofList s))],[]⟩).1.result
    256 < (Utf8.ofString (String.ofList s)).length ∧ Utf8.Splits 256 s ∧
    ∃ text, (result = .ok text ∨ result = .error (.notAcknowledged text)) ∧
      text.toList = List.replicate 255 'x' ++ ['�'] := by
  intro s result
  have letters : (Utf8.encode (List.replicate 255 'x')).length = 255 := by decide +kernel
  have euro : (Utf8.encodeChar '€').length = 3 := by decide +kernel
  have long : 256 < (Utf8.ofString (String.ofList s)).length := by
    rw [Utf8.ofString,String.toList_ofList,Utf8.encode_append,List.length_append,letters]
    decide +kernel
  have splits : Utf8.Splits 256 s := ⟨List.replicate 255 'x','€',[],rfl,by omega,by omega⟩
  have longest : Utf8.LongestFront 256 s (List.replicate 255 'x') := by
    refine Utf8.longestFront_of_next (by omega) ?_
    intro c first
    obtain rfl : '€' = c := Option.some.inj first
    omega
  obtain ⟨text,carried,_,whole⟩ := replied_text Peer.usualLink .stop
    (Utf8.ofString (String.ofList s)) [] []
  obtain ⟨p,front,cut,_⟩ := (whole (String.ofList s) rfl).2 long
  rw [String.toList_ofList] at front cut
  refine ⟨long,splits,text,carried,?_⟩
  rw [cut splits,front.unique longest]

end TcpLink

end Lockstep
