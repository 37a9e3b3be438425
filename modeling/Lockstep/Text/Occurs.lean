/-!
# Words in texts
-/

namespace Lockstep.Text

/-- Whether a word stands somewhere in a text. -/
def occurs {α : Type} [BEq α] (word : List α) : List α → Bool
  | [] => word.isEmpty
  | c :: s => word.isPrefixOf (c :: s) || occurs word s

theorem occurs_iff {α : Type} [BEq α] [LawfulBEq α] {word s : List α} : occurs word s = true ↔ word <:+: s := by
  induction s with
  | nil => simp [occurs]
  | cons c s ih =>
    rw [occurs,Bool.or_eq_true,List.isPrefixOf_iff_prefix,ih,List.infix_cons_iff]

end Lockstep.Text
