/-!
# Splitting text
-/

namespace Lockstep.Text

/-- The stretches between separators, empty ones included. -/
def split {α : Type} (separates : α → Bool) : List α → List (List α)
  | [] => [[]]
  | c :: s =>
    if separates c then [] :: split separates s
    else match split separates s with
      | [] => [[c]]
      | piece :: pieces => (c :: piece) :: pieces

end Lockstep.Text
