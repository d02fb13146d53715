import Backtrack.Outcome

/-!
Two languages whose parsers need chains.

In quoted text the quote that opens decides what closes, so the second half of the parser is made
from the fragment of the first. Groups lie in groups to any depth: the parser of a group goes on
with a tree that holds it again.
-/

namespace Backtrack.Languages

/-- Behind an opening quote: text without that quote, as one fragment, and the quote once more. -/
def quotes : Grammar Unit := fun _ opening =>
  opening.head?.map fun first =>
    let quote := first.toList.headD '"'
    .andThen (.merge (.oneOrMore (.anyExcept quote))) (.literal quote)

/-- Text between two quotes of one kind. The other kind may occur in it. -/
def quoted : Parser Unit :=
  .chain (.either (.literal '\'') (.literal '"')) ()

/-- A group: groups between brackets, or nothing between them. -/
def group : Parser Unit :=
  .chain (.literal '(') ()

/-- Behind an opening bracket: groups, if there are any, and the closing bracket. -/
def groups : Grammar Unit := fun _ _ =>
  some (.either (.andThen (.oneOrMore group) (.literal ')')) (.literal ')'))

end Backtrack.Languages
