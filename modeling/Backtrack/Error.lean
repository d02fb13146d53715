/-!
The faults of the library and their wording.

A parser that finds nothing reports `noMatch` and says no more. Every other fault comes from
outside a parse: an argument that cannot be used, a cursor moved or read where there is nothing, a
source that cannot be read.
-/

namespace Backtrack

/-- Why an operation could not be carried out: nothing matched, arguments do not make a parser, a
position is past the end, no character is left, or reading failed. -/
inductive Error where
  | noMatch
  | invalidArgument (reason : String)
  | seekOutOfBounds (position length : Nat)
  | readAtEnd (position : Nat)
  | io (reason : String)
deriving DecidableEq, Repr

/-- The text shown for a fault. -/
def Error.message : Error → String
  | .noMatch => "no match"
  | .invalidArgument reason => "invalid argument: " ++ reason
  | .seekOutOfBounds position length =>
    "cannot seek to position " ++ toString position ++ ", valid positions are 0..=" ++
      toString length
  | .readAtEnd position =>
    "cannot read value at end of input (position " ++ toString position ++ ")"
  | .io reason => "I/O error: " ++ reason

end Backtrack
