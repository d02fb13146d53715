import Backtrack.Error

/-!
Parsers as trees.

A parser is put together from single characters by choice, sequence, grouping, repetition and
chaining. A chain goes on with a parser that depends on what its first part matched; the tree
holds only a label for that decision, and a `Grammar` says what each label goes on with. A label
may lead back to a tree that holds it again, so finite trees describe recursive languages.
-/

namespace Backtrack

/-- A parser whose chains go on by labels from `κ`. A choice tries its second parser where the first
finds nothing, a grouping makes one fragment of a match, an open repetition goes on as long as it
advances, and a chain goes on with the parser that its label chooses from the fragments so far. -/
inductive Parser (κ : Type) where
  | literal (expected : Char)
  | any
  | anyExcept (excluded : Char)
  | either (first second : Parser κ)
  | sequence (parts : List (Parser κ))
  | merge (whole : Parser κ)
  | times (part : Parser κ) (count : Nat)
  | oneOrMore (part : Parser κ)
  | chain (first : Parser κ) (label : κ)
  | fail

/-- What a label goes on with, given the fragments matched so far. A label that gives no parser
aborts the whole parse. -/
abbrev Grammar (κ : Type) :=
  κ → List String → Option (Parser κ)

/-- The grammar of parsers without chains. -/
def Grammar.chainFree : Grammar Empty :=
  fun label => nomatch label

namespace Parser

variable {κ : Type}

/-- One parser and then another. -/
def andThen (first second : Parser κ) : Parser κ :=
  .sequence [first, second]

/-- The parsers one after the other; there has to be one. -/
def sequence? : List (Parser κ) → Except Error (Parser κ)
  | [] => .error (.invalidArgument "sequence needs at least one parser")
  | parts => .ok (.sequence parts)

/-- The parsers one after the other, as one fragment; there has to be one. -/
def mergeAll? (parts : List (Parser κ)) : Except Error (Parser κ) :=
  (sequence? parts).map .merge

end Parser

end Backtrack
