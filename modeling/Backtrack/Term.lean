import Backtrack.Markup

/-!
Parsers as plain data: terms that may call other terms by name.

In a term a chain goes on by a `Follow`, one of a fixed set of ways to choose the next parser from
the fragments matched. `Term.build` makes the parser of a term. It puts the named terms in place
at once, so a name may not lead back to itself; inside a `Follow` it may, because what is written
there is built only when a chain gets that far. `Definitions.grammar` is that later building.
-/

namespace Backtrack

mutual

/-- A parser written down, which may call others by name. A sequence needs at least one part, and
so does a grouping of several; a written one may still have none. -/
inductive Term where
  | literal (expected : Char)
  | any
  | anyExcept (excluded : Char)
  | fail
  | either (first second : Term)
  | andThen (first second : Term)
  | sequence (parts : List Term)
  | mergeAll (parts : List Term)
  | merge (whole : Term)
  | times (part : Term) (count : Nat)
  | oneOrMore (part : Term)
  | chain (first : Term) (follow : Follow)
  | delimited
  | segment
  | named (name : String)

/-- How a chain goes on after its first part: with one parser whatever was matched, with so many
characters as the first fragment says, with the first character of that fragment or up to it, with
the matched text once more, or with a parser picked by the number of fragments or by the matched
text. A chain may also be given no parser at all. -/
inductive Follow where
  | const (next : Term)
  | length
  | same
  | until
  | echo
  | parity (even odd : Term)
  | count (part : Term)
  | switch (cases : List (String × Term)) (otherwise : Term)
  | abort

end

/-- The terms that can be called by name; of two with one name the earlier counts. -/
abbrev Definitions :=
  List (String × Term)

/-- A written count: one to four decimal digits. -/
def shortDecimal? (digits : List Char) : Option Nat :=
  if 1 ≤ digits.length && digits.length ≤ 4 && digits.all Char.isDigit then
    some (digits.foldl (fun n d => 10 * n + (d.toNat - '0'.toNat)) 0)
  else none

namespace Term

mutual

/-- The parser of a term, where `resolve` gives the parser of a name. -/
def buildWith (resolve : String → Except Error (Parser Follow)) :
    Term → Except Error (Parser Follow)
  | literal expected => .ok (.literal expected)
  | any => .ok .any
  | anyExcept excluded => .ok (.anyExcept excluded)
  | fail => .ok .fail
  | either first second =>
    return .either (← buildWith resolve first) (← buildWith resolve second)
  | andThen first second =>
    return .andThen (← buildWith resolve first) (← buildWith resolve second)
  | sequence parts => do Parser.sequence? (← buildEach resolve parts)
  | mergeAll parts => do Parser.mergeAll? (← buildEach resolve parts)
  | merge whole => return .merge (← buildWith resolve whole)
  | times part count => return .times (← buildWith resolve part) count
  | oneOrMore part => return .oneOrMore (← buildWith resolve part)
  | chain first follow => return .chain (← buildWith resolve first) follow
  | delimited => .ok Markup.delimited
  | segment => .ok Markup.segment
  | named name => resolve name

/-- The parsers of several terms, or the first fault among them. -/
def buildEach (resolve : String → Except Error (Parser Follow)) :
    List Term → Except Error (List (Parser Follow))
  | [] => .ok []
  | part :: parts => return (← buildWith resolve part) :: (← buildEach resolve parts)

end

end Term

namespace Definitions

/-- The parser of a name, where names lead to names at most `depth` deep. -/
def resolve (defs : Definitions) : (depth : Nat) → String → Except Error (Parser Follow)
  | 0, name => .error (.invalidArgument ("the name " ++ name ++ " leads back to itself"))
  | depth + 1, name =>
    match defs.lookup name with
    | some term => term.buildWith (defs.resolve depth)
    | none => .error (.invalidArgument ("nothing has the name " ++ name))

/-- The parser of a term. Names that do not lead back to themselves are nested no deeper than there
are definitions. -/
def build (defs : Definitions) (term : Term) : Except Error (Parser Follow) :=
  term.buildWith (defs.resolve defs.length)

/-- The parser of a term, or the one that never matches where the term cannot be built. -/
def buildOrFail (defs : Definitions) (term : Term) : Parser Follow :=
  match defs.build term with
  | .ok p => p
  | .error _ => .fail

/-- What each `Follow` goes on with. -/
def grammar (defs : Definitions) : Grammar Follow
  | .const next, _ => some (defs.buildOrFail next)
  | .length, fragments =>
    match fragments.head?.bind fun fragment => shortDecimal? fragment.toList with
    | some n => some (.merge (.times .any n))
    | none => some .fail
  | .same, fragments =>
    match fragments.head?.bind (·.toList.head?) with
    | some c => some (.literal c)
    | none => some .fail
  | .until, fragments =>
    match fragments.head?.bind (·.toList.head?) with
    | some c => some (.andThen (.merge (.oneOrMore (.anyExcept c))) (.literal c))
    | none => some .fail
  | .echo, fragments =>
    match fragments.flatMap String.toList with
    | [] => some .fail
    | cs => some (.sequence (cs.map .literal))
  | .parity even odd, fragments =>
    some (defs.buildOrFail (if fragments.length % 2 = 0 then even else odd))
  | .count part, fragments => some (defs.buildOrFail (.times part fragments.length))
  | .switch cases otherwise, fragments =>
    some (defs.buildOrFail ((cases.lookup (String.join fragments)).getD otherwise))
  | .abort, _ => none

end Definitions

end Backtrack
