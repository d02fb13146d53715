import Backtrack.Outcome

/-!
Marked text: a run between two stars is bold.

A bold run is a star, at least one character that is no star, and a star. Stars that enclose
nothing, or find no partner, are ordinary text. Two grammars read such a text. `document` steps
over a star that opens no run and goes on behind it; `segment` cuts a text into plain and bold runs
and leaves what follows the first such star in one piece.
-/

namespace Backtrack.Markup

variable {κ : Type}

/-- The character that opens and closes a bold run. -/
def marker : Char := '*'

/-- Characters without a star, one fragment each. -/
def plain : Parser κ :=
  .oneOrMore (.anyExcept marker)

/-- A bold run with its stars, as one fragment. -/
def bold : Parser κ :=
  .merge (.andThen (.literal marker) (.andThen plain (.literal marker)))

/-- A whole text: bold runs, plain runs, and stars that belong to no run. -/
def document : Parser κ :=
  .oneOrMore (.either bold (.either (.merge plain) .any))

/-- Plain text followed by a bold run: the plain characters one by one, then the run. -/
def delimited : Parser κ :=
  .andThen plain bold

/-- A whole text in runs: bold ones, plain ones followed by a bold one, and a last piece that holds
all the rest. -/
def segment : Parser κ :=
  .oneOrMore (.either bold
    (.either (.andThen (.merge plain) bold) (.merge (.oneOrMore .any))))

/-- A text cut into plain and bold runs. -/
def split (text : String) : Outcome :=
  segment.outcome text

/-- Whether a fragment has a star at each end. One star is not enough. -/
def isBold (fragment : String) : Bool :=
  2 ≤ fragment.utf8ByteSize && fragment.toList.head? == some marker &&
    fragment.toList.getLast? == some marker

/-- A fragment without its first and its last character. -/
def inner (fragment : String) : String :=
  String.ofList fragment.toList.tail.dropLast

/-- A fragment as HTML. -/
def fragmentToHtml (fragment : String) : String :=
  if isBold fragment then "<strong>" ++ inner fragment ++ "</strong>" else fragment

/-- A text with its bold runs as HTML, everything else as it is. -/
def toHtml (text : String) : String :=
  match (document.outcome text).fragments? with
  | some fragments => String.join (fragments.map fragmentToHtml)
  | none => text

/-- A page, held by its marked text. -/
structure Page where
  source : String
deriving DecidableEq, Repr

/-- The page as HTML. -/
def Page.html (page : Page) : String :=
  toHtml page.source

/-- A bold fragment is its inside between two stars. -/
theorem toList_of_isBold {fragment : String} (bold : isBold fragment = true) :
    fragment.toList = marker :: (inner fragment).toList ++ [marker] := by
  simp only [isBold, Bool.and_eq_true, decide_eq_true_eq, beq_iff_eq] at bold
  obtain ⟨⟨two, opens⟩, closes⟩ := bold
  rw [inner, String.toList_ofList]
  cases chars : fragment.toList with
  | nil => simp [chars] at opens
  | cons x xs =>
    rw [chars] at opens closes
    obtain rfl : x = marker := Option.some.inj opens
    have nonempty : xs ≠ [] := by
      rintro rfl
      obtain rfl : fragment = "*" := String.toList_inj.mp chars
      exact absurd two (by decide)
    rw [List.getLast?_cons_of_ne_nil nonempty] at closes
    obtain ⟨middle, rfl⟩ := List.getLast?_eq_some_iff.mp closes
    rw [List.tail_cons, List.dropLast_concat, List.cons_append]

end Backtrack.Markup
