import Backtrack.Proofs.Agreement
import Backtrack.Proofs.Markup.Split
import Backtrack.Proofs.Recognition

/-!
Plain text with a bold run behind it.

`delimited` reads a plain run letter by letter and then a bold run as one piece. A text begins with
two such runs in at most one way, and the parser finds them or gives everything back, however far
it got. The bold run may be read in nested pairs or as one flat sequence: the pair behind its
opening star asks for a character of its own, but so does the plain run that it begins with.
-/

namespace Backtrack.Markup

open Matcher

variable {κ : Type}

/-- A plain run, and what stands between the stars of the bold run behind it. -/
structure Delimited where
  run : List Char
  inside : List Char
  ofRun : PlainRun run
  ofInside : PlainRun inside

namespace Delimited

/-- The plain run and the bold run behind it. -/
def write (d : Delimited) : List Char :=
  d.run ++ enclosed d.inside

/-- The characters of the plain run, and the bold run in one piece. -/
def fragments (d : Delimited) : List String :=
  d.run.map String.singleton ++ [String.ofList (enclosed d.inside)]

/-- A plain run with a bold run behind it is found again, whatever follows. -/
theorem plainThenBold?_write_append (d : Delimited) (rest : List Char) :
    plainThenBold? (d.write ++ rest) = some (d.run, d.inside, rest) :=
  plainThenBold?_eq_some_iff.mpr ⟨d.ofRun, d.ofInside, List.append_assoc ..⟩

/-- The two runs can be told from what is written: the first star parts them. -/
theorem write_injective : Function.Injective write := by
  intro d e same
  have found := d.plainThenBold?_write_append []
  rw [same, e.plainThenBold?_write_append, Option.some_inj] at found
  cases d
  cases e
  cases found
  rfl

/-- Where no such pair of runs begins, none is found. -/
theorem plainThenBold?_eq_none {text : List Char}
    (elsewhere : ∀ (d : Delimited) rest, text ≠ d.write ++ rest) :
    plainThenBold? text = none := by
  refine Option.eq_none_iff_forall_ne_some.mpr fun (run, inside, rest) found => ?_
  obtain ⟨ofRun, ofInside, same⟩ := plainThenBold?_eq_some_iff.mp found
  exact elsewhere ⟨run, inside, ofRun, ofInside⟩ rest (same.trans (List.append_assoc ..).symm)

end Delimited

/-! ### The two spellings of the grammar -/

/-- As `delimited`, with the bold run as a flat sequence. -/
def flatDelimited? : Except Error (Parser κ) :=
  (Parser.mergeAll? [.literal marker, plain, .literal marker]).map plain.andThen

section Grammar

variable (g : Grammar κ) (depth : Nat)

/-- The grammar in terms of its two halves. -/
theorem parse_delimited : (delimited : Parser κ).parse g depth =
    Matcher.sequence [plain.parse g depth, bold.parse g depth] :=
  Parser.parse_andThen g depth plain bold

/-- What is written is taken to its end: the plain characters one by one, then the bold run. -/
theorem takes_delimited (d : Delimited) (rest : List Char) :
    Takes ((delimited : Parser κ).parse g depth) (d.write ++ rest) d.fragments rest := by
  rw [parse_delimited, Delimited.write, List.append_assoc]
  exact takes_then_bold g depth (fun _ _ => takes_plain g depth) d.ofRun d.ofInside rest

/-- Plain text that no bold run follows is not taken, not even in part. -/
theorem refuses_delimited {text : List Char} (unfollowed : plainThenBold? text = none) :
    Refuses ((delimited : Parser κ).parse g depth) text := by
  rw [parse_delimited]
  exact refuses_then_bold g depth (fun _ _ => takes_plain g depth) (fun _ => refuses_plain g depth)
    unfollowed

/-- A bold run may be spelled as one sequence of three. -/
theorem flat_bold_agrees (c : Cursor) :
    ((bold : Parser κ).parse g depth c).Agrees
      ((Parser.merge (.sequence [.literal marker, plain, .literal marker])).parse g depth c) := by
  rw [parse_bold, Parser.parse_merge, Parser.parse_sequence]
  refine agrees_merge (sequence_nested_agrees (Parser.parse_lawful g depth plain) ?_ _ c)
  intro d exhausted
  exact refuses_plain g depth plainEnds_nil d (Cursor.rest_eq_nil_iff.mpr exhausted)

end Grammar

/-- **Delimited text is recognized, in either spelling of its grammar.** The parser matches exactly
where the unread text begins with a plain run and a bold run behind it; these two runs are the only
ones. It takes the plain characters one by one and the bold run as one piece, and elsewhere it gives
everything back. Reading the bold run as a flat sequence comes to the same everywhere. -/
theorem delimited_text_is_recognized (g : Grammar κ) (depth : Nat) :
    Recognizes ((delimited : Parser κ).parse g depth) Delimited.write Delimited.fragments ∧
      ∃ flat : Parser κ, flatDelimited? = .ok flat ∧
        ∀ c, (delimited.parse g depth c).Agrees (flat.parse g depth c) := by
  constructor
  · refine recognizes_of_takes (Parser.parse_lawful g depth _) (Parser.parse_forward g depth _)
      Delimited.write_injective (takes_delimited g depth) fun text elsewhere => ?_
    exact refuses_delimited g depth (Delimited.plainThenBold?_eq_none elsewhere)
  · refine ⟨_, rfl, fun c => ?_⟩
    rw [parse_delimited, Parser.parse_andThen]
    exact agrees_pair fun _ _ => flat_bold_agrees g depth _

/-- A run that the end of the text cuts short is given back, with the plain text before it. -/
example : ((delimited : Parser Empty).run .chainFree 0 "ab*c").completion =
    .finished ⟨none, "ab*c"⟩ := by
  decide +kernel

end Backtrack.Markup
