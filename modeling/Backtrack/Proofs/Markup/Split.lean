import Backtrack.Proofs.Markup.Document
import Mathlib.Data.List.Chain

/-!
The pieces that a marked text is cut into.

`segments` is the rule of the cut. As long as the text begins with a bold run, or with a plain run
and a bold run behind it, these are pieces of their own; the first place where neither holds begins
the last piece, and that piece is all the rest. The grammar tries the same three ways in order.
-/

namespace Backtrack.Markup

open Matcher

/-- The plain run that a text begins with and the bold run behind it, by its inside, and what
follows both. -/
def plainThenBold? (text : List Char) : Option (List Char × List Char × List Char) :=
  let run := text.takeWhile (· != marker)
  if run = [] then none
  else (boldRun? (text.dropWhile (· != marker))).map fun (inside, rest) => (run, inside, rest)

variable {inside run rest text : List Char}

/-- Behind a plain run the question is whether a bold one follows. -/
theorem plainThenBold?_append (ofRun : PlainRun run) (ends : PlainEnds rest) :
    plainThenBold? (run ++ rest) =
      (boldRun? rest).map fun (inside, after) => (run, inside, after) := by
  rw [plainThenBold?, takeWhile_append_plain ofRun.unmarked ends,
    dropWhile_append_plain ofRun.unmarked ends]
  exact if_neg ofRun.nonempty

/-- A plain run followed by a bold one is found where the text begins with such a pair, and nowhere
else. -/
theorem plainThenBold?_eq_some_iff : plainThenBold? text = some (run, inside, rest) ↔
    PlainRun run ∧ PlainRun inside ∧ text = run ++ (enclosed inside ++ rest) := by
  constructor
  · intro found
    obtain ⟨run', after, rfl, unmarked, ends⟩ := exists_plain_append text
    by_cases empty : run' = []
    · rw [plainThenBold?, takeWhile_append_plain unmarked ends] at found
      exact absurd ((if_pos empty).symm.trans found) nofun
    · have ofRun : PlainRun run' := ⟨empty, unmarked⟩
      rw [plainThenBold?_append ofRun ends] at found
      obtain ⟨⟨inside', rest'⟩, opens, same⟩ := Option.map_eq_some_iff.mp found
      cases same
      obtain ⟨ofInside, rfl⟩ := boldRun?_eq_some_iff.mp opens
      exact ⟨ofRun, ofInside, rfl⟩
  · rintro ⟨ofRun, ofInside, rfl⟩
    rw [plainThenBold?_append ofRun (plainEnds_enclosed_append inside rest),
      boldRun?_enclosed_append ofInside]
    rfl

/-- Such a pair takes something off the text. -/
theorem length_lt_of_plainThenBold? (found : plainThenBold? text = some (run, inside, rest)) :
    rest.length < text.length := by
  obtain ⟨-, -, rfl⟩ := plainThenBold?_eq_some_iff.mp found
  simp only [enclosed, List.length_append, List.length_cons]
  omega

/-- The pieces of a text. -/
def segments : List Char → List (List Char)
  | [] => []
  | x :: tail =>
    match _ : boldRun? (x :: tail) with
    | some (inside, rest) => enclosed inside :: segments rest
    | none =>
      match _ : plainThenBold? (x :: tail) with
      | some (run, inside, rest) => run :: enclosed inside :: segments rest
      | none => [x :: tail]
termination_by text => text.length
decreasing_by
  · exact length_lt_of_boldRun? ‹_›
  · exact length_lt_of_plainThenBold? ‹_›

/-! ### Cutting off one piece -/

theorem segments_nil : segments [] = [] := by
  rw [segments]

/-- A bold run in front is a piece. -/
theorem segments_enclosed_append (ofInside : PlainRun inside) (rest : List Char) :
    segments (enclosed inside ++ rest) = enclosed inside :: segments rest := by
  have found := boldRun?_enclosed_append ofInside rest
  rw [enclosed_append] at found ⊢
  rw [segments]
  split
  · next found' =>
    cases found.symm.trans found'
    rfl
  · next unopened => cases found.symm.trans unopened

/-- Where no bold run begins it is a plain run with a bold one behind it, or all the rest. -/
theorem segments_of_boldRun?_eq_none (nonempty : text ≠ []) (unopened : boldRun? text = none) :
    segments text = match plainThenBold? text with
      | some (run, inside, rest) => run :: enclosed inside :: segments rest
      | none => [text] := by
  cases text with
  | nil => exact absurd rfl nonempty
  | cons x tail =>
      rw [segments]
      split
      · next found => cases unopened.symm.trans found
      · split
        · next found => rw [found]
        · next unfollowed => rw [unfollowed]

/-- A plain run and the bold run behind it are two pieces. -/
theorem segments_plain_append (ofRun : PlainRun run) (ofInside : PlainRun inside)
    (rest : List Char) :
    segments (run ++ (enclosed inside ++ rest)) = run :: enclosed inside :: segments rest := by
  have found : plainThenBold? (run ++ (enclosed inside ++ rest)) = some (run, inside, rest) :=
    plainThenBold?_eq_some_iff.mpr ⟨ofRun, ofInside, rfl⟩
  rw [segments_of_boldRun?_eq_none (List.append_ne_nil_of_left_ne_nil ofRun.nonempty _)
    (ofRun.boldRun?_append _), found]

/-- What begins with neither is one piece. -/
theorem segments_rest (nonempty : text ≠ []) (unopened : boldRun? text = none)
    (unfollowed : plainThenBold? text = none) : segments text = [text] := by
  rw [segments_of_boldRun?_eq_none nonempty unopened, unfollowed]

/-- A text is cut from left to right: a bold run, or a plain and a bold run, or all the rest. -/
theorem segments_induction {motive : List Char → Prop} (nil : motive [])
    (bold : ∀ inside rest, PlainRun inside → motive rest → motive (enclosed inside ++ rest))
    (plain : ∀ run inside rest, PlainRun run → PlainRun inside → motive rest →
      motive (run ++ (enclosed inside ++ rest)))
    (rest : ∀ text, text ≠ [] → boldRun? text = none → plainThenBold? text = none → motive text)
    (text : List Char) : motive text := by
  induction size : text.length using Nat.strongRecOn generalizing text with
  | ind n ih =>
      subst size
      by_cases empty : text = []
      · exact empty ▸ nil
      cases opens : boldRun? text with
      | some found =>
          have less := length_lt_of_boldRun? opens
          obtain ⟨ofInside, rfl⟩ := boldRun?_eq_some_iff.mp opens
          exact bold _ _ ofInside (ih _ less _ rfl)
      | none =>
          cases follows : plainThenBold? text with
          | some found =>
              have less := length_lt_of_plainThenBold? follows
              obtain ⟨ofRun, ofInside, rfl⟩ := plainThenBold?_eq_some_iff.mp follows
              exact plain _ _ _ ofRun ofInside (ih _ less _ rfl)
          | none => exact rest text empty opens follows

/-! ### What the pieces are -/

/-- The pieces of a text spell it. -/
theorem flatten_segments (text : List Char) : (segments text).flatten = text := by
  induction text using segments_induction with
  | nil => rw [segments_nil, List.flatten_nil]
  | bold inside rest ofInside ih => rw [segments_enclosed_append ofInside, List.flatten_cons, ih]
  | plain run inside rest ofRun ofInside ih =>
      rw [segments_plain_append ofRun ofInside, List.flatten_cons, List.flatten_cons, ih]
  | rest text nonempty unopened unfollowed =>
      rw [segments_rest nonempty unopened unfollowed, List.flatten_singleton]

/-- No piece is empty. -/
theorem nil_notMem_segments (text : List Char) : [] ∉ segments text := by
  induction text using segments_induction with
  | nil =>
      rw [segments_nil]
      exact List.not_mem_nil
  | bold inside rest ofInside ih =>
      rw [segments_enclosed_append ofInside]
      exact List.not_mem_cons_of_ne_of_not_mem nofun ih
  | plain run inside rest ofRun ofInside ih =>
      rw [segments_plain_append ofRun ofInside]
      exact List.not_mem_cons_of_ne_of_not_mem ofRun.nonempty.symm
        (List.not_mem_cons_of_ne_of_not_mem nofun ih)
  | rest text nonempty unopened unfollowed =>
      rw [segments_rest nonempty unopened unfollowed]
      exact List.not_mem_cons_of_ne_of_not_mem nonempty.symm List.not_mem_nil

/-- Of two pieces in a row at least one is a bold run. -/
theorem isChain_segments (text : List Char) :
    (segments text).IsChain fun piece next => BoldRun piece ∨ BoldRun next := by
  induction text using segments_induction with
  | nil =>
      rw [segments_nil]
      exact .nil
  | bold inside rest ofInside ih =>
      rw [segments_enclosed_append ofInside]
      exact ih.cons fun _ _ => .inl ⟨inside, ofInside, rfl⟩
  | plain run inside rest ofRun ofInside ih =>
      have bold : BoldRun (enclosed inside) := ⟨inside, ofInside, rfl⟩
      rw [segments_plain_append ofRun ofInside]
      exact .cons_cons (.inr bold) (ih.cons fun _ _ => .inl bold)
  | rest text nonempty unopened unfollowed =>
      rw [segments_rest nonempty unopened unfollowed]
      exact .singleton text

/-! ### What the segment grammar takes -/

section Grammar

variable {κ : Type} (g : Grammar κ) (depth : Nat)

/-- A matcher that takes plain runs takes one with a bold run behind it, in sequence with `bold`. -/
theorem takes_then_bold {first : Matcher κ} {shown : List Char → List String}
    (takes : ∀ run rest, PlainRun run → PlainEnds rest → Takes first (run ++ rest) (shown run) rest)
    (ofRun : PlainRun run) (ofInside : PlainRun inside) (rest : List Char) :
    Takes (Matcher.sequence [first, bold.parse g depth]) (run ++ (enclosed inside ++ rest))
      (shown run ++ [String.ofList (enclosed inside)]) rest :=
  takes_pair (List.append_ne_nil_of_left_ne_nil ofRun.nonempty _)
    (takes run _ ofRun (plainEnds_enclosed_append inside rest)) (takes_bold g depth ofInside rest)

/-- Where no plain run with a bold run behind it begins, that sequence takes nothing. -/
theorem refuses_then_bold {first : Matcher κ} {shown : List Char → List String}
    (takes : ∀ run rest, PlainRun run → PlainEnds rest → Takes first (run ++ rest) (shown run) rest)
    (refuses : ∀ text, PlainEnds text → Refuses first text)
    (unfollowed : plainThenBold? text = none) :
    Refuses (Matcher.sequence [first, bold.parse g depth]) text := by
  obtain ⟨run, rest, rfl, unmarked, ends⟩ := exists_plain_append text
  by_cases empty : run = []
  · rw [empty, List.nil_append]
    exact refuses_pair_left (refuses rest ends)
  · have ofRun : PlainRun run := ⟨empty, unmarked⟩
    rw [plainThenBold?_append ofRun ends, Option.map_eq_none_iff] at unfollowed
    exact refuses_pair_right (takes run rest ofRun ends) (refuses_bold g depth unfollowed)

/-- A plain run and a bold one behind it are taken together, as two fragments. -/
theorem takes_plain_bold (ofRun : PlainRun run) (ofInside : PlainRun inside) (rest : List Char) :
    Takes ((Parser.andThen (.merge plain) bold : Parser κ).parse g depth)
      (run ++ (enclosed inside ++ rest)) [String.ofList run, String.ofList (enclosed inside)]
      rest := by
  rw [Parser.parse_andThen]
  exact takes_then_bold g depth (fun _ _ => takes_merge_plain g depth) ofRun ofInside rest

/-- Plain text that no bold run follows is refused. -/
theorem refuses_plain_bold (unfollowed : plainThenBold? text = none) :
    Refuses ((Parser.andThen (.merge plain) bold : Parser κ).parse g depth) text := by
  rw [Parser.parse_andThen]
  exact refuses_then_bold g depth (fun _ _ => takes_merge_plain g depth)
    (fun _ ends => refuses_merge (refuses_plain g depth ends)) unfollowed

/-- All the rest is one fragment. -/
theorem takes_everything (nonempty : text ≠ []) :
    Takes ((Parser.merge (.oneOrMore .any) : Parser κ).parse g depth) text [String.ofList text]
      [] := by
  have taken : Takes ((Parser.merge (.oneOrMore .any) : Parser κ).parse g depth) (text ++ [])
      [String.ofList text] [] := takes_merge_run nonempty (fun _ _ => rfl) nofun
  rwa [List.append_nil] at taken

/-- At the end of the text there is no further piece. -/
theorem refuses_segment_part :
    Refuses ((Parser.either bold (.either (.andThen (.merge plain) bold)
      (.merge (.oneOrMore .any))) : Parser κ).parse g depth) [] := by
  refine refuses_either (Parser.parse_lawful g depth bold) (refuses_bold g depth rfl) ?_
  refine refuses_either (Parser.parse_lawful g depth _) (refuses_plain_bold g depth rfl) ?_
  exact refuses_merge (refuses_oneOrMore (refuses_satisfying nofun))

/-- The pieces of a text are the rounds of its grammar, and these go on to the end of the text. -/
theorem rounds_segment (text : List Char) :
    Rounds ((Parser.either bold (.either (.andThen (.merge plain) bold)
      (.merge (.oneOrMore .any))) : Parser κ).parse g depth) text
      ((segments text).map String.ofList) [] := by
  have ofBold : Lawful ((bold : Parser κ).parse g depth) := Parser.parse_lawful g depth bold
  have ofPair : Lawful ((Parser.andThen (.merge plain) bold : Parser κ).parse g depth) :=
    Parser.parse_lawful g depth _
  induction text using segments_induction with
  | nil =>
      rw [segments_nil]
      exact .stop (refuses_segment_part g depth)
  | bold inside rest ofInside ih =>
      rw [segments_enclosed_append ofInside, List.map_cons, ← List.singleton_append]
      refine .round (takes_either_left (takes_bold g depth ofInside rest)) ?_ ih
      exact length_lt_of_boldRun? (boldRun?_enclosed_append ofInside rest)
  | plain run inside rest ofRun ofInside ih =>
      rw [segments_plain_append ofRun ofInside, List.map_cons, List.map_cons,
        ← List.singleton_append, List.append_cons]
      refine .round (takes_either_right ofBold ?_ (takes_either_left ?_)) ?_ ih
      · exact refuses_bold g depth (ofRun.boldRun?_append _)
      · exact takes_plain_bold g depth ofRun ofInside rest
      · exact length_lt_of_plainThenBold? (plainThenBold?_eq_some_iff.mpr ⟨ofRun, ofInside, rfl⟩)
  | rest text nonempty unopened unfollowed =>
      rw [segments_rest nonempty unopened unfollowed, List.map_singleton,
        ← List.append_nil [String.ofList text]]
      refine .round (takes_either_right ofBold ?_ (takes_either_right ofPair ?_ ?_)) ?_
        (.stop (refuses_segment_part g depth))
      · exact refuses_bold g depth unopened
      · exact refuses_plain_bold g depth unfollowed
      · exact takes_everything g depth nonempty
      · exact List.length_pos_iff.mpr nonempty

end Grammar

/-- A text that is not empty is cut to its end. -/
theorem run_segment {text : String} (nonempty : text ≠ "") :
    (segment.run .chainFree 0 text).completion =
      .finished ⟨some ((segments text.toList).map String.ofList), ""⟩ :=
  Parser.run_of_rounds (rounds_segment _ _ _) nonempty

/-- The empty text is not cut at all. -/
theorem run_segment_empty :
    (segment.run .chainFree 0 "").completion = .finished ⟨none, ""⟩ :=
  Parser.run_of_no_rounds (refuses_segment_part _ _)

/-! ### The pieces of a text -/

theorem split_of_nonempty {text : String} (nonempty : text ≠ "") :
    split text = ⟨some ((segments text.toList).map String.ofList), ""⟩ :=
  Parser.outcome_of_finished (run_segment nonempty)

theorem split_empty : split "" = ⟨none, ""⟩ :=
  Parser.outcome_of_finished run_segment_empty

/-- **The pieces that a text is cut into.** The segment grammar refuses the empty text alone, and
takes all of any other in the pieces that `segments` says. They spell the text, none is empty, and
of two in a row one is a bold run. -/
theorem split_cuts_segments (text : String) :
    (segment.run .chainFree 0 text).completion = .finished (split text) ∧
      (text = "" → split text = ⟨none, ""⟩) ∧
      (text ≠ "" → split text = ⟨some ((segments text.toList).map String.ofList), ""⟩) ∧
      ∀ pieces, (split text).fragments? = some pieces →
        String.join pieces = text ∧ "" ∉ pieces ∧
        pieces.IsChain fun piece next => BoldRun piece.toList ∨ BoldRun next.toList := by
  by_cases empty : text = ""
  · subst empty
    rw [run_segment_empty, split_empty]
    exact ⟨rfl, fun _ => rfl, absurd rfl, nofun⟩
  · rw [run_segment empty, split_of_nonempty empty]
    refine ⟨rfl, fun same => absurd same empty, fun _ => rfl, ?_⟩
    rintro pieces ⟨⟩
    refine ⟨?_, ?_, ?_⟩
    · rw [← String.toList_inj, toList_join_map_ofList, flatten_segments]
    · intro mem
      obtain ⟨piece, mem, same⟩ := List.mem_map.mp mem
      obtain rfl : piece = [] := String.ofList_eq_empty_iff.mp same
      exact nil_notMem_segments _ mem
    · rw [List.isChain_map]
      simpa only [String.toList_ofList] using isChain_segments text.toList

/-- A star that finds no partner stays with the last piece. -/
theorem marked_text_is_cut :
    split "é*b*c*" = ⟨some ((segments "é*b*c*".toList).map String.ofList), ""⟩ ∧
      (split "é*b*c*").fragments? = some ["é", "*b*", "c*"] ∧
      String.join ["é", "*b*", "c*"] = "é*b*c*" ∧
      ["é", "*b*", "c*"].IsChain fun piece next => BoldRun piece.toList ∨ BoldRun next.toList := by
  obtain ⟨-, -, cut, pieces⟩ := split_cuts_segments "é*b*c*"
  have found : (split "é*b*c*").fragments? = some ["é", "*b*", "c*"] := by decide +kernel
  obtain ⟨joined, -, chain⟩ := pieces _ found
  exact ⟨cut (by decide), found, joined, chain⟩

end Backtrack.Markup
