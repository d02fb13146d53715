import Backtrack.Proofs.Markup.Runs

/-!
The HTML of a marked text.

`scan` reads a text once from left to right: where a bold run begins it writes the run between tags,
and otherwise it copies one character. The document grammar cuts the text into fragments, and each
fragment is looked at again to see whether it is bold. Both give the same HTML, since a fragment has
a star at each end only if it is a bold run.
-/

namespace Backtrack.Markup

open Matcher

/-- The HTML of a text, read from left to right. -/
def scan : List Char → List Char
  | [] => []
  | x :: tail =>
    match _ : boldRun? (x :: tail) with
    | some (inside, rest) => "<strong>".toList ++ inside ++ "</strong>".toList ++ scan rest
    | none => x :: scan tail
termination_by text => text.length
decreasing_by
  · exact length_lt_of_boldRun? ‹_›
  · exact Nat.lt_succ_self _

/-- The fragments of a text: bold runs, plain runs as long as can be, and single stars. -/
def documentRuns : List Char → List (List Char)
  | [] => []
  | x :: tail =>
    match _ : boldRun? (x :: tail) with
    | some (inside, rest) => enclosed inside :: documentRuns rest
    | none =>
      if x = marker then [x] :: documentRuns tail
      else (x :: tail.takeWhile (· != marker)) :: documentRuns (tail.dropWhile (· != marker))
termination_by text => text.length
decreasing_by
  · exact length_lt_of_boldRun? ‹_›
  · exact Nat.lt_succ_self _
  · exact Nat.lt_succ_of_le (List.dropWhile_sublist _).length_le

/-- A plain run that the text around it does not continue. -/
structure MaximalRun (before run after : List Char) : Prop where
  plain : PlainRun run
  opens : ∀ x, before.getLast? = some x → x = marker
  closes : PlainEnds after

variable {inside run rest text before after : List Char}

/-! ### Reading one run -/

theorem scan_nil : scan [] = [] := by
  rw [scan]

/-- A bold run becomes its inside between tags, and reading goes on behind it. -/
theorem scan_enclosed_append (plain : PlainRun inside) (rest : List Char) :
    scan (enclosed inside ++ rest) =
      "<strong>".toList ++ inside ++ "</strong>".toList ++ scan rest := by
  have found := boldRun?_enclosed_append plain rest
  rw [enclosed_append] at found ⊢
  rw [scan]
  split
  · next found' =>
    cases found.symm.trans found'
    rfl
  · next none => cases found.symm.trans none

/-- Where no bold run begins the character stays as it is. -/
theorem scan_cons_of_none {x : Char} {tail : List Char} (none : boldRun? (x :: tail) = none) :
    scan (x :: tail) = x :: scan tail := by
  rw [scan]
  split
  · next found => cases none.symm.trans found
  · rfl

theorem scan_enclosed (plain : PlainRun inside) :
    scan (enclosed inside) = "<strong>".toList ++ inside ++ "</strong>".toList := by
  have whole := scan_enclosed_append plain []
  rwa [List.append_nil, scan_nil, List.append_nil] at whole

/-- Text without a star is copied. -/
theorem scan_append_of_unmarked (unmarked : marker ∉ run) (rest : List Char) :
    scan (run ++ rest) = run ++ scan rest := by
  induction run with
  | nil => rfl
  | cons x run ih =>
      have different : x ≠ marker := Ne.symm (List.ne_of_not_mem_cons unmarked)
      rw [List.cons_append, scan_cons_of_none (boldRun?_cons_of_ne different _),
        ih (List.not_mem_of_not_mem_cons unmarked), List.cons_append]

theorem scan_of_unmarked (unmarked : marker ∉ run) : scan run = run := by
  have whole := scan_append_of_unmarked unmarked []
  rwa [List.append_nil, scan_nil, List.append_nil] at whole

theorem documentRuns_nil : documentRuns [] = [] := by
  rw [documentRuns]

/-- A bold run is cut off whole. -/
theorem documentRuns_enclosed_append (plain : PlainRun inside) (rest : List Char) :
    documentRuns (enclosed inside ++ rest) = enclosed inside :: documentRuns rest := by
  have found := boldRun?_enclosed_append plain rest
  rw [enclosed_append] at found ⊢
  rw [documentRuns]
  split
  · next found' =>
    cases found.symm.trans found'
    rfl
  · next none => cases found.symm.trans none

/-- A plain run is cut off whole where a star or the end follows. -/
theorem documentRuns_plain_append (plain : PlainRun run) (ends : PlainEnds rest) :
    documentRuns (run ++ rest) = run :: documentRuns rest := by
  have none := plain.boldRun?_append rest
  obtain ⟨nonempty, unmarked⟩ := plain
  cases run with
  | nil => exact absurd rfl nonempty
  | cons x run =>
      have unmarked' := List.not_mem_of_not_mem_cons unmarked
      rw [List.cons_append] at none ⊢
      rw [documentRuns]
      split
      · next found => cases none.symm.trans found
      · rw [if_neg (Ne.symm (List.ne_of_not_mem_cons unmarked)),
          takeWhile_append_plain unmarked' ends, dropWhile_append_plain unmarked' ends]

/-- A star that opens no bold run is cut off alone. -/
theorem documentRuns_star (none : boldRun? (marker :: rest) = none) :
    documentRuns (marker :: rest) = [marker] :: documentRuns rest := by
  rw [documentRuns]
  split
  · next found => cases none.symm.trans found
  · rw [if_pos rfl]

/-! ### The fragments of a document -/

/-- The runs of a document spell its text. -/
theorem flatten_documentRuns (text : List Char) : (documentRuns text).flatten = text := by
  induction text using runs_induction with
  | nil => rw [documentRuns_nil, List.flatten_nil]
  | bold inside rest plain ih =>
      rw [documentRuns_enclosed_append plain, List.flatten_cons, ih]
  | plain run rest plain ends ih =>
      rw [documentRuns_plain_append plain ends, List.flatten_cons, ih]
  | star rest none ih => rw [documentRuns_star none, List.flatten_cons, ih, List.singleton_append]

/-- A plain run at the start of a text is maximal where a star or the end follows. -/
theorem PlainRun.maximal (plain : PlainRun run) (ends : PlainEnds after) :
    MaximalRun [] run after :=
  ⟨plain, by simp, ends⟩

/-- More text in front leaves a run maximal, unless it would go on with it. -/
theorem MaximalRun.append (maximal : MaximalRun before run after) {first : List Char}
    (closed : before ≠ [] ∨ first.getLast? = some marker) :
    MaximalRun (first ++ before) run after := by
  refine ⟨maximal.plain, fun x last => ?_, maximal.closes⟩
  rw [List.getLast?_append] at last
  cases ended : before.getLast? with
  | some y =>
      rw [ended, Option.some_or] at last
      cases last
      exact maximal.opens x ended
  | none =>
      have closes := closed.resolve_left (not_not_intro (List.getLast?_eq_none_iff.mp ended))
      rw [ended, Option.none_or, closes] at last
      cases last
      rfl

/-- Every fragment is a bold run, a plain run as long as can be, or a single star. -/
theorem documentRuns_split {earlier later : List (List Char)}
    (split : documentRuns text = earlier ++ run :: later) :
    BoldRun run ∨ MaximalRun earlier.flatten run later.flatten ∨ run = [marker] := by
  induction text using runs_induction generalizing earlier with
  | nil =>
      rw [documentRuns_nil] at split
      simp at split
  | bold inside rest plain ih =>
      rw [documentRuns_enclosed_append plain] at split
      rcases List.cons_eq_append_iff.mp split with ⟨rfl, same⟩ | ⟨earlier, rfl, onward⟩
      · cases same
        exact .inl ⟨inside, plain, rfl⟩
      · refine (ih onward).imp_right (Or.imp_left fun maximal => maximal.append (.inr ?_))
        rw [enclosed, ← List.cons_append, List.getLast?_concat]
  | plain first rest plain ends ih =>
      have whole := flatten_documentRuns rest
      rw [documentRuns_plain_append plain ends] at split
      rcases List.cons_eq_append_iff.mp split with ⟨rfl, same⟩ | ⟨earlier, rfl, onward⟩
      · cases same
        rw [← whole] at ends
        exact .inr (.inl (plain.maximal ends))
      · refine (ih onward).imp_right (Or.imp_left fun maximal => maximal.append (.inl ?_))
        -- The first plain run ended at a star, so this one cannot follow it at once.
        intro none
        rw [onward, List.flatten_append, none, List.nil_append, List.flatten_cons] at whole
        obtain ⟨nonempty, unmarked⟩ := maximal.plain
        cases run with
        | nil => exact nonempty rfl
        | cons x run =>
            rw [← whole] at ends
            exact List.ne_of_not_mem_cons unmarked (ends x rfl).symm
  | star rest none ih =>
      rw [documentRuns_star none] at split
      rcases List.cons_eq_append_iff.mp split with ⟨rfl, same⟩ | ⟨earlier, rfl, onward⟩
      · cases same
        exact .inr (.inr rfl)
      · exact (ih onward).imp_right (Or.imp_left fun maximal => maximal.append (.inr rfl))

/-! ### What the document grammar takes -/

section Grammar

variable {κ : Type} (g : Grammar κ) (depth : Nat)

/-- At the end of the text there is no further run. -/
theorem refuses_document_part :
    Refuses ((Parser.either bold (.either (.merge plain) .any) : Parser κ).parse g depth) [] := by
  refine refuses_either (Parser.parse_lawful g depth bold) (refuses_bold g depth rfl) ?_
  refine refuses_either (Parser.parse_lawful g depth _) ?_ (refuses_satisfying nofun)
  exact refuses_merge (refuses_plain g depth plainEnds_nil)

/-- The runs of a document are the rounds of its grammar, and these go on to the end of the text. -/
theorem rounds_document (text : List Char) :
    Rounds ((Parser.either bold (.either (.merge plain) .any) : Parser κ).parse g depth) text
      ((documentRuns text).map String.ofList) [] := by
  have ofBold : Lawful ((bold : Parser κ).parse g depth) := Parser.parse_lawful g depth bold
  have ofPlain : Lawful ((Parser.merge plain : Parser κ).parse g depth) :=
    Parser.parse_lawful g depth _
  induction text using runs_induction with
  | nil =>
      rw [documentRuns_nil]
      exact .stop (refuses_document_part g depth)
  | bold inside rest plain ih =>
      rw [documentRuns_enclosed_append plain, List.map_cons, ← List.singleton_append]
      refine .round (takes_either_left (takes_bold g depth plain rest)) ?_ ih
      exact length_lt_of_boldRun? (boldRun?_enclosed_append plain rest)
  | plain run rest plain ends ih =>
      rw [documentRuns_plain_append plain ends, List.map_cons, ← List.singleton_append]
      refine .round (takes_either_right ofBold ?_ (takes_either_left ?_)) ?_ ih
      · exact refuses_bold g depth (plain.boldRun?_append rest)
      · exact takes_merge_plain g depth plain ends
      · rw [List.length_append]
        exact Nat.lt_add_of_pos_left (List.length_pos_iff.mpr plain.nonempty)
  | star rest none ih =>
      rw [documentRuns_star none, List.map_cons]
      have lone : Takes (satisfying (fun _ => true) : Matcher κ) (marker :: rest)
          [String.ofList [marker]] rest := takes_satisfying rfl rest
      have ofRest : Takes (either ((Parser.merge plain : Parser κ).parse g depth)
          (satisfying fun _ => true)) (marker :: rest) [String.ofList [marker]] rest :=
        takes_either_right ofPlain (refuses_merge (refuses_plain g depth (plainEnds_marker rest)))
          lone
      exact .round (takes_either_right ofBold (refuses_bold g depth none) ofRest)
        (Nat.lt_succ_self _) ih

end Grammar

/-- A document that is not empty is cut into its runs, with nothing left. -/
theorem run_document {text : String} (nonempty : text ≠ "") :
    (document.run .chainFree 0 text).completion =
      .finished ⟨some ((documentRuns text.toList).map String.ofList), ""⟩ :=
  Parser.run_of_rounds (rounds_document _ _ _) nonempty

/-- The empty text is the one that the document grammar does not match. -/
theorem run_document_empty :
    (document.run .chainFree 0 "").completion = .finished ⟨none, ""⟩ :=
  Parser.run_of_no_rounds (refuses_document_part _ _)

/-! ### The HTML of a document -/

/-- A plain run is not taken for a bold one: it has no star at its ends. -/
theorem isBold_eq_false_of_plainRun (plain : PlainRun run) :
    isBold (String.ofList run) = false := by
  cases bold : isBold (String.ofList run) with
  | false => rfl
  | true =>
      have same := toList_of_isBold bold
      rw [String.toList_ofList] at same
      rw [same] at plain
      exact absurd List.mem_cons_self plain.unmarked

/-- The HTML of a document, run by run, is what reading it from left to right gives. -/
theorem join_fragmentToHtml (text : List Char) :
    String.join ((documentRuns text).map fun run => fragmentToHtml (String.ofList run)) =
      String.ofList (scan text) := by
  induction text using runs_induction with
  | nil => rw [documentRuns_nil, scan_nil]; rfl
  | bold inside rest plain ih =>
      rw [documentRuns_enclosed_append plain, scan_enclosed_append plain, List.map_cons,
        String.join_cons, ih, fragmentToHtml_enclosed, String.ofList_append, String.ofList_append,
        String.ofList_append]
      rfl
  | plain run rest plain ends ih =>
      rw [documentRuns_plain_append plain ends, scan_append_of_unmarked plain.unmarked,
        List.map_cons, String.join_cons, ih, fragmentToHtml, isBold_eq_false_of_plainRun plain,
        String.ofList_append]
      rfl
  | star rest none ih =>
      have lone : fragmentToHtml (String.ofList [marker]) = String.ofList [marker] := rfl
      rw [documentRuns_star none, scan_cons_of_none none, List.map_cons, String.join_cons, ih, lone,
        ← String.ofList_append, List.singleton_append]

/-- A star alone is no bold run. -/
theorem not_boldRun_marker : ¬ BoldRun [marker] := by
  rintro ⟨inside, -, same⟩
  simp [enclosed] at same

/-- The test for a star at each end is right about the fragments of a document: of what it accepts,
only "**" is no bold run, and that is no fragment. -/
theorem isBold_iff_of_mem_documentRuns (mem : run ∈ documentRuns text) :
    isBold (String.ofList run) = true ↔ BoldRun run := by
  obtain ⟨earlier, later, split⟩ := List.append_of_mem mem
  rcases documentRuns_split split with bold | maximal | rfl
  · obtain ⟨inside, -, rfl⟩ := id bold
    exact iff_of_true (isBold_enclosed inside) bold
  · have plain := maximal.plain
    exact iff_of_false (by simp [isBold_eq_false_of_plainRun plain]) plain.not_boldRun
  · exact iff_of_false (by decide) not_boldRun_marker

/-- Joining texts joins their characters. -/
theorem toList_join_map_ofList (runs : List (List Char)) :
    (String.join (runs.map String.ofList)).toList = runs.flatten := by
  rw [String.toList_join, List.flatMap_map]
  simp only [String.toList_ofList, List.flatMap_id']

theorem outcome_document {text : String} (nonempty : text ≠ "") :
    document.outcome text = ⟨some ((documentRuns text.toList).map String.ofList), ""⟩ :=
  Parser.outcome_of_finished (run_document nonempty)

theorem outcome_document_empty : document.outcome "" = ⟨none, ""⟩ :=
  Parser.outcome_of_finished run_document_empty

/-- The HTML of a text is what reading it from left to right gives, also where the text is empty. -/
theorem toHtml_eq_scan (text : String) : toHtml text = String.ofList (scan text.toList) := by
  by_cases empty : text = ""
  · subst empty
    rw [toHtml, outcome_document_empty, String.toList_empty, scan_nil]
  · rw [toHtml, outcome_document empty, ← join_fragmentToHtml]
    exact congrArg String.join List.map_map

/-- **The HTML of a text is what one reading from left to right makes of it.** The document grammar
refuses the empty text alone, and takes all of any other. Each fragment is a bold run, a plain run
that reaches from star to star, or a single star; the test for a bold fragment tells the bold runs
from the others, and the inside of a bold fragment can be cut out at byte offsets. -/
theorem toHtml_scans_document (text : String) :
    toHtml text = String.ofList (scan text.toList) ∧
      (document.run .chainFree 0 text).completion = .finished (document.outcome text) ∧
      ((document.outcome text).fragments? = none ↔ text = "") ∧
      (document.outcome text).remainder = "" ∧
      ∀ fragments, (document.outcome text).fragments? = some fragments →
        String.join fragments = text ∧
        ∀ before fragment after, fragments = before ++ fragment :: after →
          (BoldRun fragment.toList ∨
            MaximalRun (String.join before).toList fragment.toList (String.join after).toList ∨
            fragment = "*") ∧
          (isBold fragment = true ↔ BoldRun fragment.toList) ∧
          (isBold fragment = true →
            Text.slice? fragment 1 (fragment.utf8ByteSize - 1) = some (inner fragment)) := by
  refine ⟨toHtml_eq_scan text, ?_⟩
  by_cases empty : text = ""
  · subst empty
    rw [run_document_empty, outcome_document_empty]
    exact ⟨rfl, iff_of_true rfl rfl, rfl, nofun⟩
  · rw [run_document empty, outcome_document empty]
    refine ⟨rfl, iff_of_false nofun empty, rfl, ?_⟩
    rintro fragments ⟨⟩
    constructor
    · rw [← String.toList_inj, toList_join_map_ofList, flatten_documentRuns]
    · intro before fragment after same
      obtain ⟨earlier, later, split, rfl, onward⟩ := List.map_eq_append_iff.mp same
      obtain ⟨run, later, rfl, rfl, rfl⟩ := List.map_eq_cons_iff.mp onward
      have mem : run ∈ documentRuns text.toList := by
        rw [split]
        exact List.mem_append_right earlier List.mem_cons_self
      rw [toList_join_map_ofList, toList_join_map_ofList, String.toList_ofList]
      refine ⟨(documentRuns_split split).imp_right (Or.imp_right (congrArg String.ofList)),
        isBold_iff_of_mem_documentRuns mem, slice?_of_isBold⟩

/-- Two stars in a row enclose nothing, so the first stays and the second opens. -/
theorem marked_text_scans :
    (document.outcome "a**é*").fragments? = some ["a", "*", "*é*"] ∧
      isBold "*é*" = true ∧ BoldRun "*é*".toList ∧
      Text.slice? "*é*" 1 ("*é*".utf8ByteSize - 1) = some (inner "*é*") ∧
      toHtml "a**é*" = String.ofList (scan "a**é*".toList) := by
  obtain ⟨html, -, -, -, fragments⟩ := toHtml_scans_document "a**é*"
  have found : (document.outcome "a**é*").fragments? = some ["a", "*", "*é*"] := by decide +kernel
  obtain ⟨-, kinds⟩ := fragments _ found
  obtain ⟨-, bold, cut⟩ := kinds ["a", "*"] "*é*" [] rfl
  have isBold : isBold "*é*" = true := by decide +kernel
  exact ⟨found, isBold, bold.mp isBold, cut isBold, html⟩

end Backtrack.Markup
