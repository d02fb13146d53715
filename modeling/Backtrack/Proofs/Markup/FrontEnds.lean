import Backtrack.Proofs.Markup.Split

/-!
The document grammar and the segment grammar on one text.

The two cut a text differently once a star opens no bold run: the document grammar steps over the
star, the segment grammar stops cutting. What both do is local to a piece, though. The HTML of a
text is the HTML of its pieces, and the bold runs of a text are the bold runs of its pieces. All
pieces but the last are runs, so the last one decides whether the cut has found every bold run.
-/

namespace Backtrack.Markup

/-- The bold runs among the fragments of a text. -/
def boldRuns (text : List Char) : List (List Char) :=
  (documentRuns text).filter fun run => BoldRun run

variable {inside run rest text : List Char} {pieces : List (List Char)}

/-! ### Bold runs, one at a time -/

theorem boldRuns_nil : boldRuns [] = [] := by
  rw [boldRuns, documentRuns_nil, List.filter_nil]

theorem boldRuns_enclosed_append (ofInside : PlainRun inside) (rest : List Char) :
    boldRuns (enclosed inside ++ rest) = enclosed inside :: boldRuns rest := by
  have bold : BoldRun (enclosed inside) := ⟨inside, ofInside, rfl⟩
  rw [boldRuns, documentRuns_enclosed_append ofInside, List.filter_cons_of_pos (by simp [bold]),
    boldRuns]

theorem boldRuns_plain_append (ofRun : PlainRun run) (ends : PlainEnds rest) :
    boldRuns (run ++ rest) = boldRuns rest := by
  rw [boldRuns, documentRuns_plain_append ofRun ends,
    List.filter_cons_of_neg (by simp [ofRun.not_boldRun]), boldRuns]

theorem boldRuns_star (unopened : boldRun? (marker :: rest) = none) :
    boldRuns (marker :: rest) = boldRuns rest := by
  rw [boldRuns, documentRuns_star unopened,
    List.filter_cons_of_neg (by simp [not_boldRun_marker]), boldRuns]

theorem boldRuns_enclosed (ofInside : PlainRun inside) :
    boldRuns (enclosed inside) = [enclosed inside] := by
  have whole := boldRuns_enclosed_append ofInside []
  rwa [List.append_nil, boldRuns_nil] at whole

theorem boldRuns_of_plainRun (ofRun : PlainRun run) : boldRuns run = [] := by
  have whole := boldRuns_plain_append ofRun plainEnds_nil
  rwa [List.append_nil, boldRuns_nil] at whole

/-- A text without bold runs, and no other, is its own HTML. -/
theorem boldRuns_eq_nil_iff (text : List Char) : boldRuns text = [] ↔ scan text = text := by
  induction text using runs_induction with
  | nil => exact iff_of_true boldRuns_nil scan_nil
  | bold inside rest ofInside ih =>
      rw [boldRuns_enclosed_append ofInside, scan_enclosed_append ofInside]
      -- The HTML begins with a tag, the text with a star.
      exact iff_of_false nofun fun same => absurd (List.cons.inj same).1 (by decide)
  | plain run rest ofRun ends ih =>
      rw [boldRuns_plain_append ofRun ends, scan_append_of_unmarked ofRun.unmarked, ih,
        List.append_cancel_left_eq]
  | star rest unopened ih =>
      rw [boldRuns_star unopened, scan_cons_of_none unopened, ih, List.cons_eq_cons]
      exact (and_iff_right rfl).symm

/-! ### Piece by piece -/

/-- A reading that treats each run by itself is the same piece by piece. -/
theorem eq_flatMap_segments {β : Type} {f : List Char → List β} (nil : f [] = [])
    (bold : ∀ inside rest, PlainRun inside →
      f (enclosed inside ++ rest) = f (enclosed inside) ++ f rest)
    (plain : ∀ run rest, PlainRun run → PlainEnds rest → f (run ++ rest) = f run ++ f rest)
    (text : List Char) : f text = (segments text).flatMap f := by
  induction text using segments_induction with
  | nil => rw [segments_nil, nil, List.flatMap_nil]
  | bold inside rest ofInside ih =>
      rw [segments_enclosed_append ofInside, bold _ _ ofInside, List.flatMap_cons, ih]
  | plain run inside rest ofRun ofInside ih =>
      rw [segments_plain_append ofRun ofInside,
        plain _ _ ofRun (plainEnds_enclosed_append inside rest), bold _ _ ofInside,
        List.flatMap_cons, List.flatMap_cons, ih]
  | rest text nonempty unopened unfollowed =>
      rw [segments_rest nonempty unopened unfollowed, List.flatMap_singleton]

/-- The HTML of a text is the HTML of its pieces. -/
theorem scan_eq_flatMap_segments (text : List Char) : scan text = (segments text).flatMap scan := by
  refine eq_flatMap_segments scan_nil (fun inside rest ofInside => ?_)
    (fun run rest ofRun _ => ?_) text
  · rw [scan_enclosed_append ofInside, scan_enclosed ofInside]
  · rw [scan_append_of_unmarked ofRun.unmarked, scan_of_unmarked ofRun.unmarked]

/-- The bold runs of a text are the bold runs of its pieces. -/
theorem boldRuns_eq_flatMap_segments (text : List Char) :
    boldRuns text = (segments text).flatMap boldRuns := by
  refine eq_flatMap_segments boldRuns_nil (fun inside rest ofInside => ?_)
    (fun run rest ofRun ends => ?_) text
  · rw [boldRuns_enclosed_append ofInside, boldRuns_enclosed ofInside, List.singleton_append]
  · rw [boldRuns_plain_append ofRun ends, boldRuns_of_plainRun ofRun, List.nil_append]

/-- Every piece but the last is a plain run or a bold run. -/
theorem exists_segments_eq_concat (nonempty : text ≠ []) :
    ∃ before last, segments text = before ++ [last] ∧
      ∀ piece ∈ before, PlainRun piece ∨ BoldRun piece := by
  induction text using segments_induction with
  | nil => exact absurd rfl nonempty
  | bold inside rest ofInside ih =>
      have bold : BoldRun (enclosed inside) := ⟨inside, ofInside, rfl⟩
      rw [segments_enclosed_append ofInside]
      by_cases empty : rest = []
      · rw [empty, segments_nil]
        exact ⟨[], enclosed inside, rfl, nofun⟩
      · obtain ⟨before, last, same, kinds⟩ := ih empty
        rw [same]
        exact ⟨enclosed inside :: before, last, rfl, List.forall_mem_cons.mpr ⟨.inr bold, kinds⟩⟩
  | plain run inside rest ofRun ofInside ih =>
      have bold : BoldRun (enclosed inside) := ⟨inside, ofInside, rfl⟩
      rw [segments_plain_append ofRun ofInside]
      by_cases empty : rest = []
      · rw [empty, segments_nil]
        exact ⟨[run], enclosed inside, rfl, List.forall_mem_singleton.mpr (.inl ofRun)⟩
      · obtain ⟨before, last, same, kinds⟩ := ih empty
        rw [same]
        exact ⟨run :: enclosed inside :: before, last, rfl,
          List.forall_mem_cons.mpr ⟨.inl ofRun, List.forall_mem_cons.mpr ⟨.inr bold, kinds⟩⟩⟩
  | rest text nonempty unopened unfollowed =>
      exact ⟨[], text, segments_rest nonempty unopened unfollowed, nofun⟩

/-- Among runs, the bold ones are the bold runs that each of them holds. -/
theorem flatMap_boldRuns (kinds : ∀ piece ∈ pieces, PlainRun piece ∨ BoldRun piece) :
    pieces.flatMap boldRuns = pieces.filter fun piece => BoldRun piece := by
  induction pieces with
  | nil => rfl
  | cons piece pieces ih =>
      obtain ⟨kind, kinds⟩ := List.forall_mem_cons.mp kinds
      rw [List.flatMap_cons, ih kinds]
      rcases kind with ofRun | bold
      · rw [boldRuns_of_plainRun ofRun, List.nil_append,
          List.filter_cons_of_neg (by simp [ofRun.not_boldRun])]
      · rw [List.filter_cons_of_pos (by simp [bold])]
        obtain ⟨inside, ofInside, rfl⟩ := bold
        rw [boldRuns_enclosed ofInside, List.singleton_append]

/-- The bold pieces are the first of the bold runs, and all of them unless the last piece holds
further ones. -/
theorem boldRuns_segments (nonempty : text ≠ []) :
    ((segments text).filter fun piece => BoldRun piece) <+: boldRuns text ∧
      (((segments text).filter fun piece => BoldRun piece) = boldRuns text ↔
        ∃ last, (segments text).getLast? = some last ∧ (BoldRun last ∨ scan last = last)) := by
  obtain ⟨before, last, same, kinds⟩ := exists_segments_eq_concat nonempty
  rw [boldRuns_eq_flatMap_segments, same, List.flatMap_append, List.flatMap_singleton,
    flatMap_boldRuns kinds, List.filter_append, List.getLast?_concat]
  by_cases bold : BoldRun last
  · obtain ⟨inside, ofInside, rfl⟩ := id bold
    rw [boldRuns_enclosed ofInside, List.filter_cons_of_pos (by simp [bold]), List.filter_nil]
    exact ⟨List.prefix_rfl, iff_of_true rfl ⟨_, rfl, .inl bold⟩⟩
  · rw [List.filter_cons_of_neg (by simp [bold]), List.filter_nil, List.append_nil,
      List.self_eq_append_right, boldRuns_eq_nil_iff]
    refine ⟨List.prefix_append _ _, fun unchanged => ⟨last, rfl, .inr unchanged⟩, ?_⟩
    rintro ⟨_, ⟨⟩, kind⟩
    exact kind.resolve_left bold

/-! ### The two front ends -/

/-- The fragments that pass the test for a bold fragment are the bold runs. -/
theorem filter_isBold_documentRuns (text : List Char) :
    ((documentRuns text).map String.ofList).filter isBold = (boldRuns text).map String.ofList := by
  rw [List.filter_map, boldRuns]
  refine congrArg (List.map String.ofList) (List.filter_congr fun run mem => ?_)
  rw [Bool.eq_iff_iff, decide_eq_true_iff]
  exact isBold_iff_of_mem_documentRuns mem

theorem filter_boldRun_map (pieces : List (List Char)) :
    ((pieces.map String.ofList).filter fun piece => BoldRun piece.toList) =
      (pieces.filter fun piece => BoldRun piece).map String.ofList := by
  rw [List.filter_map]
  simp only [Function.comp_def, String.toList_ofList]

/-- The HTML of a text is the HTML of its pieces, one after the other. -/
theorem toHtml_eq_join_split (text : String) :
    toHtml text = String.join (((split text).fragments?.getD []).map toHtml) := by
  by_cases empty : text = ""
  · subst empty
    rw [toHtml_eq_scan, split_empty, String.toList_empty, scan_nil]
    rfl
  · rw [split_of_nonempty empty, Option.getD_some, List.map_map, ← String.toList_inj,
      String.toList_join, List.flatMap_map, toHtml_eq_scan, String.toList_ofList,
      scan_eq_flatMap_segments]
    simp only [Function.comp_def, toHtml_eq_scan, String.toList_ofList]

theorem toHtml_eq_self_iff {text : String} :
    toHtml text = text ↔ scan text.toList = text.toList := by
  rw [toHtml_eq_scan, ← String.toList_inj, String.toList_ofList]

/-- **Cutting a text first does not change its HTML.** The bold pieces are the first of the bold
fragments of the document, in order. They are all of them if the last piece is a bold run or is its
own HTML, and only then. -/
theorem split_agrees_with_document (text : String) :
    toHtml text = String.join (((split text).fragments?.getD []).map toHtml) ∧
      (text = "" → (split text).fragments? = none ∧ toHtml text = "") ∧
      (text ≠ "" → ∃ pieces fragments, (split text).fragments? = some pieces ∧
        (document.outcome text).fragments? = some fragments ∧
        (pieces.filter fun piece => BoldRun piece.toList) <+: fragments.filter isBold ∧
        ((pieces.filter fun piece => BoldRun piece.toList) = fragments.filter isBold ↔
          ∃ last, pieces.getLast? = some last ∧
            (BoldRun last.toList ∨ toHtml last = last))) := by
  refine ⟨toHtml_eq_join_split text, ?_, fun nonempty => ?_⟩
  · rintro rfl
    rw [split_empty, toHtml_eq_scan, String.toList_empty, scan_nil]
    exact ⟨rfl, rfl⟩
  · obtain ⟨initial, all⟩ := boldRuns_segments (mt String.toList_eq_nil_iff.mp nonempty)
    refine ⟨_, _, congrArg Outcome.fragments? (split_of_nonempty nonempty),
      congrArg Outcome.fragments? (outcome_document nonempty), ?_⟩
    rw [filter_isBold_documentRuns, filter_boldRun_map]
    refine ⟨initial.map _, ?_⟩
    rw [List.map_inj_right fun _ _ => String.ofList_inj.mp, all, List.getLast?_map]
    constructor
    · rintro ⟨last, ended, kind⟩
      refine ⟨String.ofList last, by rw [ended, Option.map_some], ?_⟩
      rwa [toHtml_eq_self_iff, String.toList_ofList]
    · rintro ⟨_, mapped, kind⟩
      obtain ⟨last, ended, rfl⟩ := Option.map_eq_some_iff.mp mapped
      rw [toHtml_eq_self_iff, String.toList_ofList] at kind
      exact ⟨last, ended, kind⟩

theorem partly_cut_text_converts :
    (split "a*b*c**d*").fragments? = some ["a", "*b*", "c**d*"] ∧
      toHtml "a*b*c**d*" = String.join (["a", "*b*", "c**d*"].map toHtml) ∧
      (document.outcome "a*b*c**d*").fragments? = some ["a", "*b*", "c", "*", "*d*"] ∧
      ["*b*"] <+: ["*b*", "*d*"] ∧ toHtml "c**d*" ≠ "c**d*" := by
  obtain ⟨html, -, onward⟩ := split_agrees_with_document "a*b*c**d*"
  obtain ⟨pieces, fragments, cut, found, initial, all⟩ := onward (by decide)
  have pieces_eq : (split "a*b*c**d*").fragments? = some ["a", "*b*", "c**d*"] := by
    decide +kernel
  have fragments_eq : (document.outcome "a*b*c**d*").fragments? =
      some ["a", "*b*", "c", "*", "*d*"] := by decide +kernel
  obtain rfl := Option.some.inj (cut.symm.trans pieces_eq)
  obtain rfl := Option.some.inj (found.symm.trans fragments_eq)
  have bold_pieces :
      (["a", "*b*", "c**d*"].filter fun piece => BoldRun piece.toList) = ["*b*"] := by
    decide +kernel
  have bold_fragments : ["a", "*b*", "c", "*", "*d*"].filter isBold = ["*b*", "*d*"] := by
    decide +kernel
  rw [bold_pieces, bold_fragments] at initial all
  rw [cut, Option.getD_some] at html
  refine ⟨cut, html, found, initial, fun unchanged => ?_⟩
  exact absurd (all.mpr ⟨_, rfl, .inr unchanged⟩) (by decide)

end Backtrack.Markup
