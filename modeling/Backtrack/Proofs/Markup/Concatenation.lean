import Backtrack.Proofs.Markup.Split

/-!
Texts put one behind the other.

A star looks for its partner as far as the text goes, so text put behind may change what stands
before it. It does so only for a star behind which there is no other one: of two texts put together
each is converted by itself if no such star is left open where the first one ends (`Settled`), or if
the second one has no star to close it. The cut into pieces begins anew behind a bold piece,
whatever stood before it; so a text that ends in one is cut as if it stood alone. Every piece is cut
into itself.
-/

namespace Backtrack.Markup

/-- The last star of the text closes a bold fragment. -/
def EndsBold (text : String) : Prop :=
  ∃ earlier fragment later,
    (document.outcome text).fragments? = some (earlier ++ fragment :: later) ∧
    BoldRun fragment.toList ∧ marker ∉ (String.join later).toList

/-- The text has no star, or its last star closes a bold run. -/
def Settled (text : List Char) : Prop :=
  marker ∉ text ∨ ∃ earlier run later, documentRuns text = earlier ++ run :: later ∧
    BoldRun run ∧ marker ∉ later.flatten

variable {inside run rest text more piece : List Char}

/-! ### Stars that find no partner -/

theorem BoldRun.marker_mem (bold : BoldRun run) : marker ∈ run := by
  obtain ⟨inside, -, rfl⟩ := bold
  exact List.mem_cons_self

/-- A star that opens no bold run opens none with more text behind, unless it is the last star and
there is one to come. -/
theorem boldRun?_append_eq_none (unopened : boldRun? (marker :: text) = none)
    (closed : marker ∈ text ∨ marker ∉ more) : boldRun? (marker :: (text ++ more)) = none := by
  refine Option.eq_none_iff_forall_ne_some.mpr fun (inside, rest) found => ?_
  obtain ⟨plain, same⟩ := boldRun?_eq_some_iff.mp found
  rw [enclosed_append] at same
  rcases List.append_eq_append_iff.mp (List.cons.inj same).2 with
    ⟨between, rfl, rfl⟩ | ⟨between, rfl, behind⟩
  · have unmarked : marker ∉ text := fun mem => plain.unmarked (List.mem_append_left _ mem)
    exact closed.elim unmarked fun none => none (by simp)
  · cases between with
    | nil =>
        rw [List.append_nil] at closed
        rw [List.nil_append] at behind
        exact closed.elim plain.unmarked fun none => none (behind ▸ List.mem_cons_self)
    | cons x between =>
        -- The partner stands in the text itself, so the star opened a bold run before.
        obtain ⟨rfl, -⟩ := List.cons.inj behind
        rw [← enclosed_append, boldRun?_enclosed_append plain] at unopened
        cases unopened

/-- Behind the first fragment of a settled text the text is settled, and there is a star if the
fragment has one of its own but is not bold. -/
theorem Settled.behind {first : List Char} (cut : documentRuns text = first :: documentRuns rest)
    (settled : Settled text) :
    Settled rest ∧ (marker ∈ first → ¬ BoldRun first → marker ∈ rest) := by
  have whole : text = first ++ rest := by
    rw [← flatten_documentRuns text, cut, List.flatten_cons, flatten_documentRuns]
  rcases settled with unmarked | ⟨earlier, run, later, split, bold, unmarked⟩
  · rw [whole, List.mem_append, not_or] at unmarked
    exact ⟨.inl unmarked.2, fun mem => absurd mem unmarked.1⟩
  · rw [cut] at split
    rcases List.cons_eq_append_iff.mp split with ⟨rfl, same⟩ | ⟨earlier, rfl, onward⟩
    · cases same
      rw [flatten_documentRuns] at unmarked
      exact ⟨.inl unmarked, fun _ other => absurd bold other⟩
    · refine ⟨.inr ⟨earlier, run, later, onward, bold, unmarked⟩, fun _ _ => ?_⟩
      rw [← flatten_documentRuns rest, onward]
      exact List.mem_flatten_of_mem (List.mem_append_right _ List.mem_cons_self) bold.marker_mem

/-- Texts put together are converted each by itself, if no star is left open between them. -/
theorem scan_append (cut : Settled text ∨ marker ∉ more) :
    scan (text ++ more) = scan text ++ scan more := by
  induction text using runs_induction with
  | nil => rw [scan_nil, List.nil_append, List.nil_append]
  | bold inside rest plain ih =>
      have onward := cut.imp_left fun settled =>
        (settled.behind (documentRuns_enclosed_append plain rest)).1
      rw [List.append_assoc, scan_enclosed_append plain, ih onward, scan_enclosed_append plain,
        List.append_assoc _ (scan rest)]
  | plain run rest plain ends ih =>
      have onward := cut.imp_left fun settled =>
        (settled.behind (documentRuns_plain_append plain ends)).1
      rw [List.append_assoc, scan_append_of_unmarked plain.unmarked, ih onward,
        scan_append_of_unmarked plain.unmarked, List.append_assoc]
  | star rest unopened ih =>
      have behind := cut.imp_left (Settled.behind (documentRuns_star unopened))
      have closed : marker ∈ rest ∨ marker ∉ more :=
        behind.imp_left fun onward => onward.2 (List.mem_singleton_self _) not_boldRun_marker
      rw [List.cons_append, scan_cons_of_none (boldRun?_append_eq_none unopened closed),
        ih (behind.imp_left And.left), scan_cons_of_none unopened, List.cons_append]

theorem EndsBold.settled {text : String} (ends : EndsBold text) : Settled text.toList := by
  obtain ⟨earlier, fragment, later, found, bold, unmarked⟩ := ends
  have nonempty : text ≠ "" := by
    rintro rfl
    rw [outcome_document_empty] at found
    cases found
  rw [outcome_document nonempty] at found
  obtain ⟨before, after, split, rfl, onward⟩ := List.map_eq_append_iff.mp (Option.some.inj found)
  obtain ⟨run, after, rfl, rfl, rfl⟩ := List.map_eq_cons_iff.mp onward
  rw [String.toList_ofList] at bold
  rw [toList_join_map_ofList] at unmarked
  exact .inr ⟨before, run, after, split, bold, unmarked⟩

/-- **Texts put together are converted each by itself** if one of the two has no star, or if the
last star of the first closes a bold fragment. In all three cases no bold run reaches from the first
text into the second. -/
theorem joined_texts_convert_apart {first second : String}
    (cut : marker ∉ first.toList ∨ marker ∉ second.toList ∨ EndsBold first) :
    toHtml (first ++ second) = toHtml first ++ toHtml second := by
  have settled : Settled first.toList ∨ marker ∉ second.toList := by
    rcases cut with unmarked | unmarked | ends
    · exact .inl (.inl unmarked)
    · exact .inr unmarked
    · exact .inl ends.settled
  rw [toHtml_eq_scan, String.toList_append, scan_append settled, String.ofList_append,
    ← toHtml_eq_scan, ← toHtml_eq_scan]

/-- A text with a pair of stars that enclose nothing before its bold run, and one whose last star is
open. -/
theorem closed_star_lets_no_partner_in :
    EndsBold "**a*b" ∧ toHtml ("**a*b" ++ "c*") = toHtml "**a*b" ++ toHtml "c*" ∧
      toHtml ("*a" ++ "*") ≠ toHtml "*a" ++ toHtml "*" := by
  have ends : EndsBold "**a*b" :=
    ⟨["*"], "*a*", ["b"], by decide +kernel, by decide +kernel, by decide +kernel⟩
  exact ⟨ends, joined_texts_convert_apart (.inr (.inr ends)), by decide +kernel⟩

/-! ### Pieces of pieces -/

theorem segments_enclosed (plain : PlainRun inside) :
    segments (enclosed inside) = [enclosed inside] := by
  have whole := segments_enclosed_append plain []
  rwa [List.append_nil, segments_nil] at whole

theorem segments_of_plainRun (plain : PlainRun run) : segments run = [run] := by
  have unopened := plain.boldRun?_append []
  have unfollowed := plainThenBold?_append plain plainEnds_nil
  rw [List.append_nil] at unopened unfollowed
  exact segments_rest plain.nonempty unopened unfollowed

/-- A piece is cut into itself. -/
theorem segments_of_mem (mem : piece ∈ segments text) : segments piece = [piece] := by
  induction text using segments_induction with
  | nil =>
      rw [segments_nil] at mem
      cases mem
  | bold inside rest ofInside ih =>
      rw [segments_enclosed_append ofInside] at mem
      rcases List.mem_cons.mp mem with rfl | mem
      · exact segments_enclosed ofInside
      · exact ih mem
  | plain run inside rest ofRun ofInside ih =>
      rw [segments_plain_append ofRun ofInside, List.mem_cons, List.mem_cons] at mem
      rcases mem with rfl | rfl | mem
      · exact segments_of_plainRun ofRun
      · exact segments_enclosed ofInside
      · exact ih mem
  | rest text nonempty unopened unfollowed =>
      have cut := segments_rest nonempty unopened unfollowed
      rw [cut, List.mem_singleton] at mem
      rwa [mem]

/-- Behind a bold piece the cut begins anew. -/
theorem segments_append (closed : ∀ last, (segments text).getLast? = some last → BoldRun last) :
    segments (text ++ more) = segments text ++ segments more := by
  induction text using segments_induction with
  | nil => rw [segments_nil, List.nil_append, List.nil_append]
  | bold inside rest ofInside ih =>
      rw [segments_enclosed_append ofInside] at closed ⊢
      have onward := ih fun last ended => closed last (by rw [List.getLast?_cons, ended]; rfl)
      rw [List.append_assoc, segments_enclosed_append ofInside, onward, List.cons_append]
  | plain run inside rest ofRun ofInside ih =>
      rw [segments_plain_append ofRun ofInside] at closed ⊢
      have onward := ih fun last ended =>
        closed last (by rw [List.getLast?_cons, List.getLast?_cons, ended]; rfl)
      rw [List.append_assoc, List.append_assoc, segments_plain_append ofRun ofInside, onward,
        List.cons_append, List.cons_append]
  | rest text nonempty unopened unfollowed =>
      -- The last piece is no bold run: a text that is one would have been opened.
      rw [segments_rest nonempty unopened unfollowed] at closed
      obtain ⟨inside, found⟩ := boldRun_iff.mp (closed text rfl)
      cases unopened.symm.trans found

/-- **The cut is stable, and goes on behind a bold piece.** Every piece of a text is cut into
itself. If the last piece of a text is a bold run, more text put behind it is cut into the pieces
that it has alone. -/
theorem pieces_stay_pieces :
    (∀ text : String, text ≠ "" → ∃ pieces, split text = ⟨some pieces, ""⟩ ∧
      ∀ piece ∈ pieces, split piece = ⟨some [piece], ""⟩) ∧
    ∀ first second : String, first ≠ "" → second ≠ "" → ∃ pieces more,
      split first = ⟨some pieces, ""⟩ ∧ split second = ⟨some more, ""⟩ ∧
      ∀ last, pieces.getLast? = some last → BoldRun last.toList →
        split (first ++ second) = ⟨some (pieces ++ more), ""⟩ := by
  constructor
  · intro text nonempty
    refine ⟨_, split_of_nonempty nonempty, fun piece mem => ?_⟩
    obtain ⟨run, memRun, rfl⟩ := List.mem_map.mp mem
    have some : String.ofList run ≠ "" := by
      intro empty
      rw [String.ofList_eq_empty_iff.mp empty] at memRun
      exact nil_notMem_segments _ memRun
    rw [split_of_nonempty some, String.toList_ofList, segments_of_mem memRun, List.map_singleton]
  · intro first second nonempty nonempty'
    refine ⟨_, _, split_of_nonempty nonempty, split_of_nonempty nonempty', ?_⟩
    intro last ended bold
    have closed : ∀ piece, (segments first.toList).getLast? = some piece → BoldRun piece := by
      intro piece ended'
      rw [List.getLast?_map, ended', Option.map_some] at ended
      rwa [← Option.some.inj ended, String.toList_ofList] at bold
    have joined : first ++ second ≠ "" := by simp [nonempty]
    rw [split_of_nonempty joined, String.toList_append, segments_append closed, List.map_append]

theorem bold_piece_ends_the_cut :
    "é*a*" ≠ "" ∧ "b**" ≠ "" ∧ BoldRun "*a*".toList ∧
      split "é*a*" = ⟨some ["é", "*a*"], ""⟩ ∧ split "b**" = ⟨some ["b**"], ""⟩ ∧
      split ("é*a*" ++ "b**") = ⟨some ["é", "*a*", "b**"], ""⟩ ∧
      split "*a*" = ⟨some ["*a*"], ""⟩ := by
  have front : split "é*a*" = ⟨some ["é", "*a*"], ""⟩ := by decide +kernel
  have back : split "b**" = ⟨some ["b**"], ""⟩ := by decide +kernel
  have bold : BoldRun "*a*".toList := by decide +kernel
  obtain ⟨stable, composes⟩ := pieces_stay_pieces
  obtain ⟨pieces, cut, each⟩ := stable "é*a*" (by decide)
  obtain ⟨firsts, seconds, cut', cut'', joined⟩ := composes "é*a*" "b**" (by decide) (by decide)
  cases front.symm.trans cut
  cases front.symm.trans cut'
  cases back.symm.trans cut''
  exact ⟨by decide, by decide, bold, front, back, joined "*a*" rfl bold, each "*a*" (by decide)⟩

end Backtrack.Markup
