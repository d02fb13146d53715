import Backtrack.Proofs.Fragments
import Backtrack.Proofs.Termination

/-!
Grouping tells only how a matched text is cut into fragments.

A grouping hides the fragments of its part from everything around it. Outside of chains nothing
looks at fragments: whether a part matched, and whether it advanced, is all that choice, sequences
and repetitions go by. So a tree without chains does the same after all groupings are taken out of
it, up to the cut (`Matcher.Regroups`).
-/

namespace Backtrack

variable {κ : Type}

/-! ### Reports up to the cut -/

namespace Report

/-- The report with the fragments of a match joined into one. -/
def merged (r : Report κ) : Report κ :=
  r.mapFragments fun fragments => [String.join fragments]

variable {r s : Report κ} {fragments : List String}

/-- A match as one fragment. -/
theorem merged_of_matched (matched : r.ending = .matched fragments) :
    r.merged = ⟨.matched [String.join fragments], r.cursor, r.log⟩ := by
  rw [merged, mapFragments, matched]

/-- Matches that spell the same are the same up to the cut. -/
theorem merged_congr {here there : List String} (joined : String.join here = String.join there)
    (c : Cursor) (log : Log κ) :
    (Report.mk (.matched here) c log).merged = (Report.mk (.matched there) c log).merged :=
  congrArg (Report.mk · c log) (congrArg (Ending.matched [·]) joined)

/-- Only matches have fragments to join. -/
theorem merged_of_not_matched (other : ∀ fragments, r.ending ≠ .matched fragments) :
    r.merged = r :=
  mapFragments_of_not_matched other _

/-- To join fragments twice is to join them once. -/
theorem merged_merged (r : Report κ) : r.merged.merged = r.merged := by
  simp only [merged, mapFragments_mapFragments, Function.comp_def, join_single]

theorem merged_after (r : Report κ) (log : Log κ) : (r.after log).merged = r.merged.after log := by
  cases r with
  | mk ending cursor log => cases ending <;> rfl

/-- Fragments of a choice may be joined in each alternative. -/
theorem merged_orElse (r : Report κ) (next : Matcher κ) :
    (r.orElse next).merged = r.merged.orElse fun c => (next c).merged := by
  cases r with
  | mk ending cursor log =>
      cases ending with
      | noMatch => exact merged_after _ _
      | _ => rfl

/-- Going back leaves fragments alone. -/
theorem merged_rewoundTo (r : Report κ) (start : Checkpoint) (note : Nat → Log κ) :
    (r.rewoundTo start note).merged = r.merged.rewoundTo start note :=
  rewoundTo_mapFragments r start note _

/-- Fragments found before count only as the text they make up. -/
theorem merged_prepend (r : Report κ) (found : List String) :
    (r.mapFragments (found ++ ·)).merged =
      r.merged.mapFragments fun more => [String.join found ++ String.join more] := by
  simp only [merged, mapFragments_mapFragments, Function.comp_def, String.join_append, join_single]

/-- A report that is the same as a match, up to the cut, is of a match that spells the same. -/
theorem matched_of_merged_eq (same : r.merged = s.merged)
    (matched : r.ending = .matched fragments) :
    ∃ others, s.ending = .matched others ∧ String.join fragments = String.join others ∧
      s.cursor = r.cursor ∧ s.log = r.log := by
  rw [merged_of_matched matched] at same
  rcases s.matched_or_not with ⟨others, matched'⟩ | other
  · rw [merged_of_matched matched'] at same
    obtain ⟨ending, cursor, log⟩ := Report.mk.inj same
    exact ⟨others, matched', List.singleton_inj.mp (Ending.matched.inj ending), cursor.symm,
      log.symm⟩
  · rw [merged_of_not_matched other] at same
    exact absurd (congrArg Report.ending same).symm (other _)

/-- Without a match there is nothing to cut. -/
theorem eq_of_merged_eq (same : r.merged = s.merged)
    (other : ∀ fragments, r.ending ≠ .matched fragments) : s = r := by
  rcases s.matched_or_not with ⟨others, matched⟩ | other'
  · obtain ⟨fragments, matched', -⟩ := matched_of_merged_eq same.symm matched
    exact absurd matched' (other fragments)
  · rwa [merged_of_not_matched other, merged_of_not_matched other', eq_comm] at same

end Report

/-! ### Each way of putting matchers together -/

namespace Matcher

open Report

/-- Everywhere both give the same report, up to how the matched text is cut into fragments. -/
def Regroups (m n : Matcher κ) : Prop :=
  ∀ c, (m c).merged = (n c).merged

theorem Regroups.refl (m : Matcher κ) : Regroups m m :=
  fun _ => rfl

variable {part part' : Matcher κ} {found found' : Array String}

/-- A choice, alternative by alternative. -/
theorem regroups_either {first first' second second' : Matcher κ}
    (ofFirst : Regroups first first') (ofSecond : Regroups second second') :
    Regroups (either first second) (either first' second') := by
  intro c
  rw [either, either, merged_orElse, merged_orElse, ofFirst c, funext ofSecond]

/-- Parts in a row may be cut differently, part by part. -/
theorem regroups_inOrder {α : Type} {parts : List α} {f f' : α → Matcher κ}
    (ofParts : ∀ part ∈ parts, Regroups (f part) (f' part)) :
    Regroups (inOrder (parts.map f)) (inOrder (parts.map f')) := by
  induction parts with
  | nil => exact Regroups.refl _
  | cons part parts ih =>
      intro c
      obtain ⟨ofPart, ofRest⟩ := List.forall_mem_cons.mp ofParts
      rw [List.map_cons, List.map_cons]
      rcases (f part c).matched_or_not with ⟨here, matched⟩ | other
      · obtain ⟨there, matched', joined, cursor, log⟩ := matched_of_merged_eq (ofPart c) matched
        rw [inOrder_cons_of_matched matched, inOrder_cons_of_matched matched', cursor, log,
          merged_after, merged_after, merged_prepend, merged_prepend, joined, ih ofRest]
      · have same := eq_of_merged_eq (ofPart c) other
        rw [inOrder_cons_of_not_matched other, inOrder_cons_of_not_matched (by rwa [same]), same]

/-- So may the parts of a sequence, which goes back to the same place. -/
theorem regroups_sequence {α : Type} {parts : List α} {f f' : α → Matcher κ}
    (ofParts : ∀ part ∈ parts, Regroups (f part) (f' part)) :
    Regroups (sequence (parts.map f)) (sequence (parts.map f')) := by
  intro c
  cases left : c.hasNext with
  | true =>
      rw [sequence_of_hasNext left, sequence_of_hasNext left, merged_rewoundTo, merged_rewoundTo,
        regroups_inOrder ofParts c]
  | false => rw [sequence_of_exhausted left, sequence_of_exhausted left]

/-- A grouping may be left out. -/
theorem regroups_merge {whole bare : Matcher κ} (lawful : Lawful whole)
    (ofWhole : Regroups whole bare) : Regroups (merge whole) bare := by
  intro c
  rw [merge_of_lawful lawful]
  exact (merged_merged _).trans (ofWhole c)

/-- Joined texts can be put together before the parts or after. -/
theorem join_append_toArray {here there : List String}
    (found_joined : String.join found.toList = String.join found'.toList)
    (joined : String.join here = String.join there) :
    String.join (found ++ here).toList = String.join (found' ++ there).toList := by
  simp only [Array.toList_appendList, String.join_append, found_joined, joined]

/-- The attempts of a counted repetition; what they have found so far need only spell the same. -/
theorem regroups_attempts (ofPart : Regroups part part') (count : Nat) (start : Checkpoint)
    (left : Nat) (spelled : String.join found.toList = String.join found'.toList)
    (log : Log κ) (c : Cursor) :
    (attempts part count start left found log c).merged =
      (attempts part' count start left found' log c).merged := by
  induction left generalizing found found' log c with
  | zero => exact merged_congr spelled c log
  | succ left ih =>
      rw [attempts, attempts]
      rcases (part c).matched_or_not with ⟨here, matched⟩ | other
      · obtain ⟨there, matched', same, cursor, log⟩ := matched_of_merged_eq (ofPart c) matched
        simp only [matched, matched', cursor, log]
        exact ih (join_append_toArray spelled same) _ _
      · rw [eq_of_merged_eq (ofPart c) other]
        cases ended : (part c).ending with
        | matched fragments => exact absurd ended (other fragments)
        | _ => rfl

theorem regroups_times (ofPart : Regroups part part') (count : Nat) :
    Regroups (times part count) (times part' count) :=
  fun c => regroups_attempts ofPart count c.checkpoint count rfl ∅ c

/-- Up to the cut, what the rounds come to in the end depends on the text that was spelled only. -/
theorem merged_closing (matched : Nat)
    (spelled : String.join found.toList = String.join found'.toList) (c : Cursor) (log : Log κ) :
    (Report.mk (closing matched found) c log).merged =
      (Report.mk (closing matched found') c log).merged := by
  unfold closing
  split
  · rfl
  · exact merged_congr spelled c log

/-- The rounds of an open repetition; where one stops to advance is no matter of fragments. -/
theorem regroups_rounds (ofPart : Regroups part part') (budget matched : Nat)
    (found found' : Array String) (spelled : String.join found.toList = String.join found'.toList)
    (log : Log κ) (c : Cursor) :
    (rounds part' budget matched found' log c).merged =
      (rounds part budget matched found log c).merged := by
  -- Both loops see the same cursors, so they stop in the same round; only what they carry differs.
  fun_induction rounds part budget matched found log c generalizing found' with
  | case1 budget matched found log c r joined here ended still =>
      obtain ⟨there, ended', -, cursor, log⟩ := matched_of_merged_eq (ofPart c) ended
      rw [rounds]
      simp only [ended', cursor, log]
      rw [if_pos still]
      exact merged_closing matched spelled.symm _ _
  | case2 matched found log c r joined here ended advanced =>
      obtain ⟨there, ended', -, cursor, log⟩ := matched_of_merged_eq (ofPart c) ended
      rw [rounds]
      simp only [ended', cursor, log]
      rw [if_neg advanced]
  | case3 matched found log c r joined here ended advanced budget ih =>
      obtain ⟨there, ended', same, cursor, log⟩ := matched_of_merged_eq (ofPart c) ended
      rw [rounds]
      simp only [ended', cursor, log]
      rw [if_neg advanced]
      exact ih _ (join_append_toArray spelled same)
  | case4 budget matched found log c r joined noMatch =>
      have same : part' c = r := eq_of_merged_eq (ofPart c) (not_matched_of_noMatch noMatch)
      rw [rounds]
      simp only [same, noMatch]
      exact merged_closing matched spelled.symm _ _
  | case5 budget matched found log c r joined aborted =>
      have same : part' c = r := eq_of_merged_eq (ofPart c) (by simp [aborted])
      rw [rounds]
      simp only [same, aborted, joined]
  | case6 budget matched found log c r joined unfinished =>
      have same : part' c = r := eq_of_merged_eq (ofPart c) (by simp [unfinished])
      rw [rounds]
      simp only [same, unfinished, joined]

theorem regroups_oneOrMore (ofPart : Regroups part part') :
    Regroups (oneOrMore part) (oneOrMore part') :=
  fun c => (regroups_rounds ofPart c.remaining 0 #[] #[] rfl ∅ c).symm

end Matcher

/-! ### Trees without groupings -/

namespace Parser

open Matcher

mutual

/-- The tree with every grouping replaced by what it groups. -/
def ungrouped : Parser κ → Parser κ
  | either first second => either (ungrouped first) (ungrouped second)
  | sequence parts => sequence (ungroupedEach parts)
  | merge whole => ungrouped whole
  | times part count => times (ungrouped part) count
  | oneOrMore part => oneOrMore (ungrouped part)
  | chain first label => chain (ungrouped first) label
  | literal expected => literal expected
  | any => any
  | anyExcept excluded => anyExcept excluded
  | fail => fail

/-- The trees with every grouping replaced by what it groups. -/
def ungroupedEach : List (Parser κ) → List (Parser κ)
  | [] => []
  | part :: parts => ungrouped part :: ungroupedEach parts

end

theorem ungroupedEach_eq_map (parts : List (Parser κ)) :
    ungroupedEach parts = parts.map ungrouped := by
  induction parts with
  | nil => rfl
  | cons part parts ih => rw [ungroupedEach, ih, List.map_cons]

/-- A sequence without groupings. -/
theorem ungrouped_sequence (parts : List (Parser κ)) :
    ungrouped (sequence parts) = sequence (parts.map ungrouped) := by
  rw [ungrouped, ungroupedEach_eq_map]

/-- No grouping is left in an ungrouped tree. -/
theorem ungrouped_mergeFree (p : Parser κ) : p.ungrouped.MergeFree := by
  induction p with
  | sequence parts ofParts =>
      rw [ungrouped_sequence]
      exact every_iff.mpr ⟨rfl, List.forall_mem_map.mpr ofParts⟩
  | either first second ofFirst ofSecond =>
      exact every_iff.mpr ⟨rfl, by simp [ungrouped, ofFirst, ofSecond]⟩
  | merge whole ofWhole => exact ofWhole
  | times part count ofPart => exact every_iff.mpr ⟨rfl, by simp [ungrouped, ofPart]⟩
  | oneOrMore part ofPart => exact every_iff.mpr ⟨rfl, by simp [ungrouped, ofPart]⟩
  | chain first label ofFirst => exact every_iff.mpr ⟨rfl, by simp [ungrouped, ofFirst]⟩
  | _ => rfl

/-- Outside of chains nothing depends on how a matched text is cut into fragments. -/
theorem parse_regroups (g : Grammar κ) (depth : Nat) {p : Parser κ} (free : p.ChainFree) :
    Regroups (p.parse g depth) (p.ungrouped.parse g depth) := by
  induction p with
  | literal expected => exact Regroups.refl _
  | any => exact Regroups.refl _
  | anyExcept excluded => exact Regroups.refl _
  | either first second ofFirst ofSecond =>
      exact regroups_either (ofFirst (every_of_child free (by simp)))
        (ofSecond (every_of_child free (by simp)))
  | sequence parts ofParts =>
      rw [ungrouped_sequence, parse_sequence, parse_sequence, List.map_map]
      exact regroups_sequence fun part mem => ofParts part mem (every_of_child free mem)
  | merge whole ofWhole =>
      exact regroups_merge (parse_lawful g depth whole) (ofWhole (every_of_child free (by simp)))
  | times part count ofPart => exact regroups_times (ofPart (every_of_child free (by simp))) count
  | oneOrMore part ofPart => exact regroups_oneOrMore (ofPart (every_of_child free (by simp)))
  | chain first label => exact absurd free (not_chainFree_chain first label)
  | fail => exact Regroups.refl _

/-- **Grouping changes only the cut.** Take all groupings out of a tree without chains; none is
left. From any place both trees find nothing, or both match: the cursor ends in the same place, and
the fragments make up the same text. So they give the same report, log included, once they are
grouped as a whole, or their fragments are joined. -/
theorem groupings_only_cut (g : Grammar κ) (depth : Nat) {p : Parser κ} (free : p.ChainFree) :
    p.ungrouped.MergeFree ∧
    (∀ c : Cursor,
      let report := p.parse g depth c
      let bare := p.ungrouped.parse g depth c
      (report.ending = .noMatch ∧ bare.ending = .noMatch ∨
        ∃ fragments others, report.ending = .matched fragments ∧ bare.ending = .matched others ∧
          String.join fragments = String.join others) ∧
      report.cursor = bare.cursor) ∧
    (merge p).parse g depth = (merge p.ungrouped).parse g depth ∧
    p.parseMerged g depth = p.ungrouped.parseMerged g depth := by
  have regroups : Regroups (p.parse g depth) (p.ungrouped.parse g depth) :=
    parse_regroups g depth free
  refine ⟨ungrouped_mergeFree p, fun c => ?_, ?_, funext regroups⟩
  · rcases matched_or_noMatch (parse_answers_of_chainFree free depth c) with
      ⟨fragments, matched⟩ | noMatch
    · obtain ⟨others, matched', joined, cursor, -⟩ :=
        Report.matched_of_merged_eq (regroups c) matched
      exact ⟨Or.inr ⟨fragments, others, matched, matched', joined⟩, cursor.symm⟩
    · have same := Report.eq_of_merged_eq (regroups c) (Report.not_matched_of_noMatch noMatch)
      rw [same]
      exact ⟨Or.inl ⟨noMatch, noMatch⟩, rfl⟩
  · rw [parse_merge_eq_parseMerged, parse_merge_eq_parseMerged]
    exact funext regroups

/-- A grouping of nothing, and groupings in a grouping, before a letter that is in none. -/
theorem nested_groupings_cut :
    let whole : Parser Empty := sequence
      [merge (times any 0), merge (oneOrMore (merge (literal 'a'))), literal 'b']
    whole.ChainFree ∧
      (whole.parse .chainFree 0 (.ofString "aab")).ending = .matched ["", "aa", "b"] ∧
      (whole.ungrouped.parse .chainFree 0 (.ofString "aab")).ending = .matched ["a", "a", "b"] ∧
      String.join ["", "aa", "b"] = String.join ["a", "a", "b"] ∧
      (whole.parse .chainFree 0 (.ofString "aab")).cursor =
        (whole.ungrouped.parse .chainFree 0 (.ofString "aab")).cursor := by
  intro whole
  have free : whole.ChainFree := by decide +kernel
  have matched : (whole.parse .chainFree 0 (.ofString "aab")).ending =
      .matched ["", "aa", "b"] := by decide +kernel
  have bare : (whole.ungrouped.parse .chainFree 0 (.ofString "aab")).ending =
      .matched ["a", "a", "b"] := by decide +kernel
  obtain ⟨-, cut, -, -⟩ := groupings_only_cut .chainFree 0 free
  obtain ⟨⟨noMatch, -⟩ | ⟨fragments, others, here, there, joined⟩, same⟩ := cut (.ofString "aab")
  · cases matched.symm.trans noMatch
  · cases matched.symm.trans here
    cases bare.symm.trans there
    exact ⟨free, matched, bare, joined, same⟩

end Parser

end Backtrack
