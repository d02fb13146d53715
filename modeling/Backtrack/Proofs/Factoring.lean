import Backtrack.Proofs.Nesting

/-!
Alternatives with a common part.

What two alternatives begin with may be taken out in front of the choice. The choice in front runs
the common parts twice, but it does so from the same place, as the first alternative goes back to
where it began. What alternatives end with may be taken out only as long as the first alternative
does not match where the common end then fails (`Strands`): a choice does not come back to the
second alternative for the sake of what follows.
-/

namespace Backtrack

variable {κ : Type}

namespace Matcher

open Report

variable {first first' second last m : Matcher κ} {parts : List (Matcher κ)} {c : Cursor}
  {found : List String}

/-! ### What a choice and a sequence depend on -/

/-- A choice is its second alternative where the first finds nothing. -/
theorem either_agrees_of_noMatch (lawful : Lawful first) (noMatch : (first c).ending = .noMatch)
    (second : Matcher κ) : (either first second c).Agrees (second c) := by
  rw [either_of_noMatch noMatch, lawful.restores c noMatch]
  exact (Agrees.refl _).after_left _

theorem inOrder_head_agrees (agrees : (first c).Agrees (first' c)) :
    (inOrder (first :: parts) c).Agrees (inOrder (first' :: parts) c) := by
  rcases (first c).matched_or_not with ⟨found, matched⟩ | other
  · rw [inOrder_cons_of_matched matched, inOrder_cons_of_matched (agrees.ending ▸ matched),
      agrees.cursor]
    exact ((Agrees.refl _).after_left _).after_right _
  · rwa [inOrder_cons_of_not_matched other, inOrder_cons_of_not_matched (agrees.ending ▸ other)]

theorem sequence_head_agrees (agrees : (first c).Agrees (first' c)) (parts : List (Matcher κ)) :
    (sequence (first :: parts) c).Agrees (sequence (first' :: parts) c) := by
  cases left : c.hasNext with
  | true =>
      rw [sequence_of_hasNext left, sequence_of_hasNext left]
      exact (inOrder_head_agrees agrees).rewoundTo _ _
  | false =>
      rw [sequence_of_exhausted left, sequence_of_exhausted left]
      exact .refl _

/-- Where no character is left, a choice of sequences is like any sequence. -/
theorem either_sequence_of_exhausted (exhausted : c.hasNext = false)
    (firsts seconds parts : List (Matcher κ)) :
    (either (sequence firsts) (sequence seconds) c).Agrees (sequence parts c) := by
  have nothing (parts : List (Matcher κ)) : sequence parts c = still .noMatch c :=
    sequence_of_exhausted exhausted
  rw [either_of_noMatch (by rw [nothing, ending_still]), nothing firsts, nothing parts,
    cursor_still, nothing seconds]
  exact (Agrees.refl _).after_left _

/-! ### Common parts in front -/

/-- A last part goes on where the parts before it stopped. -/
theorem sequence_concat_agrees (left : c.hasNext = true)
    (matched : (inOrder parts c).ending = .matched found) (m : Matcher κ) :
    (sequence (parts ++ [m]) c).Agrees
      (((m (inOrder parts c).cursor).mapFragments (found ++ ·)).rewoundTo c.checkpoint
        fun _ => ∅) := by
  rw [sequence_of_hasNext left]
  refine Agrees.rewoundTo ((inOrder_append_of_matched matched).trans ?_) _ _
  exact (inOrder_single m _).mapFragments _

theorem sequence_concat_noMatch_iff (left : c.hasNext = true)
    (matched : (inOrder parts c).ending = .matched found) :
    (sequence (parts ++ [m]) c).ending = .noMatch ↔
      (m (inOrder parts c).cursor).ending = .noMatch := by
  rw [(sequence_concat_agrees left matched m).ending, ending_rewoundTo,
    ending_mapFragments_iff .noMatch nofun]

/-- No part is tried behind one that did not match. -/
theorem sequence_append_of_not_matched
    (other : ∀ found, (inOrder parts c).ending ≠ .matched found)
    (others others' : List (Matcher κ)) :
    sequence (parts ++ others) c = sequence (parts ++ others') c := by
  rw [sequence, inOrder_append_of_not_matched other, sequence, inOrder_append_of_not_matched other]

/-- Common parts may be taken out in front of a choice. -/
theorem either_sequence_agrees (ofParts : ∀ part ∈ parts, Lawful part) (ofFirst : Lawful first)
    (second : Matcher κ) (c : Cursor) :
    (either (sequence (parts ++ [first])) (sequence (parts ++ [second])) c).Agrees
      (sequence (parts ++ [either first second]) c) := by
  have lawful : Lawful (sequence (parts ++ [first])) :=
    lawful_sequence (List.forall_mem_append.mpr ⟨ofParts, by simpa using ofFirst⟩)
  cases left : c.hasNext with
  | true =>
      rcases (inOrder parts c).matched_or_not with ⟨found, matched⟩ | other
      · have behind := sequence_concat_agrees left matched
        by_cases noMatch : (first (inOrder parts c).cursor).ending = .noMatch
        · -- The first alternative goes back, and the second comes again to the same place.
          have fails := (sequence_concat_noMatch_iff left matched).mpr noMatch
          have choice := either_agrees_of_noMatch ofFirst noMatch second
          refine (either_agrees_of_noMatch lawful fails _).trans ?_
          refine (behind second).trans (Agrees.trans ?_ (behind (either first second)).symm)
          exact (choice.symm.mapFragments _).rewoundTo _ _
        · have stands := mt (sequence_concat_noMatch_iff left matched).mp noMatch
          have choice := behind (either first second)
          rw [either_of_ne_noMatch noMatch] at choice
          rw [either_of_ne_noMatch stands]
          exact (behind first).trans choice.symm
      · have same (m : Matcher κ) : sequence (parts ++ [m]) c = _ :=
          sequence_append_of_not_matched other [m] [either first second]
        by_cases noMatch : (sequence (parts ++ [first]) c).ending = .noMatch
        · exact (either_agrees_of_noMatch lawful noMatch _).trans (.of_eq (same second))
        · exact .of_eq ((either_of_ne_noMatch noMatch).trans (same first))
  | false => exact either_sequence_of_exhausted left _ _ _

/-! ### Common parts behind -/

/-- The first matches, and behind it the last finds nothing. -/
def Strands (first last : Matcher κ) (c : Cursor) : Prop :=
  (∃ found, (first c).ending = .matched found) ∧ (last (first c).cursor).ending = .noMatch

theorem pair_noMatch_iff (left : c.hasNext = true) :
    (sequence [first, last] c).ending = .noMatch ↔
      (first c).ending = .noMatch ∨ Strands first last c := by
  rw [sequence_of_hasNext left, ending_rewoundTo]
  rcases (first c).matched_or_not with ⟨found, matched⟩ | other
  · rw [inOrder_cons_of_matched matched, ending_after, ending_mapFragments_iff .noMatch nofun,
      (inOrder_single ..).ending]
    simp [Strands, matched]
  · rw [inOrder_cons_of_not_matched other]
    simp [Strands, other]

/-- A choice in front of the common end is stuck with a first alternative that strands it; a choice
between the ends goes on to the second. -/
theorem pair_either_of_strands (ofFirst : Lawful first) (ofLast : Lawful last)
    (strands : Strands first last c) (second : Matcher κ) :
    (sequence [either first second, last] c).ending = .noMatch ∧
      (either (sequence [first, last]) (sequence [second, last]) c).Agrees
        (sequence [second, last] c) := by
  obtain ⟨⟨found, matched⟩, noMatch⟩ := strands
  have chosen : either first second c = first c := either_of_ne_noMatch (by simp [matched])
  have lawful : Lawful (sequence [first, last]) := lawful_sequence (by simp [ofFirst, ofLast])
  constructor
  · exact (sequence_head_agrees (.of_eq chosen) _).ending.trans (pair_noMatch matched noMatch)
  · exact either_agrees_of_noMatch lawful (pair_noMatch matched noMatch) _

/-- Otherwise it makes no difference where the choice stands. -/
theorem pair_either_agrees (ofFirst : Lawful first) (ofLast : Lawful last)
    (fits : ¬ Strands first last c) (second : Matcher κ) :
    (sequence [either first second, last] c).Agrees
      (either (sequence [first, last]) (sequence [second, last]) c) := by
  have lawful : Lawful (sequence [first, last]) := lawful_sequence (by simp [ofFirst, ofLast])
  cases left : c.hasNext with
  | true =>
      by_cases noMatch : (first c).ending = .noMatch
      · have fails : (sequence [first, last] c).ending = .noMatch :=
          (pair_noMatch_iff left).mpr (Or.inl noMatch)
        have chosen := sequence_head_agrees (either_agrees_of_noMatch ofFirst noMatch second) [last]
        exact chosen.trans (either_agrees_of_noMatch lawful fails _).symm
      · have stands : (sequence [first, last] c).ending ≠ .noMatch := by
          rw [Ne, pair_noMatch_iff left]
          exact not_or.mpr ⟨noMatch, fits⟩
        rw [either_of_ne_noMatch stands]
        exact sequence_head_agrees (.of_eq (either_of_ne_noMatch noMatch)) _
  | false => exact (either_sequence_of_exhausted left _ _ _).symm

end Matcher

namespace Parser

open Matcher

/-- **Common parts of alternatives.** What two alternatives begin with may be taken out in front of
the choice. What they end with may be taken out as well, unless the first matches where the end then
fails. If it does, a choice in front of the end finds nothing, while a choice between the ends goes
on to the second. So whatever a choice in front finds a choice between the ends finds too, and where
only the latter matches, the first alternative matches alone and the end fails behind it. -/
theorem alternatives_factor (g : Grammar κ) (depth : Nat) :
    (∀ (common : List (Parser κ)) (p q : Parser κ) (c : Cursor),
      ((either (sequence (common ++ [p])) (sequence (common ++ [q]))).parse g depth c).Agrees
        ((sequence (common ++ [either p q])).parse g depth c)) ∧
    ∀ (p q last : Parser κ) (c : Cursor),
      let early := ((either p q).andThen last).parse g depth c
      let late := (either (p.andThen last) (q.andThen last)).parse g depth c
      let strands := Strands (p.parse g depth) (last.parse g depth) c
      (∀ fragments, early.ending = .matched fragments →
        late.ending = .matched fragments ∧ late.cursor = early.cursor) ∧
      (∀ fragments, late.ending = .matched fragments → early.ending = .noMatch → strands) ∧
      (¬ strands → early.Agrees late) ∧
      (strands → early.ending = .noMatch ∧ late.Agrees ((q.andThen last).parse g depth c)) := by
  constructor
  · intro common p q c
    simp only [parse_either, parse_sequence, List.map_append, List.map_cons, List.map_nil]
    exact either_sequence_agrees (List.forall_mem_map.mpr fun part _ => parse_lawful g depth part)
      (parse_lawful g depth p) _ c
  · intro p q last c early late strands
    have fits (fits : ¬ strands) : early.Agrees late := by
      simp only [early, late, parse_andThen, parse_either]
      exact pair_either_agrees (parse_lawful g depth p) (parse_lawful g depth last) fits _
    have stranded (stranded : strands) :
        early.ending = .noMatch ∧ late.Agrees ((q.andThen last).parse g depth c) := by
      simp only [early, late, parse_andThen, parse_either]
      exact pair_either_of_strands (parse_lawful g depth p) (parse_lawful g depth last) stranded _
    refine ⟨fun fragments matched => ?_, fun fragments matched noMatch => ?_, fits, stranded⟩
    · have agrees : early.Agrees late := fits fun strands => by
        rw [(stranded strands).1] at matched
        cases matched
      exact ⟨agrees.ending.symm.trans matched, agrees.cursor.symm⟩
    · refine Classical.byContradiction fun others => ?_
      rw [← (fits others).ending, noMatch] at matched
      cases matched

/-- A letter alone or with another one, before a third. -/
theorem letter_strands_the_end :
    let p : Parser Empty := literal 'a'
    let q : Parser Empty := (literal 'a').andThen (literal 'b')
    let early := ((either p q).andThen (literal 'c')).parse .chainFree 0
    let late := (either (p.andThen (literal 'c')) (q.andThen (literal 'c'))).parse .chainFree 0
    (early (.ofString "ac")).ending = .matched ["a", "c"] ∧
    (late (.ofString "ac")).ending = .matched ["a", "c"] ∧
    (late (.ofString "abc")).ending = .matched ["a", "b", "c"] ∧
    (early (.ofString "abc")).ending = .noMatch ∧
    Strands (p.parse .chainFree 0) ((literal 'c').parse .chainFree 0) (.ofString "abc") ∧
    (late (.ofString "abc")).Agrees
      ((q.andThen (literal 'c')).parse .chainFree 0 (.ofString "abc")) ∧
    ¬ Strands (p.parse .chainFree 0) ((literal 'c').parse .chainFree 0) (.ofString "ac") ∧
    (early (.ofString "ac")).Agrees (late (.ofString "ac")) := by
  intro p q early late
  have short : (early (.ofString "ac")).ending = .matched ["a", "c"] := by decide +kernel
  have long : (late (.ofString "abc")).ending = .matched ["a", "b", "c"] := by decide +kernel
  have noMatch : (early (.ofString "abc")).ending = .noMatch := by decide +kernel
  have fits : ¬ Strands (p.parse .chainFree 0) ((literal 'c').parse .chainFree 0)
      (.ofString "ac") := by
    rintro ⟨-, fails⟩
    exact absurd fails (by decide +kernel)
  obtain ⟨-, behind⟩ := alternatives_factor Grammar.chainFree 0
  obtain ⟨kept, -, agrees, -⟩ := behind p q (literal 'c') (.ofString "ac")
  obtain ⟨-, lost, -, goesOn⟩ := behind p q (literal 'c') (.ofString "abc")
  have strands := lost _ long noMatch
  exact ⟨short, (kept _ short).1, long, noMatch, strands, (goesOn strands).2, fits, agrees fits⟩

end Parser

end Backtrack
