import Backtrack.Proofs.Agreement
import Backtrack.Proofs.Bounds

/-!
Sequences put together in pairs.

Parsers may be put one after the other in a flat sequence, or in pairs of which one half is a pair
again. Every pair asks for a character before it tries its halves. Pairs nested on the left all
begin where the flat sequence does, so they ask nothing more. Pairs nested on the right begin where
the parsers before them stopped: they fail when the text ends too early for the last two parsers,
even if those would match without any.
-/

namespace Backtrack

open Matcher

variable {κ : Type}

namespace Parser

/-- The parsers one after the other, in pairs whose first halves are pairs. -/
def nestedLeft : List (Parser κ) → Parser κ
  | [] => sequence []
  | first :: parts => parts.foldl andThen first

/-- The parsers one after the other, in pairs whose second halves are pairs. -/
def nestedRight : List (Parser κ) → Parser κ
  | [] => sequence []
  | [last] => last
  | first :: second :: parts => first.andThen (nestedRight (second :: parts))

end Parser

namespace Matcher

/-- Some of the matchers, the first of them and on in order, all match and leave nothing to read. -/
def Exhausts : List (Matcher κ) → Cursor → Prop
  | [], _ => False
  | part :: parts, c => (∃ found, (part c).ending = .matched found) ∧
      ((part c).cursor.hasNext = false ∨ Exhausts parts (part c).cursor)

variable {parts others : List (Matcher κ)} {first second : Matcher κ} {c : Cursor}
  {fragments : List String}

/-- Where nothing is left to read, nothing is left behind a match. -/
theorem Forward.exhausted (forward : Forward first) (exhausted : c.hasNext = false)
    {found : List String} (matched : (first c).ending = .matched found) :
    (first c).cursor.hasNext = false := by
  obtain ⟨text, passes⟩ := forward c found matched
  rwa [passes.eq_of_exhausted exhausted]

theorem forward_inOrder (forward : ∀ part ∈ parts, Forward part) : Forward (inOrder parts) := by
  rw [← spells_anything_iff]
  exact spells_inOrder anything_spelling fun part mem =>
    spells_anything_iff.mpr (forward part mem)

/-- Where all match in order, some of them exhaust the text just if all of them together do. -/
theorem exhausts_iff_of_matched (forward : ∀ part ∈ parts, Forward part)
    (matched : (inOrder parts c).ending = .matched fragments) :
    Exhausts parts c ↔ parts ≠ [] ∧ (inOrder parts c).cursor.hasNext = false := by
  induction parts generalizing c fragments with
  | nil => exact iff_of_false nofun fun nonempty => nonempty.1 rfl
  | cons part parts ih =>
      obtain ⟨here, more, matchedHere, there, -, reached⟩ := matched_inOrder_cons matched
      obtain ⟨ofPart, ofRest⟩ := List.forall_mem_cons.mp forward
      rw [Exhausts, reached, ih ofRest there]
      constructor
      · rintro ⟨-, exhausted | ⟨-, exhausted⟩⟩
        · exact ⟨List.cons_ne_nil _ _, (forward_inOrder ofRest).exhausted exhausted there⟩
        · exact ⟨List.cons_ne_nil _ _, exhausted⟩
      · rintro ⟨-, exhausted⟩
        refine ⟨⟨here, matchedHere⟩, ?_⟩
        cases parts with
        | nil => exact Or.inl exhausted
        | cons => exact Or.inr ⟨List.cons_ne_nil _ _, exhausted⟩

end Matcher

/-! ### Trees -/

namespace Parser

variable {g : Grammar κ} {depth : Nat} {c : Cursor}

/-- Further parsers may be nested on the left of a sequence, or join it as parts. -/
theorem nestedLeft_agrees (parts others : List (Parser κ)) :
    ((nestedLeft (sequence parts :: others)).parse g depth c).Agrees
      ((sequence (parts ++ others)).parse g depth c) := by
  induction others generalizing parts with
  | nil =>
      rw [List.append_nil]
      exact .refl _
  | cons next others ih =>
      -- The pair with the next parser is itself a sequence, whose first part is the old one.
      refine Report.Agrees.trans (ih [sequence parts, next]) ?_
      simp only [List.cons_append, List.nil_append, parse_sequence, List.map_cons, List.map_append]
      exact sequence_sequence_cons _ _ c

theorem nestedRight_cons (first : Parser κ) {parts : List (Parser κ)} (nonempty : parts ≠ []) :
    nestedRight (first :: parts) = first.andThen (nestedRight parts) := by
  cases parts with
  | nil => exact absurd rfl nonempty
  | cons => rfl

/-- A nest of two parsers or more asks for a character. -/
theorem nestedRight_exhausted (init : List (Parser κ)) (q r : Parser κ)
    (exhausted : c.hasNext = false) :
    ((nestedRight (init ++ [q, r])).parse g depth c).ending = .noMatch := by
  obtain ⟨first, second, pair⟩ : ∃ first second : Parser κ,
      nestedRight (init ++ [q, r]) = first.andThen second := by
    cases init with
    | nil => exact ⟨q, r, rfl⟩
    | cons p init => exact ⟨p, _, nestedRight_cons p (by simp)⟩
  rw [pair, parse_andThen, sequence_of_exhausted exhausted]
  rfl

/-- Pairs nested on the right find nothing if the text is used up before the last two parsers, and
do what the flat sequence does otherwise. -/
theorem nestedRight_cases (g : Grammar κ) (depth : Nat) (init : List (Parser κ)) (q r : Parser κ)
    (c : Cursor) :
    (Exhausts (init.map (parse g depth)) c →
      ((nestedRight (init ++ [q, r])).parse g depth c).ending = .noMatch) ∧
    (¬ Exhausts (init.map (parse g depth)) c →
      ((nestedRight (init ++ [q, r])).parse g depth c).Agrees
        ((sequence (init ++ [q, r])).parse g depth c)) := by
  induction init generalizing c with
  | nil => exact ⟨False.elim, fun _ => .refl _⟩
  | cons p init ih =>
      rw [List.cons_append, nestedRight_cons p (by simp), parse_andThen, parse_sequence,
        List.map_cons, List.map_cons]
      rcases (p.parse g depth c).matched_or_not with ⟨found, matched⟩ | other
      · cases left : (p.parse g depth c).cursor.hasNext with
        | true =>
            obtain ⟨starved, fed⟩ := ih (p.parse g depth c).cursor
            constructor
            · rintro ⟨-, exhausted | exhausts⟩
              · cases left.symm.trans exhausted
              · exact pair_noMatch matched (starved exhausts)
            · intro not
              have inner := fed fun exhausts => not ⟨⟨found, matched⟩, Or.inr exhausts⟩
              rw [parse_sequence] at inner
              exact (agrees_pair fun _ _ => inner).trans
                (sequence_cons_sequence matched left _)
        | false =>
            constructor
            · exact fun _ => pair_noMatch matched (nestedRight_exhausted init q r left)
            · exact fun not => absurd ⟨⟨found, matched⟩, Or.inl left⟩ not
      · constructor
        · rintro ⟨⟨found, matched⟩, -⟩
          exact absurd matched (other found)
        · intro _
          exact agrees_sequence_cons fun found matched => absurd matched (other found)

/-- Where the flat sequence matches, the text is used up before the last two parsers just if the
parsers before them leave nothing to read. -/
theorem exhausts_iff_of_sequence {init : List (Parser κ)} {q r : Parser κ} {fragments : List String}
    (matched : ((sequence (init ++ [q, r])).parse g depth c).ending = .matched fragments) :
    Exhausts (init.map (parse g depth)) c ↔
      init ≠ [] ∧ ((sequence init).parse g depth c).cursor.hasNext = false := by
  rw [parse_sequence, List.map_append] at matched
  obtain ⟨left, inOrder⟩ := matched_sequence matched
  rw [inOrder] at matched
  rcases (Matcher.inOrder (init.map (parse g depth)) c).matched_or_not with ⟨found, here⟩ | other
  · have forward : ∀ part ∈ init.map (parse g depth), Forward part :=
      List.forall_mem_map.mpr fun part _ => parse_forward g depth part
    rw [exhausts_iff_of_matched forward here, parse_sequence, sequence_of_hasNext left,
      Report.rewoundTo_of_matched here, ne_eq, List.map_eq_nil_iff]
  · rw [inOrder_append_of_not_matched other] at matched
    exact absurd matched (other fragments)

/-- Where the flat sequence finds nothing, neither do the pairs. -/
theorem nestedRight_agrees_of_noMatch {init : List (Parser κ)} {q r : Parser κ}
    (noMatch : ((sequence (init ++ [q, r])).parse g depth c).ending = .noMatch) :
    ((nestedRight (init ++ [q, r])).parse g depth c).Agrees
      ((sequence (init ++ [q, r])).parse g depth c) := by
  obtain ⟨starved, fed⟩ := nestedRight_cases g depth init q r c
  by_cases exhausts : Exhausts (init.map (parse g depth)) c
  · have nothing := starved exhausts
    refine ⟨nothing.trans noMatch.symm, ?_⟩
    rw [(parse_lawful g depth _).restores c nothing, (parse_lawful g depth _).restores c noMatch]
  · exact fed exhausts

/-- Otherwise they differ exactly if the text is used up before the last two parsers. -/
theorem nestedRight_differs_iff {init : List (Parser κ)} {q r : Parser κ}
    (other : ((sequence (init ++ [q, r])).parse g depth c).ending ≠ .noMatch) :
    ¬ ((nestedRight (init ++ [q, r])).parse g depth c).Agrees
        ((sequence (init ++ [q, r])).parse g depth c) ↔
      Exhausts (init.map (parse g depth)) c := by
  obtain ⟨starved, fed⟩ := nestedRight_cases g depth init q r c
  constructor
  · exact fun differs => Classical.not_not.mp (mt fed differs)
  · exact fun exhausts agrees => other (agrees.ending.symm.trans (starved exhausts))

/-- **Pairs and flat sequences.** Parsers in pairs nested on the left do what they do in a flat
sequence. Nested on the right they do so too, or find nothing at all. If the flat sequence answers,
the two differ exactly if there are three or more parsers, the flat sequence matches, and the text
is used up where the last two begin. If it does not answer, they differ exactly if some of the
parsers before the last two match and use up the text. -/
theorem nested_pairs_agree (g : Grammar κ) (depth : Nat) (init : List (Parser κ))
    (q r : Parser κ) (c : Cursor) :
    let flat := (sequence (init ++ [q, r])).parse g depth c
    let left := (nestedLeft (init ++ [q, r])).parse g depth c
    let right := (nestedRight (init ++ [q, r])).parse g depth c
    let before := (sequence init).parse g depth c
    left.Agrees flat ∧
    (¬ right.Agrees flat → right.ending = .noMatch ∧ right.cursor = c) ∧
    (∀ answer, flat.ending.answer? = some answer →
      (¬ right.Agrees flat ↔
        init ≠ [] ∧ answer.isSome = true ∧ before.cursor.hasNext = false)) ∧
    (flat.ending.answer? = none →
      (¬ right.Agrees flat ↔ Exhausts (init.map (parse g depth)) c)) := by
  intro flat left right before
  refine ⟨?_, fun differs => ?_, fun answer answered => ?_, fun unanswered => ?_⟩
  · obtain ⟨first, second, others, same⟩ :
        ∃ first second others, init ++ [q, r] = first :: second :: others := by
      match init with
      | [] => exact ⟨q, r, [], rfl⟩
      | [p] => exact ⟨p, q, [r], rfl⟩
      | p :: p' :: init => exact ⟨p, p', init ++ [q, r], rfl⟩
    simp only [left, flat, same]
    exact nestedLeft_agrees [first, second] others
  · obtain ⟨starved, fed⟩ := nestedRight_cases g depth init q r c
    have nothing := starved (Classical.not_not.mp (mt fed differs))
    exact ⟨nothing, (parse_lawful g depth _).restores c nothing⟩
  · rcases Ending.answer?_eq_some_iff.mp answered with ⟨noMatch, rfl⟩ | ⟨_, matched, rfl⟩
    · exact iff_of_false (not_not_intro (nestedRight_agrees_of_noMatch noMatch)) (by simp)
    · rw [nestedRight_differs_iff (by rw [matched]; exact nofun),
        exhausts_iff_of_sequence matched]
      simp [before]
  · refine nestedRight_differs_iff fun noMatch => ?_
    rw [noMatch] at unanswered
    cases unanswered

/-- Two parsers that match nothing, behind one that takes all there is. -/
theorem pairs_starve_at_end :
    ((sequence [any, times any 0, times any 0]).parse .chainFree 0 (.ofString "a")).ending.answer? =
        some (some ["a"]) ∧
      ((nestedRight [any, times any 0, times any 0]).parse .chainFree 0 (.ofString "a")).ending =
        .noMatch := by
  have answered : ((sequence [any, times any 0, times any 0]).parse .chainFree 0
      (.ofString "a")).ending.answer? = some (some ["a"]) := by decide +kernel
  have exhausted :
      ((sequence [any]).parse .chainFree 0 (.ofString "a")).cursor.hasNext = false := by
    decide +kernel
  obtain ⟨-, nothing, differs, -⟩ :=
    nested_pairs_agree .chainFree 0 [any] (times any 0) (times any 0) (.ofString "a")
  exact ⟨answered, (nothing ((differs _ answered).mpr ⟨by simp, rfl, exhausted⟩)).1⟩

end Parser

end Backtrack
