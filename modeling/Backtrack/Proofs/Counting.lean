import Backtrack.Proofs.Nesting
import Backtrack.Proofs.Repetition
import Mathlib.Algebra.Ring.Nat

/-!
How the numbers of counted repetitions add up.

A counted repetition runs its part so many times in order, and goes back to its start where a run
finds nothing (`times_agrees`). A row of counted repetitions that goes back as a whole is then one
repetition of the sum of their numbers (`inOrder_times_agrees`). The inner ones go back as well, but
from where they end up the outer one goes back all the same. Nested repetitions are a row of equal
numbers, and a pair of repetitions is a row of two.
-/

namespace Backtrack

variable {κ : Type}

namespace Matcher

open Report

variable {m : Matcher κ} {c : Cursor} {start : Checkpoint}

/-! ### Loops as rows -/

/-- The attempts still to be made are the part so many times in order. -/
theorem attempts_agrees (m : Matcher κ) (count : Nat) (start : Checkpoint) (left : Nat)
    (found : Array String) (log : Log κ) (c : Cursor) (note : Nat → Log κ) :
    (attempts m count start left found log c).Agrees
      (((inOrder (List.replicate left m) c).mapFragments (found.toList ++ ·)).rewoundTo
        start note) := by
  induction left generalizing found log c with
  | zero => exact ⟨congrArg Ending.matched (List.append_nil _).symm, rfl⟩
  | succ left ih =>
      rw [attempts, List.replicate_succ]
      rcases (m c).matched_or_not with ⟨here, matched⟩ | other
      · rw [inOrder_cons_of_matched matched]
        simp only [matched]
        refine (ih _ _ _).trans (Agrees.rewoundTo ?_ _ _)
        have behind := (Agrees.refl ((inOrder (List.replicate left m) (m c).cursor).mapFragments
          (here ++ ·))).after_right (m c).log
        simpa only [mapFragments_mapFragments, Function.comp_def, Array.toList_appendList,
          List.append_assoc] using behind.mapFragments (found.toList ++ ·)
      · rw [inOrder_cons_of_not_matched other, mapFragments_of_not_matched other]
        cases ended : (m c).ending with
        | matched fragments => exact absurd ended (other fragments)
        | noMatch =>
            rw [rewoundTo_of_noMatch ended]
            exact ⟨rfl, rfl⟩
        | aborted | unfinished =>
            simp only [rewoundTo, ended]
            exact ⟨ended.symm, rfl⟩

/-- A counted repetition is its part so many times in order, with a place to go back to. -/
theorem times_agrees (m : Matcher κ) (n : Nat) (c : Cursor) (note : Nat → Log κ) :
    (times m n c).Agrees ((inOrder (List.replicate n m) c).rewoundTo c.checkpoint note) := by
  have loop := attempts_agrees m n c.checkpoint n #[] ∅ c note
  have nothing : ((#[] : Array String).toList ++ ·) = id := rfl
  rwa [nothing, mapFragments_id] at loop

/-- Once is as good as without repetition. -/
theorem times_one_agrees (lawful : Lawful m) (c : Cursor) : (times m 1 c).Agrees (m c) := by
  have once : (times m 1 c).Agrees ((inOrder [m] c).rewoundTo c.checkpoint fun _ => ∅) :=
    times_agrees m 1 c _
  refine once.trans (Agrees.trans ?_ (lawful.rewoundTo_agrees c fun _ => ∅))
  exact (inOrder_single m c).rewoundTo _ _

/-- Counted repetitions in a row are one of the sum of their numbers, where all of them have one
place to go back to. -/
theorem inOrder_times_agrees (m : Matcher κ) (counts : List Nat) (c : Cursor) (start : Checkpoint)
    (note note' : Nat → Log κ) :
    ((inOrder (counts.map (times m)) c).rewoundTo start note).Agrees
      ((inOrder (List.replicate counts.sum m) c).rewoundTo start note') := by
  induction counts generalizing c with
  | nil => exact (Agrees.refl _).rewoundTo _ _
  | cons n counts ih =>
      rw [List.map_cons, List.sum_cons, ← List.replicate_append_replicate]
      exact agrees_rewound_cons note note' (times_agrees m n c note) fun _ _ => ih _

/-- Repetitions nested in each other are one of the product of their numbers. -/
theorem times_times_agrees (m : Matcher κ) (a b : Nat) (c : Cursor) :
    (times (times m a) b c).Agrees (times m (a * b) c) := by
  have row := inOrder_times_agrees m (List.replicate b a) c c.checkpoint (fun _ => ∅) fun _ => ∅
  rw [List.map_replicate, List.sum_replicate, Nat.nsmul_eq_mul, Nat.mul_comm] at row
  exact (times_agrees ..).trans (row.trans (times_agrees ..).symm)

/-- A pair of repetitions is one of the sum of their numbers, where a character is left. -/
theorem pair_times_agrees (m : Matcher κ) (a b : Nat) (left : c.hasNext = true) :
    (sequence [times m a, times m b] c).Agrees (times m (a + b) c) := by
  have row := inOrder_times_agrees m [a, b] c c.checkpoint
    (fun reached => .ofEvent (.sequenceRewound reached c.position)) fun _ => ∅
  rw [List.sum_cons, List.sum_singleton] at row
  rw [sequence_of_hasNext left]
  exact row.trans (times_agrees ..).symm

/-- A repetition is the sequence of so many copies, where a character is left. -/
theorem sequence_replicate_agrees (m : Matcher κ) (n : Nat) (left : c.hasNext = true) :
    (sequence (List.replicate n m) c).Agrees (times m n c) := by
  rw [sequence_of_hasNext left]
  exact (times_agrees ..).symm

/-! ### Attempts that fail -/

/-- So many calls in a row match, and the next finds nothing. -/
structure FailsAfter (m : Matcher κ) (c : Cursor) (k : Nat) : Prop where
  runs : ∀ i < k, ∃ found, (m (reach m c i)).ending = .matched found
  fails : (m (reach m c k)).ending = .noMatch

theorem failsAfter_zero_iff : FailsAfter m c 0 ↔ (m c).ending = .noMatch :=
  ⟨FailsAfter.fails, fun fails => ⟨nofun, fails⟩⟩

theorem failsAfter_succ_iff {k : Nat} :
    FailsAfter m c (k + 1) ↔
      (∃ found, (m c).ending = .matched found) ∧ FailsAfter m (m c).cursor k := by
  constructor
  · rintro ⟨runs, fails⟩
    obtain ⟨first, others⟩ := Nat.forall_lt_succ_left.mp runs
    exact ⟨first, others, fails⟩
  · rintro ⟨first, others, fails⟩
    exact ⟨Nat.forall_lt_succ_left.mpr ⟨first, others⟩, fails⟩

theorem inOrder_replicate_noMatch_iff {n : Nat} :
    (inOrder (List.replicate n m) c).ending = .noMatch ↔ ∃ k < n, FailsAfter m c k := by
  induction n generalizing c with
  | zero => exact iff_of_false nofun fun ⟨_, less, _⟩ => Nat.not_lt_zero _ less
  | succ n ih =>
      rw [List.replicate_succ, Nat.exists_lt_succ_left, failsAfter_zero_iff]
      simp only [failsAfter_succ_iff]
      rcases (m c).matched_or_not with ⟨found, matched⟩ | other
      · simp [inOrder_cons_of_matched matched, ending_mapFragments_iff, ih, matched]
      · simp [inOrder_cons_of_not_matched other, other]

/-- A counted repetition finds nothing exactly if one of its attempts does. -/
theorem times_noMatch_iff {n : Nat} :
    (times m n c).ending = .noMatch ↔ ∃ k < n, FailsAfter m c k := by
  rw [(times_agrees m n c fun _ => ∅).ending, ending_rewoundTo, inOrder_replicate_noMatch_iff]

end Matcher

namespace Parser

open Matcher

variable {g : Grammar κ} {depth : Nat} {c : Cursor}

theorem parse_replicate (g : Grammar κ) (depth : Nat) (p : Parser κ) (n : Nat) :
    (sequence (List.replicate n p)).parse g depth =
      Matcher.sequence (List.replicate n (p.parse g depth)) := by
  rw [parse_sequence, List.map_replicate]

theorem parse_sequence_of_exhausted (exhausted : c.hasNext = false) (parts : List (Parser κ)) :
    ((sequence parts).parse g depth c).ending = .noMatch := by
  rw [parse_sequence, sequence_of_exhausted exhausted, Report.ending_still]

/-- A sequence that is a counted repetition where a character is left fails with the attempts of
that repetition. -/
theorem parse_sequence_noMatch {p : Parser κ} {parts : List (Parser κ)} {n k : Nat}
    (same : c.hasNext = true →
      ((sequence parts).parse g depth c).Agrees ((times p n).parse g depth c))
    (less : k < n) (fails : FailsAfter (p.parse g depth) c k) :
    ((sequence parts).parse g depth c).ending = .noMatch := by
  cases left : c.hasNext with
  | true => exact (same left).ending.trans (times_noMatch_iff.mpr ⟨k, less, fails⟩)
  | false => exact parse_sequence_of_exhausted left parts

/-- **Counts add and multiply.** Repetitions nested in each other are one repetition of the product
of their numbers. Where a character is left, a pair of repetitions is one of the sum of their
numbers, and a repetition is the sequence of so many copies; there is such a sequence unless the
number is zero. Where none is left the pair finds nothing. As soon as one of the attempts fails that
any of these parsers has to make, it finds nothing and leaves the cursor where the first attempt
began. -/
theorem counts_add_and_multiply (g : Grammar κ) (depth : Nat) (p : Parser κ) (m n : Nat)
    (c : Cursor) :
    let nested := times (times p m) n
    let pair := (times p m).andThen (times p n)
    let copies := sequence (List.replicate n p)
    (nested.parse g depth c).Agrees ((times p (m * n)).parse g depth c) ∧
    (c.hasNext = true →
      (pair.parse g depth c).Agrees ((times p (m + n)).parse g depth c) ∧
      (1 ≤ n → sequence? (List.replicate n p) = .ok copies) ∧
      (copies.parse g depth c).Agrees ((times p n).parse g depth c)) ∧
    (c.hasNext = false → (pair.parse g depth c).ending = .noMatch) ∧
    ∀ form ∈ [(nested, m * n), (times p (m * n), m * n), (pair, m + n), (times p (m + n), m + n),
        (copies, n), (times p n, n)],
      ∀ k < form.2, FailsAfter (p.parse g depth) c k →
        (form.1.parse g depth c).ending = .noMatch ∧ (form.1.parse g depth c).cursor = c := by
  intro nested pair copies
  have product : (nested.parse g depth c).Agrees ((times p (m * n)).parse g depth c) :=
    times_times_agrees ..
  have sum (left : c.hasNext = true) :
      (pair.parse g depth c).Agrees ((times p (m + n)).parse g depth c) := by
    rw [parse_andThen]
    exact pair_times_agrees _ m n left
  have listed (left : c.hasNext = true) :
      (copies.parse g depth c).Agrees ((times p n).parse g depth c) := by
    rw [parse_replicate]
    exact sequence_replicate_agrees _ n left
  refine ⟨product, fun left => ⟨sum left, fun some => ?_, listed left⟩,
    fun exhausted => parse_sequence_of_exhausted exhausted _, ?_⟩
  · obtain ⟨n, rfl⟩ := Nat.exists_eq_add_of_le' some
    rfl
  · intro form mem k less fails
    have counted {total : Nat} (less : k < total) :
        ((times p total).parse g depth c).ending = .noMatch :=
      times_noMatch_iff.mpr ⟨k, less, fails⟩
    have noMatch : (form.1.parse g depth c).ending = .noMatch := by
      simp only [List.mem_cons, List.not_mem_nil, or_false] at mem
      rcases mem with rfl | rfl | rfl | rfl | rfl | rfl
      · exact product.ending.trans (counted less)
      · exact counted less
      · exact parse_sequence_noMatch sum less fails
      · exact counted less
      · exact parse_sequence_noMatch listed less fails
      · exact counted less
    exact ⟨noMatch, (parse_lawful g depth form.1).restores c noMatch⟩

/-- Four letters asked for as two pairs of them, where there are four or five, only two, or none. -/
theorem letters_add_and_multiply :
    let four : Parser Empty := times (times (literal 'a') 2) 2
    let pair : Parser Empty := (times (literal 'a') 2).andThen (times (literal 'a') 2)
    let start := Cursor.ofString "aaaaa"
    (four.parse .chainFree 0 start).ending = .matched ["a", "a", "a", "a"] ∧
    ((times (literal 'a') 4).parse .chainFree 0 start).ending = .matched ["a", "a", "a", "a"] ∧
    start.hasNext = true ∧
    (pair.parse .chainFree 0 start).Agrees ((times (literal 'a') 4).parse .chainFree 0 start) ∧
    sequence? (List.replicate 2 (literal 'a' : Parser Empty)) =
      .ok (sequence (List.replicate 2 (literal 'a'))) ∧
    FailsAfter ((literal 'a').parse .chainFree 0) (.ofString "aab") 2 ∧
    (four.parse .chainFree 0 (.ofString "aab")).ending = .noMatch ∧
    (four.parse .chainFree 0 (.ofString "aab")).cursor = .ofString "aab" ∧
    (Cursor.ofString "").hasNext = false ∧
    (pair.parse .chainFree 0 (.ofString "")).ending = .noMatch := by
  intro four pair start
  have matched : (four.parse .chainFree 0 start).ending = .matched ["a", "a", "a", "a"] := by
    decide +kernel
  have left : start.hasNext = true := by decide +kernel
  have exhausted : (Cursor.ofString "").hasNext = false := by decide +kernel
  have fails : FailsAfter ((literal 'a').parse .chainFree 0) (.ofString "aab") 2 := by
    refine failsAfter_succ_iff.mpr ⟨⟨["a"], by decide +kernel⟩, ?_⟩
    refine failsAfter_succ_iff.mpr ⟨⟨["a"], by decide +kernel⟩, ?_⟩
    exact failsAfter_zero_iff.mpr (by decide +kernel)
  have laws := counts_add_and_multiply .chainFree 0 (literal 'a') 2 2
  obtain ⟨product, onward, -, -⟩ := laws start
  obtain ⟨-, -, -, short⟩ := laws (.ofString "aab")
  obtain ⟨-, -, starved, -⟩ := laws (.ofString "")
  obtain ⟨noMatch, stays⟩ := short (four, 4) (by simp [four]) 2 (by decide) fails
  exact ⟨matched, product.ending.symm.trans matched, left, (onward left).1,
    (onward left).2.1 (by decide), fails, noMatch, stays, exhausted, starved exhausted⟩

end Parser

end Backtrack
