import Backtrack.Markup
import Backtrack.Proofs.Reading
import Backtrack.Text.Slice

/-!
Plain runs and bold runs.

A plain run has no star in it, and a bold run is a plain run between two stars; neither is empty
inside. A text begins with a bold run in at most one way, which `boldRun?` finds. The grammars
`plain` and `bold` take exactly such runs: plain text as far as it goes, and a bold run wherever the
text begins with one.
-/

namespace Backtrack.Markup

open Matcher

/-- Characters without a star, at least one of them. -/
structure PlainRun (run : List Char) : Prop where
  nonempty : run ≠ []
  unmarked : marker ∉ run

/-- Characters with a star before and behind them. -/
def enclosed (inside : List Char) : List Char :=
  marker :: (inside ++ [marker])

/-- A plain run between two stars. -/
def BoldRun (run : List Char) : Prop :=
  ∃ inside, PlainRun inside ∧ run = enclosed inside

/-- A plain run ends before this text, which is empty or begins with a star. -/
def PlainEnds (rest : List Char) : Prop :=
  ∀ x, rest.head? = some x → x = marker

/-- The inside of the bold run that a text begins with, and what follows the run. -/
def boldRun? : List Char → Option (List Char × List Char)
  | [] => none
  | x :: tail =>
    match tail.dropWhile (· != marker) with
    | [] => none
    | _ :: rest =>
      if x = marker ∧ tail.takeWhile (· != marker) ≠ [] then
        some (tail.takeWhile (· != marker), rest)
      else none

variable {run inside rest text : List Char}

/-! ### Taking texts apart -/

theorem plainEnds_nil : PlainEnds [] :=
  nofun

theorem plainEnds_marker (rest : List Char) : PlainEnds (marker :: rest) := by
  rintro x ⟨⟩
  rfl

theorem enclosed_append (inside rest : List Char) :
    enclosed inside ++ rest = marker :: (inside ++ marker :: rest) := by
  simp [enclosed]

/-- A bold run ends the plain run before it. -/
theorem plainEnds_enclosed_append (inside rest : List Char) :
    PlainEnds (enclosed inside ++ rest) :=
  plainEnds_marker _

/-- To end a plain run is to begin with no character that could go on with it. -/
theorem plainEnds_iff : PlainEnds rest ↔ ∀ x, rest.head? = some x → (x != marker) = false := by
  simp only [PlainEnds, bne_eq_false_iff_eq]

/-- A plain run is all that stands before the next star, or before the end. -/
theorem takeWhile_append_plain (unmarked : marker ∉ run) (ends : PlainEnds rest) :
    (run ++ rest).takeWhile (· != marker) = run := by
  rw [List.takeWhile_append_of_pos (forall_mem_bne_iff.mpr unmarked)]
  cases rest with
  | nil => exact List.append_nil run
  | cons x rest =>
      cases ends x rfl
      rw [List.takeWhile_cons_of_neg (by simp), List.append_nil]

theorem dropWhile_append_plain (unmarked : marker ∉ run) (ends : PlainEnds rest) :
    (run ++ rest).dropWhile (· != marker) = rest := by
  rw [List.dropWhile_append_of_pos (forall_mem_bne_iff.mpr unmarked)]
  cases rest with
  | nil => rfl
  | cons x rest =>
      cases ends x rfl
      rw [List.dropWhile_cons_of_neg (by simp)]

/-- Every text is plain up to its end or to its first star. -/
theorem exists_plain_append (text : List Char) :
    ∃ run rest, text = run ++ rest ∧ marker ∉ run ∧ PlainEnds rest := by
  obtain ⟨run, rest, same, plain, ends⟩ := exists_run_append (· != marker) text
  exact ⟨run, rest, same, forall_mem_bne_iff.mp plain, plainEnds_iff.mpr ends⟩

/-- A bold run is found where the text begins with a plain run between two stars, and nowhere else.
-/
theorem boldRun?_eq_some_iff :
    boldRun? text = some (inside, rest) ↔ PlainRun inside ∧ text = enclosed inside ++ rest := by
  cases text with
  | nil => simp [boldRun?, enclosed]
  | cons x tail =>
      obtain ⟨run, after, rfl, unmarked, ends⟩ := exists_plain_append tail
      rw [boldRun?, takeWhile_append_plain unmarked ends, dropWhile_append_plain unmarked ends,
        enclosed_append]
      constructor
      · intro found
        split at found
        · cases found
        · next y after =>
          cases ends y rfl
          split at found
          · next opens =>
            cases found
            exact ⟨⟨opens.2, unmarked⟩, by rw [opens.1]⟩
          · cases found
      · rintro ⟨plain, same⟩
        obtain ⟨rfl, tails⟩ := List.cons.inj same
        -- Both sides are plain up to the first star, so they agree on where it is.
        obtain rfl : run = inside := by
          rw [← takeWhile_append_plain unmarked ends, tails,
            takeWhile_append_plain plain.unmarked (plainEnds_marker rest)]
        obtain rfl := List.append_cancel_left tails
        simp [plain.nonempty]

/-- A bold run is found whatever follows it. -/
theorem boldRun?_enclosed_append (plain : PlainRun inside) (rest : List Char) :
    boldRun? (enclosed inside ++ rest) = some (inside, rest) :=
  boldRun?_eq_some_iff.mpr ⟨plain, rfl⟩

/-- A bold run takes something off the text, so that reading on behind it comes to an end. -/
theorem length_lt_of_boldRun? (found : boldRun? text = some (inside, rest)) :
    rest.length < text.length := by
  obtain ⟨-, rfl⟩ := boldRun?_eq_some_iff.mp found
  simp [enclosed]
  omega

/-- No bold run begins with a plain character. -/
theorem boldRun?_cons_of_ne {x : Char} (unmarked : x ≠ marker) (tail : List Char) :
    boldRun? (x :: tail) = none := by
  refine Option.eq_none_iff_forall_ne_some.mpr fun (inside, rest) found => unmarked ?_
  obtain ⟨-, same⟩ := boldRun?_eq_some_iff.mp found
  exact (List.cons.inj same).1

/-- No bold run begins where a plain one does. -/
theorem PlainRun.boldRun?_append (plain : PlainRun run) (rest : List Char) :
    boldRun? (run ++ rest) = none := by
  obtain ⟨nonempty, unmarked⟩ := plain
  cases run with
  | nil => exact absurd rfl nonempty
  | cons x run => exact boldRun?_cons_of_ne (Ne.symm (List.ne_of_not_mem_cons unmarked)) _

/-- A text is a bold run if one is found in it that leaves nothing behind. -/
theorem boldRun_iff : BoldRun run ↔ ∃ inside, boldRun? run = some (inside, []) := by
  simp only [BoldRun, boldRun?_eq_some_iff, List.append_nil]

instance (run : List Char) : Decidable (BoldRun run) :=
  match found : boldRun? run with
  | some (inside, []) => .isTrue (boldRun_iff.mpr ⟨inside, found⟩)
  | some (inside, x :: rest) => .isFalse fun bold => by
      obtain ⟨inside', found'⟩ := boldRun_iff.mp bold
      cases found.symm.trans found'
  | none => .isFalse fun bold => by
      obtain ⟨inside', found'⟩ := boldRun_iff.mp bold
      cases found.symm.trans found'

/-- Plain runs are not bold. -/
theorem PlainRun.not_boldRun (plain : PlainRun run) : ¬ BoldRun run := by
  rintro ⟨inside, -, rfl⟩
  exact plain.unmarked List.mem_cons_self

/-- A text is read from left to right as bold runs, plain runs as long as can be, and stars that
begin no bold run. -/
theorem runs_induction {motive : List Char → Prop} (nil : motive [])
    (bold : ∀ inside rest, PlainRun inside → motive rest → motive (enclosed inside ++ rest))
    (plain : ∀ run rest, PlainRun run → PlainEnds rest → motive rest → motive (run ++ rest))
    (star : ∀ rest, boldRun? (marker :: rest) = none → motive rest → motive (marker :: rest))
    (text : List Char) : motive text := by
  induction size : text.length using Nat.strongRecOn generalizing text with
  | ind n ih =>
      subst size
      cases found : boldRun? text with
      | some found' =>
          have less := length_lt_of_boldRun? found
          obtain ⟨ofInside, rfl⟩ := boldRun?_eq_some_iff.mp found
          exact bold _ _ ofInside (ih _ less _ rfl)
      | none =>
          obtain ⟨run, rest, rfl, unmarked, ends⟩ := exists_plain_append text
          cases run with
          | cons x run =>
              have less : rest.length < (x :: run ++ rest).length := by
                simp only [List.length_append, List.length_cons]
                omega
              exact plain _ _ ⟨nofun, unmarked⟩ ends (ih _ less _ rfl)
          | nil =>
              cases rest with
              | nil => exact nil
              | cons x rest =>
                  cases ends x rfl
                  exact star rest found (ih _ (Nat.lt_succ_self _) _ rfl)

/-! ### What the grammars of the runs take -/

section Grammars

variable {κ : Type} (g : Grammar κ) (depth : Nat)

/-- The grammar of a bold run in terms of single characters. -/
theorem parse_bold : (bold : Parser κ).parse g depth =
    Matcher.merge (Matcher.sequence [Matcher.satisfying (· == marker),
      Matcher.sequence [plain.parse g depth, Matcher.satisfying (· == marker)]]) := by
  rw [bold, Parser.parse_merge, Parser.parse_andThen, Parser.parse_andThen, Parser.parse_literal]

/-- A plain run is taken character by character. -/
theorem takes_plain (plainRun : PlainRun run) (ends : PlainEnds rest) :
    Takes ((plain : Parser κ).parse g depth) (run ++ rest) (run.map String.singleton) rest :=
  takes_run plainRun.nonempty (forall_mem_bne_iff.mpr plainRun.unmarked) (plainEnds_iff.mp ends)

/-- At a star or at the end there is no plain run to take. -/
theorem refuses_plain (ends : PlainEnds text) :
    Refuses ((plain : Parser κ).parse g depth) text :=
  refuses_oneOrMore (refuses_satisfying (plainEnds_iff.mp ends))

/-- Grouped, a plain run is one fragment. -/
theorem takes_merge_plain (plainRun : PlainRun run) (ends : PlainEnds rest) :
    Takes ((Parser.merge plain : Parser κ).parse g depth) (run ++ rest) [String.ofList run] rest :=
  takes_merge_run plainRun.nonempty (forall_mem_bne_iff.mpr plainRun.unmarked)
    (plainEnds_iff.mp ends)

/-- A bold run is one fragment, its stars included. -/
theorem takes_bold (plainRun : PlainRun inside) (rest : List Char) :
    Takes ((bold : Parser κ).parse g depth) (enclosed inside ++ rest)
      [String.ofList (enclosed inside)] rest := by
  have closed := takes_pair (by simp) (takes_plain g depth plainRun (plainEnds_marker rest))
    (takes_char marker rest)
  have whole := takes_merge (takes_pair (by simp) (takes_char marker _) closed)
  have joined : [String.singleton marker] ++
      (inside.map String.singleton ++ [String.singleton marker]) =
        (enclosed inside).map String.singleton := by simp [enclosed]
  rw [joined, join_singletons, ← enclosed_append] at whole
  rw [parse_bold]
  exact whole

/-- Where no bold run begins one of its three parts finds nothing: the star that opens it, the
inside, or the star that closes it. -/
theorem refuses_bold (none : boldRun? text = none) :
    Refuses ((bold : Parser κ).parse g depth) text := by
  rw [parse_bold]
  refine refuses_merge ?_
  cases text with
  | nil => exact refuses_sequence_nil
  | cons x tail =>
      by_cases marked : x = marker
      · subst marked
        refine refuses_pair_right (takes_char marker tail) ?_
        obtain ⟨run, rest, rfl, unmarked, ends⟩ := exists_plain_append tail
        cases run with
        | nil => exact refuses_pair_left (refuses_plain g depth ends)
        | cons y run =>
            have plainRun : PlainRun (y :: run) := ⟨nofun, unmarked⟩
            refine refuses_pair_right (takes_plain g depth plainRun ends) ?_
            cases rest with
            | nil => exact refuses_satisfying nofun
            | cons z rest =>
                -- The run would be closed here, so the text would begin with a bold run.
                cases ends z rfl
                rw [← enclosed_append, boldRun?_enclosed_append plainRun] at none
                cases none
      · refine refuses_pair_left (refuses_satisfying fun y first => ?_)
        cases first
        simp [marked]

end Grammars

/-! ### Fragments as HTML -/

/-- A fragment with a star at each end counts as bold, whatever stands between them. -/
theorem isBold_enclosed (inside : List Char) :
    isBold (String.ofList (enclosed inside)) = true := by
  have whole : String.ofList (enclosed inside) = "*" ++ (String.ofList inside ++ "*") := by
    rw [← String.toList_inj]
    simp [enclosed, marker]
  have two : 2 ≤ (String.ofList (enclosed inside)).utf8ByteSize := by
    rw [whole, String.utf8ByteSize_append, String.utf8ByteSize_append]
    change 2 ≤ 1 + (_ + 1)
    omega
  have closes : (enclosed inside).getLast? = some marker := by
    rw [enclosed, ← List.cons_append, List.getLast?_concat]
  simp only [isBold, String.toList_ofList, closes, two]
  rfl

/-- Without its stars a bold run is its inside. -/
theorem inner_enclosed (inside : List Char) :
    inner (String.ofList (enclosed inside)) = String.ofList inside := by
  simp [inner, enclosed]

/-- A bold run becomes its inside between two tags. -/
theorem fragmentToHtml_enclosed (inside : List Char) :
    fragmentToHtml (String.ofList (enclosed inside)) =
      "<strong>" ++ String.ofList inside ++ "</strong>" := by
  rw [fragmentToHtml, if_pos (isBold_enclosed inside), inner_enclosed]

/-- The inside of a bold fragment lies between byte offsets where it can be cut. -/
theorem slice?_of_isBold {fragment : String} (bold : isBold fragment = true) :
    Text.slice? fragment 1 (fragment.utf8ByteSize - 1) = some (inner fragment) := by
  have whole : fragment = "*" ++ inner fragment ++ "*" := by
    rw [← String.toList_inj, toList_of_isBold bold, String.toList_append, String.toList_append]
    rfl
  have size : fragment.utf8ByteSize = ("*" ++ inner fragment).utf8ByteSize + 1 :=
    (congrArg String.utf8ByteSize whole).trans String.utf8ByteSize_append
  refine Text.slice?_eq_some_iff.mpr ⟨"*", "*", whole, rfl, ?_⟩
  rw [size, Nat.add_sub_cancel]

end Backtrack.Markup
