import Backtrack.Proofs.Repetition
import Backtrack.Proofs.Reading

/-!
What a parser does where the text has ended.

Where no character is left a parser without chains can be judged by its tree. A single character, a
sequence and an open repetition find nothing there, even if their parts would match; a counted
repetition that asks for no attempts matches, and grouping, counting and choice match with their
parts. The fragments are in the tree as well, and each of them is the empty text.
-/

namespace Backtrack

open Matcher

variable {κ : Type}

/-! ### Combinators at the end of a text -/

namespace Matcher

variable {part : Matcher κ} {found : List String}

/-- Attempts that take nothing off a text can be made in a row. -/
theorem InRow.replicate {text : List Char} (takes : Takes part text found text) (count : Nat) :
    InRow part count text (List.replicate count found).flatten text := by
  induction count with
  | zero => exact .none
  | succ count ih =>
      rw [List.replicate_succ, List.flatten_cons]
      exact .next takes ih

/-- An open repetition finds nothing at the end of a text, since no round advances. -/
theorem refuses_oneOrMore_nil (lawful : Lawful part) (forward : Forward part)
    (answers : Answers 0 part) : Refuses (oneOrMore part) [] := by
  intro c unread
  have none : c.remaining ≤ 0 := by rw [← Cursor.length_rest, unread, List.length_nil]
  rw [oneOrMore_noMatch_iff lawful forward]
  refine (advances_or_halts (answers c none)).resolve_left ?_
  rintro ⟨⟨fragments, matched⟩, moved⟩
  obtain ⟨text, passes⟩ := forward c fragments matched
  exact moved (by rw [passes.eq_of_exhausted (Cursor.rest_eq_nil_iff.mp unread)])

end Matcher

/-! ### Trees at the end of a text -/

namespace Parser

/-- Whether a parser without chains matches where the text has ended. -/
def acceptsEnd : Parser κ → Bool
  | either first second => first.acceptsEnd || second.acceptsEnd
  | merge whole => whole.acceptsEnd
  | times part count => count == 0 || part.acceptsEnd
  | literal _ | any | anyExcept _ | sequence _ | oneOrMore _ | chain .. | fail => false

/-- The fragments with which it matches there. -/
def endFragments : Parser κ → List String
  | either first second => if first.acceptsEnd then first.endFragments else second.endFragments
  | merge _ => [""]
  | times part count => (List.replicate count part.endFragments).flatten
  | literal _ | any | anyExcept _ | sequence _ | oneOrMore _ | chain .. | fail => []

theorem eq_empty_of_mem_endFragments {p : Parser κ} : ∀ s ∈ p.endFragments, s = "" := by
  induction p with
  | either first second ofFirst ofSecond =>
      rw [endFragments]
      split
      · exact ofFirst
      · exact ofSecond
  | merge => exact fun s mem => List.mem_singleton.mp mem
  | times part count ofPart =>
      intro s mem
      obtain ⟨found, copy, mem⟩ := List.mem_flatten.mp mem
      rw [List.eq_of_mem_replicate copy] at mem
      exact ofPart s mem
  | _ => exact nofun

theorem join_endFragments (p : Parser κ) : String.join p.endFragments = "" := by
  rw [← String.toList_inj, String.toList_join]
  refine List.flatMap_eq_nil_iff.mpr fun s mem => ?_
  rw [eq_empty_of_mem_endFragments s mem]
  rfl

variable {p : Parser κ} {c : Cursor}

/-- The two sides of the rule at once: a choice needs to know of a part that it finds nothing. -/
theorem takes_or_refuses_end (g : Grammar κ) (depth : Nat) (free : p.ChainFree) :
    (p.acceptsEnd = true → Takes (p.parse g depth) [] p.endFragments []) ∧
      (p.acceptsEnd = false → Refuses (p.parse g depth) []) := by
  induction p with
  | literal | any | anyExcept => exact ⟨nofun, fun _ => refuses_satisfying nofun⟩
  | either first second ofFirst ofSecond =>
      obtain ⟨takesFirst, refusesFirst⟩ := ofFirst (every_of_child free (by simp))
      obtain ⟨takesSecond, refusesSecond⟩ := ofSecond (every_of_child free (by simp))
      have lawful := parse_lawful g depth first
      rw [parse_either, endFragments, acceptsEnd]
      cases accepts : first.acceptsEnd with
      | true => exact ⟨fun _ => takes_either_left (takesFirst accepts), nofun⟩
      | false =>
          have refused := refusesFirst accepts
          exact ⟨fun accepts => takes_either_right lawful refused (takesSecond accepts),
            fun accepts => refuses_either lawful refused (refusesSecond accepts)⟩
  | sequence parts =>
      rw [parse_sequence]
      exact ⟨nofun, fun _ => refuses_sequence_nil⟩
  | merge whole ofWhole =>
      obtain ⟨takes, refuses⟩ := ofWhole (every_of_child free (by simp))
      rw [parse_merge]
      refine ⟨fun accepts => ?_, fun accepts => refuses_merge (refuses accepts)⟩
      rw [endFragments, ← join_endFragments whole]
      exact takes_merge (takes accepts)
  | times part count ofPart =>
      obtain ⟨takes, refuses⟩ := ofPart (every_of_child free (by simp))
      rw [parse_times, acceptsEnd, Bool.or_eq_true, Bool.or_eq_false_iff, beq_iff_eq,
        beq_eq_false_iff_ne]
      constructor
      · rintro (rfl | accepts)
        · exact takes_times .none
        · exact takes_times (.replicate (takes accepts) count)
      · rintro ⟨some, accepts⟩
        exact refuses_times .none (refuses accepts) (Nat.pos_of_ne_zero some)
  | oneOrMore part =>
      have free : part.ChainFree := every_of_child free (by simp)
      refine ⟨nofun, fun _ => refuses_oneOrMore_nil (parse_lawful g depth part)
        (parse_forward g depth part) fun c _ => parse_answers_of_chainFree free depth c⟩
  | chain first label => exact absurd free (not_chainFree_chain first label)
  | fail => exact ⟨nofun, fun _ _ _ => rfl⟩

/-- **At the end of a text the tree decides.** Where no character is left, a parser without chains
stays where it is. Whether it matches, and with which fragments, is read off its tree: neither the
text nor the place makes a difference. -/
theorem end_of_text_is_static (g : Grammar κ) (depth : Nat) (free : p.ChainFree)
    (exhausted : c.length ≤ c.position) :
    (p.parse g depth c).cursor = c ∧
      (p.parse g depth c).ending =
        if p.acceptsEnd then .matched p.endFragments else .noMatch := by
  have ended : c.hasNext = false := c.hasNext_eq_false_iff.mpr exhausted
  have unread := Cursor.rest_eq_nil_iff.mpr ended
  obtain ⟨takes, refuses⟩ := takes_or_refuses_end g depth free
  cases accepts : p.acceptsEnd with
  | true =>
      obtain ⟨matched, -⟩ := takes accepts c unread
      obtain ⟨text, passes⟩ := parse_forward g depth p c _ matched
      exact ⟨passes.eq_of_exhausted ended, matched⟩
  | false =>
      have noMatch := refuses accepts c unread
      exact ⟨(parse_lawful g depth p).restores c noMatch, noMatch⟩

/-- A counted repetition of a grouping matches past the end, and a sequence of the same part does
not. -/
theorem counted_groupings_match_past_end :
    let empty : Parser Empty := merge (times any 0)
    let c : Cursor := ⟨#['a'], 3⟩
    (either (sequence [empty, empty]) (times empty 2)).ChainFree ∧ c.length ≤ c.position ∧
      ((either (sequence [empty, empty]) (times empty 2)).parse .chainFree 0 c).cursor = c ∧
      ((either (sequence [empty, empty]) (times empty 2)).parse .chainFree 0 c).ending =
        .matched ["", ""] ∧
      ((sequence [empty, empty]).parse .chainFree 0 c).ending = .noMatch := by
  intro empty c
  have past : c.length ≤ c.position := by decide
  have free : (either (sequence [empty, empty]) (times empty 2)).ChainFree := by decide +kernel
  have freePair : (sequence [empty, empty]).ChainFree := by decide +kernel
  obtain ⟨still, matched⟩ := end_of_text_is_static .chainFree 0 free past
  exact ⟨free, past, still, matched, (end_of_text_is_static .chainFree 0 freePair past).2⟩

end Parser

end Backtrack
