import Backtrack.Parser.Parse
import Backtrack.Proofs.Passage
import Backtrack.Proofs.Tree

/-!
The law of failure: no call changes the text, and one that finds nothing leaves the cursor where it
found it.

Choice and open repetition never go back by themselves. They keep the law only because their parts
do, so it is proved of every matcher at once: first of each way of putting matchers together, then
of a tree, and at last of continuations nested as deep as one likes.
-/

namespace Backtrack

variable {κ : Type}

namespace Matcher

/-- No call changes the text, and one that finds nothing does not move the cursor. -/
structure Lawful (m : Matcher κ) : Prop where
  data : ∀ c, (m c).cursor.data = c.data
  restores : ∀ c, (m c).ending = .noMatch → (m c).cursor = c

/-- Whoever keeps the text keeps the law by going back to where the call began. -/
theorem lawful_rewoundTo {m : Matcher κ} (data : ∀ c, (m c).cursor.data = c.data)
    (note : Cursor → Nat → Log κ) :
    Lawful fun c => (m c).rewoundTo c.checkpoint (note c) := by
  constructor
  · intro c
    rw [Report.data_rewoundTo, data]
  · intro c noMatch
    rw [Report.ending_rewoundTo] at noMatch
    rw [Report.rewoundTo_of_noMatch noMatch]
    exact Cursor.rewind_checkpoint_of_data (data c)

/-! ### Each way of putting matchers together -/

theorem lawful_still (ending : Ending) : Lawful (Report.still ending : Matcher κ) :=
  ⟨fun _ => rfl, fun _ _ => rfl⟩

/-- A single character is either passed or not. -/
theorem lawful_satisfying (accepts : Char → Bool) : Lawful (satisfying accepts : Matcher κ) := by
  constructor
  · intro c
    fun_cases satisfying accepts c with
    | case1 => rfl
    | case2 => exact Cursor.data_advance c
    | case3 => rfl
  · intro c
    fun_cases satisfying accepts c with
    | case1 => exact fun _ => rfl
    | case2 => exact nofun
    | case3 => exact fun _ => rfl

/-- A choice finds nothing where both alternatives do, and the second begins where the first went
back to. -/
theorem lawful_either {first second : Matcher κ} (ofFirst : Lawful first)
    (ofSecond : Lawful second) : Lawful (either first second) := by
  constructor
  · intro c
    by_cases noMatch : (first c).ending = .noMatch
    · rw [either_of_noMatch noMatch, Report.cursor_after, ofSecond.data, ofFirst.data]
    · rw [either_of_ne_noMatch noMatch, ofFirst.data]
  · intro c ended
    by_cases noMatch : (first c).ending = .noMatch
    · rw [either_of_noMatch noMatch] at ended ⊢
      rw [Report.cursor_after, ofSecond.restores _ ended, ofFirst.restores c noMatch]
    · rw [either_of_ne_noMatch noMatch] at ended
      exact absurd ended noMatch

/-- Parts in a row leave the text alone; they may well be left at a place in between. -/
theorem data_inOrder {parts : List (Matcher κ)} (ofParts : ∀ part ∈ parts, Lawful part)
    (c : Cursor) : (inOrder parts c).cursor.data = c.data := by
  induction parts generalizing c with
  | nil => rfl
  | cons part parts ih =>
      obtain ⟨ofPart, ofRest⟩ := List.forall_mem_cons.mp ofParts
      rcases (part c).matched_or_not with ⟨fragments, matched⟩ | other
      · rw [inOrder_cons_of_matched matched, Report.cursor_after, Report.cursor_mapFragments,
          ih ofRest, ofPart.data]
      · rw [inOrder_cons_of_not_matched other, ofPart.data]

/-- A sequence goes back to its start, wherever its parts got to. -/
theorem lawful_sequence {parts : List (Matcher κ)} (ofParts : ∀ part ∈ parts, Lawful part) :
    Lawful (sequence parts) := by
  have rewound := lawful_rewoundTo (data_inOrder ofParts)
    fun c reached => .ofEvent (.sequenceRewound reached c.position)
  constructor
  · intro c
    cases left : c.hasNext with
    | true => rw [sequence_of_hasNext left, rewound.data]
    | false => rw [sequence_of_exhausted left, Report.cursor_still]
  · intro c noMatch
    cases left : c.hasNext with
    | true =>
        rw [sequence_of_hasNext left] at noMatch ⊢
        exact rewound.restores c noMatch
    | false => rw [sequence_of_exhausted left, Report.cursor_still]

/-- A grouping does what its parser does, and goes back once more. -/
theorem lawful_merge {whole : Matcher κ} (ofWhole : Lawful whole) : Lawful (merge whole) := by
  refine lawful_rewoundTo (fun c => ?_) fun _ _ => ∅
  rw [Report.cursor_mapFragments, ofWhole.data]

/-- The rewind of a grouping does nothing: where its part found nothing, the part has gone back. -/
theorem merge_of_lawful {whole : Matcher κ} (lawful : Lawful whole) (c : Cursor) :
    merge whole c = (whole c).mapFragments fun fragments => [String.join fragments] := by
  by_cases noMatch : (whole c).ending = .noMatch
  · have restored := lawful.restores c noMatch
    rw [merge, Report.mapFragments_of_not_matched (Report.not_matched_of_noMatch noMatch),
      Report.rewoundTo_of_noMatch noMatch, Log.append_empty]
    cases report : whole c with
    | mk ending cursor log =>
        rw [report] at noMatch restored
        cases noMatch
        cases restored
        rfl
  · refine Report.rewoundTo_of_ne_noMatch ?_ _ _
    rcases (whole c).matched_or_not with ⟨fragments, matched⟩ | other
    · simp [Report.mapFragments_of_matched matched]
    · rwa [Report.mapFragments_of_not_matched other]

theorem data_attempts {part : Matcher κ} (ofPart : Lawful part) (count : Nat) (start : Checkpoint)
    (left : Nat) (found : Array String) (log : Log κ) (c : Cursor) :
    (attempts part count start left found log c).cursor.data = c.data := by
  fun_induction attempts part count start left found log c with
  | case1 => rfl
  | case2 left found log c r joined fragments matched ih => exact ih.trans (ofPart.data c)
  | case3 left found log c | case4 left found log c | case5 left found log c =>
      exact ofPart.data c

/-- A counted repetition ends without a match only by going back to its start. -/
theorem position_attempts (part : Matcher κ) (count : Nat) (start : Checkpoint) (left : Nat)
    (found : Array String) (log : Log κ) (c : Cursor)
    (noMatch : (attempts part count start left found log c).ending = .noMatch) :
    (attempts part count start left found log c).cursor.position = start.position := by
  fun_induction attempts part count start left found log c with
  | case1 => cases noMatch
  | case2 left found log c r joined fragments matched ih => exact ih noMatch
  | case3 => rfl
  | case4 => cases noMatch
  | case5 => cases noMatch

/-- A counted repetition goes back to the start of its first attempt. -/
theorem lawful_times {part : Matcher κ} (ofPart : Lawful part) (count : Nat) :
    Lawful (times part count) where
  data c := data_attempts ofPart count c.checkpoint count #[] ∅ c
  restores c noMatch :=
    Cursor.eq_of_data_of_position (data_attempts ofPart count c.checkpoint count #[] ∅ c)
      (position_attempts part count c.checkpoint count #[] ∅ c noMatch)

theorem data_rounds {part : Matcher κ} (ofPart : Lawful part) (budget matched : Nat)
    (found : Array String) (log : Log κ) (c : Cursor) :
    (rounds part budget matched found log c).cursor.data = c.data := by
  fun_induction rounds part budget matched found log c with
  | case3 matched found log c r joined fragments ended advanced budget ih =>
      exact ih.trans (ofPart.data c)
  | _ => exact ofPart.data _

/-- Rounds come to nothing only where none of them matched. -/
theorem closing_eq_noMatch_iff {matched : Nat} {found : Array String} :
    closing matched found = .noMatch ↔ matched = 0 := by
  unfold closing
  split
  · next none => exact iff_of_true rfl none
  · next some => exact iff_of_false nofun some

/-- An open repetition ends without a match only in its first round, which did not advance. -/
theorem rounds_noMatch {part : Matcher κ} (ofPart : Lawful part) (budget matched : Nat)
    (found : Array String) (log : Log κ) (c : Cursor)
    (noMatch : (rounds part budget matched found log c).ending = .noMatch) :
    matched = 0 ∧ (rounds part budget matched found log c).cursor = c := by
  fun_induction rounds part budget matched found log c with
  | case1 budget matched found log c r joined fragments ended same =>
      refine ⟨closing_eq_noMatch_iff.mp noMatch, ?_⟩
      exact Cursor.eq_of_data_of_position (ofPart.data c) (congrArg Checkpoint.position same)
  | case2 => cases noMatch
  | case3 matched found log c r joined fragments ended advanced budget ih =>
      exact absurd (ih noMatch).1 (Nat.succ_ne_zero matched)
  | case4 budget matched found log c r joined ended =>
      exact ⟨closing_eq_noMatch_iff.mp noMatch, ofPart.restores c ended⟩
  | case5 => cases noMatch
  | case6 => cases noMatch

/-- An open repetition that finds nothing has not left its start. -/
theorem lawful_oneOrMore {part : Matcher κ} (ofPart : Lawful part) : Lawful (oneOrMore part) where
  data c := data_rounds ofPart c.remaining 0 #[] ∅ c
  restores c noMatch := (rounds_noMatch ofPart c.remaining 0 #[] ∅ c noMatch).2

/-- A chain goes back to its start where its second half finds nothing. -/
theorem lawful_chain {first : Matcher κ} {next : List String → Option (Parser κ)}
    {call : Parser κ → Matcher κ} (ofFirst : Lawful first) (ofCall : ∀ p, Lawful (call p)) :
    Lawful (chain first next call) := by
  constructor
  · intro c
    rcases (first c).matched_or_not with ⟨fragments, matched⟩ | other
    · cases onward : next fragments with
      | none => rw [chain_of_none matched onward, Report.cursor_after, Report.cursor_still,
          ofFirst.data]
      | some continuation => rw [chain_of_some matched onward, Report.cursor_after,
          Report.data_rewoundTo, (ofCall continuation).data, ofFirst.data]
    · rw [chain_of_not_matched other, ofFirst.data]
  · intro c noMatch
    rcases (first c).matched_or_not with ⟨fragments, matched⟩ | other
    · cases onward : next fragments with
      | none =>
          rw [chain_of_none matched onward] at noMatch
          cases noMatch
      | some continuation =>
          rw [chain_of_some matched onward, Report.ending_after, Report.ending_rewoundTo] at noMatch
          rw [chain_of_some matched onward, Report.cursor_after,
            Report.rewoundTo_of_noMatch noMatch]
          -- The chain began at `c`, so this goes back over the first match as well.
          exact Cursor.rewind_checkpoint_of_data
            (((ofCall continuation).data _).trans (ofFirst.data c))
    · rw [chain_of_not_matched other] at noMatch ⊢
      exact ofFirst.restores c noMatch

end Matcher

/-! ### Trees and continuations -/

namespace Parser

open Matcher

variable {g : Grammar κ} {call : Parser κ → Matcher κ}

theorem matcher_sequence (g : Grammar κ) (call : Parser κ → Matcher κ)
    (parts : List (Parser κ)) :
    matcher g call (sequence parts) = Matcher.sequence (parts.map (matcher g call)) := by
  rw [matcher, matchers_eq_map]

/-- One level of a tree, by induction on the tree. -/
theorem matcher_lawful (ofCall : ∀ p, Lawful (call p)) (p : Parser κ) :
    Lawful (matcher g call p) := by
  induction p with
  | literal expected => exact lawful_satisfying _
  | any => exact lawful_satisfying _
  | anyExcept excluded => exact lawful_satisfying _
  | either first second ofFirst ofSecond => exact lawful_either ofFirst ofSecond
  | sequence parts ofParts =>
      rw [matcher_sequence]
      exact lawful_sequence (List.forall_mem_map.mpr ofParts)
  | merge whole ofWhole => exact lawful_merge ofWhole
  | times part count ofPart => exact lawful_times ofPart count
  | oneOrMore part ofPart => exact lawful_oneOrMore ofPart
  | chain first label ofFirst => exact lawful_chain ofFirst ofCall
  | fail => exact lawful_still _

/-- What chains go on with keeps the law, by induction on the depth. -/
theorem onward_lawful (g : Grammar κ) (depth : Nat) (p : Parser κ) :
    Lawful (onward g depth p) := by
  induction depth generalizing p with
  | zero => exact lawful_still _
  | succ depth ih => exact matcher_lawful ih p

/-- Every parser keeps the law, whatever its chains go on with. -/
theorem parse_lawful (g : Grammar κ) (depth : Nat) (p : Parser κ) : Lawful (p.parse g depth) :=
  matcher_lawful (onward_lawful g depth) p

/-- A grouping does what joining the fragments of its part does. -/
theorem parse_merge_eq_parseMerged (g : Grammar κ) (depth : Nat) (whole : Parser κ) :
    (merge whole).parse g depth = whole.parseMerged g depth := by
  rw [parse_merge]
  exact funext (merge_of_lawful (parse_lawful g depth whole))

end Parser

end Backtrack
