import Backtrack.Proofs.Termination

/-!
Characters are compared for equality, and nothing else is asked of them.

Give every character of a tree without chains another name, different ones different names, and
rename the text in the same way. Then every test of a character comes out as before, so the parse
takes the same course: it reaches the same places, notes the same events, and matches the renamed
fragments. A name may be written with more bytes or with fewer; positions count characters.
-/

namespace Backtrack

variable {κ : Type} {rename : Char → Char}

/-! ### Renamed cursors and reports -/

/-- The same place in the text with its characters renamed. -/
def Cursor.renamed (rename : Char → Char) (c : Cursor) : Cursor :=
  { c with data := c.data.map rename }

/-- The ending, with the fragments of a match renamed. -/
def Ending.renamed (rename : Char → Char) : Ending → Ending
  | .matched fragments => .matched (fragments.map (String.map rename))
  | .noMatch => .noMatch
  | .aborted => .aborted
  | .unfinished => .unfinished

/-- The report as the renamed text gives it. Events are kept: outside of chains they tell of places
and counts only. -/
def Report.renamed (rename : Char → Char) (r : Report κ) : Report κ :=
  ⟨r.ending.renamed rename, r.cursor.renamed rename, r.log⟩

/-- The outcome, with its fragments and its remainder renamed. -/
def Outcome.renamed (rename : Char → Char) (o : Outcome) : Outcome :=
  ⟨o.fragments?.map (List.map (String.map rename)), o.remainder.map rename⟩

namespace Cursor

@[simp] theorem position_renamed (rename : Char → Char) (c : Cursor) :
    (c.renamed rename).position = c.position := rfl

@[simp] theorem checkpoint_renamed (rename : Char → Char) (c : Cursor) :
    (c.renamed rename).checkpoint = c.checkpoint := rfl

/-- Places do not depend on characters, so going back is the same on the renamed text. -/
theorem rewind_renamed (rename : Char → Char) (c : Cursor) (start : Checkpoint) :
    (c.renamed rename).rewind start = (c.rewind start).renamed rename := rfl

@[simp] theorem length_renamed (rename : Char → Char) (c : Cursor) :
    (c.renamed rename).length = c.length :=
  Array.size_map

/-- Renaming keeps the number of characters, and with it what is left. -/
@[simp] theorem remaining_renamed (rename : Char → Char) (c : Cursor) :
    (c.renamed rename).remaining = c.remaining := by
  rw [remaining, remaining, length_renamed, position_renamed]

@[simp] theorem hasNext_renamed (rename : Char → Char) (c : Cursor) :
    (c.renamed rename).hasNext = c.hasNext := by
  rw [hasNext, hasNext, length_renamed, position_renamed]

/-- The next character is the renamed one. -/
theorem peek?_renamed (rename : Char → Char) (c : Cursor) :
    (c.renamed rename).peek? = c.peek?.map rename :=
  Array.getElem?_map

theorem advance_renamed (rename : Char → Char) (c : Cursor) :
    (c.renamed rename).advance = c.advance.renamed rename := by
  rw [advance, advance, hasNext_renamed]
  split
  · rfl
  · rfl

theorem rest_renamed (rename : Char → Char) (c : Cursor) :
    (c.renamed rename).rest = c.rest.map rename := by
  rw [rest, rest, renamed, Array.toList_map, List.map_drop]

/-- A cursor at the start of a text, renamed, is one at the start of the renamed text. -/
theorem renamed_ofString (rename : Char → Char) (text : String) :
    (ofString text).renamed rename = ofString (text.map rename) := by
  rw [ofString, ofString, renamed, String.toList_map, List.map_toArray]

end Cursor

namespace Report

variable {f f' : List String → List String}

/-- Renaming goes through a change of fragments that does not look at their characters. -/
theorem renamed_mapFragments (r : Report κ)
    (maps : ∀ fragments, f' (fragments.map (String.map rename)) =
      (f fragments).map (String.map rename)) :
    (r.mapFragments f).renamed rename = (r.renamed rename).mapFragments f' := by
  cases r with
  | mk ending cursor log =>
      cases ending with
      | matched fragments =>
          exact congrArg (Report.mk · _ log) (congrArg Ending.matched (maps fragments).symm)
      | _ => rfl

/-- A match goes on in the renamed text where it goes on in the text. -/
theorem renamed_andThen (r : Report κ) {next next' : List String → Matcher κ}
    (ofNext : ∀ fragments c, next' (fragments.map (String.map rename)) (c.renamed rename) =
      (next fragments c).renamed rename) :
    (r.andThen next).renamed rename = (r.renamed rename).andThen next' := by
  cases r with
  | mk ending cursor log =>
      cases ending with
      | matched fragments => exact congrArg (after · log) (ofNext fragments cursor).symm
      | _ => rfl

/-- The second attempt is the renamed second attempt. -/
theorem renamed_orElse (r : Report κ) {next next' : Matcher κ}
    (ofNext : ∀ c, next' (c.renamed rename) = (next c).renamed rename) :
    (r.orElse next).renamed rename = (r.renamed rename).orElse next' := by
  cases r with
  | mk ending cursor log =>
      cases ending with
      | noMatch => exact congrArg (after · log) (ofNext cursor).symm
      | _ => rfl

/-- Going back, and the note of it, hold places only. -/
theorem renamed_rewoundTo (r : Report κ) (start : Checkpoint) (note : Nat → Log κ) :
    (r.rewoundTo start note).renamed rename = (r.renamed rename).rewoundTo start note := by
  cases r with
  | mk ending cursor log => cases ending <;> rfl

end Report

namespace Matcher

open Report

/-! ### Renamed fragments -/

theorem map_singleton (rename : Char → Char) (x : Char) :
    (String.singleton x).map rename = String.singleton (rename x) := by
  rw [← String.toList_inj, String.toList_map, String.toList_singleton, String.toList_singleton,
    List.map_singleton]

theorem map_ofList (rename : Char → Char) (text : List Char) :
    (String.ofList text).map rename = String.ofList (text.map rename) := by
  rw [← String.toList_inj, String.toList_map, String.toList_ofList, String.toList_ofList]

/-- Joining renamed fragments gives the renamed text. -/
theorem join_map_map (rename : Char → Char) (fragments : List String) :
    String.join (fragments.map (String.map rename)) = (String.join fragments).map rename := by
  rw [← String.toList_inj, String.toList_map, String.toList_join, String.toList_join,
    List.map_flatMap, List.flatMap_map]
  simp only [String.toList_map]

/-- What is found is renamed as it comes in. -/
theorem map_appendList (found : Array String) (fragments : List String) :
    (found ++ fragments).map (String.map rename) =
      found.map (String.map rename) ++ fragments.map (String.map rename) := by
  rw [← Array.toList_inj, Array.toList_map, Array.toList_appendList, Array.toList_appendList,
    List.map_append, Array.toList_map]

/-! ### Each way of putting matchers together -/

/-- On a renamed text the second matcher does what the first does on the text itself. -/
def Renames (rename : Char → Char) (m m' : Matcher κ) : Prop :=
  ∀ c, m' (c.renamed rename) = (m c).renamed rename

variable {part part' : Matcher κ}

theorem renames_still (ending : Ending) (same : ending.renamed rename = ending) :
    Renames rename (Report.still ending : Matcher κ) (Report.still ending) :=
  fun c => congrArg (Report.mk · (c.renamed rename) ∅) same.symm

/-- A single character passes if and only if its new name passes. -/
theorem renames_satisfying {accepts accepts' : Char → Bool}
    (same : ∀ x, accepts' (rename x) = accepts x) :
    Renames rename (satisfying accepts : Matcher κ) (satisfying accepts') := by
  intro c
  unfold satisfying
  rw [Cursor.peek?_renamed, Cursor.advance_renamed]
  cases c.peek? with
  | none => rfl
  | some x =>
      simp only [Option.map_some, same]
      split
      · simp only [Report.renamed, Ending.renamed, List.map_singleton, map_singleton]
      · rfl

/-- A choice of renamed parsers is the renamed choice. -/
theorem renames_either {first first' second second' : Matcher κ}
    (ofFirst : Renames rename first first') (ofSecond : Renames rename second second') :
    Renames rename (either first second) (either first' second') := by
  intro c
  rw [either, either, ofFirst c, renamed_orElse _ ofSecond]

/-- So are renamed parts in a row; both rows are given over one list, so that they have the same
length. -/
theorem renames_inOrder {α : Type} {parts : List α} {f f' : α → Matcher κ}
    (ofParts : ∀ part ∈ parts, Renames rename (f part) (f' part)) :
    Renames rename (inOrder (parts.map f)) (inOrder (parts.map f')) := by
  induction parts with
  | nil => exact renames_still _ rfl
  | cons part parts ih =>
      intro c
      obtain ⟨ofPart, ofRest⟩ := List.forall_mem_cons.mp ofParts
      rw [List.map_cons, List.map_cons, inOrder, inOrder]
      simp only [ofPart c]
      refine (renamed_andThen _ fun fragments here => ?_).symm
      rw [ih ofRest here]
      exact (renamed_mapFragments _ fun more => List.map_append.symm).symm

/-- A sequence fails at the end of the text, and renaming does not move that end. -/
theorem renames_sequence {α : Type} {parts : List α} {f f' : α → Matcher κ}
    (ofParts : ∀ part ∈ parts, Renames rename (f part) (f' part)) :
    Renames rename (sequence (parts.map f)) (sequence (parts.map f')) := by
  intro c
  rw [sequence, sequence, Cursor.hasNext_renamed]
  split
  · rw [renames_inOrder ofParts c, renamed_rewoundTo]
    rfl
  · rfl

/-- Fragments may be joined before they are renamed or after. -/
theorem renames_merge {whole whole' : Matcher κ} (ofWhole : Renames rename whole whole') :
    Renames rename (merge whole) (merge whole') := by
  intro c
  rw [merge, merge, ofWhole c, renamed_rewoundTo, ← renamed_mapFragments]
  · rfl
  · exact fun fragments => congrArg ([·]) (join_map_map rename fragments)

/-- The attempts of a counted repetition, with the fragments found so far renamed as well. -/
theorem renames_attempts (ofPart : Renames rename part part') (count : Nat) (start : Checkpoint)
    (left : Nat) (found : Array String) (log : Log κ) (c : Cursor) :
    attempts part' count start left (found.map (String.map rename)) log (c.renamed rename) =
      (attempts part count start left found log c).renamed rename := by
  induction left generalizing found log c with
  | zero => rw [attempts, attempts, Report.renamed, Ending.renamed, Array.toList_map]
  | succ left ih =>
      rw [attempts, attempts]
      simp only [ofPart c]
      cases ended : (part c).ending with
      | matched fragments =>
          simp only [Report.renamed, ended, Ending.renamed, ← map_appendList]
          exact ih _ _ _
      | _ =>
          simp only [Report.renamed, ended, Ending.renamed, Cursor.position_renamed,
            Cursor.rewind_renamed]

theorem renames_times (ofPart : Renames rename part part') (count : Nat) :
    Renames rename (times part count) (times part' count) := by
  intro c
  have attempted := renames_attempts ofPart count c.checkpoint count #[] ∅ c
  rwa [Array.map_empty] at attempted

theorem renamed_closing (matched : Nat) (found : Array String) :
    (closing matched found).renamed rename =
      closing matched (found.map (String.map rename)) := by
  unfold closing
  split
  · rfl
  · rw [Ending.renamed, Array.toList_map]

/-- The rounds of an open repetition. Renaming moves no cursor, so they stop at the same round. -/
theorem renames_rounds (ofPart : Renames rename part part') (budget matched : Nat)
    (found : Array String) (log : Log κ) (c : Cursor) :
    rounds part' budget matched (found.map (String.map rename)) log (c.renamed rename) =
      (rounds part budget matched found log c).renamed rename := by
  -- Both loops see the same positions, so they stop in the same round.
  fun_induction rounds part budget matched found log c with
  | case1 budget matched found log c r joined fragments ended still =>
      have here : part' (c.renamed rename) = r.renamed rename := ofPart c
      rw [Report.renamed, renamed_closing, rounds]
      simp only [here, Report.renamed, ended, Ending.renamed, Cursor.checkpoint_renamed, still,
        if_true, Cursor.position_renamed, joined]
  | case2 matched found log c r joined fragments ended advanced =>
      have here : part' (c.renamed rename) = r.renamed rename := ofPart c
      rw [rounds]
      simp only [here, Report.renamed, ended, Ending.renamed, Cursor.checkpoint_renamed, advanced,
        if_false, joined]
  | case3 matched found log c r joined fragments ended advanced budget ih =>
      have here : part' (c.renamed rename) = r.renamed rename := ofPart c
      rw [rounds]
      simp only [here, Report.renamed, ended, Ending.renamed, Cursor.checkpoint_renamed, advanced,
        if_false, ← map_appendList]
      exact ih
  | case4 budget matched found log c r joined ended =>
      have here : part' (c.renamed rename) = r.renamed rename := ofPart c
      rw [Report.renamed, renamed_closing, rounds]
      simp only [here, Report.renamed, ended, Ending.renamed, joined]
  | case5 budget matched found log c r joined ended
  | case6 budget matched found log c r joined ended =>
      have here : part' (c.renamed rename) = r.renamed rename := ofPart c
      rw [rounds]
      simp only [here, Report.renamed, ended, Ending.renamed, joined]

theorem renames_oneOrMore (ofPart : Renames rename part part') :
    Renames rename (oneOrMore part) (oneOrMore part') := by
  intro c
  have ran := renames_rounds ofPart c.remaining 0 #[] ∅ c
  rw [Array.map_empty] at ran
  rwa [oneOrMore, oneOrMore, Cursor.remaining_renamed]

end Matcher

/-! ### Renamed trees -/

namespace Parser

open Matcher

mutual

/-- The tree with all its characters renamed. -/
def renamed (rename : Char → Char) : Parser κ → Parser κ
  | literal expected => literal (rename expected)
  | any => any
  | anyExcept excluded => anyExcept (rename excluded)
  | either first second => either (renamed rename first) (renamed rename second)
  | sequence parts => sequence (renamedEach rename parts)
  | merge whole => merge (renamed rename whole)
  | times part count => times (renamed rename part) count
  | oneOrMore part => oneOrMore (renamed rename part)
  | chain first label => chain (renamed rename first) label
  | fail => fail

/-- The trees with all their characters renamed. -/
def renamedEach (rename : Char → Char) : List (Parser κ) → List (Parser κ)
  | [] => []
  | part :: parts => renamed rename part :: renamedEach rename parts

end

/-- Renaming a list of trees is renaming each of them. -/
theorem renamedEach_eq_map (rename : Char → Char) (parts : List (Parser κ)) :
    renamedEach rename parts = parts.map (renamed rename) := by
  induction parts with
  | nil => rfl
  | cons part parts ih => rw [renamedEach, ih, List.map_cons]

theorem renamed_sequence (rename : Char → Char) (parts : List (Parser κ)) :
    (sequence parts).renamed rename = sequence (parts.map (renamed rename)) := by
  rw [renamed, renamedEach_eq_map]

variable {p : Parser κ}

/-- Different characters have different names, so a character is the expected one just when its name
is the expected name. -/
theorem parse_renames (g : Grammar κ) (depth : Nat) (injective : Function.Injective rename)
    (free : p.ChainFree) :
    Renames rename (p.parse g depth) ((p.renamed rename).parse g depth) := by
  have same : ∀ x y, (rename x == rename y) = (x == y) := fun x y => by
    rw [Bool.eq_iff_iff, beq_iff_eq, beq_iff_eq, injective.eq_iff]
  -- Only single characters are tested; everything around them goes by places and endings.
  induction p with
  | literal expected => exact renames_satisfying fun x => same x expected
  | any => exact renames_satisfying fun _ => rfl
  | anyExcept excluded => exact renames_satisfying fun x => congrArg (!·) (same x excluded)
  | either first second ofFirst ofSecond =>
      exact renames_either (ofFirst (every_of_child free (by simp)))
        (ofSecond (every_of_child free (by simp)))
  | sequence parts ofParts =>
      rw [renamed_sequence, parse_sequence, parse_sequence, List.map_map]
      exact renames_sequence fun part mem => ofParts part mem (every_of_child free mem)
  | merge whole ofWhole => exact renames_merge (ofWhole (every_of_child free (by simp)))
  | times part count ofPart => exact renames_times (ofPart (every_of_child free (by simp))) count
  | oneOrMore part ofPart => exact renames_oneOrMore (ofPart (every_of_child free (by simp)))
  | chain first label => exact absurd free (not_chainFree_chain first label)
  | fail => exact renames_still _ rfl

theorem answer?_renamed (ending : Ending) :
    (ending.renamed rename).answer? =
      ending.answer?.map (Option.map (List.map (String.map rename))) := by
  cases ending <;> rfl

/-- A run over the renamed text comes to the renamed outcome. -/
theorem run_renamed (g : Grammar κ) (depth : Nat) (injective : Function.Injective rename)
    (free : p.ChainFree) (text : String) :
    ∃ outcome, (p.run g depth text).completion = .finished outcome ∧
      ((p.renamed rename).run g depth (text.map rename)).completion =
        .finished (outcome.renamed rename) := by
  have renames := parse_renames g depth injective free (.ofString text)
  rw [Cursor.renamed_ofString] at renames
  obtain ⟨answer, answered⟩ := parse_answers_of_chainFree (g := g) free depth (.ofString text)
  have answered' : ((p.renamed rename).parse g depth (.ofString (text.map rename))).ending.answer? =
      some (answer.map (List.map (String.map rename))) := by
    rw [renames, Report.renamed, answer?_renamed, answered, Option.map_some]
  refine ⟨_, run_of_answer answered, ?_⟩
  rw [run_of_answer answered', renames, Report.renamed, Cursor.rest_renamed, Outcome.renamed,
    map_ofList]

/-- **Characters are only compared.** Rename the characters of a tree without chains and of the
text, different ones to different ones. From any place both parsers find nothing, or both match: the
fragments are renamed one by one, so there are as many of them and each has as many characters. The
cursor ends at the same position, and the same events are noted. A run on the renamed text comes to
the renamed outcome. -/
theorem characters_are_only_compared (g : Grammar κ) (depth : Nat)
    (injective : Function.Injective rename) (free : p.ChainFree) :
    (∀ c : Cursor,
      let report := p.parse g depth c
      let report' := (p.renamed rename).parse g depth (c.renamed rename)
      (report.ending = .noMatch ∧ report'.ending = .noMatch ∨
        ∃ fragments fragments', report.ending = .matched fragments ∧
          report'.ending = .matched fragments' ∧
          fragments' = fragments.map (String.map rename) ∧
          fragments'.map String.length = fragments.map String.length) ∧
      report'.cursor = report.cursor.renamed rename ∧
      report'.cursor.position = report.cursor.position ∧
      report'.log = report.log) ∧
    ∀ text, ∃ outcome, (p.run g depth text).completion = .finished outcome ∧
      ((p.renamed rename).run g depth (text.map rename)).completion =
        .finished (outcome.renamed rename) := by
  refine ⟨fun c => ?_, run_renamed g depth injective free⟩
  have renames := parse_renames g depth injective free c
  simp only [renames]
  refine ⟨?_, rfl, rfl, rfl⟩
  rcases matched_or_noMatch (parse_answers_of_chainFree (g := g) free depth c) with
    ⟨fragments, matched⟩ | noMatch
  · refine Or.inr ⟨fragments, _, matched, ?_, rfl, ?_⟩
    · rw [Report.renamed, matched, Ending.renamed]
    · simp only [List.map_map, Function.comp_def, String.length_map]
  · refine Or.inl ⟨noMatch, ?_⟩
    rw [Report.renamed, noMatch, Ending.renamed]

/-- A letter of one byte in the place of a character of four, and the other way round. -/
theorem wide_character_takes_no_more_room :
    let swap : Char → Char := fun x => if x = 'a' then '😀' else if x = '😀' then 'a' else x
    let p : Parser Empty := sequence [merge (oneOrMore (anyExcept 'a')), literal 'a']
    let c : Cursor := ⟨#['a', 'b', '😀', 'a'], 1⟩
    Function.Injective swap ∧ p.ChainFree ∧
      (p.parse .chainFree 0 c).ending = .matched ["b😀", "a"] ∧
      ((p.renamed swap).parse .chainFree 0 (c.renamed swap)).ending = .matched ["ba", "😀"] ∧
      ((p.renamed swap).parse .chainFree 0 (c.renamed swap)).cursor.position =
        (p.parse .chainFree 0 c).cursor.position := by
  intro swap p c
  have injective : Function.Injective swap := by
    intro x y same
    grind
  have free : p.ChainFree := by decide +kernel
  have matched : (p.parse .chainFree 0 c).ending = .matched ["b😀", "a"] := by decide +kernel
  have renamed : ["b😀", "a"].map (String.map swap) = ["ba", "😀"] := by decide +kernel
  obtain ⟨places, -⟩ := characters_are_only_compared .chainFree 0 injective free
  obtain ⟨⟨noMatch, -⟩ | ⟨fragments, fragments', here, there, rfl, -⟩, -, position, -⟩ := places c
  · cases matched.symm.trans noMatch
  · cases matched.symm.trans here
    rw [renamed] at there
    exact ⟨injective, free, matched, there, position⟩

/-- If two characters get one name, a character that was not expected may have the expected name. -/
example :
    ((literal 'a' : Parser Empty).outcome "b").isSuccess = false ∧
      (((literal 'a' : Parser Empty).renamed fun _ => 'c').outcome
        ("b".map fun _ => 'c')).isSuccess = true := by
  decide +kernel

end Parser

end Backtrack
