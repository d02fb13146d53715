import Backtrack.Proofs.Fragments
import Backtrack.Proofs.Recognition

/-!
Character classes and their runs.

A choice of single characters, grouped or not, is a test of one character: such a tree does what a
single test does that asks for the union (`parse_class`). Repeated as often as it matches it takes
the longest run of characters in the class, as the first character outside stops it, or the end of
the text.
-/

namespace Backtrack

variable {κ : Type} {accepts : Char → Bool}

/-! ### Longest runs -/

/-- The longest run of characters that pass the test, with which a text begins. -/
structure LongestRun (accepts : Char → Bool) (text run : List Char) : Prop where
  begins : run <+: text
  accepted : ∀ x ∈ run, accepts x = true
  longest : ∀ other, other <+: text → (∀ x ∈ other, accepts x = true) →
    other.length ≤ run.length

namespace LongestRun

variable {text run rest : List Char}

theorem unique {other : List Char} (first : LongestRun accepts text run)
    (second : LongestRun accepts text other) : run = other := by
  have le := second.longest run first.begins first.accepted
  have ge := first.longest other second.begins second.accepted
  exact (List.prefix_of_prefix_length_le first.begins second.begins le).eq_of_length
    (Nat.le_antisymm le ge)

/-- A run is the longest one if the character behind it does not pass. -/
theorem of_append (accepted : ∀ x ∈ run, accepts x = true)
    (ends : ∀ x, rest.head? = some x → accepts x = false) :
    LongestRun accepts (run ++ rest) run where
  begins := List.prefix_append run rest
  accepted := accepted
  longest other begins passed := by
    refine Nat.not_lt.mp fun longer => ?_
    -- A longer run would hold the character behind this one.
    obtain ⟨more, rfl⟩ := List.prefix_of_prefix_length_le (List.prefix_append run rest) begins
      (Nat.le_of_lt longer)
    cases more with
    | nil => simp at longer
    | cons x more =>
        obtain ⟨tail, rfl⟩ := (List.prefix_append_right_inj run).mp begins
        have rejected := ends x rfl
        rw [passed x (by simp)] at rejected
        cases rejected

end LongestRun

namespace Matcher

variable {m : Matcher κ} {shown : List Char → List String}

/-- From any place the matcher takes the longest run of characters that pass the test, with the
fragments that `shown` says. Where this run is empty it finds nothing and stays. -/
def TakesLongestRun (accepts : Char → Bool) (shown : List Char → List String) (m : Matcher κ) :
    Prop :=
  ∀ c, ∃ run, LongestRun accepts c.rest run ∧
    (run = [] → (m c).ending = .noMatch ∧ (m c).cursor = c) ∧
    (run ≠ [] → (m c).ending = .matched (shown run) ∧ c.Passes run (m c).cursor)

/-- It is enough to take each run up to where it ends, and to refuse a text that begins with
none. -/
theorem takesLongestRun_of_takes (lawful : Lawful m) (forward : Forward m)
    (takes : ∀ run rest, run ≠ [] → (∀ x ∈ run, accepts x = true) →
      (∀ x, rest.head? = some x → accepts x = false) → Takes m (run ++ rest) (shown run) rest)
    (refuses : ∀ text, (∀ x, text.head? = some x → accepts x = false) → Refuses m text) :
    TakesLongestRun accepts shown m := by
  intro c
  obtain ⟨run, rest, unread, accepted, ends⟩ := exists_run_append accepts c.rest
  refine ⟨run, unread ▸ .of_append accepted ends, ?_, fun nonempty => ?_⟩
  · rintro rfl
    have noMatch := refuses rest ends c unread
    exact ⟨noMatch, lawful.restores c noMatch⟩
  · have taken := takes run rest nonempty accepted ends
    exact ⟨(taken c unread).1, taken.passes forward unread⟩

/-! ### Tests of one character -/

section Tests

variable (accepts)

theorem spells_satisfying_anything :
    Spells (fun _ _ => True) (satisfying accepts : Matcher κ) :=
  spells_satisfying anything_spelling accepts

/-- A test of a character recognizes the characters that pass it. -/
theorem recognizes_satisfying :
    Recognizes (satisfying accepts : Matcher κ) (fun x : { x // accepts x = true } => [x.val])
      fun x => [String.singleton x.val] := by
  refine recognizes_of_takes (lawful_satisfying accepts)
    (spells_anything_iff.mp (spells_satisfying_anything accepts)) ?_ ?_ ?_
  · intro x y same
    exact Subtype.ext (List.singleton_inj.mp same)
  · rintro ⟨x, accepted⟩ rest
    exact takes_satisfying accepted rest
  · intro text elsewhere
    refine refuses_satisfying fun x first => Bool.eq_false_iff.mpr fun accepted => ?_
    obtain ⟨rest, rfl⟩ := List.head?_eq_some_iff.mp first
    exact elsewhere ⟨x, accepted⟩ rest rfl

theorem takesLongestRun_oneOrMore :
    TakesLongestRun accepts (List.map String.singleton)
      (oneOrMore (satisfying accepts) : Matcher κ) := by
  have lawful := lawful_satisfying (κ := κ) accepts
  refine takesLongestRun_of_takes (lawful_oneOrMore lawful) ?_ (fun _ _ => takes_run)
    fun _ ends => refuses_oneOrMore (refuses_satisfying ends)
  exact spells_anything_iff.mp
    (spells_oneOrMore anything_spelling lawful (spells_satisfying_anything accepts))

theorem takesLongestRun_merge :
    TakesLongestRun accepts (fun run => [String.ofList run])
      (merge (oneOrMore (satisfying accepts)) : Matcher κ) := by
  have lawful := lawful_satisfying (κ := κ) accepts
  refine takesLongestRun_of_takes (lawful_merge (lawful_oneOrMore lawful)) ?_
    (fun _ _ => takes_merge_run)
    fun _ ends => refuses_merge (refuses_oneOrMore (refuses_satisfying ends))
  exact spells_anything_iff.mp (spells_merge (fun _ => trivial)
    (spells_oneOrMore anything_spelling lawful (spells_satisfying_anything accepts)))

/-- A choice between two tests is a test for either. -/
theorem either_satisfying (accepts' : Char → Bool) :
    either (satisfying accepts) (satisfying accepts') =
      (satisfying fun x => accepts x || accepts' x : Matcher κ) := by
  funext c
  cases read : c.peek? with
  | none => simp [either, satisfying, Report.orElse, Report.after, Report.still, read]
  | some x =>
      cases accepted : accepts x with
      | true => simp [either, satisfying, Report.orElse, read, accepted]
      | false =>
          -- The first test has left the cursor and the log alone.
          simp [either, satisfying, Report.orElse, Report.after, Report.still, read, accepted]

/-- A grouping of one character is that character. -/
theorem merge_satisfying :
    merge (satisfying accepts) = (satisfying accepts : Matcher κ) := by
  funext c
  rw [merge_of_lawful (lawful_satisfying accepts)]
  fun_cases satisfying accepts c with
  | case1 => rfl
  | case2 x => simp only [Report.mapFragments, join_single]
  | case3 => rfl

end Tests

/-- A test that no character passes finds nothing anywhere. -/
theorem satisfying_nothing :
    (satisfying fun _ => false : Matcher κ) = Report.still .noMatch := by
  funext c
  unfold satisfying
  cases c.peek? with
  | none => rfl
  | some x => rfl

end Matcher

/-! ### Trees of characters -/

namespace Parser

open Matcher

/-- Whether a parser may occur in a character class. -/
def isClassPart : Parser κ → Bool
  | literal _ | any | anyExcept _ | fail | either .. | merge _ => true
  | sequence _ | times .. | oneOrMore _ | chain .. => false

/-- A character class is made of single characters, choice and grouping. -/
abbrev CharacterClass (p : Parser κ) : Prop :=
  p.every isClassPart = true

/-- Whether a character is in the class. No character is in a tree that is none. -/
def admits : Parser κ → Char → Bool
  | literal expected => (· == expected)
  | any => fun _ => true
  | anyExcept excluded => (· != excluded)
  | fail => fun _ => false
  | either first second => fun x => first.admits x || second.admits x
  | merge whole => whole.admits
  | sequence _ | times .. | oneOrMore _ | chain .. => fun _ => false

variable {p : Parser κ}

/-- A class does what the test of its characters does, down to the log. -/
theorem parse_class (g : Grammar κ) (depth : Nat) (ofClass : p.CharacterClass) :
    p.parse g depth = satisfying p.admits := by
  induction p with
  | literal | any | anyExcept => rfl
  | either first second ofFirst ofSecond =>
      rw [parse_either, ofFirst (every_of_child ofClass (by simp)),
        ofSecond (every_of_child ofClass (by simp)), either_satisfying, admits]
  | merge whole ofWhole =>
      rw [parse_merge, ofWhole (every_of_child ofClass (by simp)), merge_satisfying, admits]
  | fail => exact satisfying_nothing.symm
  | sequence | times | oneOrMore | chain => cases (every_iff.mp ofClass).1

/-- **A class is one character, and repeated it is the longest run.** A tree of single characters,
choice and grouping matches exactly where a character is left and is in the class; it takes this
character, as one fragment. Repeated it takes all characters up to the first that is not in the
class, one a fragment, or all in one fragment where the repetition is grouped. Where there are none
it finds nothing and stays. -/
theorem class_takes_longest_run (g : Grammar κ) (depth : Nat) (ofClass : p.CharacterClass) :
    Recognizes (p.parse g depth) (fun x : { x // p.admits x = true } => [x.val])
        (fun x => [String.singleton x.val]) ∧
      TakesLongestRun p.admits (List.map String.singleton) ((oneOrMore p).parse g depth) ∧
      TakesLongestRun p.admits (fun run => [String.ofList run])
        ((merge (oneOrMore p)).parse g depth) := by
  rw [parse_merge, parse_oneOrMore, parse_class g depth ofClass]
  exact ⟨recognizes_satisfying _, takesLongestRun_oneOrMore _, takesLongestRun_merge _⟩

/-- A class of two characters, put together with a parser that never matches. -/
theorem dashes_and_dots_are_taken :
    let p : Parser Empty := either fail (merge (either (literal '-') (literal '.')))
    let c : Cursor := ⟨#['x', '-', '.', 'x'], 1⟩
    p.CharacterClass ∧ LongestRun p.admits c.rest ['-', '.'] ∧
      ((oneOrMore p).parse .chainFree 0 c).ending = .matched ["-", "."] ∧
      ((merge (oneOrMore p)).parse .chainFree 0 c).ending = .matched ["-."] ∧
      ((merge (oneOrMore p)).parse .chainFree 0 c).cursor.position = 3 := by
  intro p c
  have ofClass : p.CharacterClass := by decide +kernel
  have longest : LongestRun p.admits (['-', '.'] ++ ['x']) ['-', '.'] := by
    refine .of_append (List.all_eq_true.mp rfl) ?_
    rintro x ⟨⟩
    rfl
  obtain ⟨-, single, grouped⟩ := class_takes_longest_run .chainFree 0 ofClass
  obtain ⟨run, first, -, taken⟩ := single c
  obtain rfl := longest.unique first
  obtain ⟨run, second, -, joined⟩ := grouped c
  obtain rfl := longest.unique second
  have nonempty : ['-', '.'] ≠ [] := by decide
  exact ⟨ofClass, longest, (taken nonempty).1, (joined nonempty).1, (joined nonempty).2.position⟩

end Parser

end Backtrack
