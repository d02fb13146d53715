import Backtrack.Languages
import Backtrack.Proofs.Reading

/-!
Which texts the parser of groups takes.

A group is groups between two brackets. Groups are taken as far as they go, and the bracket that has
to follow them begins none, so nothing is taken that is needed later. A text begins with one group
at most, and the parser finds it at any depth that is not below the length of the text.
-/

namespace Backtrack.Languages

open Matcher

/-- Groups one behind the other, or none, between two brackets. -/
inductive Group : List Char → Prop where
  | brackets {inside : List (List Char)} :
      (∀ word ∈ inside, Group word) → Group ('(' :: (inside.flatten ++ [')']))

/-- The text begins with a group. -/
def BeginsGroup (text : List Char) : Prop :=
  ∃ word, Group word ∧ word <+: text

/-- One closing bracket for every two characters. -/
def closings (word : List Char) : List String :=
  List.replicate (word.length / 2) ")"

variable {word text tail rest : List Char} {inside : List (List Char)} {found : List String}

/-! ### Words in brackets -/

/-- A group begins with an opening bracket. -/
theorem Group.head?_append (ofWord : Group word) (rest : List Char) :
    (word ++ rest).head? = some '(' := by
  cases ofWord
  rfl

theorem Group.ne_nil (ofWord : Group word) : word ≠ [] := by
  cases ofWord
  exact List.cons_ne_nil _ _

theorem two_dvd_length_flatten (even : ∀ word ∈ inside, 2 ∣ word.length) :
    2 ∣ inside.flatten.length := by
  induction inside with
  | nil => exact Nat.dvd_zero 2
  | cons word inside ih =>
      obtain ⟨ofWord, ofInside⟩ := List.forall_mem_cons.mp even
      rw [List.flatten_cons, List.length_append]
      exact Nat.dvd_add ofWord (ih ofInside)

/-- Brackets come in pairs. -/
theorem Group.even (ofWord : Group word) : 2 ∣ word.length := by
  induction ofWord with
  | @brackets inside _ ih =>
      have even := two_dvd_length_flatten ih
      simp only [List.length_cons, List.length_append, List.length_nil]
      omega

/-- Words in brackets have even length, so the closing brackets of two in a row are those of each.
-/
theorem closings_append (even : 2 ∣ word.length) (rest : List Char) :
    closings (word ++ rest) = closings word ++ closings rest := by
  obtain ⟨pairs, even⟩ := even
  rw [closings, closings, closings, List.replicate_append_replicate, List.length_append, even,
    Nat.mul_add_div Nat.two_pos, Nat.mul_div_cancel_left _ Nat.two_pos]

theorem flatMap_closings (ofInside : ∀ word ∈ inside, Group word) :
    inside.flatMap closings = closings inside.flatten := by
  induction inside with
  | nil => rfl
  | cons word inside ih =>
      obtain ⟨ofWord, ofRest⟩ := List.forall_mem_cons.mp ofInside
      rw [List.flatMap_cons, List.flatten_cons, ih ofRest, closings_append ofWord.even]

theorem closings_brackets (inside : List (List Char)) :
    closings ('(' :: (inside.flatten ++ [')'])) = closings inside.flatten ++ [")"] := by
  simp only [closings, List.length_cons, List.length_append, List.length_nil]
  rw [Nat.add_div_right _ Nat.two_pos, List.replicate_succ']

/-- Every text is groups and then something that begins with none. -/
theorem exists_inside (text : List Char) :
    ∃ (inside : List (List Char)) (rest : List Char), (∀ word ∈ inside, Group word) ∧
      text = inside.flatten ++ rest ∧ ¬ BeginsGroup rest := by
  obtain ⟨inside, rest, ofInside, spells, stops⟩ :=
    exists_pieces id Group (fun _ => Group.ne_nil) text
  rw [List.flatMap_id] at spells
  exact ⟨inside, rest, ofInside, spells, fun ⟨word, ofWord, begins⟩ => stops word ofWord begins⟩

/-- Groups in a row begin with a bracket that opens, so they bring no other character to the front.
-/
theorem head?_flatten_append (ofInside : ∀ word ∈ inside, Group word) {x : Char} (other : x ≠ '(')
    (behind : rest.head? ≠ some x) : (inside.flatten ++ rest).head? ≠ some x := by
  cases inside with
  | nil => exact behind
  | cons word inside =>
      have ofWord := ofInside word List.mem_cons_self
      rw [List.flatten_cons, List.append_assoc, ofWord.head?_append]
      exact fun same => other (Option.some.inj same).symm

/-! ### One step of the grammar -/

section Step

variable (depth : Nat)

/-- Where no bracket opens there is no group. -/
theorem refuses_group_of_head? (other : text.head? ≠ some '(') :
    Refuses (group.parse groups depth) text :=
  refuses_chain_left (refuses_char other)

/-- A group is taken where groups and a closing bracket stand behind its opening one. -/
theorem takes_group_of_rounds
    (taken : Rounds (group.parse groups depth) tail found (')' :: rest)) :
    Takes (group.parse groups (depth + 1)) ('(' :: tail) (found ++ [")"]) rest := by
  apply takes_chain (takes_char '(' tail) rfl
  cases taken with
  | stop refuses =>
      apply takes_either_right (Parser.parse_lawful ..) _ (takes_char ')' rest)
      exact refuses_pair_left (refuses_oneOrMore refuses)
  | round takes less onward =>
      apply takes_either_left
      apply takes_pair _ _ (takes_char ')' rest)
      · rintro rfl
        exact Nat.not_lt_zero _ less
      · exact takes_oneOrMore (Parser.parse_lawful ..) takes less onward

/-- Without the closing bracket behind the groups it is refused. -/
theorem refuses_group_of_rounds (taken : Rounds (group.parse groups depth) tail found rest)
    (unclosed : rest.head? ≠ some ')') (nonempty : tail.head? ≠ some ')') :
    Refuses (group.parse groups (depth + 1)) ('(' :: tail) := by
  apply refuses_chain_right (takes_char '(' tail) rfl
  apply refuses_either (Parser.parse_lawful ..) _ (refuses_char nonempty)
  cases taken with
  | stop refuses => exact refuses_pair_left (refuses_oneOrMore refuses)
  | round takes less onward =>
      exact refuses_pair_right (takes_oneOrMore (Parser.parse_lawful ..) takes less onward)
        (refuses_char unclosed)

end Step

/-! ### Groups at any depth -/

/-- Groups that are each taken, if the depth is enough for it, are taken one by one. -/
theorem rounds_inside {depth : Nat} (ofInside : ∀ word ∈ inside, Group word)
    (takes : ∀ word ∈ inside, word.length ≤ depth → ∀ rest,
      Takes (group.parse groups depth) (word ++ rest) (closings word) rest)
    (enough : inside.flatten.length ≤ depth) (stops : Refuses (group.parse groups depth) rest) :
    Rounds (group.parse groups depth) (inside.flatten ++ rest) (closings inside.flatten) rest := by
  have each : ∀ word ∈ inside, id word ≠ [] ∧ ∀ rest,
      Takes (group.parse groups depth) (id word ++ rest) (closings word) rest := by
    intro word mem
    have shorter := (List.sublist_flatten_of_mem mem).length_le
    exact ⟨(ofInside word mem).ne_nil, takes word mem (Nat.le_trans shorter enough)⟩
  have taken := rounds_pieces id closings each stops
  rwa [List.flatMap_id, flatMap_closings ofInside] at taken

/-- A group is taken whatever follows it. -/
theorem Group.takes (ofWord : Group word) {depth : Nat} (enough : word.length ≤ depth)
    (rest : List Char) :
    Takes (group.parse groups depth) (word ++ rest) (closings word) rest := by
  induction ofWord generalizing depth rest with
  | @brackets inside ofInside ih =>
      simp only [List.length_cons, List.length_append, List.length_nil] at enough
      cases depth with
      | zero => omega
      | succ depth =>
          rw [closings_brackets, List.cons_append, List.append_assoc]
          apply takes_group_of_rounds
          apply rounds_inside ofInside _ (by omega) (refuses_group_of_head? depth (by simp))
          exact fun word mem enough rest => ih word mem enough rest

/-- A text that begins with no group is refused. -/
theorem refuses_group {depth : Nat} (none : ¬ BeginsGroup text) (enough : text.length ≤ depth) :
    Refuses (group.parse groups depth) text := by
  induction depth generalizing text with
  | zero =>
      cases List.length_eq_zero_iff.mp (Nat.le_zero.mp enough)
      exact refuses_group_of_head? 0 nofun
  | succ depth ih =>
      by_cases opened : text.head? = some '('
      · obtain ⟨tail, rfl⟩ := List.head?_eq_some_iff.mp opened
        obtain ⟨inside, rest, ofInside, rfl, stops⟩ := exists_inside tail
        simp only [List.length_cons, List.length_append] at enough
        -- A closing bracket here would make a group of what is before it.
        have unclosed : rest.head? ≠ some ')' := by
          intro closed
          obtain ⟨rest, rfl⟩ := List.head?_eq_some_iff.mp closed
          refine none ⟨_, .brackets ofInside, rest, ?_⟩
          rw [List.cons_append, List.append_assoc, List.singleton_append]
        have taken := rounds_inside ofInside (fun word mem => (ofInside word mem).takes)
          (by omega) (ih stops (by omega))
        apply refuses_group_of_rounds depth taken unclosed
        exact head?_flatten_append ofInside (by decide) unclosed
      · exact refuses_group_of_head? (depth + 1) opened

/-- No text begins with two groups, as the grammar finds one at most. -/
theorem Group.eq_of_prefix {other : List Char} (ofWord : Group word) (ofOther : Group other)
    (here : word <+: text) (alsoHere : other <+: text) : other = word := by
  obtain ⟨rest, rfl⟩ := here
  obtain ⟨rest', same⟩ := alsoHere
  have taken := ofWord.takes (Nat.le_max_left word.length other.length) rest
  have alsoTaken := ofOther.takes (Nat.le_max_right word.length other.length) rest'
  rw [same] at alsoTaken
  obtain ⟨-, rfl⟩ := taken.unique alsoTaken
  exact List.append_cancel_right same

/-- **Groups are recognised.** Run with a depth that is not below the length of the text, the parser
of groups comes to an end, and matches exactly the texts that begin with a group. There is one such
group then. What is left is the text behind it, and the fragments are closing brackets, one for
every two characters of the group. Any other text is left as it is. -/
theorem group_finds_group {text : String} {depth : Nat} (enough : text.length ≤ depth) :
    ∃ outcome, (group.run groups depth text).completion = .finished outcome ∧
      (outcome.isSuccess = true ↔ BeginsGroup text.toList) ∧
      (∀ word rest, Group word → text.toList = word ++ rest →
        (∀ other, Group other → other <+: text.toList → other = word) ∧
        outcome.remainder = String.ofList rest ∧
        ∃ pairs, word.length = 2 * pairs ∧ outcome.fragments? = some (List.replicate pairs ")")) ∧
      (outcome.isSuccess = false → outcome.remainder = text) := by
  rw [← String.length_toList] at enough
  by_cases begins : BeginsGroup text.toList
  · obtain ⟨word, ofWord, rest, spells⟩ := begins
    have shorter : word.length ≤ depth := by
      rw [← spells, List.length_append] at enough
      omega
    have taken := ofWord.takes shorter rest
    rw [spells] at taken
    refine ⟨_, Parser.run_of_takes taken, iff_of_true rfl ⟨word, ofWord, rest, spells⟩, ?_, nofun⟩
    intro word' rest' ofWord' spells'
    have unique : ∀ other, Group other → other <+: text.toList → other = word' :=
      fun _ ofOther here => ofWord'.eq_of_prefix ofOther ⟨rest', spells'.symm⟩ here
    cases unique word ofWord ⟨rest, spells⟩
    cases List.append_cancel_left (spells.trans spells')
    obtain ⟨pairs, even⟩ := ofWord.even
    refine ⟨unique, rfl, pairs, even, ?_⟩
    rw [closings, even, Nat.mul_div_cancel_left pairs Nat.two_pos]
  · refine ⟨_, Parser.run_of_refuses (refuses_group begins enough), iff_of_false nofun begins, ?_,
      fun _ => rfl⟩
    intro word rest ofWord spells
    exact absurd ⟨word, ofWord, rest, spells.symm⟩ begins

/-- Two groups in a group, with a further bracket behind it. -/
theorem nested_groups_found :
    "(()())(".length ≤ 7 ∧ Group ['(', '(', ')', '(', ')', ')'] ∧
      ∃ outcome, (group.run groups 7 "(()())(").completion = .finished outcome ∧
        outcome.remainder = "(" ∧ outcome.fragments? = some [")", ")", ")"] := by
  have enough : "(()())(".length ≤ 7 := by decide
  have inner : Group ['(', ')'] := @Group.brackets [] nofun
  have outer : Group ['(', '(', ')', '(', ')', ')'] := by
    apply @Group.brackets [['(', ')'], ['(', ')']]
    simp [inner]
  obtain ⟨outcome, finished, -, found, -⟩ := group_finds_group enough
  obtain ⟨-, left, pairs, even, fragments⟩ := found _ ['('] outer (by decide)
  have three : pairs = 3 := by
    simp only [List.length_cons, List.length_nil] at even
    omega
  subst three
  exact ⟨enough, outer, outcome, finished, left, fragments⟩

end Backtrack.Languages
