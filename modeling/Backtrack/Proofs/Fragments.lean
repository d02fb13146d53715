import Backtrack.Markup
import Backtrack.Proofs.Bounds

/-!
Fragments spell the text that was consumed.

Each way of reading fragments as text is a `Spelling`. The weakest one, order-preserving
subsequence, admits groupings and chains. Equality of the joined fragments with the text admits
groupings, but a chain drops text. Character by character admits neither.
-/

namespace Backtrack

variable {κ : Type}

/-- The characters of the fragments occur in the text, in order. -/
def Subsequence (fragments : List String) (text : List Char) : Prop :=
  (String.join fragments).toList.Sublist text

/-- The fragments put together are the text. -/
def Verbatim (fragments : List String) (text : List Char) : Prop :=
  (String.join fragments).toList = text

/-- The fragments are the characters of the text. -/
def Characters (fragments : List String) (text : List Char) : Prop :=
  fragments = text.map String.singleton

theorem join_single (s : String) : String.join [s] = s := by
  rw [String.join_cons, String.join_nil, String.append_empty]

/-- Fragments in a row spell texts in a row. -/
theorem verbatim_spelling : Spelling Verbatim where
  nil := rfl
  single x := by rw [Verbatim, join_single, String.toList_singleton]
  append first second := by
    rw [Verbatim, String.join_append, String.toList_append, first, second]

/-- To join fragments changes nothing of what they spell. -/
theorem verbatim_joins : Joins Verbatim := by
  intro fragments text spelled
  rw [Verbatim, join_single]
  exact spelled

/-- A text is a subsequence of itself. -/
theorem subsequence_of_verbatim {fragments : List String} {text : List Char}
    (spelled : Verbatim fragments text) : Subsequence fragments text := by
  cases spelled
  exact List.Sublist.refl _

/-- Fragments in a row are subsequences of texts in a row. -/
theorem subsequence_spelling : Spelling Subsequence where
  nil := subsequence_of_verbatim verbatim_spelling.nil
  single x := subsequence_of_verbatim (verbatim_spelling.single x)
  append first second := by
    rw [Subsequence, String.join_append, String.toList_append]
    exact first.append second

theorem subsequence_joins : Joins Subsequence := by
  intro fragments text spelled
  rw [Subsequence, join_single]
  exact spelled

/-- Fragments may be dropped from a subsequence. -/
theorem subsequence_drops : Drops Subsequence := by
  intro fragments text dropped spelled
  exact spelled.trans (List.sublist_append_right dropped text)

/-- Fragments of one character each are listed as their characters are. -/
theorem characters_spelling : Spelling Characters where
  nil := rfl
  single x := rfl
  append first second := by
    rw [Characters, List.map_append, first, second]

/-- The text that a match spells is the one between the two positions of the cursor. -/
theorem Matcher.Spells.consumed {R : List String → List Char → Prop} {m : Matcher κ}
    (spells : Matcher.Spells R m) {c : Cursor} {fragments : List String}
    (matched : (m c).ending = .matched fragments) :
    R fragments (c.data.extract c.position (m c).cursor.position).toList := by
  obtain ⟨text, passes, spelled⟩ := spells c fragments matched
  rw [← passes.eq_extract]
  exact spelled

namespace Parser

/-- Without chains the joined fragments of a run and its remainder make up the text. -/
theorem run_verbatim {g : Grammar κ} {depth : Nat} {p : Parser κ} (free : p.ChainFree)
    {text : String} {outcome : Outcome} {fragments : List String}
    (finished : (p.run g depth text).completion = .finished outcome)
    (matched : outcome.fragments? = some fragments) :
    text = String.join fragments ++ outcome.remainder := by
  have answered := answered_of_finished finished
  rw [matched] at answered
  rw [run_of_answer answered] at finished
  cases finished
  rcases Ending.answer?_eq_some_iff.mp answered with ⟨-, absent⟩ | ⟨found, ended, same⟩
  · cases absent
  · cases same
    have spells := parse_spells verbatim_spelling g depth (Or.inr verbatim_joins) (Or.inl free)
    obtain ⟨passed, passes, spelled⟩ := spells _ fragments ended
    refine String.toList_inj.mp ?_
    rw [String.toList_append, spelled, String.toList_ofList, ← passes.rest, Cursor.rest_ofString]

/-- **Fragments spell the consumed text.** The characters of the fragments occur in the text
between the two positions of the cursor, in order. They are all of that text if no chain occurs in
the tree, and the fragments are its characters one by one if no grouping occurs either. So a run
without chains splits its text into the fragments and the remainder. -/
theorem fragments_spell_consumed (g : Grammar κ) (depth : Nat) (p : Parser κ) :
    (∀ (c : Cursor) (fragments : List String),
      (p.parse g depth c).ending = .matched fragments →
      let consumed := (c.data.extract c.position (p.parse g depth c).cursor.position).toList
      (String.join fragments).toList.Sublist consumed ∧
        (p.ChainFree → (String.join fragments).toList = consumed) ∧
        (p.ChainFree → p.MergeFree → fragments = consumed.map String.singleton)) ∧
    (p.ChainFree → ∀ (text : String) (outcome : Outcome) (fragments : List String),
      (p.run g depth text).completion = .finished outcome →
      outcome.fragments? = some fragments →
      text = String.join fragments ++ outcome.remainder) := by
  refine ⟨fun c fragments matched => ⟨?_, fun free => ?_, fun free ungrouped => ?_⟩, ?_⟩
  · have spells := parse_spells subsequence_spelling g depth (p := p) (Or.inr subsequence_joins)
      (Or.inr ⟨subsequence_joins, subsequence_drops⟩)
    exact spells.consumed matched
  · have spells := parse_spells verbatim_spelling g depth (Or.inr verbatim_joins) (Or.inl free)
    exact spells.consumed matched
  · have spells := parse_spells characters_spelling g depth (Or.inl ungrouped) (Or.inl free)
    exact spells.consumed matched
  · exact fun free text outcome fragments => run_verbatim free

/-- Plain text between stars, one fragment a character. -/
theorem plain_spells_consumed :
    (Markup.plain.parse .chainFree 0 ⟨#['*', 'a', 'b', '*'], 1⟩).ending = .matched ["a", "b"] ∧
      (Markup.plain : Parser Empty).ChainFree ∧ (Markup.plain : Parser Empty).MergeFree ∧
      ["a", "b"] = (#['*', 'a', 'b', '*'].extract 1
        (Markup.plain.parse .chainFree 0 ⟨#['*', 'a', 'b', '*'], 1⟩).cursor.position).toList.map
          String.singleton ∧
      (Markup.plain.run .chainFree 0 "ab*").completion = .finished ⟨some ["a", "b"], "*"⟩ ∧
      "ab*" = String.join ["a", "b"] ++ "*" := by
  obtain ⟨consumed, split⟩ := fragments_spell_consumed .chainFree 0 Markup.plain
  have matched : (Markup.plain.parse .chainFree 0 ⟨#['*', 'a', 'b', '*'], 1⟩).ending =
      .matched ["a", "b"] := by decide +kernel
  have finished : (Markup.plain.run .chainFree 0 "ab*").completion =
      .finished ⟨some ["a", "b"], "*"⟩ := by decide +kernel
  have free : (Markup.plain : Parser Empty).ChainFree := by decide +kernel
  have ungrouped : (Markup.plain : Parser Empty).MergeFree := by decide +kernel
  exact ⟨matched, free, ungrouped, (consumed _ _ matched).2.2 free ungrouped, finished,
    split free _ _ _ finished rfl⟩

end Parser

end Backtrack
