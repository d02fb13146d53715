import Backtrack.Proofs.Reading

/-!
Parsers that recognize words.

A parser recognizes words if it matches exactly where one of them begins the unread text, takes that
word, and gives everything back elsewhere. Two words that are told apart never begin one text: a
parser does one thing there, and so leaves one rest.
-/

namespace Backtrack.Matcher

variable {κ α : Type} {m : Matcher κ} {write : α → List Char} {shown : α → List String}

/-- A match that takes a text off what is unread has passed just that text. -/
theorem Takes.passes {passed rest : List Char} {fragments : List String}
    (takes : Takes m (passed ++ rest) fragments rest) (forward : Forward m) {c : Cursor}
    (unread : c.rest = passed ++ rest) : c.Passes passed (m c).cursor := by
  obtain ⟨matched, left⟩ := takes c unread
  obtain ⟨text, passes⟩ := forward c fragments matched
  have same := passes.rest
  rw [unread, left] at same
  rwa [List.append_cancel_right same]

/-- The matcher recognizes the words that `write` spells, with the fragments that `shown` says. It
matches where a word begins the unread text, and takes that word, of which there is only one;
elsewhere it finds nothing and stays. -/
structure Recognizes (m : Matcher κ) (write : α → List Char) (shown : α → List String) :
    Prop where
  matched_iff : ∀ c, (∃ fragments, (m c).ending = .matched fragments) ↔
    ∃ word rest, c.rest = write word ++ rest
  found : ∀ c word rest, c.rest = write word ++ rest →
    (m c).ending = .matched (shown word) ∧ c.Passes (write word) (m c).cursor ∧
      (m c).cursor.rest = rest
  unique : ∀ {word other rest rest'}, write word ++ rest = write other ++ rest' →
    word = other ∧ rest = rest'
  restores : ∀ c, (∀ word rest, c.rest ≠ write word ++ rest) →
    (m c).ending = .noMatch ∧ (m c).cursor = c

/-- To recognize words it is enough to take each of them, and to refuse a text that begins with
none. -/
theorem recognizes_of_takes (lawful : Lawful m) (forward : Forward m)
    (injective : Function.Injective write)
    (takes : ∀ word rest, Takes m (write word ++ rest) (shown word) rest)
    (refuses : ∀ text, (∀ word rest, text ≠ write word ++ rest) → Refuses m text) :
    Recognizes m write shown where
  matched_iff c := by
    constructor
    · rintro ⟨fragments, matched⟩
      refine Classical.byContradiction fun none => ?_
      have noMatch := refuses c.rest (fun word rest same => none ⟨word, rest, same⟩) c rfl
      cases matched.symm.trans noMatch
    · rintro ⟨word, rest, unread⟩
      exact ⟨shown word, (takes word rest c unread).1⟩
  found c word rest unread := by
    obtain ⟨matched, left⟩ := takes word rest c unread
    exact ⟨matched, (takes word rest).passes forward unread, left⟩
  unique := by
    intro word other rest rest' same
    -- Both words are taken from the same text, so they leave the same rest.
    have second := takes other rest'
    rw [← same] at second
    obtain rfl : rest = rest' := ((takes word rest).unique second).2
    exact ⟨injective (List.append_cancel_right same), rfl⟩
  restores c none := by
    have noMatch := refuses c.rest none c rfl
    exact ⟨noMatch, lawful.restores c noMatch⟩

end Backtrack.Matcher
