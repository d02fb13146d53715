import Backtrack.Proofs.Law

/-!
Calls that come to the same.

Two calls agree if they ended in the same way and left the cursor in the same place; what they
logged on the way may differ. A sequence agrees with one that has the parts of an inner sequence in
its place, as long as the inner one still finds a character left where it begins.
-/

namespace Backtrack

variable {κ : Type}

namespace Report

/-- The calls ended in the same way, and left the cursor in the same place. -/
structure Agrees (r s : Report κ) : Prop where
  ending : r.ending = s.ending
  cursor : r.cursor = s.cursor

variable {r s t : Report κ} {start : Checkpoint}

namespace Agrees

theorem refl (r : Report κ) : r.Agrees r :=
  ⟨rfl, rfl⟩

theorem symm (agrees : r.Agrees s) : s.Agrees r :=
  ⟨agrees.ending.symm, agrees.cursor.symm⟩

theorem trans (first : r.Agrees s) (second : s.Agrees t) : r.Agrees t :=
  ⟨first.ending.trans second.ending, first.cursor.trans second.cursor⟩

theorem of_eq (same : r = s) : r.Agrees s :=
  same ▸ .refl r

/-- What was logged before a call makes no difference. -/
theorem after_left (agrees : r.Agrees s) (log : Log κ) : (r.after log).Agrees s :=
  ⟨agrees.ending, agrees.cursor⟩

theorem after_right (agrees : r.Agrees s) (log : Log κ) : r.Agrees (s.after log) :=
  ⟨agrees.ending, agrees.cursor⟩

theorem mapFragments (agrees : r.Agrees s) (f : List String → List String) :
    (r.mapFragments f).Agrees (s.mapFragments f) := by
  refine ⟨?_, by rw [cursor_mapFragments, cursor_mapFragments, agrees.cursor]⟩
  rcases r.matched_or_not with ⟨fragments, matched⟩ | other
  · rw [mapFragments_of_matched matched, mapFragments_of_matched (agrees.ending ▸ matched)]
  · rw [mapFragments_of_not_matched other, mapFragments_of_not_matched (agrees.ending ▸ other)]
    exact agrees.ending

theorem rewoundTo (agrees : r.Agrees s) (note note' : Nat → Log κ) :
    (r.rewoundTo start note).Agrees (s.rewoundTo start note') := by
  by_cases noMatch : r.ending = .noMatch
  · rw [rewoundTo_of_noMatch noMatch, rewoundTo_of_noMatch (agrees.ending ▸ noMatch)]
    exact ⟨rfl, by rw [agrees.cursor]⟩
  · rw [rewoundTo_of_ne_noMatch noMatch, rewoundTo_of_ne_noMatch (agrees.ending ▸ noMatch)]
    exact agrees

end Agrees

/-- Going back twice is going back to the second place. -/
theorem rewoundTo_rewoundTo (r : Report κ) (first : Checkpoint) (note note' note'' : Nat → Log κ) :
    ((r.rewoundTo first note).rewoundTo start note').Agrees (r.rewoundTo start note'') := by
  by_cases noMatch : r.ending = .noMatch
  · rw [rewoundTo_of_noMatch noMatch, rewoundTo_of_noMatch noMatch, rewoundTo_of_noMatch rfl]
    exact ⟨rfl, rfl⟩
  · rw [rewoundTo_of_ne_noMatch noMatch, rewoundTo_of_ne_noMatch noMatch,
      rewoundTo_of_ne_noMatch noMatch]
    exact .refl r

end Report

namespace Matcher

open Report

variable {first second second' part : Matcher κ} {parts others others' : List (Matcher κ)}
  {c : Cursor} {start : Checkpoint} {found : List String}

/-! ### Matchers in order -/

/-- Two rows of parts, one behind the other, where the first matches. -/
theorem inOrder_append_of_matched (matched : (inOrder parts c).ending = .matched found) :
    (inOrder (parts ++ others) c).Agrees
      ((inOrder others (inOrder parts c).cursor).mapFragments (found ++ ·)) := by
  induction parts generalizing c found with
  | nil =>
      cases matched
      exact .of_eq (mapFragments_id _).symm
  | cons part parts ih =>
      obtain ⟨here, more, matchedHere, there, rfl, reached⟩ := matched_inOrder_cons matched
      rw [List.cons_append, inOrder_cons_of_matched matchedHere, reached]
      have onward := (ih there).mapFragments (here ++ ·)
      rw [mapFragments_mapFragments] at onward
      simpa only [List.append_assoc, Function.comp_def] using onward.after_left (part c).log

/-- Where the first row does not match the second has no turn. -/
theorem inOrder_append_of_not_matched (other : ∀ found, (inOrder parts c).ending ≠ .matched found) :
    inOrder (parts ++ others) c = inOrder parts c := by
  induction parts generalizing c with
  | nil => exact absurd rfl (other [])
  | cons part parts ih =>
      rw [List.cons_append]
      rcases (part c).matched_or_not with ⟨here, matchedHere⟩ | otherHere
      · rw [inOrder_cons_of_matched matchedHere] at other ⊢
        rw [inOrder_cons_of_matched matchedHere, ih]
        exact fun more there => other (here ++ more) (mapFragments_of_matched there _)
      · rw [inOrder_cons_of_not_matched otherHere, inOrder_cons_of_not_matched otherHere]

theorem inOrder_single (m : Matcher κ) (c : Cursor) : (inOrder [m] c).Agrees (m c) := by
  rcases (m c).matched_or_not with ⟨found, matched⟩ | other
  · rw [inOrder_cons_of_matched matched]
    exact ⟨by rw [matched]; exact congrArg Ending.matched (List.append_nil found), rfl⟩
  · exact .of_eq (inOrder_cons_of_not_matched other)

/-- Matchers in order agree if, after a match of the first, those behind it do. -/
theorem agrees_inOrder_cons
    (onward : ∀ found, (part c).ending = .matched found →
      (inOrder parts (part c).cursor).Agrees (inOrder others (part c).cursor)) :
    (inOrder (part :: parts) c).Agrees (inOrder (part :: others) c) := by
  rcases (part c).matched_or_not with ⟨found, matched⟩ | other
  · rw [inOrder_cons_of_matched matched, inOrder_cons_of_matched matched]
    exact (((onward found matched).mapFragments _).after_left _).after_right _
  · rw [inOrder_cons_of_not_matched other, inOrder_cons_of_not_matched other]
    exact .refl _

/-! ### Matchers that go back -/

/-- A matcher that keeps the law has nothing to go back over. -/
theorem Lawful.rewoundTo_agrees (lawful : Lawful part) (c : Cursor) (note : Nat → Log κ) :
    ((part c).rewoundTo c.checkpoint note).Agrees (part c) := by
  by_cases noMatch : (part c).ending = .noMatch
  · rw [rewoundTo_of_noMatch noMatch, lawful.restores c noMatch]
    exact ⟨noMatch.symm, (lawful.restores c noMatch).symm⟩
  · exact .of_eq (rewoundTo_of_ne_noMatch noMatch _ _)

/-- A matcher that runs matchers in order, and goes back somewhere where they find nothing, may be
written out where there is another place to go back to. -/
theorem agrees_rewound_cons {here : Checkpoint} {inner : Nat → Log κ} (note note' : Nat → Log κ)
    (runs : (part c).Agrees ((inOrder parts c).rewoundTo here inner))
    (onward : ∀ found, (inOrder parts c).ending = .matched found →
      ((inOrder others (inOrder parts c).cursor).rewoundTo start note).Agrees
        ((inOrder others' (inOrder parts c).cursor).rewoundTo start note')) :
    ((inOrder (part :: others) c).rewoundTo start note).Agrees
      ((inOrder (parts ++ others') c).rewoundTo start note') := by
  rcases (inOrder parts c).matched_or_not with ⟨found, matched⟩ | other
  · rw [rewoundTo_of_matched matched] at runs
    have behind := (onward found matched).mapFragments (found ++ ·)
    rw [rewoundTo_mapFragments, rewoundTo_mapFragments] at behind
    rw [inOrder_cons_of_matched (runs.ending.trans matched), runs.cursor, ← rewoundTo_after]
    have whole : (inOrder (parts ++ others') c).Agrees _ := inOrder_append_of_matched matched
    exact (behind.after_left _).trans (whole.symm.rewoundTo note' note')
  · have otherPart : ∀ found, (part c).ending ≠ .matched found := by
      rwa [runs.ending, ending_rewoundTo]
    rw [inOrder_cons_of_not_matched otherPart, inOrder_append_of_not_matched other]
    exact (runs.rewoundTo note note').trans (rewoundTo_rewoundTo ..)

theorem agrees_merge {whole whole' : Matcher κ} (agrees : (whole c).Agrees (whole' c)) :
    (merge whole c).Agrees (merge whole' c) :=
  (agrees.mapFragments _).rewoundTo _ _

/-! ### Sequences in sequences -/

/-- An inner sequence in front may be written out: it begins where the outer one does. -/
theorem sequence_sequence_cons (parts others : List (Matcher κ)) (c : Cursor) :
    (sequence (sequence parts :: others) c).Agrees (sequence (parts ++ others) c) := by
  cases left : c.hasNext with
  | true =>
      have inner : sequence parts c = _ := sequence_of_hasNext left
      rw [sequence_of_hasNext left, sequence_of_hasNext left]
      refine agrees_rewound_cons _ _ (.of_eq inner) fun found matched => ?_
      exact (Agrees.refl _).rewoundTo _ _
  | false =>
      rw [sequence_of_exhausted left, sequence_of_exhausted left]
      exact .refl _

/-- An inner sequence behind a match may be written out, if there is a character left where it
begins. -/
theorem sequence_cons_sequence (matched : (part c).ending = .matched found)
    (left : (part c).cursor.hasNext = true) (parts : List (Matcher κ)) :
    (sequence [part, sequence parts] c).Agrees (sequence (part :: parts) c) := by
  cases begins : c.hasNext with
  | true =>
      have inner := (inOrder_single (sequence parts) (part c).cursor).mapFragments (found ++ ·)
      rw [sequence_of_hasNext left, rewoundTo_mapFragments] at inner
      have outer := (inner.after_left (part c).log).after_right (part c).log
      rw [rewoundTo_after, ← inOrder_cons_of_matched matched, ← inOrder_cons_of_matched matched]
        at outer
      rw [sequence_of_hasNext begins, sequence_of_hasNext begins]
      exact (outer.rewoundTo _ fun _ => ∅).trans (rewoundTo_rewoundTo ..)
  | false =>
      rw [sequence_of_exhausted begins, sequence_of_exhausted begins]
      exact .refl _

/-- What comes behind the first part counts only after a match of it. -/
theorem agrees_sequence_cons
    (onward : ∀ found, (part c).ending = .matched found →
      (inOrder parts (part c).cursor).Agrees (inOrder others (part c).cursor)) :
    (sequence (part :: parts) c).Agrees (sequence (part :: others) c) := by
  cases left : c.hasNext with
  | true =>
      rw [sequence_of_hasNext left, sequence_of_hasNext left]
      exact (agrees_inOrder_cons onward).rewoundTo _ _
  | false =>
      rw [sequence_of_exhausted left, sequence_of_exhausted left]
      exact .refl _

/-- An inner sequence behind a part may be written out, if what it begins with takes nothing where
no character is left. -/
theorem sequence_nested_agrees (lawful : Lawful second)
    (starves : ∀ d, d.hasNext = false → (second d).ending = .noMatch) (parts : List (Matcher κ))
    (c : Cursor) :
    (sequence [first, sequence (second :: parts)] c).Agrees
      (sequence (first :: second :: parts) c) := by
  rcases (first c).matched_or_not with ⟨found, matched⟩ | other
  · cases left : (first c).cursor.hasNext with
    | true => exact sequence_cons_sequence matched left _
    | false =>
        -- The inner sequence fails because it asks for a character, the flat one because its
        -- second part does.
        have noMatch := starves _ left
        refine agrees_sequence_cons fun _ _ => (inOrder_single ..).trans ?_
        rw [sequence_of_exhausted left,
          inOrder_cons_of_not_matched (Report.not_matched_of_noMatch noMatch)]
        exact ⟨noMatch.symm, (lawful.restores _ noMatch).symm⟩
  · exact agrees_sequence_cons fun found matched => absurd matched (other found)

/-- Sequences of two agree if their second parts do at the place that the first has reached. -/
theorem agrees_pair
    (onward : ∀ found, (first c).ending = .matched found →
      (second (first c).cursor).Agrees (second' (first c).cursor)) :
    (sequence [first, second] c).Agrees (sequence [first, second'] c) := by
  apply agrees_sequence_cons
  intro found matched
  exact (inOrder_single ..).trans ((onward found matched).trans (inOrder_single ..).symm)

/-- A pair finds nothing if its second half does not. -/
theorem pair_noMatch (matched : (first c).ending = .matched found)
    (noMatch : (second (first c).cursor).ending = .noMatch) :
    (sequence [first, second] c).ending = .noMatch := by
  cases left : c.hasNext with
  | true =>
      have inner := (inOrder_single second (first c).cursor).ending.trans noMatch
      rw [sequence_of_hasNext left, ending_rewoundTo, inOrder_cons_of_matched matched,
        ending_after, mapFragments_of_not_matched (not_matched_of_noMatch inner), inner]
  | false =>
      rw [sequence_of_exhausted left]
      rfl

end Matcher

end Backtrack
