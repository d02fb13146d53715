/-!
Pieces of a text, cut out at byte offsets.

A cut has to fall between two characters or at an end of the text, and the second cut may not lie
before the first. There is no piece otherwise: what a piece is when there is one says
`slice?_eq_some_iff`.
-/

namespace Backtrack.Text

/-- What lies between two byte offsets of a text. -/
def slice? (text : String) (start stop : Nat) : Option String := do
  let first ← text.pos? ⟨start⟩
  let last ← text.pos? ⟨stop⟩
  let piece ← text.slice? first last
  return piece.copy

theorem pos?_eq_some_iff {text : String} {offset : Nat} {pos : text.Pos} :
    text.pos? ⟨offset⟩ = some pos ↔ pos.offset.byteIdx = offset := by
  constructor
  · intro found
    rw [String.pos?, String.Slice.pos?] at found
    split at found
    · cases found
      rfl
    · cases found
  · rintro rfl
    have valid := String.Pos.Raw.isValidForSlice_eq_true_iff.mpr pos.isValid.toSlice
    rw [String.pos?, String.Slice.pos?, dif_pos valid]
    rfl

/-- A text has a piece between two offsets if it can be taken apart around it. -/
theorem slice?_eq_some_iff {text piece : String} {start stop : Nat} :
    slice? text start stop = some piece ↔
      ∃ before after, text = before ++ piece ++ after ∧ start = before.utf8ByteSize ∧
        stop = (before ++ piece).utf8ByteSize := by
  constructor
  · intro cut
    simp only [slice?, Option.bind_eq_bind, Option.bind_eq_some_iff, Option.pure_def,
      Option.some.injEq] at cut
    obtain ⟨first, opens, last, closes, between, sliced, rfl⟩ := cut
    rw [String.slice?] at sliced
    split at sliced
    · next le =>
      cases sliced
      obtain ⟨before, after, splits, splits'⟩ := String.copy_slice_eq_iff_splits.mp ⟨le, rfl⟩
      refine ⟨before, after, ?_, ?_, ?_⟩
      · rw [String.append_assoc]
        exact splits.eq_append
      · rw [← pos?_eq_some_iff.mp opens, splits.offset_eq_rawEndPos]
        rfl
      · rw [← pos?_eq_some_iff.mp closes, splits'.offset_eq_rawEndPos]
        rfl
    · cases sliced
  · rintro ⟨before, after, rfl, rfl, rfl⟩
    have whole : before ++ piece ++ after = before ++ (piece ++ after) := String.append_assoc
    let first : (before ++ piece ++ after).Pos := ⟨⟨before.utf8ByteSize⟩,
      String.Pos.Raw.isValid_iff_exists_append.mpr ⟨before, piece ++ after, whole, rfl⟩⟩
    let last : (before ++ piece ++ after).Pos := ⟨⟨(before ++ piece).utf8ByteSize⟩,
      String.Pos.Raw.isValid_iff_exists_append.mpr ⟨before ++ piece, after, rfl, rfl⟩⟩
    have opens : (before ++ piece ++ after).pos? ⟨before.utf8ByteSize⟩ = some first :=
      pos?_eq_some_iff.mpr rfl
    have closes : (before ++ piece ++ after).pos? ⟨(before ++ piece).utf8ByteSize⟩ = some last :=
      pos?_eq_some_iff.mpr rfl
    have cut : ∃ le : first ≤ last, (String.slice _ first last le).copy = piece :=
      String.copy_slice_eq_iff_splits.mpr ⟨before, after, ⟨whole, rfl⟩, ⟨rfl, rfl⟩⟩
    obtain ⟨le, copied⟩ := cut
    simp only [slice?, opens, closes, String.slice?, dif_pos le, Option.bind_eq_bind,
      Option.bind_some, Option.pure_def, copied]

end Backtrack.Text
