import Backtrack.Proofs.Markup.Document
import Backtrack.Text.Replace

/-!
The text read back from its HTML.

Putting a star for each tag gives the text back, if the text holds no tag of its own. A tag begins
with a character that occurs nowhere else in it, and what the conversion writes behind a run of
plain text is a tag or a star. So no tag can begin in the text and end in what was written behind
it, even where the text ends in the middle of a tag.
-/

namespace Backtrack.Markup

open Text

/-- What opens a bold run in HTML. -/
def openTag : List Char := "<strong>".toList

/-- What closes a bold run in HTML. -/
def closeTag : List Char := "</strong>".toList

/-- Neither tag occurs in the text. -/
abbrev TagFree (text : String) : Prop :=
  Free [openTag, closeTag] text.toList

/-- A text with a star for each occurrence of one of the tags. -/
def untagged (tags : List (List Char)) (html : String) : String :=
  String.ofList (replaceAll tags marker html.toList)

variable {inside text rest : List Char}

/-! ### Tags around runs -/

theorem tags_open_close : Tags '<' marker [openTag, closeTag] := by
  constructor
  · rw [List.forall_mem_cons, List.forall_mem_singleton]
    exact ⟨⟨rfl, by decide, by decide⟩, ⟨rfl, by decide, by decide⟩⟩
  · decide

theorem scan_bold_append (plain : PlainRun inside) (rest : List Char) :
    scan (enclosed inside ++ rest) = openTag ++ (inside ++ (closeTag ++ scan rest)) := by
  have written := scan_enclosed_append plain rest
  rwa [List.append_assoc, List.append_assoc] at written

/-- Where a star or the end of a text comes next, a tag, a star or the end of the HTML does. -/
theorem head?_scan_of_plainEnds (ends : PlainEnds text) {x : Char}
    (first : (scan text).head? = some x) : x = '<' ∨ x = marker := by
  cases text with
  | nil =>
      rw [scan_nil] at first
      cases first
  | cons y tail =>
      obtain rfl := ends y rfl
      cases found : boldRun? (marker :: tail) with
      | none =>
          rw [scan_cons_of_none found] at first
          exact .inr (Option.some.inj first).symm
      | some run =>
          obtain ⟨plain, same⟩ := boldRun?_eq_some_iff.mp found
          rw [same, scan_bold_append plain] at first
          exact .inl (Option.some.inj first).symm

/-! ### Stars for tags -/

section Tags

variable {words : List (List Char)} (tags : Tags '<' marker words)

include tags

/-- Behind a run that is copied no tag can be under way. -/
theorem replaceAll_append_of_opens (free : Free words text)
    (opens : ∀ x, rest.head? = some x → x = '<' ∨ x = marker) :
    replaceAll words marker (text ++ rest) = text ++ replaceAll words marker rest := by
  refine replaceAll_append_of_free free fun word mem x first within => ?_
  have tag := tags.each word mem
  rcases opens x first with rfl | rfl
  · exact tag.once within
  · exact tag.unfilled (List.mem_of_mem_tail within)

/-- Stars in place of tags give back a text that has no tags itself. -/
theorem replaceAll_scan (opened : openTag ∈ words) (closed : closeTag ∈ words)
    (free : Free words text) : replaceAll words marker (scan text) = text := by
  induction text using runs_induction with
  | nil => rw [scan_nil, replaceAll_nil]
  | bold inside rest plain ih =>
      have ofInside : Free words inside :=
        free.of_infix ⟨[marker], marker :: rest, by simp [enclosed]⟩
      have opens : ∀ x, (closeTag ++ scan rest).head? = some x → x = '<' ∨ x = marker := by
        rintro x ⟨⟩
        exact .inl rfl
      rw [scan_bold_append plain, replaceAll_tag_append tags opened,
        replaceAll_append_of_opens tags ofInside opens, replaceAll_tag_append tags closed,
        ih (free.of_infix List.infix_append_right), enclosed_append]
  | plain run rest plain ends ih =>
      rw [scan_append_of_unmarked plain.unmarked,
        replaceAll_append_of_opens tags (free.of_infix List.infix_append_left)
          fun x first => head?_scan_of_plainEnds ends first,
        ih (free.of_infix List.infix_append_right)]
  | star rest none ih =>
      rw [scan_cons_of_none none, replaceAll_filler_cons tags,
        ih (free.of_infix (List.infix_cons List.infix_rfl))]

theorem untagged_toHtml (opened : openTag ∈ words) (closed : closeTag ∈ words) {text : String}
    (free : Free words text.toList) : untagged words (toHtml text) = text := by
  rw [untagged, toHtml_eq_scan, String.toList_ofList, replaceAll_scan tags opened closed free,
    String.ofList_toList]

end Tags

/-- Tags may be replaced in turn. -/
theorem untagged_untagged {first second : List (List Char)}
    (tags : Tags '<' marker (first ++ second)) (html : String) :
    untagged second (untagged first html) = untagged (first ++ second) html := by
  rw [untagged, untagged, untagged, String.toList_ofList, replaceAll_replaceAll tags]

/-- **The HTML of a text loses nothing.** Unless the text holds tags itself, a star for each tag of
its HTML gives the text back, whether the tags are replaced together or in turn. So two such texts
have the same HTML only if they are the same. -/
theorem toHtml_loses_nothing :
    (∀ text : String, TagFree text →
      untagged [openTag, closeTag] (toHtml text) = text ∧
      untagged [closeTag] (untagged [openTag] (toHtml text)) = text ∧
      untagged [openTag] (untagged [closeTag] (toHtml text)) = text) ∧
    ∀ first second : String, TagFree first → TagFree second →
      toHtml first = toHtml second → first = second := by
  have swap : ∀ tag ∈ [closeTag] ++ [openTag], tag ∈ [openTag, closeTag] := by decide
  have together : ∀ text, TagFree text → untagged [openTag, closeTag] (toHtml text) = text :=
    fun text free => untagged_toHtml tags_open_close (by decide) (by decide) free
  constructor
  · intro text free
    refine ⟨together text free, ?_, ?_⟩
    · rw [untagged_untagged tags_open_close]
      exact together text free
    · have tags := tags_open_close.of_subset swap
      rw [untagged_untagged tags]
      exact untagged_toHtml tags (by decide) (by decide) fun tag mem => free tag (swap tag mem)
  · intro first second free free' same
    calc
      first = untagged [openTag, closeTag] (toHtml first) := (together first free).symm
      _ = untagged [openTag, closeTag] (toHtml second) := by rw [same]
      _ = second := together second free'

/-- Halves of tags around the stars do no harm. -/
theorem half_tags_untagged :
    TagFree "*a<strong*b*/strong>*" ∧
      toHtml "*a<strong*b*/strong>*" = "<strong>a<strong</strong>b<strong>/strong></strong>" ∧
      untagged [openTag, closeTag] (toHtml "*a<strong*b*/strong>*") = "*a<strong*b*/strong>*" ∧
      TagFree "<*strong>" ∧ toHtml "*a<strong*b*/strong>*" ≠ toHtml "<*strong>" := by
  obtain ⟨back, injective⟩ := toHtml_loses_nothing
  have free : TagFree "*a<strong*b*/strong>*" := by decide +kernel
  have free' : TagFree "<*strong>" := by decide +kernel
  refine ⟨free, by decide +kernel, (back _ free).1, free', fun same => ?_⟩
  exact absurd (injective _ _ free free' same) (by decide)

end Backtrack.Markup
