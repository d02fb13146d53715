import Backtrack.Proofs.Reading
import Backtrack.Term
import Backtrack.Text.Numeral

/-!
Payloads in frames, each behind its own length.

The length of a payload is written in a fixed number of digits, and the parser of what follows is
made from them when they have been read. Frames in a row are read back as the payloads that they
hold, empty ones included: a frame has digits at least, so reading one always advances. What is left
begins with no whole frame, as one that is cut short is given back with its digits.
-/

namespace Backtrack

open Matcher Text

/-! ### Any characters, so many of them -/

namespace Parser

variable {κ : Type} (g : Grammar κ) (depth : Nat)

theorem inRow_any (text rest : List Char) :
    InRow (satisfying (fun _ => true) : Matcher κ) text.length (text ++ rest)
      (text.map String.singleton) rest := by
  induction text with
  | nil => exact .none
  | cons x text ih => exact .next (takes_satisfying rfl _) ih

/-- So many characters, whichever they are, are taken as one fragment. -/
theorem takes_times_any (text rest : List Char) :
    Takes ((merge (times any text.length)).parse g depth) (text ++ rest) [String.ofList text]
      rest := by
  rw [← join_singletons]
  exact takes_merge (takes_times (inRow_any text rest))

theorem refuses_times_any {text : List Char} {count : Nat} (short : text.length < count) :
    Refuses ((merge (times any count)).parse g depth) text := by
  have all := inRow_any (κ := κ) text []
  rw [List.append_nil] at all
  exact refuses_merge (refuses_times all (refuses_satisfying nofun) short)

end Parser

/-! ### Counts in digits -/

/-- A written count is one to four digits, read as a decimal number. -/
theorem shortDecimal?_eq_some_iff {digits : List Char} {n : Nat} :
    shortDecimal? digits = some n ↔
      (digits ≠ [] ∧ digits.length ≤ 4 ∧ ∀ c ∈ digits, c.isDigit = true) ∧
        Nat.ofDigitChars 10 digits 0 = n := by
  rw [shortDecimal?, ← Nat.ofDigitChars_eq_foldl]
  simp only [Bool.and_eq_true, decide_eq_true_eq, List.all_eq_true, Option.ite_none_right_eq_some,
    Option.some.injEq, and_assoc, Nat.one_le_iff_ne_zero, ne_eq, List.length_eq_zero_iff]

/-- A count that fits its width is read back from its digits. -/
theorem shortDecimal?_padded {width n : Nat} (positive : 1 ≤ width) (atMost : width ≤ 4)
    (fits : n < 10 ^ width) : shortDecimal? (padded width n) = some n := by
  have length := length_padded positive fits
  refine shortDecimal?_eq_some_iff.mpr ⟨⟨?_, ?_, ?_⟩, ofDigitChars_padded width n⟩
  · rw [← List.length_pos_iff]
    omega
  · omega
  · exact fun c mem => isDigit_of_mem_padded mem

namespace Frames

variable {width : Nat} {payload : String} {payloads : List String} {text rest : List Char}

/-- The payload behind its length, which is written in as many digits as the width says. -/
def frame (width : Nat) (payload : String) : List Char :=
  padded width payload.length ++ payload.toList

/-- The length of the payload can be written in so many digits. -/
def Fits (width : Nat) (payload : String) : Prop :=
  payload.length < 10 ^ width

instance : Decidable (Fits width payload) :=
  inferInstanceAs (Decidable (payload.length < 10 ^ width))

/-- The text begins with a whole frame. -/
def BeginsFrame (width : Nat) (text : List Char) : Prop :=
  ∃ payload, Fits width payload ∧ frame width payload <+: text

/-- The payloads of the frames that the text begins with, as many as there are, and what is left
behind them. -/
structure Framed (width : Nat) (text : List Char) (payloads : List String) (rest : List Char) :
    Prop where
  fit : ∀ payload ∈ payloads, Fits width payload
  spells : text = payloads.flatMap (frame width) ++ rest
  stops : ¬ BeginsFrame width rest

/-- The digits of a length, and then as many characters as they say, as one fragment. -/
def framed (width : Nat) : Parser Follow :=
  .chain (.merge (.times .any width)) .length

/-- Frames in a row, one fragment each. -/
def frames (width : Nat) : Parser Follow :=
  .oneOrMore (framed width)

/-- A frame is never empty, as it has digits. -/
theorem frame_ne_nil (positive : 1 ≤ width) (fits : Fits width payload) :
    frame width payload ≠ [] := by
  have length := length_padded positive fits
  rw [← List.length_pos_iff, frame, List.length_append]
  omega

theorem not_beginsFrame_nil (positive : 1 ≤ width) : ¬ BeginsFrame width [] := by
  rintro ⟨payload, fits, begins⟩
  exact frame_ne_nil positive fits (List.prefix_nil.mp begins)

/-- Digits and as many characters as they say are a whole frame. -/
theorem beginsFrame_of_enough {digits : List Char} {n : Nat}
    (counts : shortDecimal? digits = some n) (enough : n ≤ rest.length) : BeginsFrame digits.length (digits ++ rest) := by
  obtain ⟨⟨nonempty, -, digit⟩, value⟩ := shortDecimal?_eq_some_iff.mp counts
  have taken : (rest.take n).length = n := by
    rw [List.length_take]
    omega
  have less := ofDigitChars_lt digit
  have numeral := padded_ofDigitChars digit nonempty
  rw [value] at less numeral
  refine ⟨String.ofList (rest.take n), ?_, rest.drop n, ?_⟩
  · rw [Fits, String.length_ofList, taken]
    exact less
  · rw [frame, String.length_ofList, taken, numeral, String.toList_ofList, List.append_assoc,
      List.take_append_drop]

theorem exists_digits (enough : width ≤ text.length) :
    ∃ digits rest, text = digits ++ rest ∧ digits.length = width := by
  refine ⟨text.take width, text.drop width, (List.take_append_drop ..).symm, ?_⟩
  rw [List.length_take]
  omega

/-! ### One frame -/

section Frame

variable (defs : Definitions) (depth : Nat)

/-- Behind digits the grammar goes on with as many characters as they say. -/
theorem grammar_length {digits : List Char} {n : Nat} (counts : shortDecimal? digits = some n) :
    defs.grammar .length [String.ofList digits] = some (.merge (.times .any n)) := by
  simp only [Definitions.grammar, List.head?_cons, Option.bind_some, String.toList_ofList, counts]

/-- What is no written count is followed by nothing that matches. -/
theorem grammar_length_none {digits : List Char} (none : shortDecimal? digits = none) :
    defs.grammar .length [String.ofList digits] = some .fail := by
  simp only [Definitions.grammar, List.head?_cons, Option.bind_some, String.toList_ofList, none]

/-- A frame is taken to its end, and its payload is the one fragment. -/
theorem takes_framed (positive : 1 ≤ width) (atMost : width ≤ 4) (fits : Fits width payload)
    (rest : List Char) :
    Takes ((framed width).parse defs.grammar (depth + 1)) (frame width payload ++ rest) [payload]
      rest := by
  have first := Parser.takes_times_any defs.grammar (depth + 1) (padded width payload.length)
    (payload.toList ++ rest)
  have second := Parser.takes_times_any defs.grammar depth payload.toList rest
  rw [length_padded positive fits] at first
  rw [String.ofList_toList, String.length_toList] at second
  rw [frame, List.append_assoc]
  exact takes_chain first (grammar_length defs (shortDecimal?_padded positive atMost fits)) second

/-- Where no whole frame begins, nothing is taken. -/
theorem refuses_framed (none : ¬ BeginsFrame width text) :
    Refuses ((framed width).parse defs.grammar (depth + 1)) text := by
  by_cases short : text.length < width
  · exact refuses_chain_left (Parser.refuses_times_any _ _ short)
  · obtain ⟨digits, rest, rfl, rfl⟩ := exists_digits (Nat.le_of_not_lt short)
    have first := Parser.takes_times_any defs.grammar (depth + 1) digits rest
    cases counts : shortDecimal? digits with
    | none => exact refuses_chain_right first (grammar_length_none defs counts) fun _ _ => rfl
    | some n =>
        apply refuses_chain_right first (grammar_length defs counts)
        apply Parser.refuses_times_any
        apply Nat.lt_of_not_le
        intro enough
        exact none (beginsFrame_of_enough counts enough)

end Frame

/-! ### Frames in a row -/

/-- Every text can be cut into frames up to a place where none begins. -/
theorem exists_framed (positive : 1 ≤ width) (text : List Char) :
    ∃ payloads rest, Framed width text payloads rest := by
  obtain ⟨payloads, rest, fit, spells, stops⟩ :=
    exists_pieces (frame width) (Fits width) (fun _ => frame_ne_nil positive) text
  refine ⟨payloads, rest, fit, spells, ?_⟩
  rintro ⟨payload, fits, begins⟩
  exact stops payload fits begins

/-- A text begins with no whole frame exactly if it has no payloads in frames. -/
theorem Framed.eq_nil_iff (ofText : Framed width text payloads rest) :
    payloads = [] ↔ ¬ BeginsFrame width text := by
  obtain ⟨fit, rfl, stops⟩ := ofText
  cases payloads with
  | nil => exact iff_of_true rfl stops
  | cons payload payloads =>
      apply iff_of_false (List.cons_ne_nil _ _)
      refine not_not_intro ⟨payload, fit payload List.mem_cons_self, ?_⟩
      rw [List.flatMap_cons, List.append_assoc]
      exact List.prefix_append ..

section Row

variable (defs : Definitions) (depth : Nat)

/-- The frames of a text are the rounds of the repetition. -/
theorem Framed.rounds (ofText : Framed width text payloads rest) (positive : 1 ≤ width)
    (atMost : width ≤ 4) :
    Rounds ((framed width).parse defs.grammar (depth + 1)) text payloads rest := by
  obtain ⟨fit, rfl, stops⟩ := ofText
  have taken := rounds_pieces (frame width) (fun payload => [payload])
    (fun payload mem => ⟨frame_ne_nil positive (fit payload mem),
      takes_framed defs depth positive atMost (fit payload mem)⟩)
    (refuses_framed defs depth stops)
  rwa [List.flatMap_singleton'] at taken

/-- Payloads in frames are found, and what follows the last whole frame is left. -/
theorem Framed.completion {text : String} (ofText : Framed width text.toList payloads rest)
    (positive : 1 ≤ width) (atMost : width ≤ 4) (nonempty : payloads ≠ []) :
    ((frames width).run defs.grammar (depth + 1) text).completion =
      .finished ⟨some payloads, String.ofList rest⟩ := by
  apply Parser.run_of_takes
  apply (ofText.rounds defs depth positive atMost).takes_oneOrMore (Parser.parse_lawful ..)
  rintro rfl
  exact (not_congr ofText.eq_nil_iff).mp nonempty ofText.stops

end Row

/-- **Frames are read back.** A text that begins with no whole frame is refused. Any other text is
cut into the payloads of its frames, the empty ones among them, and a rest that begins with no whole
frame. So payloads written in frames, one behind the other, are read back with nothing left. -/
theorem frames_read_back (defs : Definitions) (depth : Nat) (positive : 1 ≤ width)
    (atMost : width ≤ 4) :
    (∀ text : String, ∃ outcome,
        ((frames width).run defs.grammar (depth + 1) text).completion = .finished outcome ∧
        (outcome.fragments? = none ↔ ¬ BeginsFrame width text.toList) ∧
        ∀ payloads, outcome.fragments? = some payloads →
          payloads ≠ [] ∧ Framed width text.toList payloads outcome.remainder.toList) ∧
      ∀ payloads, payloads ≠ [] → (∀ payload ∈ payloads, Fits width payload) →
        ((frames width).run defs.grammar (depth + 1)
            (String.ofList (payloads.flatMap (frame width)))).completion =
          .finished ⟨some payloads, ""⟩ := by
  constructor
  · intro text
    obtain ⟨payloads, rest, ofText⟩ := exists_framed positive text.toList
    by_cases empty : payloads = []
    · have refused := ofText.eq_nil_iff.mp empty
      refine ⟨_, Parser.run_of_refuses (refuses_oneOrMore (refuses_framed defs depth refused)),
        iff_of_true rfl refused, nofun⟩
    · refine ⟨_, ofText.completion defs depth positive atMost empty,
        iff_of_false nofun ((not_congr ofText.eq_nil_iff).mp empty), ?_⟩
      rintro _ ⟨⟩
      rw [String.toList_ofList]
      exact ⟨empty, ofText⟩
  · intro payloads nonempty fit
    have spells : (String.ofList (payloads.flatMap (frame width))).toList =
        payloads.flatMap (frame width) ++ [] := by
      rw [String.toList_ofList, List.append_nil]
    have ofText := Framed.mk fit spells (not_beginsFrame_nil positive)
    exact ofText.completion defs depth positive atMost nonempty

/-- Frames with nothing in them are read as well, at the end of a text and before a frame that is
cut short. -/
theorem empty_frames_read :
    (1 ≤ 1 ∧ 1 ≤ 4 ∧ ["a,b", ""] ≠ [] ∧ ∀ payload ∈ ["a,b", ""], Fits 1 payload) ∧
      ((frames 1).run (Definitions.grammar []) 1 "3a,b0").completion =
        .finished ⟨some ["a,b", ""], ""⟩ ∧
      ∃ outcome, ((frames 1).run (Definitions.grammar []) 1 "02x").completion =
          .finished outcome ∧ outcome.fragments? ≠ none := by
  have fit : ∀ payload ∈ ["a,b", ""], Fits 1 payload := by decide
  have begins : BeginsFrame 1 "02x".toList :=
    ⟨"", by decide, ['2', 'x'], by decide⟩
  obtain ⟨ofTexts, ofPayloads⟩ :=
    frames_read_back [] 0 (Nat.le_refl 1) (by decide : 1 ≤ 4)
  obtain ⟨outcome, finished, refused, -⟩ := ofTexts "02x"
  exact ⟨⟨by decide, by decide, by decide, fit⟩, ofPayloads ["a,b", ""] (by decide) fit, outcome,
    finished, fun none => refused.mp none begins⟩

end Frames

end Backtrack
