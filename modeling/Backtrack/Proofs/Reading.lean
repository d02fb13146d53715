import Backtrack.Proofs.Bounds

/-!
What a parser makes of a text, wherever that text stands.

`Takes m text fragments rest` says that the matcher matches wherever `text` is unread, with these
fragments, and leaves `rest` unread; `Refuses m text` says that it finds nothing there. Each way of
putting matchers together has a rule for either judgment, so what a grammar does to a text is read
off rule by rule. An open repetition takes what its `Rounds` take.
-/

namespace Backtrack

variable {κ : Type}

/-- Two places of one text at the same position have the same text before them. -/
theorem Cursor.rest_eq_of_checkpoint_eq {c d : Cursor} (data : d.data = c.data)
    (same : d.checkpoint = c.checkpoint) : d.rest = c.rest := by
  rw [eq_of_data_of_position data (congrArg Checkpoint.position same)]

namespace Matcher

/-- Wherever `text` is unread the matcher matches with `fragments` and leaves `rest`. -/
def Takes (m : Matcher κ) (text : List Char) (fragments : List String) (rest : List Char) : Prop :=
  ∀ c, c.rest = text → (m c).ending = .matched fragments ∧ (m c).cursor.rest = rest

/-- Wherever `text` is unread the matcher finds nothing. -/
def Refuses (m : Matcher κ) (text : List Char) : Prop :=
  ∀ c, c.rest = text → (m c).ending = .noMatch

variable {m first second part whole : Matcher κ} {parts : List (Matcher κ)}
  {text middle rest : List Char} {found more fragments : List String}

/-- What is taken of a text is determined. -/
theorem Takes.unique {rest' : List Char} (first : Takes m text found rest)
    (second : Takes m text more rest') : found = more ∧ rest = rest' := by
  have unread : (Cursor.ofString (String.ofList text)).rest = text := by
    rw [Cursor.rest_ofString, String.toList_ofList]
  obtain ⟨here, left⟩ := first _ unread
  obtain ⟨there, left'⟩ := second _ unread
  exact ⟨Ending.matched.inj (here.symm.trans there), left.symm.trans left'⟩

/-! ### Single characters -/

/-- A character that passes the test is taken as a fragment. -/
theorem takes_satisfying {accepts : Char → Bool} {x : Char} (accepted : accepts x = true)
    (rest : List Char) :
    Takes (satisfying accepts : Matcher κ) (x :: rest) [String.singleton x] rest := by
  intro c unread
  have read : c.peek? = some x := by rw [Cursor.peek?_eq_head?, unread, List.head?_cons]
  simp [satisfying, read, accepted, Cursor.rest_advance, unread]

/-- A character that does not pass is refused, and so is the end of the text. -/
theorem refuses_satisfying {accepts : Char → Bool}
    (rejected : ∀ x, text.head? = some x → accepts x = false) :
    Refuses (satisfying accepts : Matcher κ) text := by
  intro c unread
  fun_cases satisfying accepts c with
  | case1 => rfl
  | case2 x read accepted =>
      rw [Cursor.peek?_eq_head?, unread] at read
      cases accepted.symm.trans (rejected x read)
  | case3 => rfl

theorem takes_char (c : Char) (rest : List Char) :
    Takes (satisfying (· == c) : Matcher κ) (c :: rest) [String.singleton c] rest :=
  takes_satisfying (by simp) rest

theorem refuses_char {c : Char} (other : text.head? ≠ some c) :
    Refuses (satisfying (· == c) : Matcher κ) text := by
  apply refuses_satisfying
  intro x first
  exact beq_false_of_ne fun same => other (same ▸ first)

/-- Characters matched one by one spell their text. -/
theorem join_singletons (text : List Char) :
    String.join (text.map String.singleton) = String.ofList text := by
  rw [← String.toList_inj, String.toList_join, List.flatMap_map, String.toList_ofList]
  simp only [String.toList_singleton, List.flatMap_singleton']

/-! ### Choice -/

theorem takes_either_left (ofFirst : Takes first text fragments rest) :
    Takes (either first second) text fragments rest := by
  intro c unread
  have here := ofFirst c unread
  rw [either_of_ne_noMatch (by rw [here.1]; exact nofun)]
  exact here

/-- What the second choice takes is taken where the first refuses. -/
theorem takes_either_right (lawful : Lawful first) (ofFirst : Refuses first text)
    (ofSecond : Takes second text fragments rest) :
    Takes (either first second) text fragments rest := by
  intro c unread
  have noMatch := ofFirst c unread
  rw [either_of_noMatch noMatch, lawful.restores c noMatch]
  exact ofSecond c unread

/-- A text is refused if both choices refuse it. -/
theorem refuses_either (lawful : Lawful first) (ofFirst : Refuses first text)
    (ofSecond : Refuses second text) : Refuses (either first second) text := by
  intro c unread
  have noMatch := ofFirst c unread
  rw [either_of_noMatch noMatch, lawful.restores c noMatch]
  exact ofSecond c unread

/-! ### Sequence -/

theorem takes_inOrder_nil (text : List Char) : Takes (inOrder [] : Matcher κ) text [] text :=
  fun _ unread => ⟨rfl, unread⟩

/-- The first part takes what it does, and the others go on behind it. -/
theorem takes_inOrder_cons (ofPart : Takes part text found middle)
    (ofRest : Takes (inOrder parts) middle more rest) :
    Takes (inOrder (part :: parts)) text (found ++ more) rest := by
  intro c unread
  obtain ⟨here, left⟩ := ofPart c unread
  obtain ⟨there, left'⟩ := ofRest _ left
  rw [inOrder_cons_of_matched here]
  refine ⟨Report.mapFragments_of_matched there _, ?_⟩
  rw [Report.cursor_after, Report.cursor_mapFragments, left']

/-- Parts in a row refuse a text that the first of them refuses. -/
theorem refuses_inOrder_head (ofPart : Refuses part text) :
    Refuses (inOrder (part :: parts)) text := by
  intro c unread
  have noMatch := ofPart c unread
  rw [inOrder_cons_of_not_matched (Report.not_matched_of_noMatch noMatch)]
  exact noMatch

/-- They refuse it as well where the others refuse what the first has left. -/
theorem refuses_inOrder_tail (ofPart : Takes part text found middle)
    (ofRest : Refuses (inOrder parts) middle) : Refuses (inOrder (part :: parts)) text := by
  intro c unread
  obtain ⟨here, left⟩ := ofPart c unread
  have noMatch := ofRest _ left
  rw [inOrder_cons_of_matched here,
    Report.mapFragments_of_not_matched (Report.not_matched_of_noMatch noMatch)]
  exact noMatch

/-- A sequence takes what its parts take in order, if there is anything to take. -/
theorem takes_sequence (nonempty : text ≠ [])
    (ofParts : Takes (inOrder parts) text fragments rest) :
    Takes (sequence parts) text fragments rest := by
  intro c unread
  obtain ⟨here, left⟩ := ofParts c unread
  have hasNext : c.hasNext = true := by
    rwa [← unread, ne_eq, Cursor.rest_eq_nil_iff, Bool.not_eq_false] at nonempty
  rw [sequence_of_hasNext hasNext, Report.rewoundTo_of_matched here]
  exact ⟨here, left⟩

/-- A sequence goes back to its start where its parts stopped somewhere in between. -/
theorem refuses_sequence (ofParts : Refuses (inOrder parts) text) :
    Refuses (sequence parts) text := by
  intro c unread
  cases left : c.hasNext with
  | true =>
      rw [sequence_of_hasNext left, Report.ending_rewoundTo]
      exact ofParts c unread
  | false =>
      rw [sequence_of_exhausted left]
      rfl

/-- At the end of the text a sequence does not even begin. -/
theorem refuses_sequence_nil : Refuses (sequence parts) [] := by
  intro c unread
  rw [sequence_of_exhausted (Cursor.rest_eq_nil_iff.mp unread)]
  rfl

theorem takes_pair (nonempty : text ≠ []) (ofFirst : Takes first text found middle)
    (ofSecond : Takes second middle more rest) :
    Takes (sequence [first, second]) text (found ++ more) rest := by
  refine takes_sequence nonempty (takes_inOrder_cons ofFirst ?_)
  rw [← List.append_nil more]
  exact takes_inOrder_cons ofSecond (takes_inOrder_nil rest)

theorem refuses_pair_left (ofFirst : Refuses first text) :
    Refuses (sequence [first, second]) text :=
  refuses_sequence (refuses_inOrder_head ofFirst)

theorem refuses_pair_right (ofFirst : Takes first text found middle)
    (ofSecond : Refuses second middle) : Refuses (sequence [first, second]) text :=
  refuses_sequence (refuses_inOrder_tail ofFirst (refuses_inOrder_head ofSecond))

/-! ### Grouping -/

/-- A grouping takes what its parser does, as one fragment. -/
theorem takes_merge (ofWhole : Takes whole text fragments rest) :
    Takes (merge whole) text [String.join fragments] rest := by
  intro c unread
  obtain ⟨here, left⟩ := ofWhole c unread
  have joined := Report.mapFragments_of_matched here fun found => [String.join found]
  rw [merge, Report.rewoundTo_of_matched joined, Report.cursor_mapFragments]
  exact ⟨joined, left⟩

theorem refuses_merge (ofWhole : Refuses whole text) : Refuses (merge whole) text := by
  intro c unread
  have noMatch := ofWhole c unread
  rw [merge, Report.ending_rewoundTo,
    Report.mapFragments_of_not_matched (Report.not_matched_of_noMatch noMatch)]
  exact noMatch

/-! ### Chains -/

section Chains

variable {next : List String → Option (Parser κ)} {call : Parser κ → Matcher κ}
  {continuation : Parser κ}

/-- A chain has the fragments of its second half, and takes what both halves do. -/
theorem takes_chain (ofFirst : Takes first text found middle)
    (onward : next found = some continuation)
    (ofCall : Takes (call continuation) middle fragments rest) :
    Takes (chain first next call) text fragments rest := by
  intro c unread
  obtain ⟨here, left⟩ := ofFirst c unread
  obtain ⟨there, left'⟩ := ofCall _ left
  rw [chain_of_some here onward, Report.rewoundTo_of_matched there]
  exact ⟨there, left'⟩

/-- A chain refuses what its first half refuses. -/
theorem refuses_chain_left (ofFirst : Refuses first text) :
    Refuses (chain first next call) text := by
  intro c unread
  have noMatch := ofFirst c unread
  rw [chain_of_not_matched (Report.not_matched_of_noMatch noMatch)]
  exact noMatch

/-- A chain refuses a text where the parser that it chose refuses what is left, and goes back. -/
theorem refuses_chain_right (ofFirst : Takes first text found middle)
    (onward : next found = some continuation) (ofCall : Refuses (call continuation) middle) :
    Refuses (chain first next call) text := by
  intro c unread
  obtain ⟨here, left⟩ := ofFirst c unread
  rw [chain_of_some here onward, Report.ending_after, Report.ending_rewoundTo]
  exact ofCall _ left

end Chains

/-! ### Counted repetition -/

/-- A number of matches in a row. -/
inductive InRow (m : Matcher κ) : Nat → List Char → List String → List Char → Prop where
  | none {text : List Char} : InRow m 0 text [] text
  | next {count : Nat} {text middle rest : List Char} {found more : List String} :
      Takes m text found middle → InRow m count middle more rest →
      InRow m (count + 1) text (found ++ more) rest

/-- The attempts of a counted repetition over matches in a row; what was found before comes first.
-/
theorem InRow.ending_attempts {left : Nat} (taken : InRow part left text more rest) {c : Cursor}
    (unread : c.rest = text) (count : Nat) (start : Checkpoint) (sofar : Array String)
    (log : Log κ) :
    (attempts part count start left sofar log c).ending = .matched (sofar.toList ++ more) ∧
      (attempts part count start left sofar log c).cursor.rest = rest := by
  induction taken generalizing c sofar log with
  | none =>
      rw [attempts, List.append_nil]
      exact ⟨rfl, unread⟩
  | @next _ _ _ _ found _ takes _ ih =>
      obtain ⟨here, unread⟩ := takes c unread
      rw [attempts]
      simp only [here]
      have onward := ih unread (sofar ++ found) (log ++ .oneAttempt ++ (part c).log)
      rwa [Array.toList_appendList, List.append_assoc] at onward

/-- A counted repetition takes as many matches in a row. -/
theorem takes_times {count : Nat} (taken : InRow part count text fragments rest) :
    Takes (times part count) text fragments rest :=
  fun c unread => taken.ending_attempts unread count c.checkpoint #[] ∅

/-- Too few matches in a row, and the attempts come to nothing. -/
theorem InRow.attempts_noMatch {taken left : Nat} (inRow : InRow part taken text more rest)
    (ofPart : Refuses part rest) (short : taken < left) {c : Cursor} (unread : c.rest = text)
    (count : Nat) (start : Checkpoint) (sofar : Array String) (log : Log κ) :
    (attempts part count start left sofar log c).ending = .noMatch := by
  induction inRow generalizing c left sofar log with
  | none =>
      cases left with
      | zero => omega
      | succ left =>
          rw [attempts]
          simp only [ofPart c unread]
  | next takes _ ih =>
      cases left with
      | zero => omega
      | succ left =>
          obtain ⟨here, unread⟩ := takes c unread
          rw [attempts]
          simp only [here]
          exact ih ofPart (Nat.lt_of_succ_lt_succ short) unread _ _

/-- Too few matches in a row are none. -/
theorem refuses_times {taken count : Nat} (inRow : InRow part taken text more rest)
    (ofPart : Refuses part rest) (short : taken < count) : Refuses (times part count) text :=
  fun c unread => inRow.attempts_noMatch ofPart short unread count c.checkpoint #[] ∅

/-! ### Open repetition -/

/-- The rounds of an open repetition. Each takes something off the text, and the last one meets a
text that the matcher refuses. -/
inductive Rounds (m : Matcher κ) : List Char → List String → List Char → Prop where
  | stop {text : List Char} : Refuses m text → Rounds m text [] text
  | round {text middle rest : List Char} {found more : List String} :
      Takes m text found middle → middle.length < text.length → Rounds m middle more rest →
      Rounds m text (found ++ more) rest

/-- A round that takes something off the text advances. -/
theorem Takes.advances (takes : Takes part text found middle) (lawful : Lawful part)
    (less : middle.length < text.length) {c : Cursor} (unread : c.rest = text) :
    (part c).cursor.checkpoint ≠ c.checkpoint := by
  intro same
  have kept := Cursor.rest_eq_of_checkpoint_eq (lawful.data c) same
  rw [(takes c unread).2, unread] at kept
  rw [kept] at less
  exact Nat.lt_irrefl _ less

/-- One round of the loop that takes something off the text. -/
theorem rounds_of_takes (takes : Takes part text found middle) (lawful : Lawful part)
    (less : middle.length < text.length) {c : Cursor} (unread : c.rest = text) {budget : Nat}
    (enough : text.length ≤ budget) (matched : Nat) (sofar : Array String) (log : Log κ) :
    ∃ budget' log', middle.length ≤ budget' ∧ rounds part budget matched sofar log c =
      rounds part budget' (matched + 1) (sofar ++ found) log' (part c).cursor := by
  cases budget with
  | zero => omega
  | succ budget =>
      refine ⟨budget, log ++ .oneAttempt ++ (part c).log, by omega, ?_⟩
      rw [rounds]
      simp only [(takes c unread).1, takes.advances lawful less unread, if_false]

/-- After a first match the loop takes the rounds that there are. -/
theorem Rounds.ending_rounds (taken : Rounds part text more rest) (lawful : Lawful part)
    {c : Cursor} (unread : c.rest = text) {budget matched : Nat} (enough : text.length ≤ budget)
    (some : matched ≠ 0) (sofar : Array String) (log : Log κ) :
    (rounds part budget matched sofar log c).ending = .matched (sofar.toList ++ more) ∧
      (rounds part budget matched sofar log c).cursor.rest = rest := by
  induction taken generalizing c budget matched sofar log with
  | stop refuses =>
      have noMatch := refuses c unread
      rw [rounds]
      simp only [noMatch, closing, some, if_false, List.append_nil]
      rw [lawful.restores c noMatch]
      exact ⟨trivial, unread⟩
  | @round text middle rest found more takes less _ ih =>
      obtain ⟨budget', log', enough', same⟩ :=
        rounds_of_takes takes lawful less unread enough matched sofar log
      rw [same]
      have onward := ih (takes c unread).2 enough' (Nat.succ_ne_zero matched) (sofar ++ found) log'
      rwa [Array.toList_appendList, List.append_assoc] at onward

/-- An open repetition takes a first match that advances, and the rounds behind it. -/
theorem takes_oneOrMore (lawful : Lawful part) (takes : Takes part text found middle)
    (less : middle.length < text.length) (taken : Rounds part middle more rest) :
    Takes (oneOrMore part) text (found ++ more) rest := by
  intro c unread
  have remaining : text.length = c.remaining := by rw [← Cursor.length_rest, unread]
  obtain ⟨budget, log, enough', same⟩ :=
    rounds_of_takes takes lawful less unread (Nat.le_of_eq remaining) 0 #[] ∅
  rw [oneOrMore, same]
  have onward := taken.ending_rounds lawful (takes c unread).2 enough' Nat.one_ne_zero
    ((#[] : Array String) ++ found) log
  rw [Array.toList_appendList, List.nil_append] at onward
  exact onward

/-- An open repetition needs a first match. -/
theorem refuses_oneOrMore (ofPart : Refuses part text) : Refuses (oneOrMore part) text := by
  intro c unread
  have noMatch := ofPart c unread
  rw [oneOrMore, rounds]
  simp only [noMatch, closing, if_true]

/-- An open repetition takes all of its rounds, if they take anything. -/
theorem Rounds.takes_oneOrMore (taken : Rounds part text fragments rest) (lawful : Lawful part)
    (moved : rest ≠ text) : Takes (oneOrMore part) text fragments rest := by
  cases taken with
  | stop => exact absurd rfl moved
  | round takes less onward => exact Matcher.takes_oneOrMore lawful takes less onward

/-! ### Characters in a row -/

section Characters

variable {accepts : Char → Bool} {run : List Char}

/-- To have only other characters is not to have the excluded one. -/
theorem forall_mem_bne_iff {excluded : Char} :
    (∀ x ∈ run, (x != excluded) = true) ↔ excluded ∉ run := by
  simp only [bne_iff_ne, ne_eq]
  exact List.forall_mem_ne'

/-- Every text is characters that pass a test, and then its end or one that does not. -/
theorem exists_run_append (accepts : Char → Bool) (text : List Char) :
    ∃ run rest, text = run ++ rest ∧ (∀ x ∈ run, accepts x = true) ∧
      ∀ x, rest.head? = some x → accepts x = false := by
  refine ⟨text.takeWhile accepts, text.dropWhile accepts, List.takeWhile_append_dropWhile.symm,
    List.all_eq_true.mp List.all_takeWhile, fun x first => ?_⟩
  have stops := List.head?_dropWhile_not accepts text
  rwa [first] at stops

/-- An open repetition takes characters one by one, up to the first that does not pass the test. -/
theorem rounds_satisfying (accepted : ∀ x ∈ run, accepts x = true)
    (ends : ∀ x, rest.head? = some x → accepts x = false) :
    Rounds (satisfying accepts : Matcher κ) (run ++ rest) (run.map String.singleton) rest := by
  induction run with
  | nil => exact .stop (refuses_satisfying ends)
  | cons x run ih =>
      obtain ⟨ofFirst, ofRun⟩ := List.forall_mem_cons.mp accepted
      have first : Takes (satisfying accepts : Matcher κ) (x :: (run ++ rest))
          [String.singleton x] (run ++ rest) := takes_satisfying ofFirst _
      exact .round first (Nat.lt_succ_self _) (ih ofRun)

/-- A run of characters that pass the test is taken to its end, one fragment each. -/
theorem takes_run (nonempty : run ≠ []) (accepted : ∀ x ∈ run, accepts x = true)
    (ends : ∀ x, rest.head? = some x → accepts x = false) :
    Takes (oneOrMore (satisfying accepts) : Matcher κ) (run ++ rest) (run.map String.singleton)
      rest := by
  refine (rounds_satisfying accepted ends).takes_oneOrMore (lawful_satisfying _) fun same => ?_
  exact nonempty (List.append_left_eq_self.mp same.symm)

/-- Grouped, such a run is one fragment. -/
theorem takes_merge_run (nonempty : run ≠ []) (accepted : ∀ x ∈ run, accepts x = true)
    (ends : ∀ x, rest.head? = some x → accepts x = false) :
    Takes (merge (oneOrMore (satisfying accepts)) : Matcher κ) (run ++ rest) [String.ofList run]
      rest := by
  rw [← join_singletons]
  exact takes_merge (takes_run nonempty accepted ends)

end Characters

/-! ### Texts in pieces -/

section Pieces

variable {α : Type} (write : α → List Char) {pieces : List α}

/-- An open repetition takes the pieces of a text one by one, and stops where no further one is. -/
theorem rounds_pieces (shown : α → List String) (takes : ∀ piece ∈ pieces, write piece ≠ [] ∧
      ∀ rest, Takes m (write piece ++ rest) (shown piece) rest) (stops : Refuses m rest) :
    Rounds m (pieces.flatMap write ++ rest) (pieces.flatMap shown) rest := by
  induction pieces with
  | nil => exact .stop stops
  | cons piece pieces ih =>
      obtain ⟨⟨nonempty, ofPiece⟩, ofPieces⟩ := List.forall_mem_cons.mp takes
      rw [List.flatMap_cons, List.flatMap_cons, List.append_assoc]
      apply Rounds.round (ofPiece _) _ (ih ofPieces)
      have positive := List.length_pos_iff.mpr nonempty
      simp only [List.length_append]
      omega

/-- Every text begins with pieces as long as there are any. -/
theorem exists_pieces (valid : α → Prop) (nonempty : ∀ piece, valid piece → write piece ≠ [])
    (text : List Char) :
    ∃ (pieces : List α) (rest : List Char), (∀ piece ∈ pieces, valid piece) ∧
      text = pieces.flatMap write ++ rest ∧ ∀ piece, valid piece → ¬ write piece <+: rest := by
  induction size : text.length using Nat.strongRecOn generalizing text with
  | ind n ih =>
      subst size
      by_cases begins : ∃ piece, valid piece ∧ write piece <+: text
      · obtain ⟨piece, ofPiece, behind, rfl⟩ := begins
        have less : behind.length < (write piece ++ behind).length := by
          rw [List.length_append]
          exact Nat.lt_add_of_pos_left (List.length_pos_iff.mpr (nonempty piece ofPiece))
        obtain ⟨pieces, rest, ofPieces, rfl, stops⟩ := ih _ less behind rfl
        refine ⟨piece :: pieces, rest, List.forall_mem_cons.mpr ⟨ofPiece, ofPieces⟩, ?_, stops⟩
        rw [List.flatMap_cons, List.append_assoc]
      · exact ⟨[], text, nofun, rfl, fun piece ofPiece here => begins ⟨piece, ofPiece, here⟩⟩

end Pieces

end Matcher

/-! ### Runs -/

namespace Parser

open Matcher

variable {g : Grammar κ} {depth : Nat} {p : Parser κ} {text : String}

/-- A run over a text that the parser takes comes to its fragments and the rest. -/
theorem run_of_takes {fragments : List String} {rest : List Char}
    (takes : Takes (p.parse g depth) text.toList fragments rest) :
    (p.run g depth text).completion = .finished ⟨some fragments, String.ofList rest⟩ := by
  obtain ⟨matched, left⟩ := takes (.ofString text) (Cursor.rest_ofString text)
  have answered := congrArg Ending.answer? matched
  rw [run_of_answer answered, left]

/-- A run over a text that the parser refuses comes to nothing, and leaves the whole text. -/
theorem run_of_refuses (refuses : Refuses (p.parse g depth) text.toList) :
    (p.run g depth text).completion = .finished ⟨none, text⟩ := by
  have noMatch := refuses (.ofString text) (Cursor.rest_ofString text)
  have answered := congrArg Ending.answer? noMatch
  rw [run_of_answer answered, (parse_lawful g depth p).restores _ noMatch, Cursor.rest_ofString,
    String.ofList_toList]

/-- A text that an open repetition takes off round by round is all matched. -/
theorem run_of_rounds {fragments : List String}
    (taken : Rounds (p.parse g depth) text.toList fragments []) (nonempty : text ≠ "") :
    ((Parser.oneOrMore p).run g depth text).completion = .finished ⟨some fragments, ""⟩ := by
  have moved : [] ≠ text.toList := Ne.symm (mt String.toList_eq_nil_iff.mp nonempty)
  exact run_of_takes (taken.takes_oneOrMore (parse_lawful g depth p) moved)

/-- An open repetition fails on the empty text if its part does. -/
theorem run_of_no_rounds (refuses : Refuses (p.parse g depth) []) :
    ((Parser.oneOrMore p).run g depth "").completion = .finished ⟨none, ""⟩ :=
  run_of_refuses (refuses_oneOrMore refuses)

/-- What a parser without chains makes of a text is how its run finishes. -/
theorem outcome_of_finished {p : Parser Empty} {outcome : Outcome}
    (finished : (p.run .chainFree 0 text).completion = .finished outcome) :
    p.outcome text = outcome := by
  rw [Parser.outcome, Run.outcome?, finished, Option.getD_some]

end Parser

end Backtrack
