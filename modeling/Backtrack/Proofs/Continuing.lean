import Backtrack.Proofs.Termination

/-!
Parses that are never aborted.

A parse is aborted by nothing but a chain whose label gives no parser for what was matched. So it
is never aborted if every chain that occurs goes on with some parser; nothing is asked of how far
the parts advance, and the parse may well be left unfinished.
-/

namespace Backtrack

variable {κ : Type}

namespace Report

variable {r : Report κ}

/-- Changing the fragments of a match neither breaks a call off nor mends it. -/
theorem aborted_mapFragments_iff {f : List String → List String} :
    (r.mapFragments f).ending = .aborted ↔ r.ending = .aborted :=
  ending_mapFragments_iff .aborted nofun

end Report

namespace Matcher

/-- No call is aborted. -/
def Unbroken (m : Matcher κ) : Prop :=
  ∀ c, (m c).ending ≠ .aborted

variable {part first second : Matcher κ} {parts : List (Matcher κ)}

/-! ### Each way of putting matchers together -/

/-- A single character is read without asking a continuation. -/
theorem unbroken_satisfying (accepts : Char → Bool) :
    Unbroken (satisfying accepts : Matcher κ) := by
  intro c
  fun_cases satisfying accepts c with
  | case1 => simp
  | case2 => simp
  | case3 => simp

theorem unbroken_either (ofFirst : Unbroken first) (ofSecond : Unbroken second) :
    Unbroken (either first second) := by
  intro c
  rcases either_cases first second c with same | ⟨-, same⟩
  · rw [same]
    exact ofFirst c
  · rw [same]
    exact ofSecond (first c).cursor

/-- Parts in a row break off only where one of them does. -/
theorem unbroken_inOrder (ofParts : ∀ part ∈ parts, Unbroken part) : Unbroken (inOrder parts) := by
  induction parts with
  | nil =>
      intro c
      simp [inOrder]
  | cons part parts ih =>
      intro c
      obtain ⟨ofPart, ofRest⟩ := List.forall_mem_cons.mp ofParts
      rcases (part c).matched_or_not with ⟨fragments, matched⟩ | other
      · rw [inOrder_cons_of_matched matched, Report.ending_after, Ne,
          Report.aborted_mapFragments_iff]
        exact ih ofRest (part c).cursor
      · rw [inOrder_cons_of_not_matched other]
        exact ofPart c

theorem unbroken_sequence (ofParts : ∀ part ∈ parts, Unbroken part) :
    Unbroken (sequence parts) := by
  intro c
  cases left : c.hasNext with
  | true =>
      rw [sequence_of_hasNext left, Report.ending_rewoundTo]
      exact unbroken_inOrder ofParts c
  | false =>
      rw [sequence_of_exhausted left, Report.ending_still]
      simp

theorem unbroken_merge (ofPart : Unbroken part) : Unbroken (merge part) := by
  intro c
  rw [merge, Report.ending_rewoundTo, Ne, Report.aborted_mapFragments_iff]
  exact ofPart c

theorem unbroken_times (ofPart : Unbroken part) (count : Nat) : Unbroken (times part count) := by
  have loop : ∀ start left found log c,
      (attempts part count start left found log c).ending ≠ .aborted := by
    intro start left found log c
    fun_induction attempts part count start left found log c with
    | case1 => simp
    | case2 left found log c r joined fragments matched ih => exact ih
    | case3 => simp
    | case4 left found log c r joined aborted => exact absurd aborted (ofPart c)
    | case5 => simp
  exact fun c => loop c.checkpoint count #[] ∅ c

/-- An open repetition makes no calls but those of its part. -/
theorem unbroken_oneOrMore (ofPart : Unbroken part) : Unbroken (oneOrMore part) := by
  have closed : ∀ matched found, closing matched found ≠ .aborted := by
    intro matched found aborted
    obtain ⟨answer, answered⟩ := answered_closing matched found
    cases answered.symm.trans (congrArg Ending.answer? aborted)
  have loop : ∀ budget matched found log c,
      (rounds part budget matched found log c).ending ≠ .aborted := by
    intro budget matched found log c
    fun_induction rounds part budget matched found log c with
    | case1 => exact closed _ _
    | case2 => simp
    | case3 matched found log c r joined fragments ended advanced budget ih => exact ih
    | case4 => exact closed _ _
    | case5 budget matched found log c r joined aborted => exact absurd aborted (ofPart c)
    | case6 => simp
  exact fun c => loop c.remaining 0 #[] ∅ c

/-- A chain breaks off only where no parser is chosen, so one that always gets a parser goes on as
long as its two halves do. -/
theorem unbroken_chain {next : List String → Option (Parser κ)} {call : Parser κ → Matcher κ}
    (ofFirst : Unbroken first)
    (ofNext : ∀ c found, (first c).ending = .matched found →
      ∃ continuation, next found = some continuation ∧ Unbroken (call continuation)) :
    Unbroken (chain first next call) := by
  intro c
  rcases (first c).matched_or_not with ⟨found, matched⟩ | other
  · obtain ⟨continuation, onward, unbroken⟩ := ofNext c found matched
    rw [chain_of_some matched onward, Report.ending_after, Report.ending_rewoundTo]
    exact unbroken (first c).cursor
  · rw [chain_of_not_matched other]
    exact ofFirst c

end Matcher

/-! ### Trees and continuations -/

namespace Parser

open Matcher

variable {g : Grammar κ} {depth : Nat} {p : Parser κ}

/-- If the parser is a chain, its label gives a parser for whatever its first part matches. -/
def GoesOn (g : Grammar κ) (p : Parser κ) : Prop :=
  ∀ first label, p = chain first label →
    ∀ depth c fragments, (first.parse g depth c).ending = .matched fragments →
      ∃ continuation, g label fragments = some continuation

/-- Every chain that occurs when `p` runs goes on with some parser. -/
abbrev Continues (g : Grammar κ) (p : Parser κ) : Prop :=
  Throughout g (GoesOn g) p

/-- One level of continuations: what they go on with does not break off, and so the tree does not.
-/
theorem parse_unbroken_of_onward
    (ofOnward : ∀ q, Continues g q → Unbroken (onward g depth q)) (continues : Continues g p) :
    Unbroken (p.parse g depth) := by
  induction p with
  | literal expected => exact unbroken_satisfying _
  | any => exact unbroken_satisfying _
  | anyExcept excluded => exact unbroken_satisfying _
  | either first second ofFirst ofSecond =>
      exact unbroken_either (ofFirst (continues.of_child (by simp)))
        (ofSecond (continues.of_child (by simp)))
  | sequence parts ofParts =>
      rw [parse_sequence]
      refine unbroken_sequence (List.forall_mem_map.mpr fun part mem => ?_)
      exact ofParts part mem (continues.of_child mem)
  | merge whole ofWhole => exact unbroken_merge (ofWhole (continues.of_child (by simp)))
  | times part count ofPart => exact unbroken_times (ofPart (continues.of_child (by simp))) count
  | oneOrMore part ofPart => exact unbroken_oneOrMore (ofPart (continues.of_child (by simp)))
  | chain first label ofFirst =>
      refine unbroken_chain (ofFirst (continues.of_child (by simp))) fun c found matched => ?_
      obtain ⟨continuation, onward⟩ := continues.self first label rfl depth c found matched
      exact ⟨continuation, onward, ofOnward _ (continues.of_continuation matched onward)⟩
  | fail =>
      intro c
      simp [parse_fail]

/-- Where every chain goes on with some parser, no parse is aborted. -/
theorem parse_unbroken (continues : Continues g p) (depth : Nat) : Unbroken (p.parse g depth) := by
  induction depth generalizing p with
  | zero => exact parse_unbroken_of_onward (fun _ _ _ => by simp [onward]) continues
  | succ depth ih => exact parse_unbroken_of_onward (fun _ => ih) continues

/-- Joining the fragments of a match adds no way to break off. -/
theorem parseMerged_unbroken (continues : Continues g p) (depth : Nat) :
    Unbroken (p.parseMerged g depth) := by
  intro c
  rw [parseMerged, Ne, Report.aborted_mapFragments_iff]
  exact parse_unbroken continues depth c

end Parser

end Backtrack
