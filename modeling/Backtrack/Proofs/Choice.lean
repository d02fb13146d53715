import Backtrack.Proofs.Factoring

/-!
Choices among many parsers.

However the choices are nested in each other, the parsers at their leaves are tried in turn
(`inTurn`), as a choice in a choice may be bracketed either way and a failing parser adds nothing.
Both hold to the last event of the log. A parser that is tried again behind itself is tried where it
has failed: each alternative that found nothing has left the cursor alone, so it fails again from
the same place, and only the log tells.
-/

namespace Backtrack

variable {κ : Type}

/-! ### What is done where nothing matched -/

namespace Report

@[simp] theorem orElse_still_noMatch (r : Report κ) : r.orElse (still .noMatch) = r := by
  cases r with
  | mk ending cursor log =>
      cases ending with
      | noMatch => exact congrArg (Report.mk .noMatch cursor) log.append_empty
      | _ => rfl

theorem after_orElse (r : Report κ) (log : Log κ) (next : Matcher κ) :
    (r.after log).orElse next = (r.orElse next).after log := by
  cases r with
  | mk ending cursor log' =>
      cases ending with
      | noMatch => exact congrArg (Report.mk _ _) (Log.append_assoc ..)
      | _ => rfl

theorem orElse_orElse (r : Report κ) (next next' : Matcher κ) :
    (r.orElse next).orElse next' = r.orElse fun c => (next c).orElse next' := by
  cases r with
  | mk ending cursor log =>
      cases ending with
      | noMatch => exact after_orElse _ log next'
      | _ => rfl

end Report

namespace Matcher

open Report

variable {m : Matcher κ} {earlier : List (Matcher κ)} {c : Cursor}

/-! ### Matchers in turn -/

/-- The matchers in turn, up to the first that does not come back empty-handed. -/
def inTurn : List (Matcher κ) → Matcher κ
  | [] => still .noMatch
  | m :: ms => either m (inTurn ms)

/-- A matcher that always fails adds nothing in front of another one. -/
theorem either_still_left (m : Matcher κ) : either (still .noMatch) m = m := by
  funext c
  rw [either_of_noMatch rfl, cursor_still, log_still, after, Log.empty_append]

/-- Nor does it add anything behind another one. -/
theorem either_still_right (m : Matcher κ) : either m (still .noMatch) = m :=
  funext fun c => orElse_still_noMatch (m c)

/-- A choice in a choice may be bracketed either way. -/
theorem either_assoc (first second third : Matcher κ) :
    either (either first second) third = either first (either second third) :=
  funext fun c => orElse_orElse (first c) second third

theorem inTurn_append (earlier later : List (Matcher κ)) :
    inTurn (earlier ++ later) = either (inTurn earlier) (inTurn later) := by
  induction earlier with
  | nil => exact (either_still_left _).symm
  | cons m earlier ih => rw [List.cons_append, inTurn, ih, inTurn, either_assoc]

/-! ### Which one counts -/

/-- Matchers that find nothing make no difference to those behind them. -/
theorem inTurn_append_agrees (lawful : ∀ m ∈ earlier, Lawful m)
    (noMatch : ∀ m ∈ earlier, (m c).ending = .noMatch) (later : List (Matcher κ)) :
    (inTurn (earlier ++ later) c).Agrees (inTurn later c) := by
  induction earlier with
  | nil => exact .refl _
  | cons m earlier ih =>
      obtain ⟨ofFirst, ofRest⟩ := List.forall_mem_cons.mp lawful
      obtain ⟨here, onward⟩ := List.forall_mem_cons.mp noMatch
      exact (either_agrees_of_noMatch ofFirst here _).trans (ih ofRest onward)

/-- The first that does not find nothing decides. -/
theorem inTurn_agrees (lawful : ∀ m ∈ earlier, Lawful m)
    (noMatch : ∀ m ∈ earlier, (m c).ending = .noMatch) (other : (m c).ending ≠ .noMatch)
    (later : List (Matcher κ)) : (inTurn (earlier ++ m :: later) c).Agrees (m c) :=
  (inTurn_append_agrees lawful noMatch (m :: later)).trans (.of_eq (either_of_ne_noMatch other))

theorem inTurn_noMatch (lawful : ∀ m ∈ earlier, Lawful m)
    (noMatch : ∀ m ∈ earlier, (m c).ending = .noMatch) :
    (inTurn earlier c).Agrees (still .noMatch c) := by
  have whole := inTurn_append_agrees lawful noMatch []
  rwa [List.append_nil] at whole

end Matcher

open Matcher

/-- A choice that grows by one parser after the other tries them in turn. -/
theorem Parser.parse_foldl_either (g : Grammar κ) (depth : Nat) (first : Parser κ)
    (ps : List (Parser κ)) :
    (ps.foldl either first).parse g depth = inTurn ((first :: ps).map (parse g depth)) := by
  induction ps generalizing first with
  | nil => exact (either_still_right _).symm
  | cons p ps ih =>
      rw [List.foldl_cons, ih, List.map_cons, List.map_cons, List.map_cons, inTurn, inTurn, inTurn,
        parse_either, either_assoc]

/-! ### Trees of choices -/

/-- A choice among parsers, with its brackets. -/
inductive Choice (κ : Type) where
  | leaf (p : Parser κ)
  | fork (first second : Choice κ)

namespace Choice

/-- The choice as a parser. -/
def parser : Choice κ → Parser κ
  | leaf p => p
  | fork first second => .either first.parser second.parser

/-- The parsers there are to be chosen, from left to right. -/
def leaves : Choice κ → List (Parser κ)
  | leaf p => [p]
  | fork first second => first.leaves ++ second.leaves

/-- A choice tries its leaves in turn. -/
theorem parse_eq_inTurn (g : Grammar κ) (depth : Nat) (tree : Choice κ) :
    tree.parser.parse g depth = inTurn (tree.leaves.map (Parser.parse g depth)) := by
  induction tree with
  | leaf p => exact (either_still_right _).symm
  | fork first second ofFirst ofSecond =>
      rw [leaves, List.map_append, inTurn_append, ← ofFirst, ← ofSecond]
      rfl

end Choice

/-- The parsers are the alternatives in order, with parsers that always fail put in anywhere, and
alternatives put in again behind themselves. The first list holds the alternatives met so far. -/
inductive Padded : List (Parser κ) → List (Parser κ) → List (Parser κ) → Prop where
  | nil {met : List (Parser κ)} : Padded met [] []
  | next {met parsers alternatives : List (Parser κ)} {p : Parser κ} :
      Padded (p :: met) parsers alternatives → Padded met (p :: parsers) (p :: alternatives)
  | fail {met parsers alternatives : List (Parser κ)} :
      Padded met parsers alternatives → Padded met (.fail :: parsers) alternatives
  | again {met parsers alternatives : List (Parser κ)} {p : Parser κ} :
      p ∈ met → Padded met parsers alternatives → Padded met (p :: parsers) alternatives

namespace Padded

variable {met parsers alternatives : List (Parser κ)} {c : Cursor}

/-- Where the alternatives met so far have failed, the padding makes no difference. -/
theorem agrees (g : Grammar κ) (depth : Nat) (padded : Padded met parsers alternatives)
    (failed : ∀ p ∈ met, (p.parse g depth c).ending = .noMatch) :
    (inTurn (parsers.map (Parser.parse g depth)) c).Agrees
      (inTurn (alternatives.map (Parser.parse g depth)) c) := by
  have lawful (p : Parser κ) : Lawful (p.parse g depth) := Parser.parse_lawful g depth p
  -- Along the parsers all alternatives met so far have failed at `c`, or one has decided.
  induction padded with
  | nil => exact .refl _
  | @next met parsers alternatives p _ ih =>
      by_cases noMatch : (p.parse g depth c).ending = .noMatch
      · have behind := ih (List.forall_mem_cons.mpr ⟨noMatch, failed⟩)
        have skipped := either_agrees_of_noMatch (lawful p) noMatch
        exact (skipped _).trans (behind.trans (skipped _).symm)
      · have decides (ms : List (Matcher κ)) : inTurn (p.parse g depth :: ms) c = _ :=
          either_of_ne_noMatch noMatch
        rw [List.map_cons, List.map_cons, decides, decides]
        exact .refl _
  | @fail met parsers alternatives _ ih =>
      have nothing : inTurn ((.fail :: parsers).map (Parser.parse g depth)) = _ :=
        either_still_left _
      rw [nothing]
      exact ih failed
  | again mem _ ih => exact (either_agrees_of_noMatch (lawful _) (failed _ mem) _).trans (ih failed)

end Padded

/-- **A choice depends on the order of its alternatives alone.** Whatever its brackets, and whatever
failing parsers and repeated alternatives are put in, it does what the first alternative does that
finds something, if those before it find nothing; one that breaks off breaks off the choice. If all
find nothing, so does the choice, with the cursor untouched. Brackets and failing parsers do not
even show in the log. -/
theorem choice_tries_in_turn (g : Grammar κ) (depth : Nat) {alternatives : List (Parser κ)}
    {tree : Choice κ} (padded : Padded [] tree.leaves alternatives) (c : Cursor) :
    let chosen := tree.parser.parse g depth c
    (∀ earlier p later, alternatives = earlier ++ p :: later →
      (∀ q ∈ earlier, (q.parse g depth c).ending = .noMatch) →
      (p.parse g depth c).ending ≠ .noMatch → chosen.Agrees (p.parse g depth c)) ∧
    ((∀ p ∈ alternatives, (p.parse g depth c).ending = .noMatch) →
      chosen.ending = .noMatch ∧ chosen.cursor = c) ∧
    (∀ other : Choice κ, Padded [] other.leaves alternatives →
      (other.parser.parse g depth c).Agrees chosen) ∧
    (∀ other : Choice κ, other.leaves = tree.leaves →
      other.parser.parse g depth = tree.parser.parse g depth) ∧
    ∀ p : Parser κ, (Parser.either .fail p).parse g depth = p.parse g depth ∧
      (Parser.either p .fail).parse g depth = p.parse g depth := by
  intro chosen
  have lawful (ps : List (Parser κ)) : ∀ m ∈ ps.map (Parser.parse g depth), Lawful m :=
    List.forall_mem_map.mpr fun p _ => Parser.parse_lawful g depth p
  have unpadded {other : Choice κ} (padded : Padded [] other.leaves alternatives) :
      (other.parser.parse g depth c).Agrees
        (inTurn (alternatives.map (Parser.parse g depth)) c) := by
    rw [Choice.parse_eq_inTurn]
    exact padded.agrees g depth nofun
  refine ⟨?_, fun failed => ?_,
    fun other padded' => (unpadded padded').trans (unpadded padded).symm, fun other same => ?_,
    fun p => ⟨either_still_left _, either_still_right _⟩⟩
  · rintro earlier p later rfl failed decides
    refine (unpadded padded).trans ?_
    rw [List.map_append, List.map_cons]
    exact inTurn_agrees (lawful earlier) (List.forall_mem_map.mpr failed) decides _
  · have nothing := inTurn_noMatch (lawful alternatives) (List.forall_mem_map.mpr failed)
    have agrees := (unpadded padded).trans nothing
    exact ⟨agrees.ending, agrees.cursor⟩
  · rw [Choice.parse_eq_inTurn, Choice.parse_eq_inTurn, same]

/-- Two letters, the first of them alone, or a third one. A failing parser is put in front of them,
and the two letters are put in again before the third. -/
theorem letters_chosen_in_turn :
    let two : Parser Empty := (Parser.literal 'a').andThen (.literal 'b')
    let alternatives : List (Parser Empty) := [two, .literal 'a', .literal 'c']
    let tree : Choice Empty := .fork (.fork (.leaf .fail) (.leaf two))
      (.fork (.fork (.leaf (.literal 'a')) (.leaf two)) (.leaf (.literal 'c')))
    let plain : Choice Empty :=
      .fork (.leaf two) (.fork (.leaf (.literal 'a')) (.leaf (.literal 'c')))
    Padded [] tree.leaves alternatives ∧ Padded [] plain.leaves alternatives ∧
    (two.parse .chainFree 0 (.ofString "ac")).ending = .noMatch ∧
    (tree.parser.parse .chainFree 0 (.ofString "ac")).Agrees
      ((Parser.literal 'a').parse .chainFree 0 (.ofString "ac")) ∧
    (tree.parser.parse .chainFree 0 (.ofString "b")).ending = .noMatch ∧
    (tree.parser.parse .chainFree 0 (.ofString "b")).cursor = .ofString "b" ∧
    (plain.parser.parse .chainFree 0 (.ofString "cab")).Agrees
      (tree.parser.parse .chainFree 0 (.ofString "cab")) := by
  intro two alternatives tree plain
  have padded : Padded [] tree.leaves alternatives :=
    .fail (.next (.next (.again (List.mem_cons_of_mem _ List.mem_cons_self) (.next .nil))))
  have padded' : Padded [] plain.leaves alternatives := .next (.next (.next .nil))
  have first : (two.parse .chainFree 0 (.ofString "ac")).ending = .noMatch := by decide +kernel
  have second : ((Parser.literal 'a' : Parser Empty).parse .chainFree 0
      (.ofString "ac")).ending ≠ .noMatch := by decide +kernel
  have none : ∀ p ∈ alternatives, (p.parse .chainFree 0 (.ofString "b")).ending = .noMatch := by
    simp only [alternatives, List.forall_mem_cons]
    exact ⟨by decide +kernel, by decide +kernel, by decide +kernel, nofun⟩
  obtain ⟨decided, -⟩ := choice_tries_in_turn .chainFree 0 padded (.ofString "ac")
  obtain ⟨-, nothing, -⟩ := choice_tries_in_turn .chainFree 0 padded (.ofString "b")
  obtain ⟨-, -, same, -⟩ := choice_tries_in_turn .chainFree 0 padded (.ofString "cab")
  exact ⟨padded, padded', first,
    decided [two] _ [.literal 'c'] rfl (List.forall_mem_singleton.mpr first) second,
    (nothing none).1, (nothing none).2, same plain padded'⟩

end Backtrack
