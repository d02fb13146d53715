import Backtrack.Proofs.Depth
import Backtrack.Proofs.Nesting

/-!
Chains put together.

A chain may be hung behind a chain, or inside what its first part goes on with; a chain behind an
empty match is what it goes on with; and a chain that always goes on with one parser matches like a
pair, less the fragments of the first half. The two ways of hanging a chain go back from different
places and in a different order, but to the same one.

The trees of such laws differ in how deep continuations are nested in them, so they do not agree at
one depth. They come to the same ends (`ComesTo`), each with as much depth as it needs.
-/

namespace Backtrack

variable {κ : Type}

/-! ### Each way of putting matchers together -/

namespace Matcher

open Report

variable {first part : Matcher κ} {next next' both : List String → Option (Parser κ)}
  {call call' callBoth : Parser κ → Matcher κ} {label : κ} {q : Parser κ} {c : Cursor}
  {found : List String}

/-- What a chain does behind a match of its first part, with a place to go back to. -/
def goOn (next : List String → Option (Parser κ)) (call : Parser κ → Matcher κ)
    (start : Checkpoint) (found : List String) : Matcher κ := fun here =>
  match next found with
  | none => Report.still .aborted here
  | some continuation => (call continuation here).rewoundTo start fun _ => ∅

theorem goOn_of_none (none : next found = none) (start : Checkpoint) (here : Cursor) :
    goOn next call start found here = still .aborted here := by
  rw [goOn, none]

theorem goOn_of_some (some : next found = some q) (start : Checkpoint) (here : Cursor) :
    goOn next call start found here = (call q here).rewoundTo start fun _ => ∅ := by
  rw [goOn, some]

/-- Behind a match of its first half a chain is what it goes on with. -/
theorem chain_agrees_goOn (matched : (first c).ending = .matched found)
    (next : List String → Option (Parser κ)) (call : Parser κ → Matcher κ) :
    (chain first next call c).Agrees (goOn next call c.checkpoint found (first c).cursor) := by
  cases onward : next found with
  | none =>
      rw [chain_of_none matched onward, goOn_of_none onward]
      exact (Agrees.refl _).after_left _
  | some q =>
      rw [chain_of_some matched onward, goOn_of_some onward]
      exact ((Agrees.refl _).rewoundTo _ _).after_left _

/-- Of two places to go back to the later one counts. -/
theorem goOn_rewoundTo (next : List String → Option (Parser κ)) (call : Parser κ → Matcher κ)
    (start start' : Checkpoint) (found : List String) (here : Cursor) (note : Nat → Log κ) :
    ((goOn next call start found here).rewoundTo start' note).Agrees
      (goOn next call start' found here) := by
  cases onward : next found with
  | none =>
      rw [goOn_of_none onward, goOn_of_none onward]
      exact .of_eq (rewoundTo_of_ne_noMatch (by simp) _ _)
  | some q =>
      rw [goOn_of_some onward, goOn_of_some onward]
      exact rewoundTo_rewoundTo ..

/-- A chain behind a chain may be hung inside what the inner one goes on with. -/
theorem chain_chain_agrees
    (hung : ∀ found, both found = (next found).map (Parser.chain · label))
    (runs : ∀ q, callBoth (Parser.chain q label) = chain (call q) next' call') (c : Cursor) :
    (chain (chain first next call) next' call' c).Agrees (chain first both callBoth c) := by
  rcases (first c).matched_or_not with ⟨found, matched⟩ | other
  · have inner := chain_agrees_goOn matched next call
    have outer := chain_agrees_goOn matched both callBoth
    cases onward : next found with
    | none =>
        have onwardBoth : both found = none := by rw [hung, onward, Option.map_none]
        rw [goOn_of_none onward] at inner
        rw [goOn_of_none onwardBoth] at outer
        rw [chain_of_not_matched (by rw [inner.ending]; exact nofun)]
        exact inner.trans outer.symm
    | some q =>
        have onwardBoth : both found = some (Parser.chain q label) := by
          rw [hung, onward, Option.map_some]
        rw [goOn_of_some onward] at inner
        rw [goOn_of_some onwardBoth, runs] at outer
        refine Agrees.trans ?_ outer.symm
        rcases (call q (first c).cursor).matched_or_not with ⟨more, goesOn⟩ | stops
        · -- What is hung inside goes back to where `q` began, and then to `c` like the other.
          rw [rewoundTo_of_matched goesOn] at inner
          have behind := chain_agrees_goOn (inner.ending.trans goesOn) next' call'
          have inside := chain_agrees_goOn goesOn next' call'
          rw [inner.cursor] at behind
          refine behind.trans (Agrees.symm ?_)
          exact (inside.rewoundTo _ fun _ => ∅).trans (goOn_rewoundTo ..)
        · rw [chain_of_not_matched (by rwa [inner.ending, ending_rewoundTo]),
            chain_of_not_matched stops]
          exact inner
  · rw [chain_of_not_matched other,
      chain_of_not_matched (by rwa [chain_of_not_matched other]), chain_of_not_matched other]
    exact .refl _

/-- A chain behind an empty match is what it goes on with. -/
theorem chain_times_zero_agrees (lawful : Lawful (call q)) (onward : next [] = some q)
    (c : Cursor) : (chain (times part 0) next call c).Agrees (call q c) := by
  have empty : (times part 0 c).ending = .matched [] := rfl
  have behind := chain_agrees_goOn empty next call
  rw [goOn_of_some onward] at behind
  exact behind.trans (lawful.rewoundTo_agrees c _)

/-- A pair finds what a chain finds that always goes on with its second half, and the fragments of
its first half before it. -/
theorem pair_agrees_chain (lawful : Lawful first) (left : c.hasNext = true)
    (constant : ∀ found, next found = some q) :
    ∃ insert : List String → List String,
      (∀ found, (first c).ending = .matched found → insert = (found ++ ·)) ∧
      (sequence [first, call q] c).Agrees ((chain first next call c).mapFragments insert) := by
  rw [sequence_of_hasNext left]
  rcases (first c).matched_or_not with ⟨found, matched⟩ | other
  · refine ⟨(found ++ ·), fun found' matched' => ?_, ?_⟩
    · cases matched.symm.trans matched'
      rfl
    · have behind := (chain_agrees_goOn matched next call).mapFragments (found ++ ·)
      rw [goOn_of_some (constant found), rewoundTo_mapFragments] at behind
      rw [inOrder_cons_of_matched matched]
      refine Agrees.trans (Agrees.rewoundTo ?_ _ _) behind.symm
      exact ((inOrder_single ..).mapFragments _).after_left _
  · refine ⟨id, fun found matched => absurd matched (other found), ?_⟩
    rw [mapFragments_id, chain_of_not_matched other, inOrder_cons_of_not_matched other]
    exact lawful.rewoundTo_agrees c _

end Matcher

/-! ### As much depth as is needed -/

namespace Parser

open Matcher

variable {g : Grammar κ} {p q : Parser κ} {label next both always : κ} {c d : Cursor}
  {ending : Ending} {fragments : List String}

/-- At some depth a call from `c` comes to this end, and leaves the cursor at `d`. -/
def ComesTo (g : Grammar κ) (p : Parser κ) (c : Cursor) (ending : Ending) (d : Cursor) : Prop :=
  ending ≠ .unfinished ∧
    ∃ depth, (p.parse g depth c).ending = ending ∧ (p.parse g depth c).cursor = d

/-- A call comes to one end at most. -/
theorem ComesTo.unique {ending' : Ending} {d' : Cursor} (comes : p.ComesTo g c ending d)
    (comes' : p.ComesTo g c ending' d') : ending' = ending ∧ d' = d := by
  obtain ⟨finished, depth, rfl, rfl⟩ := comes
  obtain ⟨finished', depth', rfl, rfl⟩ := comes'
  rw [← parse_deeper (Nat.le_max_left depth depth') finished,
    ← parse_deeper (Nat.le_max_right depth depth') finished']
  exact ⟨rfl, rfl⟩

/-- What one parser comes to at some depth the other comes to at some depth of its own. -/
theorem ComesTo.of_agrees (comes : p.ComesTo g c ending d)
    (agrees : ∀ depth, (p.parse g depth c).ending ≠ .unfinished →
      ∃ deeper, (q.parse g deeper c).Agrees (p.parse g depth c)) : q.ComesTo g c ending d := by
  obtain ⟨finished, depth, ended, reached⟩ := comes
  obtain ⟨deeper, agrees⟩ := agrees depth (by rwa [ended])
  exact ⟨finished, deeper, agrees.ending.trans ended, agrees.cursor.trans reached⟩

theorem parse_below_succ (g : Grammar κ) (depth : Nat) (p : Parser κ) :
    Below (p.parse g depth) (p.parse g (depth + 1)) :=
  onward_below g (depth + 1) p

/-- What a chain goes on with may be given the same depth as its first part. -/
theorem comesTo_chain_iff :
    (chain p label).ComesTo g c ending d ↔ ending ≠ .unfinished ∧ ∃ depth,
      let level := Matcher.chain (p.parse g depth) (g label) (parse g depth) c
      level.ending = ending ∧ level.cursor = d := by
  constructor
  · rintro ⟨finished, depth, rfl, rfl⟩
    have below : Below ((chain p label).parse g depth) _ :=
      below_chain (.refl _) (onward_below g depth)
    have same := below c finished
    exact ⟨finished, depth, congrArg Report.ending same, congrArg Report.cursor same⟩
  · rintro ⟨finished, depth, rfl, rfl⟩
    have below : Below _ ((chain p label).parse g (depth + 1)) :=
      below_chain (parse_below_succ g depth p) fun q => .refl (parse g depth q)
    have same := below c finished
    exact ⟨finished, depth + 1, congrArg Report.ending same, congrArg Report.cursor same⟩

/-! ### The laws of chains -/

/-- Chains in a row, bracketed either way. The inner one goes back first, and then both are at the
same place. -/
theorem comesTo_chain_chain_iff
    (hung : ∀ found, g both found = (g label found).map (chain · next)) :
    (chain (chain p label) next).ComesTo g c ending d ↔ (chain p both).ComesTo g c ending d := by
  -- Between two depths of the outer chain: its first part is given one level more.
  let level (depth : Nat) : Matcher κ :=
    Matcher.chain ((chain p label).parse g (depth + 1)) (g next) (onward g depth)
  have below (depth : Nat) : Below ((chain (chain p label) next).parse g depth) (level depth) :=
    below_chain (parse_below_succ g depth _) fun _ => .refl _
  have above (depth : Nat) :
      Below (level depth) ((chain (chain p label) next).parse g (depth + 1)) :=
    below_chain (.refl _) (onward_below g depth)
  have agrees (depth : Nat) : (level depth c).Agrees ((chain p both).parse g (depth + 1) c) :=
    chain_chain_agrees hung (fun _ => rfl) c
  constructor
  · refine fun comes => comes.of_agrees fun depth finished => ⟨depth + 1, ?_⟩
    rw [← below depth c finished]
    exact (agrees depth).symm
  · refine fun comes => comes.of_agrees fun depth finished => ⟨depth + 1, ?_⟩
    have agrees := agrees depth
    rw [parse_deeper (Nat.le_succ depth) finished] at agrees
    rwa [above depth c (by rwa [agrees.ending])]

/-- A chain behind an empty match is what it goes on with. -/
theorem comesTo_chain_times_zero_iff (onward : g label [] = some q) :
    (chain (times p 0) label).ComesTo g c ending d ↔ q.ComesTo g c ending d := by
  have agrees (depth : Nat) :
      ((chain (times p 0) label).parse g (depth + 1) c).Agrees (q.parse g depth c) :=
    chain_times_zero_agrees (parse_lawful g depth q) onward c
  constructor
  · refine fun comes => comes.of_agrees fun depth finished => ⟨depth, ?_⟩
    rw [← parse_deeper (Nat.le_succ depth) finished]
    exact (agrees depth).symm
  · exact fun comes => comes.of_agrees fun depth _ => ⟨depth + 1, agrees depth⟩

/-- At one depth a pair finds what a chain with its second half finds. -/
theorem parse_andThen_agrees_chain (left : c.hasNext = true)
    (constant : ∀ found, g always found = some q) (depth : Nat) :
    ∃ insert : List String → List String,
      (∀ found, (p.parse g depth c).ending = .matched found → insert = (found ++ ·)) ∧
      ((p.andThen q).parse g depth c).Agrees
        ((Matcher.chain (p.parse g depth) (g always) (parse g depth) c).mapFragments insert) := by
  rw [parse_andThen]
  exact pair_agrees_chain (parse_lawful g depth p) left constant

/-- The fragments of a pair are those of both halves, where the chain keeps those of the second. -/
theorem ComesTo.matched_andThen (comes : (p.andThen q).ComesTo g c (.matched fragments) d)
    (left : c.hasNext = true) (constant : ∀ found, g always found = some q) :
    ∃ found here more, p.ComesTo g c (.matched found) here ∧
      (chain p always).ComesTo g c (.matched more) d ∧ fragments = found ++ more := by
  obtain ⟨-, depth, ended, reached⟩ := comes
  obtain ⟨insert, inserts, agrees⟩ := parse_andThen_agrees_chain (p := p) left constant depth
  obtain ⟨more, matched, rfl⟩ := Report.matched_mapFragments (agrees.ending.symm.trans ended)
  obtain ⟨found, -, here, -⟩ := matched_chain matched
  rw [agrees.cursor, Report.cursor_mapFragments] at reached
  exact ⟨found, _, more, ⟨nofun, depth, here, rfl⟩,
    comesTo_chain_iff.mpr ⟨nofun, depth, matched, reached⟩, by rw [inserts found here]⟩

theorem ComesTo.matched_chain {more : List String}
    (comes : (chain p always).ComesTo g c (.matched more) d) (left : c.hasNext = true)
    (constant : ∀ found, g always found = some q) :
    ∃ found here, p.ComesTo g c (.matched found) here ∧
      (p.andThen q).ComesTo g c (.matched (found ++ more)) d := by
  obtain ⟨-, depth, matched, reached⟩ := comesTo_chain_iff.mp comes
  obtain ⟨insert, inserts, agrees⟩ := parse_andThen_agrees_chain left constant depth
  obtain ⟨found, -, here, -⟩ := Matcher.matched_chain matched
  refine ⟨found, _, ⟨nofun, depth, here, rfl⟩, nofun, depth, ?_, ?_⟩
  · rw [agrees.ending, Report.mapFragments_of_matched matched, inserts found here]
  · rw [agrees.cursor, Report.cursor_mapFragments, reached]

/-- Where nothing matches a pair is a chain that always goes on with its second part. -/
theorem comesTo_andThen_iff (other : ∀ fragments, ending ≠ .matched fragments)
    (left : c.hasNext = true) (constant : ∀ found, g always found = some q) :
    (p.andThen q).ComesTo g c ending d ↔ (chain p always).ComesTo g c ending d := by
  rw [comesTo_chain_iff, ComesTo]
  refine and_congr_right fun _ => exists_congr fun depth => ?_
  obtain ⟨insert, -, agrees⟩ := parse_andThen_agrees_chain (p := p) left constant depth
  rw [agrees.ending, agrees.cursor, Report.cursor_mapFragments,
    Report.ending_mapFragments_iff ending other]

/-- **Chains regroup.** A chain behind a chain comes to the same end as the chain whose
continuation has the second one hung on. A chain behind an empty match comes to the same end as what
it goes on with. Where a character is left, a chain that always goes on with one parser comes to the
same end as the pair with that parser, except that the pair has the fragments of its first half
before those of the chain. All of them leave the cursor in the same place, whatever the end. -/
theorem chains_regroup (g : Grammar κ) (p : Parser κ) (c : Cursor) :
    (∀ label next both, (∀ found, g both found = (g label found).map (chain · next)) →
      ∀ ending d, (chain (chain p label) next).ComesTo g c ending d ↔
        (chain p both).ComesTo g c ending d) ∧
    (∀ label q, g label [] = some q → ∀ ending d,
      (chain (times p 0) label).ComesTo g c ending d ↔ q.ComesTo g c ending d) ∧
    ∀ always q, (∀ found, g always found = some q) → c.hasNext = true →
      (∀ fragments d, (p.andThen q).ComesTo g c (.matched fragments) d →
        ∃ found here more, p.ComesTo g c (.matched found) here ∧
          (chain p always).ComesTo g c (.matched more) d ∧ fragments = found ++ more) ∧
      (∀ more d, (chain p always).ComesTo g c (.matched more) d →
        ∃ found here, p.ComesTo g c (.matched found) here ∧
          (p.andThen q).ComesTo g c (.matched (found ++ more)) d) ∧
      ∀ ending d, (∀ fragments, ending ≠ .matched fragments) →
        ((p.andThen q).ComesTo g c ending d ↔ (chain p always).ComesTo g c ending d) := by
  refine ⟨fun label next both hung ending d => comesTo_chain_chain_iff hung,
    fun label q onward ending d => comesTo_chain_times_zero_iff onward,
    fun always q constant left => ⟨fun fragments d comes => ?_, fun more d comes => ?_,
      fun ending d other => comesTo_andThen_iff other left constant⟩⟩
  · exact comes.matched_andThen left constant
  · exact comes.matched_chain left constant

/-- Ways to go on behind a character: with that character, with it twice, or with any. -/
inductive Echo where
  | once
  | twice
  | regardless

/-- The first character matched, once more. -/
def Echo.again (found : List String) : Parser Echo :=
  match found.head?.bind (·.toList.head?) with
  | some x => literal x
  | none => fail

/-- What an echo goes on with. -/
def echoes : Grammar Echo
  | .once, found => some (Echo.again found)
  | .twice, found => some (chain (Echo.again found) .once)
  | .regardless, _ => some any

/-- Three equal letters, and two of them before another one. -/
theorem echoes_regroup :
    (∀ found, echoes .twice found = (echoes .once found).map (chain · .once)) ∧
    (chain (chain any .once) .once).ComesTo echoes (.ofString "aaab") (.matched ["a"])
      ⟨#['a', 'a', 'a', 'b'], 3⟩ ∧
    (chain any .twice).ComesTo echoes (.ofString "aaab") (.matched ["a"])
      ⟨#['a', 'a', 'a', 'b'], 3⟩ ∧
    (chain (chain any .once) .once).ComesTo echoes (.ofString "aab") .noMatch (.ofString "aab") ∧
    (chain any .twice).ComesTo echoes (.ofString "aab") .noMatch (.ofString "aab") ∧
    echoes .twice [] = some (chain fail .once) ∧
    (chain (times any 0) .twice).ComesTo echoes (.ofString "aab") .noMatch (.ofString "aab") ∧
    (∀ found, echoes .regardless found = some any) ∧
    (Cursor.ofString "aab").hasNext = true ∧
    (chain any .regardless).ComesTo echoes (.ofString "aab") (.matched ["a"])
      ⟨#['a', 'a', 'b'], 2⟩ ∧
    ∃ found here, any.ComesTo echoes (.ofString "aab") (.matched found) here ∧
      (any.andThen any).ComesTo echoes (.ofString "aab") (.matched (found ++ ["a"]))
        ⟨#['a', 'a', 'b'], 2⟩ := by
  have hung (found : List String) :
      echoes .twice found = (echoes .once found).map (chain · .once) := rfl
  have constant (found : List String) : echoes .regardless found = some any := rfl
  have left : (Cursor.ofString "aab").hasNext = true := by decide +kernel
  have long : (chain (chain any .once) .once).ComesTo echoes (.ofString "aaab") (.matched ["a"])
      ⟨#['a', 'a', 'a', 'b'], 3⟩ := ⟨nofun, 1, by decide +kernel⟩
  have short : (chain (chain any .once) .once).ComesTo echoes (.ofString "aab") .noMatch
      (.ofString "aab") := ⟨nofun, 1, by decide +kernel⟩
  have nothing : (chain fail .once).ComesTo echoes (.ofString "aab") .noMatch (.ofString "aab") :=
    ⟨nofun, 0, rfl, rfl⟩
  have follows : (chain any .regardless).ComesTo echoes (.ofString "aab") (.matched ["a"])
      ⟨#['a', 'a', 'b'], 2⟩ := ⟨nofun, 1, by decide +kernel⟩
  obtain ⟨regroup, -⟩ := chains_regroup echoes any (.ofString "aaab")
  obtain ⟨regroup', empty, pairs⟩ := chains_regroup echoes any (.ofString "aab")
  obtain ⟨-, pair, -⟩ := pairs .regardless any constant left
  exact ⟨hung, long, (regroup _ _ _ hung _ _).mp long, short, (regroup' _ _ _ hung _ _).mp short,
    rfl, (empty _ _ rfl _ _).mpr nothing, constant, left, follows, pair _ _ follows⟩

end Parser

end Backtrack
