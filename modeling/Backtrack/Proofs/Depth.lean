import Backtrack.Proofs.Law

/-!
What the depth allowed to continuations has to do with the report of a call.

A call that comes to its end gives the same report however much deeper continuations might have
gone: only a call that is left unfinished can gain from more depth. A tree without chains does not
ask for continuations at all.
-/

namespace Backtrack

variable {κ : Type}

namespace Matcher

/-- Wherever `m` comes to its end, `n` gives the same report; `n` may finish more. -/
def Below (m n : Matcher κ) : Prop :=
  ∀ c, (m c).ending ≠ .unfinished → n c = m c

theorem Below.refl (m : Matcher κ) : Below m m :=
  fun _ _ => rfl

/-- More depth on more depth is more depth. -/
theorem Below.trans {l m n : Matcher κ} (first : Below l m) (second : Below m n) : Below l n := by
  intro c finished
  have same := first c finished
  rw [second c (by rwa [same]), same]

/-- A call that matched is not left unfinished, so it is the same further up. -/
theorem Below.of_matched {m n : Matcher κ} (below : Below m n) {c : Cursor}
    {fragments : List String} (matched : (m c).ending = .matched fragments) : n c = m c :=
  below c (by rw [matched]; exact nofun)

/-- A call that finds nothing does so with more depth as well. -/
theorem Below.of_noMatch {m n : Matcher κ} (below : Below m n) {c : Cursor}
    (noMatch : (m c).ending = .noMatch) : n c = m c :=
  below c (by rw [noMatch]; exact nofun)

/-- A matcher that never finishes is below all others. -/
theorem below_of_unfinished {m n : Matcher κ} (unfinished : ∀ c, (m c).ending = .unfinished) :
    Below m n :=
  fun c finished => absurd (unfinished c) finished

/-! ### Each way of putting matchers together -/

theorem below_either {first first' second second' : Matcher κ} (ofFirst : Below first first')
    (ofSecond : Below second second') : Below (either first second) (either first' second') := by
  intro c finished
  by_cases noMatch : (first c).ending = .noMatch
  · have same : first' c = first c := ofFirst.of_noMatch noMatch
    rw [either_of_noMatch noMatch] at finished ⊢
    rw [either_of_noMatch (by rwa [same]), same, ofSecond _ finished]
  · rw [either_of_ne_noMatch noMatch] at finished ⊢
    have same : first' c = first c := ofFirst c finished
    rw [either_of_ne_noMatch (by rwa [same]), same]

/-- Parts in a row: if none is left unfinished, each does what it did before. -/
theorem below_inOrder {α : Type} {parts : List α} {f f' : α → Matcher κ}
    (ofParts : ∀ part ∈ parts, Below (f part) (f' part)) :
    Below (inOrder (parts.map f)) (inOrder (parts.map f')) := by
  induction parts with
  | nil => exact Below.refl _
  | cons part parts ih =>
      intro c finished
      rw [List.map_cons] at finished ⊢
      rw [List.map_cons]
      obtain ⟨ofPart, ofRest⟩ := List.forall_mem_cons.mp ofParts
      rcases (f part c).matched_or_not with ⟨fragments, matched⟩ | other
      · have same : f' part c = f part c := ofPart.of_matched matched
        rw [inOrder_cons_of_matched matched] at finished ⊢
        rw [inOrder_cons_of_matched (by rwa [same]), same]
        rw [ih ofRest _ fun unfinished => finished (Report.mapFragments_of_unfinished unfinished _)]
      · rw [inOrder_cons_of_not_matched other] at finished ⊢
        have same : f' part c = f part c := ofPart c finished
        rw [inOrder_cons_of_not_matched (by rwa [same]), same]

/-- A sequence, part by part. -/
theorem below_sequence {α : Type} {parts : List α} {f f' : α → Matcher κ}
    (ofParts : ∀ part ∈ parts, Below (f part) (f' part)) :
    Below (sequence (parts.map f)) (sequence (parts.map f')) := by
  intro c finished
  cases left : c.hasNext with
  | true =>
      rw [sequence_of_hasNext left] at finished
      rw [Report.ending_rewoundTo] at finished
      rw [sequence_of_hasNext left, sequence_of_hasNext left, below_inOrder ofParts c finished]
  | false => rw [sequence_of_exhausted left, sequence_of_exhausted left]

theorem below_merge {whole whole' : Matcher κ} (ofWhole : Below whole whole') :
    Below (merge whole) (merge whole') := by
  intro c finished
  rw [merge, Report.ending_rewoundTo] at finished
  rw [merge, merge, ofWhole c fun unfinished =>
    finished (Report.mapFragments_of_unfinished unfinished _)]

/-- The attempts of a counted repetition, with all they have found so far. -/
theorem below_attempts {part part' : Matcher κ} (ofPart : Below part part') (count : Nat)
    (start : Checkpoint) (left : Nat) (found : Array String) (log : Log κ) (c : Cursor)
    (finished : (attempts part count start left found log c).ending ≠ .unfinished) :
    attempts part' count start left found log c = attempts part count start left found log c := by
  fun_induction attempts part count start left found log c with
  | case1 => rfl
  | case2 left found log c r joined fragments matched ih =>
      have same : part' c = r := ofPart.of_matched matched
      rw [attempts]
      simp only [same, matched]
      exact ih finished
  | case3 left found log c r joined noMatch =>
      have same : part' c = r := ofPart.of_noMatch noMatch
      rw [attempts]
      simp only [same, noMatch, joined]
  | case4 left found log c r joined aborted =>
      have same : part' c = r := ofPart c (by rw [aborted]; exact nofun)
      rw [attempts]
      simp only [same, aborted, joined]
  | case5 => exact absurd rfl finished

theorem below_times {part part' : Matcher κ} (ofPart : Below part part') (count : Nat) :
    Below (times part count) (times part' count) :=
  fun c => below_attempts ofPart count c.checkpoint count #[] ∅ c

/-- The rounds of an open repetition. They are bounded by the text, which more depth leaves alone.
-/
theorem below_rounds {part part' : Matcher κ} (ofPart : Below part part') (budget matched : Nat)
    (found : Array String) (log : Log κ) (c : Cursor)
    (finished : (rounds part budget matched found log c).ending ≠ .unfinished) :
    rounds part' budget matched found log c = rounds part budget matched found log c := by
  fun_induction rounds part budget matched found log c with
  | case1 budget matched found log c r joined fragments ended still =>
      have same : part' c = r := ofPart.of_matched ended
      rw [rounds]
      simp only [same, ended, still, joined, if_true]
  | case2 => exact absurd rfl finished
  | case3 matched found log c r joined fragments ended advanced budget ih =>
      have same : part' c = r := ofPart.of_matched ended
      rw [rounds]
      simp only [same, ended, advanced, if_false]
      exact ih finished
  | case4 budget matched found log c r joined noMatch =>
      have same : part' c = r := ofPart.of_noMatch noMatch
      rw [rounds]
      simp only [same, noMatch, joined]
  | case5 budget matched found log c r joined aborted =>
      have same : part' c = r := ofPart c (by rw [aborted]; exact nofun)
      rw [rounds]
      simp only [same, aborted, joined]
  | case6 => exact absurd rfl finished

theorem below_oneOrMore {part part' : Matcher κ} (ofPart : Below part part') :
    Below (oneOrMore part) (oneOrMore part') :=
  fun c => below_rounds ofPart c.remaining 0 #[] ∅ c

/-- The first part finds the same fragments, so the same parser is chosen. -/
theorem below_chain {first first' : Matcher κ} {next : List String → Option (Parser κ)}
    {call call' : Parser κ → Matcher κ} (ofFirst : Below first first')
    (ofCall : ∀ p, Below (call p) (call' p)) :
    Below (chain first next call) (chain first' next call') := by
  intro c finished
  rcases (first c).matched_or_not with ⟨fragments, matched⟩ | other
  · have same : first' c = first c := ofFirst.of_matched matched
    cases onward : next fragments with
    | none => rw [chain_of_none matched onward, chain_of_none (by rwa [same]) onward, same]
    | some continuation =>
        rw [chain_of_some matched onward, Report.ending_after, Report.ending_rewoundTo] at finished
        rw [chain_of_some matched onward, chain_of_some (by rwa [same]) onward, same,
          ofCall continuation _ finished]
  · rw [chain_of_not_matched other] at finished ⊢
    have same : first' c = first c := ofFirst c finished
    rw [chain_of_not_matched (by rwa [same]), same]

end Matcher

/-! ### Trees and continuations -/

namespace Parser

open Matcher

variable {g : Grammar κ}

/-- One level of a tree: more depth for all that its chains go on with is more depth for the tree.
-/
theorem matcher_below {call call' : Parser κ → Matcher κ} (ofCall : ∀ p, Below (call p) (call' p))
    (p : Parser κ) : Below (matcher g call p) (matcher g call' p) := by
  induction p with
  | literal expected => exact Below.refl _
  | any => exact Below.refl _
  | anyExcept excluded => exact Below.refl _
  | either first second ofFirst ofSecond => exact below_either ofFirst ofSecond
  | sequence parts ofParts =>
      rw [matcher_sequence, matcher_sequence]
      exact below_sequence ofParts
  | merge whole ofWhole => exact below_merge ofWhole
  | times part count ofPart => exact below_times ofPart count
  | oneOrMore part ofPart => exact below_oneOrMore ofPart
  | chain first label ofFirst => exact below_chain ofFirst ofCall
  | fail => exact Below.refl _

/-- One more level of continuations, by induction on the levels there are. -/
theorem onward_below (g : Grammar κ) (depth : Nat) (p : Parser κ) :
    Below (onward g depth p) (onward g (depth + 1) p) := by
  induction depth generalizing p with
  | zero => exact below_of_unfinished fun _ => rfl
  | succ depth ih => exact matcher_below ih p

/-- More depth changes nothing about a call that came to its end. -/
theorem parse_deeper {depth deeper : Nat} {p : Parser κ} {c : Cursor} (le : depth ≤ deeper)
    (finished : (p.parse g depth c).ending ≠ .unfinished) :
    p.parse g deeper c = p.parse g depth c := by
  have below : Below (p.parse g depth) (p.parse g deeper) := by
    induction le with
    | refl => exact Below.refl _
    | step _ ih => exact ih.trans (matcher_below (onward_below g _) p)
  exact below c finished

/-- A tree without chains does the same whatever its continuations might be. -/
theorem matcher_of_chainFree {g' : Grammar κ} {call call' : Parser κ → Matcher κ} {p : Parser κ}
    (free : ChainFree p) : matcher g call p = matcher g' call' p := by
  induction p with
  | literal expected => rfl
  | any => rfl
  | anyExcept excluded => rfl
  | either first second ofFirst ofSecond =>
      rw [matcher, matcher, ofFirst (every_of_child free (by simp)),
        ofSecond (every_of_child free (by simp))]
  | sequence parts ofParts =>
      rw [matcher_sequence, matcher_sequence,
        List.map_congr_left fun part mem => ofParts part mem (every_of_child free mem)]
  | merge whole ofWhole =>
      rw [matcher, matcher, ofWhole (every_of_child free (by simp))]
  | times part count ofPart =>
      rw [matcher, matcher, ofPart (every_of_child free (by simp))]
  | oneOrMore part ofPart =>
      rw [matcher, matcher, ofPart (every_of_child free (by simp))]
  | chain first label => exact absurd free (not_chainFree_chain first label)
  | fail => rfl

end Parser

end Backtrack
