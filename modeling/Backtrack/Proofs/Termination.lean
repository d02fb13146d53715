import Backtrack.Languages
import Backtrack.Proofs.Bounds
import Backtrack.Proofs.Depth

/-!
Parses that come to an answer.

No measure of the tree can bound a parse: a continuation may be a larger tree than the one it
belongs to, and may hold it. What shrinks is the unread text. A chain whose first part never
matches without advancing hands less text to its continuation than it had itself, and a repetition
goes on only after a round that advanced. So the number of characters left bounds both the depth
of continuations and the rounds of every repetition.
-/

namespace Backtrack

variable {κ : Type}

namespace Matcher

/-- Where at most `n` characters are left, the matcher answers. -/
def Answers (n : Nat) (m : Matcher κ) : Prop :=
  ∀ c, c.remaining ≤ n → ∃ answer, (m c).ending.answer? = some answer

variable {n : Nat}

theorem answered_of_matched {r : Report κ} {fragments : List String}
    (matched : r.ending = .matched fragments) : ∃ answer, r.ending.answer? = some answer :=
  ⟨some fragments, by rw [matched]; rfl⟩

theorem answered_of_noMatch {r : Report κ} (noMatch : r.ending = .noMatch) :
    ∃ answer, r.ending.answer? = some answer :=
  ⟨none, by rw [noMatch]; rfl⟩

/-- Rounds that have come to an end answer. -/
theorem answered_closing (matched : Nat) (found : Array String) :
    ∃ answer, (closing matched found).answer? = some answer := by
  unfold closing
  split
  · exact ⟨none, rfl⟩
  · exact ⟨some found.toList, rfl⟩

/-- An answer is a match or none; no other ending is one. -/
theorem matched_or_noMatch {r : Report κ}
    (answered : ∃ answer, r.ending.answer? = some answer) :
    (∃ fragments, r.ending = .matched fragments) ∨ r.ending = .noMatch := by
  obtain ⟨answer, answered⟩ := answered
  rcases Ending.answer?_eq_some_iff.mp answered with ⟨noMatch, -⟩ | ⟨fragments, matched, -⟩
  · exact Or.inr noMatch
  · exact Or.inl ⟨fragments, matched⟩

/-! ### Each way of putting matchers together -/

/-- A single character always answers. -/
theorem answers_satisfying (accepts : Char → Bool) :
    Answers n (satisfying accepts : Matcher κ) := by
  intro c _
  fun_cases satisfying accepts c with
  | case1 => exact ⟨none, rfl⟩
  | case2 x => exact ⟨some [String.singleton x], rfl⟩
  | case3 => exact ⟨none, rfl⟩

/-- A single character that matches is left behind. -/
theorem satisfying_advances {accepts : Char → Bool} {c : Cursor} {fragments : List String}
    (matched : (satisfying accepts c : Report κ).ending = .matched fragments) :
    (satisfying accepts c : Report κ).cursor.position ≠ c.position := by
  revert matched
  fun_cases satisfying accepts c with
  | case1 => rintro ⟨⟩
  | case2 x read accepted =>
      intro _
      rw [(Cursor.Passes.advance read).position]
      exact Nat.succ_ne_self _
  | case3 => rintro ⟨⟩

/-- A choice asks its second alternative at the same place, with as much left. -/
theorem answers_either {first second : Matcher κ} (lawful : Lawful first)
    (ofFirst : Answers n first) (ofSecond : Answers n second) :
    Answers n (either first second) := by
  intro c le
  rcases either_cases first second c with same | ⟨noMatch, same⟩
  · rw [same]
    exact ofFirst c le
  · rw [same, Report.ending_after, lawful.restores c noMatch]
    exact ofSecond c le

/-- Parts in a row move forward, so what is left for the next of them is no more. -/
theorem answers_inOrder {parts : List (Matcher κ)} (forward : ∀ part ∈ parts, Forward part)
    (ofParts : ∀ part ∈ parts, Answers n part) : Answers n (inOrder parts) := by
  induction parts with
  | nil => exact fun c _ => ⟨some [], rfl⟩
  | cons part parts ih =>
      intro c le
      obtain ⟨forwardPart, forwardRest⟩ := List.forall_mem_cons.mp forward
      obtain ⟨ofPart, ofRest⟩ := List.forall_mem_cons.mp ofParts
      rcases matched_or_noMatch (ofPart c le) with ⟨found, here⟩ | noMatch
      · obtain ⟨text, passes⟩ := forwardPart c found here
        rw [inOrder_cons_of_matched here, Report.ending_after]
        have fewer := Nat.le_trans passes.remaining_le le
        rcases matched_or_noMatch (ih forwardRest ofRest _ fewer) with ⟨more, there⟩ | noMatch
        · exact answered_of_matched (Report.mapFragments_of_matched there _)
        · rw [Report.mapFragments_of_not_matched (Report.not_matched_of_noMatch noMatch)]
          exact answered_of_noMatch noMatch
      · rw [inOrder_cons_of_not_matched (Report.not_matched_of_noMatch noMatch)]
        exact answered_of_noMatch noMatch

theorem answers_sequence {parts : List (Matcher κ)} (forward : ∀ part ∈ parts, Forward part)
    (ofParts : ∀ part ∈ parts, Answers n part) : Answers n (sequence parts) := by
  intro c le
  cases left : c.hasNext with
  | true =>
      rw [sequence_of_hasNext left, Report.ending_rewoundTo]
      exact answers_inOrder forward ofParts c le
  | false =>
      rw [sequence_of_exhausted left]
      exact ⟨none, rfl⟩

theorem answers_merge {whole : Matcher κ} (ofWhole : Answers n whole) :
    Answers n (merge whole) := by
  intro c le
  rw [merge, Report.ending_rewoundTo]
  rcases matched_or_noMatch (ofWhole c le) with ⟨found, matched⟩ | noMatch
  · exact answered_of_matched (Report.mapFragments_of_matched matched _)
  · rw [Report.mapFragments_of_not_matched (Report.not_matched_of_noMatch noMatch)]
    exact answered_of_noMatch noMatch

/-- So many attempts, each with no more left than the one before. -/
theorem answers_attempts {part : Matcher κ} (forward : Forward part) (ofPart : Answers n part)
    (count : Nat) (start : Checkpoint) (left : Nat) (found : Array String) (log : Log κ)
    (c : Cursor) (le : c.remaining ≤ n) :
    ∃ answer, (attempts part count start left found log c).ending.answer? = some answer := by
  fun_induction attempts part count start left found log c with
  | case1 found => exact ⟨some found.toList, rfl⟩
  | case2 left found log c r joined fragments matched ih =>
      obtain ⟨text, passes⟩ := forward c fragments matched
      exact ih (Nat.le_trans passes.remaining_le le)
  | case3 => exact ⟨none, rfl⟩
  | case4 left found log c r joined ended
  | case5 left found log c r joined ended =>
      obtain ⟨answer, answered⟩ := ofPart c le
      cases answered.symm.trans (congrArg Ending.answer? ended)

theorem answers_times {part : Matcher κ} (forward : Forward part) (ofPart : Answers n part)
    (count : Nat) : Answers n (times part count) :=
  fun c => answers_attempts forward ofPart count c.checkpoint count #[] ∅ c

/-- The budget of an open repetition is never used up: every round but the last takes at least one
of the characters that were left when the budget was set. -/
theorem answers_rounds {part : Matcher κ} (forward : Forward part) (ofPart : Answers n part)
    (budget matched : Nat) (found : Array String) (log : Log κ) (c : Cursor)
    (le : c.remaining ≤ n) (enough : c.remaining ≤ budget) :
    ∃ answer, (rounds part budget matched found log c).ending.answer? = some answer := by
  fun_induction rounds part budget matched found log c with
  | case1 budget matched found => exact answered_closing matched found
  | case2 matched found log c r joined fragments ended advanced =>
      obtain ⟨text, passes⟩ := forward c fragments ended
      have less : r.cursor.remaining < c.remaining :=
        passes.remaining_lt fun same => advanced (congrArg Checkpoint.mk same)
      omega
  | case3 matched found log c r joined fragments ended advanced budget ih =>
      obtain ⟨text, passes⟩ := forward c fragments ended
      have less : r.cursor.remaining < c.remaining :=
        passes.remaining_lt fun same => advanced (congrArg Checkpoint.mk same)
      have fewer : r.cursor.remaining ≤ budget := by omega
      exact ih (Nat.le_trans passes.remaining_le le) fewer
  | case4 budget matched found => exact answered_closing matched found
  | case5 budget matched found log c r joined ended
  | case6 budget matched found log c r joined ended =>
      obtain ⟨answer, answered⟩ := ofPart c le
      cases answered.symm.trans (congrArg Ending.answer? ended)

/-- An open repetition answers: every round but the last takes a character. -/
theorem answers_oneOrMore {part : Matcher κ} (forward : Forward part) (ofPart : Answers n part) :
    Answers n (oneOrMore part) :=
  fun c le => answers_rounds forward ofPart c.remaining 0 #[] ∅ c le (Nat.le_refl _)

/-- A chain answers if its first half does, a parser is chosen after every match, and that one
answers at the place reached. -/
theorem answers_chain {first : Matcher κ} {next : List String → Option (Parser κ)}
    {call : Parser κ → Matcher κ} (ofFirst : Answers n first)
    (ofNext : ∀ c fragments, c.remaining ≤ n → (first c).ending = .matched fragments →
      ∃ continuation, next fragments = some continuation ∧
        ∃ answer, (call continuation (first c).cursor).ending.answer? = some answer) :
    Answers n (chain first next call) := by
  intro c le
  rcases matched_or_noMatch (ofFirst c le) with ⟨found, matched⟩ | noMatch
  · obtain ⟨continuation, onward, answered⟩ := ofNext c found le matched
    rw [chain_of_some matched onward, Report.ending_after, Report.ending_rewoundTo]
    exact answered
  · rw [chain_of_not_matched (Report.not_matched_of_noMatch noMatch)]
    exact answered_of_noMatch noMatch

end Matcher

/-! ### Productive parsers -/

namespace Parser

open Languages Matcher

variable {g : Grammar κ}

/-- `q` occurs when `p` runs: in the tree, or in what one of its chains goes on with after a match
that its first part can have. -/
inductive Occurs (g : Grammar κ) (q : Parser κ) : Parser κ → Prop where
  | self : Occurs g q q
  | child {p r : Parser κ} : r ∈ p.children → Occurs g q r → Occurs g q p
  | continuation {first r : Parser κ} {label : κ} {depth : Nat} {c : Cursor}
      {fragments : List String} : (first.parse g depth c).ending = .matched fragments →
      g label fragments = some r → Occurs g q r → Occurs g q (chain first label)

/-- Whatever occurs passes a test that the tree passes throughout, if whoever passes it goes on with
trees that do so too. -/
theorem Occurs.passes {test : Parser κ → Bool} {p q : Parser κ} (occurs : Occurs g q p)
    (continues : ∀ first label fragments r, test (chain first label) = true →
      g label fragments = some r → r.every test = true)
    (passed : p.every test = true) : test q = true := by
  induction occurs with
  | self => exact (every_iff.mp passed).1
  | child mem _ ih => exact ih (every_of_child passed mem)
  | continuation _ onward _ ih => exact ih (continues _ _ _ _ (every_iff.mp passed).1 onward)

/-- Everything that occurs when `p` runs has the property. -/
def Throughout (g : Grammar κ) (holds : Parser κ → Prop) (p : Parser κ) : Prop :=
  ∀ q, Occurs g q p → holds q

theorem Throughout.self {holds : Parser κ → Prop} {p : Parser κ}
    (throughout : Throughout g holds p) : holds p :=
  throughout p .self

/-- What holds throughout a tree holds throughout its parts. -/
theorem Throughout.of_child {holds : Parser κ → Prop} {p q : Parser κ}
    (throughout : Throughout g holds p) (mem : q ∈ p.children) : Throughout g holds q :=
  fun r occurs => throughout r (.child mem occurs)

/-- What holds throughout a chain holds throughout what it goes on with. -/
theorem Throughout.of_continuation {holds : Parser κ → Prop} {first continuation : Parser κ}
    {label : κ} {depth : Nat} {c : Cursor} {fragments : List String}
    (throughout : Throughout g holds (chain first label))
    (matched : (first.parse g depth c).ending = .matched fragments)
    (onward : g label fragments = some continuation) : Throughout g holds continuation :=
  fun r occurs => throughout r (.continuation matched onward occurs)

/-- Every chain that occurs gets a parser from each of its continuations, and has a first part that
never matches without advancing. -/
structure Productive (g : Grammar κ) (p : Parser κ) : Prop where
  continues : ∀ first label, Occurs g (chain first label) p →
    ∀ depth c fragments, (first.parse g depth c).ending = .matched fragments →
      ∃ continuation, g label fragments = some continuation
  advances : ∀ first label, Occurs g (chain first label) p →
    ∀ depth c fragments, (first.parse g depth c).ending = .matched fragments →
      (first.parse g depth c).cursor.position ≠ c.position

/-- The parts of a productive parser are productive. -/
theorem Productive.of_child {p q : Parser κ} (productive : Productive g p)
    (mem : q ∈ p.children) : Productive g q where
  continues first label occurs := productive.continues first label (.child mem occurs)
  advances first label occurs := productive.advances first label (.child mem occurs)

/-- What a productive chain goes on with is productive. -/
theorem Productive.of_continuation {first continuation : Parser κ} {label : κ} {depth : Nat}
    {c : Cursor} {fragments : List String} (productive : Productive g (chain first label))
    (matched : (first.parse g depth c).ending = .matched fragments)
    (onward : g label fragments = some continuation) : Productive g continuation where
  continues first label occurs :=
    productive.continues first label (.continuation matched onward occurs)
  advances first label occurs :=
    productive.advances first label (.continuation matched onward occurs)

/-- What a test on trees has to guarantee: whoever passes it throughout goes on with trees that do
so too, and advances before that. -/
theorem productive_of_every {test : Parser κ → Bool} {p : Parser κ}
    (continues : ∀ first label, test (chain first label) = true → ∀ fragments,
      ∃ continuation, g label fragments = some continuation ∧ continuation.every test = true)
    (advances : ∀ first label, test (chain first label) = true → ∀ depth c fragments,
      (first.parse g depth c).ending = .matched fragments →
        (first.parse g depth c).cursor.position ≠ c.position)
    (passed : p.every test = true) : Productive g p := by
  have occurring : ∀ q, Occurs g q p → test q = true := by
    intro q occurs
    refine occurs.passes (fun first label fragments r passes onward => ?_) passed
    obtain ⟨continuation, same, passes⟩ := continues first label passes fragments
    cases onward.symm.trans same
    exact passes
  constructor
  · intro first label occurs depth c fragments _
    obtain ⟨continuation, onward, -⟩ := continues first label (occurring _ occurs) fragments
    exact ⟨continuation, onward⟩
  · intro first label occurs
    exact advances first label (occurring _ occurs)

/-- A tree without chains has none to be unproductive. -/
theorem productive_of_chainFree {p : Parser κ} (free : ChainFree p) : Productive g p := by
  refine @productive_of_every κ g (fun q => !q.isChain) p ?_ ?_ free
  · rintro first label ⟨⟩
  · rintro first label ⟨⟩

/-- Whether a parser is no chain, or one that begins with a single character. -/
def readsFirst : Parser κ → Bool
  | chain (literal _) _ | chain any _ | chain (anyExcept _) _ => true
  | chain .. => false
  | _ => true

/-- Where every chain begins with a single character and gets a parser to go on with, all trees are
productive. -/
theorem productive_of_readsFirst {p : Parser κ}
    (continues : ∀ label fragments,
      ∃ continuation, g label fragments = some continuation ∧ continuation.every readsFirst = true)
    (passed : p.every readsFirst = true) : Productive g p := by
  refine productive_of_every (fun _ label _ fragments => continues label fragments) ?_ passed
  intro first label reads depth c fragments matched
  cases first with
  | literal expected => exact satisfying_advances matched
  | any => exact satisfying_advances matched
  | anyExcept excluded => exact satisfying_advances matched
  | _ => cases reads

/-- Groups read a bracket before they go on. -/
theorem group_productive : Productive groups group :=
  productive_of_readsFirst (fun _ _ => ⟨_, rfl, by decide +kernel⟩) (by decide +kernel)

/-- A productive tree answers where at most `depth` characters are left, if its continuations
answer where there are fewer. -/
theorem parse_answers_of_onward {depth : Nat}
    (ofOnward : ∀ q, Productive g q → ∀ c, c.remaining < depth →
      ∃ answer, (onward g depth q c).ending.answer? = some answer)
    {p : Parser κ} (productive : Productive g p) : Answers depth (p.parse g depth) := by
  have forward := parse_forward g depth
  induction p with
  | literal expected => exact answers_satisfying _
  | any => exact answers_satisfying _
  | anyExcept excluded => exact answers_satisfying _
  | either first second ofFirst ofSecond =>
      exact answers_either (parse_lawful g depth first)
        (ofFirst (productive.of_child (by simp)))
        (ofSecond (productive.of_child (by simp)))
  | sequence parts ofParts =>
      rw [parse_sequence]
      refine answers_sequence (List.forall_mem_map.mpr fun part _ => forward part) ?_
      exact List.forall_mem_map.mpr fun part mem => ofParts part mem (productive.of_child mem)
  | merge whole ofWhole =>
      exact answers_merge (ofWhole (productive.of_child (by simp)))
  | times part count ofPart =>
      exact answers_times (forward part) (ofPart (productive.of_child (by simp))) count
  | oneOrMore part ofPart =>
      exact answers_oneOrMore (forward part)
        (ofPart (productive.of_child (by simp)))
  | chain first label ofFirst =>
      refine answers_chain (ofFirst (productive.of_child (by simp))) ?_
      intro c fragments le matched
      obtain ⟨continuation, onward⟩ := productive.continues first label .self depth c _ matched
      refine ⟨continuation, onward, ofOnward continuation ?_ _ ?_⟩
      · exact productive.of_continuation matched onward
      · -- The first part has advanced, so its continuation finds less text than the chain.
        obtain ⟨text, passes⟩ := forward first c fragments matched
        have moved := productive.advances first label .self depth c fragments matched
        exact Nat.lt_of_lt_of_le (passes.remaining_lt moved) le
  | fail => exact fun c _ => ⟨none, rfl⟩

/-- A productive parser needs no more depth than there are characters left. -/
theorem parse_answers {p : Parser κ} (productive : Productive g p) (depth : Nat) :
    Answers depth (p.parse g depth) := by
  induction depth generalizing p with
  | zero =>
      refine parse_answers_of_onward (fun q _ c less => ?_) productive
      exact absurd less (Nat.not_lt_zero _)
  | succ depth ih =>
      refine parse_answers_of_onward (fun q ofQ c less => ?_) productive
      exact ih ofQ c (Nat.le_of_lt_succ less)

/-- A tree without chains does the same at any depth. -/
theorem parse_of_chainFree {p : Parser κ} (free : p.ChainFree) (depth other : Nat) :
    p.parse g depth = p.parse g other :=
  matcher_of_chainFree free

/-- A tree without chains answers everywhere, at any depth. -/
theorem parse_answers_of_chainFree {p : Parser κ} (free : p.ChainFree) (depth : Nat) (c : Cursor) :
    ∃ answer, (p.parse g depth c).ending.answer? = some answer := by
  rw [parse_of_chainFree free depth c.remaining]
  exact parse_answers (productive_of_chainFree free) c.remaining c (Nat.le_refl _)

/-- **Productive parsers answer.** A depth of as many continuations as there are characters left is
enough for an answer, and more depth gives the same report. A tree without chains answers at any
depth, with the same report at all of them, however repetitions are nested in it. -/
theorem productive_parse_answers (g : Grammar κ) :
    (∀ p, Productive g p → ∀ c : Cursor,
      (∃ answer, (p.parse g c.remaining c).ending.answer? = some answer) ∧
        ∀ depth, c.remaining ≤ depth → p.parse g depth c = p.parse g c.remaining c) ∧
    ∀ p : Parser κ, p.ChainFree → ∀ (c : Cursor) (depth : Nat),
      (∃ answer, (p.parse g depth c).ending.answer? = some answer) ∧
        p.parse g depth c = p.parse g 0 c := by
  constructor
  · intro p productive c
    have answered := parse_answers productive c.remaining c (Nat.le_refl _)
    refine ⟨answered, fun depth le => parse_deeper le ?_⟩
    obtain ⟨answer, answered⟩ := answered
    intro unfinished
    rw [unfinished] at answered
    cases answered
  · intro p free c depth
    exact ⟨parse_answers_of_chainFree free depth c, congrFun (parse_of_chainFree free depth 0) c⟩

/-- Groups over a text of three characters, at a depth of three or more; and a repetition that could
go on forever without advancing, and stops. -/
theorem group_answers :
    Productive groups group ∧
      (∃ answer, (group.parse groups 3 (.ofString "(()")).ending.answer? = some answer) ∧
      (∀ depth, 3 ≤ depth →
        group.parse groups depth (.ofString "(()") = group.parse groups 3 (.ofString "(()")) ∧
      (oneOrMore (times any 0) : Parser Empty).ChainFree ∧
      ∃ answer, ((oneOrMore (times any 0)).parse .chainFree 0 (.ofString "a")).ending.answer? =
        some answer := by
  have free : (oneOrMore (times any 0) : Parser Empty).ChainFree := by decide +kernel
  obtain ⟨productive, -⟩ := productive_parse_answers groups
  obtain ⟨-, chainFree⟩ := productive_parse_answers Grammar.chainFree
  obtain ⟨answered, deeper⟩ := productive group group_productive (.ofString "(()")
  have left : (Cursor.ofString "(()").remaining = 3 := by decide +kernel
  rw [left] at answered deeper
  exact ⟨group_productive, answered, deeper, free, (chainFree _ free (.ofString "a") 0).1⟩

end Parser

end Backtrack
