import Backtrack.Proofs.Accounting
import Backtrack.Proofs.Repetition

/-!
Matches that take text.

Only two parsers match before they have read anything: a repetition that asks for no attempts, and
a sequence without parts. Where neither occurs, every match takes some text and finds fragments
that all have text in them (`Full`), and no repetition is ever stopped by a match that does not
advance.

What is proved of a loop rests on the weaker `Filled`, which the rounds still to come may meet by
finding nothing: it adds up over matches in a row, and one full match makes the row full.
-/

namespace Backtrack

variable {κ : Type}

/-! ### Fragments with text in them -/

/-- No fragment is empty, and there are none just where no text was taken. -/
def Filled (fragments : List String) (text : List Char) : Prop :=
  (fragments = [] ↔ text = []) ∧ "" ∉ fragments

/-- Some text was taken, and it has fragments, none of them empty. -/
def Full (fragments : List String) (text : List Char) : Prop :=
  text ≠ [] ∧ fragments ≠ [] ∧ "" ∉ fragments

variable {fragments found more : List String} {text s t : List Char}

theorem notMem_append_empty (first : "" ∉ found) (second : "" ∉ more) : "" ∉ found ++ more := by
  rw [List.mem_append]
  exact not_or.mpr ⟨first, second⟩

/-- Fragments with text in them, in a row, have text in them. -/
theorem filled_spelling : Spelling Filled where
  nil := ⟨iff_of_true rfl rfl, List.not_mem_nil⟩
  single x := by
    refine ⟨iff_of_false nofun nofun, ?_⟩
    rw [List.mem_singleton]
    exact String.singleton_ne_empty.symm
  append := by
    rintro found more s t ⟨same, filled⟩ ⟨same', filled'⟩
    refine ⟨?_, notMem_append_empty filled filled'⟩
    rw [List.append_eq_nil_iff, List.append_eq_nil_iff, same, same']

theorem Full.filled (full : Full fragments text) : Filled fragments text :=
  ⟨iff_of_false full.2.1 full.1, full.2.2⟩

/-- Fragments that are filled are full if there was text for them. -/
theorem Filled.full (filled : Filled fragments text) (some : text ≠ []) : Full fragments text :=
  ⟨some, fun none => some (filled.1.mp none), filled.2⟩

/-- What takes text still does with more behind it. -/
theorem Full.append (full : Full found s) (filled : Filled more t) :
    Full (found ++ more) (s ++ t) :=
  ⟨List.append_ne_nil_of_left_ne_nil full.1 t, List.append_ne_nil_of_left_ne_nil full.2.1 more,
    notMem_append_empty full.2.2 filled.2⟩

/-- Fragments with text in them join to one that has text in it. -/
theorem full_joins : Joins Full := by
  rintro fragments text ⟨some, several, filled⟩
  refine ⟨some, List.cons_ne_nil _ _, ?_⟩
  obtain ⟨fragment, rest, rfl⟩ := List.exists_cons_of_ne_nil several
  rw [List.mem_singleton, String.join_cons, eq_comm, String.append_eq_empty_iff]
  exact fun ⟨empty, _⟩ => filled (empty ▸ List.mem_cons_self)

/-- Where the second half takes text the whole does, whatever the first half had. -/
theorem full_drops : Drops Full := by
  rintro fragments text dropped ⟨some, several, filled⟩
  exact ⟨List.append_ne_nil_of_right_ne_nil dropped some, several, filled⟩

/-! ### Logs without a stopped repetition -/

/-- No event of the log tells of a repetition stopped by a match that does not advance. -/
def Log.Quiet (log : Log κ) : Prop :=
  ∀ e ∈ log.events, e.message ≠ "repeat_while_successful: stopping on zero-width match"

namespace Log

@[simp] theorem quiet_empty : (∅ : Log κ).Quiet := by
  simp [Quiet]

@[simp] theorem quiet_oneTaken : (oneTaken : Log κ).Quiet := by
  simp [Quiet, oneTaken]

@[simp] theorem quiet_oneAttempt : (oneAttempt : Log κ).Quiet := by
  simp [Quiet, oneAttempt]

/-- Joined logs are quiet if both are. -/
@[simp] theorem quiet_append {a b : Log κ} : (a ++ b).Quiet ↔ a.Quiet ∧ b.Quiet := by
  simp [Quiet, or_imp, forall_and]

/-- An event is quiet unless it tells of a stopped repetition. -/
theorem quiet_ofEvent {e : Event κ} : (ofEvent e).Quiet ↔
    e.message ≠ "repeat_while_successful: stopping on zero-width match" := by
  simp [Quiet, ofEvent]

/-- Rewinds are quiet. -/
theorem quiet_of_rewind? {e : Event κ} {places : Nat × Nat} (rewinds : e.rewind? = some places) :
    (ofEvent e).Quiet := by
  rw [quiet_ofEvent]
  cases e with
  | sequenceRewound | timesRewound | chainRewound => simp [Event.message]
  | repetitionStopped | runFinished => cases rewinds

end Log

theorem Report.quiet_rewoundTo {r : Report κ} (quiet : r.log.Quiet) (start : Checkpoint)
    {e : Nat → Event κ}
    (rewinds : ∀ reached, (e reached).rewind? = some (reached, start.position)) :
    (r.rewoundTo start fun reached => .ofEvent (e reached)).log.Quiet := by
  by_cases noMatch : r.ending = .noMatch
  · rw [rewoundTo_of_noMatch noMatch]
    exact Log.quiet_append.mpr ⟨quiet, Log.quiet_of_rewind? (rewinds _)⟩
  · rwa [rewoundTo_of_ne_noMatch noMatch]

namespace Matcher

/-- Every match takes text and has fragments with text in them, and no repetition in the matcher is
stopped by a match that does not advance. -/
structure Substantial (m : Matcher κ) : Prop where
  full : Spells Full m
  quiet : ∀ c, (m c).log.Quiet

variable {m part whole first second : Matcher κ} {parts : List (Matcher κ)} {c : Cursor}

theorem Substantial.filled (substantial : Substantial m) : Spells Filled m := by
  intro c fragments matched
  obtain ⟨text, passes, full⟩ := substantial.full c fragments matched
  exact ⟨text, passes, full.filled⟩

/-- A substantial match leaves its start behind. -/
theorem Substantial.moves (substantial : Substantial m)
    (matched : (m c).ending = .matched fragments) : c.position < (m c).cursor.position := by
  obtain ⟨text, passes, some, -⟩ := substantial.full c fragments matched
  rw [passes.position]
  exact Nat.lt_add_of_pos_right (List.length_pos_iff.mpr some)

/-- Who spells filled fragments and advances with every match spells full ones. -/
theorem full_of_advances (filled : Spells Filled m)
    (advances : ∀ c fragments, (m c).ending = .matched fragments →
      (m c).cursor.position ≠ c.position) : Spells Full m := by
  intro c fragments matched
  obtain ⟨text, passes, spelled⟩ := filled c fragments matched
  refine ⟨text, passes, spelled.full fun none => advances c fragments matched ?_⟩
  rw [passes.position, none, List.length_nil, Nat.add_zero]

/-! ### Each way of putting matchers together -/

/-- A call that does nothing is substantial unless it matches. -/
theorem substantial_still {ending : Ending} (other : ∀ fragments, ending ≠ .matched fragments) :
    Substantial (Report.still ending : Matcher κ) :=
  ⟨fun _ fragments matched => absurd matched (other fragments), fun _ => Log.quiet_empty⟩

/-- A character is text. -/
theorem substantial_satisfying (accepts : Char → Bool) :
    Substantial (satisfying accepts : Matcher κ) where
  full := full_of_advances (spells_satisfying filled_spelling accepts)
    fun _ _ => satisfying_advances
  quiet c := by
    fun_cases satisfying accepts c with
    | case1 => exact Log.quiet_empty
    | case2 => exact Log.quiet_oneTaken
    | case3 => exact Log.quiet_empty

theorem substantial_either (lawful : Lawful first) (ofFirst : Substantial first)
    (ofSecond : Substantial second) : Substantial (either first second) where
  full := spells_either lawful ofFirst.full ofSecond.full
  quiet c := by
    rcases either_cases first second c with same | ⟨-, same⟩
    · rw [same]
      exact ofFirst.quiet c
    · rw [same, Report.log_after, Log.quiet_append]
      exact ⟨ofFirst.quiet c, ofSecond.quiet _⟩

theorem quiet_inOrder (ofParts : ∀ part ∈ parts, Substantial part) (c : Cursor) :
    (inOrder parts c).log.Quiet := by
  induction parts generalizing c with
  | nil => exact Log.quiet_empty
  | cons part parts ih =>
      obtain ⟨ofPart, ofRest⟩ := List.forall_mem_cons.mp ofParts
      rcases (part c).matched_or_not with ⟨fragments, matched⟩ | other
      · rw [inOrder_cons_of_matched matched, Report.log_after, Report.log_mapFragments,
          Log.quiet_append]
        exact ⟨ofPart.quiet c, ih ofRest _⟩
      · rw [inOrder_cons_of_not_matched other]
        exact ofPart.quiet c

/-- A sequence takes text with its first part; a sequence without parts takes none. -/
theorem substantial_sequence (nonempty : parts ≠ []) (ofParts : ∀ part ∈ parts, Substantial part) :
    Substantial (sequence parts) where
  full := by
    obtain ⟨part, rest, rfl⟩ := List.exists_cons_of_ne_nil nonempty
    obtain ⟨ofPart, ofRest⟩ := List.forall_mem_cons.mp ofParts
    intro c fragments matched
    have same := (matched_sequence matched).2
    rw [same] at matched ⊢
    obtain ⟨found, more, here, there, rfl, reached⟩ := matched_inOrder_cons matched
    obtain ⟨s, passes, full⟩ := ofPart.full c found here
    obtain ⟨t, passesRest, filled⟩ :=
      spells_inOrder filled_spelling (fun part mem => (ofRest part mem).filled) _ more there
    rw [reached]
    exact ⟨s ++ t, passes.trans passesRest, full.append filled⟩
  quiet c := by
    cases left : c.hasNext with
    | true =>
        rw [sequence_of_hasNext left]
        exact Report.quiet_rewoundTo (quiet_inOrder ofParts c) c.checkpoint fun _ => rfl
    | false =>
        rw [sequence_of_exhausted left]
        exact Log.quiet_empty

/-- A grouping of a match with text in it has text in it. -/
theorem substantial_merge (lawful : Lawful whole) (ofWhole : Substantial whole) :
    Substantial (merge whole) where
  full := spells_merge full_joins ofWhole.full
  quiet c := by
    rw [merge_of_lawful lawful, Report.log_mapFragments]
    exact ofWhole.quiet c

/-- Attempts that are quiet one by one are quiet together. -/
theorem quiet_attempts (quiet : ∀ c, (part c).log.Quiet) (count : Nat) (start : Checkpoint)
    (left : Nat) (found : Array String) (log : Log κ) (c : Cursor) (before : log.Quiet) :
    (attempts part count start left found log c).log.Quiet := by
  fun_induction attempts part count start left found log c with
  | case1 => exact before
  | case2 left found log c r joined fragments matched ih =>
      exact ih (by simp [joined, before, r, quiet c])
  | case3 left found log c r joined noMatch =>
      refine Log.quiet_append.mpr ⟨by simp [joined, before, r, quiet c], ?_⟩
      exact Log.quiet_of_rewind? rfl
  | case4 left found log c r joined | case5 left found log c r joined =>
      simp [joined, before, r, quiet c]

/-- A counted repetition takes text with its first attempt; with no attempts it takes none. -/
theorem substantial_times (ofPart : Substantial part) {count : Nat} (some : count ≠ 0) :
    Substantial (times part count) where
  full := by
    obtain ⟨left, rfl⟩ := Nat.exists_eq_succ_of_ne_zero some
    intro c fragments matched
    rw [times, attempts] at matched ⊢
    rcases (part c).matched_or_not with ⟨found, here⟩ | other
    · simp only [here] at matched ⊢
      obtain ⟨s, passes, full⟩ := ofPart.full c found here
      obtain ⟨more, t, rfl, passesRest, filled⟩ :=
        spells_attempts filled_spelling ofPart.filled _ _ left _ _ _ fragments matched
      refine ⟨s ++ t, passes.trans passesRest, ?_⟩
      simpa using full.append filled
    · cases ended : (part c).ending with
      | matched found => exact absurd ended (other found)
      | noMatch | aborted | unfinished =>
          simp only [ended] at matched
          cases matched
  quiet c := quiet_attempts ofPart.quiet count c.checkpoint count #[] ∅ c Log.quiet_empty

/-- No round stops because it does not advance: a round that matches advances. -/
theorem quiet_rounds (ofPart : Substantial part) (budget matched : Nat) (found : Array String)
    (log : Log κ) (c : Cursor) (before : log.Quiet) :
    (rounds part budget matched found log c).log.Quiet := by
  fun_induction rounds part budget matched found log c with
  | case1 budget matched found log c r joined fragments ended same =>
      have still : r.cursor.position = c.position := congrArg Checkpoint.position same
      exact absurd still (ofPart.moves ended).ne'
  | case3 matched found log c r joined fragments ended advanced budget ih =>
      exact ih (by simp [joined, before, r, ofPart.quiet c])
  | case2 matched found log c r joined | case4 budget matched found log c r joined
  | case5 budget matched found log c r joined | case6 budget matched found log c r joined =>
      simp [joined, before, r, ofPart.quiet c]

/-- An open repetition that matches has advanced, whatever it repeats. -/
theorem oneOrMore_advances (lawful : Lawful part) (forward : Forward part)
    (matched : (oneOrMore part c).ending = .matched fragments) :
    (oneOrMore part c).cursor.position ≠ c.position := by
  obtain ⟨k, some, row, agrees, -⟩ := exists_row_of_matched lawful forward matched
  obtain ⟨-, -, reached, -⟩ := times_of_advances row.advances
  have less := reach_remaining forward row.advances
  intro still
  have same : (oneOrMore part c).cursor = c :=
    Cursor.eq_of_data_of_position ((lawful_oneOrMore lawful).data c) still
  rw [← reached, ← agrees.cursor, same] at less
  omega

/-- An open repetition of a part that takes text never stops for want of advance. -/
theorem substantial_oneOrMore (lawful : Lawful part) (forward : Forward part)
    (ofPart : Substantial part) : Substantial (oneOrMore part) where
  full := full_of_advances (spells_oneOrMore filled_spelling lawful ofPart.filled)
    fun _ _ => oneOrMore_advances lawful forward
  quiet c := quiet_rounds ofPart c.remaining 0 #[] ∅ c Log.quiet_empty

/-- A chain, if it goes on with something substantial after every match of its first half. -/
theorem substantial_chain {next : List String → Option (Parser κ)} {call : Parser κ → Matcher κ}
    (ofFirst : Substantial first)
    (ofNext : ∀ c found continuation, (first c).ending = .matched found →
      next found = some continuation → Substantial (call continuation)) :
    Substantial (chain first next call) where
  full := by
    intro c fragments matched
    obtain ⟨found, continuation, here, onward, there, reached⟩ := matched_chain matched
    obtain ⟨dropped, passes, -⟩ := ofFirst.full c found here
    obtain ⟨text, passesRest, full⟩ :=
      (ofNext c found continuation here onward).full _ fragments there
    rw [reached]
    exact ⟨dropped ++ text, passes.trans passesRest, full_drops dropped full⟩
  quiet c := by
    rcases (first c).matched_or_not with ⟨found, here⟩ | other
    · cases onward : next found with
      | none =>
          rw [chain_of_none here onward, Report.log_after, Log.quiet_append]
          exact ⟨ofFirst.quiet c, Log.quiet_empty⟩
      | some continuation =>
          rw [chain_of_some here onward, Report.log_after, Log.quiet_append]
          have quiet := (ofNext c found continuation here onward).quiet (first c).cursor
          exact ⟨ofFirst.quiet c, Report.quiet_rewoundTo quiet c.checkpoint fun _ => rfl⟩
    · rw [chain_of_not_matched other]
      exact ofFirst.quiet c

end Matcher

/-! ### Trees and continuations -/

namespace Parser

open Languages Matcher

variable {g : Grammar κ} {depth : Nat} {p : Parser κ}

/-- Whether a parser matches before it has read anything: it asks for no attempts, or it has no
parts. -/
def isIdle : Parser κ → Bool
  | times _ 0 | sequence [] => true
  | _ => false

/-- No idle parser occurs when `p` runs. -/
abbrev NeverIdle (g : Grammar κ) (p : Parser κ) : Prop :=
  Throughout g (fun q => q.isIdle = false) p

/-- One level of continuations. -/
theorem parse_substantial_of_onward
    (ofOnward : ∀ q, NeverIdle g q → Substantial (onward g depth q)) (busy : NeverIdle g p) :
    Substantial (p.parse g depth) := by
  have lawful := parse_lawful g depth
  have forward := parse_forward g depth
  induction p with
  | literal expected => exact substantial_satisfying _
  | any => exact substantial_satisfying _
  | anyExcept excluded => exact substantial_satisfying _
  | either first second ofFirst ofSecond =>
      exact substantial_either (lawful first) (ofFirst (busy.of_child (by simp)))
        (ofSecond (busy.of_child (by simp)))
  | sequence parts ofParts =>
      rw [parse_sequence]
      have nonempty : parts ≠ [] := by
        rintro rfl
        exact absurd busy.self (by simp [isIdle])
      refine substantial_sequence (List.map_eq_nil_iff.not.mpr nonempty) ?_
      exact List.forall_mem_map.mpr fun part mem => ofParts part mem (busy.of_child mem)
  | merge whole ofWhole =>
      exact substantial_merge (lawful whole) (ofWhole (busy.of_child (by simp)))
  | times part count ofPart =>
      have some : count ≠ 0 := by
        rintro rfl
        exact absurd busy.self (by simp [isIdle])
      exact substantial_times (ofPart (busy.of_child (by simp))) some
  | oneOrMore part ofPart =>
      exact substantial_oneOrMore (lawful part) (forward part)
        (ofPart (busy.of_child (by simp)))
  | chain first label ofFirst =>
      refine substantial_chain (ofFirst (busy.of_child (by simp))) ?_
      intro c found continuation matched onward
      exact ofOnward continuation (busy.of_continuation matched onward)
  | fail => exact substantial_still nofun

/-- A parser in which nothing idles is substantial, by induction on the depth. -/
theorem parse_substantial (busy : NeverIdle g p) (depth : Nat) : Substantial (p.parse g depth) := by
  induction depth generalizing p with
  | zero => exact parse_substantial_of_onward (fun _ _ => substantial_still nofun) busy
  | succ depth ih => exact parse_substantial_of_onward (fun _ => ih) busy

/-- A run logs what its parse logs, and its end. -/
theorem quiet_run (busy : NeverIdle g p) (depth : Nat) (text : String) :
    (p.run g depth text).log.Quiet := by
  have quiet := (parse_substantial busy depth).quiet (.ofString text)
  have ended (answer c) : (p.finish answer c (p.parse g depth (.ofString text)).log).log.Quiet := by
    exact Log.quiet_append.mpr ⟨quiet, Log.quiet_ofEvent.mpr (by simp [Event.message])⟩
  cases ending : (p.parse g depth (.ofString text)).ending with
  | matched fragments =>
      simp only [run, ending]
      exact ended _ _
  | noMatch =>
      simp only [run, ending]
      exact ended _ _
  | aborted | unfinished =>
      simp only [run, ending]
      exact quiet

/-- Groups hold no repetition of nothing, however deep they go. -/
theorem group_neverIdle : NeverIdle groups group := by
  intro q occurs
  have passes : (!q.isIdle) = true := by
    refine @Occurs.passes _ _ (!·.isIdle) _ _ occurs ?_ (by decide +kernel)
    rintro first label fragments r - ⟨⟩
    decide +kernel
  simpa using passes

/-- **Who never idles takes text with every match.** If no repetition of no attempts and no sequence
without parts occurs, in the tree or in what a chain goes on with, every match begins before the end
of the text, advances, and finds fragments of which none is empty; and no repetition is stopped
because a match does not advance, in a parse from any place or in a run. -/
theorem matches_take_text (g : Grammar κ) (p : Parser κ)
    (busy : ∀ q, Occurs g q p → q.isIdle = false) (depth : Nat) :
    (∀ c fragments, (p.parse g depth c).ending = .matched fragments →
      c.position < c.length ∧ c.position < (p.parse g depth c).cursor.position ∧
        fragments ≠ [] ∧ "" ∉ fragments) ∧
    (∀ c, ∀ e ∈ (p.parse g depth c).log.events,
      e.message ≠ "repeat_while_successful: stopping on zero-width match") ∧
    ∀ text, ∀ e ∈ (p.run g depth text).log.events,
      e.message ≠ "repeat_while_successful: stopping on zero-width match" := by
  have substantial := parse_substantial busy depth
  refine ⟨fun c fragments matched => ?_, substantial.quiet, quiet_run busy depth⟩
  obtain ⟨text, passes, some, several, filled⟩ := substantial.full c fragments matched
  have moves := substantial.moves matched
  have bounded := passes.position_le_max
  exact ⟨by omega, moves, several, filled⟩

/-- Groups from the middle of a text, where they match; and over a whole text, where the log tells
of rewinds but of no stopped repetition. -/
theorem groups_take_text :
    (∀ q, Occurs groups q group → q.isIdle = false) ∧
      (group.parse groups 2 ⟨#['(', '(', ')', ')', ')'], 1⟩).ending = .matched [")"] ∧
      1 < (group.parse groups 2 ⟨#['(', '(', ')', ')', ')'], 1⟩).cursor.position ∧
      "" ∉ [")"] ∧
      0 < (group.run groups 2 "(())").log.events.size ∧
      ∀ e ∈ (group.run groups 2 "(())").log.events,
        e.message ≠ "repeat_while_successful: stopping on zero-width match" := by
  have busy : ∀ q, Occurs groups q group → q.isIdle = false := group_neverIdle
  have matched : (group.parse groups 2 ⟨#['(', '(', ')', ')', ')'], 1⟩).ending =
      .matched [")"] := by decide +kernel
  obtain ⟨takes, -, quiet⟩ := matches_take_text groups group busy 2
  obtain ⟨-, moves, -, filled⟩ := takes _ _ matched
  exact ⟨busy, matched, moves, filled, by decide +kernel, quiet "(())"⟩

end Parser

end Backtrack
