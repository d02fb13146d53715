import Backtrack.Proofs.Bounds

/-!
What lies before a place has no influence on a parse from there.

Two cursors with the same unread text may stand at different positions, in different texts, and
even past the end. A parse does the same from both: it ends in the same way, moves as far, and logs
the same events, with all positions in them moved by the distance of the two. Every comparison of
positions is one between places that are moved alike.
-/

namespace Backtrack

variable {κ : Type}

/-! ### Moving cursors, events and logs -/

/-- The cursor `d` has the unread text of `c`, and stands `offset` characters further on. -/
structure Cursor.Moved (offset : Nat) (c d : Cursor) : Prop where
  rest : d.rest = c.rest
  position : d.position = c.position + offset

/-- The event with every place in the text moved on. A run tells of its whole text, which has no
other place to be moved to. -/
def Event.moved (offset : Nat) : Event κ → Event κ
  | sequenceRewound reached start => sequenceRewound (reached + offset) (start + offset)
  | timesRewound attempt count reached start =>
    timesRewound attempt count (reached + offset) (start + offset)
  | chainRewound reached start continuation =>
    chainRewound (reached + offset) (start + offset) continuation
  | repetitionStopped position matched => repetitionStopped (position + offset) matched
  | runFinished parser length success consumed => runFinished parser length success consumed

/-- The log with all its events moved on. -/
def Log.moved (offset : Nat) (log : Log κ) : Log κ :=
  { log with events := log.events.map (Event.moved offset) }

/-- The report `s` is `r` as it looks from `offset` characters further on. -/
structure Report.Moved (offset : Nat) (r s : Report κ) : Prop where
  ending : s.ending = r.ending
  cursor : r.cursor.Moved offset s.cursor
  log : s.log = r.log.moved offset

variable {offset : Nat}

/-- Moving events adds up. -/
theorem Event.moved_moved (first second : Nat) (e : Event κ) :
    (e.moved first).moved second = e.moved (first + second) := by
  cases e <;> simp [moved, Nat.add_assoc]

namespace Log

@[simp] theorem moved_empty : (∅ : Log κ).moved offset = ∅ :=
  ext (Array.map_empty ..) rfl rfl

@[simp] theorem moved_oneTaken : (oneTaken : Log κ).moved offset = oneTaken :=
  ext (Array.map_empty ..) rfl rfl

@[simp] theorem moved_oneAttempt : (oneAttempt : Log κ).moved offset = oneAttempt :=
  ext (Array.map_empty ..) rfl rfl

@[simp] theorem moved_ofEvent (e : Event κ) : (ofEvent e).moved offset = ofEvent (e.moved offset) :=
  ext (by simp [moved, ofEvent]) rfl rfl

@[simp] theorem moved_append (a b : Log κ) :
    (a ++ b).moved offset = a.moved offset ++ b.moved offset :=
  ext (Array.map_append ..) rfl rfl

/-- An event noted in both logs, at places that are moved alike. -/
theorem moved_note {e e' : Event κ} (same : e' = e.moved offset) (log : Log κ) :
    log.moved offset ++ ofEvent e' = (log ++ ofEvent e).moved offset := by
  rw [moved_append, moved_ofEvent, same]

/-- Moving logs adds up. -/
theorem moved_moved (first second : Nat) (log : Log κ) :
    (log.moved first).moved second = log.moved (first + second) := by
  refine ext ?_ rfl rfl
  rw [moved, moved, moved, Array.map_map]
  exact congrArg (Array.map · log.events) (funext (Event.moved_moved first second))

end Log

namespace Cursor.Moved

variable {c d : Cursor}

theorem remaining (moved : c.Moved offset d) : d.remaining = c.remaining := by
  rw [← length_rest, ← length_rest, moved.rest]

/-- The next character does not depend on what was read. -/
theorem peek? (moved : c.Moved offset d) : d.peek? = c.peek? := by
  rw [peek?_eq_head?, peek?_eq_head?, moved.rest]

theorem hasNext (moved : c.Moved offset d) : d.hasNext = c.hasNext := by
  rw [Bool.eq_iff_iff, hasNext_iff_remaining, hasNext_iff_remaining, moved.remaining]

/-- While there is text left, both cursors step forward together. -/
theorem advance (moved : c.Moved offset d) (left : c.hasNext = true) :
    c.advance.Moved offset d.advance where
  rest := by rw [rest_advance, rest_advance, moved.rest]
  position := by
    rw [position_advance c left, position_advance d (moved.hasNext.trans left), moved.position,
      Nat.add_right_comm]

/-- Two places have the same position just when the places they are moved to have. -/
theorem checkpoint_eq_iff {c' d' : Cursor} (moved : c.Moved offset d)
    (moved' : c'.Moved offset d') :
    d'.checkpoint = d.checkpoint ↔ c'.checkpoint = c.checkpoint := by
  simp only [checkpoint, Checkpoint.mk.injEq, moved.position, moved'.position,
    Nat.add_right_cancel_iff]

end Cursor.Moved

namespace Report.Moved

variable {r s : Report κ} {c d : Cursor}

theorem still (ending : Ending) (moved : c.Moved offset d) :
    (Report.still ending c : Report κ).Moved offset (Report.still ending d) :=
  ⟨rfl, moved, Log.moved_empty.symm⟩

/-- What is logged before a call moves with it. -/
theorem after (moved : r.Moved offset s) (log : Log κ) :
    (r.after log).Moved offset (s.after (log.moved offset)) where
  ending := moved.ending
  cursor := moved.cursor
  log := by rw [log_after, log_after, moved.log, Log.moved_append]

/-- Fragments hold no places, and may be changed alike on both sides. -/
theorem mapFragments (moved : r.Moved offset s) (f : List String → List String) :
    (r.mapFragments f).Moved offset (s.mapFragments f) := by
  rcases r.matched_or_not with ⟨fragments, matched⟩ | other
  · have same := moved.ending.trans matched
    refine ⟨?_, ?_, ?_⟩
    · rw [mapFragments_of_matched matched, mapFragments_of_matched same]
    · rw [cursor_mapFragments, cursor_mapFragments]
      exact moved.cursor
    · rw [log_mapFragments, log_mapFragments, moved.log]
  · rw [mapFragments_of_not_matched other, mapFragments_of_not_matched (by rwa [moved.ending])]
    exact moved

/-- Both calls go back to where they began, and note the same but for the distance. -/
theorem rewoundTo (moved : r.Moved offset s) (start : c.Moved offset d)
    (ofFirst : r.cursor.data = c.data) (ofSecond : s.cursor.data = d.data)
    {note note' : Nat → Log κ} (notes : ∀ n, note' (n + offset) = (note n).moved offset) :
    (r.rewoundTo c.checkpoint note).Moved offset (s.rewoundTo d.checkpoint note') := by
  by_cases noMatch : r.ending = .noMatch
  · rw [rewoundTo_of_noMatch noMatch, rewoundTo_of_noMatch (moved.ending.trans noMatch),
      Cursor.rewind_checkpoint_of_data ofFirst, Cursor.rewind_checkpoint_of_data ofSecond]
    refine ⟨rfl, start, ?_⟩
    rw [moved.cursor.position, notes, moved.log, Log.moved_append]
  · rw [rewoundTo_of_ne_noMatch noMatch, rewoundTo_of_ne_noMatch (by rwa [moved.ending])]
    exact moved

end Report.Moved

namespace Matcher

/-- From places with the same unread text the matcher does the same, moved by their distance. -/
def Local (m : Matcher κ) : Prop :=
  ∀ ⦃offset c d⦄, c.Moved offset d → (m c).Moved offset (m d)

/-! ### Each way of putting matchers together -/

theorem local_still (ending : Ending) : Local (Report.still ending : Matcher κ) :=
  fun _ _ _ moved => .still ending moved

/-- A single character is judged by what is unread, the end of the text included. -/
theorem local_satisfying (accepts : Char → Bool) : Local (satisfying accepts : Matcher κ) := by
  intro offset c d moved
  have same := moved.peek?
  unfold satisfying
  rw [same]
  split
  · exact .still .noMatch moved
  · next x read =>
    split
    · exact ⟨rfl, moved.advance (Cursor.hasNext_of_peek? read), Log.moved_oneTaken.symm⟩
    · exact .still .noMatch moved

/-- The second choice begins where the first ended, on both sides alike. -/
theorem local_either {first second : Matcher κ} (ofFirst : Local first)
    (ofSecond : Local second) : Local (either first second) := by
  intro offset c d moved
  have here := ofFirst moved
  by_cases noMatch : (first c).ending = .noMatch
  · rw [either_of_noMatch noMatch, either_of_noMatch (here.ending.trans noMatch), here.log]
    exact (ofSecond here.cursor).after _
  · rw [either_of_ne_noMatch noMatch, either_of_ne_noMatch (by rwa [here.ending])]
    exact here

/-- Each part begins where the one before it ended. -/
theorem local_inOrder {parts : List (Matcher κ)} (ofParts : ∀ part ∈ parts, Local part) :
    Local (inOrder parts) := by
  induction parts with
  | nil => exact local_still _
  | cons part parts ih =>
      intro offset c d moved
      obtain ⟨ofPart, ofRest⟩ := List.forall_mem_cons.mp ofParts
      have here := ofPart moved
      rcases (part c).matched_or_not with ⟨fragments, matched⟩ | other
      · rw [inOrder_cons_of_matched matched, inOrder_cons_of_matched (here.ending.trans matched),
          here.log]
        exact ((ih ofRest here.cursor).mapFragments _).after _
      · rw [inOrder_cons_of_not_matched other,
          inOrder_cons_of_not_matched (by rwa [here.ending])]
        exact here

/-- A sequence goes back to its own start, which has moved as its parts have. -/
theorem local_sequence {parts : List (Matcher κ)} (lawful : ∀ part ∈ parts, Lawful part)
    (ofParts : ∀ part ∈ parts, Local part) : Local (sequence parts) := by
  intro offset c d moved
  cases left : c.hasNext with
  | true =>
      rw [sequence_of_hasNext left, sequence_of_hasNext (moved.hasNext.trans left)]
      refine (local_inOrder ofParts moved).rewoundTo moved (data_inOrder lawful c)
        (data_inOrder lawful d) fun reached => ?_
      rw [Log.moved_ofEvent, Event.moved, moved.position]
  | false =>
      rw [sequence_of_exhausted left, sequence_of_exhausted (moved.hasNext.trans left)]
      exact .still .noMatch moved

theorem local_merge {whole : Matcher κ} (lawful : Lawful whole) (ofWhole : Local whole) :
    Local (merge whole) := by
  intro offset c d moved
  have joined := (ofWhole moved).mapFragments fun fragments => [String.join fragments]
  refine joined.rewoundTo moved ?_ ?_ fun _ => Log.moved_empty.symm
  · rw [Report.cursor_mapFragments, lawful.data]
  · rw [Report.cursor_mapFragments, lawful.data]

/-- One more attempt adds the same to both logs. -/
theorem moved_attempt (log : Log κ) {r s : Report κ} (moved : r.Moved offset s) :
    (log ++ .oneAttempt ++ r.log).moved offset = log.moved offset ++ .oneAttempt ++ s.log := by
  rw [Log.moved_append, Log.moved_append, Log.moved_oneAttempt, moved.log]

/-- Both repetitions began at places that are moved alike, and have found the same so far. -/
theorem local_attempts {part : Matcher κ} (lawful : Lawful part) (ofPart : Local part)
    (count : Nat) {start start' : Cursor} (began : start.Moved offset start') (left : Nat)
    (found : Array String) (log : Log κ) {c d : Cursor} (moved : c.Moved offset d)
    (ofStart : c.data = start.data) (ofStart' : d.data = start'.data) :
    (attempts part count start.checkpoint left found log c).Moved offset
      (attempts part count start'.checkpoint left found (log.moved offset) d) := by
  induction left generalizing found log c d with
  | zero => exact ⟨rfl, moved, rfl⟩
  | succ left ih =>
      have here : (part c).Moved offset (part d) := ofPart moved
      have ofStart := (lawful.data c).trans ofStart
      have ofStart' := (lawful.data d).trans ofStart'
      have logs := moved_attempt log here
      rw [attempts, attempts]
      cases ended : (part c).ending with
      | matched fragments =>
          simp only [here.ending.trans ended, ← logs]
          exact ih _ _ here.cursor ofStart ofStart'
      | noMatch =>
          simp only [here.ending.trans ended, ← logs]
          rw [Cursor.rewind_checkpoint_of_data ofStart, Cursor.rewind_checkpoint_of_data ofStart']
          refine ⟨rfl, began, Log.moved_note ?_ _⟩
          simp only [Event.moved, Cursor.checkpoint, here.cursor.position, began.position]
      | aborted | unfinished =>
          simp only [here.ending.trans ended, ← logs]
          exact ⟨rfl, here.cursor, rfl⟩

/-- A counted repetition goes back to the start of all its attempts. -/
theorem local_times {part : Matcher κ} (lawful : Lawful part) (ofPart : Local part)
    (count : Nat) : Local (times part count) := by
  intro offset c d moved
  have loops := local_attempts lawful ofPart count moved count #[] ∅ moved rfl rfl
  rwa [Log.moved_empty] at loops

/-- The rounds of an open repetition compare places of the same text with each other, never with a
fixed one. -/
theorem local_rounds {part : Matcher κ} (ofPart : Local part) (budget matched : Nat)
    (found : Array String) (log : Log κ) (c d : Cursor) (moved : c.Moved offset d) :
    (rounds part budget matched found log c).Moved offset
      (rounds part budget matched found (log.moved offset) d) := by
  fun_induction rounds part budget matched found log c generalizing d with
  | case1 budget matched found log c r joined fragments ended still =>
      have here : r.Moved offset (part d) := ofPart moved
      rw [rounds]
      simp only [here.ending.trans ended, (moved.checkpoint_eq_iff here.cursor).mpr still, if_true,
        ← moved_attempt log here]
      refine ⟨rfl, here.cursor, Log.moved_note ?_ _⟩
      rw [Event.moved, moved.position]
  | case2 matched found log c r joined fragments ended advanced =>
      have here : r.Moved offset (part d) := ofPart moved
      rw [rounds]
      simp only [here.ending.trans ended, mt (moved.checkpoint_eq_iff here.cursor).mp advanced,
        if_false, ← moved_attempt log here]
      exact ⟨rfl, here.cursor, rfl⟩
  | case3 matched found log c r joined fragments ended advanced budget ih =>
      have here : r.Moved offset (part d) := ofPart moved
      have onward : rounds part (budget + 1) matched found (log.moved offset) d =
          rounds part budget (matched + 1) (found ++ fragments) (joined.moved offset)
            (part d).cursor := by
        rw [rounds]
        simp only [here.ending.trans ended, mt (moved.checkpoint_eq_iff here.cursor).mp advanced,
          if_false, ← moved_attempt log here, joined]
      rw [onward]
      exact ih _ here.cursor
  | case4 budget matched found log c r joined ended
  | case5 budget matched found log c r joined ended
  | case6 budget matched found log c r joined ended =>
      have here : r.Moved offset (part d) := ofPart moved
      rw [rounds]
      simp only [here.ending.trans ended, ← moved_attempt log here]
      exact ⟨rfl, here.cursor, rfl⟩

/-- An open repetition stops in the same round on both sides. -/
theorem local_oneOrMore {part : Matcher κ} (ofPart : Local part) : Local (oneOrMore part) := by
  intro offset c d moved
  have loops := local_rounds ofPart c.remaining 0 #[] ∅ c d moved
  rw [Log.moved_empty] at loops
  rw [oneOrMore, oneOrMore, moved.remaining]
  exact loops

/-- Both sides choose by the same fragments, and so go on with the same parser. -/
theorem local_chain {first : Matcher κ} {next : List String → Option (Parser κ)}
    {call : Parser κ → Matcher κ} (lawful : Lawful first) (lawfulCall : ∀ p, Lawful (call p))
    (ofFirst : Local first) (ofCall : ∀ p, Local (call p)) : Local (chain first next call) := by
  intro offset c d moved
  have here := ofFirst moved
  rcases (first c).matched_or_not with ⟨fragments, matched⟩ | other
  · have matched' := here.ending.trans matched
    cases onward : next fragments with
    | none =>
        rw [chain_of_none matched onward, chain_of_none matched' onward, here.log]
        exact Report.Moved.after (.still .aborted here.cursor) _
    | some continuation =>
        rw [chain_of_some matched onward, chain_of_some matched' onward, here.log]
        refine Report.Moved.after (Report.Moved.rewoundTo (ofCall continuation here.cursor) moved
          ?_ ?_ fun reached => ?_) _
        · rw [(lawfulCall continuation).data, lawful.data]
        · rw [(lawfulCall continuation).data, lawful.data]
        · rw [Log.moved_ofEvent, Event.moved, moved.position]
  · rw [chain_of_not_matched other, chain_of_not_matched (by rwa [here.ending])]
    exact here

end Matcher

/-! ### Trees and continuations -/

namespace Parser

open Languages Matcher

variable {g : Grammar κ}

/-- One level of a tree: if all that its chains go on with is local, so is the tree. -/
theorem matcher_local {call : Parser κ → Matcher κ} (lawful : ∀ p, Lawful (call p))
    (ofCall : ∀ p, Local (call p)) (p : Parser κ) : Local (matcher g call p) := by
  have kept : ∀ p, Lawful (matcher g call p) := matcher_lawful lawful
  induction p with
  | literal expected => exact local_satisfying _
  | any => exact local_satisfying _
  | anyExcept excluded => exact local_satisfying _
  | either first second ofFirst ofSecond => exact local_either ofFirst ofSecond
  | sequence parts ofParts =>
      rw [matcher_sequence]
      exact local_sequence (List.forall_mem_map.mpr fun part _ => kept part)
        (List.forall_mem_map.mpr ofParts)
  | merge whole ofWhole => exact local_merge (kept whole) ofWhole
  | times part count ofPart => exact local_times (kept part) ofPart count
  | oneOrMore part ofPart => exact local_oneOrMore ofPart
  | chain first label ofFirst => exact local_chain (kept first) lawful ofFirst ofCall
  | fail => exact local_still _

/-- What a chain goes on with is local, by induction on how deep it is nested. -/
theorem onward_local (g : Grammar κ) (depth : Nat) (p : Parser κ) :
    Local (onward g depth p) := by
  induction depth generalizing p with
  | zero => exact local_still _
  | succ depth ih => exact matcher_local (onward_lawful g depth) ih p

/-- Every parser is local. -/
theorem parse_local (g : Grammar κ) (depth : Nat) (p : Parser κ) : Local (p.parse g depth) :=
  matcher_local (onward_lawful g depth) (onward_local g depth) p

/-- **A parse depends on the unread text alone.** From two places with the same text before them a
parse ends in the same way, moves by the same number of characters and logs the same, when each
place in the text is measured from where its parse began. So what a parse answers in the midst of
a text is what a run answers that has only the unread text. -/
theorem parse_suffix_local (g : Grammar κ) (depth : Nat) (p : Parser κ) :
    (∀ c d : Cursor, d.rest = c.rest →
      (p.parse g depth d).ending = (p.parse g depth c).ending ∧
      (p.parse g depth d).cursor.position + c.position =
        (p.parse g depth c).cursor.position + d.position ∧
      (p.parse g depth d).log.moved c.position = (p.parse g depth c).log.moved d.position) ∧
    ∀ c : Cursor,
      (p.run g depth (String.ofList c.rest)).outcome?.map Outcome.fragments? =
        (p.parse g depth c).ending.answer? := by
  constructor
  · intro c d same
    -- Of the two places, one is the other moved on.
    rcases Nat.le_total c.position d.position with le | le
    · have moved := parse_local g depth p ⟨same, (Nat.add_sub_cancel' le).symm⟩
      refine ⟨moved.ending, ?_, ?_⟩
      · have position := moved.cursor.position
        omega
      · rw [moved.log, Log.moved_moved, Nat.sub_add_cancel le]
    · have moved := parse_local g depth p ⟨same.symm, (Nat.add_sub_cancel' le).symm⟩
      refine ⟨moved.ending.symm, ?_, ?_⟩
      · have position := moved.cursor.position
        omega
      · rw [moved.log, Log.moved_moved, Nat.sub_add_cancel le]
  · intro c
    have start : (Cursor.ofString (String.ofList c.rest)).Moved c.position c :=
      ⟨by rw [Cursor.rest_ofString, String.toList_ofList], (Nat.zero_add _).symm⟩
    rw [fragments?_run, (parse_local g depth p start).ending]

/-- A quotation that is never closed, from the middle of a text and from the start of what is left
there. -/
theorem quoted_suffix_local :
    (Cursor.mk #['x', '\'', 'a'] 1).rest = (Cursor.ofString "'a").rest ∧
      (quoted.parse quotes 1 ⟨#['x', '\'', 'a'], 1⟩).log.events.size = 2 ∧
      (quoted.parse quotes 1 ⟨#['x', '\'', 'a'], 1⟩).log.moved 0 =
        (quoted.parse quotes 1 (.ofString "'a")).log.moved 1 := by
  obtain ⟨places, -⟩ := parse_suffix_local quotes 1 quoted
  have same : (Cursor.mk #['x', '\'', 'a'] 1).rest = (Cursor.ofString "'a").rest := by
    decide +kernel
  exact ⟨same, by decide +kernel, (places _ _ same).2.2⟩

end Parser

end Backtrack
