import Backtrack.Proofs.Bounds
import Mathlib.Algebra.Ring.Nat

/-!
The log of a run accounts for every move of the cursor.

A character matched moves the cursor forward by one, and the event of a rewind tells how far the
cursor went back. Nothing else moves it: choice and open repetition rewind nothing, and the rewind
of a grouping, which leaves no event, finds the cursor where it began. So the characters matched
anywhere, those of undone attempts included, are the ones consumed in the end and the ones that
rewinds gave back.
-/

namespace Backtrack

variable {κ : Type}

/-! ### How far events go back -/

/-- The place that a rewind left and the one it went back to. -/
def Event.rewind? : Event κ → Option (Nat × Nat)
  | sequenceRewound reached start => some (reached, start)
  | timesRewound _ _ reached start => some (reached, start)
  | chainRewound reached start _ => some (reached, start)
  | repetitionStopped .. | runFinished .. => none

/-- By how many characters an event takes the cursor back. -/
def Event.setback (e : Event κ) : Nat :=
  match e.rewind? with
  | some (reached, start) => reached - start
  | none => 0

/-- By how many characters the events of a log take the cursor back, all together. -/
def Log.setback (log : Log κ) : Nat :=
  (log.events.toList.map Event.setback).sum

/-- The record of an event has both places just if the event is a rewind between them. -/
theorem Event.rewind?_eq_some_iff {e : Event κ} {reached start : Nat} :
    e.rewind? = some (reached, start) ↔
      ("from", .number reached) ∈ e.fields ∧ ("to", .number start) ∈ e.fields := by
  cases e <;> simp [rewind?, fields, eq_comm]

/-- A rewind is not the end of a run. -/
theorem Event.message_of_rewind? {e : Event κ} {places : Nat × Nat}
    (rewinds : e.rewind? = some places) : e.message ≠ "parser run finished" := by
  cases e with
  | sequenceRewound | timesRewound | chainRewound => simp [message]
  | repetitionStopped | runFinished => cases rewinds

namespace Log

@[simp] theorem setback_empty : (∅ : Log κ).setback = 0 := rfl

@[simp] theorem setback_oneTaken : (oneTaken : Log κ).setback = 0 := rfl

@[simp] theorem setback_oneAttempt : (oneAttempt : Log κ).setback = 0 := rfl

@[simp] theorem setback_ofEvent (e : Event κ) : (ofEvent e).setback = e.setback := by
  simp [setback, ofEvent]

/-- Joined logs go back by the sum. -/
@[simp] theorem setback_append (a b : Log κ) : (a ++ b).setback = a.setback + b.setback := by
  simp [setback]

/-- The log accounts for the way of the cursor from `c` to `d`: it has moved forward, by the
characters taken less those that rewinds gave back. Every rewind leads back from a place inside
the text, or from the start if that is past the end, and no run is over yet. -/
structure Accounts (log : Log κ) (c d : Cursor) : Prop where
  passes : ∃ text, c.Passes text d
  balance : c.position + log.taken = d.position + log.setback
  within : ∀ e ∈ log.events, ∀ reached start, e.rewind? = some (reached, start) →
    start ≤ reached ∧ reached ≤ max c.position c.length
  ongoing : ∀ e ∈ log.events, e.message ≠ "parser run finished"

namespace Accounts

variable {a b : Log κ} {c d d' : Cursor} {e : Event κ}

/-- Without events the way is the text taken. -/
theorem of_events_eq_empty {log : Log κ} (none : log.events = #[]) {text : List Char}
    (passes : c.Passes text d) (taken : text.length = log.taken) : log.Accounts c d where
  passes := ⟨text, passes⟩
  balance := by rw [passes.position, taken, setback, none]; rfl
  within e mem := by simp [none] at mem
  ongoing e mem := by simp [none] at mem

/-- Who stays needs no log. -/
theorem empty (c : Cursor) : (∅ : Log κ).Accounts c c :=
  of_events_eq_empty rfl (.refl c) rfl

theorem oneAttempt (c : Cursor) : (Log.oneAttempt : Log κ).Accounts c c :=
  of_events_eq_empty rfl (.refl c) rfl

/-- A character taken is one step. -/
theorem oneTaken {x : Char} (read : c.peek? = some x) :
    (Log.oneTaken : Log κ).Accounts c c.advance :=
  of_events_eq_empty rfl (.advance read) rfl

/-- One way behind another. The second begins no further on than the first could get, so its rewinds
are bounded alike. -/
theorem trans (first : a.Accounts c d) (second : b.Accounts d d') : (a ++ b).Accounts c d' := by
  obtain ⟨s, passes⟩ := first.passes
  obtain ⟨t, passes'⟩ := second.passes
  refine ⟨⟨s ++ t, passes.trans passes'⟩, ?_, fun e mem => ?_, fun e mem => ?_⟩
  · have balance := first.balance
    have balance' := second.balance
    rw [taken_append, setback_append]
    omega
  · -- The bound of the second half is measured from `d`, which is no further than the first allows.
    have bound := passes.position_le_max
    have length := Cursor.length_eq_of_data passes.data
    intro reached start rewinds
    rcases Array.mem_append.mp mem with mem | mem
    · exact first.within e mem reached start rewinds
    · have within := second.within e mem reached start rewinds
      omega
  · rcases Array.mem_append.mp mem with mem | mem
    · exact first.ongoing e mem
    · exact second.ongoing e mem

/-- One more event that leaves the cursor where it is. -/
theorem note (accounts : a.Accounts c d) (still : e.rewind? = none)
    (ongoing : e.message ≠ "parser run finished") : (a ++ ofEvent e).Accounts c d := by
  refine accounts.trans ⟨⟨[], .refl d⟩, ?_, fun e' mem => ?_, fun e' mem => ?_⟩
  · rw [setback_ofEvent, Event.setback, still]
    rfl
  · obtain rfl : e' = e := by simpa [ofEvent] using mem
    simp [still]
  · obtain rfl : e' = e := by simpa [ofEvent] using mem
    exact ongoing

/-- Going back to where the way began, with an event that tells of it. -/
theorem rewind (accounts : a.Accounts c d) (rewinds : e.rewind? = some (d.position, c.position)) :
    (a ++ ofEvent e).Accounts c (d.rewind c.checkpoint) := by
  obtain ⟨text, passes⟩ := accounts.passes
  rw [Cursor.rewind_checkpoint_of_data passes.data]
  refine ⟨⟨[], .refl c⟩, ?_, fun e' mem => ?_, fun e' mem => ?_⟩
  · have setback : e.setback = d.position - c.position := by rw [Event.setback, rewinds]
    have forward := passes.position_le
    have balance := accounts.balance
    rw [taken_append, setback_append, setback_ofEvent, setback]
    change c.position + (a.taken + 0) = _
    omega
  · intro reached start rewinds'
    rcases Array.mem_append.mp mem with mem | mem
    · exact accounts.within e' mem reached start rewinds'
    · obtain rfl : e' = e := by simpa [ofEvent] using mem
      cases rewinds.symm.trans rewinds'
      exact ⟨passes.position_le, passes.position_le_max⟩
  · rcases Array.mem_append.mp mem with mem | mem
    · exact accounts.ongoing e' mem
    · obtain rfl : e' = e := by simpa [ofEvent] using mem
      exact Event.message_of_rewind? rewinds

end Accounts

end Log

/-! ### Reports -/

namespace Report

/-- The log of a report accounts for the way from `c` to where the call left the cursor. -/
def Accounted (c : Cursor) (r : Report κ) : Prop :=
  r.log.Accounts c r.cursor

variable {c : Cursor} {r s : Report κ}

theorem Accounted.still (ending : Ending) (c : Cursor) :
    (Report.still ending c : Report κ).Accounted c :=
  Log.Accounts.empty c

/-- What was logged before a call accounts for the way to its start. -/
theorem Accounted.after (first : r.Accounted c) (second : s.Accounted r.cursor) :
    (s.after r.log).Accounted c :=
  Log.Accounts.trans first second

theorem Accounted.mapFragments (accounted : r.Accounted c) (f : List String → List String) :
    (r.mapFragments f).Accounted c := by
  rw [Accounted, log_mapFragments, cursor_mapFragments]
  exact accounted

/-- Going back is paid for by the event that tells of it. -/
theorem Accounted.rewoundTo (accounted : r.Accounted c) {e : Nat → Event κ}
    (rewinds : ∀ reached, (e reached).rewind? = some (reached, c.position)) :
    (r.rewoundTo c.checkpoint fun reached => .ofEvent (e reached)).Accounted c := by
  by_cases noMatch : r.ending = .noMatch
  · rw [rewoundTo_of_noMatch noMatch]
    exact Log.Accounts.rewind accounted (rewinds r.cursor.position)
  · rw [rewoundTo_of_ne_noMatch noMatch]
    exact accounted

end Report

namespace Matcher

/-- Every call accounts for its way, however it ends. -/
def Accounted (m : Matcher κ) : Prop :=
  ∀ c, (m c).Accounted c

/-! ### Each way of putting matchers together -/

theorem accounted_still (ending : Ending) : Accounted (Report.still ending : Matcher κ) :=
  fun c => .still ending c

/-- A single character: taken and passed, or neither. -/
theorem accounted_satisfying (accepts : Char → Bool) :
    Accounted (satisfying accepts : Matcher κ) := by
  intro c
  fun_cases satisfying accepts c with
  | case1 => exact .still .noMatch c
  | case2 x read => exact Log.Accounts.oneTaken read
  | case3 => exact .still .noMatch c

/-- A choice logs the work of the alternative that found nothing, too; that one has gone back. -/
theorem accounted_either {first second : Matcher κ} (ofFirst : Accounted first)
    (ofSecond : Accounted second) : Accounted (either first second) := by
  intro c
  rcases either_cases first second c with same | ⟨-, same⟩
  · rw [same]
    exact ofFirst c
  · rw [same]
    exact (ofFirst c).after (ofSecond _)

/-- Parts in a row log one way behind another. -/
theorem accounted_inOrder {parts : List (Matcher κ)} (ofParts : ∀ part ∈ parts, Accounted part) :
    Accounted (inOrder parts) := by
  induction parts with
  | nil => exact accounted_still _
  | cons part parts ih =>
      intro c
      obtain ⟨ofPart, ofRest⟩ := List.forall_mem_cons.mp ofParts
      rcases (part c).matched_or_not with ⟨fragments, matched⟩ | other
      · rw [inOrder_cons_of_matched matched]
        exact (ofPart c).after ((ih ofRest _).mapFragments _)
      · rw [inOrder_cons_of_not_matched other]
        exact ofPart c

/-- A sequence that finds nothing tells of its return. -/
theorem accounted_sequence {parts : List (Matcher κ)} (ofParts : ∀ part ∈ parts, Accounted part) :
    Accounted (sequence parts) := by
  intro c
  cases left : c.hasNext with
  | true =>
      rw [sequence_of_hasNext left]
      exact (accounted_inOrder ofParts c).rewoundTo fun _ => rfl
  | false =>
      rw [sequence_of_exhausted left]
      exact .still .noMatch c

/-- A grouping goes back without telling of it, and need not: its parser is back already. -/
theorem accounted_merge {whole : Matcher κ} (lawful : Lawful whole) (ofWhole : Accounted whole) :
    Accounted (merge whole) := by
  intro c
  rw [merge_of_lawful lawful]
  exact (ofWhole c).mapFragments _

/-- The attempts so far account for the way from `origin`, where the repetition began. -/
theorem accounted_attempts {part : Matcher κ} (ofPart : Accounted part) (count : Nat)
    {origin : Cursor} (left : Nat) (found : Array String) (log : Log κ) (c : Cursor)
    (accounts : log.Accounts origin c) :
    (attempts part count origin.checkpoint left found log c).Accounted origin := by
  fun_induction attempts part count origin.checkpoint left found log c with
  | case1 => exact accounts
  | case2 left found log c r joined fragments matched ih =>
      exact ih ((accounts.trans (.oneAttempt c)).trans (ofPart c))
  | case3 left found log c r joined noMatch =>
      exact ((accounts.trans (.oneAttempt c)).trans (ofPart c)).rewind rfl
  | case4 left found log c | case5 left found log c =>
      exact (accounts.trans (.oneAttempt c)).trans (ofPart c)

/-- A counted repetition tells of its return to the start of all its attempts. -/
theorem accounted_times {part : Matcher κ} (ofPart : Accounted part) (count : Nat) :
    Accounted (times part count) :=
  fun c => accounted_attempts ofPart count count #[] ∅ c (.empty c)

/-- The rounds so far account for the way from `origin`; the last one adds no way back. -/
theorem accounted_rounds {part : Matcher κ} (ofPart : Accounted part) {origin : Cursor}
    (budget matched : Nat) (found : Array String) (log : Log κ) (c : Cursor)
    (accounts : log.Accounts origin c) :
    (rounds part budget matched found log c).Accounted origin := by
  fun_induction rounds part budget matched found log c with
  | case1 budget matched found log c =>
      refine ((accounts.trans (.oneAttempt c)).trans (ofPart c)).note rfl ?_
      simp [Event.message]
  | case3 matched found log c r joined fragments ended advanced budget ih =>
      exact ih ((accounts.trans (.oneAttempt c)).trans (ofPart c))
  | case2 matched found log c | case4 budget matched found log c
  | case5 budget matched found log c | case6 budget matched found log c =>
      exact (accounts.trans (.oneAttempt c)).trans (ofPart c)

/-- An open repetition never goes back; its last round, if it matched, has not advanced. -/
theorem accounted_oneOrMore {part : Matcher κ} (ofPart : Accounted part) :
    Accounted (oneOrMore part) :=
  fun c => accounted_rounds ofPart c.remaining 0 #[] ∅ c (.empty c)

/-- A chain goes back over both of its halves at once, so its event covers the way of both. -/
theorem accounted_chain {first : Matcher κ} {next : List String → Option (Parser κ)}
    {call : Parser κ → Matcher κ} (ofFirst : Accounted first) (ofCall : ∀ p, Accounted (call p)) :
    Accounted (chain first next call) := by
  intro c
  rcases (first c).matched_or_not with ⟨fragments, matched⟩ | other
  · cases onward : next fragments with
    | none =>
        rw [chain_of_none matched onward]
        exact (ofFirst c).after (.still .aborted _)
    | some continuation =>
        rw [chain_of_some matched onward, Report.rewoundTo_after]
        exact ((ofFirst c).after (ofCall continuation _)).rewoundTo fun _ => rfl
  · rw [chain_of_not_matched other]
    exact ofFirst c

end Matcher

/-! ### Trees, continuations and runs -/

namespace Parser

open Languages Matcher

variable {g : Grammar κ} {depth : Nat} {p : Parser κ} {text : String} {outcome : Outcome}

/-- One level of a tree, by induction on the tree. -/
theorem matcher_accounted {call : Parser κ → Matcher κ} (lawful : ∀ p, Lawful (call p))
    (ofCall : ∀ p, Accounted (call p)) (p : Parser κ) : Accounted (matcher g call p) := by
  induction p with
  | literal expected => exact accounted_satisfying _
  | any => exact accounted_satisfying _
  | anyExcept excluded => exact accounted_satisfying _
  | either first second ofFirst ofSecond => exact accounted_either ofFirst ofSecond
  | sequence parts ofParts =>
      rw [matcher_sequence]
      exact accounted_sequence (List.forall_mem_map.mpr ofParts)
  | merge whole ofWhole => exact accounted_merge (matcher_lawful lawful whole) ofWhole
  | times part count ofPart => exact accounted_times ofPart count
  | oneOrMore part ofPart => exact accounted_oneOrMore ofPart
  | chain first label ofFirst => exact accounted_chain ofFirst ofCall
  | fail => exact accounted_still _

/-- What chains go on with accounts for itself, by induction on the depth. -/
theorem onward_accounted (g : Grammar κ) (depth : Nat) (p : Parser κ) :
    Accounted (onward g depth p) := by
  induction depth generalizing p with
  | zero => exact accounted_still _
  | succ depth ih => exact matcher_accounted (onward_lawful g depth) ih p

/-- Every parse accounts for its way, also one that is aborted or left unfinished. -/
theorem parse_accounted (g : Grammar κ) (depth : Nat) (p : Parser κ) :
    Accounted (p.parse g depth) :=
  matcher_accounted (onward_lawful g depth) (onward_accounted g depth) p

/-- The log of a run is that of its parse and, if the parse answers, the end of the run. -/
theorem log_run_of_answer {answer : Option (List String)}
    (answered : (p.parse g depth (.ofString text)).ending.answer? = some answer) :
    (p.run g depth text).log = (p.parse g depth (.ofString text)).log ++
      .ofEvent (.runFinished p text.length answer.isSome
        (p.parse g depth (.ofString text)).cursor.position) := by
  have length : (p.parse g depth (.ofString text)).cursor.length = text.length := by
    rw [Cursor.length_eq_of_data ((parse_lawful g depth p).data _), Cursor.length_ofString,
      String.length_toList]
  rcases Ending.answer?_eq_some_iff.mp answered with ⟨noMatch, rfl⟩ | ⟨fragments, matched, rfl⟩
  · simp only [run, noMatch, finish, length]
  · simp only [run, matched, finish, length]

/-- **The log accounts for every step backward.** In the log of a run that finished, the characters
matched are the ones consumed and the ones that rewinds gave back. Each rewind leads from a place
in the text back to an earlier one, or to where it was. The end of the run is the last event and
no other; it tells how much of the text lies before the remainder, which is nothing without a match.
And wherever a parser finds nothing, there is nothing to go back over: a grouping needs no event. -/
theorem log_accounts_for_run (g : Grammar κ) (depth : Nat) (p : Parser κ) :
    (∀ (text : String) (outcome : Outcome),
      (p.run g depth text).completion = .finished outcome →
      let log := (p.run g depth text).log
      ∃ earlier consumed,
        log.events.toList = earlier ++ [.runFinished p text.length outcome.isSuccess consumed] ∧
        (∀ e ∈ earlier, e.message ≠ "parser run finished") ∧
        log.taken = consumed + (log.events.toList.map Event.setback).sum ∧
        (∀ e ∈ log.events, ∀ reached start,
          ("from", .number reached) ∈ e.fields → ("to", .number start) ∈ e.fields →
          start ≤ reached ∧ reached ≤ text.length) ∧
        consumed + outcome.remainder.length = text.length ∧
        (outcome.isSuccess = false → consumed = 0)) ∧
    ∀ c : Cursor, (p.parse g depth c).ending = .noMatch →
      (p.parse g depth c).cursor.rewind c.checkpoint = (p.parse g depth c).cursor := by
  constructor
  · intro text outcome finished log
    have answered := answered_of_finished finished
    have accounts : (p.parse g depth (.ofString text)).log.Accounts _ _ :=
      parse_accounted g depth p (.ofString text)
    obtain ⟨passed, passes, restored⟩ := parse_answered answered
    have logged : log = _ := log_run_of_answer answered
    refine ⟨(p.parse g depth (.ofString text)).log.events.toList,
      (p.parse g depth (.ofString text)).cursor.position, ?_, ?_, ?_, ?_, ?_, ?_⟩
    · rw [logged, Log.events_append, Array.toList_append]
      rfl
    · exact fun e mem => accounts.ongoing e (Array.mem_toList_iff.mp mem)
    · have balance : 0 + _ = _ := accounts.balance
      change log.taken = _ + log.setback
      rw [logged, Log.taken_append, Log.setback_append, Log.setback_ofEvent]
      exact (Nat.zero_add _).symm.trans balance
    · intro e mem reached start left returned
      have rewinds := Event.rewind?_eq_some_iff.mpr ⟨left, returned⟩
      rw [logged, Log.events_append, Array.mem_append] at mem
      rcases mem with mem | mem
      · obtain ⟨back, inside⟩ := accounts.within e mem reached start rewinds
        rw [Cursor.length_ofString, String.length_toList] at inside
        exact ⟨back, Nat.le_trans inside (Nat.max_le.mpr ⟨Nat.zero_le _, Nat.le_refl _⟩)⟩
      · obtain rfl : e = _ := by simpa [Log.ofEvent] using mem
        cases rewinds
    · rw [remainder_of_finished finished, String.length_ofList]
      exact passes.position_add_length_rest
    · intro failed
      rw [restored (Option.not_isSome_iff_eq_none.mp (Bool.eq_false_iff.mp failed))]
      rfl
  · intro c noMatch
    rw [(parse_lawful g depth p).restores c noMatch, Cursor.rewind_checkpoint]

/-- An open group that is never closed: all that was taken is given back. -/
theorem group_log_accounts :
    (group.run groups 3 "(()").completion = .finished ⟨none, "(()"⟩ ∧
      (group.run groups 3 "(()").log.taken =
        ((group.run groups 3 "(()").log.events.toList.map Event.setback).sum ∧
      (∃ e ∈ (group.run groups 3 "(()").log.events,
        ("from", .number 3) ∈ e.fields ∧ ("to", .number 1) ∈ e.fields ∧
          1 ≤ 3 ∧ 3 ≤ "(()".length) ∧
      (group.parse groups 3 (.ofString "(()")).ending = .noMatch ∧
      (group.parse groups 3 (.ofString "(()")).cursor.rewind ⟨0⟩ =
        (group.parse groups 3 (.ofString "(()")).cursor := by
  obtain ⟨runs, idle⟩ := log_accounts_for_run groups 3 group
  have finished : (group.run groups 3 "(()").completion = .finished ⟨none, "(()"⟩ := by
    decide +kernel
  obtain ⟨earlier, consumed, -, -, taken, within, -, restored⟩ := runs _ _ finished
  rw [restored rfl, Nat.zero_add] at taken
  have noted : 1 < (group.run groups 3 "(()").log.events.size := by decide +kernel
  have left : ("from", .number 3) ∈ (group.run groups 3 "(()").log.events[1].fields := by
    decide +kernel +revert
  have returned : ("to", .number 1) ∈ (group.run groups 3 "(()").log.events[1].fields := by
    decide +kernel +revert
  have noMatch : (group.parse groups 3 (.ofString "(()")).ending = .noMatch := by decide +kernel
  exact ⟨finished, taken, ⟨_, Array.getElem_mem noted, left, returned,
    within _ (Array.getElem_mem noted) 3 1 left returned⟩, noMatch, idle _ noMatch⟩

end Parser

end Backtrack
