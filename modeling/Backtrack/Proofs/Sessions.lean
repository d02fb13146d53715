import Backtrack.Proofs.Accounting
import Backtrack.Proofs.Continuing
import Backtrack.Session

/-!
Where a session takes its cursor.

A step leads the live cursor forward over some text, or sets it: to a place of its text, to the
start of another text, to a stored place, or to a stored cursor (`Moved`). Stored places are bare
positions, so going back to one can lead past the end of the text, and taking up a cursor that was
stored there can do so again. No other step can. If every place that a session goes back to was seen
on a text no longer than the live one (`isCareful`), its cursors stay inside their texts.

Past the end nothing is left to read. All steps work there and those that read stay where they are;
only asking for the unread text breaks off.
-/

namespace Backtrack

variable {κ : Type}

namespace Cursor

/-- The cursor is at a place of its text, or at the end of it. -/
def Inside (c : Cursor) : Prop :=
  c.position ≤ c.length

variable {c d : Cursor} {text : List Char}

theorem not_inside_iff : ¬ c.Inside ↔ c.length < c.position :=
  Nat.not_le

theorem inside_ofString (text : String) : (ofString text).Inside :=
  Nat.zero_le _

/-- Who moves forward over text stays inside it. -/
theorem Passes.inside (passes : c.Passes text d) (inside : c.Inside) : d.Inside := by
  rw [Inside, length_eq_of_data passes.data]
  exact Nat.le_trans passes.position_le_max (Nat.max_le.mpr ⟨inside, Nat.le_refl _⟩)

/-- Past the end there is no text to move over. -/
theorem Passes.eq_of_not_inside (passes : c.Passes text d) (outside : ¬ c.Inside) : d = c := by
  have past := not_inside_iff.mp outside
  exact passes.eq_of_exhausted (c.hasNext_eq_false_iff.mpr (Nat.le_of_lt past))

/-- A step forward passes one character, or none at the end. -/
theorem exists_passes_advance (c : Cursor) : ∃ text, c.Passes text c.advance := by
  cases read : c.peek? with
  | some x => exact ⟨[x], .advance read⟩
  | none =>
      have exhausted := hasNext_eq_false_iff c |>.mpr (peek?_eq_none_iff c |>.mp read)
      have still : c.advance = c := if_neg (Bool.eq_false_iff.mp exhausted)
      exact ⟨[], still.symm ▸ .refl c⟩

end Cursor

/-- Whether a step sets the live cursor, rather than moving it by what it reads. -/
def Command.jumps : Command κ → Bool
  | .seek _ | .load _ | .rewind _ | .restore _ => true
  | _ => false

namespace Session

open Languages

variable {g : Grammar κ} {depth : Nat} {s : Session} {command : Command κ} {d : Cursor}

/-! ### What a step does to the live cursor -/

/-- How a step can change the live cursor. Looking, advancing and parsing lead forward, and so does
staying. -/
inductive Moved (s : Session) : Command κ → Cursor → Prop where
  | forward {command : Command κ} {text : List Char} {d : Cursor} :
      s.cursor.Passes text d → Moved s command d
  | sought {position : Nat} : position ≤ s.cursor.length →
      Moved s (.seek position) { s.cursor with position }
  | loaded (text : String) : Moved s (.load text) (.ofString text)
  | rewound {name : String} {start : Checkpoint} : s.checkpoints.lookup name = some start →
      Moved s (.rewind name) (s.cursor.rewind start)
  | restored {name : String} {clone : Cursor} : s.saved.lookup name = some clone →
      Moved s (.restore name) clone

theorem Moved.stayed (s : Session) (command : Command κ) : Moved s command s.cursor :=
  .forward (.refl s.cursor)

/-- A parse leads forward even if it is aborted or left unfinished on the way. -/
theorem moved_parse (g : Grammar κ) (depth : Nat) (s : Session) (command : Command κ)
    (p : Parser κ) : Moved s command (p.parse g depth s.cursor).cursor := by
  obtain ⟨text, passes⟩ := (Parser.parse_accounted g depth p s.cursor).passes
  exact .forward passes

/-- All that a step can do to the live cursor, command by command. -/
theorem moved_step (g : Grammar κ) (depth : Nat) (s : Session) (command : Command κ) :
    Moved s command (s.step g depth command).2.cursor := by
  cases command with
  | peek =>
      rw [step]
      split
      · exact .stayed s _
      · exact .stayed s _
  | hasNext | isEmpty | length | checkpoint | save => exact .stayed s _
  | advance =>
      obtain ⟨text, passes⟩ := s.cursor.exists_passes_advance
      exact .forward passes
  | remainder =>
      rw [step]
      split
      · exact .stayed s _
      · exact .stayed s _
  | seek position =>
      rw [step, Cursor.seek]
      by_cases within : position ≤ s.cursor.length
      · rw [if_pos within]
        exact .sought within
      · rw [if_neg within]
        exact .stayed s _
  | rewind name =>
      rw [step]
      split
      · next start stored => exact .rewound stored
      · exact .stayed s _
  | compare first second =>
      rw [step]
      split
      · exact .stayed s _
      · exact .stayed s _
      · exact .stayed s _
  | load text => exact .loaded text
  | restore name =>
      rw [step]
      split
      · next clone stored => exact .restored stored
      · exact .stayed s _
  | parse p => exact moved_parse g depth s _ p
  | parseMerged p =>
      rw [step, Parser.parseMerged, Report.cursor_mapFragments]
      exact moved_parse g depth s _ p

/-- A step keeps the cursor inside, unless it goes back to a place past the end or takes up a cursor
that is there. -/
theorem Moved.inside (moved : Moved s command d) (inside : s.cursor.Inside)
    (rewinds : ∀ name start, command = .rewind name → s.checkpoints.lookup name = some start →
      start.position ≤ s.cursor.length)
    (restores : ∀ name clone, command = .restore name → s.saved.lookup name = some clone →
      clone.Inside) : d.Inside := by
  cases moved with
  | forward passes => exact passes.inside inside
  | sought within => exact within
  | loaded text => exact Cursor.inside_ofString text
  | rewound stored => exact rewinds _ _ rfl stored
  | restored stored => exact restores _ _ rfl stored

/-- What leads the cursor out of its text. -/
theorem Moved.outside (moved : Moved s command d) (inside : s.cursor.Inside)
    (outside : ¬ d.Inside) :
    (∃ name, command = .rewind name) ∨
      ∃ name clone, command = .restore name ∧ s.saved.lookup name = some clone ∧
        ¬ clone.Inside := by
  cases moved with
  | forward passes => exact absurd (passes.inside inside) outside
  | sought within => exact absurd within outside
  | loaded text => exact absurd (Cursor.inside_ofString text) outside
  | rewound stored => exact .inl ⟨_, rfl⟩
  | restored stored => exact .inr ⟨_, _, rfl, stored, outside⟩

/-- Past the end a cursor can only be set. -/
theorem Moved.stays (moved : Moved s command d) (outside : ¬ s.cursor.Inside)
    (reads : command.jumps = false) : d = s.cursor := by
  cases moved with
  | forward passes => exact passes.eq_of_not_inside outside
  | sought | loaded | rewound | restored => cases reads

/-! ### What a step stores -/

/-- One command stores places, and it stores the place reached. -/
theorem checkpoints_step (g : Grammar κ) (depth : Nat) (s : Session) (command : Command κ) :
    (s.step g depth command).2.checkpoints = match command with
      | .checkpoint name => (name, s.cursor.checkpoint) :: s.checkpoints
      | _ => s.checkpoints := by
  cases command with
  | peek | remainder | seek | rewind | compare | restore =>
      rw [step]
      split
      all_goals rfl
  | _ => rfl

/-- One command stores cursors, and it stores the live one. -/
theorem saved_step (g : Grammar κ) (depth : Nat) (s : Session) (command : Command κ) :
    (s.step g depth command).2.saved = match command with
      | .save name => (name, s.cursor) :: s.saved
      | _ => s.saved := by
  cases command with
  | peek | remainder | seek | rewind | compare | restore =>
      rw [step]
      split
      all_goals rfl
  | _ => rfl

/-- What is found under a name was stored under it. -/
theorem mem_of_lookup {α : Type} {stored : List (String × α)} {name : String} {entry : α}
    (found : stored.lookup name = some entry) : (name, entry) ∈ stored := by
  obtain ⟨before, after, rfl, -⟩ := List.lookup_eq_some_iff.mp found
  exact List.mem_append_right before List.mem_cons_self

/-! ### What a step answers -/

/-- There is a character to look at unless the end is reached. -/
theorem peek_faults_iff : (∃ error, (s.step g depth .peek).1 = .fault error) ↔
    s.cursor.length ≤ s.cursor.position := by
  rw [← Cursor.peek?_eq_none_iff, step, Cursor.peek]
  cases s.cursor.peek? <;> simp

/-- To ask for the unread text breaks the session off past the end, and only there. -/
theorem remainder_breaks_iff : (s.step g depth .remainder).1 = .broken ↔ ¬ s.cursor.Inside := by
  rw [Cursor.not_inside_iff, ← Cursor.remainder?_eq_none_iff, step]
  cases s.cursor.remainder? <;> simp

/-- Inside the text the unread text is what is answered. -/
theorem remainder_of_inside (inside : s.cursor.Inside) :
    (s.step g depth .remainder).1 = .text (String.ofList s.cursor.rest) := by
  have readable : s.cursor.remainder? = some (String.ofList s.cursor.rest) := if_pos inside
  rw [step, readable]

/-- A position that is refused leaves the session as it was. -/
theorem seek_of_fault {position : Nat} {error : Error}
    (fault : (s.step g depth (.seek position)).1 = .fault error) :
    (s.step g depth (.seek position)).2 = s := by
  revert fault
  rw [step]
  split
  · exact nofun
  · exact fun _ => rfl

/-- An answer to a parse breaks off where the parse was aborted. -/
theorem replyTo_broken_iff (ending : Ending) (reply : List String → Reply)
    (answers : ∀ fragments, reply fragments ≠ .broken) :
    replyTo ending reply = .broken ↔ ending = .aborted := by
  cases ending <;> simp [replyTo, answers]

/-- Where parsers go on from all they match, the only step that breaks off is to ask for the unread
text past the end. -/
theorem breaks_iff
    (continues : ∀ p, command = .parse p ∨ command = .parseMerged p → Parser.Continues g p) :
    (s.step g depth command).1 = .broken ↔ command = .remainder ∧ ¬ s.cursor.Inside := by
  cases command with
  | remainder => rw [remainder_breaks_iff, and_iff_right rfl]
  | parse p =>
      have unbroken := Parser.parse_unbroken (continues p (.inl rfl)) depth s.cursor
      exact iff_of_false (mt (replyTo_broken_iff _ .fragments fun _ => nofun).mp unbroken) nofun
  | parseMerged p =>
      have unbroken := Parser.parseMerged_unbroken (continues p (.inr rfl)) depth s.cursor
      have merges := replyTo_broken_iff ((p.parseMerged g depth s.cursor).ending)
        (fun found => .merged (String.join found)) fun _ => nofun
      exact iff_of_false (mt merges.mp unbroken) nofun
  | peek | seek | rewind | compare | restore =>
      refine iff_of_false ?_ nofun
      rw [step]
      split
      all_goals exact nofun
  | hasNext | isEmpty | length | advance | checkpoint | load | save =>
      exact iff_of_false nofun nofun

/-! ### Careful sessions -/

/-- The lengths of the texts on which the stored places were seen, after a step. -/
def note (seen : List (String × Nat)) (s : Session) : Command κ → List (String × Nat)
  | .checkpoint name => (name, s.cursor.length) :: seen
  | _ => seen

/-- Whether a step, if it goes back to a place, goes to one that was seen on a text no longer than
the live one. -/
def allows (seen : List (String × Nat)) (s : Session) : Command κ → Bool
  | .rewind name => (seen.lookup name).all (· ≤ s.cursor.length)
  | _ => true

/-- Whether all steps go back only to places that were seen on texts no longer than the live one. -/
def isCareful (g : Grammar κ) (depth : Nat) :
    List (String × Nat) → Session → List (Command κ) → Bool
  | _, _, [] => true
  | seen, s, command :: commands =>
    allows seen s command &&
      isCareful g depth (note seen s command) (s.step g depth command).2 commands

/-- All cursors are inside their texts, and all stored places inside the texts they were seen on. -/
structure Sound (seen : List (String × Nat)) (s : Session) : Prop where
  live : s.cursor.Inside
  clones : ∀ name clone, (name, clone) ∈ s.saved → clone.Inside
  places : ∀ name start, s.checkpoints.lookup name = some start →
    ∃ length, seen.lookup name = some length ∧ start.position ≤ length

variable {seen : List (String × Nat)}

/-- A session starts inside its text, with nothing stored. -/
theorem sound_ofString (text : String) : Sound [] (ofString text) :=
  ⟨Cursor.inside_ofString text, nofun, nofun⟩

/-- A step that is allowed keeps all cursors inside their texts, and all places inside the texts
they were seen on. -/
theorem sound_step (sound : Sound seen s) (allowed : allows seen s command = true) :
    Sound (note seen s command) (s.step g depth command).2 where
  live := by
    refine (moved_step g depth s command).inside sound.live ?_ ?_
    · rintro name start rfl stored
      obtain ⟨length, noted, within⟩ := sound.places name start stored
      have shorter : length ≤ s.cursor.length := by simpa [allows, noted] using allowed
      exact Nat.le_trans within shorter
    · rintro name clone rfl stored
      exact sound.clones name clone (mem_of_lookup stored)
  clones name clone mem := by
    rw [saved_step] at mem
    split at mem
    · rcases List.mem_cons.mp mem with same | mem
      · cases same
        exact sound.live
      · exact sound.clones name clone mem
    · exact sound.clones name clone mem
  places name start := by
    rw [checkpoints_step]
    cases command with
    | checkpoint here =>
        simp only [note, List.lookup_cons]
        split
        · rintro ⟨⟩
          exact ⟨_, rfl, sound.live⟩
        · exact sound.places name start
    | _ => exact sound.places name start

/-- So does a careful session, by induction on its steps. -/
theorem sound_run {commands : List (Command κ)} (sound : Sound seen s)
    (careful : isCareful g depth seen s commands = true) :
    ∃ seen', Sound seen' (s.run g depth commands) := by
  induction commands generalizing seen s with
  | nil => exact ⟨seen, sound⟩
  | cons command commands ih =>
      rw [isCareful, Bool.and_eq_true] at careful
      exact ih (sound_step sound careful.1) careful.2

/-- **Sessions and the end of the text.** In a careful session the live cursor and all stored ones
are inside their texts; looking fails just at the end, the unread text is there to be read, and a
failed jump changes nothing. In any session a step can lead out of the text only by going back to a
place or by taking up a cursor that is out of its own. There, reading and jumps that fail leave the
cursor where it is, no character is left, and nothing breaks off but the question for the unread
text, if parsers go on from all they match. -/
theorem sessions_and_the_end (g : Grammar κ) (depth : Nat) :
    (∀ (text : String) (commands : List (Command κ)),
      isCareful g depth [] (ofString text) commands = true →
      let s := (ofString text).run g depth commands
      s.cursor.position ≤ s.cursor.length ∧
        (∀ name clone, (name, clone) ∈ s.saved → clone.position ≤ clone.length) ∧
        ((∃ error, (s.step g depth .peek).1 = .fault error) ↔
          s.cursor.position = s.cursor.length) ∧
        (s.step g depth .remainder).1 = .text (String.ofList s.cursor.rest) ∧
        ∀ position error, (s.step g depth (.seek position)).1 = .fault error →
          (s.step g depth (.seek position)).2 = s) ∧
    (∀ (s : Session) (command : Command κ), s.cursor.position ≤ s.cursor.length →
      (s.step g depth command).2.cursor.length < (s.step g depth command).2.cursor.position →
      (∃ name, command = .rewind name) ∨
        ∃ name clone, command = .restore name ∧ s.saved.lookup name = some clone ∧
          clone.length < clone.position) ∧
    ∀ s : Session, s.cursor.length < s.cursor.position →
      (∀ command : Command κ, command.jumps = false →
        (s.step g depth command).2.cursor = s.cursor) ∧
      (∀ position error, (s.step g depth (.seek position)).1 = .fault error →
        (s.step g depth (.seek position)).2 = s) ∧
      (s.step g depth .hasNext).1 = .flag false ∧
      ∀ command : Command κ,
        (∀ p, command = .parse p ∨ command = .parseMerged p → Parser.Continues g p) →
        ((s.step g depth command).1 = .broken ↔ command = .remainder) := by
  refine ⟨?_, ?_, ?_⟩
  · intro text commands careful s
    obtain ⟨seen, sound⟩ := sound_run (sound_ofString text) careful
    have inside : s.cursor.position ≤ s.cursor.length := sound.live
    refine ⟨inside, sound.clones, ?_, remainder_of_inside sound.live, fun _ _ => seek_of_fault⟩
    rw [peek_faults_iff]
    exact ⟨Nat.le_antisymm inside, fun same => Nat.le_of_eq same.symm⟩
  · intro s command inside past
    have outside := Cursor.not_inside_iff.mpr past
    rcases (moved_step g depth s command).outside inside outside with rewinds | restores
    · exact .inl rewinds
    · obtain ⟨name, clone, restores, stored, outside⟩ := restores
      exact .inr ⟨name, clone, restores, stored, Cursor.not_inside_iff.mp outside⟩
  · intro s past
    have outside := Cursor.not_inside_iff.mpr past
    refine ⟨fun command reads => ?_, fun _ _ => seek_of_fault, ?_, fun command continues => ?_⟩
    · exact (moved_step g depth s command).stays outside reads
    · have exhausted := (Cursor.hasNext_eq_false_iff s.cursor).mpr (Nat.le_of_lt past)
      exact congrArg Reply.flag exhausted
    · rw [breaks_iff continues, and_iff_left outside]

/-- A group is parsed behind a bracket that was seen on a shorter text; a place far behind a text of
one bracket is gone back to, and worked on from there. -/
theorem groups_and_the_end :
    let steps : List (Command Unit) := [.advance, .checkpoint "inside", .save "all", .load "(())",
      .rewind "inside", .parse group]
    let before : Session := ⟨.ofString "(", [("far", ⟨3⟩)], []⟩
    let behind : Session := ⟨⟨#['('], 3⟩, [], []⟩
    isCareful groups 3 [] (ofString "(") steps = true ∧
      ((ofString "(").run groups 3 steps).cursor.position ≤
        ((ofString "(").run groups 3 steps).cursor.length ∧
      before.cursor.position ≤ before.cursor.length ∧
      (before.step groups 3 (.rewind "far")).2.cursor.length <
        (before.step groups 3 (.rewind "far")).2.cursor.position ∧
      (∃ name, (.rewind "far" : Command Unit) = .rewind name) ∧
      behind.cursor.length < behind.cursor.position ∧
      (behind.step groups 3 .advance).2.cursor = behind.cursor ∧
      (behind.step groups 3 (.seek 2)).2 = behind ∧
      Parser.Continues groups group ∧
      (behind.step groups 3 (.parse group)).1 ≠ .broken ∧
      (behind.step groups 3 .remainder).1 = .broken := by
  intro steps before behind
  obtain ⟨careful, leaves, past⟩ := sessions_and_the_end groups 3
  have allowed : isCareful groups 3 [] (ofString "(") steps = true := by decide +kernel
  have inside : before.cursor.position ≤ before.cursor.length := by decide
  have led : (before.step groups 3 (.rewind "far")).2.cursor.length <
      (before.step groups 3 (.rewind "far")).2.cursor.position := by decide +kernel
  have outside : behind.cursor.length < behind.cursor.position := by decide
  have continues : Parser.Continues groups group := by
    rintro q occurs first label rfl
    exact Parser.group_productive.continues first label occurs
  have parses : ∀ p, Command.parse group = .parse p ∨ Command.parse group = .parseMerged p →
      Parser.Continues groups p := by
    rintro p (same | same)
    · exact Command.parse.inj same ▸ continues
    · cases same
  have asks : ∀ p : Parser Unit, Command.remainder = .parse p ∨
      Command.remainder = .parseMerged p → Parser.Continues groups p := by
    rintro p (same | same)
    · cases same
    · cases same
  have rewinds : ∃ name, (.rewind "far" : Command Unit) = .rewind name := by
    rcases leaves before _ inside led with rewinds | ⟨_, _, ⟨⟩, _⟩
    exact rewinds
  obtain ⟨stays, fails, -, breaks⟩ := past behind outside
  exact ⟨allowed, (careful _ _ allowed).1, inside, led, rewinds, outside, stays _ rfl,
    fails 2 _ rfl, continues, mt (breaks _ parses).mp nofun, (breaks _ asks).mpr rfl⟩

end Session

end Backtrack
