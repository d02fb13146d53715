import Backtrack.Proofs.Law

/-!
What the fragments of a match have to do with the text it passed.

One proof serves three readings of "the fragments spell the text": their characters occur in it in
order, they make it up, or they are its characters one by one. A reading has to admit the empty
match and single characters, and to add up over matches in a row. Grouping asks more of it, and so
does a chain, which drops the fragments of its first part together with the text they came from.

An attempt that is undone passes no text, so whatever it matched cannot show up here.
-/

namespace Backtrack

variable {κ : Type}

/-- A relation between fragments and text that holds of single characters and adds up. -/
structure Spelling (R : List String → List Char → Prop) : Prop where
  nil : R [] []
  single : ∀ x, R [String.singleton x] [x]
  append : ∀ {found more s t}, R found s → R more t → R (found ++ more) (s ++ t)

/-- Fragments may be joined into one. -/
def Joins (R : List String → List Char → Prop) : Prop :=
  ∀ {fragments text}, R fragments text → R [String.join fragments] text

/-- Text in front may go without fragments. -/
def Drops (R : List String → List Char → Prop) : Prop :=
  ∀ {fragments text} (dropped), R fragments text → R fragments (dropped ++ text)

namespace Matcher

variable {R : List String → List Char → Prop}

/-- Every match passes a text, and its fragments are related to that text. -/
def Spells (R : List String → List Char → Prop) (m : Matcher κ) : Prop :=
  ∀ c fragments, (m c).ending = .matched fragments →
    ∃ text, c.Passes text (m c).cursor ∧ R fragments text

/-- Every match moves the cursor forward, over some text. -/
def Forward (m : Matcher κ) : Prop :=
  ∀ c fragments, (m c).ending = .matched fragments → ∃ text, c.Passes text (m c).cursor

/-- To say nothing of fragments and text is a reading too; what remains is that matches move
forward. -/
theorem anything_spelling : Spelling fun _ _ => True :=
  ⟨trivial, fun _ => trivial, fun _ _ => trivial⟩

/-- To move forward is to spell, if anything counts as spelling. -/
theorem spells_anything_iff {m : Matcher κ} : Spells (fun _ _ => True) m ↔ Forward m := by
  simp only [Spells, Forward, and_true]

/-! ### Each way of putting matchers together -/

/-- A character is a fragment of its own. -/
theorem spells_satisfying (spelling : Spelling R) (accepts : Char → Bool) :
    Spells R (satisfying accepts : Matcher κ) := by
  intro c fragments
  fun_cases satisfying accepts c with
  | case1 => rintro ⟨⟩
  | case2 x read accepted =>
      rintro ⟨⟩
      exact ⟨[x], .advance read, spelling.single x⟩
  | case3 => rintro ⟨⟩

/-- The choice that matches is the one that spells; the other has gone back. -/
theorem spells_either {first second : Matcher κ} (lawful : Lawful first)
    (ofFirst : Spells R first) (ofSecond : Spells R second) : Spells R (either first second) := by
  intro c fragments matched
  rcases either_cases first second c with same | ⟨noMatch, same⟩
  · rw [same] at matched ⊢
    exact ofFirst c fragments matched
  · rw [same, Report.ending_after, lawful.restores c noMatch] at matched
    rw [same, Report.cursor_after, lawful.restores c noMatch]
    exact ofSecond c fragments matched

/-- Parts in a row spell texts in a row. -/
theorem spells_inOrder (spelling : Spelling R) {parts : List (Matcher κ)}
    (ofParts : ∀ part ∈ parts, Spells R part) : Spells R (inOrder parts) := by
  induction parts with
  | nil =>
      rintro c _ ⟨⟩
      exact ⟨[], .refl c, spelling.nil⟩
  | cons part parts ih =>
      intro c fragments matched
      obtain ⟨found, more, here, there, rfl, reached⟩ := matched_inOrder_cons matched
      obtain ⟨ofPart, ofRest⟩ := List.forall_mem_cons.mp ofParts
      obtain ⟨s, passes, spelled⟩ := ofPart c found here
      obtain ⟨t, passesRest, spelledRest⟩ := ih ofRest (part c).cursor more there
      rw [reached]
      exact ⟨s ++ t, passes.trans passesRest, spelling.append spelled spelledRest⟩

theorem spells_sequence (spelling : Spelling R) {parts : List (Matcher κ)}
    (ofParts : ∀ part ∈ parts, Spells R part) : Spells R (sequence parts) := by
  intro c fragments matched
  have same := (matched_sequence matched).2
  rw [same] at matched ⊢
  exact spells_inOrder spelling ofParts c fragments matched

/-- A grouping spells what its parser does, where fragments may be joined. -/
theorem spells_merge (joins : Joins R) {whole : Matcher κ} (ofWhole : Spells R whole) :
    Spells R (merge whole) := by
  intro c fragments matched
  obtain ⟨found, here, rfl, reached⟩ := matched_merge matched
  obtain ⟨text, passes, spelled⟩ := ofWhole c found here
  rw [reached]
  exact ⟨text, passes, joins spelled⟩

/-- The attempts still to be made add fragments of their own to those found before. -/
theorem spells_attempts (spelling : Spelling R) {part : Matcher κ} (ofPart : Spells R part)
    (count : Nat) (start : Checkpoint) (left : Nat) (found : Array String) (log : Log κ)
    (c : Cursor) (fragments : List String)
    (matched : (attempts part count start left found log c).ending = .matched fragments) :
    ∃ more text, fragments = found.toList ++ more ∧
      c.Passes text (attempts part count start left found log c).cursor ∧ R more text := by
  fun_induction attempts part count start left found log c with
  | case1 found log c =>
      cases matched
      exact ⟨[], [], (List.append_nil _).symm, .refl c, spelling.nil⟩
  | case2 left found log c r joined here ended ih =>
      obtain ⟨s, passes, spelled⟩ := ofPart c here ended
      obtain ⟨more, t, rfl, passesRest, spelledRest⟩ := ih matched
      refine ⟨here ++ more, s ++ t, ?_, passes.trans passesRest,
        spelling.append spelled spelledRest⟩
      rw [Array.toList_appendList, List.append_assoc]
  | case3 => cases matched
  | case4 => cases matched
  | case5 => cases matched

/-- A counted repetition spells its attempts in a row. -/
theorem spells_times (spelling : Spelling R) {part : Matcher κ} (ofPart : Spells R part)
    (count : Nat) : Spells R (times part count) := by
  intro c fragments matched
  obtain ⟨more, text, rfl, passes, spelled⟩ :=
    spells_attempts spelling ofPart count c.checkpoint count #[] ∅ c fragments matched
  exact ⟨text, passes, spelled⟩

/-- The rounds still to come add fragments of their own; the last one adds none, and stays. -/
theorem spells_rounds (spelling : Spelling R) {part : Matcher κ} (lawful : Lawful part)
    (ofPart : Spells R part) (budget matched : Nat) (found : Array String) (log : Log κ)
    (c : Cursor) (fragments : List String)
    (ended : (rounds part budget matched found log c).ending = .matched fragments) :
    ∃ more text, fragments = found.toList ++ more ∧
      c.Passes text (rounds part budget matched found log c).cursor ∧ R more text := by
  have closed : ∀ {matched : Nat} {found : Array String},
      closing matched found = .matched fragments → fragments = found.toList ++ [] := by
    intro matched found
    unfold closing
    split
    · exact nofun
    · rintro ⟨⟩
      exact (List.append_nil _).symm
  fun_induction rounds part budget matched found log c with
  | case1 budget matched found log c r joined here ended' same =>
      have still : r.cursor = c :=
        Cursor.eq_of_data_of_position (lawful.data c) (congrArg Checkpoint.position same)
      exact ⟨[], [], closed ended, still.symm ▸ .refl c, spelling.nil⟩
  | case2 => cases ended
  | case3 matched found log c r joined here ended' advanced budget ih =>
      obtain ⟨s, passes, spelled⟩ := ofPart c here ended'
      obtain ⟨more, t, rfl, passesRest, spelledRest⟩ := ih ended
      refine ⟨here ++ more, s ++ t, ?_, passes.trans passesRest,
        spelling.append spelled spelledRest⟩
      rw [Array.toList_appendList, List.append_assoc]
  | case4 budget matched found log c r joined noMatch =>
      have still : r.cursor = c := lawful.restores c noMatch
      exact ⟨[], [], closed ended, still.symm ▸ .refl c, spelling.nil⟩
  | case5 => cases ended
  | case6 => cases ended

/-- An open repetition spells its rounds in a row. The last, which does not advance, adds nothing.
-/
theorem spells_oneOrMore (spelling : Spelling R) {part : Matcher κ} (lawful : Lawful part)
    (ofPart : Spells R part) : Spells R (oneOrMore part) := by
  intro c fragments matched
  obtain ⟨more, text, rfl, passes, spelled⟩ :=
    spells_rounds spelling lawful ofPart c.remaining 0 #[] ∅ c fragments matched
  exact ⟨text, passes, spelled⟩

/-- A chain spells both halves and keeps the fragments of the second, where fragments may be
dropped. -/
theorem spells_chain (drops : Drops R) {first : Matcher κ}
    {next : List String → Option (Parser κ)} {call : Parser κ → Matcher κ}
    (ofFirst : Spells R first) (ofCall : ∀ p, Spells R (call p)) :
    Spells R (chain first next call) := by
  intro c fragments matched
  obtain ⟨found, continuation, here, -, there, reached⟩ := matched_chain matched
  obtain ⟨dropped, passes, -⟩ := ofFirst c found here
  obtain ⟨text, passesRest, spelled⟩ := ofCall continuation _ fragments there
  rw [reached]
  exact ⟨dropped ++ text, passes.trans passesRest, drops dropped spelled⟩

end Matcher

/-! ### Trees and continuations -/

namespace Parser

open Matcher

variable {R : List String → List Char → Prop} {g : Grammar κ} {call : Parser κ → Matcher κ}

/-- A reading allows for the groupings and the chains that occur in a tree: it joins fragments where
the tree does, drops those that a chain drops, and reads what chains go on with. -/
structure Allows (R : List String → List Char → Prop) (call : Parser κ → Matcher κ)
    (p : Parser κ) : Prop where
  merges : MergeFree p ∨ Joins R
  chains : ChainFree p ∨ Drops R ∧ ∀ q, Spells R (call q)

/-- What a reading allows for in a tree it allows for in its parts. -/
theorem Allows.of_child {p q : Parser κ} (allows : Allows R call p) (mem : q ∈ p.children) :
    Allows R call q where
  merges := allows.merges.imp_left fun free => every_of_child free mem
  chains := allows.chains.imp_left fun free => every_of_child free mem

/-- One level of a tree, by induction on the tree. -/
theorem matcher_spells (spelling : Spelling R) (lawful : ∀ p, Lawful (call p)) {p : Parser κ}
    (allows : Allows R call p) : Spells R (matcher g call p) := by
  induction p with
  | literal expected => exact spells_satisfying spelling _
  | any => exact spells_satisfying spelling _
  | anyExcept excluded => exact spells_satisfying spelling _
  | either first second ofFirst ofSecond =>
      have inFirst := allows.of_child (q := first) (by simp)
      have inSecond := allows.of_child (q := second) (by simp)
      exact spells_either (matcher_lawful lawful first) (ofFirst inFirst) (ofSecond inSecond)
  | sequence parts ofParts =>
      rw [matcher_sequence]
      refine spells_sequence spelling (List.forall_mem_map.mpr fun part mem => ?_)
      exact ofParts part mem (allows.of_child mem)
  | merge whole ofWhole =>
      have joins : Joins R := allows.merges.resolve_left (not_mergeFree_merge whole)
      exact spells_merge joins (ofWhole (allows.of_child (by simp)))
  | times part count ofPart =>
      exact spells_times spelling (ofPart (allows.of_child (by simp))) count
  | oneOrMore part ofPart =>
      exact spells_oneOrMore spelling (matcher_lawful lawful part)
        (ofPart (allows.of_child (by simp)))
  | chain first label ofFirst =>
      obtain ⟨drops, ofCall⟩ := allows.chains.resolve_left (not_chainFree_chain first label)
      exact spells_chain drops (ofFirst (allows.of_child (by simp))) ofCall
  | fail => exact fun _ _ => nofun

/-- A reading that joins and drops fragments allows for everything that chains go on with. -/
theorem onward_spells (spelling : Spelling R) (joins : Joins R) (drops : Drops R)
    (g : Grammar κ) (depth : Nat) (p : Parser κ) : Spells R (onward g depth p) := by
  induction depth generalizing p with
  | zero => exact fun _ _ => nofun
  | succ depth ih =>
      exact matcher_spells spelling (onward_lawful g depth) ⟨Or.inr joins, Or.inr ⟨drops, ih⟩⟩

/-- A parser spells what it matches if the reading allows for the groupings and the chains that
occur in its tree; what a chain goes on with may hold anything. -/
theorem parse_spells (spelling : Spelling R) (g : Grammar κ) (depth : Nat) {p : Parser κ}
    (merges : MergeFree p ∨ Joins R) (chains : ChainFree p ∨ Joins R ∧ Drops R) :
    Spells R (p.parse g depth) := by
  refine matcher_spells spelling (onward_lawful g depth) ⟨merges, ?_⟩
  exact chains.imp_right fun ⟨joins, drops⟩ =>
    ⟨drops, onward_spells spelling joins drops g depth⟩

/-- Every match moves forward over some text. -/
theorem parse_forward (g : Grammar κ) (depth : Nat) (p : Parser κ) :
    Forward (p.parse g depth) := by
  rw [← spells_anything_iff]
  exact parse_spells anything_spelling g depth (Or.inr fun _ => trivial)
    (Or.inr ⟨fun _ => trivial, fun _ _ => trivial⟩)

end Parser

end Backtrack
