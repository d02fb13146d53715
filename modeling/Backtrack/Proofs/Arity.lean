import Backtrack.Proofs.Repetition

/-!
The shape of a parser tells how many fragments it gives.

A single character is one fragment, and so is whatever a grouping holds. Sequences add and counted
repetitions multiply, so their arity does not depend on the text. An open repetition has none; it
gives as many fragments as its row of matches has times the arity of its part, because the match
that ends the row is dropped.
-/

namespace Backtrack

variable {κ : Type}

namespace Matcher

/-- Every match has so many fragments. -/
def Counts (m : Matcher κ) (n : Nat) : Prop :=
  ∀ c fragments, (m c).ending = .matched fragments → fragments.length = n

/-- The cursor after calls of the matchers in order, whatever they find. -/
def stop (parts : List (Matcher κ)) (c : Cursor) : Cursor :=
  parts.foldl (fun d part => (part d).cursor) c

variable {part : Matcher κ} {parts : List (Matcher κ)} {a b : Nat}

theorem counts_satisfying (accepts : Char → Bool) : Counts (satisfying accepts : Matcher κ) 1 := by
  intro c fragments
  fun_cases satisfying accepts c with
  | case1 => simp
  | case2 x =>
      rintro ⟨⟩
      rfl
  | case3 => simp

theorem counts_either {first second : Matcher κ} (ofFirst : Counts first a)
    (ofSecond : Counts second a) : Counts (either first second) a := by
  intro c fragments matched
  rcases either_cases first second c with same | ⟨-, same⟩
  · exact ofFirst c fragments (same ▸ matched)
  · rw [same] at matched
    exact ofSecond _ fragments matched

/-- Fragments of parts in a row add up. -/
theorem counts_inOrder_cons (ofPart : Counts part a) (ofParts : Counts (inOrder parts) b) :
    Counts (inOrder (part :: parts)) (a + b) := by
  intro c fragments matched
  obtain ⟨found, more, here, there, rfl, -⟩ := matched_inOrder_cons matched
  rw [List.length_append, ofPart c found here, ofParts _ more there]

theorem counts_sequence (ofParts : Counts (inOrder parts) a) : Counts (sequence parts) a := by
  intro c fragments matched
  obtain ⟨-, same⟩ := matched_sequence matched
  exact ofParts c fragments (same ▸ matched)

/-- One fragment, also of a match that has none. -/
theorem counts_merge (whole : Matcher κ) : Counts (merge whole) 1 := by
  intro c fragments matched
  obtain ⟨found, -, rfl, -⟩ := matched_merge matched
  rfl

/-- So many attempts, each with as many fragments, behind those found before. -/
theorem length_attempts (ofPart : Counts part a) (count : Nat) (start : Checkpoint) (left : Nat)
    (found : Array String) (log : Log κ) (c : Cursor) {fragments : List String}
    (matched : (attempts part count start left found log c).ending = .matched fragments) :
    fragments.length = found.size + left * a := by
  fun_induction attempts part count start left found log c with
  | case1 found log c =>
      cases matched
      simp
  | case2 left found log c r joined here matchedHere ih =>
      have size : (found ++ here).size = found.size + here.length := by
        rw [← Array.length_toList, Array.toList_appendList, List.length_append, Array.length_toList]
      rw [ih matched, size, ofPart c here matchedHere, Nat.succ_mul]
      omega
  | case3 => cases matched
  | case4 => cases matched
  | case5 => cases matched

theorem counts_times (ofPart : Counts part a) (count : Nat) :
    Counts (times part count) (count * a) := by
  intro c fragments matched
  have total := length_attempts ofPart count c.checkpoint count #[] ∅ c matched
  rwa [Array.size_empty, Nat.zero_add] at total

/-- An open repetition counts the matches of its row, and not the one behind it. -/
theorem length_oneOrMore (lawful : Lawful part) (forward : Forward part)
    (ofPart : Counts part a) {c : Cursor} {fragments : List String}
    (matched : (oneOrMore part c).ending = .matched fragments) :
    ∃ k, 1 ≤ k ∧ Row part c k ∧ fragments.length = k * a := by
  obtain ⟨k, some, row, agrees, -⟩ := exists_row_of_matched lawful forward matched
  exact ⟨k, some, row, counts_times ofPart k c fragments (agrees.ending ▸ matched)⟩

/-- Where every matcher gives one fragment, each fragment is that of the matcher in its place, from
where the matchers before it stopped. -/
theorem matched_getElem? (singles : ∀ part ∈ parts, Counts part 1) {c : Cursor}
    {fragments : List String} (matched : (inOrder parts c).ending = .matched fragments) {i : Nat}
    (place : parts[i]? = some part) :
    ∃ text, fragments[i]? = some text ∧
      (part (stop (parts.take i) c)).ending = .matched [text] := by
  induction parts generalizing c fragments i with
  | nil => cases place
  | cons first parts ih =>
      obtain ⟨ofFirst, ofRest⟩ := List.forall_mem_cons.mp singles
      obtain ⟨found, more, here, there, rfl, -⟩ := matched_inOrder_cons matched
      obtain ⟨text, rfl⟩ := List.length_eq_one_iff.mp (ofFirst c found here)
      cases i with
      | zero =>
          cases place
          exact ⟨text, rfl, here⟩
      | succ i => exact ih ofRest there place

end Matcher

/-! ### Trees -/

namespace Parser

open Matcher

mutual

/-- How many fragments each match has, where the shape of the tree tells. -/
def arity : Parser κ → Option Nat
  | literal _ | any | anyExcept _ | merge _ => some 1
  | sequence parts => arityEach parts
  | times part count => (arity part).map (count * ·)
  | either first second => if arity first = arity second then arity first else none
  | oneOrMore _ | chain .. | fail => none

/-- How many fragments matches of all the trees have together. -/
def arityEach : List (Parser κ) → Option Nat
  | [] => some 0
  | part :: parts => (arity part).bind fun here => (arityEach parts).map (here + ·)

end

variable {g : Grammar κ} {depth : Nat}

theorem arityEach_cons_eq_some_iff {part : Parser κ} {parts : List (Parser κ)} {n : Nat} :
    arityEach (part :: parts) = some n ↔
      ∃ here more, arity part = some here ∧ arityEach parts = some more ∧ here + more = n := by
  simp [arityEach, Option.bind_eq_some_iff]

/-- Groupings in a row have one fragment each. -/
theorem arityEach_map_merge (parts : List (Parser κ)) :
    arityEach (parts.map merge) = some parts.length := by
  induction parts with
  | nil => rfl
  | cons part parts ih =>
      exact arityEach_cons_eq_some_iff.mpr ⟨1, _, rfl, ih, Nat.add_comm ..⟩

theorem counts_inOrder {f : Parser κ → Matcher κ} {parts : List (Parser κ)}
    (ofParts : ∀ part ∈ parts, ∀ n, arity part = some n → Counts (f part) n) {n : Nat}
    (counted : arityEach parts = some n) : Counts (inOrder (parts.map f)) n := by
  induction parts generalizing n with
  | nil =>
      cases counted
      rintro c fragments ⟨⟩
      rfl
  | cons part parts ih =>
      obtain ⟨ofPart, ofRest⟩ := List.forall_mem_cons.mp ofParts
      obtain ⟨here, more, ofHere, ofMore, rfl⟩ := arityEach_cons_eq_some_iff.mp counted
      exact counts_inOrder_cons (ofPart here ofHere) (ih ofRest ofMore)

/-- A tree whose fragments can be counted has so many in every match. -/
theorem parse_counts (g : Grammar κ) (depth : Nat) {p : Parser κ} {n : Nat}
    (counted : p.arity = some n) : Counts (p.parse g depth) n := by
  induction p generalizing n with
  | literal expected =>
      cases counted
      exact counts_satisfying _
  | any =>
      cases counted
      exact counts_satisfying _
  | anyExcept excluded =>
      cases counted
      exact counts_satisfying _
  | either first second ofFirst ofSecond =>
      rw [arity] at counted
      split at counted
      · next same => exact counts_either (ofFirst counted) (ofSecond (same ▸ counted))
      · cases counted
  | sequence parts ofParts =>
      rw [parse_sequence]
      exact counts_sequence (counts_inOrder (fun part mem n => ofParts part mem) counted)
  | merge whole =>
      cases counted
      exact counts_merge _
  | times part count ofPart =>
      obtain ⟨each, ofEach, rfl⟩ := Option.map_eq_some_iff.mp counted
      exact counts_times (ofPart ofEach) count
  | oneOrMore part => cases counted
  | chain first label => cases counted
  | fail => cases counted

/-- In a sequence of groupings each part is parsed and joined by itself. -/
theorem parse_sequence_merge (g : Grammar κ) (depth : Nat) (parts : List (Parser κ)) :
    (sequence (parts.map merge)).parse g depth =
      Matcher.sequence (parts.map (parseMerged g depth)) := by
  rw [parse_sequence, List.map_map]
  exact congrArg Matcher.sequence
    (List.map_congr_left fun part _ => parse_merge_eq_parseMerged g depth part)

theorem counts_parseMerged (g : Grammar κ) (depth : Nat) (p : Parser κ) :
    Counts (p.parseMerged g depth) 1 :=
  parse_merge_eq_parseMerged g depth p ▸ counts_merge _

/-- **The shape of a parser tells the number of fragments.** Where the tree has an arity, every
match has just as many fragments. An open repetition of it has that many for each match of its row.
A sequence of groupings has one fragment for each part: the text that the part gives when it is
parsed by itself, from where the parts before it stopped. -/
theorem fragments_by_arity (g : Grammar κ) (depth : Nat) (c : Cursor)
    (fragments : List String) :
    (∀ (p : Parser κ) (n : Nat), p.arity = some n →
      ((p.parse g depth c).ending = .matched fragments → fragments.length = n) ∧
      (((oneOrMore p).parse g depth c).ending = .matched fragments →
        ∃ k, 1 ≤ k ∧ Row (p.parse g depth) c k ∧ fragments.length = k * n)) ∧
    ∀ parts : List (Parser κ),
      ((sequence (parts.map merge)).parse g depth c).ending = .matched fragments →
      fragments.length = parts.length ∧
        ∀ (i : Nat) (part : Parser κ), parts[i]? = some part →
          ∃ text, fragments[i]? = some text ∧ (part.parseMerged g depth
            (stop ((parts.take i).map (parseMerged g depth)) c)).ending = .matched [text] := by
  refine ⟨fun p n counted => ⟨?_, ?_⟩, fun parts matched => ⟨?_, fun i part place => ?_⟩⟩
  · exact parse_counts g depth counted c fragments
  · exact length_oneOrMore (parse_lawful g depth p) (parse_forward g depth p)
      (parse_counts g depth counted)
  · have counted : (sequence (parts.map merge)).arity = some parts.length :=
      arityEach_map_merge parts
    exact parse_counts g depth counted c fragments matched
  · rw [parse_sequence_merge] at matched
    obtain ⟨-, inOrder⟩ := matched_sequence matched
    rw [inOrder] at matched
    rw [List.map_take]
    refine matched_getElem? (List.forall_mem_map.mpr fun part _ => ?_) matched ?_
    · exact counts_parseMerged g depth part
    · rw [List.getElem?_map, place, Option.map_some]

/-- Letters grouped, and the letter behind them or an empty grouping. -/
theorem letters_counted :
    let pair : Parser Empty := sequence
      [merge (oneOrMore (literal 'a')), either (literal 'b') (merge (times any 0))]
    pair.arity = some 2 ∧
      (pair.parse .chainFree 0 (.ofString "aac")).ending = .matched ["aa", ""] ∧
      ["aa", ""].length = 2 ∧
      ((oneOrMore pair).parse .chainFree 0 (.ofString "aabac")).ending =
        .matched ["aa", "b", "a", ""] ∧
      (∃ k, Row (pair.parse .chainFree 0) (.ofString "aabac") k ∧ 4 = k * 2) ∧
      ((sequence [merge (oneOrMore (literal 'a')), merge (times any 0)]).parse .chainFree 0
        (.ofString "aac")).ending = .matched ["aa", ""] ∧
      ((times any 0 : Parser Empty).parseMerged .chainFree 0
        ((oneOrMore (literal 'a')).parseMerged .chainFree 0 (.ofString "aac")).cursor).ending =
          .matched [""] := by
  intro pair
  have arity : pair.arity = some 2 := by decide +kernel
  have once : (pair.parse .chainFree 0 (.ofString "aac")).ending = .matched ["aa", ""] := by
    decide +kernel
  have twice : ((oneOrMore pair).parse .chainFree 0 (.ofString "aabac")).ending =
      .matched ["aa", "b", "a", ""] := by decide +kernel
  have groups : ((sequence [merge (oneOrMore (literal 'a')), merge (times any 0)]).parse
      .chainFree 0 (.ofString "aac")).ending = .matched ["aa", ""] := by decide +kernel
  obtain ⟨shaped, grouped⟩ := fragments_by_arity .chainFree 0 (.ofString "aac") ["aa", ""]
  obtain ⟨repeated, -⟩ :=
    fragments_by_arity .chainFree 0 (.ofString "aabac") ["aa", "b", "a", ""]
  obtain ⟨k, -, row, total⟩ := (repeated pair 2 arity).2 twice
  obtain ⟨text, same, alone⟩ :=
    (grouped [oneOrMore (literal 'a'), times any 0] groups).2 1 (times any 0) rfl
  cases same
  exact ⟨arity, once, (shaped pair 2 arity).1 once, twice, ⟨k, row, total⟩, groups, alone⟩

end Parser

end Backtrack
