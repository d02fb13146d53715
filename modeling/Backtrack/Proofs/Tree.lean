import Backtrack.Parser

/-!
The tree of a parser: its parts, tests on all of them, and induction.

What a chain goes on with is no part of the tree, so a parser without chains is one whose tree has
no chain anywhere. Induction treats all parts of a sequence at once.
-/

namespace Backtrack.Parser

variable {κ : Type}

/-- The parsers that a parser is put together from, in order. -/
@[simp] def children : Parser κ → List (Parser κ)
  | either first second => [first, second]
  | sequence parts => parts
  | merge part | times part _ | oneOrMore part | chain part _ => [part]
  | literal _ | any | anyExcept _ | fail => []

/-- Induction on a tree; the parts of a sequence have the property all together. -/
@[elab_as_elim, induction_eliminator]
theorem tree_induction {motive : Parser κ → Prop}
    (literal : ∀ expected, motive (literal expected))
    (any : motive any)
    (anyExcept : ∀ excluded, motive (anyExcept excluded))
    (either : ∀ first second, motive first → motive second → motive (either first second))
    (sequence : ∀ parts, (∀ part ∈ parts, motive part) → motive (sequence parts))
    (merge : ∀ whole, motive whole → motive (merge whole))
    (times : ∀ part count, motive part → motive (times part count))
    (oneOrMore : ∀ part, motive part → motive (oneOrMore part))
    (chain : ∀ first label, motive first → motive (chain first label))
    (fail : motive fail) (p : Parser κ) : motive p := by
  refine @Parser.rec κ motive (fun parts => ∀ part ∈ parts, motive part)
    literal any anyExcept either sequence merge times oneOrMore chain fail ?_ ?_ p
  · intro part mem
    cases mem
  · intro head tail headHolds tailHolds part mem
    rcases List.mem_cons.mp mem with rfl | mem
    · exact headHolds
    · exact tailHolds part mem

/-! ### Tests on all parts -/

mutual

/-- Whether the tree and all its parts pass a test. -/
def every (test : Parser κ → Bool) : Parser κ → Bool
  | either first second => test (either first second) && (every test first && every test second)
  | sequence parts => test (sequence parts) && everyEach test parts
  | merge whole => test (merge whole) && every test whole
  | times part count => test (times part count) && every test part
  | oneOrMore part => test (oneOrMore part) && every test part
  | chain first label => test (chain first label) && every test first
  | literal expected => test (literal expected)
  | any => test any
  | anyExcept excluded => test (anyExcept excluded)
  | fail => test fail

/-- Whether several trees and all their parts pass a test. -/
def everyEach (test : Parser κ → Bool) : List (Parser κ) → Bool
  | [] => true
  | part :: parts => every test part && everyEach test parts

end

variable {test : Parser κ → Bool}

theorem everyEach_iff {parts : List (Parser κ)} :
    everyEach test parts = true ↔ ∀ part ∈ parts, every test part = true := by
  induction parts with
  | nil => simp [everyEach]
  | cons part parts ih => simp [everyEach, ih]

/-- A test passed throughout is passed by the tree and throughout its children. -/
theorem every_iff {p : Parser κ} :
    every test p = true ↔ test p = true ∧ ∀ q ∈ p.children, every test q = true := by
  cases p <;> simp [every, everyEach_iff]

/-- Whether a parser is a chain. -/
def isChain : Parser κ → Bool
  | chain .. => true
  | _ => false

/-- Whether a parser groups its match. -/
def isMerge : Parser κ → Bool
  | merge _ => true
  | _ => false

/-- No chain occurs in the tree. -/
abbrev ChainFree (p : Parser κ) : Prop :=
  p.every (!·.isChain) = true

/-- No grouping occurs in the tree. -/
abbrev MergeFree (p : Parser κ) : Prop :=
  p.every (!·.isMerge) = true

theorem every_of_child {p q : Parser κ} (passed : every test p = true) (mem : q ∈ p.children) :
    every test q = true :=
  (every_iff.mp passed).2 q mem

theorem not_chainFree_chain (first : Parser κ) (label : κ) : ¬ ChainFree (chain first label) := by
  intro free
  exact absurd (every_iff.mp free).1 (by simp [isChain])

theorem not_mergeFree_merge (whole : Parser κ) : ¬ MergeFree (merge whole) := by
  intro free
  exact absurd (every_iff.mp free).1 (by simp [isMerge])

end Backtrack.Parser
