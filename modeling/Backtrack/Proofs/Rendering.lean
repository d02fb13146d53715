import Backtrack.Parser.Printer
import Backtrack.Proofs.Tree
import Backtrack.Text.Numeral

/-!
A parser is told from what is written of it.

The written form tells where it ends: two parsers with the same text, whatever may follow the
written forms in it, have the same tree, and the same text follows. Of the tree only the labels are
lost, for which all chains show one placeholder. Nothing depends on which characters are written by
their code points. It is enough that a quoted character ends at its second quote, a call at its
bracket, and an argument at a comma or a bracket.
-/

namespace Backtrack

namespace Text

variable {c d : Char} {text text' s t : List Char}

/-! ### Quoted characters -/

/-- The characters with an escape of their own, and the letters that stand for them. -/
def letters : List (Char × Char) :=
  [('\x00', '0'), ('\t', 't'), ('\r', 'r'), ('\n', 'n'), ('\'', '\''), ('\\', '\\')]

/-- The ways to write a character between quotes. -/
inductive Escapes : Char → List Char → Prop where
  | letter {c x : Char} : (c, x) ∈ letters → Escapes c ['\\', x]
  | code (c : Char) : Escapes c (codeEscape c)
  | plain {c : Char} : c ≠ '\\' → c ≠ '\'' → Escapes c [c]

/-- A character is written in one of the ways there are. -/
theorem escapes_escape (c : Char) : Escapes c (escape c) := by
  unfold escape
  split
  · exact .letter (by decide)
  · exact .letter (by decide)
  · exact .letter (by decide)
  · exact .letter (by decide)
  · exact .letter (by decide)
  · exact .letter (by decide)
  · next noQuote noBackslash =>
    split
    · exact .code c
    · exact .plain noBackslash noQuote

/-- A letter stands for one character, and none is the one that begins a code point. -/
theorem letters_inj : ∀ p ∈ letters, p.2 ≠ 'u' ∧ ∀ q ∈ letters, p.2 = q.2 → p.1 = q.1 := by
  decide

/-- What is written of a character ends at the quote behind it. -/
theorem Escapes.inj (first : Escapes c text) (second : Escapes d text')
    (same : text ++ '\'' :: s = text' ++ '\'' :: t) : c = d ∧ s = t := by
  cases first with
  | letter mem =>
      have ofFirst := letters_inj _ mem
      cases second with
      | letter mem' =>
          simp only [List.cons_append, List.nil_append, List.cons.injEq, true_and] at same
          exact ⟨ofFirst.2 _ mem' same.1, same.2⟩
      | code =>
          simp only [codeEscape, List.cons_append, List.nil_append, List.cons.injEq] at same
          exact absurd same.2.1 ofFirst.1
      | plain backslash => exact absurd (List.cons.inj same).1.symm backslash
  | code =>
      cases second with
      | letter mem' =>
          simp only [codeEscape, List.cons_append, List.nil_append, List.cons.injEq] at same
          exact absurd same.2.1.symm (letters_inj _ mem').1
      | code =>
          simp only [codeEscape, List.cons_append, List.append_assoc, List.nil_append,
            List.cons.injEq, true_and] at same
          have apart := toDigits_append_cons_inj (by decide) (by decide)
            (fun _ => Nat.digitChar_ne _ (by decide)) same
          exact ⟨Char.toNat_inj.mp apart.1, (List.cons.inj apart.2).2⟩
      | plain backslash => exact absurd (List.cons.inj same).1.symm backslash
  | plain backslash =>
      cases second with
      | letter => exact absurd (List.cons.inj same).1 backslash
      | code => exact absurd (List.cons.inj same).1 backslash
      | plain => exact ⟨(List.cons.inj same).1, (List.cons.inj (List.cons.inj same).2).2⟩

/-- A quoted character is determined, whatever follows. -/
theorem quoted_append_inj (same : (quoted c).toList ++ s = (quoted d).toList ++ t) :
    c = d ∧ s = t := by
  rw [toList_quoted, toList_quoted] at same
  simp only [List.cons_append, List.append_assoc, List.cons.injEq, true_and] at same
  exact (escapes_escape c).inj (escapes_escape d) same

end Text

namespace Parser

open Text

variable {κ κ' : Type} {p : Parser κ} {q : Parser κ'} {s t : List Char}

/-! ### Trees without labels -/

mutual

/-- The tree with its labels changed by `f`. -/
def relabel (f : κ → κ') : Parser κ → Parser κ'
  | literal expected => literal expected
  | any => any
  | anyExcept excluded => anyExcept excluded
  | either first second => either (relabel f first) (relabel f second)
  | sequence parts => sequence (relabelEach f parts)
  | merge whole => merge (relabel f whole)
  | times part count => times (relabel f part) count
  | oneOrMore part => oneOrMore (relabel f part)
  | chain first label => chain (relabel f first) (f label)
  | fail => fail

/-- Several trees with their labels changed by `f`. -/
def relabelEach (f : κ → κ') : List (Parser κ) → List (Parser κ')
  | [] => []
  | part :: parts => relabel f part :: relabelEach f parts

end

theorem relabelEach_eq_map (f : κ → κ') (parts : List (Parser κ)) :
    relabelEach f parts = parts.map (relabel f) := by
  induction parts with
  | nil => rfl
  | cons part parts ih => rw [relabelEach, ih, List.map_cons]

/-- The tree of a parser, with nothing said of what its chains go on with. -/
def skeleton (p : Parser κ) : Parser Unit :=
  p.relabel fun _ => ()

/-- The skeleton of a sequence, part by part. -/
theorem skeleton_sequence (parts : List (Parser κ)) :
    (sequence parts).skeleton = sequence (parts.map skeleton) := by
  rw [skeleton, relabel, relabelEach_eq_map]
  rfl

/-- Labels are not written. -/
theorem written_skeleton (p : Parser κ) : p.skeleton.written = p.written := by
  induction p with
  | literal expected => rfl
  | any => rfl
  | anyExcept excluded => rfl
  | either first second ofFirst ofSecond =>
      rw [written, ← ofFirst, ← ofSecond]
      rfl
  | sequence parts ofParts =>
      rw [skeleton_sequence, written, written, writtenEach_eq_map, writtenEach_eq_map, List.map_map]
      exact congrArg _ (List.map_congr_left ofParts)
  | merge whole ofWhole =>
      rw [written, ← ofWhole]
      rfl
  | times part count ofPart =>
      rw [written, ← ofPart]
      rfl
  | oneOrMore part ofPart =>
      rw [written, ← ofPart]
      rfl
  | chain first label ofFirst =>
      rw [written, ← ofFirst]
      rfl
  | fail => rfl

/-! ### Calls -/

/-- The name under which a node is written. -/
def operator : Parser κ → String
  | literal _ => "literal"
  | any => "any"
  | anyExcept _ => "any_except"
  | either .. => "or"
  | sequence _ => "and"
  | merge _ => "merge"
  | times .. => "repeat"
  | oneOrMore _ => "repeat_while_successful"
  | chain .. => "chain"
  | fail => "fail"

/-- The arguments with which a node is written. -/
def arguments : Parser κ → List (List Char)
  | literal c | anyExcept c => [(quoted c).toList]
  | any | fail => []
  | either first second => [first.written, second.written]
  | sequence parts => parts.map written
  | merge part | oneOrMore part => [part.written]
  | times part count => [part.written, Nat.toDigits 10 count]
  | chain first _ => [first.written, continuationText]

/-- Arguments with commas between them, and the bracket behind them. -/
def closed (arguments : List (List Char)) (s : List Char) : List Char :=
  [',', ' '].intercalate arguments ++ ')' :: s

/-- What stands behind an argument: the bracket, or a comma and the arguments that are left. -/
def closing : List (List Char) → List Char → List Char
  | [], s => ')' :: s
  | text :: texts, s => ',' :: ' ' :: (text ++ closing texts s)

/-- Every tree is written as a call, with the subtrees and texts below it as arguments. -/
theorem written_eq_writtenCall (p : Parser κ) : p.written = writtenCall p.operator p.arguments := by
  cases p with
  | sequence parts => rw [written, writtenEach_eq_map, operator, arguments]
  | _ => rw [written, operator, arguments]

/-- No operator holds a bracket, so the first bracket of a call ends its operator. -/
theorem bracket_notMem_operator (p : Parser κ) : '(' ∉ p.operator.toList := by
  cases p <;> simp [operator]

/-- A call is told by its name and its arguments. -/
theorem written_append_inj (same : p.written ++ s = q.written ++ t) :
    p.operator = q.operator ∧ closed p.arguments s = closed q.arguments t := by
  rw [written_eq_writtenCall, written_eq_writtenCall, writtenCall, writtenCall] at same
  simp only [List.append_assoc, List.cons_append, List.nil_append] at same
  have apart := append_cons_inj (bracket_notMem_operator p) (bracket_notMem_operator q) same
  exact ⟨String.toList_inj.mp apart.1, apart.2⟩

theorem closed_cons (text : List Char) (texts : List (List Char)) (s : List Char) :
    closed (text :: texts) s = text ++ closing texts s := by
  induction texts generalizing text with
  | nil => rw [closed, List.intercalate_singleton, closing]
  | cons text' texts ih =>
      have onward := ih text'
      rw [closed] at onward
      rw [closed, List.intercalate_cons_cons, List.append_assoc, onward, closing,
        List.append_assoc, List.cons_append, List.cons_append, List.nil_append]

/-- No written tree begins with a closing bracket, so one more argument can be told from the end of
the list. -/
theorem head?_written_append_ne (p : Parser κ) (s : List Char) :
    (p.written ++ s).head? ≠ some ')' := by
  rw [written_eq_writtenCall]
  cases p <;> simp [operator, writtenCall]

/-! ### Trees -/

/-- What is written of `p` is written of no parser with another tree, whatever follows. -/
def Legible (κ' : Type) (p : Parser κ) : Prop :=
  ∀ (q : Parser κ') (s t : List Char), p.written ++ s = q.written ++ t →
    p.skeleton = q.skeleton ∧ s = t

section Arguments

variable {parts : List (Parser κ)} {parts' : List (Parser κ')}

/-- Lists of arguments that read alike hold the same trees, behind the first argument. -/
theorem closing_inj (legible : ∀ part ∈ parts, Legible κ' part)
    (same : closing (parts.map written) s = closing (parts'.map written) t) :
    parts.map skeleton = parts'.map skeleton ∧ s = t := by
  induction parts generalizing parts' with
  | nil =>
      cases parts' with
      | nil => exact ⟨rfl, (List.cons.inj same).2⟩
      | cons part' parts' => exact absurd (List.cons.inj same).1 (by decide)
  | cons part parts ih =>
      cases parts' with
      | nil => exact absurd (List.cons.inj same).1 (by decide)
      | cons part' parts' =>
          obtain ⟨ofPart, ofParts⟩ := List.forall_mem_cons.mp legible
          obtain ⟨tree, behind⟩ := ofPart part' _ _ (List.cons.inj (List.cons.inj same).2).2
          obtain ⟨trees, after⟩ := ih ofParts behind
          exact ⟨by rw [List.map_cons, tree, trees, List.map_cons], after⟩

/-- A list of parsers is told by what is written of them, as its bracket tells where it ends. -/
theorem closed_inj (parts : List (Parser κ)) (parts' : List (Parser κ'))
    (legible : ∀ part ∈ parts, Legible κ' part)
    (same : closed (parts.map written) s = closed (parts'.map written) t) :
    parts.map skeleton = parts'.map skeleton ∧ s = t := by
  cases parts with
  | nil =>
      cases parts' with
      | nil => exact ⟨rfl, (List.cons.inj same).2⟩
      | cons part' parts' =>
          rw [List.map_cons, closed_cons] at same
          exact absurd (congrArg List.head? same).symm (head?_written_append_ne part' _)
  | cons part parts =>
      rw [List.map_cons, closed_cons] at same
      cases parts' with
      | nil => exact absurd (congrArg List.head? same) (head?_written_append_ne part _)
      | cons part' parts' =>
          rw [List.map_cons, closed_cons] at same
          obtain ⟨ofPart, ofParts⟩ := List.forall_mem_cons.mp legible
          obtain ⟨tree, behind⟩ := ofPart part' _ _ same
          obtain ⟨trees, after⟩ := closing_inj ofParts behind
          exact ⟨by rw [List.map_cons, tree, trees, List.map_cons], after⟩

end Arguments

/-- A parser is legible if its children are. -/
theorem legible_of_children (legible : ∀ child ∈ p.children, Legible κ' child) :
    Legible κ' p := by
  intro q s t same
  obtain ⟨names, inside⟩ := written_append_inj same
  cases p with
  | literal c =>
      cases q with
      | literal d =>
          rw [arguments, arguments, closed_cons, closed_cons] at inside
          obtain ⟨rfl, behind⟩ := quoted_append_inj inside
          exact ⟨rfl, (List.cons.inj behind).2⟩
      | _ => simp [operator] at names
  | any =>
      cases q with
      | any => exact ⟨rfl, (List.cons.inj inside).2⟩
      | _ => simp [operator] at names
  | anyExcept c =>
      cases q with
      | anyExcept d =>
          rw [arguments, arguments, closed_cons, closed_cons] at inside
          obtain ⟨rfl, behind⟩ := quoted_append_inj inside
          exact ⟨rfl, (List.cons.inj behind).2⟩
      | _ => simp [operator] at names
  | either first second =>
      cases q with
      | either first' second' =>
          obtain ⟨trees, after⟩ := closed_inj [first, second] [first', second'] legible inside
          obtain ⟨ofFirst, ofRest⟩ := List.cons.inj trees
          have tree : either first.skeleton second.skeleton =
              either first'.skeleton second'.skeleton := by
            rw [ofFirst, List.singleton_inj.mp ofRest]
          exact ⟨tree, after⟩
      | _ => simp [operator] at names
  | sequence parts =>
      cases q with
      | sequence parts' =>
          obtain ⟨trees, after⟩ := closed_inj parts parts' legible inside
          exact ⟨by rw [skeleton_sequence, trees, skeleton_sequence], after⟩
      | _ => simp [operator] at names
  | merge whole =>
      cases q with
      | merge whole' =>
          obtain ⟨trees, after⟩ := closed_inj [whole] [whole'] legible inside
          exact ⟨congrArg merge (List.singleton_inj.mp trees), after⟩
      | _ => simp [operator] at names
  | times part count =>
      cases q with
      | times part' count' =>
          rw [arguments, arguments, closed_cons, closed_cons] at inside
          obtain ⟨tree, behind⟩ := legible part (List.mem_singleton_self part) part' _ _ inside
          simp only [closing, List.cons.injEq, true_and] at behind
          obtain ⟨rfl, after⟩ := toDigits_append_cons_inj (by decide) (by decide)
            (fun _ => Nat.digitChar_ne _ (by decide)) behind
          exact ⟨congrArg (times · count) tree, after⟩
      | _ => simp [operator] at names
  | oneOrMore part =>
      cases q with
      | oneOrMore part' =>
          obtain ⟨trees, after⟩ := closed_inj [part] [part'] legible inside
          exact ⟨congrArg oneOrMore (List.singleton_inj.mp trees), after⟩
      | _ => simp [operator] at names
  | chain first label =>
      cases q with
      | chain first' label' =>
          rw [arguments, arguments, closed_cons, closed_cons] at inside
          obtain ⟨tree, behind⟩ := legible first (List.mem_singleton_self first) first' _ _ inside
          simp only [closing, List.cons.injEq, true_and, List.append_cancel_left_eq] at behind
          exact ⟨congrArg (chain · ()) tree, behind⟩
      | _ => simp [operator] at names
  | fail =>
      cases q with
      | fail => exact ⟨rfl, (List.cons.inj inside).2⟩
      | _ => simp [operator] at names

/-- Every parser is legible. -/
theorem legible (p : Parser κ) : Legible κ' p := by
  induction p with
  | literal expected => exact legible_of_children nofun
  | any => exact legible_of_children nofun
  | anyExcept excluded => exact legible_of_children nofun
  | either first second ofFirst ofSecond =>
      apply legible_of_children
      exact List.forall_mem_cons.mpr ⟨ofFirst, List.forall_mem_singleton.mpr ofSecond⟩
  | sequence parts ofParts => exact legible_of_children ofParts
  | merge whole ofWhole => exact legible_of_children (List.forall_mem_singleton.mpr ofWhole)
  | times part count ofPart => exact legible_of_children (List.forall_mem_singleton.mpr ofPart)
  | oneOrMore part ofPart => exact legible_of_children (List.forall_mem_singleton.mpr ofPart)
  | chain first label ofFirst => exact legible_of_children (List.forall_mem_singleton.mpr ofFirst)
  | fail => exact legible_of_children nofun

/-- **What is written of a parser tells its tree.** Two parsers have the same text exactly if they
have the same tree, up to what their chains go on with. The text of one is never the beginning of
another one's either: where it is followed by more, both the tree and what follows are known. -/
theorem render_tells_tree (p : Parser κ) (q : Parser κ') :
    (p.render = q.render ↔ p.skeleton = q.skeleton) ∧
      ∀ s t : String, p.render ++ s = q.render ++ t → p.skeleton = q.skeleton ∧ s = t := by
  constructor
  · constructor
    · intro same
      have texts := congrArg String.toList same
      rw [toList_render, toList_render] at texts
      exact (legible p q [] [] (congrArg (· ++ []) texts)).1
    · intro same
      rw [render, render, ← written_skeleton p, ← written_skeleton q, same]
  · intro s t same
    have texts := congrArg String.toList same
    rw [String.toList_append, String.toList_append, toList_render, toList_render] at texts
    obtain ⟨tree, after⟩ := legible p q _ _ texts
    exact ⟨tree, String.toList_inj.mp after⟩

/-- Delimiters among the characters of a parser, and text behind it that might belong to it. -/
theorem delimiters_told_apart :
    (chain (sequence [anyExcept ')', times (literal ',') 12]) 7 : Parser Nat).render ++ ", any" =
        (chain (sequence [anyExcept ')', times (literal ',') 12]) true : Parser Bool).render ++
          ", any" ∧
      (chain (sequence [anyExcept ')', times (literal ',') 12]) 7 : Parser Nat).skeleton =
        (chain (sequence [anyExcept ')', times (literal ',') 12]) true : Parser Bool).skeleton := by
  have same : (chain (sequence [anyExcept ')', times (literal ',') 12]) 7 : Parser Nat).render ++
      ", any" =
        (chain (sequence [anyExcept ')', times (literal ',') 12]) true : Parser Bool).render ++
          ", any" := by decide +kernel
  exact ⟨same, ((render_tells_tree _ _).2 _ _ same).1⟩

end Parser

end Backtrack
