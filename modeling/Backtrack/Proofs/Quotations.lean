import Backtrack.Languages
import Backtrack.Proofs.Recognition

/-!
Quoted text ends with the quote that opened it.

What follows an opening quote is read by a parser made from that quote, so any other quote may occur
in the text. Whichever characters may open, the parser recognizes exactly the quotations among
them: an empty one, or one that the end of the text cuts short, is given back with its opening
quote.
-/

namespace Backtrack.Languages

open Matcher

/-- A text with one and the same quote at both ends, which does not occur in between; `opens` says
which characters are quotes. -/
structure Quotation (opens : Char → Prop) where
  quote : Char
  inside : List Char
  isQuote : opens quote
  nonempty : inside ≠ []
  unquoted : quote ∉ inside

namespace Quotation

variable {opens : Char → Prop}

/-- The text with its quotes. -/
def write (q : Quotation opens) : List Char :=
  q.quote :: (q.inside ++ [q.quote])

/-- The text in one piece, and the closing quote. -/
def fragments (q : Quotation opens) : List String :=
  [String.ofList q.inside, String.singleton q.quote]

/-- A quotation spelled out, quote by quote. -/
theorem write_append (q : Quotation opens) (rest : List Char) :
    q.write ++ rest = q.quote :: (q.inside ++ q.quote :: rest) := by
  rw [write, List.cons_append, List.append_assoc, List.singleton_append]

/-- A quotation can be told from what is written: it ends at the first quote like its opening one.
-/
theorem write_injective : Function.Injective (write : Quotation opens → List Char) := by
  intro p q same
  obtain ⟨quotes, tails⟩ := List.cons.inj same
  rw [quotes] at tails
  have insides := List.append_cancel_right tails
  cases p
  cases q
  cases quotes
  cases insides
  rfl

end Quotation

/-! ### Behind the opening quote -/

/-- What follows the quote that opened: text without it, and the quote once more. -/
def quoteBody (quote : Char) : Parser Unit :=
  .andThen (.merge (.oneOrMore (.anyExcept quote))) (.literal quote)

/-- The opening quote decides what goes on behind it. -/
theorem quotes_singleton (quote : Char) :
    quotes () [String.singleton quote] = some (quoteBody quote) := by
  simp [quotes, quoteBody]

section Body

variable (g : Grammar Unit) (depth : Nat) {quote : Char} {inside rest text : List Char}

/-- What goes on behind an opening quote, in terms of single characters. -/
theorem parse_quoteBody (quote : Char) : (quoteBody quote).parse g depth =
    Matcher.sequence [Matcher.merge (Matcher.oneOrMore (Matcher.satisfying (· != quote))),
      Matcher.satisfying (· == quote)] :=
  Parser.parse_andThen ..

/-- The inside is taken as one fragment, and the closing quote as another. -/
theorem takes_quoteBody (nonempty : inside ≠ []) (unquoted : quote ∉ inside) (rest : List Char) :
    Takes ((quoteBody quote).parse g depth) (inside ++ quote :: rest)
      [String.ofList inside, String.singleton quote] rest := by
  have accepted : ∀ x ∈ inside, (x != quote) = true := forall_mem_bne_iff.mpr unquoted
  have ends : ∀ x, (quote :: rest).head? = some x → (x != quote) = false := by
    rintro x ⟨⟩
    exact bne_self_eq_false quote
  have body := takes_merge_run (κ := Unit) nonempty accepted ends
  rw [parse_quoteBody]
  exact takes_pair (List.append_ne_nil_of_left_ne_nil nonempty _) body (takes_char quote rest)

/-- Text that no quote closes is refused, and so is a quote at once. -/
theorem refuses_quoteBody
    (unclosed : ∀ inside rest, inside ≠ [] → quote ∉ inside → text ≠ inside ++ quote :: rest) :
    Refuses ((quoteBody quote).parse g depth) text := by
  rw [parse_quoteBody]
  obtain ⟨run, rest, rfl, accepted, ends⟩ := exists_run_append (· != quote) text
  by_cases empty : run = []
  · rw [empty, List.nil_append]
    exact refuses_pair_left (refuses_merge (refuses_oneOrMore (refuses_satisfying ends)))
  · refine refuses_pair_right (takes_merge_run empty accepted ends) (refuses_char fun closes => ?_)
    obtain ⟨behind, rfl⟩ := List.head?_eq_some_iff.mp closes
    exact unclosed run behind empty (forall_mem_bne_iff.mp accepted) rfl

end Body

/-! ### Whole quotations -/

section Quotations

variable {opening : Parser Unit} {opens : Char → Prop} {depth : Nat}

/-- If the first parser takes just one of the characters that open, the chain recognizes quotations
with these quotes. -/
theorem recognizes_quotations
    (takes : ∀ x rest, opens x →
      Takes (opening.parse quotes (depth + 1)) (x :: rest) [String.singleton x] rest)
    (refuses : ∀ text, (∀ x, text.head? = some x → ¬ opens x) →
      Refuses (opening.parse quotes (depth + 1)) text) :
    Recognizes ((Parser.chain opening ()).parse quotes (depth + 1))
      (Quotation.write : Quotation opens → List Char) Quotation.fragments := by
  refine recognizes_of_takes (Parser.parse_lawful ..) (Parser.parse_forward quotes (depth + 1) _)
    Quotation.write_injective (fun q rest => ?_) fun text elsewhere => ?_
  · rw [q.write_append]
    exact takes_chain (takes q.quote _ q.isQuote) (quotes_singleton q.quote)
      (takes_quoteBody quotes depth q.nonempty q.unquoted rest)
  · by_cases begins : ∃ x tail, text = x :: tail ∧ opens x
    · obtain ⟨x, tail, rfl, isQuote⟩ := begins
      refine refuses_chain_right (takes x tail isQuote) (quotes_singleton x)
        (refuses_quoteBody quotes depth fun inside rest nonempty unquoted same => ?_)
      exact elsewhere ⟨x, inside, isQuote, nonempty, unquoted⟩ rest
        (by rw [Quotation.write_append, same])
    · refine refuses_chain_left (refuses text fun x first isQuote => begins ?_)
      obtain ⟨tail, rfl⟩ := List.head?_eq_some_iff.mp first
      exact ⟨x, tail, rfl, isQuote⟩

end Quotations

/-- **The closing quote is the opening one.** The parser of quoted text recognizes the quotations
between single or between double quotes, and with any character in the place of the quote those
between two characters of one kind. The inside is one fragment and the closing quote another. Where
no quotation begins, as where one is empty or has no end, it finds nothing and stays before the
opening quote. -/
theorem closing_quote_is_opening_one (depth : Nat) :
    Recognizes (quoted.parse quotes (depth + 1))
        (Quotation.write : Quotation (fun x => x = '\'' ∨ x = '"') → List Char)
        Quotation.fragments ∧
      Recognizes ((Parser.chain .any ()).parse quotes (depth + 1))
        (Quotation.write : Quotation (fun _ => True) → List Char) Quotation.fragments := by
  constructor
  · refine recognizes_quotations ?_ fun text other => ?_
    · rintro x rest (rfl | rfl)
      · exact takes_either_left (takes_char '\'' rest)
      · refine takes_either_right (lawful_satisfying _) (refuses_char ?_) (takes_char '"' rest)
        simp
    · refine refuses_either (lawful_satisfying _) (refuses_char fun first => ?_)
        (refuses_char fun first => ?_)
      · exact other _ first (.inl rfl)
      · exact other _ first (.inr rfl)
  · refine recognizes_quotations (fun x rest _ => takes_satisfying rfl rest) fun text other => ?_
    exact refuses_satisfying fun x first => absurd trivial (other x first)

/-- The other quote may occur inside, and does not close. -/
example :
    (quoted.run quotes 1 "'it\"s' rest").completion = .finished ⟨some ["it\"s", "'"], " rest"⟩ ∧
    (quoted.run quotes 1 "'it\"").completion = .finished ⟨none, "'it\""⟩ := by
  decide +kernel

end Backtrack.Languages
