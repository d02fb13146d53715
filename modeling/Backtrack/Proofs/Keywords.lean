import Backtrack.Proofs.Choice
import Backtrack.Proofs.Reading

/-!
Words from a list.

A word is matched letter by letter, as one fragment. A choice among listed words takes the first one
that the text begins with, which need not be the longest: a word that begins like the text and goes
on differently, or is cut short by the end of the text, is given back whole before the next one is
tried. Repeated, the choice cuts a text into such words, up to a place where no word begins.
-/

namespace Backtrack.Keywords

open Matcher

variable {κ : Type}

/-! ### Words and lists of words -/

/-- The letters of a word in order, as one fragment; there has to be one. -/
def word? (word : String) : Except Error (Parser κ) :=
  Parser.mergeAll? (word.toList.map .literal)

/-- A choice among words: each is tried after those listed before it. -/
def keywords? (words : List String) : Except Error (Parser κ) :=
  words.foldlM (fun before word => (word? word).map (Parser.either before)) .fail

/-- The first of the words that the text begins with. -/
def firstWord? (words : List String) (text : List Char) : Option String :=
  words.find? fun word => word.toList <+: text

/-- The text begins with one of the words. -/
def BeginsWord (words : List String) (text : List Char) : Prop :=
  ∃ word ∈ words, word.toList <+: text

instance (words : List String) (text : List Char) : Decidable (BeginsWord words text) :=
  inferInstanceAs (Decidable (∃ word ∈ words, word.toList <+: text))

/-- The words that a text is cut into, and what is left behind them. Each is the first of the list
that begins the text at its place, and none begins what is left. -/
structure Tokenized (words : List String) (text : List Char) (tokens : List String)
    (rest : List Char) : Prop where
  spells : text = tokens.flatMap String.toList ++ rest
  first : ∀ earlier token later, tokens = earlier ++ token :: later →
    firstWord? words ((token :: later).flatMap String.toList ++ rest) = some token
  stops : ¬ BeginsWord words rest

variable {words tokens : List String} {word : String} {text rest : List Char}

/-- None of the words begins a text if each of them does not. -/
theorem not_beginsWord_iff : ¬ BeginsWord words text ↔ ∀ word ∈ words, ¬ word.toList <+: text := by
  simp [BeginsWord]

/-- There is a first word exactly where there is a word at all. -/
theorem firstWord?_eq_none_iff : firstWord? words text = none ↔ ¬ BeginsWord words text := by
  simp [firstWord?, not_beginsWord_iff]

/-- A word that begins the text is taken before those listed behind it. -/
theorem firstWord?_cons_of_begins (begins : word.toList <+: text) :
    firstWord? (word :: words) text = some word :=
  List.find?_cons_of_pos (decide_eq_true begins)

/-- A word that does not begin the text is passed over. -/
theorem firstWord?_cons_of_other (other : ¬ word.toList <+: text) :
    firstWord? (word :: words) text = firstWord? words text :=
  List.find?_cons_of_neg (by simpa using other)

/-- The first word is listed, and the text begins with it. -/
theorem exists_append_of_firstWord? (found : firstWord? words text = some word) :
    word ∈ words ∧ ∃ rest, text = word.toList ++ rest := by
  have begins : word.toList <+: text := by simpa using List.find?_some found
  obtain ⟨rest, same⟩ := begins
  exact ⟨List.mem_of_find?_eq_some found, rest, same.symm⟩

theorem length_lt_word_append (nonempty : word ≠ "") (text : List Char) :
    text.length < (word.toList ++ text).length := by
  rw [List.length_append]
  exact Nat.lt_add_of_pos_left (List.length_pos_iff.mpr (mt String.toList_eq_nil_iff.mp nonempty))

/-! ### One word -/

section Word

variable (g : Grammar κ) (depth : Nat)

/-- The letters of a word, as one fragment. -/
def spelled (word : String) : Parser κ :=
  .merge (.sequence (word.toList.map .literal))

/-- A word with a letter can be spelled. -/
theorem word?_eq_ok (nonempty : word ≠ "") : word? word = .ok (spelled word : Parser κ) := by
  cases letters : word.toList with
  | nil => exact absurd (String.toList_eq_nil_iff.mp letters) nonempty
  | cons x letters' =>
      simp only [word?, spelled, letters]
      rfl

theorem parse_spelled (word : String) : (spelled word : Parser κ).parse g depth =
    Matcher.merge (Matcher.sequence (word.toList.map fun x => satisfying (· == x))) := by
  rw [spelled, Parser.parse_merge, Parser.parse_sequence, List.map_map]
  rfl

/-- Letters are taken one by one where the text begins with them. -/
theorem takes_letters (letters rest : List Char) :
    Takes (inOrder (letters.map fun x => satisfying (· == x)) : Matcher κ) (letters ++ rest)
      (letters.map String.singleton) rest := by
  induction letters with
  | nil => exact takes_inOrder_nil rest
  | cons x letters ih => exact takes_inOrder_cons (takes_char x _) ih

/-- Letters are refused where the text begins with others: the first that differs ends it. -/
theorem refuses_letters {letters : List Char} (other : ¬ letters <+: text) :
    Refuses (inOrder (letters.map fun x => satisfying (· == x)) : Matcher κ) text := by
  induction letters generalizing text with
  | nil => exact absurd List.nil_prefix other
  | cons x letters ih =>
      cases text with
      | nil => exact refuses_inOrder_head (refuses_char (by simp))
      | cons y text =>
          by_cases same : y = x
          · subst same
            refine refuses_inOrder_tail (takes_char y text) (ih fun begins => other ?_)
            exact List.cons_prefix_cons.mpr ⟨rfl, begins⟩
          · exact refuses_inOrder_head (refuses_char (by simpa using same))

/-- A spelled word is taken as one fragment. -/
theorem takes_spelled (nonempty : word ≠ "") (rest : List Char) :
    Takes ((spelled word : Parser κ).parse g depth) (word.toList ++ rest) [word] rest := by
  have some : word.toList ++ rest ≠ [] :=
    List.append_ne_nil_of_left_ne_nil (mt String.toList_eq_nil_iff.mp nonempty) rest
  have taken := takes_merge (takes_sequence some (takes_letters (κ := κ) word.toList rest))
  rwa [join_singletons, String.ofList_toList, ← parse_spelled g depth] at taken

/-- A word is given back whole where the text goes on differently, or ends. -/
theorem refuses_spelled (other : ¬ word.toList <+: text) :
    Refuses ((spelled word : Parser κ).parse g depth) text := by
  rw [parse_spelled]
  exact refuses_merge (refuses_sequence (refuses_letters other))

end Word

/-! ### One of the words -/

/-- The words in the order in which they are listed. -/
def listed (words : List String) : Parser κ :=
  (words.map spelled).foldl .either .fail

/-- Words with letters can be listed. -/
theorem keywords?_eq_ok (nonempty : ∀ word ∈ words, word ≠ "") :
    keywords? words = .ok (listed words : Parser κ) := by
  have grows (before : Parser κ) :
      words.foldlM (fun before word => (word? word).map (Parser.either before)) before =
        .ok ((words.map spelled).foldl .either before) := by
    induction words generalizing before with
    | nil => rfl
    | cons word words ih =>
        obtain ⟨ofWord, ofWords⟩ := List.forall_mem_cons.mp nonempty
        rw [List.foldlM_cons, word?_eq_ok ofWord]
        exact ih ofWords _
  exact grows .fail

section Listed

variable (g : Grammar κ) (depth : Nat)

/-- A list of words tries them in turn. -/
theorem parse_listed (words : List String) : (listed words : Parser κ).parse g depth =
    inTurn (words.map fun word => (spelled word).parse g depth) := by
  rw [listed, Parser.parse_foldl_either, List.map_cons, List.map_map]
  exact either_still_left _

/-- The first listed word that begins the text is taken, and no other. -/
theorem takes_listed (nonempty : ∀ word ∈ words, word ≠ "")
    (found : firstWord? words (word.toList ++ rest) = some word) :
    Takes ((listed words : Parser κ).parse g depth) (word.toList ++ rest) [word] rest := by
  rw [parse_listed]
  induction words with
  | nil => cases found
  | cons head words ih =>
      obtain ⟨ofHead, ofWords⟩ := List.forall_mem_cons.mp nonempty
      by_cases begins : head.toList <+: word.toList ++ rest
      · rw [firstWord?_cons_of_begins begins] at found
        cases found
        exact takes_either_left (takes_spelled g depth ofHead rest)
      · rw [firstWord?_cons_of_other begins] at found
        exact takes_either_right (Parser.parse_lawful g depth _) (refuses_spelled g depth begins)
          (ih ofWords found)

/-- Where no listed word begins the text nothing is found. -/
theorem refuses_listed (none : ¬ BeginsWord words text) :
    Refuses ((listed words : Parser κ).parse g depth) text := by
  rw [parse_listed]
  rw [not_beginsWord_iff] at none
  induction words with
  | nil => exact fun _ _ => rfl
  | cons head words ih =>
      obtain ⟨ofHead, ofWords⟩ := List.forall_mem_cons.mp none
      exact refuses_either (Parser.parse_lawful g depth _) (refuses_spelled g depth ofHead)
        (ih ofWords)

end Listed

/-! ### Words in a row -/

namespace Tokenized

theorem nil (stops : ¬ BeginsWord words rest) : Tokenized words rest [] rest :=
  ⟨rfl, fun _ _ _ same => by simp at same, stops⟩

/-- A word in front of a text cut into words is one more word, if it is the first of the list that
begins there. -/
theorem cons (found : firstWord? words (word.toList ++ text) = some word)
    (onward : Tokenized words text tokens rest) :
    Tokenized words (word.toList ++ text) (word :: tokens) rest := by
  obtain ⟨rfl, first, stops⟩ := onward
  refine ⟨by rw [List.flatMap_cons, List.append_assoc], ?_, stops⟩
  intro earlier token later same
  rcases List.cons_eq_append_iff.mp same with ⟨rfl, whole⟩ | ⟨earlier, rfl, whole⟩
  · cases whole
    rwa [List.flatMap_cons, List.append_assoc]
  · exact first earlier token later whole

/-- Behind the first word the rest of the text is cut in the same way. -/
theorem tail (ofText : Tokenized words text (word :: tokens) rest) :
    Tokenized words (tokens.flatMap String.toList ++ rest) tokens rest := by
  refine ⟨rfl, fun earlier token later same => ?_, ofText.stops⟩
  apply ofText.first (word :: earlier)
  rw [same, List.cons_append]

/-- The first of the words begins the text, and is the first of the list that does. -/
theorem head (ofText : Tokenized words text (word :: tokens) rest) :
    text = word.toList ++ (tokens.flatMap String.toList ++ rest) ∧
      firstWord? words text = some word := by
  have found := ofText.first [] word tokens rfl
  rw [← ofText.spells] at found
  exact ⟨by rw [ofText.spells, List.flatMap_cons, List.append_assoc], found⟩

/-- A text that a word begins is cut into at least one. -/
theorem ne_nil (ofText : Tokenized words text tokens rest) (begins : BeginsWord words text) :
    tokens ≠ [] := by
  rintro rfl
  obtain ⟨rfl, -, stops⟩ := ofText
  exact stops begins

/-- The words of a text are the rounds of the repetition. -/
theorem rounds (g : Grammar κ) (depth : Nat) (nonempty : ∀ word ∈ words, word ≠ "")
    (ofText : Tokenized words text tokens rest) :
    Rounds ((listed words : Parser κ).parse g depth) text tokens rest := by
  induction tokens generalizing text with
  | nil =>
      obtain ⟨rfl, -, stops⟩ := ofText
      exact .stop (refuses_listed g depth stops)
  | cons word tokens ih =>
      obtain ⟨rfl, found⟩ := ofText.head
      have some : word ≠ "" := nonempty word (exists_append_of_firstWord? found).1
      exact .round (takes_listed g depth nonempty found) (length_lt_word_append some _)
        (ih ofText.tail)

end Tokenized

/-- Every text can be cut into words up to a place where none begins, by induction on its length. -/
theorem exists_tokenized (nonempty : ∀ word ∈ words, word ≠ "") (text : List Char) :
    ∃ tokens rest, Tokenized words text tokens rest := by
  induction size : text.length using Nat.strongRecOn generalizing text with
  | ind n ih =>
      subst size
      cases found : firstWord? words text with
      | none => exact ⟨[], text, .nil (firstWord?_eq_none_iff.mp found)⟩
      | some word =>
          obtain ⟨mem, middle, rfl⟩ := exists_append_of_firstWord? found
          have less := length_lt_word_append (nonempty word mem) middle
          obtain ⟨tokens, rest, onward⟩ := ih _ less middle rfl
          exact ⟨word :: tokens, rest, onward.cons found⟩

/-- **The first listed word is found, and words in a row are cut off one by one.** Unless one of the
words begins the text, both the choice among them and its repetition find nothing and leave the text
as it is. Otherwise the choice takes the first word of the list that begins the text, as one
fragment. Its repetition takes such words from place to place, and leaves a text that none of them
begins. -/
theorem first_listed_words_are_taken (g : Grammar κ) (depth : Nat)
    (nonempty : ∀ word ∈ words, word ≠ "") :
    ∃ choice : Parser κ, keywords? words = .ok choice ∧ ∀ text : String,
      let once := (choice.run g depth text).completion
      let often := ((Parser.oneOrMore choice).run g depth text).completion
      (¬ BeginsWord words text.toList →
        once = .finished ⟨none, text⟩ ∧ often = .finished ⟨none, text⟩) ∧
      (BeginsWord words text.toList →
        (∃ word rest, firstWord? words text.toList = some word ∧ text = word ++ rest ∧
          once = .finished ⟨some [word], rest⟩) ∧
        ∃ tokens rest, tokens ≠ [] ∧ Tokenized words text.toList tokens rest.toList ∧
          often = .finished ⟨some tokens, rest⟩) := by
  refine ⟨listed words, keywords?_eq_ok nonempty, fun text => ⟨fun none => ?_, fun begins => ?_⟩⟩
  · have refuses := refuses_listed g depth none
    exact ⟨Parser.run_of_refuses refuses, Parser.run_of_refuses (refuses_oneOrMore refuses)⟩
  · constructor
    · cases found : firstWord? words text.toList with
      | none => exact absurd begins (firstWord?_eq_none_iff.mp found)
      | some word =>
          obtain ⟨-, rest, whole⟩ := exists_append_of_firstWord? found
          rw [whole] at found
          have taken := takes_listed g depth nonempty found
          rw [← whole] at taken
          refine ⟨word, String.ofList rest, rfl, ?_, Parser.run_of_takes taken⟩
          rw [← String.toList_inj, whole, String.toList_append, String.toList_ofList]
    · obtain ⟨tokens, rest, ofText⟩ := exists_tokenized nonempty text.toList
      -- A word begins the text and none begins what is left, so something was taken.
      have moved : rest ≠ text.toList := by
        rintro rfl
        exact ofText.stops begins
      have taken := (ofText.rounds g depth nonempty).takes_oneOrMore
        (Parser.parse_lawful g depth _) moved
      refine ⟨tokens, String.ofList rest, ofText.ne_nil begins, ?_, Parser.run_of_takes taken⟩
      rwa [String.toList_ofList]

/-- A word is taken where a longer one begins as well, and a word that the end of the text cuts
short is left. -/
theorem shorter_word_is_taken_first :
    (∀ word ∈ ["a", "abc", "bc"], word ≠ "") ∧
    firstWord? ["a", "abc", "bc"] "abcab".toList = some "a" ∧
    ∃ choice : Parser Empty, keywords? ["a", "abc", "bc"] = .ok choice ∧
      (∃ rest, "abcab" = "a" ++ rest ∧
        (choice.run .chainFree 0 "abcab").completion = .finished ⟨some ["a"], rest⟩) ∧
      ((Parser.oneOrMore choice).run .chainFree 0 "abcab").completion =
        .finished ⟨some ["a", "bc", "a"], "b"⟩ ∧
      Tokenized ["a", "abc", "bc"] "abcab".toList ["a", "bc", "a"] "b".toList ∧
      ¬ BeginsWord ["a", "abc", "bc"] "bab".toList ∧
      (choice.run .chainFree 0 "bab").completion = .finished ⟨none, "bab"⟩ := by
  have nonempty : ∀ word ∈ ["a", "abc", "bc"], word ≠ "" := by decide
  have found : firstWord? ["a", "abc", "bc"] "abcab".toList = some "a" := by decide
  have begins : BeginsWord ["a", "abc", "bc"] "abcab".toList := by decide
  have none : ¬ BeginsWord ["a", "abc", "bc"] "bab".toList := by decide
  have cut : ((Parser.oneOrMore (listed ["a", "abc", "bc"])).run .chainFree 0 "abcab").completion =
      .finished ⟨some ["a", "bc", "a"], "b"⟩ := by decide +kernel
  obtain ⟨choice, built, runs⟩ := first_listed_words_are_taken .chainFree 0 nonempty
  obtain ⟨⟨word, rest, first, whole, once⟩, tokens, behind, -, ofText, often⟩ :=
    (runs "abcab").2 begins
  cases found.symm.trans first
  cases Except.ok.inj (built.symm.trans (keywords?_eq_ok nonempty))
  cases often.symm.trans cut
  exact ⟨nonempty, found, _, built, ⟨rest, whole, once⟩, cut, ofText, none, ((runs "bab").1 none).1⟩

end Backtrack.Keywords
