/-!
Words of a text replaced by a filler.

A text is read from left to right. Where one of the words begins it is replaced as a whole, and
reading goes on behind it; what has been put in its place is not read again. With words that cannot
overlap, as tags cannot, it makes no difference whether they are replaced all at once or some of
them after the others.
-/

namespace Backtrack.Text

/-- The text with every occurrence of one of the words replaced. -/
def replaceAll (words : List (List Char)) (filler : Char) : List Char → List Char
  | [] => []
  | x :: tail =>
    match words.find? (·.isPrefixOf (x :: tail)) with
    | some word => filler :: replaceAll words filler (tail.drop (word.length - 1))
    | none => x :: replaceAll words filler tail
termination_by text => text.length
decreasing_by
  · exact Nat.lt_succ_of_le (List.drop_sublist _ tail).length_le
  · exact Nat.lt_succ_self _

/-- A word that begins with `opener`, has no `opener` behind that, and has no filler at all. -/
structure Tag (opener filler : Char) (word : List Char) : Prop where
  opens : word.head? = some opener
  once : opener ∉ word.tail
  unfilled : filler ∉ word

/-- Tags of which none begins with another. -/
structure Tags (opener filler : Char) (words : List (List Char)) : Prop where
  each : ∀ word ∈ words, Tag opener filler word
  apart : ∀ word ∈ words, ∀ other ∈ words, other <+: word → other = word

/-- None of the words occurs in the text. -/
def Free (words : List (List Char)) (text : List Char) : Prop :=
  ∀ word ∈ words, ¬ word <:+: text

instance (words : List (List Char)) (text : List Char) : Decidable (Free words text) :=
  inferInstanceAs (Decidable (∀ word ∈ words, ¬ word <:+: text))

variable {words first second : List (List Char)} {word body run rest text : List Char}
  {opener filler x : Char}

theorem Free.of_infix (free : Free words text) (inside : run <:+: text) : Free words run :=
  fun word mem within => free word mem (within.trans inside)

namespace Tag

theorem eq_cons (tag : Tag opener filler word) : word = opener :: word.tail := by
  obtain ⟨tail, same⟩ := List.head?_eq_some_iff.mp tag.opens
  rw [same, List.tail_cons]

theorem ne_nil (tag : Tag opener filler word) : word ≠ [] := by
  rw [tag.eq_cons]
  exact List.cons_ne_nil _ _

/-- A tag can begin only at its opener. -/
theorem eq_of_prefix_cons (tag : Tag opener filler word) (begins : word <+: x :: text) :
    x = opener ∧ word.tail <+: text := by
  rw [tag.eq_cons, List.cons_prefix_cons] at begins
  exact ⟨begins.1.symm, begins.2⟩

end Tag

namespace Tags

theorem of_subset (tags : Tags opener filler words) (subset : first ⊆ words) :
    Tags opener filler first where
  each word mem := tags.each word (subset mem)
  apart word mem other mem' := tags.apart word (subset mem) other (subset mem')

/-- Where one tag begins, no other does. -/
theorem alone (tags : Tags opener filler words) (mem : word ∈ words) :
    ∀ other ∈ words, other <+: word ++ rest → other = word := by
  intro other mem' begins
  rcases List.prefix_or_prefix_of_prefix begins (List.prefix_append word rest) with inside | beyond
  · exact tags.apart word mem other mem' inside
  · exact (tags.apart other mem' word mem beyond).symm

end Tags

/-! ### One step -/

theorem replaceAll_nil : replaceAll words filler [] = [] := by
  rw [replaceAll]

theorem replaceAll_cons (none : ∀ word ∈ words, ¬ word <+: x :: text) :
    replaceAll words filler (x :: text) = x :: replaceAll words filler text := by
  have unfound : words.find? (·.isPrefixOf (x :: text)) = Option.none := by
    refine List.find?_eq_none.mpr fun word mem => ?_
    rw [List.isPrefixOf_iff_prefix]
    exact none word mem
  rw [replaceAll, unfound]

/-- A tag is replaced where it begins. -/
theorem replaceAll_tag_append (tags : Tags opener filler words) (mem : word ∈ words)
    (rest : List Char) :
    replaceAll words filler (word ++ rest) = filler :: replaceAll words filler rest := by
  have found : words.find? (·.isPrefixOf (word ++ rest)) = some word := by
    cases found : words.find? (·.isPrefixOf (word ++ rest)) with
    | none =>
        have begins := List.find?_eq_none.mp found word mem
        rw [List.isPrefixOf_iff_prefix] at begins
        exact absurd (List.prefix_append word rest) begins
    | some other =>
        have begins := List.find?_some found
        rw [List.isPrefixOf_iff_prefix] at begins
        rw [tags.alone mem other (List.mem_of_find?_eq_some found) begins]
  obtain ⟨x, tail, rfl⟩ := List.exists_cons_of_ne_nil (tags.each word mem).ne_nil
  rw [List.cons_append] at found ⊢
  rw [replaceAll, found]
  simp only [List.length_cons, Nat.add_sub_cancel, List.drop_left]

/-- No tag begins at the filler. -/
theorem replaceAll_filler_cons (tags : Tags opener filler words) (text : List Char) :
    replaceAll words filler (filler :: text) = filler :: replaceAll words filler text := by
  refine replaceAll_cons fun word mem begins => ?_
  have tag := tags.each word mem
  refine tag.unfilled ?_
  rw [tag.eq_cons, (tag.eq_of_prefix_cons begins).1]
  exact List.mem_cons_self

/-! ### Runs without a word -/

/-- Where no tag can begin, the text is copied. -/
theorem replaceAll_append_of_notMem (tags : Tags opener filler words) (unopened : opener ∉ run)
    (rest : List Char) :
    replaceAll words filler (run ++ rest) = run ++ replaceAll words filler rest := by
  induction run with
  | nil => rfl
  | cons x run ih =>
      have none : ∀ word ∈ words, ¬ word <+: x :: (run ++ rest) := by
        intro word mem begins
        have opens := ((tags.each word mem).eq_of_prefix_cons begins).1
        exact List.ne_of_not_mem_cons unopened opens.symm
      rw [List.cons_append, replaceAll_cons none, ih (List.not_mem_of_not_mem_cons unopened),
        List.cons_append]

/-- A tag that is not to be replaced is copied, since no other one begins in it. -/
theorem replaceAll_tag_append_of_notMem (tags : Tags opener filler words) (subset : first ⊆ words)
    (mem : word ∈ words) (kept : word ∉ first) (rest : List Char) :
    replaceAll first filler (word ++ rest) = word ++ replaceAll first filler rest := by
  have tag := tags.each word mem
  have none : ∀ other ∈ first, ¬ other <+: opener :: (word.tail ++ rest) := by
    intro other mem' begins
    rw [← List.cons_append, ← tag.eq_cons] at begins
    exact kept (tags.alone mem other (subset mem') begins ▸ mem')
  rw [tag.eq_cons, List.cons_append, replaceAll_cons none,
    replaceAll_append_of_notMem (tags.of_subset subset) tag.once, List.cons_append]

/-- A run that holds no word is copied, if what follows it begins with a character that no word has
behind its first one. So no word can begin in the run and end in the text behind it. -/
theorem replaceAll_append_of_free (free : Free words run)
    (ends : ∀ word ∈ words, ∀ x, rest.head? = some x → x ∉ word.tail) :
    replaceAll words filler (run ++ rest) = run ++ replaceAll words filler rest := by
  induction run with
  | nil => rfl
  | cons x run ih =>
      have none : ∀ word ∈ words, ¬ word <+: x :: (run ++ rest) := by
        intro word mem begins
        rw [← List.cons_append] at begins
        rcases List.prefix_or_prefix_of_prefix begins (List.prefix_append (x :: run) rest)
          with inside | ⟨beyond, rfl⟩
        · exact free word mem inside.isInfix
        · rw [List.prefix_append_right_inj] at begins
          cases beyond with
          | nil =>
              rw [List.append_nil] at mem
              exact free _ mem List.infix_rfl
          | cons y beyond =>
              obtain ⟨after, rfl⟩ := begins
              refine ends _ mem y rfl ?_
              rw [List.cons_append, List.tail_cons]
              exact List.mem_append_right run List.mem_cons_self
      rw [List.cons_append, replaceAll_cons none,
        ih (free.of_infix (List.infix_cons List.infix_rfl)), List.cons_append]

/-! ### One word after the other -/

/-- What is found after replacing, and has no filler, was there before. -/
theorem prefix_of_prefix_replaceAll (unfilled : filler ∉ body)
    (begins : body <+: replaceAll words filler text) : body <+: text := by
  induction body generalizing text with
  | nil => exact List.nil_prefix
  | cons y body ih =>
      cases text with
      | nil =>
          rw [replaceAll_nil] at begins
          exact absurd (List.prefix_nil.mp begins) (List.cons_ne_nil y body)
      | cons x text =>
          rw [replaceAll] at begins
          split at begins
          · obtain ⟨rfl, -⟩ := List.cons_prefix_cons.mp begins
            exact absurd List.mem_cons_self unfilled
          · obtain ⟨rfl, onward⟩ := List.cons_prefix_cons.mp begins
            rw [List.cons_prefix_cons]
            exact ⟨rfl, ih (List.not_mem_of_not_mem_cons unfilled) onward⟩

/-- Tags may be replaced some after the others: this makes what replacing them together makes. -/
theorem replaceAll_replaceAll (tags : Tags opener filler (first ++ second)) (text : List Char) :
    replaceAll second filler (replaceAll first filler text) =
      replaceAll (first ++ second) filler text := by
  have ofFirst : first ⊆ first ++ second := List.subset_append_left first second
  have ofSecond : second ⊆ first ++ second := List.subset_append_right first second
  induction size : text.length using Nat.strongRecOn generalizing text with
  | ind n ih =>
      subst size
      by_cases begins : ∃ word ∈ first ++ second, word <+: text
      · obtain ⟨word, mem, rest, rfl⟩ := begins
        have less : rest.length < (word ++ rest).length := by
          rw [List.length_append]
          exact Nat.lt_add_of_pos_left (List.length_pos_iff.mpr (tags.each word mem).ne_nil)
        rw [replaceAll_tag_append tags mem, ← ih _ less rest rfl]
        by_cases early : word ∈ first
        · rw [replaceAll_tag_append (tags.of_subset ofFirst) early,
            replaceAll_filler_cons (tags.of_subset ofSecond)]
        · have late : word ∈ second := (List.mem_append.mp mem).resolve_left early
          rw [replaceAll_tag_append_of_notMem tags ofFirst mem early,
            replaceAll_tag_append (tags.of_subset ofSecond) late]
      · cases text with
        | nil => rw [replaceAll_nil, replaceAll_nil, replaceAll_nil]
        | cons x text =>
            have none : ∀ word ∈ first ++ second, ¬ word <+: x :: text :=
              fun word mem here => begins ⟨word, mem, here⟩
            rw [replaceAll_cons none, replaceAll_cons fun word mem => none word (ofFirst mem),
              replaceAll_cons, ih _ (Nat.lt_succ_self _) text rfl]
            -- A tag that begins now was there before, as it has no filler.
            intro word mem here
            have tag := tags.each word (ofSecond mem)
            obtain ⟨rfl, onward⟩ := tag.eq_of_prefix_cons here
            refine none word (ofSecond mem) ?_
            rw [tag.eq_cons, List.cons_prefix_cons]
            refine ⟨rfl, prefix_of_prefix_replaceAll ?_ onward⟩
            exact fun mem => tag.unfilled (List.mem_of_mem_tail mem)

end Backtrack.Text
