import Backtrack.CommandLine
import Backtrack.Proofs.Markup.Split

/-!
What a call of the program answers to the bytes of a text.

The three ways to name a source lead to one answer, though a file is announced in the log before it
is read. That the announcement is not seen, and that nothing else is seen on standard error, is a
matter of levels: as long as the environment names no filter only warnings are shown, and the one
warning there is stands where a text could not be split to its end, which never happens.
-/

namespace Backtrack.CommandLine

variable {read : Source → Except ReadFailure ByteArray} {bytes : ByteArray} {text : String}
  {path? : Option String} {before : List Effect}

/-! ### Bytes and texts -/

/-- A text is read back from its bytes. -/
theorem decode_toUTF8 (text : String) : decode text.toUTF8 = .ok text := by
  have valid : text.toUTF8.IsValidUTF8 := String.toUTF8_eq_toByteArray ▸ text.isValidUTF8
  rw [decode, String.fromUTF8?, dif_pos valid]
  rfl

/-- Bytes that spell no text are a failure of reading. -/
theorem decode_of_foreign (foreign : ∀ text : String, text.toUTF8 ≠ bytes) :
    decode bytes = .error .notText := by
  have invalid : ¬ bytes.IsValidUTF8 := fun valid => foreign (.fromUTF8 bytes valid) rfl
  rw [decode, String.fromUTF8?, dif_neg invalid]

/-! ### Runs on lines of their own -/

/-- The runs that are printed for a text; the empty text has none. -/
def runs (text : String) : List String :=
  (Markup.split text).fragments?.getD []

/-- Texts as lines, each with a line break behind it. -/
def lines (texts : List String) : String :=
  String.join (texts.map (· ++ "\n"))

/-- A text is split to its end, also where there is nothing to split. -/
theorem split_remainder (text : String) : (Markup.split text).remainder = "" := by
  by_cases empty : text = ""
  · rw [empty, Markup.split_empty]
  · rw [Markup.split_of_nonempty empty]

theorem runs_empty : runs "" = [] := by
  rw [runs, Markup.split_empty]
  rfl

/-- The runs printed are the pieces that a text is cut into. -/
theorem runs_eq (text : String) : runs text = (Markup.segments text.toList).map String.ofList := by
  by_cases empty : text = ""
  · rw [empty, runs, Markup.split_empty, String.toList_empty, Markup.segments_nil]
    rfl
  · rw [runs, Markup.split_of_nonempty empty]
    rfl

theorem map_toList_runs (text : String) :
    (runs text).map String.toList = Markup.segments text.toList := by
  rw [runs_eq, List.map_map]
  simp [Function.comp_def]

/-- The runs of a text spell it. -/
theorem join_runs (text : String) : String.join (runs text) = text := by
  rw [runs_eq, ← String.toList_inj, Markup.toList_join_map_ofList, Markup.flatten_segments]

theorem toList_lines (texts : List String) :
    (lines texts).toList = (texts.map String.toList).flatMap (· ++ ['\n']) := by
  rw [lines, String.toList_join, List.flatMap_map, List.flatMap_map]
  simp only [String.toList_append]
  rfl

/-- Lines that are ended, not parted, by a character leave an empty rest behind the last. -/
theorem splitOn_flatMap_concat {ending : Char} {lines : List (List Char)}
    (unbroken : ∀ line ∈ lines, ending ∉ line) :
    (lines.flatMap (· ++ [ending])).splitOn ending = lines ++ [[]] := by
  -- To end every line is to part the lines with one more, empty, behind them.
  have parted : [ending].intercalate (lines ++ [[]]) = lines.flatMap (· ++ [ending]) := by
    clear unbroken
    induction lines with
    | nil => rfl
    | cons line lines ih =>
        have nonempty : lines ++ [[]] ≠ [] := List.append_ne_nil_of_right_ne_nil _ nofun
        rw [List.cons_append, List.intercalate_cons_of_ne_nil nonempty, ih, List.flatMap_cons]
  rw [← parted]
  refine List.splitOn_intercalate ending (fun line mem => ?_) (by simp)
  rcases List.mem_append.mp mem with mem | mem
  · exact unbroken line mem
  · rw [List.mem_singleton.mp mem]
    exact List.not_mem_nil

/-- The runs of a text without line breaks can be read back from their lines. -/
theorem splitOn_lines_runs {text : String} (oneLine : '\n' ∉ text.toList) :
    (lines (runs text)).toList.splitOn '\n' = (runs text).map String.toList ++ [[]] := by
  rw [toList_lines, map_toList_runs]
  refine splitOn_flatMap_concat fun piece mem broken => oneLine ?_
  rw [← Markup.flatten_segments text.toList]
  exact List.mem_flatten.mpr ⟨piece, mem, broken⟩

/-! ### Commands at work -/

namespace Handler

section Steps

variable {α β : Type} {action : Handler α} {next : α → Handler β} {now : List Effect}

theorem perform_bind (action : Handler α) (next : α → Handler β) (before : List Effect) :
    (action >>= next).perform before =
      match action.perform before with
      | (.ok value, now) => (next value).perform now
      | (.error fault, now) => (.error fault, now) := by
  rw [perform, ExceptT.run_bind, StateT.run_bind, perform]
  rcases (ExceptT.run action).run before with ⟨value | fault, now⟩
  · rfl
  · rfl

/-- A command goes on with what its first step came to, behind all that step did. -/
theorem perform_bind_of_ok {value : α} (first : action.perform before = (.ok value, now)) :
    (action >>= next).perform before = (next value).perform now := by
  rw [perform_bind, first]

/-- After an error no further step is taken. -/
theorem perform_bind_of_error {fault : Error}
    (first : action.perform before = (.error fault, now)) :
    (action >>= next).perform before = (.error fault, now) := by
  rw [perform_bind, first]

theorem perform_log (notices : List Notice) (before : List Effect) :
    (log notices).perform before = (.ok (), before ++ notices.map .logged) :=
  rfl

theorem perform_print (texts : List String) (before : List Effect) :
    (print texts).perform before = (.ok (), before ++ texts.map .printed) :=
  rfl

end Steps

/-- What is noted of a source before it is read. -/
def announcement : Source → List Notice
  | .standardInput => []
  | .file path => [.reading path]

/-- A file is announced before it is read; otherwise only the source counts. -/
theorem perform_readInput (read : Source → Except ReadFailure ByteArray) (path? : Option String)
    (before : List Effect) :
    (readInput read path?).perform before =
      (load read (.ofPath? path?)).perform
        (before ++ (announcement (.ofPath? path?)).map .logged) := by
  rw [readInput]
  cases Source.ofPath? path? with
  | standardInput => rw [announcement, List.map_nil, List.append_nil]
  | file path => exact perform_bind_of_ok (perform_log _ before)

/-- The bytes of a text are read as that text. -/
theorem perform_readInput_of_text (found : read (.ofPath? path?) = .ok text.toUTF8) :
    (readInput read path?).perform before =
      (.ok text, before ++ (announcement (.ofPath? path?)).map .logged) := by
  have decoded : (read (.ofPath? path?) >>= decode) = .ok text := by
    rw [found]
    exact decode_toUTF8 text
  rw [perform_readInput, load, decoded]
  rfl

/-- Other bytes are not read at all. -/
theorem perform_readInput_of_foreign (found : read (.ofPath? path?) = .ok bytes)
    (foreign : ∀ text : String, text.toUTF8 ≠ bytes) :
    (readInput read path?).perform before =
      (.error (.io ReadFailure.notText.message),
        before ++ (announcement (.ofPath? path?)).map .logged) := by
  have refused : (read (.ofPath? path?) >>= decode) = .error .notText := by
    rw [found]
    exact decode_of_foreign foreign
  rw [perform_readInput, load, refused]
  rfl

/-- Besides the HTML there is the announcement of a file, and what happens during the parse. -/
theorem perform_html (found : read (.ofPath? path?) = .ok text.toUTF8) :
    (html read path?).perform before =
      (.ok (), before ++ (announcement (.ofPath? path?)).map .logged ++
        ((Markup.document.events text).map .parsing).map .logged ++
        [Markup.toHtml text].map .printed) := by
  rw [html, perform_bind_of_ok (perform_readInput_of_text found),
    perform_bind_of_ok (perform_log ..)]
  rfl

/-- Nothing is left of a text that is split, so there is nothing to warn of. -/
theorem perform_split (found : read (.ofPath? path?) = .ok text.toUTF8) :
    (split read path?).perform before =
      (.ok (), before ++ (announcement (.ofPath? path?)).map .logged ++
        ((Markup.segment.events text).map .parsing).map .logged ++
        ((runs text).map (· ++ "\n")).map .printed) := by
  rw [split, perform_bind_of_ok (perform_readInput_of_text found),
    perform_bind_of_ok (perform_log ..), perform_bind_of_ok (perform_print ..), split_remainder]
  rfl

end Handler

/-! ### What is seen of a call -/

/-- Which notices are shown, and how, touches standard error alone. -/
theorem log_touches_stderr_alone {around around' : Surroundings} (same : around.read = around'.read)
    (parse : ArgumentParser) (arguments : List String) :
    (answer parse around arguments).code = (answer parse around' arguments).code ∧
      (answer parse around arguments).stdout = (answer parse around' arguments).stdout := by
  rw [answer, answer, same]
  cases parse arguments with
  | error response => exact ⟨rfl, rfl⟩
  | ok found? => exact ⟨rfl, rfl⟩

/-- Surroundings in which one source holds these bytes, and there is no other. -/
def holding (source : Source) (bytes : ByteArray) : Surroundings where
  filter? := none
  line := Notice.line
  read asked := if asked = source then .ok bytes else .error .notFound

theorem read_holding (source : Source) (bytes : ByteArray) :
    (holding source bytes).read source = .ok bytes :=
  if_pos rfl

/-- Where the environment asks for information, a file is announced. -/
example :
    answer Arguments.parse
        { holding (.file "notes") "a*b*".toUTF8 with filter? := some (.atLeast .info) }
        ["html", "notes"] =
      ⟨0, "a<strong>b</strong>", "INFO Reading input from notes\n"⟩ := by
  decide +kernel

section Seen

variable {around : Surroundings} {notices : List Notice} {effects : List Effect} {code : Nat}

theorem join_eq_empty {texts : List String} (empty : ∀ text ∈ texts, text = "") :
    String.join texts = "" := by
  induction texts with
  | nil => rfl
  | cons first rest ih =>
      rw [String.join_cons, empty first List.mem_cons_self, String.empty_append]
      exact ih fun text mem => empty text (List.mem_cons_of_mem first mem)

/-- Unless the environment names a filter, a notice below a warning is not seen. -/
theorem stderr_logged (unset : around.filter? = none) {notice : Notice}
    (low : ¬ Level.warn ≤ notice.level) : around.stderr (.logged notice) = "" := by
  rw [Surroundings.stderr, Surroundings.filter, unset, Option.getD_none, Filter.atLeast,
    decide_eq_false low]
  rfl

/-- Notices below a warning change nothing of what is seen. -/
theorem response_logged_append (unset : around.filter? = none)
    (low : ∀ notice ∈ notices, ¬ Level.warn ≤ notice.level) :
    around.response code (notices.map .logged ++ effects) = around.response code effects := by
  have stdout : String.join ((notices.map Effect.logged).map Effect.stdout) = "" :=
    join_eq_empty (List.forall_mem_map.mpr (List.forall_mem_map.mpr fun _ _ => rfl))
  have stderr : String.join ((notices.map Effect.logged).map around.stderr) = "" :=
    join_eq_empty (List.forall_mem_map.mpr (List.forall_mem_map.mpr fun notice mem =>
      stderr_logged unset (low notice mem)))
  rw [Surroundings.response, List.map_append, List.map_append, String.join_append,
    String.join_append, stdout, stderr, String.empty_append, String.empty_append]
  rfl

/-- What is printed is seen as it is, and nothing of it on standard error. -/
theorem response_printed (texts : List String) :
    around.response code (texts.map .printed) = ⟨code, String.join texts, ""⟩ := by
  have stderr : String.join ((texts.map Effect.printed).map around.stderr) = "" :=
    join_eq_empty (List.forall_mem_map.mpr (List.forall_mem_map.mpr fun _ _ => rfl))
  have stdout : (texts.map Effect.printed).map Effect.stdout = texts := by
    rw [List.map_map]
    exact List.map_id texts
  rw [Surroundings.response, stdout, stderr]

/-- That a file is going to be read is for information. -/
theorem announcement_low (source : Source) :
    ∀ notice ∈ Handler.announcement source, ¬ Level.warn ≤ notice.level := by
  have low : ¬ Level.warn ≤ .info := by decide
  cases source with
  | standardInput => exact List.forall_mem_nil _
  | file path => exact List.forall_mem_singleton.mpr low

/-- What happens during a parse is for those who look for it. -/
theorem parsing_low (events : List (Event Empty)) :
    ∀ notice ∈ events.map Notice.parsing, ¬ Level.warn ≤ notice.level :=
  List.forall_mem_map.mpr fun event _ => event.not_warn_le_level

end Seen

/-! ### Arguments -/

/-- What the commands rely on in an argument parser: the usual reading of one optional positional
argument, a path. An argument that starts with no hyphen is a path, and so is a hyphen alone;
behind a double hyphen everything is. -/
structure ArgumentParser.TakesPath (parse : ArgumentParser) (command : String) : Prop where
  bare : parse [command] = .ok (some ⟨command, none⟩)
  hyphen : parse [command, "-"] = .ok (some ⟨command, some "-"⟩)
  operand : ∀ path : String, path.toList.head? ≠ some '-' →
    parse [command, path] = .ok (some ⟨command, some path⟩)
  separated : ∀ path : String, parse [command, "--", path] = .ok (some ⟨command, some path⟩)

namespace Arguments

theorem isOption_of_head {argument : String} (operand : argument.toList.head? ≠ some '-') :
    isOption argument = false := by
  unfold isOption
  split
  · next spelled => exact absurd (congrArg List.head? spelled) operand
  · rfl

/-- The program takes its arguments apart as the commands rely on. -/
theorem takesPath_parse {command : String} (known : command = "html" ∨ command = "split") :
    ArgumentParser.TakesPath parse command := by
  have parse_command (rest : List String) :
      parse (command :: rest) = parseOperands command none rest := by
    rcases known with rfl | rfl <;> rfl
  refine ⟨?_, ?_, fun path operand => ?_, fun path => ?_⟩
  · rw [parse_command]
    rfl
  · rw [parse_command]
    rfl
  · have notSeparator : path ≠ "--" := by
      rintro rfl
      exact operand rfl
    rw [parse_command, parseOperands, if_neg notSeparator, isOption_of_head operand]
    rfl
  · rw [parse_command]
    rfl

end Arguments

/-! ### The answer to bytes -/

section Answers

variable {parse : ArgumentParser} {around : Surroundings} {arguments : List String}
  {found? : Option Matches} {effects : List Effect} {fault : Error} {command : String}

/-- A command that comes to its end is a success. -/
theorem answer_of_ok (matched : parse arguments = .ok found?)
    (done : (dispatch around.read found?).perform [] = (.ok (), effects)) :
    answer parse around arguments = around.response 0 effects := by
  rw [answer, matched]
  simp only [Handler.conclude, done]

/-- A command that ends in an error is a failure, and the error is complained of behind all else. -/
theorem answer_of_error (matched : parse arguments = .ok found?)
    (failed : (dispatch around.read found?).perform [] = (.error fault, effects)) :
    answer parse around arguments =
      around.response 1 (effects ++ [.complained ("Error: " ++ fault.message ++ "\n")]) := by
  rw [answer, matched]
  simp only [Handler.conclude, failed]

/-- Of a command that announces a source, parses and prints, what it prints is seen. -/
theorem answer_of_printed {source : Source} {events : List (Event Empty)} {texts : List String}
    (unset : around.filter? = none) (matched : parse arguments = .ok found?)
    (done : (dispatch around.read found?).perform [] =
      (.ok (), [] ++ (Handler.announcement source).map .logged ++
        (events.map .parsing).map .logged ++ texts.map .printed)) :
    answer parse around arguments = ⟨0, String.join texts, ""⟩ := by
  rw [answer_of_ok matched done, List.nil_append, List.append_assoc,
    response_logged_append unset (announcement_low _),
    response_logged_append unset (parsing_low _), response_printed]

theorem answer_html (unset : around.filter? = none)
    (matched : parse arguments = .ok (some ⟨"html", path?⟩))
    (found : around.read (.ofPath? path?) = .ok text.toUTF8) :
    answer parse around arguments = ⟨0, Markup.toHtml text, ""⟩ := by
  rw [answer_of_printed unset matched (Handler.perform_html found), String.join_cons,
    String.join_nil, String.append_empty]

theorem answer_split (unset : around.filter? = none)
    (matched : parse arguments = .ok (some ⟨"split", path?⟩))
    (found : around.read (.ofPath? path?) = .ok text.toUTF8) :
    answer parse around arguments = ⟨0, lines (runs text), ""⟩ :=
  answer_of_printed unset matched (Handler.perform_split found)

/-- Bytes that are no text are refused before anything is printed. -/
theorem answer_of_foreign (unset : around.filter? = none)
    (known : command = "html" ∨ command = "split")
    (matched : parse arguments = .ok (some ⟨command, path?⟩))
    (found : around.read (.ofPath? path?) = .ok bytes)
    (foreign : ∀ text : String, text.toUTF8 ≠ bytes) :
    answer parse around arguments =
      ⟨1, "", "Error: I/O error: stream did not contain valid UTF-8\n"⟩ := by
  have failed : (dispatch around.read (some ⟨command, path?⟩)).perform [] =
      (.error (.io ReadFailure.notText.message),
        (Handler.announcement (.ofPath? path?)).map .logged) := by
    rcases known with rfl | rfl
    · exact Handler.perform_bind_of_error (Handler.perform_readInput_of_foreign found foreign)
    · exact Handler.perform_bind_of_error (Handler.perform_readInput_of_foreign found foreign)
  rw [answer_of_error matched failed, response_logged_append unset (announcement_low _)]
  rfl

end Answers

/-! ### Every call -/

/-- Any path but the hyphen names a file. -/
theorem Source.ofPath?_of_ne {path : String} (different : path ≠ "-") :
    ofPath? (some path) = file path := by
  unfold ofPath?
  split
  · next same => cases same
  · next same => exact absurd (Option.some.inj same) different
  · next same => rw [Option.some.inj same]

/-- What a command prints for a text. -/
def printed (command text : String) : String :=
  if command = "html" then Markup.toHtml text else lines (runs text)

/-- The answer of a command to bytes, wherever they were found. -/
def answerTo (command : String) (bytes : ByteArray) : Response :=
  match decode bytes with
  | .ok text => ⟨0, printed command text, ""⟩
  | .error failure => ⟨1, "", "Error: " ++ (Error.io failure.message).message ++ "\n"⟩

theorem answerTo_toUTF8 (command text : String) :
    answerTo command text.toUTF8 = ⟨0, printed command text, ""⟩ := by
  rw [answerTo, decode_toUTF8]

theorem answerTo_of_foreign (command : String) (foreign : ∀ text : String, text.toUTF8 ≠ bytes) :
    answerTo command bytes =
      ⟨1, "", "Error: I/O error: stream did not contain valid UTF-8\n"⟩ := by
  rw [answerTo, decode_of_foreign foreign]
  rfl

/-- However a call was put and wherever its path led, the bytes alone decide. -/
theorem answer_eq_answerTo {parse : ArgumentParser} {around : Surroundings}
    {arguments : List String} {command : String} (known : command = "html" ∨ command = "split")
    (unset : around.filter? = none) (matched : parse arguments = .ok (some ⟨command, path?⟩))
    (found : around.read (.ofPath? path?) = .ok bytes) :
    answer parse around arguments = answerTo command bytes := by
  by_cases foreign : ∀ text : String, text.toUTF8 ≠ bytes
  · rw [answer_of_foreign unset known matched found foreign, answerTo_of_foreign command foreign]
  · obtain ⟨text, spelled⟩ := not_forall_not.mp foreign
    rw [← spelled] at found ⊢
    rw [answerTo_toUTF8]
    rcases known with rfl | rfl
    · exact answer_html unset matched found
    · exact answer_split unset matched found

/-- **A command answers the bytes, wherever they are found.** Standard input, asked for by no path
or by a hyphen, and a file lead to one answer. A text is answered by what the command prints for
it, and nothing is left to complain of; what is no text is answered by the line that says so.

How arguments are taken apart and how notices are put as lines is left open. -/
theorem every_source_answers_alike {parse : ArgumentParser} {command : String}
    (known : command = "html" ∨ command = "split") (takes : parse.TakesPath command)
    (bytes : ByteArray) :
    ∃ response : Response,
      (∀ around : Surroundings, around.filter? = none →
        around.read .standardInput = .ok bytes →
        answer parse around [command] = response ∧
        answer parse around [command, "-"] = response) ∧
      (∀ (around : Surroundings) (path : String), around.filter? = none → path ≠ "-" →
        around.read (.file path) = .ok bytes →
        (path.toList.head? ≠ some '-' → answer parse around [command, path] = response) ∧
        answer parse around [command, "--", path] = response) ∧
      (∀ text : String, text.toUTF8 = bytes →
        response.code = 0 ∧
        response.stderr = "" ∧
        (command = "html" → response.stdout = Markup.toHtml text) ∧
        (command = "split" →
          (Markup.split text).remainder = "" ∧
          response.stdout = lines (runs text) ∧
          (text = "" → response.stdout = "") ∧
          ('\n' ∉ text.toList →
            response.stdout.toList.splitOn '\n' = (runs text).map String.toList ++ [[]] ∧
            String.join (runs text) = text))) ∧
      ((∀ text : String, text.toUTF8 ≠ bytes) →
        response = ⟨1, "", "Error: I/O error: stream did not contain valid UTF-8\n"⟩) := by
  refine ⟨answerTo command bytes, fun around unset found => ?_,
    fun around path unset different found => ?_, ?_, answerTo_of_foreign command⟩
  · exact ⟨answer_eq_answerTo known unset takes.bare found,
      answer_eq_answerTo known unset takes.hyphen found⟩
  · rw [← Source.ofPath?_of_ne different] at found
    exact ⟨fun operand => answer_eq_answerTo known unset (takes.operand path operand) found,
      answer_eq_answerTo known unset (takes.separated path) found⟩
  · rintro text rfl
    rw [answerTo_toUTF8]
    refine ⟨rfl, rfl, ?_, ?_⟩
    · rintro rfl
      rfl
    · rintro rfl
      refine ⟨split_remainder text, rfl, ?_, fun oneLine => ?_⟩
      · rintro rfl
        exact congrArg lines runs_empty
      · exact ⟨splitOn_lines_runs oneLine, join_runs text⟩

theorem marked_bytes_are_split_and_others_refused :
    ArgumentParser.TakesPath Arguments.parse "split" ∧
      answer Arguments.parse (holding .standardInput "a*b*c".toUTF8) ["split"] =
        ⟨0, "a\n*b*\nc\n", ""⟩ ∧
      answer Arguments.parse (holding .standardInput "a*b*c".toUTF8) ["split", "-"] =
        answer Arguments.parse (holding (.file "notes") "a*b*c".toUTF8) ["split", "notes"] ∧
      answer Arguments.parse (holding (.file "-notes") "a*b*c".toUTF8) ["split", "--", "-notes"] =
        answer Arguments.parse (holding (.file "notes") "a*b*c".toUTF8) ["split", "notes"] ∧
      "a\n*b*\nc\n".toList.splitOn '\n' = [['a'], ['*', 'b', '*'], ['c'], []] ∧
      answer Arguments.parse (holding (.file "notes") ⟨#[0x61, 0xff]⟩) ["html", "notes"] =
        ⟨1, "", "Error: I/O error: stream did not contain valid UTF-8\n"⟩ := by
  have known : "split" = "html" ∨ "split" = "split" := Or.inr rfl
  obtain ⟨response, fromInput, fromFile, ofText, -⟩ :=
    every_source_answers_alike known (Arguments.takesPath_parse known) "a*b*c".toUTF8
  obtain ⟨direct, hyphen⟩ := fromInput (holding .standardInput _) rfl (read_holding ..)
  obtain ⟨plain, -⟩ :=
    fromFile (holding (.file "notes") _) "notes" rfl (by decide) (read_holding ..)
  obtain ⟨-, separated⟩ :=
    fromFile (holding (.file "-notes") _) "-notes" rfl (by decide) (read_holding ..)
  obtain ⟨code, stderr, -, ofSplit⟩ := ofText "a*b*c" rfl
  obtain ⟨-, printed, -, readBack⟩ := ofSplit rfl
  have cut : runs "a*b*c" = ["a", "*b*", "c"] := by decide +kernel
  have stdout : response.stdout = "a\n*b*\nc\n" := by
    rw [printed, cut]
    decide +kernel
  have whole : response = ⟨0, "a\n*b*\nc\n", ""⟩ := by
    rw [← code, ← stdout, ← stderr]
  have known' : "html" = "html" ∨ "html" = "split" := Or.inl rfl
  obtain ⟨refusal, -, fromFile', -, ofForeign⟩ :=
    every_source_answers_alike known' (Arguments.takesPath_parse known') ⟨#[0x61, 0xff]⟩
  obtain ⟨plain', -⟩ :=
    fromFile' (holding (.file "notes") _) "notes" rfl (by decide) (read_holding ..)
  have invalid : ¬ (⟨#[0x61, 0xff]⟩ : ByteArray).IsValidUTF8 := by decide +kernel
  refine ⟨Arguments.takesPath_parse known, ?_, ?_, ?_, ?_, ?_⟩
  · rw [direct, whole]
  · rw [hyphen, plain (by decide)]
  · rw [separated, plain (by decide)]
  · rw [← stdout, (readBack (by decide)).1, cut]
    decide +kernel
  · rw [plain' (by decide)]
    refine ofForeign fun text same => invalid ?_
    rw [← same, String.toUTF8_eq_toByteArray]
    exact text.isValidUTF8

end Backtrack.CommandLine
