import CondCalc.Proofs.Calculation.Stages
import CondCalc.Proofs.Command.Echo
import CondCalc.Proofs.Printing.Outline

/-! How commands on one expression end. Each shows all of its output and nothing else, or the report
of one error and nothing else. The commands share their stages, so what stops one of them early also
stops those that go further. -/
namespace CondCalc

/-- Nothing below errors is logged, and nothing about logging was misunderstood. -/
structure Quiet (filter : LogFilter) : Prop where
  silent : ∀ (level : LogLevel) message, LogLevel.error.rank < level.rank →
    filter.shows level message = false
  understood : filter.complaints = []

theorem splitOn_empty {sep : String} (ne : sep ≠ "") : "".splitOn sep = [""] := by
  rw [String.splitOn, if_neg (by simpa using ne), String.splitOnAux, if_pos (by rfl)]
  rfl

theorem quiet_unspecified : Quiet (LogFilter.ofText "") := by
  have texts : LogFilter.directiveTexts "" = [] := by
    rw [LogFilter.directiveTexts, splitOn_empty (by decide)]
    decide +kernel
  have filter : LogFilter.ofText "" = LogFilter.ofList "" (fun _ => true) [] := by
    rw [LogFilter.ofText, LogFilter.read, splitOn_empty (by decide)]
  rw [filter, LogFilter.ofList, texts]
  refine ⟨fun level message above => ?_, rfl⟩
  simpa [LogFilter.programLevel] using above

def Note.IsMessage : Note → Prop
  | .log level _ => LogLevel.error.rank < level.rank
  | .always _ => False

theorem debug_isMessage (text : String) : (Note.log .debug text).IsMessage := by
  simp [Note.IsMessage, LogLevel.rank]

theorem warn_isMessage (text : String) : (Note.log .warn text).IsMessage := by
  simp [Note.IsMessage, LogLevel.rank]

theorem shown?_of_quiet {filter : LogFilter} (quiet : Quiet filter) {n : Note}
    (h : n.IsMessage) : n.shown? filter = none := by
  cases n with
  | always text => cases h
  | log level text => simp [Note.shown?, quiet.silent level text h]

theorem errorOutput_of_quiet {filter : LogFilter} (quiet : Quiet filter) {messages : List Note}
    (h : ∀ n ∈ messages, n.IsMessage) (status : Nat) (output : String) (notes : List Note) :
    Response.errorOutput ⟨status, output, messages ++ notes⟩ filter = shownNotes filter notes := by
  have silent : messages.filterMap (Note.shown? filter) = [] :=
    List.filterMap_eq_nil_iff.2 fun n mem => shown?_of_quiet quiet (h n mem)
  rw [Response.errorOutput, quiet.understood, shownNotes, shownNotes]
  simp [silent]

/-- Either there is output and nothing is reported, or there is none and something is. -/
def Response.AllOrNothing (r : Response) (filter : LogFilter) : Prop :=
  (r.status = 0 ∧ r.output ≠ "" ∧ r.errorOutput filter = "") ∨
    ((r.status = 65 ∨ r.status = 70) ∧ r.output = "" ∧ r.errorOutput filter ≠ "")

structure Response.Shows (r : Response) (filter : LogFilter)
    (lines : List String) : Prop where
  status_eq : r.status = 0
  output_eq : r.output = unlines lines
  errorOutput_eq : r.errorOutput filter = ""

/-- The response shows the report of the error on a text of the given name, and nothing else. -/
structure Response.Reports (r : Response) (filter : LogFilter) (render : Rendering)
    (name text : String) (x : Error) : Prop where
  status_eq : r.status = x.status
  output_eq : r.output = ""
  errorOutput_eq : r.errorOutput filter = render name text x.report ++ "\n"

section findings

variable {text : String} {lines : List String} {x : Error} {mode : Option Mode} {outline : Bool}

/-- The text is not an expression: it has no tokens, or these have no tree. -/
def NoExpression (text : String) : Prop :=
  (∃ e, tokenize text = .error e) ∨
    ∃ ts e, tokenize text = .ok ts ∧ Expr.ofTokens ts = .error e

theorem treeFindings_lines_eq (outline : Bool) (text : String) :
    (treeFindings outline text).lines = tokensOf text >>= fun ts =>
      (treeOf ts).map fun tree => if outline then tree.outline else [tree.sexpr] := by
  rw [treeFindings]
  cases tokensOf text <;> rfl

theorem tokenFindings_eq_error_iff : (tokenFindings text).lines = .error x ↔
    ∃ e, tokenize text = .error e ∧ .lexical e = x := by
  simp [tokenFindings, tokensOf]

theorem treeFindings_eq_error_iff : (treeFindings outline text).lines = .error x ↔
    (∃ e, tokenize text = .error e ∧ .lexical e = x) ∨
      ∃ ts, tokenize text = .ok ts ∧ ∃ e, Expr.ofTokens ts = .error e ∧ .syntactic e = x := by
  simp [treeFindings_lines_eq, tokensOf, treeOf]

theorem valueFindings_eq_error_iff :
    (valueFindings mode text).lines = .error x ↔ calculate text mode = .error x := by
  simp [valueFindings_lines]

theorem Expr.outline_ne_nil (e : Expr) : e.outline ≠ [] := by
  rw [outline, walk_eq]
  simp

end findings

section run

variable {s : Surroundings} {command : Command} {source : Source} {find : String → Findings}
  {text : String} {filter : LogFilter} {lines : List String} {x : Error}

theorem messages_of_inquiry (asks : command.inquiry? = some (source, find)) (text : String) :
    ∀ n ∈ (find text).messages, n.IsMessage := by
  cases command with
  | tokenize =>
    cases asks
    simp [tokenFindings]
  | parse =>
    cases asks
    unfold treeFindings
    split <;> simp [Note.IsMessage, LogLevel.rank]
  | evaluate =>
    cases asks
    unfold valueFindings
    split <;> simp [Note.IsMessage, LogLevel.rank]
  | version | session => cases asks

theorem messages_from_start (asks : command.inquiry? = some (source, find)) (started text : String) :
    ∀ n ∈ .log .debug started :: (find text).messages, n.IsMessage :=
  List.forall_mem_cons.2 ⟨debug_isMessage started, messages_of_inquiry asks text⟩

theorem lines_ne_nil (asks : command.inquiry? = some (source, find))
    (found : (find text).lines = .ok lines) : lines ≠ [] := by
  cases command with
  | tokenize =>
    cases asks
    obtain ⟨ts, -, rfl⟩ := map_eq_ok_iff.1 found
    simp
  | parse _ outline =>
    cases asks
    rw [treeFindings_lines_eq, bind_eq_ok_iff] at found
    obtain ⟨ts, -, found⟩ := found
    obtain ⟨tree, -, rfl⟩ := map_eq_ok_iff.1 found
    cases outline with
    | true => exact tree.outline_ne_nil
    | false => exact List.cons_ne_nil _ _
  | evaluate _ mode =>
    cases asks
    rw [valueFindings_lines] at found
    obtain ⟨o, -, rfl⟩ := map_eq_ok_iff.1 found
    exact List.cons_ne_nil _ _
  | version | session => cases asks

theorem run_shows (quiet : Quiet filter) (asks : command.inquiry? = some (source, find))
    (holds : source.Holds s text) (found : (find (trim text)).lines = .ok lines) :
    (command.run s).Shows filter lines := by
  obtain ⟨started, eq⟩ := Command.run_eq asks holds
  have messages := messages_from_start asks started (trim text)
  rw [eq, Findings.notes, found, Findings.status_of_ok found, Findings.output_of_ok found]
  refine ⟨rfl, rfl, ?_⟩
  have silent := errorOutput_of_quiet quiet messages 0 (unlines lines) []
  rwa [List.append_nil] at silent

theorem run_reports (quiet : Quiet filter) (asks : command.inquiry? = some (source, find))
    (holds : source.Holds s text) (found : (find (trim text)).lines = .error x) :
    (command.run s).Reports filter s.render source.name (trim text) x := by
  obtain ⟨started, eq⟩ := Command.run_eq asks holds
  have messages : ∀ n ∈ (.log .debug started :: (find (trim text)).messages) ++
      [.log .warn (x.stage ++ " error in " ++ source.name)], n.IsMessage := by
    rw [List.forall_mem_append, List.forall_mem_singleton]
    exact ⟨messages_from_start asks started (trim text), warn_isMessage _⟩
  rw [eq, Findings.notes, found, Findings.status_of_error found, Findings.output_of_error found]
  refine ⟨rfl, rfl, ?_⟩
  have silent := errorOutput_of_quiet quiet messages x.status ""
    [.always (s.render source.name (trim text) x.report)]
  simpa [Error.notes, shownNotes, Note.shown?, unlines] using silent

theorem run_allOrNothing (quiet : Quiet filter) (asks : command.inquiry? = some (source, find))
    (holds : source.Holds s text) : (command.run s).AllOrNothing filter := by
  cases found : (find (trim text)).lines with
  | ok lines =>
    have shows := run_shows quiet asks holds found
    obtain ⟨line, rest, rfl⟩ := List.exists_cons_of_ne_nil (lines_ne_nil asks found)
    refine .inl ⟨shows.status_eq, ?_, shows.errorOutput_eq⟩
    rw [shows.output_eq]
    exact unlines_cons_ne_nil line rest
  | error x =>
    have reports := run_reports quiet asks holds found
    refine .inr ⟨reports.status_eq ▸ x.status_eq, reports.output_eq, ?_⟩
    rw [reports.errorOutput_eq]
    simp [String.append_eq_empty_iff]

theorem status_run_eq_iff (asks : command.inquiry? = some (source, find))
    (holds : source.Holds s text) {status : Nat} (ne : status ≠ 0) :
    (command.run s).status = status ↔
      ∃ x, (find (trim text)).lines = .error x ∧ x.status = status := by
  rw [Command.status_run asks holds, Findings.status]
  cases (find (trim text)).lines with
  | ok lines => simp [ne.symm]
  | error x => simp

theorem status_eq_seventy_iff : x.status = 70 ↔ ∃ e, x = .evaluation e := by
  cases x <;> simp [Error.status]

theorem status_eq_sixty_five_iff : x.status = 65 ↔ ∀ e, x ≠ .evaluation e := by
  cases x <;> simp [Error.status]

theorem status_run_eq_seventy_iff (asks : command.inquiry? = some (source, find))
    (holds : source.Holds s text) : (command.run s).status = 70 ↔
      ∃ mode x, command = .evaluate source mode ∧
        calculate (trim text) mode = .error (.evaluation x) := by
  rw [status_run_eq_iff asks holds (by decide)]
  cases command with
  | tokenize =>
    cases asks
    simp [tokenFindings_eq_error_iff, Error.status]
  | parse =>
    cases asks
    simp [treeFindings_eq_error_iff, status_eq_seventy_iff]
  | evaluate _ mode =>
    cases asks
    simp [valueFindings_eq_error_iff, status_eq_seventy_iff]
  | version | session => cases asks

end run

section stages

variable {s : Surroundings} {source source' : Source} {text : String}

theorem tokenize_stops_iff (holds : source.Holds s text) :
    ((Command.tokenize source).run s).status = 65 ↔ ∃ e, tokenize (trim text) = .error e := by
  rw [status_run_eq_iff rfl holds (by decide)]
  simp [tokenFindings_eq_error_iff, Error.status]

theorem parse_stops_iff (holds : source.Holds s text) (outline : Bool) :
    ((Command.parse source outline).run s).status = 65 ↔ NoExpression (trim text) := by
  rw [status_run_eq_iff rfl holds (by decide)]
  simp only [treeFindings_eq_error_iff]
  constructor
  · rintro ⟨_, ⟨e, failed, rfl⟩ | ⟨ts, tokens, e, failed, rfl⟩, -⟩
    · exact .inl ⟨e, failed⟩
    · exact .inr ⟨ts, e, tokens, failed⟩
  · rintro (⟨e, failed⟩ | ⟨ts, e, tokens, failed⟩)
    · exact ⟨_, .inl ⟨e, failed, rfl⟩, rfl⟩
    · exact ⟨_, .inr ⟨ts, tokens, e, failed, rfl⟩, rfl⟩

theorem parse_status_eq (holds : source.Holds s text) (holds' : source'.Holds s text)
    (outline outline' : Bool) : ((Command.parse source outline).run s).status =
      ((Command.parse source' outline').run s).status := by
  rw [Command.status_run rfl holds, Command.status_run rfl holds']
  simp only [Findings.status, treeFindings_lines_eq]
  cases tokensOf (trim text) with
  | error e => rfl
  | ok ts =>
    rw [ok_bind, ok_bind]
    cases treeOf ts <;> rfl

theorem evaluate_stops_iff (holds : source.Holds s text) (mode : Option Mode) :
    ((Command.evaluate source mode).run s).status = 65 ↔
      ∃ x, calculate (trim text) mode = .error x ∧ ∀ e, x ≠ .evaluation e := by
  rw [status_run_eq_iff rfl holds (by decide)]
  simp [valueFindings_eq_error_iff, status_eq_sixty_five_iff]

theorem evaluate_none_stops_iff (holds : source.Holds s text) :
    ((Command.evaluate source none).run s).status = 65 ↔ NoExpression (trim text) := by
  rw [evaluate_stops_iff holds]
  simp only [calculate_eq_error_iff]
  constructor
  · rintro ⟨x, ⟨e, failed, rfl⟩ | ⟨ts, tokens, ⟨m, mem, -⟩ | ⟨-, ⟨e, failed, rfl⟩ |
      ⟨tree, -, e, -, rfl⟩⟩⟩, other⟩
    · exact .inl ⟨e, failed⟩
    · cases mem
    · exact .inr ⟨ts, e, tokens, failed⟩
    · exact absurd rfl (other e)
  · rintro (⟨e, failed⟩ | ⟨ts, e, tokens, failed⟩)
    · exact ⟨_, .inl ⟨e, failed, rfl⟩, by simp⟩
    · exact ⟨_, .inr ⟨ts, tokens, .inr ⟨by simp, .inl ⟨e, failed, rfl⟩⟩⟩, by simp⟩

theorem evaluate_eq_of_calculate_eq (holds : source.Holds s text) (holds' : source'.Holds s text)
    {mode mode' : Option Mode} (h : calculate (trim text) mode = calculate (trim text) mode') :
    ((Command.evaluate source mode).run s).status =
        ((Command.evaluate source' mode').run s).status ∧
      ((Command.evaluate source mode).run s).output =
        ((Command.evaluate source' mode').run s).output := by
  have lines : (valueFindings mode (trim text)).lines = (valueFindings mode' (trim text)).lines := by
    rw [valueFindings_lines, valueFindings_lines, h]
  rw [Command.status_run rfl holds, Command.status_run rfl holds', Command.output_run rfl holds,
    Command.output_run rfl holds', Findings.status, Findings.output, lines]
  exact ⟨rfl, rfl⟩

theorem calculate_in_mode_eq (text : String) (m : Mode) :
    (∃ e, calculate text (some m) = .error (.lexical e)) ∨
      (∃ e, calculate text (some m) = .error (.mode e)) ∨
        calculate text (some m) = calculate text none := by
  simp only [calculate, tokensOf, checkMode]
  cases tokenize text with
  | error e => exact .inl ⟨e, rfl⟩
  | ok ts =>
    simp only [Except.mapError, ok_bind]
    cases m.check ts with
    | error e => exact .inr (.inl ⟨e, rfl⟩)
    | ok => exact .inr (.inr rfl)

end stages

/-- How the commands on one text end, and how the ends of different commands depend on each other,
whichever of two sources of the text each of them reads. The text is what remains of the arguments
when the options have been taken out of them, or the contents of the file. -/
structure EndAsOne (s : Surroundings) (filter : LogFilter) (text : String)
    (source source' : Source) : Prop where
  allOrNothing : ∀ (command : Command) find, command.inquiry? = some (source, find) →
    (command.run s).AllOrNothing filter
  seventy_iff : ∀ (command : Command) find, command.inquiry? = some (source, find) →
    ((command.run s).status = 70 ↔ ∃ mode x, command = .evaluate source mode ∧
      calculate (trim text) mode = .error (.evaluation x))
  no_tokens : ∀ e, tokenize (trim text) = .error e →
    ((Command.tokenize source).run s).Reports filter s.render source.name (trim text) (.lexical e)
  tokenize_first : ((Command.tokenize source).run s).status = 65 →
    (∀ outline, ((Command.parse source' outline).run s).status = 65) ∧
      ∀ mode, ((Command.evaluate source' mode).run s).status = 65
  forms_alike : ∀ outline outline', ((Command.parse source outline).run s).status =
    ((Command.parse source' outline').run s).status
  parse_iff : ∀ outline, ((Command.evaluate source none).run s).status = 65 ↔
    ((Command.parse source' outline).run s).status = 65
  in_mode : ∀ m, (((Command.evaluate source (some m)).run s).status = 65 ∧
      ((∃ e, ((Command.evaluate source (some m)).run s).Reports filter s.render source.name
          (trim text) (.lexical e)) ∨
        ∃ e, ((Command.evaluate source (some m)).run s).Reports filter s.render source.name
          (trim text) (.mode e))) ∨
    (((Command.evaluate source (some m)).run s).status =
        ((Command.evaluate source' none).run s).status ∧
      ((Command.evaluate source (some m)).run s).output =
        ((Command.evaluate source' none).run s).output)

/-- On every text, be it an argument or the contents of a file, commands show all or nothing and
agree on what is wrong. -/
theorem commands_end_as_one (s : Surroundings) (filter : LogFilter)
    (quiet : Quiet filter) (text : String) (source source' : Source) (holds : source.Holds s text)
    (holds' : source'.Holds s text) : EndAsOne s filter text source source' where
  allOrNothing _ _ asks := run_allOrNothing quiet asks holds
  seventy_iff _ _ asks := status_run_eq_seventy_iff asks holds
  no_tokens e failed := run_reports quiet rfl holds (tokenFindings_eq_error_iff.2 ⟨e, failed, rfl⟩)
  tokenize_first stops := by
    obtain ⟨e, failed⟩ := (tokenize_stops_iff holds).1 stops
    refine ⟨fun outline => (parse_stops_iff holds' outline).2 (.inl ⟨e, failed⟩), fun mode => ?_⟩
    exact (evaluate_stops_iff holds' mode).2
      ⟨_, calculate_eq_error_iff.2 (.inl ⟨e, failed, rfl⟩), by simp⟩
  forms_alike := parse_status_eq holds holds'
  parse_iff outline := (evaluate_none_stops_iff holds).trans (parse_stops_iff holds' outline).symm
  in_mode m := by
    have asks : (Command.evaluate source (some m)).inquiry? = some (source, _) := rfl
    rcases calculate_in_mode_eq (trim text) m with ⟨e, failed⟩ | ⟨e, failed⟩ | same
    · have reports := run_reports quiet asks holds (valueFindings_eq_error_iff.2 failed)
      exact .inl ⟨reports.status_eq, .inl ⟨e, reports⟩⟩
    · have reports := run_reports quiet asks holds (valueFindings_eq_error_iff.2 failed)
      exact .inl ⟨reports.status_eq, .inr ⟨e, reports⟩⟩
    · exact .inr (evaluate_eq_of_calculate_eq holds holds' same)

theorem commands_end_as_one_on_quotient :
    let s : Surroundings := ⟨[], fun _ => .ok [32, 54, 47, 48, 10], Report.plain⟩
    (Quiet (LogFilter.ofText "") ∧ Source.Holds s (.text " 6/0\n") " 6/0\n" ∧
      Source.Holds s (.file "quotient") " 6/0\n") ∧
    EndAsOne s (LogFilter.ofText "") " 6/0\n" (.text " 6/0\n") (.file "quotient") := by
  intro s
  have encodes : Encodes [32, 54, 47, 48, 10] " 6/0\n" := decodeText_eq_ok_iff.1 (by decide +kernel)
  have holds : Source.Holds s (.text " 6/0\n") " 6/0\n" := .text _
  have holds' : Source.Holds s (.file "quotient") " 6/0\n" := .file rfl encodes
  exact ⟨⟨quiet_unspecified, holds, holds'⟩,
    commands_end_as_one s _ quiet_unspecified _ _ _ holds holds'⟩

end CondCalc
