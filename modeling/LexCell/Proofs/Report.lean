import LexCell.Proofs.Command
import LexCell.Proofs.Faults

/-!
# What a use of the command comes to

A text takes one of five courses (`Report.Course`): it is no JSON, it is JSON but no program, or it
is a program whose run yields a value, stops with an error or does not end. The course says how the
command exits and what it writes for all options at once, since none of them has a say in the
course.

How a run ends does not depend on the fuel, if that is enough (`Program.Ends.functional`). So the
exit of a report tells what the text is (`Report.Classifies`).

On the command line it does not matter in which way the text is named (`Report.inDirectory_insert`),
and a command line that is refused is refused before anything is read.
-/

namespace LexCell

/-! ### How a run ends -/

/-- With enough fuel, the run of the program ends so. -/
def Program.Ends (p : Program) (t : Interner) (r : Except Stop Value) : Prop :=
  ∃ fuel f, p.run t fuel = some (r, f)

/-- A run that ends has one end. -/
theorem Program.Ends.functional {p : Program} {t : Interner} {r r' : Except Stop Value}
    {ids : List NodeId} (body : p.statements? = some ids) (h : p.Ends t r) (h' : p.Ends t r') :
    r = r' := by
  obtain ⟨fuel, ⟨env, heap⟩, run⟩ := h
  obtain ⟨fuel', ⟨env', heap'⟩, run'⟩ := h'
  -- Two runs of one program are two ways through the moves, which are functional.
  have same := (Program.reaches_of_run body run).unique_end (Program.reaches_of_run body run') rfl rfl
  cases same
  rfl

namespace Report

/-! ### The courses of a text -/

def listed (options : Options) (text : String) : String :=
  if options.printTree then text ++ "\n" else ""

/-- What a text is, and what is reported of it under each choice of options. -/
inductive Course (words : String → String) (source : String) (fuel : Nat) :
    (Options → Option Report) → Prop where
  | unreadable :
      Json.parse? source = none →
      Course words source fuel fun _ =>
        some ⟨.unreadable, "",
          "error: " ++ (SourceError.invalidJson (words source)).message ++ "\n"⟩
  | malformed {doc : Json} {e : DocumentError} {t : Interner} :
      Json.parse? source = some doc → Program.ofJson doc Interner.initial = (.error e, t) →
      Course words source fuel fun _ => some ⟨.malformed, "", "error: " ++ e.message ++ "\n"⟩
  | endless {p : Program} {t : Interner} :
      Program.ofText (words source) source Interner.initial = (.ok p, t) → p.run t fuel = none →
      Course words source fuel fun _ => none
  | success {p : Program} {t : Interner} {v : Value} {f : Frame} {text : String} :
      Program.ofText (words source) source Interner.initial = (.ok p, t) →
      p.run t fuel = some (.ok v, f) → p.render? t = some text →
      Course words source fuel fun options =>
        some ⟨.success, listed options text ++ valueLine options v, ""⟩
  | runtimeError {p : Program} {t : Interner} {e : EvalError} {f : Frame} {id : NodeId}
      {text site : String} :
      Program.ofText (words source) source Interner.initial = (.ok p, t) →
      p.run t fuel = some (.error (.error e), f) → p.render? t = some text →
      e.node = some id → p.arena.render? t id = some site →
      Course words source fuel fun options =>
        some ⟨.runtimeError, listed options text ++ errorLine e, "  in " ++ site ++ "\n"⟩

theorem listing?_eq {p : Program} {t : Interner} {text : String} (h : p.render? t = some text)
    (options : Options) : listing? options p t = some (listed options text) := by
  unfold listing? listed
  split
  · rw [h]
    rfl
  · rfl

/-- **Every text takes one of the courses.** -/
theorem ofSource_course (words : String → String) (source : String) (fuel : Nat) :
    ∃ reports, Course words source fuel reports ∧
      ∀ options, ofSource words source options fuel = reports options := by
  have read : ∃ outcome t, Program.ofText (words source) source Interner.initial = (outcome, t) :=
    ⟨_, _, rfl⟩
  obtain ⟨outcome | p, t, read⟩ := read
  · have report (options : Options) : ofSource words source options fuel =
        some ⟨outcome.exit, "", "error: " ++ outcome.message ++ "\n"⟩ := by
      rw [ofSource, read]
    -- Without a program the options are not looked at.
    unfold Program.ofText at read
    split at read
    · next parsed =>
      cases read
      exact ⟨_, .unreadable parsed, report⟩
    · next doc parsed =>
      split at read
      · cases read
      · next lowered =>
        cases read
        exact ⟨_, .malformed parsed lowered, report⟩
  · -- a program that was read is safe: it can be listed, and its run does not dangle
    obtain ⟨ids, wf⟩ := Program.wellFormed_of_ofText read
    obtain ⟨text, written⟩ := wf.safe.listing
    have listing := listing?_eq written
    rcases run : p.run t fuel with _ | ⟨(e | _) | v, f⟩
    · refine ⟨_, .endless read run, fun options => ?_⟩
      simp only [ofSource, read, listing, run, Option.map_none]
    -- The node at fault and its form do not depend on the options; they are taken from a report
    -- with none.
    · obtain ⟨-, -, id, site, -, -, -, node, form, -⟩ := ofSource_of_error read run {}
      refine ⟨_, .runtimeError read run written node form, fun options => ?_⟩
      obtain ⟨-, before, id', site', -, -, hbefore, node', form', report⟩ :=
        ofSource_of_error read run options
      obtain rfl := Option.some.inj ((listing options).symm.trans hbefore)
      obtain rfl := Option.some.inj (node.symm.trans node')
      obtain rfl := Option.some.inj (form.symm.trans form')
      exact report
    · exact absurd rfl (wf.safe.ne_dangling run)
    · refine ⟨_, .success read run written, fun options => ?_⟩
      simp only [ofSource, read, listing, run, Option.map_some, ofOutcome]

/-! ### What the exit tells

The fate of a text is told without options and without fuel, so no report has to be looked at for
it. -/

inductive Fate (words : String → String) (source : String) : Exit → Prop where
  | unreadable : Json.parse? source = none → Fate words source .unreadable
  | malformed {doc : Json} {e : DocumentError} {t : Interner} :
      Json.parse? source = some doc → Program.ofJson doc Interner.initial = (.error e, t) →
      Fate words source .malformed
  | success {p : Program} {t : Interner} {v : Value} :
      Program.ofText (words source) source Interner.initial = (.ok p, t) → p.Ends t (.ok v) →
      Fate words source .success
  | runtimeError {p : Program} {t : Interner} {e : EvalError} :
      Program.ofText (words source) source Interner.initial = (.ok p, t) →
      p.Ends t (.error (.error e)) → Fate words source .runtimeError

end Report

namespace Program

variable {detail source : String} {t t' : Interner}

theorem ofText_of_parse?_eq_none (h : Json.parse? source = none) :
    ofText detail source t = (.error (.invalidJson detail), t) := by
  rw [ofText, h]

theorem ofText_of_ofJson_eq_error {doc : Json} {e : DocumentError}
    (parsed : Json.parse? source = some doc) (refused : ofJson doc t = (.error e, t')) :
    ofText detail source t = (.error (.invalidDocument e), t') := by
  rw [ofText, parsed]
  dsimp only
  rw [refused]

/-- A program that was read has one end. -/
theorem ends_functional {p p' : Program} {t t' : Interner} {r r' : Except Stop Value}
    (read : ofText detail source Interner.initial = (.ok p, t))
    (read' : ofText detail source Interner.initial = (.ok p', t')) (h : p.Ends t r)
    (h' : p'.Ends t' r') : r = r' := by
  cases read.symm.trans read'
  obtain ⟨ids, wf⟩ := wellFormed_of_ofText read
  exact h.functional wf.body h'

end Program

namespace Report

variable {words : String → String} {source : String} {options : Options} {fuel : Nat}
  {report : Report}

/-- No text is of two kinds. -/
theorem Fate.functional {x y : Exit} (h : Fate words source x) (h' : Fate words source y) : x = y := by
  -- Of each kind it is known what reading the text comes to, and for two kinds it is not the same.
  cases h with
  | unreadable parsed =>
      cases h' with
      | unreadable => rfl
      | malformed parsed' => cases parsed.symm.trans parsed'
      | success read' | runtimeError read' =>
          cases (Program.ofText_of_parse?_eq_none parsed).symm.trans read'
  | malformed parsed refused =>
      cases h' with
      | unreadable parsed' => cases parsed.symm.trans parsed'
      | malformed => rfl
      | success read' | runtimeError read' =>
          cases (Program.ofText_of_ofJson_eq_error parsed refused).symm.trans read'
  | success read ends =>
      cases h' with
      | unreadable parsed' => cases (Program.ofText_of_parse?_eq_none parsed').symm.trans read
      | malformed parsed' refused' =>
          cases (Program.ofText_of_ofJson_eq_error parsed' refused').symm.trans read
      | success => rfl
      | runtimeError read' ends' => cases Program.ends_functional read read' ends ends'
  | runtimeError read ends =>
      cases h' with
      | unreadable parsed' => cases (Program.ofText_of_parse?_eq_none parsed').symm.trans read
      | malformed parsed' refused' =>
          cases (Program.ofText_of_ofJson_eq_error parsed' refused').symm.trans read
      | success read' ends' => cases Program.ends_functional read read' ends ends'
      | runtimeError => rfl

theorem fate_of_ofSource (h : ofSource words source options fuel = some report) :
    Fate words source report.exit := by
  obtain ⟨reports, course, told⟩ := ofSource_course words source fuel
  rw [told] at h
  cases course with
  | endless => cases h
  | unreadable parsed =>
      cases h
      exact .unreadable parsed
  | malformed parsed refused =>
      cases h
      exact .malformed parsed refused
  | success read run =>
      cases h
      exact .success read ⟨_, _, run⟩
  | runtimeError read run =>
      cases h
      exact .runtimeError read ⟨_, _, run⟩

/-- A text whose run ends, if there is one, has a report. -/
theorem exists_report
    (ends : ∀ p t, Program.ofText (words source) source Interner.initial = (.ok p, t) →
      ∃ r, p.Ends t r) :
    ∃ fuel, ∀ options, ∃ report, ofSource words source options fuel = some report := by
  -- Reading is no matter of fuel, so there is at most one program to find fuel for.
  have enough : ∃ fuel, ∀ p t, Program.ofText (words source) source Interner.initial = (.ok p, t) →
      p.run t fuel ≠ none := by
    rcases read : Program.ofText (words source) source Interner.initial with ⟨e | p, t⟩
    · exact ⟨0, nofun⟩
    · obtain ⟨r, fuel, f, run⟩ := ends p t read
      refine ⟨fuel, ?_⟩
      rintro _ _ ⟨⟩ endless
      cases endless.symm.trans run
  obtain ⟨fuel, enough⟩ := enough
  obtain ⟨reports, course, told⟩ := ofSource_course words source fuel
  refine ⟨fuel, fun options => ?_⟩
  cases course with
  | endless read run => exact absurd run (enough _ _ read)
  | _ => exact ⟨_, told options⟩

/-! ### What the streams carry -/

/-- The exit of the report tells what the text is, and what stands on the streams fits the exit. -/
structure Classifies (words : String → String) (source : String) (report : Report) : Prop where
  exit : ∀ x, report.exit = x ↔ Fate words source x
  out : report.exit = .unreadable ∨ report.exit = .malformed → report.out = ""
  err : report.err = "" ↔ report.exit = .success
  /-- An error is reported with the written form of its node. -/
  site : ∀ p t e, Program.ofText (words source) source Interner.initial = (.ok p, t) →
    p.Ends t (.error (.error e)) → ∃ id text, e.node = some id ∧ p.arena.render? t id = some text ∧
      report.err = "  in " ++ text ++ "\n"

/-- **Every report classifies its text.** -/
theorem ofSource_classifies (h : ofSource words source options fuel = some report) :
    Classifies words source report := by
  have fate := fate_of_ofSource h
  have exit (x : Exit) : report.exit = x ↔ Fate words source x :=
    ⟨fun same => same ▸ fate, fate.functional⟩
  have notEmpty (text : String) : "error: " ++ text ++ "\n" ≠ "" ∧ "  in " ++ text ++ "\n" ≠ "" := by
    simp
  obtain ⟨reports, course, told⟩ := ofSource_course words source fuel
  rw [told] at h
  refine ⟨exit, ?out, ?err, ?site⟩
  case out =>
    intro refused
    cases course with
    | endless => cases h
    | unreadable | malformed =>
        cases h
        rfl
    | success | runtimeError =>
        cases h
        rcases refused with refused | refused <;> cases refused
  case err =>
    cases course with
    | endless => cases h
    | unreadable | malformed =>
        cases h
        exact iff_of_false (notEmpty _).1 nofun
    | success =>
        cases h
        exact iff_of_true rfl rfl
    | runtimeError =>
        cases h
        exact iff_of_false (notEmpty _).2 nofun
  case site =>
    intro p t e read ends
    -- The exit is that of an error, which leaves one course.
    have failed := fate.functional (.runtimeError read ends)
    cases course with
    | runtimeError read' run _ node form =>
        cases h
        cases read.symm.trans read'
        cases Program.ends_functional read read ends ⟨_, _, run⟩
        exact ⟨_, _, node, form, rfl⟩
    | endless => cases h
    | unreadable | malformed | success =>
        cases h
        cases failed

/-! ### What the options change -/

/-- Exit and messages are the same for all options. -/
theorem exit_err_eq (words : String → String) (source : String) (options options' : Options)
    (fuel : Nat) :
    (ofSource words source options fuel).map (fun r => (r.exit, r.err)) =
      (ofSource words source options' fuel).map fun r => (r.exit, r.err) := by
  obtain ⟨reports, course, told⟩ := ofSource_course words source fuel
  rw [told, told]
  cases course <;> rfl

/-- The listing of the trees comes before everything else. -/
theorem ofSource_printTree {p : Program} {t : Interner}
    (read : Program.ofText (words source) source Interner.initial = (.ok p, t)) :
    ∃ text, p.render? t = some text ∧ ∀ (options : Options) (fuel : Nat),
      ofSource words source { options with printTree := true } fuel =
        (ofSource words source { options with printTree := false } fuel).map fun r =>
          { r with out := text ++ "\n" ++ r.out } := by
  obtain ⟨ids, wf⟩ := Program.wellFormed_of_ofText read
  obtain ⟨text, written⟩ := wf.safe.listing
  refine ⟨text, written, fun options fuel => ?_⟩
  obtain ⟨reports, course, told⟩ := ofSource_course words source fuel
  rw [told, told]
  cases course with
  | unreadable parsed => cases (Program.ofText_of_parse?_eq_none parsed).symm.trans read
  | malformed parsed refused =>
      cases (Program.ofText_of_ofJson_eq_error parsed refused).symm.trans read
  | endless => rfl
  | success read' _ written' | runtimeError read' _ written' =>
      cases read.symm.trans read'
      cases written.symm.trans written'
      -- The listing stands in front in either case.
      simp [listed, valueLine]

/-- Nothing is listed of a text that is no program. -/
theorem ofSource_of_refused {e : SourceError} {t : Interner}
    (refused : Program.ofText (words source) source Interner.initial = (.error e, t))
    (options options' : Options) (fuel : Nat) :
    ofSource words source options fuel = ofSource words source options' fuel := by
  rw [ofSource, ofSource, refused]

/-- Prose is for values only. -/
theorem ofSource_describe (h : ofSource words source options fuel = some report)
    (failed : report.exit ≠ .success) (describe : Bool) :
    ofSource words source { options with describe } fuel = some report := by
  obtain ⟨reports, course, told⟩ := ofSource_course words source fuel
  rw [told] at h ⊢
  cases course with
  | endless => cases h
  | unreadable | malformed | runtimeError => exact h
  | success =>
      cases h
      exact absurd rfl failed

/-- The options change how an outcome is shown, and nothing else. -/
structure Presents (words : String → String) (source : String) (fuel : Nat) : Prop where
  same : ∀ options options',
    (ofSource words source options fuel).map (fun r => (r.exit, r.err)) =
      (ofSource words source options' fuel).map fun r => (r.exit, r.err)
  listing : ∀ p t, Program.ofText (words source) source Interner.initial = (.ok p, t) →
    ∃ text, p.render? t = some text ∧ ∀ options : Options,
      ofSource words source { options with printTree := true } fuel =
        (ofSource words source { options with printTree := false } fuel).map fun r =>
          { r with out := text ++ "\n" ++ r.out }
  refused : ∀ e t, Program.ofText (words source) source Interner.initial = (.error e, t) →
    ∀ options options', ofSource words source options fuel = ofSource words source options' fuel
  describe : ∀ options report, ofSource words source options fuel = some report →
    report.exit ≠ .success →
    ∀ describe, ofSource words source { options with describe } fuel = some report

/-! ### The command line -/

/-- The text of an input, in a directory and with a text on standard input. -/
def textOf (d : Directory) (stdin : String) : Input → Except ReadError String
  | .stdin => .ok stdin
  | .file path => d.read path

section CommandLine

variable {d : Directory} {stdin text : String}

/-- A run is one of the text that was read. -/
theorem inDirectory_of_run {arguments : List String}
    (run : Command.ofArguments arguments = .ok (.run options))
    (read : textOf d stdin options.input = .ok text) :
    inDirectory words arguments d stdin fuel = ofSource words text options fuel := by
  obtain ⟨input, printTree, describe⟩ := options
  unfold inDirectory ofArguments
  rw [run]
  dsimp only
  cases input with
  | stdin =>
      cases read
      rfl
  | file path =>
      have read : d.read path = .ok text := read
      dsimp only
      rw [read]

/-- **It does not matter how the text is named**, or whether it is named at all. -/
theorem inDirectory_insert {before after : List String} {a : String} {input : Input}
    (h : Command.NoOperand (before ++ after)) (ha : Command.Argument.ofString a = .operand input)
    (read : textOf d stdin input = .ok text) :
    inDirectory words (before ++ a :: after) d stdin fuel =
      inDirectory words (before ++ after) d text fuel := by
  have inserted := Command.ofArguments_insert ha h
  -- The other arguments make a usage error, a run or a text of help, with or without the operand.
  rcases plain : Command.ofArguments (before ++ after) with e | options | _ | _ <;>
    rw [plain] at inserted
  · simp only [inDirectory, ofArguments, plain, inserted, Except.map]
  · -- without an operand the text is taken from standard input
    have stdin : textOf d text options.input = .ok text := by
      rw [Command.input_of_noOperand h plain]
      rfl
    rw [inDirectory_of_run inserted read, inDirectory_of_run plain stdin]
    rfl
  · simp only [inDirectory, ofArguments, plain, inserted, Except.map, Command.on]
  · simp only [inDirectory, ofArguments, plain, inserted, Except.map, Command.on]

theorem inDirectory_of_usageError {arguments : List String} {e : UsageError}
    (refused : Command.ofArguments arguments = .error e) :
    inDirectory words arguments d stdin fuel = some (ofUsageError e) := by
  rw [inDirectory, ofArguments, refused]

end CommandLine

/-- In a directory, what the command does depends on the text and the flags, not on how the text is
named; a command line that is refused is refused whatever there is to read, and without fuel. -/
structure Reads (words : String → String) (d : Directory) (fuel : Nat) : Prop where
  run : ∀ arguments options stdin text, Command.ofArguments arguments = .ok (.run options) →
    textOf d stdin options.input = .ok text →
    inDirectory words arguments d stdin fuel = ofSource words text options fuel
  dash : ∀ before after text, Command.NoOperand (before ++ after) →
    inDirectory words (before ++ "-" :: after) d text fuel =
      inDirectory words (before ++ after) d text fuel
  file : ∀ before after name stdin text, Command.NoOperand (before ++ after) →
    Command.Argument.ofString name = .operand (.file name) → d.read name = .ok text →
    inDirectory words (before ++ name :: after) d stdin fuel =
      inDirectory words (before ++ after) d text fuel
  usage : ∀ arguments e stdin, Command.ofArguments arguments = .error e →
    inDirectory words arguments d stdin fuel = some (ofUsageError e) ∧
      (ofUsageError e).exit.code = 64

/-- **Outcomes are classified exactly, and independently of how they are shown**, whatever is said
of texts that are no JSON. A text whose run ends, if there is one, has a report for all options. The
exit of a report tells whether the text is no JSON, is JSON but no program, stops with an error or
yields a value, and the streams fit the exit. The options add the listing and choose the words for a
value. On the command line the text may be named in any way. -/
theorem outcomes_are_classified :
    (∀ words source,
      (∀ p t, Program.ofText (words source) source Interner.initial = (.ok p, t) →
        ∃ r, p.Ends t r) →
      ∃ fuel, ∀ options, ∃ report, ofSource words source options fuel = some report) ∧
    (∀ words source options fuel report, ofSource words source options fuel = some report →
      Classifies words source report) ∧
    (∀ words source fuel, Presents words source fuel) ∧ ∀ words d fuel, Reads words d fuel := by
  refine ⟨fun _ _ => exists_report, fun _ _ _ _ _ => ofSource_classifies,
    fun words source fuel => ?_, fun words d fuel => ?_⟩
  · refine ⟨fun options options' => exit_err_eq words source options options' fuel, ?_, ?_, ?_⟩
    · intro p t read
      obtain ⟨text, written, listing⟩ := ofSource_printTree read
      exact ⟨text, written, fun options => listing options fuel⟩
    · exact fun e t refused options options' => ofSource_of_refused refused options options' fuel
    · exact fun options report h failed describe => ofSource_describe h failed describe
  · refine ⟨?_, ?_, ?_, ?_⟩
    · exact fun arguments options stdin text run read => inDirectory_of_run run read
    · exact fun before after text h => inDirectory_insert h rfl rfl
    · exact fun before after name stdin text h ha read => inDirectory_insert h ha read
    · exact fun arguments e stdin refused => ⟨inDirectory_of_usageError refused, rfl⟩

/-- The program `1 / 0`. -/
def division : String :=
  "\x7b\"type\":\"Program\",\"body\":[\x7b\"type\":\"BinaryExpression\",\"operator\":\"/\"," ++
  "\"left\":\x7b\"type\":\"Literal\",\"value\":1\x7d," ++
  "\"right\":\x7b\"type\":\"Literal\",\"value\":0\x7d\x7d]\x7d"

def wordless (_source : String) : String := ""

/-- It stops, with the same report from standard input and from a file with a flag before its
name. -/
theorem division_is_classified :
    ∃ report, ofSource wordless division {} 3 = some report ∧ report.exit = .runtimeError ∧
      report.err = "  in (arithmetic / (number 1) (number 0))\n" ∧
      Classifies wordless division report ∧
      inDirectory wordless ["--describe", "p.json"] (.ofList [("p.json", division)]) "" 3 =
        some report := by
  have answer : (ofSource wordless division {} 3).map (fun r => (r.exit, r.err)) =
      some (.runtimeError, "  in (arithmetic / (number 1) (number 0))\n") := by decide +kernel
  obtain ⟨report, reported, same⟩ := Option.map_eq_some_iff.mp answer
  obtain ⟨failed, site⟩ := Prod.mk.inj same
  obtain ⟨-, classified, presents, reads⟩ := outcomes_are_classified
  refine ⟨report, reported, failed, site, classified _ _ _ _ _ reported, ?_⟩
  have flags : Command.NoOperand (["--describe"] ++ []) := by
    intro a ha input
    rw [List.mem_singleton.mp ha]
    exact nofun
  calc inDirectory wordless ["--describe", "p.json"] (.ofList [("p.json", division)]) "" 3
      = inDirectory wordless ["--describe"] (.ofList [("p.json", division)]) division 3 :=
        (reads _ _ 3).file ["--describe"] [] "p.json" "" division flags rfl (by decide +kernel)
    _ = ofSource wordless division { describe := true } 3 :=
        (reads _ _ 3).run _ { describe := true } division division rfl rfl
    _ = some report :=
        (presents wordless division 3).describe {} report reported (failed ▸ nofun) true

end Report

end LexCell
