import LexCell.Proofs.Report
import LexCell.Proofs.Text.Quoted

/-!
# The line of an outcome

A run that is reported without the listing of its trees prints one line (`ofSource_oneLine`),
whatever the names and operators in its text contain: values are written in typewriter characters,
and messages are quoted.

From the line of an error its cause can be read back (`errorLine_inj`). Names, operators and
contexts stand in messages as they are, delimiters included, so a message is not cut at delimiters
from the left: it is known by its beginning which of the messages it is, and of a mismatch, which
ends in the two kinds, by its end which kinds these are (`Cause.message_injective`).
-/

namespace LexCell

open Text

/-! ### Messages -/

theorem Kind.label_injective : Function.Injective label := by
  intro k k' h
  cases k <;> cases k' <;> first | rfl | exact absurd h (by decide)

theorem Kind.blank_notMem_label (k : Kind) : ' ' ∉ k.label.toList := by
  cases k <;> decide

namespace EvalError

/-- A word after the last blank can be told from the text before it. -/
theorem label_append_inj {text text' : List Char} {k k' : Kind}
    (h : text ++ ' ' :: k.label.toList = text' ++ ' ' :: k'.label.toList) : text = text' ∧ k = k' := by
  obtain ⟨rfl, label⟩ := append_cons_inj_right k.blank_notMem_label k'.blank_notMem_label h
  exact ⟨rfl, Kind.label_injective (String.toList_injective label)⟩

/-- The message of a mismatch, cut at the two words it ends in. -/
theorem typeMismatch_message (context : String) (expected got : Kind) :
    (Cause.typeMismatch context expected got).message.toList =
      ("type mismatch in ".toList ++ (context.toList ++ (": expected".toList ++
        ' ' :: expected.label.toList)) ++ ", got".toList) ++ ' ' :: got.label.toList := by
  dsimp only [Cause.message]
  simp

/-- **The message tells the cause.** -/
theorem Cause.message_injective : Function.Injective message := by
  intro c c' same
  have h : c.message.toList = c'.message.toList := congrArg String.toList same
  -- The messages of two kinds of causes differ among their first three characters.
  cases c with
  | unboundIdentifier name =>
      cases c' with
      | unboundIdentifier name' =>
          dsimp only [message] at h
          simp only [String.toList_append] at h
          have name := List.append_cancel_left (List.append_cancel_right h)
          rw [String.toList_injective name]
      | _ =>
          dsimp only [message] at h
          simp at h
  | typeMismatch context expected got =>
      cases c' with
      | typeMismatch context' expected' got' =>
          -- The context may contain any of the words around it, so this message is taken apart from
          -- its end.
          rw [typeMismatch_message, typeMismatch_message] at h
          obtain ⟨front, got⟩ := label_append_inj h
          have middle := List.append_cancel_left (List.append_cancel_right front)
          rw [← List.append_assoc, ← List.append_assoc] at middle
          obtain ⟨back, expected⟩ := label_append_inj middle
          rw [String.toList_injective (List.append_cancel_right back), expected, got]
      | _ =>
          dsimp only [message] at h
          simp at h
  | divisionByZero =>
      cases c' with
      | divisionByZero => rfl
      | _ =>
          dsimp only [message] at h
          simp at h
  | notCallable got =>
      cases c' with
      | notCallable got' =>
          dsimp only [message] at h
          simp only [String.toList_append] at h
          have label := List.append_cancel_left (List.append_cancel_right h)
          rw [Kind.label_injective (String.toList_injective label)]
      | _ =>
          dsimp only [message] at h
          simp at h
  | unknownOperator token =>
      cases c' with
      | unknownOperator token' =>
          dsimp only [message] at h
          simp only [String.toList_append] at h
          have token := List.append_cancel_left (List.append_cancel_right h)
          rw [String.toList_injective token]
      | _ =>
          dsimp only [message] at h
          simp at h

end EvalError

/-! ### Values in typewriter characters -/

theorem decimal_plain (n : Int64) : Plain (decimal n).toList := by
  have digits : Plain (Nat.toDigits 10 n.toInt.natAbs) := toDigits_plain (by decide) (by decide) _
  rw [decimal, String.toList_ofList]
  split
  · have sign : Plain ['-'] := by decide
    exact sign.append digits
  · exact digits

theorem truth_plain (b : Bool) : Plain (truth b).toList := by
  cases b <;> decide

namespace Value

theorem display_plain (v : Value) : Plain v.display.toList := by
  cases v with
  | number n =>
      dsimp only [display]
      simp only [String.toList_append]
      exact .append (.append (by decide) (decimal_plain n)) (by decide)
  | boolean b =>
      dsimp only [display]
      simp only [String.toList_append]
      exact .append (.append (by decide) (truth_plain b)) (by decide)
  | function =>
      have word : Plain "(function)".toList := by decide
      exact word
  | void => decide

theorem describe_plain (v : Value) : Plain v.describe.toList := by
  cases v with
  | number n =>
      dsimp only [describe]
      simp only [String.toList_append]
      exact .append (by decide) (decimal_plain n)
  | boolean b =>
      dsimp only [describe]
      simp only [String.toList_append]
      exact .append (by decide) (truth_plain b)
  | function =>
      have words : Plain "a function value".toList := by decide
      exact words
  | void => decide

end Value

namespace Report

/-! ### One line -/

/-- A text with a line end after visible characters, none of which ends a line. -/
def OneLine (text : String) : Prop :=
  ∃ line : String, text = line ++ "\n" ∧ ∀ c ∈ line.toList, isVisible c ∧ c ∉ lineEnds

theorem OneLine.of_visible {line : String} (h : ∀ c ∈ line.toList, isVisible c = true) :
    OneLine (line ++ "\n") :=
  ⟨line, rfl, fun c hc => ⟨h c hc, not_mem_lineEnds (h c hc)⟩⟩

/-- A form between parentheses. -/
theorem form_oneLine {head body : String} (hhead : Plain head.toList)
    (hbody : ∀ c ∈ body.toList, isVisible c = true) : OneLine (head ++ body ++ ")\n") := by
  have close : ")\n" = ")" ++ "\n" := by decide
  rw [close, ← String.append_assoc]
  refine .of_visible fun c hc => ?_
  have back : Plain ")".toList := by decide
  simp only [String.toList_append, List.mem_append] at hc
  -- A character comes from the head, from the body or from the closing bracket.
  rcases hc with (hc | hc) | hc
  · exact hhead.isVisible hc
  · exact hbody c hc
  · exact back.isVisible hc

theorem valueLine_oneLine (options : Options) (v : Value) : OneLine (valueLine options v) := by
  unfold valueLine
  split
  · exact .of_visible fun _ => v.describe_plain.isVisible
  · exact form_oneLine (by decide) fun _ => v.display_plain.isVisible

theorem errorLine_oneLine (e : EvalError) : OneLine (errorLine e) :=
  form_oneLine (by decide) fun _ => isVisible_of_mem_quote

/-! ### Reading the line back -/

theorem errorLine_inj {e e' : EvalError} (h : errorLine e = errorLine e') : e.cause = e'.cause := by
  have h : (errorLine e).toList = (errorLine e').toList := congrArg String.toList h
  simp only [errorLine, String.toList_append] at h
  have quoted := List.append_cancel_left (List.append_cancel_right h)
  exact EvalError.Cause.message_injective (quote_injective (String.toList_injective quoted))

theorem errorLine_ne_valueLine (e : EvalError) (options : Options) (v : Value) :
    errorLine e ≠ valueLine options v := by
  intro h
  have h : (errorLine e).toList = (valueLine options v).toList := congrArg String.toList h
  unfold valueLine at h
  split at h
  · -- in prose a value starts with a letter, an error with a bracket
    cases v <;> dsimp only [errorLine, Value.describe] at h <;> simp at h
  · -- as forms the two differ in the first letter of the head
    simp [errorLine] at h

theorem errorLine_ne_empty (e : EvalError) : errorLine e ≠ "" := by
  intro h
  simp [errorLine] at h

def StopsFor (words : String → String) (source : String) (c : EvalError.Cause) : Prop :=
  ∃ p t e, Program.ofText (words source) source Interner.initial = (.ok p, t) ∧
    p.Ends t (.error (.error e)) ∧ e.cause = c

section

variable {words : String → String} {source source' : String} {options options' : Options}
  {fuel fuel' : Nat} {report report' : Report}

theorem StopsFor.functional {c c' : EvalError.Cause} (h : StopsFor words source c)
    (h' : StopsFor words source c') : c = c' := by
  obtain ⟨p, t, e, read, ends, rfl⟩ := h
  obtain ⟨p', t', e', read', ends', rfl⟩ := h'
  cases Program.ends_functional read read' ends ends'
  rfl

/-- What a run prints that is reported without its trees. -/
theorem out_cases (unlisted : options.printTree = false)
    (h : ofSource words source options fuel = some report) :
    ((report.exit = .unreadable ∨ report.exit = .malformed) ∧ report.out = "") ∨
    (report.exit = .success ∧ ∃ v, report.out = valueLine options v) ∨
    (report.exit = .runtimeError ∧ ∃ e, StopsFor words source e.cause ∧ report.out = errorLine e) := by
  have bare (text : String) : listed options text = "" := by
    rw [listed, unlisted]
    rfl
  obtain ⟨reports, course, told⟩ := ofSource_course words source fuel
  rw [told] at h
  cases course with
  | endless => cases h
  | unreadable =>
      cases h
      exact .inl ⟨.inl rfl, rfl⟩
  | malformed =>
      cases h
      exact .inl ⟨.inr rfl, rfl⟩
  | @success _ _ v =>
      cases h
      exact .inr (.inl ⟨rfl, v, by rw [bare, String.empty_append]⟩)
  | @runtimeError p t e f _ _ _ read run =>
      cases h
      exact .inr (.inr ⟨rfl, e, ⟨p, t, e, read, ⟨fuel, f, run⟩, rfl⟩,
        by rw [bare, String.empty_append]⟩)

/-- **A run that ends prints one line.** -/
theorem ofSource_oneLine (unlisted : options.printTree = false)
    (h : ofSource words source options fuel = some report)
    (ran : report.exit = .success ∨ report.exit = .runtimeError) : OneLine report.out := by
  obtain ⟨refused | refused, -⟩ | ⟨-, v, out⟩ | ⟨-, e, -, out⟩ := out_cases unlisted h
  · rw [refused] at ran
    exact absurd ran (by decide)
  · rw [refused] at ran
    exact absurd ran (by decide)
  · exact out ▸ valueLine_oneLine options v
  · exact out ▸ errorLine_oneLine e

/-- **What prints the line of an error stops for the cause of that error.** -/
theorem stopsFor_of_out_eq (unlisted : options.printTree = false)
    (unlisted' : options'.printTree = false) (h : ofSource words source options fuel = some report)
    (h' : ofSource words source' options' fuel' = some report') (failed : report.exit = .runtimeError)
    (same : report.out = report'.out) :
    report'.exit = .runtimeError ∧ ∃ c, StopsFor words source c ∧ StopsFor words source' c := by
  obtain ⟨refused | refused, -⟩ | ⟨ok, -⟩ | ⟨-, e, stops, out⟩ := out_cases unlisted h
  · cases failed.symm.trans refused
  · cases failed.symm.trans refused
  · cases failed.symm.trans ok
  -- So the first run has printed the line of an error. The second has printed the same, and of the
  -- three things that it can have printed only such a line is one.
  rw [out] at same
  obtain ⟨-, out'⟩ | ⟨-, v, out'⟩ | ⟨failed', e', stops', out'⟩ := out_cases unlisted' h'
  · exact absurd (same.trans out') (errorLine_ne_empty e)
  · exact absurd (same.trans out') (errorLine_ne_valueLine e options' v)
  · exact ⟨failed', e.cause, stops, errorLine_inj (same.trans out') ▸ stops'⟩

end

/-- **The line of an outcome is one line, and can be decoded.** A run that is reported without its
trees prints one line. Two runs of which one stops and that print the same line both stop, and for
the same cause, that is with the same name, operator, context and kinds. No error is printed like a
value. -/
theorem outcome_lines_are_decodable :
    (∀ words source options fuel report, options.printTree = false →
      ofSource words source options fuel = some report →
      report.exit = .success ∨ report.exit = .runtimeError → OneLine report.out) ∧
    (∀ words source source' options options' fuel fuel' report report',
      options.printTree = false → options'.printTree = false →
      ofSource words source options fuel = some report →
      ofSource words source' options' fuel' = some report' → report.exit = .runtimeError →
      report.out = report'.out → report'.exit = .runtimeError ∧
        ∃ c, ∀ c', (StopsFor words source c' ↔ c' = c) ∧ (StopsFor words source' c' ↔ c' = c)) ∧
    (∀ e e', errorLine e = errorLine e' → e.cause = e'.cause) ∧
    ∀ e options v, errorLine e ≠ valueLine options v := by
  refine ⟨?line, ?decode, fun _ _ => errorLine_inj, errorLine_ne_valueLine⟩
  case line => exact fun _ _ _ _ _ unlisted h ran => ofSource_oneLine unlisted h ran
  case decode =>
    intro words source source' options options' fuel fuel' report report' unlisted unlisted' h h'
      failed same
    obtain ⟨failed', c, stops, stops'⟩ := stopsFor_of_out_eq unlisted unlisted' h h' failed same
    -- A run stops for one cause, so the shared one is the only one of either.
    have only {text : String} (stops : StopsFor words text c) (c' : EvalError.Cause) :
        StopsFor words text c' ↔ c' = c :=
      ⟨fun stopsFor => stopsFor.functional stops, fun same => same ▸ stops⟩
    exact ⟨failed', c, fun c' => ⟨only stops c', only stops' c'⟩⟩

/-- A program that reads a variable with a backtick, a line feed and a quote in its name. -/
def oddName : String :=
  "\x7b\"type\":\"Program\",\"body\":[" ++
  "\x7b\"type\":\"Identifier\",\"name\":\"`\\n\\\"\"\x7d]\x7d"

/-- It prints one line, whether in prose or not, and stops for one cause. -/
theorem oddName_is_decodable :
    ∃ report, ofSource wordless oddName {} 1 = some report ∧
      ofSource wordless oddName { describe := true } 1 = some report ∧ report.exit = .runtimeError ∧
      OneLine report.out ∧ ∃ c, ∀ c', StopsFor wordless oddName c' ↔ c' = c := by
  have answer : (ofSource wordless oddName {} 1).map (·.exit) = some .runtimeError := by
    decide +kernel
  obtain ⟨report, short, failed⟩ := Option.map_eq_some_iff.mp answer
  -- Only a value is shown differently in prose.
  have prose : ofSource wordless oddName { describe := true } 1 = some report :=
    ofSource_describe short (failed ▸ nofun) true
  obtain ⟨oneLine, decode, -⟩ := outcome_lines_are_decodable
  obtain ⟨-, c, only⟩ := decode _ _ _ {} { describe := true } _ _ _ _ rfl rfl short prose failed rfl
  exact ⟨report, short, prose, failed, oneLine _ _ {} _ _ rfl short (.inr failed), c,
    fun c' => (only c').1⟩

end Report

end LexCell
