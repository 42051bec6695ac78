import LexCell.Command
import Mathlib.Data.List.Basic
import Mathlib.Data.List.Induction

/-!
# The first decisive argument

A command line asks for a run if all its arguments are plain: the two flags, and at most one
operand. Then their order does not matter. Any other argument decides the outcome by itself, and so
does a second operand (`Command.Decides`); what stands behind it is not looked at.

Plain arguments lead the reader to a state that tells which of them it has met (`Command.Met`). One
more argument either decides or is met too (`Met.stop`, `Met.go_on`). So lists without a decisive
argument are the plain ones, which are runs (`Command.ofArguments_eq_run_iff`), and of all others
the leftmost decisive argument is the outcome (`Command.first_decisive_argument`).
-/

namespace LexCell.Command

/-! ### What arguments look like

These definitions speak of strings only. That they are what the reader makes of its arguments is
shown below, in `Argument.looks_iff`. -/

def Dashed (a : String) : Prop := a.toList.head? = some '-'

instance (a : String) : Decidable (Dashed a) := inferInstanceAs (Decidable (_ = _))

def IsOperand (a : String) : Prop := a = "-" ∨ ¬Dashed a

instance (a : String) : Decidable (IsOperand a) := inferInstanceAs (Decidable (_ ∨ _))

def IsFlag (a : String) : Prop := a = "--print-ast" ∨ a = "--describe"

instance (a : String) : Decidable (IsFlag a) := inferInstanceAs (Decidable (_ ∨ _))

def IsUnknown (a : String) : Prop :=
  Dashed a ∧ a ∉ ["-", "-h", "--help", "-V", "--version", "--print-ast", "--describe"]

instance (a : String) : Decidable (IsUnknown a) := inferInstanceAs (Decidable (_ ∧ _))

/-- Behind the arguments `before` the argument decides the outcome. -/
inductive Decides (before : List String) : String → Except UsageError Command → Prop where
  | help {a : String} : a = "-h" ∨ a = "--help" → Decides before a (.ok .help)
  | version {a : String} : a = "-V" ∨ a = "--version" → Decides before a (.ok .version)
  | unknown {a : String} : IsUnknown a → Decides before a (.error (.unknownOption a))
  | extra {a b : String} : b ∈ before → IsOperand b → IsOperand a →
      Decides before a (.error (.extraArgument a))

def Undecided (arguments : List String) : Prop :=
  ∀ before a after, arguments = before ++ a :: after → ∀ outcome, ¬Decides before a outcome

/-- There are only flags and operands, and at most one operand. -/
structure Plain (arguments : List String) : Prop where
  known : ∀ a ∈ arguments, IsFlag a ∨ IsOperand a
  single : arguments.countP (fun a => IsOperand a) ≤ 1

/-- The options are those that the arguments ask for. -/
structure Asks (arguments : List String) (options : Options) : Prop where
  printTree : options.printTree = true ↔ "--print-ast" ∈ arguments
  describe : options.describe = true ↔ "--describe" ∈ arguments
  /-- A lone dash names no file. -/
  file : ∀ name, options.input = .file name ↔ name ∈ arguments ∧ ¬Dashed name

inductive Argument.Looks : Argument → String → Prop where
  | help {a : String} : a = "-h" ∨ a = "--help" → Looks .help a
  | version {a : String} : a = "-V" ∨ a = "--version" → Looks .version a
  | printTree : Looks .printTree "--print-ast"
  | describe : Looks .describe "--describe"
  | unknown {a : String} : IsUnknown a → Looks .unknown a
  | stdin : Looks (.operand .stdin) "-"
  | file {a : String} : ¬Dashed a → Looks (.operand (.file a)) a

variable {before after arguments : List String} {a : String} {outcome : Except UsageError Command}
  {options options' : Options} {operand : Option Input} {input : Input}

/-! ### Single arguments

Whether an argument decides depends on what was met before only if it is an operand. -/

/-- Every argument looks like what it is taken for. -/
theorem Argument.looks_ofString (a : String) : (Argument.ofString a).Looks a := by
  unfold Argument.ofString
  split
  · exact .help (.inl rfl)
  · exact .help (.inr rfl)
  · exact .version (.inl rfl)
  · exact .version (.inr rfl)
  · exact .printTree
  · exact .describe
  · exact .stdin
  · -- neither a known option nor a lone dash: the first character tells
    split
    · next dashed =>
      apply Looks.unknown
      simp_all [IsUnknown, Dashed]
    · next undashed => exact .file undashed

/-- The look tells the meaning. -/
theorem Argument.looks_iff {x : Argument} : x.Looks a ↔ Argument.ofString a = x := by
  constructor
  · intro looks
    cases looks with
    | help h | version h => rcases h with rfl | rfl <;> rfl
    | printTree | describe | stdin => rfl
    -- The six spellings that are known would contradict this one being unknown.
    | unknown h =>
        unfold Argument.ofString
        split <;> simp_all [IsUnknown, Dashed]
    | file undashed =>
        unfold Argument.ofString
        split <;> simp_all [Dashed]
  · rintro rfl
    exact Argument.looks_ofString a

/-- The operands are the arguments that name an input. -/
theorem isOperand_iff : IsOperand a ↔ ∃ input, (Argument.operand input).Looks a := by
  constructor
  · rintro (rfl | undashed)
    · exact ⟨_, .stdin⟩
    · exact ⟨_, .file undashed⟩
  · rintro ⟨input, looks⟩
    cases looks with
    | stdin => exact .inl rfl
    | file undashed => exact .inr undashed

/-- What decides by itself is neither a flag nor an operand, and all else is. -/
theorem flag_or_operand_iff : IsFlag a ∨ IsOperand a ↔
    ¬(a = "-h" ∨ a = "--help") ∧ ¬(a = "-V" ∨ a = "--version") ∧ ¬IsUnknown a := by
  constructor
  · rintro ((rfl | rfl) | rfl | undashed)
    · decide
    · decide
    · decide
    · refine ⟨?_, ?_, fun unknown => undashed unknown.1⟩
      · rintro (rfl | rfl) <;> exact undashed (by decide)
      · rintro (rfl | rfl) <;> exact undashed (by decide)
  · rintro ⟨help, version, unknown⟩
    simp only [IsUnknown, List.mem_cons, List.not_mem_nil, or_false] at unknown
    unfold IsFlag IsOperand
    -- Only propositional reasoning is left: the lists of spellings cover each other.
    tauto

/-- What does not decide is a flag, or the first operand. -/
theorem not_decides_iff : (∀ outcome, ¬Decides before a outcome) ↔
    (IsFlag a ∨ IsOperand a) ∧ (IsOperand a → ∀ b ∈ before, ¬IsOperand b) := by
  constructor
  · intro goesOn
    constructor
    · apply flag_or_operand_iff.mpr
      exact ⟨fun h => goesOn _ (.help h), fun h => goesOn _ (.version h),
        fun h => goesOn _ (.unknown h)⟩
    · exact fun second b hb first => goesOn _ (.extra hb first second)
  · rintro ⟨known, single⟩ outcome decides
    obtain ⟨help, version, unknown⟩ := flag_or_operand_iff.mp known
    cases decides with
    | help h => exact help h
    | version h => exact version h
    | unknown h => exact unknown h
    | extra hb first second => exact single second _ hb first

/-! ### One argument more

The reader keeps two flags and the operand, no list. `Met` says what they tell of the arguments so
far; it holds at the start, and an argument that does not decide preserves it. -/

/-- The state of the reader tells which arguments it has met. -/
structure Met (before : List String) (options : Options) (operand : Option Input) : Prop where
  printTree : options.printTree = true ↔ "--print-ast" ∈ before
  describe : options.describe = true ↔ "--describe" ∈ before
  operand : ∀ input, operand = some input ↔ ∃ a ∈ before, (Argument.operand input).Looks a

/-- The first operand is the only one that is met. -/
theorem first_operand (first : ∀ b ∈ before, ¬IsOperand b) (looks : (Argument.operand input).Looks a)
    (input' : Input) :
    some input = some input' ↔ ∃ b ∈ before ++ [a], (Argument.operand input').Looks b := by
  constructor
  · rintro ⟨rfl⟩
    exact ⟨a, List.mem_concat_self, looks⟩
  · rintro ⟨b, hb, looks'⟩
    -- No operand stood before, so `b` is the last argument, and its meaning is unique.
    rcases List.mem_append.mp hb with hb | hb
    · exact absurd (isOperand_iff.mpr ⟨input', looks'⟩) (first b hb)
    · cases List.mem_singleton.mp hb
      cases (Argument.looks_iff.mp looks).symm.trans (Argument.looks_iff.mp looks')
      rfl

namespace Met

/-- Before the first argument nothing was met. -/
theorem initial : Met [] {} none := by
  constructor <;> simp

variable (met : Met before options operand)

include met

/-- Whatever is met besides operands leaves the operand as it is. -/
theorem operand_concat (other : ¬IsOperand a) (input : Input) :
    operand = some input ↔ ∃ b ∈ before ++ [a], (Argument.operand input).Looks b := by
  have unlike : ¬(Argument.operand input).Looks a := fun looks =>
    other (isOperand_iff.mpr ⟨input, looks⟩)
  simp [met.operand, or_and_right, exists_or, unlike]

/-- Without an operand among the arguments met, none is remembered. -/
theorem operand_eq_none (new : ∀ b ∈ before, ¬IsOperand b) : operand = none := by
  apply Option.eq_none_iff_forall_ne_some.mpr
  intro input found
  obtain ⟨b, hb, looks⟩ := (met.operand input).mp found
  exact new b hb (isOperand_iff.mpr ⟨input, looks⟩)

/-- An argument that does not decide is met too. -/
theorem go_on (goesOn : ∀ outcome, ¬Decides before a outcome) :
    ∃ options' operand', Met (before ++ [a]) options' operand' ∧
      ∀ after, read options operand (a :: after) = read options' operand' after := by
  -- The three meanings that decide are excluded; each of the others changes one part of the state.
  cases meaning : Argument.ofString a with
  | help =>
      cases Argument.looks_iff.mpr meaning with
      | help h => exact absurd (.help h) (goesOn _)
  | version =>
      cases Argument.looks_iff.mpr meaning with
      | version h => exact absurd (.version h) (goesOn _)
  | unknown =>
      cases Argument.looks_iff.mpr meaning with
      | unknown h => exact absurd (.unknown h) (goesOn _)
  | printTree =>
      cases Argument.looks_iff.mpr meaning
      refine ⟨{ options with printTree := true }, operand, ⟨?_, ?_, ?_⟩, fun after => rfl⟩
      · simp
      · simp [met.describe]
      · exact met.operand_concat (by decide)
  | describe =>
      cases Argument.looks_iff.mpr meaning
      refine ⟨{ options with describe := true }, operand, ⟨?_, ?_, ?_⟩, fun after => rfl⟩
      · simp [met.printTree]
      · simp
      · exact met.operand_concat (by decide)
  | operand input =>
      have looks := Argument.looks_iff.mpr meaning
      have second : IsOperand a := isOperand_iff.mpr ⟨input, looks⟩
      have first := (not_decides_iff.mp goesOn).2 second
      obtain rfl := met.operand_eq_none first
      have noFlag (flag : String) (h : ¬IsOperand flag) : flag ≠ a := fun same => h (same ▸ second)
      refine ⟨options, some input, ⟨?_, ?_, ?_⟩, fun after => by rw [read, meaning]⟩
      · simp [met.printTree, noFlag "--print-ast" (by decide)]
      · simp [met.describe, noFlag "--describe" (by decide)]
      · exact first_operand first looks

/-- An argument that decides is the outcome, whatever follows it. -/
theorem stop (decides : Decides before a outcome) (after : List String) :
    read options operand (a :: after) = outcome := by
  cases decides with
  | help h => rw [read, Argument.looks_iff.mp (.help h)]
  | version h => rw [read, Argument.looks_iff.mp (.version h)]
  | unknown h => rw [read, Argument.looks_iff.mp (.unknown h)]
  -- The first operand is remembered, which is all that the reader asks for.
  | extra hb first second =>
      obtain ⟨input, looks⟩ := isOperand_iff.mp first
      obtain ⟨input', looks'⟩ := isOperand_iff.mp second
      rw [read, Argument.looks_iff.mp looks', (met.operand input).mpr ⟨_, hb, looks⟩]

end Met

/-! ### Lists of arguments

The reader goes from left to right, so these inductions add one argument at the end of the list. -/

/-- A list with one argument more has a new candidate, which is the last one. -/
theorem undecided_concat :
    Undecided (before ++ [a]) ↔ Undecided before ∧ ∀ outcome, ¬Decides before a outcome := by
  constructor
  · intro h
    refine ⟨?_, h before a [] rfl⟩
    intro b x c split
    exact h b x (c ++ [a]) (by simp [split])
  · rintro ⟨earlier, last⟩ b x c split
    -- Either the last argument is the one in question, or the question is about the earlier ones.
    rcases List.eq_nil_or_concat' c with rfl | ⟨c, y, rfl⟩
    · obtain ⟨rfl, same⟩ := List.append_inj' split rfl
      cases same
      exact last
    · rw [← List.cons_append, ← List.append_assoc] at split
      exact earlier b x c (List.append_inj' split rfl).1

/-- There is at most one operand still, unless the new argument is a second one. -/
theorem countP_isOperand_concat :
    (before ++ [a]).countP (fun a => IsOperand a) ≤ 1 ↔
      before.countP (fun a => IsOperand a) ≤ 1 ∧ (IsOperand a → ∀ b ∈ before, ¬IsOperand b) := by
  have none : before.countP (fun a => IsOperand a) = 0 ↔ ∀ b ∈ before, ¬IsOperand b := by
    simp [List.countP_eq_zero]
  rw [List.countP_append, List.countP_singleton, ← none]
  by_cases operand : IsOperand a
  · simp only [operand, decide_true, if_true, true_implies]
    omega
  · simp [operand]

/-- The same recursion as in `undecided_concat`. -/
theorem plain_concat :
    Plain (before ++ [a]) ↔ Plain before ∧ ∀ outcome, ¬Decides before a outcome := by
  rw [not_decides_iff]
  constructor
  · rintro ⟨known, single⟩
    obtain ⟨earlier, last⟩ := countP_isOperand_concat.mp single
    refine ⟨⟨?_, earlier⟩, known a List.mem_concat_self, last⟩
    exact fun b hb => known b (List.mem_append_left _ hb)
  · rintro ⟨⟨known, earlier⟩, last, single⟩
    refine ⟨?_, countP_isOperand_concat.mpr ⟨earlier, single⟩⟩
    intro b hb
    rcases List.mem_append.mp hb with hb | hb
    · exact known b hb
    · obtain rfl := List.mem_singleton.mp hb
      exact last

/-- Plain lists are those without a decisive argument. -/
theorem plain_iff_undecided : Plain arguments ↔ Undecided arguments := by
  induction arguments using List.reverseRecOn with
  | nil => exact iff_of_true ⟨by simp, by simp⟩ (by simp [Undecided])
  | append_singleton before a ih => rw [plain_concat, undecided_concat, ih]

/-- Where no argument decides, all are met. -/
theorem Undecided.met (h : Undecided before) :
    ∃ options operand, Met before options operand ∧
      ∀ after, ofArguments (before ++ after) = read options operand after := by
  induction before using List.reverseRecOn with
  | nil => exact ⟨_, _, .initial, fun _ => rfl⟩
  | append_singleton before a ih =>
      obtain ⟨earlier, last⟩ := undecided_concat.mp h
      -- The reader has got as far as `before`, in a state that tells what it met.
      obtain ⟨options, operand, met, reads⟩ := ih earlier
      obtain ⟨options', operand', met', goesOn⟩ := met.go_on last
      refine ⟨options', operand', met', ?_⟩
      intro after
      rw [List.append_assoc, reads]
      exact goesOn after

/-- **The leftmost decisive argument is the outcome**, whatever follows it. -/
theorem Undecided.ofArguments (h : Undecided before) (decides : Decides before a outcome)
    (after : List String) : ofArguments (before ++ a :: after) = outcome := by
  obtain ⟨options, operand, met, reads⟩ := h.met
  rw [reads]
  exact met.stop decides after

/-- If some argument decides, there is a leftmost one. -/
theorem exists_decides (h : ¬Undecided arguments) :
    ∃ before a after outcome, arguments = before ++ a :: after ∧ Undecided before ∧
      Decides before a outcome := by
  induction arguments using List.reverseRecOn with
  | nil => exact absurd (by simp [Undecided]) h
  | append_singleton before a ih => -- the last argument decides if no earlier one does
      by_cases earlier : Undecided before
      · have last : ∃ outcome, Decides before a outcome := by
          apply by_contra
          intro none
          exact h (undecided_concat.mpr ⟨earlier, not_exists.mp none⟩)
        obtain ⟨outcome, decides⟩ := last
        exact ⟨before, a, [], outcome, rfl, earlier, decides⟩
      · obtain ⟨b, x, c, outcome, rfl, first, decides⟩ := ih earlier
        exact ⟨b, x, c ++ [a], outcome, by simp, first, decides⟩

/-! ### What a command line asks for

Of an undecided list the reader runs out in the state that was met, and this determines the options.
Of any other list the leftmost decisive argument is the outcome, which is no run. -/

/-- No argument decides for a run. -/
theorem Decides.ne_run (h : Decides before a outcome) (options : Options) :
    outcome ≠ .ok (.run options) := by
  cases h <;> nofun

/-- Arguments ask for one set of options at most. -/
theorem Asks.functional (h : Asks arguments options) (h' : Asks arguments options') :
    options = options' := by
  obtain ⟨input, printTree, describe⟩ := options
  obtain ⟨input', printTree', describe'⟩ := options'
  have trees := Bool.eq_iff_iff.mpr (h.printTree.trans h'.printTree.symm)
  have described := Bool.eq_iff_iff.mpr (h.describe.trans h'.describe.symm)
  have files (name : String) : input = .file name ↔ input' = .file name :=
    (h.file name).trans (h'.file name).symm
  dsimp only at trees described
  subst trees described
  -- Standard input is what is left if no file is named.
  cases input with
  | file name => rw [(files name).mp rfl]
  | stdin =>
      cases input' with
      | stdin => rfl
      | file name => cases (files name).mpr rfl

/-- What was met is what the arguments ask for. -/
theorem Met.asks (met : Met before options operand) :
    Asks before { options with input := operand.getD .stdin } := by
  refine ⟨met.printTree, met.describe, ?_⟩
  intro name
  have named : operand.getD .stdin = .file name ↔ operand = some (.file name) := by
    cases operand <;> simp
  rw [named, met.operand]
  constructor
  · rintro ⟨a, ha, looks⟩
    cases looks with
    | file undashed => exact ⟨ha, undashed⟩
  · rintro ⟨ha, undashed⟩
    exact ⟨name, ha, .file undashed⟩

/-- **Plain arguments are runs**, with the options that they ask for, and nothing else is. -/
theorem ofArguments_eq_run_iff :
    ofArguments arguments = .ok (.run options) ↔ Plain arguments ∧ Asks arguments options := by
  by_cases undecided : Undecided arguments
  · obtain ⟨options', operand, met, reads⟩ := undecided.met
    have run := reads []
    rw [List.append_nil] at run
    rw [run]
    constructor
    · rintro ⟨rfl⟩
      exact ⟨plain_iff_undecided.mpr undecided, met.asks⟩
    · rintro ⟨-, asks⟩
      rw [asks.functional met.asks]
      rfl
  · obtain ⟨before, a, after, outcome, rfl, first, decides⟩ := exists_decides undecided
    rw [first.ofArguments decides]
    refine iff_of_false (decides.ne_run options) ?_
    exact fun h => undecided (plain_iff_undecided.mp h.1)

/-- Plain arguments ask for something. -/
theorem Plain.exists_asks (h : Plain arguments) : ∃ options, Asks arguments options := by
  obtain ⟨options, operand, met, -⟩ := (plain_iff_undecided.mp h).met
  exact ⟨_, met.asks⟩

/-- The order of plain arguments does not matter. -/
theorem ofArguments_perm (h : ofArguments before = .ok (.run options)) (perm : after.Perm before) :
    ofArguments after = .ok (.run options) := by
  obtain ⟨plain, asks⟩ := ofArguments_eq_run_iff.mp h
  apply ofArguments_eq_run_iff.mpr
  -- Being plain and what is asked for are both about membership and counting.
  constructor
  · exact ⟨fun a ha => plain.known a (perm.mem_iff.mp ha), perm.countP_eq _ ▸ plain.single⟩
  · constructor
    · rw [perm.mem_iff]
      exact asks.printTree
    · rw [perm.mem_iff]
      exact asks.describe
    · intro name
      rw [perm.mem_iff]
      exact asks.file name

/-- **The first decisive argument decides**, and otherwise the order does not matter. A command line
is a run exactly if its arguments are flags and at most one operand; then a flag holds exactly if it
stands somewhere, the input is the file of the operand, or else standard input, and so it is in any
order. Otherwise an argument decides: it asks for help or the version, is unknown, or is an operand
behind another one. The leftmost of these is the outcome, whatever follows it. -/
theorem first_decisive_argument (arguments : List String) :
    ((∃ options, ofArguments arguments = .ok (.run options)) ↔ Plain arguments) ∧
    (∀ options, ofArguments arguments = .ok (.run options) →
      Asks arguments options ∧
        ∀ others, others.Perm arguments → ofArguments others = .ok (.run options)) ∧
    (¬Plain arguments → ∃ before a after outcome, arguments = before ++ a :: after ∧
      Undecided before ∧ Decides before a outcome) ∧
    ∀ before a after outcome, arguments = before ++ a :: after → Undecided before →
      Decides before a outcome →
      ofArguments arguments = outcome ∧ ∀ others, ofArguments (before ++ a :: others) = outcome := by
  refine ⟨⟨?_, ?_⟩, ?_, ?_, ?_⟩
  · rintro ⟨options, run⟩
    exact (ofArguments_eq_run_iff.mp run).1
  · intro plain
    obtain ⟨options, asks⟩ := plain.exists_asks
    exact ⟨options, ofArguments_eq_run_iff.mpr ⟨plain, asks⟩⟩
  · intro options run
    exact ⟨(ofArguments_eq_run_iff.mp run).2, fun others perm => ofArguments_perm run perm⟩
  · intro notPlain
    exact exists_decides fun undecided => notPlain (plain_iff_undecided.mpr undecided)
  · rintro before a after outcome rfl first decides
    exact ⟨first.ofArguments decides after, fun others => first.ofArguments decides others⟩

/-- Behind a flag and a file the version is asked for, and an unknown option comes too late. Without
these two the arguments are a run in any order. -/
theorem version_is_decisive :
    ofArguments ["--describe", "prog.json", "-V", "--bogus"] = .ok .version ∧
      ofArguments ["prog.json", "--describe"] = .ok (.run ⟨.file "prog.json", false, true⟩) := by
  have plain : Plain ["--describe", "prog.json"] := ⟨by decide, by decide⟩
  constructor
  · have decided := (first_decisive_argument _).2.2.2 ["--describe", "prog.json"] "-V" ["--bogus"]
      (.ok .version) rfl (plain_iff_undecided.mp plain) (.version (.inl rfl))
    exact decided.1
  · have run : ofArguments ["--describe", "prog.json"] =
        .ok (.run ⟨.file "prog.json", false, true⟩) := by decide
    exact ((first_decisive_argument _).2.1 _ run).2 _ (.swap _ _ _)

end LexCell.Command
