import LexCell.Command

/-!
# Reading command lines

Among arguments of which none is an operand it does not matter where the one operand stands, nor
what it is: it only becomes the input (`Command.ofArguments_insert`). Without an operand the input
is standard input, so that is what `-` asks for explicitly.
-/

namespace LexCell.Command

def on (input : Input) : Command → Command
  | .run options => .run { options with input }
  | command => command

def NoOperand (arguments : List String) : Prop :=
  ∀ a ∈ arguments, ∀ input, Argument.ofString a ≠ .operand input

variable {before after : List String}

theorem NoOperand.head {a : String} (h : NoOperand (a :: after)) (input : Input) :
    Argument.ofString a ≠ .operand input :=
  h a List.mem_cons_self input

theorem NoOperand.tail {a : String} (h : NoOperand (a :: after)) : NoOperand after :=
  fun a' ha' => h a' (List.mem_cons_of_mem a ha')

/-- An operand that was met is the input, if none follows. -/
theorem read_of_noOperand (h : NoOperand after) (options : Options) (operand : Option Input) :
    read options operand after = (read options none after).map (on (operand.getD .stdin)) := by
  -- The flags that are met change the options, so these are not fixed in the induction.
  induction after generalizing options with
  | nil => rfl
  | cons a after ih =>
      have rest := ih h.tail
      unfold read
      cases ha : Argument.ofString a with
      | help | version | unknown => rfl
      | printTree | describe => exact rest _
      -- A second operand would be an error, but there is none.
      | operand input => exact absurd ha (h.head input)

/-- The same for a reader that has met some flags already. -/
theorem read_insert {a : String} {input : Input} (ha : Argument.ofString a = .operand input)
    (h : NoOperand (before ++ after)) (options : Options) :
    read options none (before ++ a :: after) =
      (read options none (before ++ after)).map (on input) := by
  induction before generalizing options with
  | nil =>
      rw [List.nil_append, List.nil_append, read, ha]
      -- The operand comes first, so nothing has been met before it.
      exact read_of_noOperand h options (some input)
  | cons b before ih =>
      have rest := ih h.tail
      rw [List.cons_append, List.cons_append, read, read]
      cases hb : Argument.ofString b with
      | help | version | unknown => rfl
      | printTree | describe => exact rest _
      | operand input' => exact absurd hb (h.head input')

/-- **The operand may stand anywhere**, and only becomes the input. -/
theorem ofArguments_insert {a : String} {input : Input}
    (ha : Argument.ofString a = .operand input) (h : NoOperand (before ++ after)) :
    ofArguments (before ++ a :: after) = (ofArguments (before ++ after)).map (on input) :=
  read_insert ha h {}

/-- Without an operand the input is standard input. -/
theorem input_of_noOperand (h : NoOperand after) {options : Options}
    (run : ofArguments after = .ok (.run options)) : options.input = .stdin := by
  -- Nothing was met, so the input is what is taken by default.
  have stdin := read_of_noOperand h {} none
  unfold ofArguments at run
  rw [run] at stdin
  injection stdin with stdin
  injection stdin with stdin
  rw [stdin]
  rfl

end LexCell.Command
