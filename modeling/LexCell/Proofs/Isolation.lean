import LexCell.Proofs.Correspondence

/-!
# Runs that share a heap

A run starts with nothing visible, so of a heap that has cells already it gets to see none: it does
what it does in an empty heap, with every slot moved up by the number of these cells, and leaves
them as they are (`Context.runs_are_isolated`).

Moving slots commutes with everything that a run does to environments and heaps, so the two runs
correspond (`Correspondence.above`).
-/

namespace LexCell

/-! ### Moving slots

The same cells at other slots: wherever a slot occurs, in environments, functions and heaps, it is
moved by the same number. -/

def Slot.shift (k : Nat) (s : Slot) : Slot := ⟨s.index + k⟩

def Environment.shift (k : Nat) (env : Environment) : Environment :=
  ⟨env.entries.map (Prod.map id (Slot.shift k)), List.pairwise_map.mpr env.sorted⟩

def Closure.shift (k : Nat) (c : Closure) : Closure := { c with env := c.env.shift k }

/-- Only functions hold slots. -/
def Value.shift (k : Nat) : Value → Value
  | .function c => .function (c.shift k)
  | v => v

/-- The cells of the heap `h` above those of another, and the slots that they hold moved along. -/
def Heap.above (base h : Heap) : Heap := ⟨base.cells ++ h.cells.map (Value.shift base.size)⟩

namespace Environment

variable {k : Nat} {env : Environment}

/-- A name finds the slot that was moved. -/
theorem resolve_shift (n : Name) : (env.shift k).resolve n = (env.resolve n).map (Slot.shift k) :=
  Assoc.lookup_map (Slot.shift k) n env.entries

/-- Binding commutes with moving. -/
theorem shift_bind (n : Name) (s : Slot) :
    (env.bind n s).shift k = (env.shift k).bind n (s.shift k) := by
  simp only [shift, bind, Assoc.map_insert]

end Environment

/-- Values are alike with the slots of the one moved if they are the same but for that. -/
theorem Value.alike_shift_iff {k : Nat} {v v' : Value} :
    v.Alike Eq (fun _ env env' => env' = env.shift k) v' ↔ v' = v.shift k := by
  constructor
  · intro h
    -- Only functions hold an environment.
    cases h with
    | @function c c' param body env =>
        obtain ⟨env', param', body'⟩ := c'
        cases param
        cases body
        cases env
        rfl
    | _ => rfl
  · rintro rfl
    cases v with
    | number n => exact .number n
    | boolean b => exact .boolean b
    | function c => exact .function rfl rfl rfl
    | void => exact .void

namespace Heap

variable {base h : Heap}

theorem above_empty (base : Heap) : base.above .empty = base := by
  simp [above, empty]

/-- The sizes add up. -/
theorem size_above : (base.above h).size = base.size + h.size := by
  simp [above, size]

/-- The cells below are as they were. -/
theorem get?_above_of_lt {s : Slot} (hs : s.index < base.size) :
    (base.above h).get? s = base.get? s :=
  Array.getElem?_append_left hs

/-- The cells above are those of the other heap. -/
theorem get?_above_shift (s : Slot) :
    (base.above h).get? (s.shift base.size) = (h.get? s).map (Value.shift base.size) := by
  have up : base.size ≤ s.index + base.size := Nat.le_add_left _ _
  unfold get? above Slot.shift
  rw [Array.getElem?_append_right up, Array.getElem?_map]
  simp [size]

/-- A new cell above is the next one there, too. -/
theorem alloc_above (v : Value) :
    ((base.above h).alloc (v.shift base.size)).2 = base.above (h.alloc v).2 ∧
      ((base.above h).alloc (v.shift base.size)).1 = (h.alloc v).1.shift base.size := by
  constructor
  · simp [alloc, above]
  · exact congrArg Slot.mk (size_above.trans (Nat.add_comm _ _))

theorem set?_above_shift (s : Slot) (v : Value) :
    (base.above h).set? (s.shift base.size) (v.shift base.size) =
      (h.set? s v).map base.above := by
  have cells : (base.above h).cells.size = base.size + h.cells.size := size_above
  unfold set?
  rw [cells]
  -- The write is inside above exactly if it is inside below.
  by_cases inside : s.index < h.cells.size
  · rw [if_pos inside, if_pos (by simp only [Slot.shift]; omega)]
    simp [above, Slot.shift, size]
  · rw [if_neg inside, if_neg (by simp only [Slot.shift]; omega)]
    rfl

end Heap

/-! ### Running above other cells

Each operation of a run commutes with moving, which is all that the correspondence asks for. -/

/-- A program corresponds to itself above other cells. -/
def Correspondence.above (ctx : Context) (base : Heap) : Correspondence ctx ctx where
  names := Eq
  slots s s' := s' = s.shift base.size
  envs _ env env' := env' = env.shift base.size
  heaps h h' := h' = base.above h
  arena := .refl (fun _ => rfl) _
  texts := by
    rintro n _ rfl
    rfl
  child _ _ _ henv := henv
  resolve := by
    rintro id n x _ env _ - - rfl rfl
    rw [Environment.resolve_shift]
    cases env.resolve x with
    | none => exact .none
    | some s => exact .some rfl
  bind := by
    rintro id x _ s _ env _ rfl rfl rfl
    exact (Environment.shift_bind x s).symm
  fetch := by
    rintro h _ s _ rfl rfl
    rw [Heap.get?_above_shift]
    cases h.get? s with
    | none => exact .none
    | some v => exact .some (Value.alike_shift_iff.mpr rfl)
  store := by
    rintro h _ v v' rfl hv
    obtain rfl := Value.alike_shift_iff.mp hv
    exact Heap.alloc_above v
  overwrite := by
    rintro h _ s _ v v' rfl rfl hv
    obtain rfl := Value.alike_shift_iff.mp hv
    rw [Heap.set?_above_shift]
    cases h.set? s v with
    | none => exact .none
    | some h₁ => exact .some rfl

/-- The run of a list of statements above other cells, as an equation. -/
theorem Context.statements_above (ctx : Context) (fuel : Nat) (ids : List NodeId) (base : Heap) :
    ctx.statements (ctx.eval fuel) .void ids ⟨.empty, base⟩ =
      (ctx.statements (ctx.eval fuel) .void ids ⟨.empty, .empty⟩).map fun (r, f) =>
        (r.map (Value.shift base.size), ⟨f.env.shift base.size, base.above f.heap⟩) := by
  let C := Correspondence.above ctx base
  have start : C.Frames (fun _ => True) ⟨.empty, .empty⟩ ⟨.empty, base⟩ :=
    ⟨fun _ _ => rfl, (Heap.above_empty base).symm⟩
  have everywhere : ∀ id ∈ ids, C.Covers (fun _ => True) id :=
    fun id _ env env' henv => henv id trivial
  have run := C.run_lockstep fuel everywhere _ _ start
  -- What corresponds is determined, so the correspondence is an equation.
  have frame {f f' : Frame} (frames : C.Frames (fun _ => True) f f') :
      f' = ⟨f.env.shift base.size, base.above f.heap⟩ := by
    obtain ⟨env, heap⟩ := f'
    obtain rfl : env = f.env.shift base.size := frames.env ⟨0⟩ trivial
    obtain rfl : heap = base.above f.heap := frames.heap
    rfl
  generalize ctx.statements (ctx.eval fuel) .void ids ⟨.empty, .empty⟩ = o at run
  generalize ctx.statements (ctx.eval fuel) .void ids ⟨.empty, base⟩ = o' at run
  cases run with
  | exhausted => rfl
  | stop _ frames =>
      rw [frame frames]
      rfl
  | ok _ frames hv =>
      rw [frame frames, Value.alike_shift_iff.mp hv]
      rfl

/-- **Runs that share a heap are isolated from each other.** In a heap with cells in it, whatever
they hold, a list of statements that starts with nothing visible ends with the fuel with which it
ends in an empty heap. It leaves the cells that were there as they were; its value or stop, its
environment and its new cells are those of the run in the empty heap with every slot moved up by the
number of cells that were there. -/
theorem Context.runs_are_isolated (ctx : Context) (ids : List NodeId) (base : Heap) (fuel : Nat) :
    (ctx.statements (ctx.eval fuel) .void ids ⟨.empty, base⟩ = none ↔
        ctx.statements (ctx.eval fuel) .void ids ⟨.empty, .empty⟩ = none) ∧
      ∀ r f, ctx.statements (ctx.eval fuel) .void ids ⟨.empty, .empty⟩ = some (r, f) →
        ∃ heap, ctx.statements (ctx.eval fuel) .void ids ⟨.empty, base⟩ =
            some (r.map (Value.shift base.size), ⟨f.env.shift base.size, heap⟩) ∧
          heap.size = base.size + f.heap.size ∧
          (∀ s, s.index < base.size → heap.get? s = base.get? s) ∧
          ∀ s, heap.get? (s.shift base.size) = (f.heap.get? s).map (Value.shift base.size) := by
  rw [ctx.statements_above]
  refine ⟨Option.map_eq_none_iff, ?_⟩
  intro r f answer
  refine ⟨base.above f.heap, ?_, Heap.size_above, fun s hs => ?_, Heap.get?_above_shift⟩
  · rw [answer]
    rfl
  · exact Heap.get?_above_of_lt hs

end LexCell
