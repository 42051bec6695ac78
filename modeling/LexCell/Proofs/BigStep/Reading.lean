import LexCell.Eval
import LexCell.Proofs.Arena.ReadBack
import LexCell.Proofs.BigStep
import LexCell.Proofs.Machine

/-!
# Values read as tree values

A value reads as a tree value when they are the same up to the bodies of functions: where the one
has a node, the other has the tree below it. Heaps are read cell by cell, and of an error the node
at fault. A value has at most one reading, and reading commutes with all that evaluation does to
values and heaps.
-/

namespace LexCell

/-! ### Readings

Only functions need the arena. The body of a function is a node on one side and the tree below it on
the other; everything else is the same on both. -/

inductive Value.Reads (a : Arena) : Value → TreeValue → Prop where
  | number (n : Int64) : Reads a (.number n) (.number n)
  | boolean (b : Bool) : Reads a (.boolean b) (.boolean b)
  | function {env : Environment} {param : Name} {body : NodeId} {t : Tree Name} :
      a.tree? body = some t → Reads a (.function ⟨env, param, body⟩) (.function env param t)
  | void : Reads a .void .void

structure Heap.Reads (a : Arena) (h : Heap) (cs : Cells) : Prop where
  size : h.size = cs.length
  cell : ∀ {s : Slot} {v w}, h.get? s = some v → cs[s.index]? = some w → v.Reads a w

/-- A stop for a reference that dangles has no reading. -/
inductive OutcomeReads (a : Arena) : Except Stop Value → Except Fault TreeValue → Prop where
  | ok {v : Value} {w : TreeValue} : v.Reads a w → OutcomeReads a (.ok v) (.ok w)
  | error {c : EvalError.Cause} {id : NodeId} {t : Tree Name} :
      a.tree? id = some t → OutcomeReads a (.error (.error ⟨c, some id⟩)) (.error ⟨c, t⟩)

variable {a : Arena}

namespace Value.Reads

/-- A value has one reading at most. -/
theorem functional {v : Value} {w w' : TreeValue} (h : v.Reads a w) (h' : v.Reads a w') :
    w = w' := by
  cases h with
  | function ht =>
      cases h' with
      | function ht' =>
          rw [ht] at ht'
          cases ht'
          rfl
  | _ =>
      cases h'
      rfl

/-- Readings are of the same kind. -/
theorem kind {v : Value} {w : TreeValue} (h : v.Reads a w) : v.kind = w.kind := by
  cases h <;> rfl

theorem exists_boolean {v : Value} {w : TreeValue} (h : v.Reads a w) (hk : w.kind = .boolean) :
    ∃ b, v = .boolean b ∧ w = .boolean b := by
  cases h with
  | boolean b => exact ⟨b, rfl, rfl⟩
  | _ => cases hk

theorem exists_function {v : Value} {w : TreeValue} (h : v.Reads a w) (hk : w.kind = .function) :
    ∃ c t, v = .function c ∧ w = .function c.env c.param t ∧ a.tree? c.body = some t := by
  cases h with
  | function ht => exact ⟨_, _, rfl, rfl, ht⟩
  | _ => cases hk

end Value.Reads

/-- So has an outcome. -/
theorem OutcomeReads.functional {r : Except Stop Value} {out out' : Except Fault TreeValue}
    (h : OutcomeReads a r out) (h' : OutcomeReads a r out') : out = out' := by
  cases h with
  | ok hv =>
      cases h' with
      | ok hv' => rw [hv.functional hv']
  | error ht =>
      cases h' with
      | error ht' =>
          rw [ht] at ht'
          cases ht'
          rfl

/-! ### Outcomes by their form

An outcome reads as a value exactly if it is one, and as a fault exactly if it is an error. Each
side determines the other. -/

theorem OutcomeReads.exists_ok {r : Except Stop Value} {w : TreeValue}
    (h : OutcomeReads a r (.ok w)) : ∃ v, r = .ok v ∧ v.Reads a w := by
  cases h with
  | ok hv => exact ⟨_, rfl, hv⟩

theorem OutcomeReads.exists_error {r : Except Stop Value} {f : Fault}
    (h : OutcomeReads a r (.error f)) : ∃ e, r = .error e := by
  cases h with
  | error ht => exact ⟨_, rfl⟩

theorem OutcomeReads.exists_value {v : Value} {out : Except Fault TreeValue}
    (h : OutcomeReads a (.ok v) out) : ∃ w, out = .ok w ∧ v.Reads a w := by
  cases h with
  | ok hv => exact ⟨_, rfl, hv⟩

theorem OutcomeReads.exists_fault {e : Stop} {out : Except Fault TreeValue}
    (h : OutcomeReads a (.error e) out) : ∃ f, out = .error f := by
  cases h with
  | error ht => exact ⟨_, rfl⟩

/-! ### Heaps

A heap and a list of cells that read alike are of one size, so a slot is in the one exactly if its
index is in the other; the operations on both sides keep that. -/

namespace Heap.Reads

variable {h : Heap} {cs : Cells}

theorem empty : Heap.empty.Reads a [] := ⟨rfl, nofun⟩

/-- A cell of the heap and that of the list. -/
theorem exists_get? (hr : h.Reads a cs) {s : Slot} {w : TreeValue} (hw : cs[s.index]? = some w) :
    ∃ v, h.get? s = some v ∧ v.Reads a w := by
  have hs : s.index < h.size := by
    rw [hr.size]
    exact (List.getElem?_eq_some_iff.mp hw).1
  have hv : h.get? s = some h.cells[s.index] := Array.getElem?_eq_getElem hs
  exact ⟨_, hv, hr.cell hv hw⟩

/-- The other way round, a cell of the list for one of the heap. -/
theorem exists_cell (hr : h.Reads a cs) {s : Slot} {v : Value} (hv : h.get? s = some v) :
    ∃ w, cs[s.index]? = some w ∧ v.Reads a w := by
  have hs : s.index < cs.length := by
    rw [← hr.size]
    exact (Array.getElem?_eq_some_iff.mp hv).1
  have hw : cs[s.index]? = some cs[s.index] := List.getElem?_eq_getElem hs
  exact ⟨_, hw, hr.cell hv hw⟩

/-- The list of cells is determined by the heap. -/
theorem functional {cs' : Cells} (hr : h.Reads a cs) (hr' : h.Reads a cs') : cs = cs' := by
  refine List.ext_getElem? fun i => ?_
  -- Past the end of the heap both lists have ended, for all three are of one size.
  rcases hv : h.get? ⟨i⟩ with _ | v
  · have hi : h.size ≤ i := Array.getElem?_eq_none_iff.mp hv
    rw [List.getElem?_eq_none (hr.size ▸ hi), List.getElem?_eq_none (hr'.size ▸ hi)]
  · obtain ⟨w, hw, hvw⟩ := hr.exists_cell hv
    obtain ⟨w', hw', hvw'⟩ := hr'.exists_cell hv
    rw [hw, hw', hvw.functional hvw']

/-- A new cell has the slot after all others. -/
theorem slot_alloc (hr : h.Reads a cs) (v : Value) : (h.alloc v).1 = ⟨cs.length⟩ :=
  congrArg Slot.mk hr.size

theorem alloc (hr : h.Reads a cs) {v : Value} {w : TreeValue} (hv : v.Reads a w) :
    (h.alloc v).2.Reads a (cs ++ [w]) := by
  constructor
  · rw [Heap.size_alloc, hr.size, List.length_append]
    rfl
  · intro s v' w' hv' hw'
    rw [Heap.get?_alloc, hr.size] at hv'
    -- The new cell reads as the new value, the others read as before.
    by_cases hs : s.index = cs.length
    · rw [if_pos hs] at hv'
      rw [hs, List.getElem?_append_right (Nat.le_refl _), Nat.sub_self] at hw'
      cases hv'
      cases hw'
      exact hv
    · rw [if_neg hs] at hv'
      have hlt : s.index < h.size := (Array.getElem?_eq_some_iff.mp hv').1
      rw [List.getElem?_append_left (hr.size ▸ hlt)] at hw'
      exact hr.cell hv' hw'

theorem set (hr : h.Reads a cs) {v : Value} {w : TreeValue} (hv : v.Reads a w) {s : Slot}
    {h' : Heap} (e : h.set? s v = some h') : h'.Reads a (cs.set s.index w) := by
  constructor
  · rw [Heap.size_of_set? e, hr.size, List.length_set]
  · intro s' v' w' hv' hw'
    rw [Heap.get?_of_set? e] at hv'
    rw [List.getElem?_set] at hw'
    by_cases hs : s' = s
    · subst hs
      rw [if_pos rfl] at hv' hw'
      split at hw'
      · cases hv'
        cases hw'
        exact hv
      · cases hw'
    · rw [if_neg hs] at hv'
      -- The list knows a slot by its index only.
      rw [if_neg fun e => hs (congrArg Slot.mk e.symm)] at hw'
      exact hr.cell hv' hw'

/-- A cell that is there can be overwritten. -/
theorem exists_set? (hr : h.Reads a cs) {v : Value} {w : TreeValue} (hv : v.Reads a w) {s : Slot}
    (hs : s.index < cs.length) : ∃ h', h.set? s v = some h' ∧ h'.Reads a (cs.set s.index w) := by
  rw [← hr.size] at hs
  have e : h.set? s v = some ⟨h.cells.setIfInBounds s.index v⟩ := if_pos hs
  exact ⟨_, e, hr.set hv e⟩

/-- A heap has a reading if all its functions have bodies in the arena. -/
theorem of_bodies (ha : a.Ordered)
    (hb : ∀ s c, h.get? s = some (.function c) → c.body.index < a.size) :
    ∃ cs, h.Reads a cs := by
  -- Only functions can fail to have a reading, and their bodies are in range.
  have reading (v : Value) (hv : v ∈ h.cells.toList) : ∃ w, v.Reads a w := by
    cases v with
    | number n => exact ⟨_, .number n⟩
    | boolean b => exact ⟨_, .boolean b⟩
    | void => exact ⟨_, .void⟩
    | function c =>
        obtain ⟨i, hi⟩ := List.getElem?_of_mem hv
        rw [Array.getElem?_toList] at hi
        obtain ⟨t, ht⟩ := ha.exists_tree? (hb ⟨i⟩ c hi)
        exact ⟨_, .function ht⟩
  obtain ⟨cs, hcs⟩ := List.exists_forall₂ reading
  -- The readings were collected in the order of the slots.
  refine ⟨cs, hcs.length_eq, ?_⟩
  intro s v w hv hw
  rw [Heap.get?, ← Array.getElem?_toList] at hv
  obtain ⟨hi, rfl⟩ := List.getElem?_eq_some_iff.mp hv
  obtain ⟨hj, rfl⟩ := List.getElem?_eq_some_iff.mp hw
  exact hcs.get hi hj

end Heap.Reads

/-! ### Operators

Operators do not look into functions, so they commute with reading. The one thing to see is that
machine words and integers that are taken back into words give the same results. -/

inductive ResultReads (a : Arena) :
    Except EvalError.Cause Value → Except EvalError.Cause TreeValue → Prop where
  | ok {v : Value} {w : TreeValue} : v.Reads a w → ResultReads a (.ok v) (.ok w)
  | error (c : EvalError.Cause) : ResultReads a (.error c) (.error c)

/-- The result of an operation at a node reads as that at its tree. -/
theorem ResultReads.outcomeAt {x : Except EvalError.Cause Value}
    {y : Except EvalError.Cause TreeValue} (h : ResultReads a x y) {id : NodeId} {t : Tree Name}
    (ht : a.tree? id = some t) : OutcomeReads a (Stop.outcomeAt id x) (Fault.at t y) := by
  cases h with
  | ok hv => exact .ok hv
  | error c => exact .error ht

/-- Unary plus is the absolute value, also of the least number, which is its own. -/
private theorem abs_eq (n : Int64) : Int64.ofInt n.toInt.natAbs = if n < 0 then -n else n := by
  rw [Int64.ofInt_eq_iff_bmod_eq_toInt]
  by_cases hn : n < 0
  · rw [if_pos hn, Int64.toInt_neg]
    rw [Int64.lt_iff_toInt_lt, Int64.toInt_zero] at hn
    rw [Int.ofNat_natAbs_of_nonpos (Int.le_of_lt hn)]
  · rw [if_neg hn]
    rw [Int64.lt_iff_toInt_lt, Int64.toInt_zero] at hn
    rw [Int.natAbs_of_nonneg (Int.not_lt.mp hn)]
    exact Int64.toInt_bmod n

/-- Unary operators give the same result, or stop for the same cause. -/
theorem UnaryOp.apply_reads (op : UnaryOp) {v : Value} {w : TreeValue} (h : v.Reads a w) :
    ResultReads a (op.apply v) (op.meaning w) := by
  cases h with
  | number n =>
      cases op with
      | not => exact .error _
      | plus =>
          show ResultReads a _ (.ok (.number (Int64.ofInt n.toInt.natAbs)))
          rw [abs_eq]
          exact .ok (.number _)
      | minus => exact .ok (.number n)
  | boolean b =>
      cases op with
      | not => exact .ok (.boolean _)
      | plus | minus => exact .error _
  | function | void => cases op <;> exact .error _

/-- On numbers, binary operators agree with the integers. -/
theorem BinaryOp.applyNumbers_reads (op : BinaryOp) (m n : Int64) :
    ResultReads a (op.applyNumbers m n) (op.onIntegers m.toInt n.toInt) := by
  have eq_iff : (m == n) = decide (m.toInt = n.toInt) := by
    rw [beq_eq_decide, decide_eq_decide]
    exact Int64.toInt_inj.symm
  -- Words wrap where integers do not, and `Int64.ofInt` wraps the integers' result in the same way.
  cases op with
  | add =>
      unfold BinaryOp.onIntegers
      rw [Int64.ofInt_add, Int64.ofInt_toInt, Int64.ofInt_toInt]
      exact .ok (.number _)
  | sub =>
      unfold BinaryOp.onIntegers
      rw [Int64.ofInt_sub, Int64.ofInt_toInt, Int64.ofInt_toInt]
      exact .ok (.number _)
  | mul =>
      unfold BinaryOp.onIntegers
      rw [Int64.ofInt_mul, Int64.ofInt_toInt, Int64.ofInt_toInt]
      exact .ok (.number _)
  | div =>
      unfold BinaryOp.onIntegers BinaryOp.applyNumbers
      have zero : n.toInt = 0 ↔ n = 0 := by rw [← Int64.toInt_inj, Int64.toInt_zero]
      by_cases hn : n = 0
      · rw [if_pos hn, if_pos (zero.mpr hn)]
        exact .error _
      · rw [if_neg hn, if_neg (mt zero.mp hn)]
        -- The one quotient that is too large, of the least number by -1, wraps on both sides.
        rw [(Int64.ofInt_eq_iff_bmod_eq_toInt _ (m / n)).mpr (Int64.toInt_div m n).symm]
        exact .ok (.number _)
  | eq =>
      unfold BinaryOp.onIntegers BinaryOp.applyNumbers
      rw [eq_iff]
      exact .ok (.boolean _)
  | ne =>
      unfold BinaryOp.onIntegers BinaryOp.applyNumbers
      rw [bne, eq_iff, ← decide_not]
      exact .ok (.boolean _)
  | lt =>
      unfold BinaryOp.onIntegers BinaryOp.applyNumbers
      rw [decide_eq_decide.mpr Int64.lt_iff_toInt_lt]
      exact .ok (.boolean _)
  | le =>
      unfold BinaryOp.onIntegers BinaryOp.applyNumbers
      rw [decide_eq_decide.mpr Int64.le_iff_toInt_le]
      exact .ok (.boolean _)
  | gt =>
      unfold BinaryOp.onIntegers BinaryOp.applyNumbers
      rw [decide_eq_decide.mpr (Int64.lt_iff_toInt_lt : n < m ↔ _)]
      exact .ok (.boolean _)
  | ge =>
      unfold BinaryOp.onIntegers BinaryOp.applyNumbers
      rw [decide_eq_decide.mpr (Int64.le_iff_toInt_le : n ≤ m ↔ _)]
      exact .ok (.boolean _)

theorem BinaryOp.apply_reads (op : BinaryOp) {v v' : Value} {w w' : TreeValue}
    (h : v.Reads a w) (h' : v'.Reads a w') :
    ResultReads a (op.apply v v') (op.meaning w w') := by
  -- The first operand that is no number stops the operation on both sides.
  cases h with
  | number m =>
      cases h' with
      | number n => exact op.applyNumbers_reads m n
      | _ => exact .error _
  | _ => exact .error _

end LexCell
