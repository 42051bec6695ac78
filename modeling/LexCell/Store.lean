import LexCell.Heap

/-!
# Environments over one heap

A `Store` is a heap together with the environments that were made over it, in the order of their
making. An environment never changes once made: extending one makes another. What changes is the
cells, and a change is seen by every environment that holds the slot.
-/

namespace LexCell

/-- A heap and the environments over it; environment `0` is the empty one. -/
structure Store where
  heap : Heap
  environments : Array Environment

namespace Store

def initial : Store := ⟨Heap.empty, #[Environment.empty]⟩

def alloc (st : Store) (v : Value) : Slot × Store :=
  let (s, heap) := st.heap.alloc v
  (s, { st with heap })

def set? (st : Store) (s : Slot) (v : Value) : Option Store := do
  let heap ← st.heap.set? s v
  some { st with heap }

def add (st : Store) (env : Environment) : Nat × Store :=
  (st.environments.size, { st with environments := st.environments.push env })

def fork? (st : Store) (e : Nat) : Option (Nat × Store) := do
  some (st.add (← st.environments[e]?))

/-- Environment `e` with one more variable: the new environment's index and the new cell. -/
def extend? (st : Store) (e : Nat) (n : Name) (v : Value) : Option (Nat × Slot × Store) := do
  let (env, heap) := (← st.environments[e]?).extend n v st.heap
  let (e', st) := { st with heap }.add env
  some (e', ← env.resolve n, st)

/-- A new variable has the slot after all others. Its environment is that of `e` with the variable
bound, whether or not the name was bound before. -/
theorem extend?_eq {st : Store} {e : Nat} {env : Environment} (h : st.environments[e]? = some env)
    (n : Name) (v : Value) :
    st.extend? e n v =
      some (st.environments.size, ⟨st.heap.size⟩,
        ⟨(st.heap.alloc v).2, st.environments.push (env.bind n ⟨st.heap.size⟩)⟩) := by
  have resolved : (env.bind n ⟨st.heap.size⟩).resolve n = some ⟨st.heap.size⟩ := by simp
  simp only [extend?, h, Option.bind_eq_bind, Option.bind_some, Environment.extend_fst,
    Environment.extend_snd, resolved, add]

end Store

end LexCell
