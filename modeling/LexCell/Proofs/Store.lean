import LexCell.Store
import Mathlib.Data.List.Dedup
import Mathlib.Data.List.Perm.Basic

/-!
# What was written is what is read

A history of a store lists what was done to it and what was answered, the latest first. What can be
read from the store at its end is told by the history alone: environments are told by their chains
of ancestors (`Store.chain`), cells by what was last written to them (`Store.value?`). Neither looks
at a heap or at an environment.

What one call does is said once (`Store.Does`). From this follow that chains and cells go on to tell
what the store holds (`Store.Recorded`), that environments stay as they are (`After.environment`),
and with them all that a user sees (`Store.reads_follow_history`).
-/

/-- The keys are what a look-up finds. -/
theorem List.mem_map_fst_iff {κ ν : Type} [DecidableEq κ] {xs : List (κ × ν)} {k : κ} :
    k ∈ xs.map Prod.fst ↔ (xs.lookup k).isSome := by
  rw [List.lookup_isSome_iff, List.mem_map]
  simp only [beq_iff_eq]
  grind

namespace LexCell

namespace Store

/-! ### Calls and histories -/

/-- What can be asked for. A cell is written to by its slot, or by a name that an environment has
for it. -/
inductive Call where
  | alloc (v : Value)
  | set (s : Slot) (v : Value)
  | assign (e : Nat) (n : Name) (v : Value)
  | extend (e : Nat) (n : Name) (v : Value)
  | fork (e : Nat)
  deriving DecidableEq

inductive Event where
  /-- The cell was made. -/
  | allocated (s : Slot) (v : Value)
  /-- The cell was written to. -/
  | written (s : Slot) (v : Value)
  /-- The environment `e'` was made from `e` with a variable, and the cell for it. -/
  | extended (e : Nat) (n : Name) (v : Value) (e' : Nat) (s : Slot)
  /-- The environment `e'` was made from `e`. -/
  | forked (e e' : Nat)
  deriving DecidableEq

/-- Answers a call; `none` if there is no such cell, environment or variable. -/
def call? (st : Store) : Call → Option (Event × Store)
  | .alloc v =>
      let (s, st) := st.alloc v
      some (.allocated s v, st)
  | .set s v => do
      let st ← st.set? s v
      some (.written s v, st)
  | .assign e n v => do
      let env ← st.environments[e]?
      let s ← env.resolve n
      let st ← st.set? s v
      some (.written s v, st)
  | .extend e n v => do
      let (e', s, st) ← st.extend? e n v
      some (.extended e n v e' s, st)
  | .fork e => do
      let (e', st) ← st.fork? e
      some (.forked e e', st)

/-- The second store is what calls make of the first, and they did what the history says. -/
inductive After (st : Store) : List Event → Store → Prop where
  | nil : After st [] st
  | cons {es : List Event} {ev : Event} {st₁ st₂ : Store} {c : Call} :
      After st es st₁ → st₁.call? c = some (ev, st₂) → After st (ev :: es) st₂

/-! ### What the history tells -/

namespace Event

def slot? : Event → Option Slot
  | allocated s _ | extended _ _ _ _ s => some s
  | _ => none

def environment? : Event → Option Nat
  | extended _ _ _ e' _ | forked _ e' => some e'
  | _ => none

def initial? (s : Slot) : Event → Option Value
  | allocated s' v | extended _ _ v _ s' => if s = s' then some v else none
  | _ => none

def written? (s : Slot) : Event → Option Value
  | written s' v => if s = s' then some v else none
  | _ => none

end Event

/-- The variables with which an environment and its ancestors were extended, the latest first. -/
def chain : List Event → Nat → List (Name × Slot)
  | [], _ => []
  | .extended e n _ e' s :: es, k => if k = e' then (n, s) :: chain es e else chain es k
  | .forked e e' :: es, k => if k = e' then chain es e else chain es k
  | _ :: es, k => chain es k

/-- The value last written to a cell, or else its first value. -/
def value? (es : List Event) (s : Slot) : Option Value :=
  (es.findSome? (Event.written? s)).or (es.findSome? (Event.initial? s))

/-! ### What a call does -/

/-- What a call does and what it leaves. -/
inductive Does (st : Store) : Call → Event → Store → Prop where
  | alloc (v : Value) :
      Does st (.alloc v) (.allocated ⟨st.heap.size⟩ v) ⟨(st.heap.alloc v).2, st.environments⟩
  | set {s : Slot} {v : Value} {h : Heap} : st.heap.set? s v = some h →
      Does st (.set s v) (.written s v) ⟨h, st.environments⟩
  | assign {e : Nat} {env : Environment} {n : Name} {s : Slot} {v : Value} {h : Heap} :
      st.environments[e]? = some env → env.resolve n = some s → st.heap.set? s v = some h →
      Does st (.assign e n v) (.written s v) ⟨h, st.environments⟩
  | extend {e : Nat} {env : Environment} (n : Name) (v : Value) : st.environments[e]? = some env →
      Does st (.extend e n v) (.extended e n v st.environments.size ⟨st.heap.size⟩)
        ⟨(st.heap.alloc v).2, st.environments.push (env.bind n ⟨st.heap.size⟩)⟩
  | fork {e : Nat} {env : Environment} : st.environments[e]? = some env →
      Does st (.fork e) (.forked e st.environments.size) ⟨st.heap, st.environments.push env⟩

variable {st st' : Store} {c : Call} {es : List Event} {ev : Event}

/-- Writing to a cell leaves the environments as they are. -/
theorem set?_eq_some {s : Slot} {v : Value} (set : st.set? s v = some st') :
    ∃ h, st.heap.set? s v = some h ∧ st' = ⟨h, st.environments⟩ := by
  obtain ⟨h, written, same⟩ := Option.bind_eq_some_iff.mp set
  exact ⟨h, written, (Option.some.inj same).symm⟩

theorem does_of_call? (called : st.call? c = some (ev, st')) : st.Does c ev st' := by
  cases c with
  | alloc v =>
      cases called
      exact .alloc v
  | set s v =>
      obtain ⟨st₁, set, same⟩ := Option.bind_eq_some_iff.mp called
      obtain ⟨h, written, rfl⟩ := set?_eq_some set
      cases same
      exact .set written
  | assign e n v =>
      obtain ⟨env, henv, called⟩ := Option.bind_eq_some_iff.mp called
      obtain ⟨s, hs, called⟩ := Option.bind_eq_some_iff.mp called
      obtain ⟨st₁, set, same⟩ := Option.bind_eq_some_iff.mp called
      obtain ⟨h, written, rfl⟩ := set?_eq_some set
      cases same
      exact .assign henv hs written
  | extend e n v =>
      obtain ⟨⟨e', s, st₁⟩, extended, same⟩ := Option.bind_eq_some_iff.mp called
      obtain ⟨env, henv, -⟩ := Option.bind_eq_some_iff.mp extended
      rw [Store.extend?_eq henv] at extended
      cases same
      cases extended
      exact .extend n v henv
  | fork e =>
      obtain ⟨⟨e', st₁⟩, forked, same⟩ := Option.bind_eq_some_iff.mp called
      obtain ⟨env, henv, same'⟩ := Option.bind_eq_some_iff.mp forked
      cases same
      cases same'
      exact .fork henv

theorem Does.call?_eq (h : st.Does c ev st') : st.call? c = some (ev, st') := by
  cases h with
  | alloc v => rfl
  | set written => simp [call?, Store.set?, written]
  | assign henv hs written => simp [call?, Store.set?, henv, hs, written]
  | extend n v henv =>
      rw [call?, Store.extend?_eq henv]
      rfl
  | fork henv =>
      simp only [call?, Store.fork?, henv]
      rfl

/-! ### What the history goes on to tell -/

structure Recorded (es : List Event) (st : Store) : Prop where
  slots : es.filterMap Event.slot? = (List.range st.heap.size).reverse.map Slot.mk
  made : ∀ e, e < st.environments.size ↔ e = 0 ∨ e ∈ es.filterMap Event.environment?
  cells : ∀ s, st.heap.get? s = value? es s
  chains : ∀ e env, st.environments[e]? = some env → ∀ n, env.resolve n = (chain es e).lookup n
  inside : ∀ e, ∀ p ∈ chain es e, p.2.index < st.heap.size

theorem initial_recorded : Recorded [] initial := by
  constructor
  · rfl
  · intro e
    show e < 1 ↔ _
    simp
  · intro s
    rfl
  · intro e env henv n
    obtain ⟨hlt, here⟩ := Array.getElem?_eq_some_iff.mp henv
    -- There is one environment from the start.
    have empty : env = Environment.empty := by
      rw [← here]
      exact Array.eq_of_mem_singleton (Array.getElem_mem _)
    rw [empty]
    rfl
  · intro e p hp
    cases hp

/-- A new cell holds its first value. -/
theorem value?_of_made {s₀ : Slot} {v : Value} (fresh : value? es s₀ = none)
    (unwritten : ∀ s, ev.written? s = none)
    (first : ∀ s, ev.initial? s = if s = s₀ then some v else none) (s : Slot) :
    value? (ev :: es) s = if s = s₀ then some v else value? es s := by
  unfold value?
  simp only [List.findSome?_cons, unwritten, first]
  -- It is the first event that has a value for the new cell, and it has none for another.
  by_cases same : s = s₀
  · rw [if_pos same, if_pos same, same, (Option.or_eq_none_iff.mp fresh).1]
    rfl
  · rw [if_neg same, if_neg same]

namespace Recorded

variable (recorded : Recorded es st)

include recorded

/-- The next cell has no value yet. -/
theorem fresh : value? es ⟨st.heap.size⟩ = none := by
  rw [← recorded.cells]
  exact Array.getElem?_eq_none (Nat.le_refl _)

theorem cells_alloc {v : Value} (unwritten : ∀ s, ev.written? s = none)
    (first : ∀ s, ev.initial? s = if s = ⟨st.heap.size⟩ then some v else none) (s : Slot) :
    (st.heap.alloc v).2.get? s = value? (ev :: es) s := by
  rw [value?_of_made recorded.fresh unwritten first, Heap.get?_alloc, recorded.cells]
  obtain ⟨i⟩ := s
  simp only [Slot.mk.injEq]

theorem slots_alloc (h : ev.slot? = some ⟨st.heap.size⟩) (v : Value) :
    (ev :: es).filterMap Event.slot? =
      (List.range (st.heap.alloc v).2.size).reverse.map Slot.mk := by
  rw [List.filterMap_cons_some h, recorded.slots, Heap.size_alloc, List.range_succ]
  simp

theorem cells_written {s : Slot} {v : Value} {h : Heap} (set : st.heap.set? s v = some h)
    (s' : Slot) : h.get? s' = value? (.written s v :: es) s' := by
  rw [Heap.get?_of_set? set, recorded.cells]
  unfold value?
  simp only [List.findSome?_cons, Event.written?, Event.initial?]
  split
  · rfl
  · rfl

theorem inside_of_le {size : Nat} (hle : st.heap.size ≤ size) (e : Nat) :
    ∀ p ∈ chain es e, p.2.index < size := by
  intro p hp
  exact Nat.lt_of_lt_of_le (recorded.inside e p hp) hle

/-- A further environment with a chain of its own. -/
theorem chains_push {new : Environment} {xs : List (Name × Slot)}
    (told : ∀ n, new.resolve n = xs.lookup n) (k : Nat) (env : Environment)
    (here : (st.environments.push new)[k]? = some env) (n : Name) :
    env.resolve n = (if k = st.environments.size then xs else chain es k).lookup n := by
  rw [Array.getElem?_push] at here
  -- The environment is the new one, or one that was there with the chain it had.
  split at here
  · next same =>
    cases here
    rw [if_pos same]
    exact told n
  · next other =>
    rw [if_neg other]
    exact recorded.chains k env here n

theorem inside_push {xs : List (Name × Slot)} {size : Nat} (hle : st.heap.size ≤ size)
    (within : ∀ p ∈ xs, p.2.index < size) (k e' : Nat) :
    ∀ p ∈ if k = e' then xs else chain es k, p.2.index < size := by
  split
  · exact within
  · exact recorded.inside_of_le hle k

theorem made_push (h : ev.environment? = some st.environments.size) (env : Environment) (e : Nat) :
    e < (st.environments.push env).size ↔
      e = 0 ∨ e ∈ (ev :: es).filterMap Event.environment? := by
  rw [Array.size_push, List.filterMap_cons_some h, List.mem_cons]
  have made := recorded.made e
  grind

/-- After a call the history, with what was done in front, tells what the store holds then. -/
theorem does (h : st.Does c ev st') : Recorded (ev :: es) st' := by
  have grown (v : Value) : st.heap.size ≤ (st.heap.alloc v).2.size := by
    rw [Heap.size_alloc]
    exact Nat.le_succ _
  cases h with
  | alloc v =>
      refine ⟨recorded.slots_alloc rfl v, recorded.made, ?_, recorded.chains, ?_⟩
      · exact recorded.cells_alloc (fun _ => rfl) fun _ => rfl
      · exact recorded.inside_of_le (grown v)
  | @set _ _ h set | @assign _ _ _ _ _ h _ _ set =>
      have size : h.size = st.heap.size := Heap.size_of_set? set
      -- By its slot or by a name, the write does the same: it changes one cell and nothing else.
      refine ⟨?_, recorded.made, recorded.cells_written set, recorded.chains, ?_⟩
      · show es.filterMap Event.slot? = (List.range h.size).reverse.map Slot.mk
        rw [size]
        exact recorded.slots
      · exact recorded.inside_of_le (Nat.le_of_eq size.symm)
  | @extend e env n v here =>
      refine ⟨recorded.slots_alloc rfl v, recorded.made_push rfl _, ?_, ?_, ?_⟩
      · exact recorded.cells_alloc (fun _ => rfl) fun _ => rfl
      · apply recorded.chains_push
        intro m
        rw [Environment.resolve_bind, List.lookup_cons, recorded.chains e env here]
        -- The new variable hides those of its name further up the chain.
        by_cases hm : m = n
        · rw [if_pos hm, beq_iff_eq.mpr hm]
        · rw [if_neg hm, beq_false_of_ne hm]
      · intro k
        apply recorded.inside_push (grown v)
        refine List.forall_mem_cons.mpr ⟨?_, ?_⟩
        · show st.heap.size < (st.heap.alloc v).2.size
          rw [Heap.size_alloc]
          exact Nat.lt_succ_self _
        · exact recorded.inside_of_le (grown v) e
  | @fork e env here =>
      refine ⟨recorded.slots, recorded.made_push rfl _, recorded.cells, ?_, ?_⟩
      · exact recorded.chains_push (recorded.chains e env here)
      · intro k
        exact recorded.inside_push (Nat.le_refl _) (recorded.inside e) k _

end Recorded

theorem After.recorded (h : st.After es st') (start : Recorded [] st) : Recorded es st' := by
  induction h with
  | nil => exact start
  | cons _ called ih => exact ih.does (does_of_call? called)

/-! ### What stays -/

/-- An environment that is there stays what it is, and later events do not belong to its chain. -/
theorem Does.environment (h : st.Does c ev st') {e : Nat} {env : Environment}
    (here : st.environments[e]? = some env) :
    st'.environments[e]? = some env ∧ ∀ es, chain (ev :: es) e = chain es e := by
  have inside := (Array.getElem?_eq_some_iff.mp here).1
  cases h with
  | alloc | set | assign => exact ⟨here, fun _ => rfl⟩
  | extend | fork =>
      constructor
      · rw [Array.getElem?_push, if_neg (Nat.ne_of_lt inside)]
        exact here
      · intro es
        exact if_neg (Nat.ne_of_lt inside)

theorem After.environment {es' : List Event} (h : st.After es' st') {e : Nat} {env : Environment}
    (here : st.environments[e]? = some env) (es : List Event) :
    st'.environments[e]? = some env ∧ chain (es' ++ es) e = chain es e := by
  induction h with
  | nil => exact ⟨here, rfl⟩
  | cons _ called ih =>
      obtain ⟨there, same⟩ := (does_of_call? called).environment ih.1
      exact ⟨there, (same _).trans ih.2⟩

end Store

/-! ### Names on a chain -/

/-- An environment that resolves like a list of pairs has as many names as the list, each counted
once. -/
theorem Environment.size_eq {env : Environment} {xs : List (Name × Slot)}
    (h : ∀ n, env.resolve n = xs.lookup n) : env.size = (xs.map Prod.fst).dedup.length := by
  have keys : (env.entries.map Prod.fst).Nodup := by
    apply List.pairwise_map.mpr
    apply env.sorted.imp
    intro a b less same
    rw [same] at less
    exact Nat.lt_irrefl _ less
  -- Both lists have the keys that a look-up finds, each of them once.
  have perm : (env.entries.map Prod.fst).Perm (xs.map Prod.fst).dedup := by
    apply (List.perm_ext_iff_of_nodup keys (List.nodup_dedup _)).mpr
    intro n
    rw [List.mem_dedup, List.mem_map_fst_iff, List.mem_map_fst_iff, ← h n]
    rfl
  rw [← perm.length_eq, List.length_map]
  rfl

namespace Store

/-! ### What is promised

Stated for users of the store, so in terms of what was handed out to them, and not of heaps and
indices. -/

def Made (es : List Event) (e : Nat) : Prop := e = 0 ∨ e ∈ es.filterMap Event.environment?

/-- What is done for a call, if all that it refers to has been handed out. -/
inductive Answers (es : List Event) : Call → Event → Prop where
  | alloc (v : Value) (s : Slot) : Answers es (.alloc v) (.allocated s v)
  | set {s : Slot} (v : Value) : s ∈ es.filterMap Event.slot? → Answers es (.set s v) (.written s v)
  | assign {e : Nat} {n : Name} {s : Slot} (v : Value) :
      Made es e → (chain es e).lookup n = some s → Answers es (.assign e n v) (.written s v)
  | extend {e : Nat} (n : Name) (v : Value) (e' : Nat) (s : Slot) :
      Made es e → Answers es (.extend e n v) (.extended e n v e' s)
  | fork {e : Nat} (e' : Nat) : Made es e → Answers es (.fork e) (.forked e e')

/-- What can be seen through an environment is told by its chain and by what was written. -/
structure Tells (es : List Event) (st : Store) (e : Nat) (env : Environment) : Prop where
  resolve : ∀ n, env.resolve n = (chain es e).lookup n
  lookup : ∀ n s, (chain es e).lookup n = some s →
    ∃ v, value? es s = some v ∧ env.lookup n st.heap = some (some v)
  absent : ∀ n, (chain es e).lookup n = none → env.lookup n st.heap = none
  size : env.size = ((chain es e).map Prod.fst).dedup.length
  /-- Whatever else is done, it remains this environment, with this chain. -/
  stays : ∀ es' st', st.After es' st' →
    st'.environments[e]? = some env ∧ chain (es' ++ es) e = chain es e

/-- What users of a store rely on. -/
structure Follows (es : List Event) (st : Store) : Prop where
  /-- No cell is handed out twice. -/
  distinct : (es.filterMap Event.slot?).Nodup
  cells : ∀ s ∈ es.filterMap Event.slot?, ∃ v, value? es s = some v ∧ st.heap.get? s = some v
  environments : ∀ e, Made es e → ∃ env, st.environments[e]? = some env ∧ Tells es st e env
  /-- Calls are answered if what they refer to has been handed out, and only then. -/
  answers : ∀ c, (∃ ev, Answers es c ev) ↔ ∃ ev st', st.call? c = some (ev, st')
  answered : ∀ c ev st', st.call? c = some (ev, st') → Answers es c ev

namespace Recorded

variable (recorded : Recorded es st)

include recorded

theorem mem_slots_iff {s : Slot} :
    s ∈ es.filterMap Event.slot? ↔ s.index < st.heap.size := by
  rw [recorded.slots, List.mem_map]
  simp only [List.mem_reverse, List.mem_range]
  constructor
  · rintro ⟨i, hi, rfl⟩
    exact hi
  · intro hs
    exact ⟨s.index, hs, rfl⟩

theorem distinct : (es.filterMap Event.slot?).Nodup := by
  rw [recorded.slots]
  apply List.Nodup.map
  · intro i j same
    exact congrArg Slot.index same
  · exact List.nodup_reverse.mpr List.nodup_range

theorem exists_value {s : Slot} (hs : s.index < st.heap.size) :
    ∃ v, value? es s = some v ∧ st.heap.get? s = some v := by
  obtain ⟨v, held⟩ := Heap.exists_get? hs
  exact ⟨v, (recorded.cells s).symm.trans held, held⟩

theorem inside_of_resolve {e : Nat} {env : Environment} (here : st.environments[e]? = some env)
    {n : Name} {s : Slot} (found : env.resolve n = some s) : s.index < st.heap.size := by
  rw [recorded.chains e env here] at found
  -- What a look-up finds stands on the chain, and the chain stays within the heap.
  obtain ⟨l, r, split, -⟩ := List.lookup_eq_some_iff.mp found
  apply recorded.inside e (n, s)
  rw [split]
  exact List.mem_append_right l List.mem_cons_self

theorem tells {e : Nat} {env : Environment} (here : st.environments[e]? = some env) :
    Tells es st e env := by
  have resolve := recorded.chains e env here
  refine ⟨resolve, ?_, ?_, Environment.size_eq resolve, ?_⟩
  · intro n s found
    have inside := recorded.inside_of_resolve here ((resolve n).trans found)
    obtain ⟨v, told, held⟩ := recorded.exists_value inside
    refine ⟨v, told, ?_⟩
    rw [Environment.lookup, resolve, found, Option.map_some, held]
  · intro n missing
    rw [Environment.lookup, resolve, missing]
    rfl
  · intro es' st' after
    exact after.environment here es

theorem answers_of_does (h : st.Does c ev st') : Answers es c ev := by
  have made {e : Nat} {env : Environment} (here : st.environments[e]? = some env) : Made es e :=
    (recorded.made e).mp (Array.getElem?_eq_some_iff.mp here).1
  cases h with
  | alloc v => exact .alloc v _
  | set written =>
      apply Answers.set
      exact recorded.mem_slots_iff.mpr (Heap.lt_of_set? written)
  | assign here found written =>
      apply Answers.assign _ (made here)
      rw [← recorded.chains _ _ here]
      exact found
  | extend n v here => exact .extend n v _ _ (made here)
  | fork here => exact .fork _ (made here)

theorem exists_environment {e : Nat} (made : Made es e) :
    ∃ env, st.environments[e]? = some env :=
  ⟨_, Array.getElem?_eq_getElem ((recorded.made e).mpr made)⟩

theorem exists_does (h : Answers es c ev) : ∃ ev st', st.Does c ev st' := by
  cases h with
  | alloc v => exact ⟨_, _, .alloc v⟩
  | set v handed =>
      obtain ⟨h, written⟩ := Heap.exists_set? (recorded.mem_slots_iff.mp handed) v
      exact ⟨_, _, .set written⟩
  | assign v made found =>
      obtain ⟨env, here⟩ := recorded.exists_environment made
      rw [← recorded.chains _ _ here] at found
      obtain ⟨h, written⟩ := Heap.exists_set? (recorded.inside_of_resolve here found) v
      exact ⟨_, _, .assign here found written⟩
  | extend n v _ _ made =>
      obtain ⟨env, here⟩ := recorded.exists_environment made
      exact ⟨_, _, .extend n v here⟩
  | fork _ made =>
      obtain ⟨env, here⟩ := recorded.exists_environment made
      exact ⟨_, _, .fork here⟩

/-- **What the history tells is what users see.** -/
theorem follows : Follows es st := by
  refine ⟨recorded.distinct, ?_, ?_, ?_, ?_⟩
  · intro s handed
    exact recorded.exists_value (recorded.mem_slots_iff.mp handed)
  · intro e made
    obtain ⟨env, here⟩ := recorded.exists_environment made
    exact ⟨env, here, recorded.tells here⟩
  · intro c
    constructor
    · -- whatever event answers the call, something is done for it
      rintro ⟨ev, answers⟩
      obtain ⟨ev', st', does⟩ := recorded.exists_does answers
      exact ⟨ev', st', does.call?_eq⟩
    · rintro ⟨ev, st', called⟩
      exact ⟨ev, recorded.answers_of_does (does_of_call? called)⟩
  · intro c ev st' called
    exact recorded.answers_of_does (does_of_call? called)

end Recorded

/-- **Reads follow the history.** Whatever calls were made of a store, no cell is handed out twice.
An environment stays what it is, and a name stands in it for the cell of the last variable of that
name on its chain; it has as many names as there are different ones on the chain. A look at a name
or at a cell finds what was last written to the cell, by its slot or through any environment, or
else its first value. -/
theorem reads_follow_history {es : List Event} {st : Store} (h : initial.After es st) :
    Follows es st :=
  (h.recorded initial_recorded).follows

/-- A variable, a copy of the environment that has it, and a variable of the same name that hides it
elsewhere. The first is written to through the copy, the second by its slot. -/
def sharing : List Event :=
  [.allocated ⟨2⟩ (.number 9), .written ⟨1⟩ (.number 7), .written ⟨0⟩ (.number 5),
    .extended 1 ⟨1⟩ (.boolean true) 3 ⟨1⟩, .forked 1 2, .extended 0 ⟨1⟩ (.number 1) 1 ⟨0⟩]

/-- What was written through the copy is found wherever the first variable is on the chain and not
hidden. -/
theorem sharing_follows : ∃ st, initial.After sharing st ∧ Follows sharing st ∧
    chain sharing 1 = [(⟨1⟩, ⟨0⟩)] ∧ chain sharing 2 = [(⟨1⟩, ⟨0⟩)] ∧
    chain sharing 3 = [(⟨1⟩, ⟨1⟩), (⟨1⟩, ⟨0⟩)] ∧
    value? sharing ⟨0⟩ = some (.number 5) ∧ value? sharing ⟨1⟩ = some (.number 7) := by
  have declared : initial.After [.extended 0 ⟨1⟩ (.number 1) 1 ⟨0⟩] _ :=
    .cons (c := .extend 0 ⟨1⟩ (.number 1)) .nil rfl
  have copied := declared.cons (c := .fork 1) rfl
  have hidden := copied.cons (c := .extend 1 ⟨1⟩ (.boolean true)) rfl
  have assigned := hidden.cons (c := .assign 2 ⟨1⟩ (.number 5)) rfl
  have written := assigned.cons (c := .set ⟨1⟩ (.number 7)) rfl
  have after : initial.After sharing _ := written.cons (c := .alloc (.number 9)) rfl
  refine ⟨_, after, reads_follow_history after, ?_⟩
  decide

end Store

end LexCell
