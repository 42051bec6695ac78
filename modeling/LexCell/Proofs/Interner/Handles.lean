import LexCell.Interner.Handles
import LexCell.Proofs.Interner.Indexed

/-!
# Tables under any history

A history is a list of calls through handles, each of which may have been made by an earlier call.
What a call can leave behind is said once (`Handles.Leaves`): a further handle, a further table, or
one table with one string interned. So each table is at any time what interning some strings into
the initial table gives (`Handles.Consistent`), and at a later time what interning more strings into
it gives (`Handles.Later`).

All that users of tables rely on follows (`Handles.histories_keep_tables_sound`): in every table
names and strings stand for each other, a string keeps its name and a name its text, and what is
done to one table is not seen in another.
-/

namespace LexCell

/-- Names and strings stand for each other: every string stands once, the empty one first, a string
is found under the name whose text it is, and the names are the indices below the size. -/
structure Interner.Dense (t : Interner) : Prop where
  distinct : t.strings.toList.Nodup
  empty : t.text? .empty = some ""
  inverse : ∀ s n, t.find? s = some n ↔ t.text? n = some s
  names : ∀ n, (∃ s, t.text? n = some s) ↔ n.index < t.size

theorem Interner.Proper.dense {t : Interner} (h : t.Proper) : t.Dense :=
  ⟨h.nodup, h.empty, fun _ _ => h.find?_eq_some_iff, fun _ => knows_iff_lt⟩

namespace Handles

/-! ### Calls

Handles and tables are numbers here: the owner of a handle is the number of its table, so handles to
one table are those with one owner. -/

inductive Call where
  | new
  | share (h : Nat)
  | intern (h : Nat) (s : String)
  | lookup (h : Nat) (n : Name)
  | tryLookup (h : Nat) (n : Name)
  | size (h : Nat)
  deriving DecidableEq

inductive Answer where
  | handle (h : Nat)
  | name (n : Name)
  | text (s : String)
  | absent
  | panic
  | size (n : Nat)
  deriving DecidableEq

/-- Answers a call; `none` if there is no such handle. A name that the table lacks makes `lookup`
panic, which leaves the tables as they are. -/
def call? (hs : Handles) : Call → Option (Answer × Handles)
  | .new => some (.handle hs.fresh.1, hs.fresh.2)
  | .share h => (hs.share? h).map fun (h', hs') => (.handle h', hs')
  | .intern h s => (hs.intern? h s).map fun (n, hs') => (.name n, hs')
  | .lookup h n => (hs.table? h).map fun t => ((t.text? n).elim .panic .text, hs)
  | .tryLookup h n => (hs.table? h).map fun t => ((t.text? n).elim .absent .text, hs)
  | .size h => (hs.table? h).map fun t => (.size t.size, hs)

def calls? (hs : Handles) : List Call → Option (List Answer × Handles)
  | [] => some ([], hs)
  | c :: cs => do
      let (a, hs) ← hs.call? c
      let (as, hs) ← hs.calls? cs
      some (a :: as, hs)

def SameTable (hs : Handles) (h h' : Nat) : Prop := hs.owners[h]? = hs.owners[h']?

inductive Leaves (hs : Handles) : Call → Handles → Prop where
  | same (c : Call) : Leaves hs c hs
  | new : Leaves hs .new ⟨hs.tables.push Interner.initial, hs.owners.push hs.tables.size⟩
  | share {h o : Nat} : hs.owners[h]? = some o →
      Leaves hs (.share h) ⟨hs.tables, hs.owners.push o⟩
  | intern {h o : Nat} {t : Interner} (s : String) : hs.owners[h]? = some o →
      hs.tables[o]? = some t →
      Leaves hs (.intern h s) ⟨hs.tables.setIfInBounds o (t.intern s).2, hs.owners⟩

variable {hs hs' hs'' : Handles} {c : Call} {a : Answer} {h h' o : Nat} {s : String} {n : Name}
  {t : Interner}

/-- A handle finds the table of its owner. -/
theorem table?_eq_some_iff :
    hs.table? h = some t ↔ ∃ o, hs.owners[h]? = some o ∧ hs.tables[o]? = some t :=
  Option.bind_eq_some_iff

theorem intern?_eq (ho : hs.owners[h]? = some o) (ht : hs.tables[o]? = some t) (s : String) :
    hs.intern? h s =
      some ((t.intern s).1, ⟨hs.tables.setIfInBounds o (t.intern s).2, hs.owners⟩) := by
  simp only [intern?, ho, ht, Option.bind_eq_bind, Option.bind_some]

theorem share?_eq (ho : hs.owners[h]? = some o) :
    hs.share? h = some (hs.owners.size, ⟨hs.tables, hs.owners.push o⟩) := by
  simp only [share?, ho, Option.bind_eq_bind, Option.bind_some]

/-- **What a call leaves behind** is one of the four forms. -/
theorem leaves_of_call? (called : hs.call? c = some (a, hs')) : Leaves hs c hs' := by
  -- The calls that only read have one form.
  have read {x : Option Interner} {answer : Interner → Answer}
      (e : (x.map fun t => (answer t, hs)) = some (a, hs')) : hs = hs' := by
    obtain ⟨t, -, same⟩ := Option.map_eq_some_iff.mp e
    exact (Prod.mk.inj same).2
  cases c with
  | new =>
      cases called
      exact .new
  | share h =>
      obtain ⟨⟨h', hs₁⟩, shared, ⟨⟩⟩ := Option.map_eq_some_iff.mp called
      obtain ⟨o, ho, -⟩ := Option.bind_eq_some_iff.mp shared
      cases (share?_eq ho).symm.trans shared
      exact .share ho
  | intern h s =>
      obtain ⟨⟨n, hs₁⟩, interned, ⟨⟩⟩ := Option.map_eq_some_iff.mp called
      obtain ⟨o, ho, rest⟩ := Option.bind_eq_some_iff.mp interned
      obtain ⟨t, ht, -⟩ := Option.bind_eq_some_iff.mp rest
      cases (intern?_eq ho ht s).symm.trans interned
      exact .intern s ho ht
  | lookup | tryLookup | size =>
      cases read called
      exact .same _

/-! ### What stays

Each of these is an invariant of one step; `calls?_induction` makes it one of all histories. -/

/-- Every handle has a table, and every table has grown from the initial one. -/
structure Consistent (hs : Handles) : Prop where
  owned : ∀ o ∈ hs.owners, o < hs.tables.size
  grown : ∀ t ∈ hs.tables, ∃ names, t = Interner.initial.internAll names

/-- Handles stay with their tables, and tables only grow. -/
structure Later (hs hs' : Handles) : Prop where
  owners : ∀ {h o : Nat}, hs.owners[h]? = some o → hs'.owners[h]? = some o
  tables : ∀ {o : Nat} {t : Interner}, hs.tables[o]? = some t →
    ∃ names, hs'.tables[o]? = some (t.internAll names)

/-- Pushing keeps what was there. -/
theorem getElem?_push_of_some {α : Type} {xs : Array α} {i : Nat} {x : α} (hx : xs[i]? = some x)
    (y : α) : (xs.push y)[i]? = some x := by
  have inside := (Array.getElem?_eq_some_iff.mp hx).1
  rw [Array.getElem?_push, if_neg (Nat.ne_of_lt inside), hx]

theorem Later.refl (hs : Handles) : hs.Later hs := ⟨id, fun ht => ⟨[], ht⟩⟩

theorem Later.trans (first : hs.Later hs') (second : hs'.Later hs'') : hs.Later hs'' := by
  refine ⟨fun ho => second.owners (first.owners ho), fun ht => ?_⟩
  obtain ⟨names, ht'⟩ := first.tables ht
  obtain ⟨more, ht''⟩ := second.tables ht'
  exact ⟨names ++ more, by rw [ht'', Interner.internAll_append]⟩

/-- A call leaves what is later than what was there. -/
theorem Leaves.later (step : Leaves hs c hs') : hs.Later hs' := by
  cases step with
  | same => exact .refl hs
  | new => exact ⟨fun ho => getElem?_push_of_some ho _, fun ht => ⟨[], getElem?_push_of_some ht _⟩⟩
  | share => exact ⟨fun ho => getElem?_push_of_some ho _, fun ht => ⟨[], ht⟩⟩
  | @intern h o t s ho ht =>
      refine ⟨id, fun {o' t'} ht' => ?_⟩
      rw [Array.getElem?_setIfInBounds]
      -- The table that is interned into grows by one string, and the others stay.
      by_cases same : o = o'
      · subst same
        cases ht.symm.trans ht'
        rw [if_pos rfl, if_pos (Array.getElem?_eq_some_iff.mp ht).1]
        exact ⟨[s], rfl⟩
      · rw [if_neg same]
        exact ⟨[], ht'⟩

/-- A call keeps handles consistent. -/
theorem Leaves.consistent (consistent : hs.Consistent) (step : Leaves hs c hs') :
    hs'.Consistent := by
  cases step with
  | same => exact consistent
  | new =>
      constructor
      · intro o ho
        dsimp only at ho ⊢
        rw [Array.size_push]
        rcases Array.mem_push.mp ho with ho | rfl
        · exact Nat.lt_succ_of_lt (consistent.owned o ho)
        · exact Nat.lt_succ_self _
      · intro t ht
        rcases Array.mem_push.mp ht with ht | rfl
        · exact consistent.grown t ht
        · exact ⟨[], rfl⟩
  | share ho =>
      refine ⟨fun o' ho' => ?_, consistent.grown⟩
      rcases Array.mem_push.mp ho' with ho' | rfl
      · exact consistent.owned o' ho'
      · exact consistent.owned o' (Array.mem_of_getElem? ho)
  | intern s ho ht =>
      constructor
      · intro o' ho'
        dsimp only at ho' ⊢
        rw [Array.size_setIfInBounds]
        exact consistent.owned o' ho'
      · intro t' ht'
        rcases Array.mem_or_eq_of_mem_setIfInBounds ht' with ht' | rfl
        · exact consistent.grown t' ht'
        · obtain ⟨names, rfl⟩ := consistent.grown _ (Array.mem_of_getElem? ht)
          refine ⟨names ++ [s], ?_⟩
          rw [Interner.internAll_append]
          rfl

theorem initial_consistent : Handles.initial.Consistent where
  owned o ho := by
    rw [Handles.initial, List.mem_toArray, List.mem_singleton] at ho
    subst ho
    exact Nat.one_pos
  grown t ht := by
    rw [Handles.initial, List.mem_toArray, List.mem_singleton] at ht
    exact ⟨[], ht⟩

/-- **What every call keeps, every history keeps.** -/
theorem calls?_induction {P : Handles → Prop} (step : ∀ {hs c hs'}, Leaves hs c hs' → P hs → P hs')
    {cs : List Call} {as : List Answer} (called : hs.calls? cs = some (as, hs')) (start : P hs) :
    P hs' := by
  -- On the calls, from left to right.
  induction cs generalizing hs as with
  | nil =>
      cases called
      exact start
  | cons c cs ih =>
      obtain ⟨⟨a, hs₁⟩, first, rest⟩ := Option.bind_eq_some_iff.mp called
      obtain ⟨⟨as', hs₂⟩, rest, ⟨⟩⟩ := Option.bind_eq_some_iff.mp rest
      exact ih rest (step (leaves_of_call? first) start)

theorem Consistent.calls (consistent : hs.Consistent) {cs : List Call} {as : List Answer}
    (called : hs.calls? cs = some (as, hs')) : hs'.Consistent :=
  calls?_induction (fun step consistent => step.consistent consistent) called consistent

theorem later_of_calls? {cs : List Call} {as : List Answer}
    (called : hs.calls? cs = some (as, hs')) : hs.Later hs' :=
  calls?_induction (fun step later => later.trans step.later) called (.refl hs)

/-! ### What single calls do

The answers of calls, each in terms of the table of its handle. -/

namespace Consistent

variable (consistent : hs.Consistent)

include consistent

/-- A handle has a table. -/
theorem exists_table (ho : hs.owners[h]? = some o) : ∃ t, hs.tables[o]? = some t :=
  ⟨_, Array.getElem?_eq_getElem (consistent.owned o (Array.mem_of_getElem? ho))⟩

/-- The table of a handle is proper, as it has grown from the initial one. -/
theorem proper (ht : hs.table? h = some t) : t.Proper := by
  obtain ⟨o, -, ht⟩ := table?_eq_some_iff.mp ht
  obtain ⟨names, rfl⟩ := consistent.grown t (Array.mem_of_getElem? ht)
  exact Interner.proper_initial.internAll names

/-- A further table is a table of its own. -/
theorem new : ∃ hs', hs.call? .new = some (.handle hs.owners.size, hs') ∧
    hs'.table? hs.owners.size = some Interner.initial ∧
    ∀ h, h < hs.owners.size → ¬hs'.SameTable h hs.owners.size := by
  refine ⟨_, rfl, ?_, fun h inside same => ?_⟩
  · refine table?_eq_some_iff.mpr ⟨hs.tables.size, ?_, ?_⟩
    · exact Array.getElem?_push_size
    · exact Array.getElem?_push_size
  · have owner := Array.getElem?_eq_getElem inside
    unfold SameTable fresh at same
    rw [getElem?_push_of_some owner, Array.getElem?_push_size] at same
    -- The new owner is not yet a table, so no handle before has it.
    have outside := consistent.owned _ (Array.mem_of_getElem? (owner.trans same))
    exact Nat.lt_irrefl _ outside

/-- A table changes only when something is interned through one of its handles. -/
theorem table?_of_call? (called : hs.call? c = some (a, hs')) (ho : hs.owners[h']? = some o)
    (apart : ∀ h s, c = .intern h s → ¬hs.SameTable h h') : hs'.table? h' = hs.table? h' := by
  obtain ⟨t, ht⟩ := consistent.exists_table ho
  rw [table?_eq_some_iff.mpr ⟨o, ho, ht⟩, table?_eq_some_iff]
  refine ⟨o, (leaves_of_call? called).later.owners ho, ?_⟩
  -- Of the four forms only interning changes a table, and it is another one.
  cases leaves_of_call? called with
  | same => exact ht
  | new => exact getElem?_push_of_some ht _
  | share => exact ht
  | @intern h o' t' s ho' ht' =>
      have other : o' ≠ o := by
        rintro rfl
        exact apart h s rfl (ho'.trans ho.symm)
      rw [Array.getElem?_setIfInBounds, if_neg other]
      exact ht

end Consistent

/-- A shared handle is one more to the same table. -/
theorem share_sameTable (ho : hs.owners[h]? = some o) :
    ∃ hs', hs.call? (.share h) = some (.handle hs.owners.size, hs') ∧
      hs'.SameTable h hs.owners.size := by
  refine ⟨⟨hs.tables, hs.owners.push o⟩, ?_, ?_⟩
  · rw [call?, share?_eq ho]
    rfl
  · unfold SameTable
    rw [getElem?_push_of_some ho, Array.getElem?_push_size]

/-- What is looked up does not change anything. -/
theorem lookups (ht : hs.table? h = some t) (n : Name) :
    hs.call? (.lookup h n) = some ((t.text? n).elim .panic .text, hs) ∧
      hs.call? (.tryLookup h n) = some ((t.text? n).elim .absent .text, hs) ∧
      hs.call? (.size h) = some (.size t.size, hs) := by
  simp only [call?, ht, Option.map_some, and_self]

/-- Interning answers the name and leaves the table with the string in it. -/
theorem intern (ht : hs.table? h = some t) (s : String) :
    ∃ hs', hs.call? (.intern h s) = some (.name (t.intern s).1, hs') ∧
      hs'.table? h = some (t.intern s).2 := by
  obtain ⟨o, ho, ht⟩ := table?_eq_some_iff.mp ht
  refine ⟨⟨hs.tables.setIfInBounds o (t.intern s).2, hs.owners⟩, ?_, ?_⟩
  · rw [call?, intern?_eq ho ht]
    rfl
  · refine table?_eq_some_iff.mpr ⟨o, ho, ?_⟩
    rw [Array.getElem?_setIfInBounds, if_pos rfl, if_pos (Array.getElem?_eq_some_iff.mp ht).1]

/-- A string that has a name keeps it, and asking for it changes nothing. -/
theorem intern_of_text? (proper : t.Proper) (ht : hs.table? h = some t)
    (text : t.text? n = some s) : hs.call? (.intern h s) = some (.name n, hs) := by
  have found := proper.find?_eq_some_iff.mpr text
  have same : t.intern s = (n, t) := by rw [Interner.intern, found]
  obtain ⟨o, ho, ht⟩ := table?_eq_some_iff.mp ht
  -- Writing a table back where it stands changes nothing.
  have tables : hs.tables.setIfInBounds o t = hs.tables := by
    refine Array.ext_getElem? fun i => ?_
    rw [Array.getElem?_setIfInBounds]
    by_cases h : o = i
    · subst h
      rw [if_pos rfl, if_pos (Array.getElem?_eq_some_iff.mp ht).1, ht]
    · rw [if_neg h]
  rw [call?, intern?_eq ho ht, same, tables]
  rfl

/-- A later table holds the texts of the earlier one, also for handles that were made since. -/
theorem Later.table? (later : hs.Later hs') (ht : hs.table? h = some t)
    (shared : hs'.SameTable h h') : ∃ t', hs'.table? h' = some t' ∧ t.Extends t' := by
  obtain ⟨o, ho, ht⟩ := table?_eq_some_iff.mp ht
  obtain ⟨names, ht'⟩ := later.tables ht
  have ho' : hs'.owners[h']? = some o := shared ▸ later.owners ho
  exact ⟨_, table?_eq_some_iff.mpr ⟨o, ho', ht'⟩, t.extends_internAll names⟩

/-! ### Histories

What users rely on, said of the handles at any time of a history and of all that may follow. -/

/-- A string that is interned through the handle gets a name whose text it is, and a new name
exactly if it was absent. At any later time and through any handle to the table it has this name. -/
def Interns (hs : Handles) (h : Nat) (t : Interner) (s : String) : Prop :=
  ∃ n hs' t', hs.call? (.intern h s) = some (.name n, hs') ∧ hs'.table? h = some t' ∧
    t'.text? n = some s ∧ t'.size = t.size + (if s ∈ t.strings then 0 else 1) ∧
    ∀ cs as hs'' h', hs'.calls? cs = some (as, hs'') → hs''.SameTable h h' →
      hs''.call? (.intern h' s) = some (.name n, hs'')

/-- Both ways to look a name up find its text exactly if the name is below the size; else one panics
and the other answers that there is none. -/
def LooksUp (hs : Handles) (h : Nat) (t : Interner) (n : Name) : Prop :=
  (n.index < t.size → ∃ s, t.text? n = some s ∧
    hs.call? (.lookup h n) = some (.text s, hs) ∧ hs.call? (.tryLookup h n) = some (.text s, hs)) ∧
  (t.size ≤ n.index → hs.call? (.lookup h n) = some (.panic, hs) ∧
    hs.call? (.tryLookup h n) = some (.absent, hs))

/-- With an index beside it the table comes to hold the same, if there are names for all its
strings. -/
def IndexedAs (t : Interner) : Prop :=
  t.size ≤ Interner.nameLimit → ∃ names x, Interner.Indexed.initial.internAll? names = some x ∧
    x.table = t ∧ (∀ s n, x.index[s]? = some n ↔ t.text? n = some s) ∧
    ∀ s n x', x.intern? s = some (n, x') → t.intern s = (n, x'.table)

/-- What users of tables rely on. -/
structure Sound (hs : Handles) : Prop where
  table : ∀ h < hs.owners.size, ∃ t, hs.table? h = some t
  dense : ∀ h t, hs.table? h = some t → t.Dense
  indexed : ∀ h t, hs.table? h = some t → IndexedAs t
  new : ∃ hs', hs.call? .new = some (.handle hs.owners.size, hs') ∧
    hs'.table? hs.owners.size = some Interner.initial ∧
    ∀ h < hs.owners.size, ¬hs'.SameTable h hs.owners.size
  share : ∀ h < hs.owners.size, ∃ hs', hs.call? (.share h) = some (.handle hs.owners.size, hs') ∧
    hs'.SameTable h hs.owners.size
  intern : ∀ h t s, hs.table? h = some t → hs.Interns h t s
  lookup : ∀ h t n, hs.table? h = some t → hs.LooksUp h t n
  size : ∀ h t, hs.table? h = some t → hs.call? (.size h) = some (.size t.size, hs)
  /-- No name ever changes its text. -/
  keeps : ∀ cs as hs', hs.calls? cs = some (as, hs') → ∀ h t, hs.table? h = some t →
    ∃ t', hs'.table? h = some t' ∧ t.Extends t'
  /-- What is done to one table is not seen in another. -/
  apart : ∀ c a hs', hs.call? c = some (a, hs') → ∀ h' < hs.owners.size,
    (∀ h s, c = .intern h s → ¬hs.SameTable h h') → hs'.table? h' = hs.table? h'

namespace Consistent

variable (consistent : hs.Consistent)

include consistent

/-- A table of a history is one that the index could have been kept for. -/
theorem indexedAs (ht : hs.table? h = some t) : IndexedAs t := by
  intro room
  obtain ⟨o, -, ht⟩ := table?_eq_some_iff.mp ht
  obtain ⟨names, rfl⟩ := consistent.grown t (Array.mem_of_getElem? ht)
  obtain ⟨x, interned, table, finds⟩ := Interner.Indexed.exists_internAll? names room
  refine ⟨names, x, interned, table, table ▸ finds, fun s n x' answered => ?_⟩
  rw [← table]
  exact Interner.Indexed.table_of_intern? answered

/-- A string that is interned has its name for good. -/
theorem interns (ht : hs.table? h = some t) (s : String) : hs.Interns h t s := by
  obtain ⟨hs', answered, ht'⟩ := Handles.intern ht s
  have text := Interner.text?_intern t s
  refine ⟨_, hs', _, answered, ht', text, Interner.size_intern t s, ?_⟩
  intro cs as hs'' h' called shared
  have consistent'' := ((leaves_of_call? answered).consistent consistent).calls called
  obtain ⟨t'', ht'', kept⟩ := (later_of_calls? called).table? ht' shared
  exact intern_of_text? (consistent''.proper ht'') ht'' (kept _ _ text)

/-- **Consistent handles are sound.** -/
theorem sound : hs.Sound where
  table h inside := by
    obtain ⟨t, ht⟩ := consistent.exists_table (Array.getElem?_eq_getElem inside)
    exact ⟨t, table?_eq_some_iff.mpr ⟨_, Array.getElem?_eq_getElem inside, ht⟩⟩
  dense h t ht := (consistent.proper ht).dense
  indexed h t ht := consistent.indexedAs ht
  new := consistent.new
  share h inside := share_sameTable (Array.getElem?_eq_getElem inside)
  intern h t s ht := consistent.interns ht s
  lookup h t n ht := by
    obtain ⟨lookup, tryLookup, -⟩ := lookups ht n
    constructor
    · intro inside
      obtain ⟨s, text⟩ : t.Knows n := Interner.knows_iff_lt.mpr inside
      rw [text] at lookup tryLookup
      exact ⟨s, text, lookup, tryLookup⟩
    · intro outside
      have none : t.text? n = none := Array.getElem?_eq_none outside
      rw [none] at lookup tryLookup
      exact ⟨lookup, tryLookup⟩
  size h t ht := (lookups ht .empty).2.2
  keeps cs as hs' called h t ht := (later_of_calls? called).table? ht rfl
  apart c a hs' called h' inside apart :=
    consistent.table?_of_call? called (Array.getElem?_eq_getElem inside) apart

end Consistent

/-- **Whatever calls were made through whatever handles, tables are sound.** -/
theorem histories_keep_tables_sound {cs : List Call} {as : List Answer}
    (called : Handles.initial.calls? cs = some (as, hs)) : hs.Sound :=
  (initial_consistent.calls called).sound

/-- Two tables, one of them with two handles. -/
theorem sharing_is_sound :
    ∃ hs, Handles.initial.calls? [.intern 0 "x", .share 0, .new, .intern 1 "x", .intern 2 "y",
        .lookup 2 ⟨1⟩, .tryLookup 0 ⟨2⟩, .size 1] =
      some ([.name ⟨1⟩, .handle 1, .handle 2, .name ⟨1⟩, .name ⟨1⟩, .text "y", .absent, .size 2], hs) ∧
      hs.Sound := by
  have answered : (Handles.initial.calls? [.intern 0 "x", .share 0, .new, .intern 1 "x",
      .intern 2 "y", .lookup 2 ⟨1⟩, .tryLookup 0 ⟨2⟩, .size 1]).map Prod.fst =
      some [.name ⟨1⟩, .handle 1, .handle 2, .name ⟨1⟩, .name ⟨1⟩, .text "y", .absent, .size 2] := by
    decide +kernel
  obtain ⟨⟨as, hs⟩, called, rfl⟩ := Option.map_eq_some_iff.mp answered
  exact ⟨hs, called, histories_keep_tables_sound called⟩

end Handles

end LexCell
