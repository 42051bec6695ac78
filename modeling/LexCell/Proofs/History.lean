import LexCell.Proofs.Arena.Canonical
import LexCell.Proofs.Arena.Renaming
import LexCell.Proofs.Following

/-!
# What was interned before

Names are indices, and which index a string gets depends on what was interned before it. It cannot
be seen from outside: read from two interners a document is refused alike, or it becomes programs
that differ in names only, are written alike and run alike, with the same words in errors
(`Program.history_does_not_matter`). Environments then differ as maps of names, but each text stands
for the same cell in both (`Environment.SameSlots`).

A program that is run with an interner that is not its own behaves as it would with its own. Only
the words that errors find for names may be others (`Stop.Retold`).
-/

namespace LexCell

/-! ### Environments as maps of texts

An environment is sorted by names, so two that come from different interners may list the same
variables in another order, and under other names. As maps from texts they can be compared. -/

def Environment.slotOf (env : Environment) (t : Interner) (text : String) : Option Slot :=
  (t.find? text).bind env.resolve

def Environment.SameSlots (t t' : Interner) (env env' : Environment) : Prop :=
  ∀ text, env'.slotOf t' text = env.slotOf t text

namespace Environment

variable {t t' : Interner} {env env' : Environment} {n m : Name} {text : String}

/-- Looking a text up is resolving its name. -/
theorem slotOf_of_text? (ht : t.Proper) (hn : t.text? n = some text) :
    env.slotOf t text = env.resolve n := by
  rw [slotOf, ht.find?_eq_some_iff.mpr hn]
  rfl

/-- Binding a name changes what its text stands for, and nothing else. -/
theorem slotOf_bind (ht : t.Proper) (hn : t.text? n = some text) (s : Slot) (other : String) :
    (env.bind n s).slotOf t other = if other = text then some s else env.slotOf t other := by
  -- A text without a name is not the one that was bound.
  cases found : t.find? other with
  | none =>
      have absent : other ≠ text := by
        rintro rfl
        exact Interner.find?_eq_none_iff.mp found n hn
      rw [if_neg absent, slotOf, slotOf, found]
      rfl
  | some m =>
      have hm := Interner.text?_of_find? found
      -- In a proper interner, names and texts determine each other.
      have same : m = n ↔ other = text := by
        constructor
        · rintro rfl
          exact Option.some.inj (hm.symm.trans hn)
        · rintro rfl
          exact ht.once hm hn
      rw [slotOf_of_text? ht hm, slotOf_of_text? ht hm, resolve_bind]
      simp only [same]

/-- Names of one text are found alike. -/
theorem SameSlots.resolve (ht : t.Proper) (ht' : t'.Proper) (h : env.SameSlots t t' env')
    (hnm : n.SameText t t' m) : env'.resolve m = env.resolve n := by
  obtain ⟨text, hn, hm⟩ := hnm
  rw [← slotOf_of_text? ht hn, ← slotOf_of_text? ht' hm]
  exact h text

/-- Binding names of one text keeps environments alike. -/
theorem SameSlots.bind (ht : t.Proper) (ht' : t'.Proper) (h : env.SameSlots t t' env')
    (hnm : n.SameText t t' m) (s : Slot) : (env.bind n s).SameSlots t t' (env'.bind m s) := by
  obtain ⟨text, hn, hm⟩ := hnm
  intro other
  rw [slotOf_bind ht hn, slotOf_bind ht' hm, h other]

theorem SameSlots.empty : Environment.empty.SameSlots t t' .empty := by
  intro text
  simp only [slotOf]
  cases t.find? text <;> cases t'.find? text <;> rfl

end Environment

/-! ### The same run with other names

Programs that were read from one document with different interners correspond: names by their texts,
environments as maps of texts, and cells slot by slot. -/

/-- Numbers and truth values are the same. Functions have the same body, parameters of the same text
and environments in which every text stands for the same cell. -/
def Value.SameFor (t t' : Interner) : Value → Value → Prop :=
  Value.Alike (Name.SameText t t') fun _ => Environment.SameSlots t t'

structure Heap.SameFor (t t' : Interner) (h h' : Heap) : Prop where
  size : h'.size = h.size
  cells : ∀ s, Option.Rel (Value.SameFor t t') (h.get? s) (h'.get? s)

structure Frame.SameFor (t t' : Interner) (f f' : Frame) : Prop where
  env : f.env.SameSlots t t' f'.env
  heap : f.heap.SameFor t t' f'.heap

namespace Heap.SameFor

variable {t t' : Interner} {h h' : Heap} {v v' : Value}

theorem empty : Heap.empty.SameFor t t' .empty := ⟨rfl, fun _ => .none⟩

/-- This is the relation for all slots. -/
theorem iff_alikeOn : h.SameFor t t' h' ↔ h.AlikeOn (fun _ => True) (Value.SameFor t t') h' :=
  ⟨fun heap => ⟨heap.size, fun s _ => heap.cells s⟩,
    fun heap => ⟨heap.size, fun s => heap.cells s trivial⟩⟩

theorem alloc (heap : h.SameFor t t' h') (hv : v.SameFor t t' v') :
    (h.alloc v).2.SameFor t t' (h'.alloc v').2 :=
  iff_alikeOn.mpr ((iff_alikeOn.mp heap).alloc fun _ => hv)

theorem set? (heap : h.SameFor t t' h') (hv : v.SameFor t t' v') (s : Slot) :
    Option.Rel (Heap.SameFor t t') (h.set? s v) (h'.set? s v') := by
  have written := (iff_alikeOn.mp heap).set? hv s
  generalize h.set? s v = o at written
  generalize h'.set? s v' = o' at written
  cases written with
  | none => exact .none
  | some heap => exact .some (iff_alikeOn.mpr heap)

end Heap.SameFor

/-- Programs that differ in names of the same texts correspond. -/
def Correspondence.ofTexts {a a' : Arena} {t t' : Interner} (ht : t.Proper) (ht' : t'.Proper)
    (arena : a.Alike (Name.SameText t t') a') : Correspondence ⟨a, t⟩ ⟨a', t'⟩ where
  names := Name.SameText t t'
  slots := Eq
  envs _ := Environment.SameSlots t t'
  heaps := Heap.SameFor t t'
  arena := arena
  texts := by
    rintro n m ⟨text, hn, hm⟩
    simp only [Interner.textOrNumber, hn, hm, Option.getD_some]
  child _ _ _ henv := henv
  resolve {_ _ x y env env'} _ _ hxy henv := by
    rw [henv.resolve ht ht' hxy]
    cases env.resolve x with
    | none => exact .none
    | some s => exact .some rfl
  bind := by
    rintro _ x y s _ env env' henv hxy rfl
    exact henv.bind ht ht' hxy s
  fetch := by
    rintro h h' s _ heap rfl
    exact heap.cells s
  -- The heaps are of one size, so new cells have the same slot.
  store heap hv := ⟨heap.alloc hv, congrArg Slot.mk heap.size.symm⟩
  overwrite := by
    rintro h h' s _ v v' heap rfl hv
    exact heap.set? hv s

/-- Such programs run alike. -/
theorem Program.Alike.run_alike {p p' : Program} {t t' : Interner} (ht : t.Proper) (ht' : t'.Proper)
    (h : p.Alike (Name.SameText t t') p') (fuel : Nat) :
    Action.Alike (fun _ : Unit => Frame.SameFor t t') (fun _ => Value.SameFor t t') ()
      (p.run t fuel) (p'.run t' fuel) := by
  let C := Correspondence.ofTexts ht ht' h.arena
  have start : C.Frames (fun _ => True) ⟨.empty, .empty⟩ ⟨.empty, .empty⟩ :=
    ⟨fun _ _ => .empty, .empty⟩
  -- The body is the same span of the same list of statements.
  have lockstep : C.OnFrames (fun _ => True) C.values
      ((⟨p.arena, t⟩ : Context).sequence ((⟨p.arena, t⟩ : Context).eval fuel) p.body)
      ((⟨p'.arena, t'⟩ : Context).sequence ((⟨p'.arena, t'⟩ : Context).eval fuel) p'.body) := by
    unfold Context.sequence
    rw [h.body, h.arena.statements?]
    refine .bind (Action.Lockstep.deref _) ?_
    rintro _ ids _ - ⟨rfl, -⟩
    exact C.run_lockstep fuel fun id _ env env' henv => henv id trivial
  have env {f f' : Frame} (frames : C.Frames (fun _ => True) f f') : f.env.SameSlots t t' f'.env :=
    frames.env ⟨0⟩ trivial
  exact (lockstep _ _ start).imp (fun _ _ _ frames => ⟨env frames, frames.heap⟩) fun _ _ _ => id

/-! ### Programs from a document

What the grammar describes are trees of texts. Both programs are laid out from the same trees, so
the names in them differ only as the interners do. -/

/-- The programs differ in names of the same texts. They are written alike and run alike, to the
same stop or to values that are shown alike. -/
structure Program.SameFor (t t' : Interner) (p p' : Program) : Prop where
  shape : p.Alike (Name.SameText t t') p'
  written : ∃ text, p.render? t = some text ∧ p'.render? t' = some text
  runs : ∀ fuel, Action.Alike (fun _ : Unit => Frame.SameFor t t')
    (fun _ v v' => v.SameFor t t' v' ∧ v'.display = v.display ∧ v'.describe = v.describe) ()
    (p.run t fuel) (p'.run t' fuel)

/-- Trees that are laid out with any two proper interners become the same program but for names. -/
theorem Program.ofTrees_sameFor (statements : List (Tree String)) {t t' : Interner} (ht : t.Proper)
    (ht' : t'.Proper) :
    (Program.ofTrees statements t).1.SameFor (Program.ofTrees statements t).2
      (Program.ofTrees statements t').2 (Program.ofTrees statements t').1 := by
  have shape := Program.ofTrees_alike statements t t'
  refine ⟨shape, ⟨_, Program.render?_ofTrees statements t, Program.render?_ofTrees statements t'⟩, ?_⟩
  intro fuel
  have proper := Program.proper_ofTrees statements ht
  have proper' := Program.proper_ofTrees statements ht'
  refine (shape.run_alike proper proper' fuel).imp (fun _ _ _ => id) ?_
  exact fun _ _ _ hv => ⟨hv, hv.display_eq, hv.describe_eq⟩

/-- Two readings of a document: either both are programs, or neither is and for the same reason. -/
inductive Program.ReadAlike : Except DocumentError Program × Interner →
    Except DocumentError Program × Interner → Prop where
  | accepted {p p' : Program} {t t' : Interner} :
      p.SameFor t t' p' → ReadAlike (.ok p, t) (.ok p', t')
  | refused (err : DocumentError) (t t' : Interner) : ReadAlike (.error err, t) (.error err, t')

/-- A document is read alike with any two proper interners. -/
theorem Program.ofJson_readAlike (doc : Json) {t t' : Interner} (ht : t.Proper)
    (ht' : t'.Proper) : Program.ReadAlike (Program.ofJson doc t) (Program.ofJson doc t') := by
  -- Reading does not look at the interner, only laying out does.
  cases outcome : doc.program.outcome with
  | ok ts =>
      rw [Program.ofJson_of_outcome outcome, Program.ofJson_of_outcome outcome]
      exact .accepted (Program.ofTrees_sameFor ts ht ht')
  | error err =>
      simp only [Program.ofJson, outcome]
      exact .refused err _ _

/-! ### Foreign interners

An interner other than the one that a program was read with has other words for its names, or none.
Evaluation compares names and never asks for their words except to make an error. -/

/-- The stop is the same, or it is the same error about the same name at the same node, where each
interner has its own words for the name. -/
inductive Stop.Retold (t t' : Interner) : Stop → Stop → Prop where
  | same (e : Stop) : Retold t t' e e
  | unbound (n : Name) (id : NodeId) :
      Retold t t' (.error ⟨.unboundIdentifier (t.textOrNumber n), some id⟩)
        (.error ⟨.unboundIdentifier (t'.textOrNumber n), some id⟩)
  | unknown (token : Name) (id : NodeId) :
      Retold t t' (.error ⟨.unknownOperator (t.textOrNumber token), some id⟩)
        (.error ⟨.unknownOperator (t'.textOrNumber token), some id⟩)

/-- Running with another interner changes the words of two kinds of errors. -/
theorem Context.follows_retold (a : Arena) (t t' : Interner) :
    Context.Follows (fun _ => False) (Stop.Retold t t') ⟨a, t⟩ ⟨a, t'⟩ where
  statements _ := rfl
  declarations _ := rfl
  node _ := .inl rfl
  refl := .same
  unbound n id := .unbound n id
  unknown token id := .unknown token id

/-- So a run with one interner follows the run with another. -/
theorem Program.run_follows (p : Program) (t t' : Interner) (fuel : Nat) :
    Action.Follows (fun _ => False) (Stop.Retold t t')
      ((⟨p.arena, t⟩ : Context).sequence ((⟨p.arena, t⟩ : Context).eval fuel) p.body)
      ((⟨p.arena, t'⟩ : Context).sequence ((⟨p.arena, t'⟩ : Context).eval fuel) p.body) := by
  have follows := Context.follows_retold p.arena t t'
  exact .bind (.refl follows.refl _) (follows.run fuel)

/-- A run that ends with one interner ends with any other. -/
theorem Program.run_ne_none {p : Program} {t : Interner} {fuel : Nat} (h : p.run t fuel ≠ none)
    (t' : Interner) : p.run t' fuel ≠ none := by
  obtain ⟨⟨r, f⟩, ends⟩ := Option.ne_none_iff_exists'.mp h
  cases r with
  | ok v => exact Option.ne_none_iff_exists'.mpr ⟨_, (p.run_follows t t' fuel).ok ends⟩
  | error e =>
      obtain ⟨e', -, ends'⟩ := ((p.run_follows t t' fuel).error ends).resolve_left id
      exact Option.ne_none_iff_exists'.mpr ⟨_, ends'⟩

/-- **What an interner held before does not matter.** Read from any two interners into which any
strings were interned before, a document is refused for the same reason, or becomes programs that
differ in names of the same texts, are written alike and run alike. And whatever interner a program
is run with, it runs as it does with any other, but for the words in errors about names. -/
theorem Program.history_does_not_matter (doc : Json) (history history' : List String) :
    Program.ReadAlike (Program.ofJson doc (Interner.initial.internAll history))
        (Program.ofJson doc (Interner.initial.internAll history')) ∧
      ∀ (p : Program) (t t' : Interner) (fuel : Nat),
        (p.run t' fuel = none ↔ p.run t fuel = none) ∧
          (∀ v f, p.run t' fuel = some (.ok v, f) ↔ p.run t fuel = some (.ok v, f)) ∧
          ∀ e f, p.run t fuel = some (.error e, f) →
            ∃ e', Stop.Retold t t' e e' ∧ p.run t' fuel = some (.error e', f) := by
  constructor
  · exact Program.ofJson_readAlike doc (Interner.proper_initial.internAll history)
      (Interner.proper_initial.internAll history')
  · intro p t t' fuel
    refine ⟨?ending, ?value, ?stop⟩
    case ending => exact not_iff_not.mp ⟨fun h => p.run_ne_none h t, fun h => p.run_ne_none h t'⟩
    case value =>
      exact fun v f => ⟨(p.run_follows t' t fuel).ok, (p.run_follows t t' fuel).ok⟩
    case stop =>
      exact fun e f h => ((p.run_follows t t' fuel).error h).resolve_left id

end LexCell
