import LexCell.Action
import Mathlib.Order.Basic

/-!
# Two actions side by side

Two actions run in lockstep if from related states they end alike: both run out of fuel, or both
stop for the same reason, or both yield related values, and what they leave is related again. What
is related depends on how far a run has come, its world, and worlds only move on. Sequences run in
lockstep if their parts do (`Lockstep.bind`), so of a program only the single steps are left to
compare.
-/

namespace LexCell

namespace Action

/-- The one world of what is related in the same way all along a run. -/
instance : Preorder Unit := PUnit.instLinearOrder.toPreorder

variable {W σ τ α β : Type} [Preorder W]

/-- The ends of two actions that were started in the world `w` are alike. States are related by `S`,
values by `V`. -/
inductive Alike (S : W → σ → τ → Prop) (V : W → α → β → Prop) (w : W) :
    Option (Except Stop α × σ) → Option (Except Stop β × τ) → Prop where
  | exhausted : Alike S V w none none
  | stop {w' : W} {e : Stop} {s : σ} {t : τ} :
      w ≤ w' → S w' s t → Alike S V w (some (.error e, s)) (some (.error e, t))
  | ok {w' : W} {a : α} {b : β} {s : σ} {t : τ} :
      w ≤ w' → S w' s t → V w' a b → Alike S V w (some (.ok a, s)) (some (.ok b, t))

/-- From related states the actions end alike. -/
def Lockstep (S : W → σ → τ → Prop) (V : W → α → β → Prop) (w : W) (x : Action σ α)
    (y : Action τ β) : Prop :=
  -- The world of the start stays below that of the end, so what was related before can be carried
  -- over by monotony.
  ∀ s t, S w s t → Alike S V w (x s) (y t)

variable {S : W → σ → τ → Prop} {V : W → α → β → Prop} {w : W}

/-- Ends that are alike from a later world on are so from an earlier one. -/
theorem Alike.mono {w' : W} {o : Option (Except Stop α × σ)} {o' : Option (Except Stop β × τ)}
    (h : Alike S V w' o o') (hw : w ≤ w') : Alike S V w o o' := by
  cases h with
  | exhausted => exact .exhausted
  | stop hle hs => exact .stop (hw.trans hle) hs
  | ok hle hs hv => exact .ok (hw.trans hle) hs hv

/-- Ends that are alike are so by anything that says less. -/
theorem Alike.imp {S' : W → σ → τ → Prop} {V' : W → α → β → Prop}
    (hS : ∀ w s t, S w s t → S' w s t) (hV : ∀ w a b, V w a b → V' w a b)
    {o : Option (Except Stop α × σ)} {o' : Option (Except Stop β × τ)} (h : Alike S V w o o') :
    Alike S' V' w o o' := by
  cases h with
  | exhausted => exact .exhausted
  | stop hle hs => exact .stop hle (hS _ _ _ hs)
  | ok hle hs hv => exact .ok hle (hS _ _ _ hs) (hV _ _ _ hv)

namespace Lockstep

/-- Related values on both sides. -/
theorem pure {a : α} {b : β} (h : V w a b) :
    Lockstep S V w (Pure.pure a : Action σ α) (Pure.pure b) :=
  fun _ _ hs => .ok le_rfl hs h

/-- The same stop on both sides. -/
theorem stop (e : Stop) : Lockstep S V w (Action.stop e : Action σ α) (Action.stop e) :=
  fun _ _ hs => .stop le_rfl hs

theorem exhausted : Lockstep S V w (Action.exhausted : Action σ α) Action.exhausted :=
  fun _ _ _ => .exhausted

/-- Two sequences, part by part. -/
theorem bind {α' β' : Type} {V' : W → α' → β' → Prop} {x : Action σ α} {y : Action τ β}
    {f : α → Action σ α'} {g : β → Action τ β'} (h : Lockstep S V w x y)
    (rest : ∀ w' a b, w ≤ w' → V w' a b → Lockstep S V' w' (f a) (g b)) :
    Lockstep S V' w (x >>= f) (y >>= g) := by
  intro s t hs
  rw [bind_apply, bind_apply]
  have first := h s t hs
  -- What the first parts leave is where the second parts start.
  generalize x s = o at first
  generalize y t = o' at first
  cases first with
  | exhausted => exact .exhausted
  | stop hle hs => exact .stop hle hs
  | ok hle hs hv => exact (rest _ _ _ hle hv _ _ hs).mono hle

/-- The same reference on both sides. -/
theorem deref {γ : Type} (x : Option γ) :
    Lockstep S (fun _ a b => a = b ∧ x = some a) w (Action.deref x) (Action.deref x) := by
  cases x with
  | none => exact stop .dangling
  | some c => exact pure ⟨rfl, rfl⟩

end Lockstep

end Action

end LexCell
