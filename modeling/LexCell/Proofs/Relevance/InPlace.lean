import LexCell.Proofs.Json.Place
import LexCell.Proofs.Relevance
import Mathlib.Data.List.Induction

/-!
# Literals in a place

What stands around a place of a document (`Json.Outside`) is read in the same way whatever literal
is put there, unless the place is in the value of another literal. So a document with one literal is
read like that with another if the literals are, or it stops at the literal
(`Json.Outside.program_follows`).
-/

namespace LexCell

namespace Json

/-- The last of the members with a key counts. -/
theorem lookup_fieldsOf (members : List (String × Json)) (key : String) :
    (fieldsOf members).lookup key = members.reverse.lookup key := by
  induction members using List.reverseRecOn with
  | nil => rfl
  | append_singleton ms m ih =>
      unfold fieldsOf at ih ⊢
      rw [List.foldl_append, List.foldl_cons, List.foldl_nil, Assoc.lookup_insert, ih,
        List.reverse_append, List.reverse_singleton, List.singleton_append, List.lookup_cons]
      -- The new member counts if it has the key, else the ones before it do.
      split
      · next same =>
        subst same
        rw [beq_self_eq_true]
      · next other => rw [beq_eq_false_iff_ne.mpr other]

/-- A literal that holds nothing a declarator holds. -/
def IsLiteral (j : Json) : Prop :=
  ∃ e, j.Is e ∧ e.kind = "Literal" ∧ e.Lacks "id" ∧ e.Lacks "init"

end Json

section

variable {R : Json → Json → Prop}

/-- Lists are alike that differ in one item. -/
theorem Pair.Alike.middle {r : Role} {j j' : Json} (h : Pair.Alike R (.values (.element r) j j'))
    (before after : List Json) :
    Pair.Alike R (.values (.elements r) (.array (before ++ j :: after))
      (.array (before ++ j' :: after))) := by
  induction before with
  | nil => exact .cons h (.same _ _)
  | cons k before ih => exact .cons (.same _ k) ih

/-- Literals that may stand for each other are alike whatever they are asked for. -/
theorem Pair.Alike.of_isLiteral {j j' : Json} (h : j.IsLiteral) (h' : j'.IsLiteral)
    (related : R j j') {d : Demand} (hd : d ≠ .constant) : Pair.Alike R (.values d j j') := by
  obtain ⟨e, is, kind, id, init⟩ := h
  obtain ⟨e', is', kind', id', init'⟩ := h'
  have kinds : e.kind = e'.kind := kind.trans kind'.symm
  -- A literal is no text and no list, and asked for as an element it answers by its type.
  cases d with
  | constant => exact absurd rfl hd
  | text =>
      refine .no_text (fun s same => ?_) fun s same => ?_
      · cases is.1.symm.trans same
      · cases is'.1.symm.trans same
  | elements r =>
      refine .no_array (fun s same => ?_) fun s same => ?_
      · cases is.1.symm.trans same
      · cases is'.1.symm.trans same
  | element r =>
      have type : e.type? = some .literal :=
        Element.type?_eq_some_iff.mpr (List.mem_singleton.mpr kind)
      cases r with
      | node => exact .node related
      | declarator => exact .element is is' kinds (.lacks id id' (.lacks init init' .no_fields))
      | program =>
          refine .element is is' kinds ?_
          rw [Element.demands, if_neg (by rw [type]; decide)]
          exact .no_fields
      | identifier named =>
          refine .element is is' kinds ?_
          rw [Element.demands, if_neg (by rw [type]; simp)]
          exact .no_fields

end

/-- Only the value of a literal is asked for as a constant. -/
theorem Element.eq_value_of_mem_demands {e : Element} {r : Role} {key : String}
    (h : (key, Demand.constant) ∈ e.demands r) : key = "value" := by
  unfold demands at h
  grind

namespace Json.Outside

variable {R : Json → Json → Prop}

/-- What an object holds under a key does not depend on what is in the place, or it is what the
place is in. -/
theorem lookup_fill (before after : List (String × Json)) (key : String) (k : String) :
    (∀ j j' : Json, (fieldsOf (before ++ (key, j) :: after)).lookup k =
        (fieldsOf (before ++ (key, j') :: after)).lookup k) ∨
      k = key ∧ ∀ j : Json, (fieldsOf (before ++ (key, j) :: after)).lookup k = some j := by
  simp only [lookup_fieldsOf, List.reverse_append, List.reverse_cons, List.append_assoc,
    List.lookup_append, List.lookup_cons, List.singleton_append]
  -- A later member with the key hides the place.
  cases after.reverse.lookup k with
  | some _ => exact .inl fun _ _ => rfl
  | none =>
      by_cases same : k = key
      · subst same
        exact .inr ⟨rfl, fun j => by simp⟩
      · simp [beq_eq_false_iff_ne.mpr same]

theorem fill_ne {j : Json} (h : j.IsLiteral) (o : Outside) :
    o.fill j ≠ .null ∧ ∀ s, o.fill j ≠ .string s := by
  cases o with
  | here =>
      obtain ⟨e, ⟨rfl, -⟩, -⟩ := h
      exact ⟨nofun, nofun⟩
  | array | object => exact ⟨nofun, nofun⟩

/-- **Literals are alike in any place** that is not the value of another. -/
theorem alike {j j' : Json} (h : j.IsLiteral) (h' : j'.IsLiteral) (related : R j j') (o : Outside)
    (avoids : o.AvoidsValue) {d : Demand} (hd : d ≠ .constant) :
    Pair.Alike R (.values d (o.fill j) (o.fill j')) := by
  induction o generalizing d with
  | here => exact .of_isLiteral h h' related hd
  | array before inner after ih =>
      have item := ih avoids (d := .element .node) nofun
      cases d with
      | constant => exact absurd rfl hd
      | text => exact .no_text nofun nofun
      | element r => exact .no_element (.no_object nofun) (.no_object nofun)
      | elements r => exact .middle (ih avoids nofun) before after
  | object before key inner after ih =>
      obtain ⟨other, avoids⟩ := avoids
      cases d with
      | constant => exact absurd rfl hd
      | text => exact .no_text nofun nofun
      | elements r => exact .no_array nofun nofun
      | element r =>
          -- The place may be in the type of the object, which is then no element for either
          -- literal.
          rcases lookup_fill before after key "type" with type | ⟨-, place⟩
          · refine .of_fields (type _ _) fun kind ⟨k, d⟩ hp => ?_
            -- Field by field: outside the place the objects are the same, in it the fillings are
            -- alike.
            rcases lookup_fill before after key k with same | ⟨same, place⟩
            · refine .inl fun k => ?_
              unfold Element.Holds
              rw [same]
            · refine .inr ⟨_, _, ⟨place _, (fill_ne h inner).1⟩, ⟨place _, (fill_ne h' inner).1⟩,
                ih avoids fun constant => other ?_⟩
              subst same constant
              exact Element.eq_value_of_mem_demands hp
          · exact .no_element (.type_shape (place _) (fill_ne h inner).2)
              (.type_shape (place _) (fill_ne h' inner).2)

/-- The programs around literals are read alike if the literals are. -/
theorem program_follows {bad : DocumentError → Prop} {j j' : Json} (h : j.IsLiteral)
    (h' : j'.IsLiteral) (o : Outside) (avoids : o.AvoidsValue)
    (follows : j.tree.Follows bad j'.tree) :
    (o.fill j).program.Follows bad (o.fill j').program :=
  Pair.Alike.agrees (R := fun j j' => j.tree.Follows bad j'.tree) (fun _ _ follows => follows)
    (alike h h' follows o avoids (d := .element .program) nofun)

end Json.Outside

end LexCell
