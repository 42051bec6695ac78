/-!
# Association lists sorted by key

A finite map as a list of pairs whose keys ascend strictly, so two maps with the same entries are
the same list. `insert` replaces the value of a key that is already there. The view is
`List.lookup`; `lookup_insert` says what `insert` does to it and `sorted_insert` that the order
stays.
-/

namespace LexCell.Assoc

variable {κ ν : Type} [DecidableEq κ] [LT κ] [DecidableLT κ]

/-- Puts a key at its place, or replaces its value. -/
def insert (k : κ) (v : ν) : List (κ × ν) → List (κ × ν)
  | [] => [(k, v)]
  | (k', v') :: rest =>
      if k = k' then (k, v) :: rest
      else if k < k' then (k, v) :: (k', v') :: rest
      else (k', v') :: insert k v rest

def Sorted (entries : List (κ × ν)) : Prop := entries.Pairwise (fun a b => a.1 < b.1)

/-- What is found after an insertion. Nothing has to be sorted for this: a key that is there twice
is found where it stands first, which is also where it is replaced. -/
@[simp] theorem lookup_insert (k k' : κ) (v : ν) (entries : List (κ × ν)) :
    (insert k v entries).lookup k' = if k' = k then some v else entries.lookup k' := by
  induction entries with
  | nil => grind [insert]
  | cons e rest ih => grind [insert]

/-- Values are replaced key by key. -/
theorem map_insert {ν' : Type} (f : ν → ν') (k : κ) (v : ν) (entries : List (κ × ν)) :
    (insert k v entries).map (Prod.map id f) = insert k (f v) (entries.map (Prod.map id f)) := by
  induction entries with
  | nil => rfl
  | cons e rest ih =>
      obtain ⟨k', v'⟩ := e
      simp only [insert, List.map_cons, Prod.map_apply, id_eq]
      split
      · rfl
      · split
        · rfl
        · rw [List.map_cons, ih]
          rfl

omit [LT κ] [DecidableLT κ] in
/-- Keys are found where they were, for they stay as they are. -/
theorem lookup_map {ν' : Type} (f : ν → ν') (k : κ) (entries : List (κ × ν)) :
    (entries.map (Prod.map id f)).lookup k = (entries.lookup k).map f := by
  induction entries with
  | nil => rfl
  | cons e rest ih =>
      obtain ⟨k', v'⟩ := e
      simp only [List.map_cons, Prod.map_apply, id_eq, List.lookup_cons, ih]
      split <;> rfl

/-- An insertion adds no entry but the one given. -/
theorem mem_insert {k : κ} {v : ν} {entries : List (κ × ν)} {e : κ × ν}
    (h : e ∈ insert k v entries) : e = (k, v) ∨ e ∈ entries := by
  induction entries with
  | nil => simpa [insert] using h
  | cons e' rest ih => grind [insert]

/-- The order stays, so that equal maps stay equal lists. -/
theorem sorted_insert [Trans (α := κ) (· < ·) (· < ·) (· < ·)]
    [Std.Trichotomous (α := κ) (· < ·)] (k : κ) (v : ν) {entries : List (κ × ν)}
    (h : Sorted entries) : Sorted (insert k v entries) := by
  induction entries with
  | nil => simp [insert, Sorted]
  | cons e rest ih =>
      obtain ⟨k', v'⟩ := e
      obtain ⟨head, tail⟩ := List.pairwise_cons.mp h
      unfold insert
      split
      · next heq => exact List.pairwise_cons.mpr ⟨fun e he => heq ▸ head e he, tail⟩
      · next hne =>
        split
        · next hlt =>
          refine List.pairwise_cons.mpr ⟨fun e he => ?_, h⟩
          rcases List.mem_cons.mp he with rfl | he
          · exact hlt
          · exact Trans.trans hlt (head e he)
        · -- the key goes somewhere behind the first one
          next hnlt =>
          refine List.pairwise_cons.mpr ⟨fun e he => ?_, ih tail⟩
          -- What stands there is the new entry or was there before.
          rcases mem_insert he with rfl | he
          · exact Decidable.byContradiction fun hgt =>
              hne (Std.Trichotomous.trichotomous k k' hnlt hgt)
          · exact head e he

end LexCell.Assoc
