/-
Finite tables: at most one entry for a key. Inserting under a key replaces what
was there. The order of the entries means nothing.
-/

namespace TaskMachine

/-- A finite map from keys to entries. -/
structure Table (Key Entry : Type) where
  /-- The pairs of keys and entries. -/
  pairs : List (Key × Entry)
  /-- No key occurs twice. -/
  distinct : (pairs.map Prod.fst).Nodup

namespace Table

variable {Key Entry : Type}

/-- The table without entries. -/
def empty : Table Key Entry := ⟨[], List.nodup_nil⟩

instance : Inhabited (Table Key Entry) := ⟨empty⟩

/-- The number of entries. -/
def size (table : Table Key Entry) : Nat := table.pairs.length

/-- Whether there is no entry. -/
def isEmpty (table : Table Key Entry) : Bool := table.pairs.isEmpty

variable [DecidableEq Key]

/-- The entry under a key. -/
def find? (table : Table Key Entry) (key : Key) : Option Entry :=
  (table.pairs.find? fun pair => pair.1 = key).map Prod.snd

/-- Whether there is an entry under a key. -/
def contains (table : Table Key Entry) (key : Key) : Bool := (table.find? key).isSome

/-- The table without the entry under a key. -/
def erase (table : Table Key Entry) (key : Key) : Table Key Entry :=
  { pairs := table.pairs.filter fun pair => pair.1 ≠ key
    distinct := (List.filter_sublist.map Prod.fst).nodup table.distinct }

/-- The table with an entry under a key, in place of the one that may have been there. -/
def insert (table : Table Key Entry) (key : Key) (entry : Entry) : Table Key Entry :=
  { pairs := (key, entry) :: (table.erase key).pairs
    distinct := by
      refine List.nodup_cons.2 ⟨?_, (table.erase key).distinct⟩
      simp [erase] }

/-! ### Entries after a change -/

@[simp] theorem find?_empty (key : Key) : (empty : Table Key Entry).find? key = none := rfl

@[simp] theorem find?_insert_self (table : Table Key Entry) (key : Key) (entry : Entry) :
    (table.insert key entry).find? key = some entry := by
  simp [find?, insert]

@[simp] theorem find?_erase_self (table : Table Key Entry) (key : Key) :
    (table.erase key).find? key = none := by
  simp [find?, erase]

theorem find?_erase_other (table : Table Key Entry) {key other : Key} (differ : other ≠ key) :
    (table.erase key).find? other = table.find? other := by
  unfold find? erase
  rw [List.find?_filter]
  congr 2
  funext pair
  by_cases same : pair.1 = other
  · simp [same, differ]
  · simp [same]

theorem find?_insert_other (table : Table Key Entry) {key other : Key} (entry : Entry)
    (differ : other ≠ key) : (table.insert key entry).find? other = table.find? other := by
  rw [← find?_erase_other table differ]
  simp [find?, insert, differ.symm]

theorem insert_erase (table : Table Key Entry) (key : Key) (entry : Entry) :
    (table.erase key).insert key entry = table.insert key entry := by
  simp [insert, erase]

theorem mem_pairs_iff {table : Table Key Entry} {key : Key} {entry : Entry} :
    (key, entry) ∈ table.pairs ↔ table.find? key = some entry := by
  have found (pairs : List (Key × Entry)) (distinct : (pairs.map Prod.fst).Nodup) :
      (key, entry) ∈ pairs ↔
        (pairs.find? fun pair => pair.1 = key).map Prod.snd = some entry := by
    induction pairs with
    | nil => simp
    | cons pair rest inductionHypothesis =>
      obtain ⟨other, kept⟩ := pair
      obtain ⟨absent, distinctRest⟩ := List.nodup_cons.mp distinct
      by_cases same : other = key
      · subst same
        have alone : (other, entry) ∉ rest := fun member =>
          absent (List.mem_map.mpr ⟨(other, entry), member, rfl⟩)
        simp [alone, eq_comm]
      · simpa [same, Ne.symm same] using inductionHypothesis distinctRest
  exact found table.pairs table.distinct

end Table

end TaskMachine
