/-!
# CellVisor.Table

A finite table from keys to values: a list of pairs in which an insertion replaces what stood
under its key.

* `get?_insert`: after an insertion the key has the new value, and every other key what it had.
* `get?_erase`: after an erasure the key has no value, and every other key what it had.
* `get?_insertAll`, `get?_eraseAll_select`: the same of many entries, and of all keys of a kind.
* `lookup_moved`: what is found of entries whose keys were changed.
-/

namespace CellVisor

/-- A finite table; the entries carry each key at most once. -/
structure Table (κ α : Type) where
  entries : List (κ × α) := []
  deriving Repr, DecidableEq

namespace Table

variable {κ α : Type} [DecidableEq κ]

def empty : Table κ α := {}

def get? (table : Table κ α) (key : κ) : Option α := table.entries.lookup key

/-- The value under `key`, or `default` where there is none. -/
def getD (table : Table κ α) (key : κ) (default : α) : α := (table.get? key).getD default

def erase (table : Table κ α) (key : κ) : Table κ α :=
  ⟨table.entries.filter fun entry => entry.1 ≠ key⟩

/-- With `value` under `key`, in place of what stood there. -/
def insert (table : Table κ α) (key : κ) (value : α) : Table κ α :=
  ⟨(key, value) :: (table.erase key).entries⟩

/-- The entries whose keys `p` holds of. -/
def select (table : Table κ α) (p : κ → Bool) : List (κ × α) :=
  table.entries.filter fun entry => p entry.1

def eraseAll (table : Table κ α) (keys : List κ) : Table κ α := keys.foldl erase table

/-- With all of `entries`; of two for one key the first counts. -/
def insertAll (table : Table κ α) (entries : List (κ × α)) : Table κ α :=
  entries.foldr (fun entry table => table.insert entry.1 entry.2) table

theorem lookup_filter_ne (entries : List (κ × α)) (key other : κ) :
    (entries.filter fun entry => entry.1 ≠ key).lookup other =
      if other = key then none else entries.lookup other := by
  induction entries with
  | nil => simp
  | cons entry rest ih =>
    obtain ⟨k, v⟩ := entry
    rw [List.filter_cons]
    by_cases hk : k = key
    · rw [if_neg (by simpa using hk), ih]
      by_cases ho : other = key
      · rw [if_pos ho, if_pos ho]
      · have hb : (other == k) = false := by simpa [hk] using ho
        rw [if_neg ho, if_neg ho, List.lookup_cons, hb]
    · rw [if_pos (by simpa using hk), List.lookup_cons, List.lookup_cons, ih]
      by_cases ho : other = key
      · have hb : (other == k) = false := by
          simpa [ho] using fun h : key = k => hk h.symm
        simp only [hb, if_pos ho]
      · simp only [if_neg ho]

@[simp] theorem get?_empty (key : κ) : (empty : Table κ α).get? key = none := rfl

theorem get?_erase (table : Table κ α) (key other : κ) :
    (table.erase key).get? other = if other = key then none else table.get? other :=
  lookup_filter_ne _ _ _

theorem get?_insert (table : Table κ α) (key other : κ) (value : α) :
    (table.insert key value).get? other =
      if other = key then some value else table.get? other := by
  unfold insert get?
  by_cases h : other = key
  · subst h
    simp
  · have hb : (other == key) = false := by simpa using h
    have := get?_erase table key other
    unfold get? at this
    simp [List.lookup_cons, hb, this, h]

theorem get?_eraseAll (table : Table κ α) (keys : List κ) (key : κ) :
    (table.eraseAll keys).get? key = if key ∈ keys then none else table.get? key := by
  induction keys generalizing table with
  | nil => simp [eraseAll]
  | cons first rest ih =>
    show ((table.erase first).eraseAll rest).get? key = _
    rw [ih, get?_erase]
    by_cases hfirst : key = first <;> by_cases hrest : key ∈ rest <;> simp [hfirst, hrest]

/-- The keys that `p` holds of are erased, whether or not the table has them. -/
theorem get?_eraseAll_select (table : Table κ α) (p : κ → Bool) (key : κ) :
    (table.eraseAll ((table.select p).map Prod.fst)).get? key =
      if p key then none else table.get? key := by
  have hmember : ∀ value, (key, value) ∈ table.entries → p key = true →
      key ∈ (table.select p).map Prod.fst := fun value hentry hp =>
    List.mem_map.2 ⟨(key, value), List.mem_filter.2 ⟨hentry, hp⟩, rfl⟩
  rw [get?_eraseAll]
  by_cases hp : p key = true
  · rw [if_pos hp, ite_eq_left_iff]
    intro hnone
    refine List.lookup_eq_none_iff.2 fun entry hentry => bne_iff_ne.2 ?_
    rintro rfl
    exact hnone (hmember entry.2 hentry hp)
  · rw [if_neg hp, if_neg]
    intro hkey
    obtain ⟨entry, hentry, rfl⟩ := List.mem_map.1 hkey
    exact hp (List.mem_filter.1 hentry).2

theorem get?_insertAll (table : Table κ α) (entries : List (κ × α)) (key : κ) :
    (table.insertAll entries).get? key = (entries.lookup key).or (table.get? key) := by
  induction entries with
  | nil => simp [insertAll]
  | cons entry rest ih =>
    obtain ⟨first, value⟩ := entry
    show ((table.insertAll rest).insert first value).get? key = _
    rw [get?_insert, ih, List.lookup_cons]
    by_cases hfirst : key = first
    · simp [hfirst]
    · have hb : (key == first) = false := by simpa using hfirst
      simp only [hfirst, hb, if_false]

/-- Where `key` is the one key that is moved to `moved`, what was under it is found there. -/
theorem lookup_moved (table : Table κ α) {p : κ → Bool} {move : κ → κ} {key moved : κ}
    (hkey : p key = true) (hmove : ∀ other, p other = true → (moved = move other ↔ key = other)) :
    ((table.select p).map fun entry => (move entry.1, entry.2)).lookup moved =
      table.get? key := by
  unfold select get?
  induction table.entries with
  | nil => rfl
  | cons entry rest ih =>
    obtain ⟨first, value⟩ := entry
    rw [List.filter_cons, List.lookup_cons]
    by_cases hp : p first = true
    · have hb : (moved == move first) = (key == first) := by
        rw [Bool.eq_iff_iff, beq_iff_eq, beq_iff_eq]
        exact hmove first hp
      rw [if_pos hp, List.map_cons, List.lookup_cons, hb, ih]
    · have hb : (key == first) = false :=
        beq_eq_false_iff_ne.2 fun h => hp (h ▸ hkey)
      rw [if_neg hp, hb, ih]

/-- Where none is, nothing is. -/
theorem lookup_moved_eq_none (table : Table κ α) {p : κ → Bool} {move : κ → κ} {moved : κ}
    (hmove : ∀ other, p other = true → moved ≠ move other) :
    ((table.select p).map fun entry => (move entry.1, entry.2)).lookup moved = none := by
  refine List.lookup_eq_none_iff.2 fun entry hentry => bne_iff_ne.2 ?_
  obtain ⟨before, hbefore, rfl⟩ := List.mem_map.1 hentry
  exact hmove before.1 (List.mem_filter.1 hbefore).2

theorem getD_insert (table : Table κ α) (key other : κ) (value default : α) :
    (table.insert key value).getD other default =
      if other = key then value else table.getD other default := by
  unfold getD
  rw [get?_insert]
  split <;> rfl

end Table
end CellVisor
