/-!
# Table — a finite map as a list of pairs

Lookups decide everything a user can see: `get?_insert`, `get?_erase` and `get?_empty` say what each operation does to
them.
-/

namespace SoundDesk

/-- A finite map, kept as a list with one pair a key. -/
structure Table (κ ν : Type) where
  /-- The pairs, in the order in which their keys were first put in. -/
  entries : List (κ × ν)
  deriving BEq, Repr

namespace Table

variable {κ ν : Type} [DecidableEq κ]

/-- The table without entries. -/
def empty : Table κ ν := ⟨[]⟩

instance : Inhabited (Table κ ν) := ⟨empty⟩

/-- The value at the first pair with key `k`. -/
def lookup (k : κ) : List (κ × ν) → Option ν
  | [] => none
  | (j, v) :: rest => if j = k then some v else lookup k rest

/-- The value stored for `k`. -/
def get? (t : Table κ ν) (k : κ) : Option ν := lookup k t.entries

/-- The pairs with the value at `k` replaced, or with a new pair at the end. -/
def replace (k : κ) (v : ν) : List (κ × ν) → List (κ × ν)
  | [] => [(k, v)]
  | (j, w) :: rest => if j = k then (k, v) :: rest else (j, w) :: replace k v rest

/-- Store `v` for `k`. -/
def insert (t : Table κ ν) (k : κ) (v : ν) : Table κ ν := ⟨replace k v t.entries⟩

/-- Forget `k`. -/
def erase (t : Table κ ν) (k : κ) : Table κ ν := ⟨t.entries.filter fun e => e.1 ≠ k⟩

/-- The keys, in the order in which they were first put in. -/
def keys (t : Table κ ν) : List κ := t.entries.map Prod.fst

/-- The table of a list of pairs, in which a later pair wins over an earlier one. -/
def ofList (pairs : List (κ × ν)) : Table κ ν := pairs.foldl (fun t p => t.insert p.1 p.2) empty

theorem lookup_replace (k j : κ) (v : ν) (entries : List (κ × ν)) :
    lookup j (replace k v entries) = if k = j then some v else lookup j entries := by
  induction entries with
  | nil => simp [replace, lookup]
  | cons e rest ih => grind [replace, lookup]

theorem lookup_filter (k j : κ) (entries : List (κ × ν)) :
    lookup j (entries.filter fun e => e.1 ≠ k) = if k = j then none else lookup j entries := by
  induction entries with
  | nil => simp [lookup]
  | cons e rest ih => grind [lookup]

@[simp] theorem get?_empty (k : κ) : (empty : Table κ ν).get? k = none := rfl

/-- What is put in is found under its key, and all else as before. -/
theorem get?_insert (t : Table κ ν) (k j : κ) (v : ν) :
    (t.insert k v).get? j = if k = j then some v else t.get? j := lookup_replace k j v t.entries

/-- What is taken out is found no more, and all else as before. -/
theorem get?_erase (t : Table κ ν) (k j : κ) :
    (t.erase k).get? j = if k = j then none else t.get? j := lookup_filter k j t.entries

theorem isSome_lookup (k : κ) (entries : List (κ × ν)) :
    (lookup k entries).isSome ↔ k ∈ entries.map Prod.fst := by
  induction entries with
  | nil => simp [lookup]
  | cons e rest ih => grind [lookup]

/-- A key is one under which something is stored. -/
theorem mem_keys (t : Table κ ν) (k : κ) : k ∈ t.keys ↔ (t.get? k).isSome :=
  (isSome_lookup k t.entries).symm

/-- A key that is new comes last; one that was there keeps its place. -/
theorem keys_replace (k : κ) (v : ν) (entries : List (κ × ν)) : (replace k v entries).map Prod.fst =
    if k ∈ entries.map Prod.fst then entries.map Prod.fst else entries.map Prod.fst ++ [k] := by
  induction entries with
  | nil => simp [replace]
  | cons e rest ih => grind [replace]

/-- Storing keeps the keys distinct. -/
theorem nodup_keys_insert {t : Table κ ν} (h : t.keys.Nodup) (k : κ) (v : ν) : (t.insert k v).keys.Nodup := by
  unfold keys insert at *
  rw [keys_replace]
  split
  · exact h
  · next hk => exact List.nodup_append.mpr ⟨h, by simp, by grind⟩

end Table

end SoundDesk
