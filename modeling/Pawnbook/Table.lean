/-! # Tables

A table maps keys to values and remembers the order in which its keys first came in. Which keys
are the same is the business of the key type's `==`. Writing to a key that is there keeps its
place (`Table.insert`), so the order of `Table.keys` never changes but at its end. The lemmas say
what a write does to each look-up. -/

namespace Pawnbook

/-- A finite map with its keys in order of first insertion. -/
structure Table (κ ν : Type) where
  entries : List (κ × ν) := []
deriving DecidableEq

namespace Table

variable {κ ν : Type}

def empty : Table κ ν := ⟨[]⟩

instance : Inhabited (Table κ ν) := ⟨empty⟩

def keys (t : Table κ ν) : List κ := t.entries.map (·.1)

def values (t : Table κ ν) : List ν := t.entries.map (·.2)

def size (t : Table κ ν) : Nat := t.entries.length

variable [BEq κ]

/-- The value in a list of entries under a key. -/
def find? (k : κ) : List (κ × ν) → Option ν
  | [] => none
  | (k', v) :: rest => if k' == k then some v else find? k rest

def get? (t : Table κ ν) (k : κ) : Option ν := find? k t.entries

/-- Writes `v` under `k` into a list of entries: in the place of the old value, or at the end. A
key that is there stays as it was first written. -/
def put (k : κ) (v : ν) : List (κ × ν) → List (κ × ν)
  | [] => [(k, v)]
  | (k', v') :: rest => if k' == k then (k', v) :: rest else (k', v') :: put k v rest

/-- Writes `v` under `k`. -/
def insert (t : Table κ ν) (k : κ) (v : ν) : Table κ ν := ⟨put k v t.entries⟩

def contains (t : Table κ ν) (k : κ) : Bool := (t.get? k).isSome

/-- The table of a list of entries, a later entry replacing an earlier one of its key. -/
def ofList (es : List (κ × ν)) : Table κ ν := es.foldl (fun t e => t.insert e.1 e.2) empty

/-! ### Writes and look-ups -/

theorem find?_put [EquivBEq κ] (k k' : κ) (v : ν) (es : List (κ × ν)) :
    find? k' (put k v es) = if k == k' then some v else find? k' es := by
  induction es with
  | nil => simp [put, find?]
  | cons e es ih =>
    by_cases h : e.1 == k
    · by_cases h' : k == k'
      · simp [put, find?, h, h', BEq.trans h h']
      · have : ¬ (e.1 == k') = true := fun he => h' (BEq.trans (BEq.symm h) he)
        simp [put, find?, h, h', this]
    · by_cases h' : e.1 == k'
      · have : ¬ (k == k') = true := fun hk => h (BEq.trans h' (BEq.symm hk))
        simp [put, find?, h, h', this]
      · simp [put, find?, h, h', ih]

theorem find?_congr [EquivBEq κ] {k k' : κ} (h : (k == k') = true) (es : List (κ × ν)) :
    find? k es = find? k' es := by
  induction es with
  | nil => rfl
  | cons e es ih => simp only [find?, BEq.congr_right h, ih]

theorem get?_congr [EquivBEq κ] (t : Table κ ν) {k k' : κ} (h : (k == k') = true) :
    t.get? k = t.get? k' := find?_congr h t.entries

@[simp] theorem get?_empty (k : κ) : (empty : Table κ ν).get? k = none := rfl

theorem get?_insert [EquivBEq κ] (t : Table κ ν) (k k' : κ) (v : ν) :
    (t.insert k v).get? k' = if k == k' then some v else t.get? k' := find?_put k k' v t.entries

@[simp] theorem get?_insert_self [EquivBEq κ] (t : Table κ ν) (k : κ) (v : ν) :
    (t.insert k v).get? k = some v := by simp [get?_insert]

theorem get?_insert_of_ne [EquivBEq κ] (t : Table κ ν) {k k' : κ} (v : ν) (h : (k == k') = false) :
    (t.insert k v).get? k' = t.get? k' := by simp [get?_insert, h]

end Table
end Pawnbook
