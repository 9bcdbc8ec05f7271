/-!
# Maps that remember when a key first came

A finite map whose entries stand in the order in which their keys were first stored. Storing under a
known key changes the value in its place. The two equations to know are `keys_upsert`, which says
how the keys grow, and `find?_upsert`, which says what a later lookup answers.
-/

namespace PublicationAudit

variable {κ ν : Type} [DecidableEq κ]

/-- Changes the value stored under `key`, or appends an entry for it. -/
def upsertEntry (key : κ) (f : Option ν → ν) : List (κ × ν) → List (κ × ν)
  | [] => [(key, f none)]
  | (k, v) :: rest => if k = key then (k, f (some v)) :: rest else (k, v) :: upsertEntry key f rest

/-- The keys after a change: the known keys in their places, a new key at the end. -/
theorem map_fst_upsertEntry (key : κ) (f : Option ν → ν) (entries : List (κ × ν)) :
    (upsertEntry key f entries).map Prod.fst =
      if key ∈ entries.map Prod.fst then entries.map Prod.fst
      else entries.map Prod.fst ++ [key] := by
  induction entries with
  | nil => simp [upsertEntry]
  | cons e rest ih =>
    obtain ⟨k, v⟩ := e
    by_cases hk : k = key
    · simp [upsertEntry, hk]
    · have hk' : ¬key = k := fun h => hk h.symm
      simp only [upsertEntry, hk, if_false, List.map_cons, ih, List.mem_cons, hk', false_or]
      split <;> simp

/-- A finite map in the order of first insertion. -/
structure OrderedMap (κ ν : Type) where
  entries : List (κ × ν)
  nodup_keys : (entries.map Prod.fst).Nodup := by simp

namespace OrderedMap

/-- The map without entries. -/
def empty : OrderedMap κ ν where
  entries := []

instance : Inhabited (OrderedMap κ ν) := ⟨⟨[], by simp⟩⟩

/-- The keys in the order in which they were first stored. -/
def keys (m : OrderedMap κ ν) : List κ := m.entries.map Prod.fst

/-- The values in the order of their keys. -/
def values (m : OrderedMap κ ν) : List ν := m.entries.map Prod.snd

/-- The value stored under a key. -/
def find? (m : OrderedMap κ ν) (key : κ) : Option ν := m.entries.lookup key

/-- Whether a value is stored under the key. -/
def contains (m : OrderedMap κ ν) (key : κ) : Bool := (m.find? key).isSome

/-- Stores `f old` under the key, where `old` is the value stored so far. -/
def upsert (m : OrderedMap κ ν) (key : κ) (f : Option ν → ν) : OrderedMap κ ν where
  entries := upsertEntry key f m.entries
  nodup_keys := by
    rw [map_fst_upsertEntry]
    split
    · exact m.nodup_keys
    · rename_i h
      exact List.nodup_append.2 ⟨m.nodup_keys, by simp, fun a ha b hb he => by
        simp only [List.mem_singleton] at hb
        exact h (by rw [← hb, ← he]; exact ha)⟩

/-- Stores a value; a value stored earlier under the key is forgotten. -/
def insert (m : OrderedMap κ ν) (key : κ) (value : ν) : OrderedMap κ ν :=
  m.upsert key fun _ => value

/-- Stores a value unless the key is known. -/
def insertIfNew (m : OrderedMap κ ν) (key : κ) (value : ν) : OrderedMap κ ν :=
  if m.contains key then m else m.insert key value

/-- Adds an element to the list stored under a key. -/
def push {α : Type} (m : OrderedMap κ (List α)) (key : κ) (a : α) : OrderedMap κ (List α) :=
  m.upsert key fun old => old.getD [] ++ [a]

/-- The number of keys. -/
def size (m : OrderedMap κ ν) : Nat := m.entries.length

omit [DecidableEq κ] in
@[simp] theorem keys_empty : (empty : OrderedMap κ ν).keys = [] := rfl

@[simp] theorem find?_empty (key : κ) : (empty : OrderedMap κ ν).find? key = none := rfl

omit [DecidableEq κ] in
/-- No key is stored twice. -/
theorem nodup_keys_list (m : OrderedMap κ ν) : m.keys.Nodup := m.nodup_keys

/-- A known key keeps its place, a new one comes last. -/
theorem keys_upsert (m : OrderedMap κ ν) (key : κ) (f : Option ν → ν) :
    (m.upsert key f).keys = if key ∈ m.keys then m.keys else m.keys ++ [key] :=
  map_fst_upsertEntry key f m.entries

/-- A lookup after a change sees the change under its key and nothing else. -/
theorem find?_upsert (m : OrderedMap κ ν) (key other : κ) (f : Option ν → ν) :
    (m.upsert key f).find? other =
      if other = key then some (f (m.find? key)) else m.find? other := by
  simp only [find?, upsert]
  induction m.entries with
  | nil =>
    by_cases h : other = key
    · simp [upsertEntry, h]
    · have : (other == key) = false := by simpa using h
      simp [upsertEntry, List.lookup_cons, this, h]
  | cons e rest ih =>
    obtain ⟨k, v⟩ := e
    by_cases hk : k = key
    · subst hk
      by_cases h : other = k
      · simp [upsertEntry, h]
      · have : (other == k) = false := by simpa using h
        simp [upsertEntry, List.lookup_cons, this, h]
    · by_cases ho : other = k
      · subst ho
        simp [upsertEntry, hk]
      · have h1 : (other == k) = false := by simpa using ho
        have h2 : (key == k) = false := by simpa using fun h => hk h.symm
        simp [upsertEntry, hk, List.lookup_cons, h1, h2, ih]

/-- A key is known exactly when a lookup answers. -/
theorem mem_keys_iff (m : OrderedMap κ ν) (key : κ) : key ∈ m.keys ↔ (m.find? key).isSome := by
  simp only [keys, find?]
  induction m.entries with
  | nil => simp
  | cons e rest ih =>
    obtain ⟨k, v⟩ := e
    by_cases h : key = k
    · simp [h]
    · have : (key == k) = false := by simpa using h
      simp [List.lookup_cons, this, ih, h]

end OrderedMap

end PublicationAudit
