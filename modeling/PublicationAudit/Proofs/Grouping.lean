import PublicationAudit.OrderedMap
import PublicationAudit.Proofs.Lists

/-!
# Grouping by key

Elements pushed one by one into an ordered map form groups. `entries_pushAll` is the main
statement: the groups are the known keys and then the new ones in the order in which they come, each
with its elements in their order.
-/

namespace PublicationAudit

variable {α κ β : Type} [DecidableEq κ]

namespace OrderedMap

/-- A value stored under a new key comes last. -/
theorem entries_insert_of_new {m : OrderedMap κ β} {key : κ} (h : m.find? key = none) (value : β) :
    (m.insert key value).entries = m.entries ++ [(key, value)] := by
  show upsertEntry key (fun _ => value) m.entries = _
  unfold find? at h
  generalize m.entries = entries at h
  induction entries with
  | nil => rfl
  | cons entry entries ih =>
      obtain ⟨known, old⟩ := entry
      by_cases hknown : key = known
      · simp [hknown] at h
      · have hne : ¬ known = key := fun he => hknown he.symm
        rw [List.lookup_cons, show (key == known) = false by simpa using hknown] at h
        rw [upsertEntry, if_neg hne, ih h, List.cons_append]

/-- A map is determined by its keys and lookups. -/
theorem entries_eq_map_keys (m : OrderedMap κ β) (default : β) :
    m.entries = m.keys.map fun key => (key, (m.find? key).getD default) := by
  obtain ⟨entries, hnodup⟩ := m
  simp only [keys, find?]
  induction entries with
  | nil => rfl
  | cons entry entries ih =>
      obtain ⟨key, value⟩ := entry
      rw [List.map_cons, List.nodup_cons] at hnodup
      have htail : (entries.map Prod.fst).map
            (fun k => (k, (((key, value) :: entries).lookup k).getD default)) =
          (entries.map Prod.fst).map fun k => (k, (entries.lookup k).getD default) :=
        List.map_congr_left fun k hk => by
          have hne : k ≠ key := fun he => hnodup.1 (he ▸ hk)
          rw [List.lookup_cons, show (k == key) = false by simpa using hne]
      rw [List.map_cons, List.map_cons, htail, ← ih hnodup.2]
      simp

/-- A lookup answers with the value of an entry. -/
theorem find?_eq_some_of_mem {m : OrderedMap κ β} {key : κ} {value : β}
    (h : (key, value) ∈ m.entries) : m.find? key = some value := by
  have hkey : key ∈ m.keys := List.mem_map.2 ⟨_, h, rfl⟩
  obtain ⟨found, hfound⟩ := Option.isSome_iff_exists.1 ((m.mem_keys_iff key).1 hkey)
  rw [entries_eq_map_keys m value, List.mem_map] at h
  obtain ⟨known, -, hknown⟩ := h
  simp only [Prod.mk.injEq] at hknown
  obtain ⟨rfl, hvalue⟩ := hknown
  rw [hfound, Option.getD_some] at hvalue
  rw [hfound, hvalue]

/-- A lookup after an element was pushed. -/
theorem find?_push (m : OrderedMap κ (List β)) (key other : κ) (b : β) :
    (((m.push key b).find? other).getD []) =
      (m.find? other).getD [] ++ if other = key then [b] else [] := by
  rw [push, find?_upsert]
  split
  · rename_i h
    rw [h, Option.getD_some]
  · rw [List.append_nil]

variable (key : α → κ) (value : α → β)

/-- Under changes in order the known keys stay in their places, and new ones follow as they come. -/
theorem keys_foldl_upsert (f : α → Option β → β) (elements : List α) (m : OrderedMap κ β) :
    (elements.foldl (fun m a => m.upsert (key a) (f a)) m).keys =
      (m.keys ++ elements.map key).eraseDups := by
  induction elements generalizing m with
  | nil =>
      rw [List.map_nil, List.append_nil]
      exact (eraseDups_of_nodup m.nodup_keys_list).symm
  | cons a elements ih =>
      rw [List.foldl_cons, ih, keys_upsert, List.map_cons]
      split
      · rename_i hknown
        exact (eraseDups_append_cons hknown _).symm
      · rw [List.append_assoc, List.singleton_append]

/-- Of changes under distinct keys, a lookup sees the one under its key. -/
theorem find?_foldl_upsert (f : Option β → β) {keys : List κ} (hnodup : keys.Nodup)
    (m : OrderedMap κ β) (k : κ) :
    (keys.foldl (fun m key => m.upsert key f) m).find? k =
      if k ∈ keys then some (f (m.find? k)) else m.find? k := by
  induction keys generalizing m with
  | nil => rfl
  | cons first keys ih =>
      obtain ⟨hfirst, hkeys⟩ := List.nodup_cons.1 hnodup
      rw [List.foldl_cons, ih hkeys, find?_upsert]
      by_cases hk : k = first
      · subst hk
        simp [hfirst]
      · simp [hk]

/-- Elements pushed in order. -/
def pushAll (m : OrderedMap κ (List β)) (elements : List α) : OrderedMap κ (List β) :=
  elements.foldl (fun groups a => groups.push (key a) (value a)) m

/-- The group of a key: what it held, and then the elements of the key. -/
theorem find?_pushAll (m : OrderedMap κ (List β)) (elements : List α) (k : κ) :
    ((m.pushAll key value elements).find? k).getD [] =
      (m.find? k).getD [] ++ (elements.filter (key · = k)).map value := by
  induction elements generalizing m with
  | nil => simp [pushAll]
  | cons a elements ih =>
      have hstep := ih (m.push (key a) (value a))
      rw [find?_push] at hstep
      rw [show m.pushAll key value (a :: elements) =
        (m.push (key a) (value a)).pushAll key value elements from rfl, hstep, List.append_assoc]
      by_cases h : k = key a
      · simp [h]
      · have hne : ¬ key a = k := fun he => h he.symm
        simp [h, hne]

/-- The groups of elements pushed in order. -/
theorem entries_pushAll (m : OrderedMap κ (List β)) (elements : List α) :
    (m.pushAll key value elements).entries =
      (m.keys ++ elements.map key).eraseDups.map fun k =>
        (k, (m.find? k).getD [] ++ (elements.filter (key · = k)).map value) := by
  have hkeys : (m.pushAll key value elements).keys = (m.keys ++ elements.map key).eraseDups :=
    keys_foldl_upsert key (fun a old => old.getD [] ++ [value a]) elements m
  rw [entries_eq_map_keys _ [], hkeys]
  exact List.map_congr_left fun k _ => by rw [find?_pushAll]

end OrderedMap

end PublicationAudit
