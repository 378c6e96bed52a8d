import Mathlib.Data.List.AList

set_option autoImplicit false

namespace KeyedMap

variable {κ ν : Type}

/-- A hash map, as the list of its entries in some order. -/
abbrev Map (κ ν : Type) := AList fun _ : κ => ν

def values (map : Map κ ν) : List ν := map.entries.map (·.2)

/-- Every value becomes `value`. -/
def setAll (map : Map κ ν) (value : ν) : Map κ ν where
  entries := map.entries.map fun entry => ⟨entry.1, value⟩
  nodupKeys := by
    have keys : (map.entries.map fun entry => (⟨entry.1, value⟩ : Sigma fun _ : κ => ν)).keys =
        map.entries.keys := by
      simp only [List.keys, List.map_map, Function.comp_def]
    rw [List.NodupKeys, keys]
    exact map.nodupKeys

/-- The entries whose keys are kept. -/
def filterKeys (keep : κ → Bool) (map : Map κ ν) : Map κ ν where
  entries := map.entries.filter fun entry => keep entry.1
  nodupKeys := List.NodupKeys.sublist List.filter_sublist map.nodupKeys

variable [DecidableEq κ]

theorem lookup_filterKeys (keep : κ → Bool) (map : Map κ ν) (key : κ) :
    (filterKeys keep map).lookup key = if keep key then map.lookup key else none := by
  apply Option.ext
  intro value
  have stored : (filterKeys keep map).lookup key = some value ↔
      (⟨key, value⟩ : Sigma fun _ : κ => ν) ∈ (filterKeys keep map).entries := AList.mem_lookup_iff
  have original : map.lookup key = some value ↔
      (⟨key, value⟩ : Sigma fun _ : κ => ν) ∈ map.entries := AList.mem_lookup_iff
  rw [stored, filterKeys, List.mem_filter]
  cases kept : keep key with
  | false => simp
  | true => simp [original]

theorem mem_values (map : Map κ ν) (value : ν) (member : value ∈ values map) :
    ∃ key, map.lookup key = some value := by
  obtain ⟨⟨key, found⟩, stored, rfl⟩ := List.mem_map.mp member
  exact ⟨key, AList.mem_lookup_iff.mpr stored⟩

theorem lookup_setAll (map : Map κ ν) (value found : ν) (key : κ)
    (present : (setAll map value).lookup key = some found) : found = value := by
  have stored := AList.mem_lookup_iff.mp present
  obtain ⟨entry, _, same⟩ := List.mem_map.mp stored
  cases same
  rfl

theorem lookup_insert (map : Map κ ν) (key other : κ) (value : ν) :
    (map.insert key value).lookup other = if other = key then some value else map.lookup other := by
  split
  · rename_i same
    rw [same, AList.lookup_insert]
  · rename_i apart
    exact AList.lookup_insert_ne apart

/-- Inserting a value that depends on the key alone, for all keys of a list. -/
theorem lookup_insertAll (value : κ → ν) (keys : List κ) (map : Map κ ν) (key : κ) :
    (keys.foldl (fun map key => map.insert key (value key)) map).lookup key =
      if key ∈ keys then some (value key) else map.lookup key := by
  induction keys generalizing map with
  | nil => rw [List.foldl_nil, if_neg List.not_mem_nil]
  | cons first rest ih =>
    rw [List.foldl_cons, ih, lookup_insert]
    by_cases behind : key ∈ rest
    · rw [if_pos behind, if_pos (List.mem_cons_of_mem _ behind)]
    · rw [if_neg behind]
      by_cases here : key = first
      · rw [if_pos here, here, if_pos List.mem_cons_self]
      · rw [if_neg here, if_neg]
        simp only [List.mem_cons, here, behind, or_self, not_false_eq_true]

end KeyedMap
