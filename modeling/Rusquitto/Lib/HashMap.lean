import Mathlib.Data.List.AList

/-!
# Keyed tables

The part of a hash map's interface that `AList` does not have: changing one entry in place
(`get_mut`), changing every value (`values_mut`), and reading a table that a fold over a list of
keys has written. Every fact is about `lookup`, so that no proof depends on the order in which a
table keeps its entries.
-/

namespace AList

variable {K V W : Type*} [DecidableEq K]

/-- The values of a table. -/
def values (m : AList fun _ : K => V) : List V :=
  m.entries.map Sigma.snd

lemma mem_values {m : AList fun _ : K => V} {v : V} :
    v ∈ m.values ↔ ∃ k, m.lookup k = some v := by
  simp only [values, List.mem_map]
  constructor
  · rintro ⟨⟨k, w⟩, he, rfl⟩
    exact ⟨k, mem_lookup_iff.mpr he⟩
  · rintro ⟨k, hk⟩
    exact ⟨⟨k, v⟩, mem_lookup_iff.mp hk, rfl⟩

lemma lookup_insert_eq_ite (m : AList fun _ : K => V) (k k' : K) (v : V) :
    (m.insert k' v).lookup k = if k = k' then some v else m.lookup k := by
  split
  next h => rw [h, lookup_insert]
  next h => rw [lookup_insert_ne h]

lemma lookup_erase_eq_ite (m : AList fun _ : K => V) (k k' : K) :
    (m.erase k').lookup k = if k = k' then none else m.lookup k := by
  split
  next h => rw [h, lookup_erase]
  next h => rw [lookup_erase_ne h]

/-- Changes the value stored under `k`, if there is one. -/
def modify (m : AList fun _ : K => V) (k : K) (f : V → V) : AList fun _ : K => V :=
  match m.lookup k with
  | some v => m.insert k (f v)
  | none => m

/-- Changes every value. -/
def mapValues (m : AList fun _ : K => V) (f : K → V → W) : AList fun _ : K => W where
  entries := m.entries.map fun e => ⟨e.1, f e.1 e.2⟩
  nodupKeys := by
    have h := m.nodupKeys
    rw [List.NodupKeys, List.keys, List.map_map]
    exact h

lemma lookup_mapValues (m : AList fun _ : K => V) (f : K → V → W) (k : K) :
    (m.mapValues f).lookup k = (m.lookup k).map (f k) :=
  List.dlookup_map₂ k

end AList
