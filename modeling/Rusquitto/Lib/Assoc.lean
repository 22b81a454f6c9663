import Mathlib.Data.List.Nodup
import Mathlib.Data.List.Perm.Basic

/-!
# Association lists

Update and removal by key in a list of pairs, read with `List.lookup`. The update keeps the place
of a key that is there and appends a new one, so that a traversal of the other keys sees the same
sequence before and after.
-/

namespace Lib.Assoc

open List Prod

variable {K V W : Type*} [DecidableEq K]

/-- Set the value of `k`: in place if the key is there, else appended. -/
def set (k : K) (v : V) : List (K × V) → List (K × V)
  | [] => [(k, v)]
  | (key, w) :: l => if key = k then (key, v) :: l else (key, w) :: set k v l

/-- Remove the key `k`. -/
def remove (k : K) (l : List (K × V)) : List (K × V) :=
  l.filter fun e => decide (e.1 ≠ k)

variable {k : K} {v : V} {l : List (K × V)}

lemma lookup_cons_eq_ite (j k : K) (v : V) (l : List (K × V)) :
    ((k, v) :: l).lookup j = if j = k then some v else l.lookup j := by
  rw [lookup_cons]
  by_cases h : j = k
  · simp [h]
  · rw [if_neg h, beq_false_of_ne h]

/-- What a set key and the other keys read. -/
lemma lookup_set (j k : K) (v : V) (l : List (K × V)) :
    (set k v l).lookup j = if j = k then some v else l.lookup j := by
  induction l with
  | nil => rw [set, lookup_cons_eq_ite]
  | cons e l ih =>
    obtain ⟨key, w⟩ := e
    rw [set]
    by_cases hkey : key = k
    · subst hkey
      rw [if_pos rfl, lookup_cons_eq_ite, lookup_cons_eq_ite]
      split_ifs <;> rfl
    · rw [if_neg hkey, lookup_cons_eq_ite, lookup_cons_eq_ite, ih]
      by_cases hj : j = key
      · rw [if_pos hj, if_pos hj, if_neg (hj ▸ hkey)]
      · rw [if_neg hj, if_neg hj]

lemma mem_of_lookup (h : l.lookup k = some v) : (k, v) ∈ l := by
  obtain ⟨l₁, l₂, rfl, -⟩ := lookup_eq_some_iff.mp h
  simp

lemma lookup_eq_none_iff_notMem : l.lookup k = none ↔ k ∉ l.map fst := by
  rw [lookup_eq_none_iff, mem_map, not_exists]
  refine forall_congr' fun e => ?_
  rw [not_and, bne_iff_ne, ne_comm]

/-- With distinct keys, membership is lookup. -/
lemma mem_iff_lookup (hnd : (l.map fst).Nodup) : (k, v) ∈ l ↔ l.lookup k = some v := by
  refine ⟨fun h => ?_, mem_of_lookup⟩
  induction l with
  | nil => simp at h
  | cons e l ih =>
    obtain ⟨key, w⟩ := e
    rw [map_cons, nodup_cons] at hnd
    rw [lookup_cons_eq_ite]
    rcases mem_cons.mp h with heq | hmem
    · simp only [mk.injEq] at heq
      rw [if_pos heq.1, heq.2]
    · have hne : k ≠ key := by
        rintro rfl
        exact hnd.1 (mem_map.mpr ⟨_, hmem, rfl⟩)
      rw [if_neg hne, ih hnd.2 hmem]

lemma mem_set {e : K × V} (h : e ∈ set k v l) : e = (k, v) ∨ e ∈ l := by
  induction l with
  | nil => exact .inl (mem_singleton.mp h)
  | cons d l ih =>
    rw [set] at h
    split_ifs at h with hkey
    · rcases mem_cons.mp h with rfl | h
      · exact .inl (by rw [hkey])
      · exact .inr (mem_cons_of_mem _ h)
    · rcases mem_cons.mp h with rfl | h
      · exact .inr mem_cons_self
      · exact (ih h).imp_right (mem_cons_of_mem _)

lemma set_of_notMem (h : k ∉ l.map fst) : set k v l = l ++ [(k, v)] := by
  induction l with
  | nil => rfl
  | cons e l ih =>
    rw [map_cons, mem_cons, not_or] at h
    rw [set, if_neg (Ne.symm h.1), ih h.2, cons_append]

lemma map_fst_set_of_mem (h : k ∈ l.map fst) : (set k v l).map fst = l.map fst := by
  induction l with
  | nil => simp at h
  | cons e l ih =>
    rw [set]
    split_ifs with hkey
    · rfl
    · rw [map_cons, map_cons, ih]
      exact (mem_cons.mp h).resolve_left (Ne.symm hkey)

lemma nodup_keys_set (hnd : (l.map fst).Nodup) : ((set k v l).map fst).Nodup := by
  by_cases h : k ∈ l.map fst
  · rwa [map_fst_set_of_mem h]
  · rw [set_of_notMem h, map_append, nodup_append]
    refine ⟨hnd, nodup_singleton k, ?_⟩
    intro a ha b hb hab
    rw [map_singleton, mem_singleton] at hb
    rw [hab, hb] at ha
    exact h ha

lemma nodup_keys_remove (hnd : (l.map fst).Nodup) : ((remove k l).map fst).Nodup :=
  hnd.sublist (filter_sublist.map fst)

/-- Compare a traversal of a list with one key set and a traversal of the list itself. -/
lemma flatMap_set (hnd : (l.map fst).Nodup) {w : V} {f g : K × V → List W}
    (h : l.lookup k = some w) (hk : f (k, v) = g (k, w))
    (hne : ∀ e ∈ l, e.1 ≠ k → f e = g e) : (set k v l).flatMap f = l.flatMap g := by
  induction l with
  | nil => simp at h
  | cons e l ih =>
    obtain ⟨key, x⟩ := e
    rw [map_cons, nodup_cons] at hnd
    rw [lookup_cons_eq_ite] at h
    rw [set]
    by_cases hkey : key = k
    · subst hkey
      rw [if_pos rfl, Option.some.injEq] at h
      have hrest : l.flatMap f = l.flatMap g := by
        refine flatMap_congr fun e he => hne e (mem_cons_of_mem _ he) ?_
        rintro rfl
        exact hnd.1 (mem_map.mpr ⟨e, he, rfl⟩)
      rw [if_pos rfl, flatMap_cons, flatMap_cons, hk, h, hrest]
    · rw [if_neg (Ne.symm hkey)] at h
      rw [if_neg hkey, flatMap_cons, flatMap_cons, hne _ mem_cons_self hkey,
        ih hnd.2 h fun e he => hne e (mem_cons_of_mem _ he)]

/-- Compare a traversal of a list with one key removed and a traversal of the list itself. -/
lemma flatMap_remove {f g : K × V → List W} (hk : ∀ w, (k, w) ∈ l → g (k, w) = [])
    (hne : ∀ e ∈ l, e.1 ≠ k → f e = g e) : (remove k l).flatMap f = l.flatMap g := by
  induction l with
  | nil => rfl
  | cons e l ih =>
    obtain ⟨key, x⟩ := e
    have hrest := ih (fun w hw => hk w (mem_cons_of_mem _ hw))
      fun e he => hne e (mem_cons_of_mem _ he)
    rw [remove] at hrest ⊢
    by_cases hkey : key = k
    · subst hkey
      rw [filter_cons_of_neg (by simp), hrest, flatMap_cons, hk x mem_cons_self,
        nil_append]
    · rw [filter_cons_of_pos (by simpa using hkey), flatMap_cons, flatMap_cons,
        hrest, hne _ mem_cons_self hkey]

/-- A traversal that sees something at `k` only is a lookup. -/
lemma flatMap_eq_lookup (hnd : (l.map fst).Nodup) {f : K × V → List W}
    (hf : ∀ e ∈ l, e.1 ≠ k → f e = []) :
    l.flatMap f = ((l.lookup k).map fun w => f (k, w)).getD [] := by
  induction l with
  | nil => rfl
  | cons e l ih =>
    obtain ⟨key, x⟩ := e
    rw [map_cons, nodup_cons] at hnd
    rw [flatMap_cons, lookup_cons_eq_ite]
    have hrest := ih hnd.2 fun d hd => hf d (mem_cons_of_mem _ hd)
    by_cases hkey : k = key
    · subst hkey
      have hnone : l.lookup k = none := lookup_eq_none_iff_notMem.mpr hnd.1
      rw [hrest, hnone, if_pos rfl]
      simp
    · rw [hf _ mem_cons_self (Ne.symm hkey), hrest, if_neg hkey, nil_append]

end Lib.Assoc
