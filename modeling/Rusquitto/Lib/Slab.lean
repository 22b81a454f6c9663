import Mathlib.Data.List.Basic
import Mathlib.Logic.Function.Iterate
import Mathlib.Order.Nat

/-!
# A slab with generation tags

A slab stores values at indices that are used again after a removal. Each index has a tag that
changes with every removal, so that a *handle*, an index with a tag, is not mistaken for a later
value, as long as no index is used more often than `bump` has tags.
-/

namespace Lib

open List

/-- The values, the tags and the free indices. -/
structure Slab (α τ : Type*) where
  slots : List (Option α) := []
  tags : List τ := []
  free : List ℕ := []

namespace Slab

variable {α τ : Type*}

/-- The value at an index. -/
def at? (s : Slab α τ) (i : ℕ) : Option α := s.slots[i]?.join

/-- Stores a value: the last index to become free is used, or a new one. -/
def insert (first : τ) (s : Slab α τ) (a : α) : ℕ × Slab α τ :=
  match s.free with
  | i :: free => (i, { s with slots := s.slots.set i (some a), free })
  | [] => (s.slots.length, { s with slots := s.slots ++ [some a], tags := s.tags ++ [first] })

/-- Takes the value at an index out. -/
def remove (bump : τ → τ) (s : Slab α τ) (i : ℕ) : Option (Slab α τ × α) :=
  (s.at? i).map fun a =>
    ({ slots := s.slots.set i none, tags := s.tags.modify i bump, free := i :: s.free }, a)

/-- The parts of a slab fit together; `uses` counts the removals at each index. -/
structure Wf (bump : τ → τ) (first : τ) (uses : ℕ → ℕ) (s : Slab α τ) : Prop where
  tags_length : s.tags.length = s.slots.length
  tag : ∀ i < s.slots.length, s.tags[i]? = some (bump^[uses i] first)
  unused : ∀ i, s.slots.length ≤ i → uses i = 0
  nodup : s.free.Nodup
  mem_free : ∀ i, i ∈ s.free ↔ s.slots[i]? = some none

variable {bump : τ → τ} {first : τ} {uses : ℕ → ℕ} {s s' : Slab α τ} {i : ℕ} {a : α}

lemma wf_empty : Wf bump first (fun _ => 0) (α := α) {} where
  tags_length := rfl
  tag _ hi := absurd hi (Nat.not_lt_zero _)
  unused _ _ := rfl
  nodup := nodup_nil
  mem_free i := by simp

lemma at?_eq_some : s.at? i = some a ↔ s.slots[i]? = some (some a) := by
  unfold at?
  cases s.slots[i]? with
  | none => simp
  | some slot => simp

lemma lt_length (h : s.at? i = some a) : i < s.slots.length := by
  obtain ⟨hlt, -⟩ := List.getElem?_eq_some_iff.mp (at?_eq_some.mp h)
  exact hlt

/-- The index a value is stored at was free, and no other changes. -/
lemma Wf.at?_insert (h : s.Wf bump first uses) (a : α) : s.at? (s.insert first a).1 = none ∧
      (s.insert first a).2.at? = Function.update s.at? (s.insert first a).1 (some a) := by
  unfold insert
  split
  · next i free hfree =>
    have hnone : s.slots[i]? = some none := (h.mem_free i).mp (by simp [hfree])
    obtain ⟨hlt, -⟩ := List.getElem?_eq_some_iff.mp hnone
    refine ⟨by simp [at?, hnone], ?_⟩
    funext j
    by_cases hj : j = i
    · subst hj
      simp [at?, hlt]
    · simp [at?, hj, Ne.symm hj]
  · refine ⟨by simp [at?], ?_⟩
    funext j
    rcases Nat.lt_trichotomy j s.slots.length with hj | rfl | hj
    · simp [at?, List.getElem?_append_left hj, hj.ne]
    · simp [at?]
    · have hnone : (s.slots ++ [some a])[j]? = none := by simp; omega
      simp [at?, hnone, hj.ne', List.getElem?_eq_none hj.le]

lemma Wf.insert (h : s.Wf bump first uses) (a : α) : (s.insert first a).2.Wf bump first uses := by
  unfold Slab.insert
  split
  · next i free hfree =>
    have hnodup := h.nodup
    rw [hfree, List.nodup_cons] at hnodup
    have hnone : s.slots[i]? = some none := (h.mem_free i).mp (by simp [hfree])
    obtain ⟨hlt, -⟩ := List.getElem?_eq_some_iff.mp hnone
    refine ⟨by simp [h.tags_length], by simpa using h.tag, by simpa using h.unused, hnodup.2,
      fun j => ?_⟩
    have hj := h.mem_free j
    rw [hfree, List.mem_cons] at hj
    by_cases heq : j = i
    · subst heq
      simp [hnodup.1, hlt]
    · simp only [heq, false_or] at hj
      simpa [List.getElem?_set, Ne.symm heq] using hj
  · next hfree =>
    refine ⟨by simp [h.tags_length], fun i hi => ?_, fun i hi => ?_, by simp [hfree], fun i => ?_⟩
    · rw [List.length_append, List.length_singleton] at hi
      rcases Nat.lt_or_ge i s.slots.length with hlt | hge
      · rw [List.getElem?_append_left (h.tags_length ▸ hlt)]
        exact h.tag i hlt
      · obtain rfl : i = s.slots.length := by omega
        rw [h.unused _ (Nat.le_refl _), ← h.tags_length, List.getElem?_concat_length]
        rfl
    · rw [List.length_append, List.length_singleton] at hi
      exact h.unused i (by omega)
    · have hi := h.mem_free i
      rw [hfree] at hi ⊢
      rcases Nat.lt_trichotomy i s.slots.length with hlt | rfl | hgt
      · rwa [List.getElem?_append_left hlt]
      · simp
      · have hnone : (s.slots ++ [some a])[i]? = none := by simp; omega
        simp [hnone]

/-- After a removal the index is empty, and no other has changed. -/
lemma at?_remove (hr : s.remove bump i = some (s', a)) :
    s.at? i = some a ∧ s'.at? = Function.update s.at? i none := by
  obtain ⟨a', ha, heq⟩ := Option.map_eq_some_iff.mp hr
  obtain ⟨rfl, rfl⟩ := Prod.mk.inj heq
  refine ⟨ha, ?_⟩
  funext j
  by_cases hj : j = i
  · subst hj
    simp [at?, getElem?_set]
    split <;> rfl
  · simp [at?, hj, Ne.symm hj]

lemma length_remove (hr : s.remove bump i = some (s', a)) : s'.slots.length = s.slots.length := by
  obtain ⟨a', -, heq⟩ := Option.map_eq_some_iff.mp hr
  obtain ⟨rfl, -⟩ := Prod.mk.inj heq
  exact length_set

lemma Wf.remove (h : s.Wf bump first uses) (hr : s.remove bump i = some (s', a)) :
    s'.Wf bump first (Function.update uses i (uses i + 1)) := by
  obtain ⟨a', ha, heq⟩ := Option.map_eq_some_iff.mp hr
  obtain ⟨rfl, rfl⟩ := Prod.mk.inj heq
  have hlt := lt_length ha
  refine ⟨by simp [h.tags_length], fun j hj => ?_, fun j hj => ?_, ?_, fun j => ?_⟩
  · rw [length_set] at hj
    by_cases heq : j = i
    · subst heq
      rw [getElem?_modify, h.tag j hj, Function.update_self, Function.iterate_succ_apply']
      simp
    · rw [getElem?_modify, Function.update_of_ne heq, h.tag j hj]
      simp [Ne.symm heq]
  · rw [length_set] at hj
    rw [Function.update_of_ne (by omega), h.unused j hj]
  · rw [nodup_cons]
    refine ⟨fun hmem => ?_, h.nodup⟩
    exact nomatch ((h.mem_free i).mp hmem).symm.trans (at?_eq_some.mp ha)
  · have hj := h.mem_free j
    by_cases heq : j = i
    · subst heq
      simp [hlt]
    · simpa [getElem?_set, heq, Ne.symm heq] using hj

end Slab

end Lib
