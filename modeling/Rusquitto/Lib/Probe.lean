import Mathlib.Data.List.Nodup
import Mathlib.Data.List.Perm.Subperm
import Mathlib.Data.Set.Function
import Mathlib.Logic.Function.Iterate
import Mathlib.Order.Interval.Set.Defs

/-!
# Probing for a free element

A search that walks along `next` until it meets an element that is not in use. When the walk does
not repeat itself for longer than there are used elements, it finds one.
-/

namespace Lib

open List

variable {α : Type} (next : α → α) (used : α → Bool)

/-- The first element after `a` along `next` that is not used, among at most `fuel` candidates. -/
def probe : ℕ → α → Option α
  | 0, _ => none
  | fuel + 1, a => if used (next a) then probe fuel (next a) else some (next a)

variable {next used}

lemma used_of_probe_eq_none {fuel : ℕ} {a : α} (h : probe next used fuel a = none) :
    ∀ i < fuel, used (next^[i + 1] a) = true := by
  induction fuel generalizing a with
  | zero => simp
  | succ fuel ih =>
    intro i hi
    by_cases hu : used (next a) = true
    · rw [probe, if_pos hu] at h
      cases i with
      | zero => exact hu
      | succ i => exact ih h i (by omega)
    · rw [probe, if_neg hu] at h
      exact nomatch h

/-- The search returns the first candidate that is free, and has looked at those before it. -/
lemma probe_eq_some_iff {fuel : ℕ} {a b : α} : probe next used fuel a = some b ↔
    ∃ n < fuel, b = next^[n + 1] a ∧ used b = false ∧ ∀ i < n, used (next^[i + 1] a) = true := by
  induction fuel generalizing a with
  | zero => simp [probe]
  | succ fuel ih =>
    by_cases hu : used (next a) = true
    · rw [probe, if_pos hu, ih]
      constructor
      · rintro ⟨n, hn, hb, hfree, hbefore⟩
        refine ⟨n + 1, by omega, hb, hfree, fun i hi => ?_⟩
        cases i with
        | zero => exact hu
        | succ i => exact hbefore i (by omega)
      · rintro ⟨n, hn, hb, hfree, hbefore⟩
        cases n with
        | zero =>
          rw [hb, Function.iterate_one, hu] at hfree
          contradiction
        | succ n => exact ⟨n, by omega, hb, hfree, fun i hi => hbefore (i + 1) (by omega)⟩
    · rw [probe, if_neg hu, Option.some.injEq]
      constructor
      · rintro rfl
        exact ⟨0, by omega, rfl, Bool.eq_false_iff.mpr hu, fun i hi => absurd hi (by omega)⟩
      · rintro ⟨n, -, hb, -, hbefore⟩
        cases n with
        | zero => exact hb.symm
        | succ n => exact absurd (hbefore 0 (by omega)) hu

/-- Fewer used elements than candidates leave one free. -/
lemma exists_probe_eq_some {fuel : ℕ} {a : α} {keys : List α}
    (hkeys : ∀ b, used b = true → b ∈ keys) (hlen : keys.length < fuel)
    (hinj : Set.InjOn (fun i => next^[i + 1] a) (Set.Iio fuel)) :
    ∃ b, probe next used fuel a = some b := by
  by_contra hnone
  have hused := used_of_probe_eq_none (Option.eq_none_iff_forall_not_mem.mpr fun b hb =>
    hnone ⟨b, hb⟩)
  -- the candidates are distinct and all of them are used
  let candidates := (range fuel).map fun i => next^[i + 1] a
  have hnodup : candidates.Nodup := by
    refine Nodup.map_on (fun i hi j hj hij => hinj ?_ ?_ hij) nodup_range
    · exact mem_range.mp hi
    · exact mem_range.mp hj
  have hsub : candidates ⊆ keys := by
    intro b hb
    obtain ⟨i, hi, rfl⟩ := mem_map.mp hb
    exact hkeys _ (hused i (mem_range.mp hi))
  have hle := (hnodup.subperm hsub).length_le
  rw [length_map, length_range] at hle
  omega

end Lib
