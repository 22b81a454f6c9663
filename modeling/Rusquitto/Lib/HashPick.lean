import Mathlib.Algebra.BigOperators.Field
import Mathlib.Algebra.Order.BigOperators.Ring.Finset
import Mathlib.Data.Finset.Sort
import Mathlib.Data.Int.CardIntervalMod
import Mathlib.Data.Nat.Cast.Order.Field
import Mathlib.Data.Rat.Cast.Order
import Mathlib.Tactic.FieldSimp
import Mathlib.Tactic.Linarith

/-!
# Picking a member by a hash

Agents that do not talk to each other name one member of a set by the same rule: the entry of the
sorted set at the index `h % n`. When some agent's set misses a member that it owns itself, there is
a hash for which no agent names a member of its own (`exists_unpicked`).
-/

namespace Lib.HashPick

open Finset

section Pick

variable {α : Type*} [LinearOrder α] {S : Finset α}

/-- The member of a set that a hash falls on. -/
def pick (S : Finset α) (h : ℕ) : Option α :=
  (S.sort (· ≤ ·))[h % S.card]?

lemma pick_mem {h : ℕ} {c : α} (hc : pick S h = some c) : c ∈ S :=
  (mem_sort _).mp (List.mem_of_getElem? hc)

lemma exists_pick (hS : S.Nonempty) (h : ℕ) : ∃ c ∈ S, pick S h = some c := by
  have hlt : h % S.card < (S.sort (· ≤ ·)).length := by
    rw [length_sort]
    exact Nat.mod_lt _ hS.card_pos
  exact ⟨_, pick_mem (List.getElem?_eq_getElem hlt), List.getElem?_eq_getElem hlt⟩

/-- The picks of one member lie in one residue class. -/
lemma pick_inj {c : α} {h h' : ℕ} (hh : pick S h = some c) (hh' : pick S h' = some c) :
    h ≡ h' [MOD S.card] := by
  have hpos : 0 < S.card := card_pos.mpr ⟨c, pick_mem hh⟩
  refine (List.getElem?_inj ?_ (sort_nodup S (· ≤ ·))).mp (hh.trans hh'.symm)
  rw [length_sort]
  exact Nat.mod_lt _ hpos

/-- At most one hash in each full turn, and one in the last, falls on a given member. -/
lemma card_pick_eq_le (S : Finset α) (c : α) (M : ℕ) :
    ((range M).filter fun h => pick S h = some c).card ≤ M / S.card + 1 := by
  rcases eq_empty_or_nonempty ((range M).filter fun h => pick S h = some c) with
    hempty | ⟨h₀, hh₀⟩
  · rw [hempty]
    exact Nat.zero_le _
  · have hpick := (mem_filter.mp hh₀).2
    have hpos : 0 < S.card := card_pos.mpr ⟨c, pick_mem hpick⟩
    calc ((range M).filter fun h => pick S h = some c).card
        ≤ ((range M).filter fun h => h ≡ h₀ [MOD S.card]).card := by
          refine card_le_card fun h hh => ?_
          rw [mem_filter] at hh ⊢
          exact ⟨hh.1, pick_inj hh.2 hpick⟩
      _ = M.count (· ≡ h₀ [MOD S.card]) := (Nat.count_eq_card_filter_range _ _).symm
      _ ≤ M / S.card + 1 := by
          rw [Nat.count_modEq_card _ hpos]
          split <;> omega

/-- The hashes below `M` that fall on a part `O` of the set. -/
lemma card_picks_le (S O : Finset α) (M : ℕ) :
    ((range M).filter fun h => ∃ c ∈ O, pick S h = some c).card ≤ O.card * (M / S.card + 1) := by
  have hunion : ((range M).filter fun h => ∃ c ∈ O, pick S h = some c) =
      O.biUnion fun c => (range M).filter fun h => pick S h = some c := by
    ext h
    simp only [mem_filter, mem_biUnion]
    tauto
  rw [hunion]
  exact card_biUnion_le_card_mul _ _ _ fun c _ => card_pick_eq_le S c M

end Pick

/-! ### The share of the hashes an agent answers -/

lemma share_le_part {o f n M : ℕ} {part : ℚ} (hof : o ≤ f) (hpart : (o : ℚ) / n ≤ part) :
    ((o * (M / n + 1) : ℕ) : ℚ) ≤ part * M + f := by
  calc ((o * (M / n + 1) : ℕ) : ℚ) = o * ((M / n : ℕ) : ℚ) + o := by push_cast; ring
    _ ≤ o * (M / n) + o := by gcongr; exact Nat.cast_div_le
    _ = o / n * M + o := by ring
    _ ≤ part * M + f := by gcongr

/-- An agent that names one of `o` of its `f` members, out of the `n` it knows of, answers at most
its part `f / N` of the hashes. -/
lemma share_le {o f n N M : ℕ} (hof : o ≤ f) (hfN : f ≤ N) (hn : n + f = o + N) :
    ((o * (M / n + 1) : ℕ) : ℚ) ≤ f * M / N + f := by
  rcases Nat.eq_zero_or_pos o with rfl | ho
  · rw [Nat.zero_mul]
    positivity
  have hnpos : (0 : ℚ) < n := by exact_mod_cast (by omega : 0 < n)
  have hNpos : (0 : ℚ) < N := by exact_mod_cast (by omega : 0 < N)
  have hpart : (o : ℚ) / n ≤ f / N := by
    rw [div_le_div_iff₀ hnpos hNpos]
    have hn' : (n : ℚ) = o + N - f := by
      rw [eq_sub_iff_add_eq]
      exact_mod_cast hn
    have h₁ : (0 : ℚ) ≤ f - o := sub_nonneg.mpr (by exact_mod_cast hof)
    have h₂ : (0 : ℚ) ≤ N - f := sub_nonneg.mpr (by exact_mod_cast hfN)
    rw [hn']
    linarith [mul_nonneg h₁ h₂]
  exact (share_le_part hof hpart).trans_eq (by ring)

/-- With a member of its own missing, and members elsewhere, it answers less than its part. -/
lemma share_lt {o f n N M : ℕ} (hof : o < f) (hfN : f < N) (hn : n + f = o + N) :
    ((o * (M / n + 1) : ℕ) : ℚ) ≤ f * M / N + f - M / N ^ 2 := by
  have hnpos : (0 : ℚ) < n := by exact_mod_cast (by omega : 0 < n)
  have hNpos : (0 : ℚ) < N := by exact_mod_cast (by omega : 0 < N)
  have hpart : (o : ℚ) / n ≤ f / N - 1 / N ^ 2 := by
    have hn' : (n : ℚ) = o + N - f := by
      rw [eq_sub_iff_add_eq]
      exact_mod_cast hn
    have h₁ : (1 : ℚ) ≤ f - o := by
      have : ((o + 1 : ℕ) : ℚ) ≤ f := by exact_mod_cast hof
      push_cast at this
      linarith
    have h₂ : (1 : ℚ) ≤ N - f := by
      have : ((f + 1 : ℕ) : ℚ) ≤ N := by exact_mod_cast hfN
      push_cast at this
      linarith
    have hgap : (f : ℚ) / N - o / n = (f - o) * (N - f) / (N * n) := by
      rw [div_sub_div _ _ hNpos.ne' hnpos.ne', hn']
      ring
    have hnN : (n : ℚ) ≤ N := by linarith
    have hone : (1 : ℚ) / N ^ 2 ≤ (f - o) * (N - f) / (N * n) := by
      rw [pow_two]
      gcongr
      exact one_le_mul_of_one_le_of_one_le h₁ h₂
    linarith
  exact (share_le_part hof.le hpart).trans_eq (by ring)

/-- A deficit of `M / N ^ 2` is made up by `N` only while `M` is small. -/
lemma le_cube {M N : ℕ} (hN : 0 < N) (h : (M : ℚ) ≤ M + N - M / N ^ 2) : M ≤ N ^ 3 := by
  have hpos : (0 : ℚ) < (N : ℚ) ^ 2 := by positivity
  have hdiv : (M : ℚ) / N ^ 2 ≤ N := by linarith
  rw [div_le_iff₀ hpos] at hdiv
  have hcube : (M : ℚ) ≤ (N : ℚ) ^ 3 := hdiv.trans_eq (by ring)
  exact_mod_cast hcube

/-! ### Agents with their own sets -/

section Agents

variable {ι α : Type*} [Fintype ι] [DecidableEq ι] [LinearOrder α] (full own : ι → Finset α)

/-- The set an agent picks from: the members it takes into account itself, and all members of the
others. -/
def merged (i : ι) : Finset α :=
  own i ∪ (Finset.univ.erase i).biUnion full

variable {full own}

lemma card_merged (hdisj : Pairwise fun i j => Disjoint (full i) (full j))
    (hsub : ∀ i, own i ⊆ full i) (i : ι) :
    (merged full own i).card + (full i).card = (own i).card + ∑ j, (full j).card := by
  have hown : Disjoint (own i) ((univ.erase i).biUnion full) := by
    rw [disjoint_biUnion_right]
    intro j hj
    exact (hdisj (ne_of_mem_erase hj).symm).mono_left (hsub i)
  have hothers : ((univ.erase i).biUnion full).card =
      ∑ j ∈ univ.erase i, (full j).card :=
    card_biUnion fun j _ k _ hjk => hdisj hjk
  rw [merged, card_union_of_disjoint hown, hothers, Nat.add_assoc,
    sum_erase_add _ _ (mem_univ i)]

/-- When each hash below `M` falls on a member of some agent's own, the agents' answers add up to
`M`. -/
lemma le_sum_answers {M : ℕ}
    (hall : ∀ h < M, ∃ i, ∃ c ∈ own i, pick (merged full own i) h = some c) :
    M ≤ ∑ i, (own i).card * (M / (merged full own i).card + 1) := by
  have hcover : range M ⊆ univ.biUnion fun i =>
      (range M).filter fun h => ∃ c ∈ own i, pick (merged full own i) h = some c := by
    intro h hh
    obtain ⟨i, hi⟩ := hall h (mem_range.mp hh)
    exact mem_biUnion.mpr ⟨i, mem_univ i, mem_filter.mpr ⟨hh, hi⟩⟩
  calc M = (range M).card := (card_range M).symm
    _ ≤ _ := card_le_card hcover
    _ ≤ ∑ i, ((range M).filter fun h =>
          ∃ c ∈ own i, pick (merged full own i) h = some c).card := card_biUnion_le
    _ ≤ _ := sum_le_sum fun i _ => card_picks_le _ _ M

/-- When an agent leaves out a member of its own while others have members, some hash falls on no
agent's own members. -/
lemma exists_unpicked (hdisj : Pairwise fun i j => Disjoint (full i) (full j))
    (hsub : ∀ i, own i ⊆ full i) {i₀ : ι} (hshort : own i₀ ≠ full i₀)
    (hother : ∃ j ≠ i₀, (full j).Nonempty) {M : ℕ} (hM : (∑ j, (full j).card) ^ 3 < M) :
    ∃ h < M, ∀ i, ∀ c ∈ own i, pick (merged full own i) h ≠ some c := by
  by_contra! hall
  set N := ∑ j, (full j).card with hN
  have hle : ∀ i, (full i).card ≤ N := fun i =>
    single_le_sum (f := fun j => (full j).card) (fun _ _ => Nat.zero_le _)
      (mem_univ i)
  have hlt : (full i₀).card < N := by
    obtain ⟨j, hj, hne⟩ := hother
    have hpos := hne.card_pos
    have hpair := add_sum_erase univ (fun j => (full j).card) (mem_univ i₀)
    have hrest := single_le_sum (f := fun j => (full j).card) (fun _ _ => Nat.zero_le _)
      (mem_erase.mpr ⟨hj, mem_univ j⟩)
    omega
  have hNpos : (N : ℚ) ≠ 0 := Nat.cast_ne_zero.mpr (Nat.ne_zero_of_lt hlt)
  -- Each agent answers its part, and the short one less than that.
  have hshare : ∀ i, (((own i).card * (M / (merged full own i).card + 1) : ℕ) : ℚ) ≤
      (full i).card * M / N + (full i).card - if i = i₀ then (M : ℚ) / N ^ 2 else 0 := by
    intro i
    have hcard := card_merged hdisj hsub i
    split
    · next h =>
      subst h
      have hown : (own i).card < (full i).card :=
        card_lt_card ((hsub i).ssubset_of_ne hshort)
      exact share_lt hown hlt hcard
    · rw [sub_zero]
      exact share_le (card_le_card (hsub i)) (hle i) hcard
  have hsum : (M : ℚ) ≤ M + N - M / N ^ 2 := by
    calc (M : ℚ)
        ≤ ((∑ i, (own i).card * (M / (merged full own i).card + 1) : ℕ) : ℚ) := by
          exact_mod_cast le_sum_answers hall
      _ ≤ ∑ i, ((full i).card * M / N + (full i).card - if i = i₀ then (M : ℚ) / N ^ 2 else 0) := by
          rw [Nat.cast_sum]
          exact sum_le_sum fun i _ => hshare i
      _ = (∑ i, ((full i).card : ℚ)) * M / N + (∑ i, ((full i).card : ℚ)) - M / N ^ 2 := by
          rw [sum_sub_distrib, sum_add_distrib, ← sum_div, ← sum_mul,
            sum_ite_eq' univ i₀, if_pos (mem_univ i₀)]
      _ = M + N - M / N ^ 2 := by
          rw [← Nat.cast_sum, ← hN]
          field_simp
  exact absurd (le_cube (Nat.zero_lt_of_lt hlt) hsum) (Nat.not_le.mpr hM)

end Agents

end Lib.HashPick
