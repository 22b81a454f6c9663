import Mathlib.Data.List.Basic

/-!
# Membership by announcement

Nodes hold facts, and each keeps a view of the facts that some other node holds. A node announces
every change to every other node, over links that deliver in order but with any delay, and a view
keeps the value that arrived last. If a node announces a fact only while no other node holds it or
has an announcement about it under way, the views are exact once nothing is (`Consistent.view_iff`).
-/

namespace Lib.Announce

open Option List

variable {ι α : Type*} [DecidableEq α]

/-- The value a queue of announcements ends with for a fact, if it speaks of it. -/
def last (queue : List (α × Bool)) (a : α) : Option Bool :=
  (queue.filter (·.1 = a)).getLast?.map Prod.snd

lemma mem_of_last {queue : List (α × Bool)} {a : α} {b : Bool} (h : last queue a = some b) :
    (a, b) ∈ queue := by
  obtain ⟨⟨a', b'⟩, hlast, rfl⟩ := map_eq_some_iff.mp h
  obtain ⟨hmem, ha⟩ := mem_filter.mp (mem_of_getLast? hlast)
  rw [decide_eq_true_iff] at ha
  exact ha ▸ hmem

lemma last_cons (a a' : α) (b : Bool) (queue : List (α × Bool)) :
    last ((a, b) :: queue) a' = (last queue a').or (if a = a' then some b else none) := by
  unfold last
  by_cases h : a = a'
  · rw [filter_cons_of_pos (by simpa using h), getLast?_cons, if_pos h]
    cases (queue.filter (·.1 = a')).getLast? <;> rfl
  · rw [filter_cons_of_neg (by simpa using h), if_neg h, or_none]

lemma last_append (queue queue' : List (α × Bool)) (a : α) :
    last (queue ++ queue') a = (last queue' a).or (last queue a) := by
  unfold last
  rw [filter_append, getLast?_append]
  cases (queue'.filter (·.1 = a)).getLast? <;> rfl

/-- Announcing one value for several facts. -/
lemma last_map (as : List α) (b : Bool) (a : α) :
    last (as.map (·, b)) a = if a ∈ as then some b else none := by
  induction as with
  | nil => rfl
  | cons a' as ih =>
    rw [map_cons, last_cons, ih]
    by_cases h : a ∈ as
    · simp [h]
    · by_cases h' : a' = a
      · simp [h, h']
      · simp [h, h', Ne.symm h']

/-- Nodes with their facts, the announcements under way and the views. -/
structure Net (ι α : Type*) where
  /-- The facts that hold at a node. -/
  truth : ι → α → Prop
  /-- The announcements under way from one node to another, oldest first. -/
  sent : ι → ι → List (α × Bool)
  /-- The facts a node believes to hold at some other node. -/
  view : ι → α → Prop

namespace Net

variable {N N' : Net ι α} {i j : ι}

/-- Node `i` sets the facts `as` to `b` and announces it to every other node. -/
structure Announces (N N' : Net ι α) (i : ι) (as : List α) (b : Bool) : Prop where
  truth_self : ∀ a, N'.truth i a ↔ if a ∈ as then b = true else N.truth i a
  truth_other : ∀ k, k ≠ i → ∀ a, N'.truth k a ↔ N.truth k a
  sent_self : ∀ j, j ≠ i → N'.sent i j = N.sent i j ++ as.map (·, b)
  sent_other : ∀ k, k ≠ i → ∀ j, N'.sent k j = N.sent k j
  view_eq : ∀ k a, N'.view k a ↔ N.view k a

/-- Node `j` takes the oldest announcement of node `i` into its view. -/
structure Delivers (N N' : Net ι α) (i j : ι) (a : α) (b : Bool) : Prop where
  ne : i ≠ j
  truth_eq : ∀ k a, N'.truth k a ↔ N.truth k a
  sent_link : N.sent i j = (a, b) :: N'.sent i j
  sent_other : ∀ k l, ¬ (k = i ∧ l = j) → N'.sent k l = N.sent k l
  view_self : ∀ a', N'.view j a' ↔ if a' = a then b = true else N.view j a'
  view_other : ∀ k, k ≠ j → ∀ a, N'.view k a ↔ N.view k a

/-- A node holds a fact or has an announcement about it under way. -/
def Active (N : Net ι α) (i : ι) (a : α) : Prop :=
  N.truth i a ∨ ∃ j, j ≠ i ∧ ∃ b, (a, b) ∈ N.sent i j

/-- What is under way brings every view to the truth. -/
structure Consistent (N : Net ι α) : Prop where
  /-- One node at a time is concerned with a fact. -/
  exclusive : ∀ i k a, N.Active i a → N.Active k a → i = k
  /-- The last announcement under way is what holds at its sender. -/
  promised : ∀ i j a b, j ≠ i → last (N.sent i j) a = some b → (N.truth i a ↔ b = true)
  /-- A view that no announcement is under way to is right. -/
  settled : ∀ j a, (∀ i, i ≠ j → last (N.sent i j) a = none) →
    (N.view j a ↔ ∃ k, k ≠ j ∧ N.truth k a)

lemma Consistent.announce (h : N.Consistent) {as : List α} {b : Bool}
    (hstep : N.Announces N' i as b) (hexcl : ∀ a ∈ as, ∀ k, k ≠ i → ¬ N.Active k a) :
    N'.Consistent := by
  have hactive_other : ∀ k a, k ≠ i → (N'.Active k a ↔ N.Active k a) := by
    intro k a hk
    simp only [Active, hstep.truth_other k hk, hstep.sent_other k hk]
  -- Facts that are not announced are as active as before.
  have hactive_self : ∀ a, a ∉ as → N'.Active i a → N.Active i a := by
    rintro a ha (htruth | ⟨j, hj, b', hb'⟩)
    · rw [hstep.truth_self, if_neg ha] at htruth
      exact .inl htruth
    · rw [hstep.sent_self j hj, mem_append, List.mem_map] at hb'
      rcases hb' with hb' | ⟨a', ha', heq⟩
      · exact .inr ⟨j, hj, b', hb'⟩
      · cases heq
        exact absurd ha' ha
  refine ⟨fun k l a hk hl => ?_, fun k j a b' hj hlast => ?_, fun j a hnone => ?_⟩
  · -- Two active nodes: neither is another node, if the fact is announced.
    by_cases ha : a ∈ as
    · by_contra hne
      rcases ne_or_eq k i with hki | rfl
      · exact hexcl a ha k hki ((hactive_other k a hki).mp hk)
      · exact hexcl a ha l (Ne.symm hne) ((hactive_other l a (Ne.symm hne)).mp hl)
    · have hbefore : ∀ m, N'.Active m a → N.Active m a := by
        intro m hm
        rcases ne_or_eq m i with hmi | rfl
        · exact (hactive_other m a hmi).mp hm
        · exact hactive_self a ha hm
      exact h.exclusive k l a (hbefore k hk) (hbefore l hl)
  · rcases ne_or_eq k i with hki | rfl
    · rw [hstep.sent_other k hki] at hlast
      rw [hstep.truth_other k hki]
      exact h.promised k j a b' hj hlast
    · rw [hstep.sent_self j hj, last_append, last_map] at hlast
      rw [hstep.truth_self]
      by_cases ha : a ∈ as
      · rw [if_pos ha, some_or, some.injEq] at hlast
        rw [if_pos ha, hlast]
      · rw [if_neg ha, none_or] at hlast
        rw [if_neg ha]
        exact h.promised k j a b' hj hlast
  · -- Nothing under way: an announced fact would be, except at the announcing node itself.
    have hnone' : ∀ k, k ≠ j → last (N.sent k j) a = none := by
      intro k hk
      have hk' := hnone k hk
      rcases ne_or_eq k i with hki | rfl
      · rwa [hstep.sent_other k hki] at hk'
      · rw [hstep.sent_self j (Ne.symm hk), last_append, or_eq_none_iff] at hk'
        exact hk'.2
    rw [hstep.view_eq, h.settled j a hnone']
    refine exists_congr fun k => and_congr_right fun hk => ?_
    rcases ne_or_eq k i with hki | rfl
    · rw [hstep.truth_other k hki]
    · have hk' := hnone k hk
      rw [hstep.sent_self j (Ne.symm hk), last_append, or_eq_none_iff, last_map] at hk'
      rw [hstep.truth_self, if_neg fun ha => by simp [ha] at hk']

lemma Consistent.deliver (h : N.Consistent) {a : α} {b : Bool}
    (hstep : N.Delivers N' i j a b) : N'.Consistent := by
  have hsub : ∀ k l x, x ∈ N'.sent k l → x ∈ N.sent k l := by
    intro k l x hx
    by_cases hkl : k = i ∧ l = j
    · obtain ⟨rfl, rfl⟩ := hkl
      rw [hstep.sent_link]
      exact mem_cons_of_mem _ hx
    · rwa [hstep.sent_other k l hkl] at hx
  have hactive : ∀ k a, N'.Active k a → N.Active k a := by
    rintro k a (htruth | ⟨l, hl, b, hb⟩)
    · exact .inl ((hstep.truth_eq k a).mp htruth)
    · exact .inr ⟨l, hl, b, hsub k l _ hb⟩
  refine ⟨fun k l a hk hl => h.exclusive k l a (hactive k a hk) (hactive l a hl),
    fun k l a' b' hl hlast => ?_, fun l a' hnone => ?_⟩
  · rw [hstep.truth_eq]
    refine h.promised k l a' b' hl ?_
    by_cases hkl : k = i ∧ l = j
    · obtain ⟨rfl, rfl⟩ := hkl
      rw [hstep.sent_link, last_cons, hlast, some_or]
    · rwa [hstep.sent_other k l hkl] at hlast
  · simp only [hstep.truth_eq]
    rcases ne_or_eq l j with hlj | rfl
    · -- another node's view
      rw [hstep.view_other l hlj]
      refine h.settled l a' fun k hk => ?_
      have hk' := hnone k hk
      rwa [hstep.sent_other k l fun hkl => hlj hkl.2] at hk'
    · rw [hstep.view_self]
      have hothers : ∀ k, k ≠ l → k ≠ i → last (N.sent k l) a' = none := by
        intro k hk hki
        have hk' := hnone k hk
        rwa [hstep.sent_other k l fun hkl => hki hkl.1] at hk'
      have htail := hnone i hstep.ne
      by_cases ha : a' = a
      · -- The fact delivered: its sender keeps the promise, and nobody else holds it.
        subst ha
        have hlast : last (N.sent i l) a' = some b := by
          rw [hstep.sent_link, last_cons, htail, if_pos rfl, none_or]
        have hpromise := h.promised i l a' b hstep.ne.symm hlast
        have hactive_i : N.Active i a' := .inr ⟨l, hstep.ne.symm, b, mem_of_last hlast⟩
        rw [if_pos rfl, ← hpromise]
        constructor
        · intro htruth
          exact ⟨i, hstep.ne, htruth⟩
        · rintro ⟨k, -, htruth⟩
          exact h.exclusive k i a' (.inl htruth) hactive_i ▸ htruth
      · rw [if_neg ha]
        refine h.settled l a' fun k hk => ?_
        by_cases hki : k = i
        · subst hki
          rw [hstep.sent_link, last_cons, htail, if_neg (Ne.symm ha), none_or]
        · exact hothers k hk hki

/-- With nothing under way, every view is exact. -/
lemma Consistent.view_iff (h : N.Consistent) (hquiet : ∀ i j, i ≠ j → N.sent i j = []) (j : ι)
    (a : α) : N.view j a ↔ ∃ k, k ≠ j ∧ N.truth k a :=
  h.settled j a fun i hi => by rw [hquiet i j hi]; rfl

end Net

end Lib.Announce
