import Mathlib.Data.List.Basic
import Mathlib.Logic.Function.Basic
import Mathlib.Tactic.Common

/-!
# Replicated tables

Each replica applies its own writes at once and sends them to every other one over links that keep
their order; the last write to arrive wins. `Replicas.Settling`, at most one replica's writes to
each entry are under way, is what is needed for agreement: a write keeps it if no other replica's
write to the entry is under way, and a delivery always does.
-/

namespace Lib

open Function List

variable {ι κ α : Type*}

/-- The table of each replica, and the writes under way from one replica to another, oldest first.
-/
@[ext]
structure Replicas (ι κ α : Type*) where
  table : ι → κ → α
  link : ι → ι → List (κ × α)

namespace Replicas

variable [DecidableEq ι] [DecidableEq κ]

/-- A replica writes, and tells all others. -/
def write (r : Replicas ι κ α) (i : ι) (w : κ × α) : Replicas ι κ α where
  table := Function.update r.table i (Function.update (r.table i) w.1 w.2)
  link a b := if a = i ∧ b ≠ i then r.link a b ++ [w] else r.link a b

/-- The oldest write under way from one replica to another arrives. -/
def deliver (r : Replicas ι κ α) (i j : ι) : Replicas ι κ α :=
  match r.link i j with
  | [] => r
  | w :: rest =>
    { table := Function.update r.table j (Function.update (r.table j) w.1 w.2)
      link := Function.update r.link i (Function.update (r.link i) j rest) }

/-- What an entry will be when the writes on a link have arrived. -/
def after (k : κ) (v : α) (link : List (κ × α)) : α :=
  link.foldl (fun v w => if w.1 = k then w.2 else v) v

/-- Nobody but the replica has a write to the entry under way. -/
def OnlyFrom (r : Replicas ι κ α) (i : ι) (k : κ) : Prop :=
  ∀ l, l ≠ i → ∀ j, ∀ w ∈ r.link l j, w.1 ≠ k

/-- Of each entry one replica's writes are under way, and once they have arrived the replicas agree.
-/
structure Settling (r : Replicas ι κ α) : Prop where
  loop : ∀ i, r.link i i = []
  agree : ∀ k, ∃ i v, r.OnlyFrom i k ∧ ∀ j, after k (r.table j k) (r.link i j) = v

variable {r : Replicas ι κ α} {k : κ}

lemma after_append (v : α) (link : List (κ × α)) (w : κ × α) :
    after k v (link ++ [w]) = if w.1 = k then w.2 else after k v link := by
  rw [after, foldl_append]
  rfl

/-- One's own writes are no obstacle to one's next. -/
lemma OnlyFrom.write {i : ι} (h : r.OnlyFrom i k) (w : κ × α) : (r.write i w).OnlyFrom i k := by
  intro l hl j w' hw'
  rw [Replicas.write] at hw'
  simp only [hl, false_and, if_false] at hw'
  exact h l hl j w' hw'

/-- A replica writes to an entry to which no other replica's write is under way. -/
lemma Settling.write (h : r.Settling) {i : ι} {w : κ × α} (honly : r.OnlyFrom i w.1) :
    (r.write i w).Settling := by
  refine ⟨fun a => ?_, fun k => ?_⟩
  · rw [Replicas.write]
    by_cases ha : a = i
    · simp [ha, h.loop i]
    · simp [ha, h.loop a]
  by_cases hk : w.1 = k
  · -- the entry written to: the writer's value is the one that will stay
    subst hk
    refine ⟨i, w.2, fun l hl j w' hw' => ?_, fun j => ?_⟩
    · exact honly.write w l hl j w' hw'
    · rw [Replicas.write]
      by_cases hj : j = i
      · subst hj
        simp [h.loop j, after]
      · simp [hj, after_append]
  · -- another entry
    obtain ⟨i', v, honly', hv⟩ := h.agree k
    refine ⟨i', v, fun l hl j w' hw' => ?_, fun j => ?_⟩
    · rw [Replicas.write] at hw'
      dsimp only at hw'
      split at hw'
      · rcases mem_append.mp hw' with hw' | hw'
        · exact honly' l hl j w' hw'
        · rwa [mem_singleton.mp hw']
      · exact honly' l hl j w' hw'
    · rw [Replicas.write, ← hv j]
      have htable : update r.table i (update (r.table i) w.1 w.2) j k =
          r.table j k := by
        by_cases hj : j = i
        · subst hj
          rw [update_self, update_of_ne (Ne.symm hk)]
        · rw [update_of_ne hj]
      dsimp only
      rw [htable]
      split
      · rw [after_append, if_neg hk]
      · rfl

/-! ### Several writes -/

/-- A replica writes several times. -/
def writes (r : Replicas ι κ α) (i : ι) (ws : List (κ × α)) : Replicas ι κ α :=
  ws.foldl (fun r w => r.write i w) r

section

variable (r : Replicas ι κ α) (i : ι) (ws : List (κ × α))

lemma table_writes (j : ι) (k : κ) :
    (r.writes i ws).table j k = if j = i then after k (r.table j k) ws else r.table j k := by
  induction ws generalizing r with
  | nil => simp [writes, after]
  | cons w ws ih =>
    refine (ih (r.write i w)).trans ?_
    by_cases hj : j = i
    · subst hj
      by_cases hk : w.1 = k
      · subst hk
        simp [Replicas.write, after]
      · simp [Replicas.write, after, hk, Ne.symm hk]
    · simp [Replicas.write, hj]

lemma link_writes (a b : ι) :
    (r.writes i ws).link a b = if a = i ∧ b ≠ i then r.link a b ++ ws else r.link a b := by
  induction ws generalizing r with
  | nil => simp [writes]
  | cons w ws ih =>
    refine (ih (r.write i w)).trans ?_
    dsimp only [Replicas.write]
    split
    · rw [append_assoc, singleton_append]
    · rfl

end

lemma Settling.writes (h : r.Settling) {i : ι} {ws : List (κ × α)}
    (honly : ∀ w ∈ ws, r.OnlyFrom i w.1) : (r.writes i ws).Settling := by
  induction ws generalizing r with
  | nil => exact h
  | cons w ws ih =>
    exact ih (h.write (honly w mem_cons_self)) fun w' hw' =>
      (honly w' (mem_cons_of_mem w hw')).write w

/-! ### Arrivals -/

section Deliver

variable {i j : ι} {w : κ × α} {rest : List (κ × α)}

lemma table_deliver (h : r.link i j = w :: rest) (b : ι) (k : κ) :
    (r.deliver i j).table b k = if b = j ∧ k = w.1 then w.2 else r.table b k := by
  simp only [Replicas.deliver, h]
  by_cases hb : b = j
  · subst hb
    by_cases hk : k = w.1
    · simp [hk]
    · simp [hk]
  · simp [hb]

lemma link_deliver (h : r.link i j = w :: rest) (a b : ι) :
    (r.deliver i j).link a b = if a = i ∧ b = j then rest else r.link a b := by
  simp only [Replicas.deliver, h]
  by_cases ha : a = i
  · subst ha
    by_cases hb : b = j
    · simp [hb]
    · simp [hb]
  · simp [ha]

/-- The oldest write on a link arrives. -/
lemma Settling.deliver (h : r.Settling) (hij : i ≠ j) : (r.deliver i j).Settling := by
  cases hlink : r.link i j with
  | nil =>
    simp only [Replicas.deliver, hlink]
    exact h
  | cons w rest =>
    refine ⟨fun a => ?_, fun k => ?_⟩
    · rw [link_deliver hlink, if_neg (fun ⟨ha, hb⟩ => hij (ha.symm.trans hb)), h.loop a]
    obtain ⟨i', v, honly, hv⟩ := h.agree k
    refine ⟨i', v, fun l hl b w' hw' => ?_, fun b => ?_⟩
    · rw [link_deliver hlink] at hw'
      split at hw'
      · next hlb =>
        refine honly l hl b w' ?_
        rw [hlb.1, hlb.2, hlink]
        exact mem_cons_of_mem w hw'
      · exact honly l hl b w' hw'
    · rw [← hv b, link_deliver hlink, table_deliver hlink]
      by_cases hb : b = j
      · subst hb
        by_cases hi : i' = i
        · -- the write was the next of those that count
          subst hi
          rw [if_pos (⟨rfl, rfl⟩ : i' = i' ∧ b = b), hlink]
          by_cases hk : k = w.1
          · simp [after, hk]
          · simp [after, hk, Ne.symm hk]
        · -- a write from elsewhere is to another entry
          have hk : w.1 ≠ k := honly i (Ne.symm hi) b w (by rw [hlink]; exact mem_cons_self)
          rw [if_neg (fun h => hk h.2.symm), if_neg (fun h => hi h.1)]
      · rw [if_neg (fun h => hb h.1), if_neg (fun h => hb h.2)]

end Deliver

omit [DecidableEq ι] in
/-- Once nothing is under way the replicas agree. -/
lemma Settling.eq_of_quiet (h : r.Settling) (hquiet : ∀ i j, r.link i j = []) (a b : ι) (k : κ) :
    r.table a k = r.table b k := by
  obtain ⟨i, v, -, hv⟩ := h.agree k
  have ha := hv a
  have hb := hv b
  rw [hquiet] at ha hb
  exact ha.trans hb.symm

end Replicas

end Lib
