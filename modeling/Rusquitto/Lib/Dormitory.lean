import Mathlib.Data.List.Count
import Mathlib.Logic.Function.Basic
import Mathlib.Order.Nat

/-!
# Sleepers, their beds and their wake-up calls

What is left of a process that sleeps lies in a bed, found by name. When there is something to do a
call is left at the desk, once per nap, and the clerk works through the calls in order. A process
can also rise by itself, or be replaced by a namesake, in which case a call is left to clear its
bed. No sleeper is forgotten (`Dormitory.Lawful`) if nobody goes to bed while such a call for a
namesake is left.
-/

namespace Lib

open Function Option

/-- What may be left at the desk. -/
inductive Call (κ : Type*) where
  | wake (k : κ)
  | clear (k : κ) (generation : ℕ)
  deriving DecidableEq

/-- The sleepers by name, each with its generation and whether it was called; the calls at the desk,
if there is one; who is in which bed; where a name is found; and who is rising. -/
@[ext]
structure Dormitory (κ : Type*) where
  naps : κ → Option (ℕ × Bool)
  calls : Option (List (Call κ))
  beds : ℕ → Option (κ × ℕ)
  index : κ → Option ℕ
  rising : ℕ → Option (κ × ℕ)

namespace Dormitory

variable {κ : Type*} [DecidableEq κ]

/-- The nap of a process ends. -/
def getUp (naps : κ → Option (ℕ × Bool)) (k : κ) (g : ℕ) : κ → Option (ℕ × Bool) :=
  fun k' => if k' = k ∧ (naps k).map Prod.fst = some g then none else naps k'

/-- What a sleeper notices when it is called some times. -/
def Noticed (nap : Option (ℕ × Bool)) (calls : ℕ) (nap' : Option (ℕ × Bool)) : Prop :=
  match nap with
  | none => calls = 0 ∧ nap' = none
  | some (g, called) => ∃ called', nap' = some (g, called') ∧ called.toNat + calls = called'.toNat

/-- Some sleepers are called. -/
structure Rouses (d : Dormitory κ) (called : List κ) (d' : Dormitory κ) : Prop where
  naps : ∀ k, Noticed (d.naps k) (called.count k) (d'.naps k)
  calls : d'.calls = d.calls.map (· ++ called.map .wake)
  beds : d'.beds = d.beds
  index : d'.index = d.index
  rising : d'.rising = d.rising

/-- A call is at the desk. -/
def Left (d : Dormitory κ) (call : Call κ) : Prop :=
  ∃ calls, d.calls = some calls ∧ call ∈ calls

/-- A process may go to bed: there is a desk, and no bed of its name is to be cleared. -/
def MayRetire (d : Dormitory κ) (k : κ) : Prop :=
  d.naps k = none ∧ d.calls.isSome ∧ ∀ g, ¬ d.Left (.clear k g)

/-- What else can happen, with the calls that are left. -/
inductive Step (d : Dormitory κ) : List (Call κ) → Dormitory κ → Prop where
  | rest : Step d [] d
  | retire {k : κ} {g : ℕ} (bed : ℕ) (hmay : d.MayRetire k) (hbed : d.beds bed = none)
    (hnew : ∀ id, d.rising id ≠ some (k, g)) :
    Step d [] { d with
      naps := Function.update d.naps k (some (g, false))
      beds := Function.update d.beds bed (some (k, g))
      index := Function.update d.index k (some bed) }
  /-- There is no bed after all. -/
  | doze {k : κ} {g bed : ℕ} (id : ℕ) (hmay : d.MayRetire k) (hbed : d.beds bed = none)
    (hnew : ∀ id, d.rising id ≠ some (k, g)) (hid : d.rising id = none) :
    Step d [] { d with
      naps := Function.update d.naps k (some (g, false))
      rising := Function.update d.rising id (some (k, g)) }
  /-- A namesake takes over. -/
  | replace {k : κ} {nap : ℕ × Bool} (hnap : d.naps k = some nap) :
    Step d [.clear k nap.1] { d with
      naps := Function.update d.naps k none
      calls := d.calls.map (· ++ [.clear k nap.1]) }
  /-- The clerk wakes a process. -/
  | wake {k : κ} {rest : List (Call κ)} {bed : ℕ} {entry : κ × ℕ} (id : ℕ)
    (hcalls : d.calls = some (.wake k :: rest)) (hindex : d.index k = some bed)
    (hbed : d.beds bed = some entry) (hid : d.rising id = none) :
    Step d [] { d with
      calls := some rest
      beds := Function.update d.beds bed none
      index := Function.update d.index entry.1 none
      rising := Function.update d.rising id (some entry) }
  | wakeMissed {k : κ} {rest : List (Call κ)} (hcalls : d.calls = some (.wake k :: rest))
    (hmissed : ∀ bed, d.index k = some bed → d.beds bed = none) :
    Step d [] { d with calls := some rest }
  /-- The clerk clears a bed. -/
  | clear {k : κ} {g : ℕ} {rest : List (Call κ)} {bed : ℕ} {entry : κ × ℕ}
    (hcalls : d.calls = some (.clear k g :: rest)) (hindex : d.index k = some bed)
    (hbed : d.beds bed = some entry) (hgen : entry.2 = g) :
    Step d [] { d with
      calls := some rest
      beds := Function.update d.beds bed none
      index := Function.update d.index entry.1 none }
  | clearMissed {k : κ} {g : ℕ} {rest : List (Call κ)}
    (hcalls : d.calls = some (.clear k g :: rest))
    (hmissed : ∀ bed, d.index k = some bed → ∀ entry, d.beds bed = some entry → entry.2 ≠ g) :
    Step d [] { d with calls := some rest }
  /-- A process rises by itself. -/
  | rise {bed : ℕ} {entry : κ × ℕ} (id : ℕ) (hbed : d.beds bed = some entry)
    (hid : d.rising id = none) :
    Step d [] { d with
      beds := Function.update d.beds bed none
      index := Function.update d.index entry.1 none
      rising := Function.update d.rising id (some entry) }
  /-- A process is cleared away in its sleep. -/
  | evict {bed : ℕ} {entry : κ × ℕ} (hbed : d.beds bed = some entry) :
    Step d [] { d with
      naps := getUp d.naps entry.1 entry.2
      beds := Function.update d.beds bed none
      index := Function.update d.index entry.1 none }
  /-- Everyone in bed is. -/
  | evictAll {naps : κ → Option (ℕ × Bool)}
    (hnaps : ∀ k, naps k = d.naps k ∧ (∀ nap ∈ naps k, ∀ bed, d.beds bed ≠ some (k, nap.1)) ∨
      naps k = none) :
    Step d [] { d with naps, beds := fun _ => none, index := fun _ => none }
  | getUp {id : ℕ} {entry : κ × ℕ} (hid : d.rising id = some entry) :
    Step d [] { d with
      naps := getUp d.naps entry.1 entry.2
      rising := Function.update d.rising id none }

/-- No sleeper is forgotten. -/
structure Lawful (d : Dormitory κ) : Prop where
  /-- A sleeper is in bed, or rising. -/
  kept : ∀ k nap, d.naps k = some nap →
    (∃ bed, d.beds bed = some (k, nap.1)) ∨ ∃ id, d.rising id = some (k, nap.1)
  /-- Who was called and is not rising has the call at the desk. -/
  called : ∀ k g, d.naps k = some (g, true) → d.Left (.wake k) ∨ ∃ id, d.rising id = some (k, g)
  /-- In a bed there is a sleeper, or it is to be cleared. -/
  occupied : ∀ bed k g, d.beds bed = some (k, g) →
    (∃ called, d.naps k = some (g, called)) ∨ d.Left (.clear k g)
  /-- The index leads to every bed. -/
  indexed : ∀ k bed, d.index k = some bed ↔ ∃ g, d.beds bed = some (k, g)
  /-- Who is to be cleared away does not sleep any more. -/
  cleared : ∀ k g, d.Left (.clear k g) → ∀ called, d.naps k ≠ some (g, called)
  /-- Nobody sleeps where there is no desk. -/
  desk : ∀ k nap, d.naps k = some nap → d.calls.isSome
  /-- Who is in bed is not rising. -/
  apart : ∀ bed id entry, d.beds bed = some entry → d.rising id ≠ some entry

variable {d d' : Dormitory κ} {called : List κ} {sent rest : List (Call κ)} {g bed : ℕ} {b : Bool}
  {k : κ} {entry : κ × ℕ} {naps : κ → Option (ℕ × Bool)} {nap : ℕ × Bool} {call first : Call κ}

omit [DecidableEq κ] in
/-- Further calls are left. -/
lemma left_append (hcalls : d'.calls = d.calls.map (· ++ sent)) :
    d'.Left call ↔ d.Left call ∨ d.calls.isSome ∧ call ∈ sent := by
  unfold Left
  rw [hcalls]
  cases d.calls <;> simp

omit [DecidableEq κ] in
/-- The first call is done with. -/
lemma left_cons (hcalls : d.calls = some (first :: rest)) :
    d.Left call ↔ call = first ∨ Left { d with calls := some rest } call := by
  simp [Left, hcalls]

lemma Noticed.of_some {n : ℕ} {nap nap' : Option (ℕ × Bool)} (h : Noticed nap n nap')
    (hnap' : nap' = some (g, b)) : ∃ b₀, nap = some (g, b₀) ∧ b₀.toNat + n = b.toNat := by
  subst hnap'
  match nap with
  | none => exact nomatch h.2
  | some (g₀, b₀) =>
    obtain ⟨b', heq, hsum⟩ := h
    obtain ⟨rfl, rfl⟩ := Prod.mk.inj (some.inj heq)
    exact ⟨b₀, rfl, hsum⟩

lemma Noticed.refl (nap : Option (ℕ × Bool)) : Noticed nap 0 nap :=
  match nap with
  | none => ⟨rfl, rfl⟩
  | some (_, b) => ⟨b, rfl, rfl⟩

lemma Noticed.trans {m n : ℕ} {nap nap' nap'' : Option (ℕ × Bool)} (h : Noticed nap m nap')
    (h' : Noticed nap' n nap'') : Noticed nap (m + n) nap'' := by
  match nap with
  | none =>
    obtain ⟨rfl, rfl⟩ := h
    obtain ⟨rfl, rfl⟩ := h'
    exact ⟨rfl, rfl⟩
  | some (g, b) =>
    obtain ⟨b', rfl, hsum⟩ := h
    obtain ⟨b'', rfl, hsum'⟩ := h'
    exact ⟨b'', rfl, by omega⟩

lemma Lawful.rouses (h : d.Lawful) (hr : d.Rouses called d') : d'.Lawful where
  kept k nap hnap := by
    obtain ⟨g, b⟩ := nap
    obtain ⟨b₀, hnap₀, -⟩ := (hr.naps k).of_some hnap
    rw [hr.beds, hr.rising]
    exact h.kept k (g, b₀) hnap₀
  called k g hnap := by
    obtain ⟨b₀, hnap₀, hsum⟩ := (hr.naps k).of_some hnap
    rw [left_append hr.calls, hr.rising]
    cases b₀ with
    | true => exact (h.called k g hnap₀).imp_left .inl
    | false =>
      have hmem : k ∈ called := List.count_pos_iff.mp (by simp at hsum; omega)
      exact .inl (.inr ⟨h.desk k _ hnap₀, List.mem_map_of_mem hmem⟩)
  occupied bed k g hbed := by
    rw [hr.beds] at hbed
    rw [left_append hr.calls]
    refine (h.occupied bed k g hbed).imp (fun ⟨b, hnap⟩ => ?_) .inl
    have hn := hr.naps k
    rw [hnap] at hn
    obtain ⟨b', hnap', -⟩ := hn
    exact ⟨b', hnap'⟩
  indexed k bed := by
    rw [hr.index, hr.beds]
    exact h.indexed k bed
  cleared k g hleft b hnap := by
    obtain ⟨b₀, hnap₀, -⟩ := (hr.naps k).of_some hnap
    rcases (left_append hr.calls).mp hleft with hleft | ⟨-, hmem⟩
    · exact h.cleared k g hleft b₀ hnap₀
    · obtain ⟨_, -, heq⟩ := List.mem_map.mp hmem
      exact nomatch heq
  desk k nap hnap := by
    obtain ⟨g, b⟩ := nap
    obtain ⟨b₀, hnap₀, -⟩ := (hr.naps k).of_some hnap
    rw [hr.calls, isSome_map]
    exact h.desk k _ hnap₀
  apart := by
    rw [hr.beds, hr.rising]
    exact h.apart

omit [DecidableEq κ] in
/-- A name that may retire has no bed. -/
lemma Lawful.no_bed (h : d.Lawful) (hmay : d.MayRetire k) (bed g : ℕ) :
    d.beds bed ≠ some (k, g) := by
  intro hbed
  obtain ⟨hawake, -, hclear⟩ := hmay
  rcases h.occupied bed k g hbed with ⟨b, hnap⟩ | hleft
  · exact nomatch hawake.symm.trans hnap
  · exact hclear g hleft

omit [DecidableEq κ] in
/-- The bed of a name is where the index says. -/
lemma Lawful.bed_unique (h : d.Lawful) {bed' g' : ℕ} (hbed : d.beds bed = some (k, g))
    (hbed' : d.beds bed' = some (k, g')) : bed = bed' :=
  some.inj (((h.indexed k bed).mpr ⟨g, hbed⟩).symm.trans ((h.indexed k bed').mpr ⟨g', hbed'⟩))

/-- A bed is left, and the name taken off the index. -/
lemma Lawful.indexed_vacated (h : d.Lawful) (hbed : d.beds bed = some entry) (k : κ) (bed' : ℕ) :
    update d.index entry.1 none k = some bed' ↔ ∃ g, update d.beds bed none bed' = some (k, g) := by
  obtain ⟨k₀, g₀⟩ := entry
  rw [update_apply]
  by_cases hk : k = k₀
  · subst hk
    rw [if_pos rfl]
    constructor
    · exact nofun
    · rintro ⟨g, hbed'⟩
      rw [update_apply] at hbed'
      split at hbed'
      · exact nomatch hbed'
      · next hne => exact absurd (h.bed_unique hbed' hbed) hne
  · rw [if_neg hk, h.indexed]
    refine exists_congr fun g => ?_
    rw [update_apply]
    split
    · next heq =>
      rw [heq, hbed]
      constructor
      · intro hentry
        exact absurd (congrArg Prod.fst (some.inj hentry)).symm hk
      · exact nofun
    · rfl

lemma getUp_of_some {k' : κ} (h : getUp naps k g k' = some nap) :
    naps k' = some nap ∧ ¬(k' = k ∧ nap.1 = g) := by
  unfold getUp at h
  split at h
  · exact nomatch h
  · next hnot =>
    refine ⟨h, fun ⟨hk, hg⟩ => hnot ⟨hk, ?_⟩⟩
    rw [← hk, h, map_some, hg]

lemma getUp_of_ne {k' : κ} {g' : ℕ} (h : naps k' = some (g', b)) (hne : ¬(k' = k ∧ g' = g)) :
    getUp naps k g k' = some (g', b) := by
  unfold getUp
  rw [if_neg, h]
  rintro ⟨rfl, hg⟩
  rw [h] at hg
  exact hne ⟨rfl, some.inj hg⟩

lemma Lawful.retire (h : d.Lawful) (bed : ℕ) (hmay : d.MayRetire k) (hbed : d.beds bed = none)
    (hnew : ∀ id, d.rising id ≠ some (k, g)) :
    Lawful { d with
      naps := update d.naps k (some (g, false))
      beds := update d.beds bed (some (k, g))
      index := update d.index k (some bed) } where
  kept k' nap hnap := by
    simp only [update_apply] at hnap ⊢
    split at hnap
    · next hk =>
      obtain rfl := some.inj hnap
      exact .inl ⟨bed, by rw [if_pos rfl, hk]⟩
    · refine (h.kept k' nap hnap).imp_left fun ⟨bed', hbed'⟩ => ⟨bed', ?_⟩
      rw [if_neg, hbed']
      rintro rfl
      exact nomatch hbed.symm.trans hbed'
  called k' g' hnap := by
    simp only [update_apply] at hnap
    split at hnap
    · exact nomatch hnap
    · exact h.called k' g' hnap
  occupied bed' k' g' hbed' := by
    simp only [update_apply] at hbed' ⊢
    split at hbed'
    · obtain ⟨rfl, rfl⟩ := Prod.mk.inj (some.inj hbed')
      exact .inl ⟨false, if_pos rfl⟩
    · have hne : k' ≠ k := by
        rintro rfl
        exact h.no_bed hmay bed' g' hbed'
      rw [if_neg hne]
      exact h.occupied bed' k' g' hbed'
  indexed k' bed' := by
    simp only [update_apply]
    by_cases hk : k' = k
    · subst hk
      rw [if_pos rfl]
      constructor
      · intro heq
        obtain rfl := some.inj heq
        exact ⟨g, if_pos rfl⟩
      · rintro ⟨g', hbed'⟩
        split at hbed'
        · next heq => rw [heq]
        · exact absurd hbed' (h.no_bed hmay bed' g')
    · rw [if_neg hk, h.indexed]
      refine exists_congr fun g' => ?_
      split
      · next heq =>
        rw [heq, hbed]
        constructor
        · exact nofun
        · intro hentry
          exact absurd (congrArg Prod.fst (some.inj hentry)).symm hk
      · rfl
  cleared k' g' hleft b hnap := by
    simp only [update_apply] at hnap
    split at hnap
    · next hk => exact hmay.2.2 g' (hk ▸ hleft)
    · exact h.cleared k' g' hleft b hnap
  desk _ _ _ := hmay.2.1
  apart bed' id entry hbed' := by
    simp only [update_apply] at hbed'
    split at hbed'
    · obtain rfl := some.inj hbed'
      exact hnew id
    · exact h.apart bed' id entry hbed'

lemma Lawful.replace (h : d.Lawful) (hnap : d.naps k = some nap) :
    Lawful { d with
      naps := update d.naps k none
      calls := d.calls.map (· ++ [.clear k nap.1]) } := by
  obtain ⟨g, b⟩ := nap
  have hdesk := h.desk k _ hnap
  have hother {k' : κ} {nap' : ℕ × Bool} (hnap' : update d.naps k none k' = some nap') :
      k' ≠ k ∧ d.naps k' = some nap' := by
    rw [update_apply] at hnap'
    split at hnap'
    · exact nomatch hnap'
    · next hne => exact ⟨hne, hnap'⟩
  refine ⟨fun k' nap' hnap' => h.kept k' nap' (hother hnap').2, fun k' g' hnap' => ?_,
    fun bed k' g' hbed => ?_, h.indexed, fun k' g' hleft b' hnap' => ?_,
    fun _ _ _ => (isSome_map ..).trans hdesk, h.apart⟩
  · exact (h.called k' g' (hother hnap').2).imp_left fun hleft => (left_append rfl).mpr (.inl hleft)
  · show (∃ b', update d.naps k none k' = some (g', b')) ∨ _
    rcases h.occupied bed k' g' hbed with ⟨b', hnap'⟩ | hleft
    · by_cases hk : k' = k
      · -- its bed is to be cleared now
        subst hk
        obtain ⟨rfl, -⟩ := Prod.mk.inj (some.inj (hnap.symm.trans hnap'))
        exact .inr ((left_append rfl).mpr (.inr ⟨hdesk, List.mem_cons_self⟩))
      · exact .inl ⟨b', by rw [update_of_ne hk, hnap']⟩
    · exact .inr ((left_append rfl).mpr (.inl hleft))
  · obtain ⟨hne, hnap'⟩ := hother hnap'
    rcases (left_append rfl).mp hleft with hleft | ⟨-, hmem⟩
    · exact h.cleared k' g' hleft b' hnap'
    · rw [List.mem_singleton, Call.clear.injEq] at hmem
      exact hne hmem.1

omit [DecidableEq κ] in
/-- Who is in bed after one bed was left was there before. -/
lemma stays_of_vacated {bed' : ℕ} (h : update d.beds bed none bed' = some entry) :
    bed' ≠ bed ∧ d.beds bed' = some entry := by
  rw [update_apply] at h
  split at h
  · exact nomatch h
  · next hne => exact ⟨hne, h⟩

lemma Lawful.rise (h : d.Lawful) (id : ℕ) (hbed : d.beds bed = some entry)
    (hid : d.rising id = none) :
    Lawful { d with
      beds := update d.beds bed none
      index := update d.index entry.1 none
      rising := update d.rising id (some entry) } := by
  -- who was in the bed rises, and who was rising still does
  have hrising {k : κ} {g : ℕ} (hold : d.beds bed = some (k, g) ∨ ∃ id', d.rising id' =
    some (k, g)) :
      ∃ id', update d.rising id (some entry) id' = some (k, g) := by
    rcases hold with hin | ⟨id', hid'⟩
    · exact ⟨id, by rw [update_self, ← hbed, hin]⟩
    · refine ⟨id', ?_⟩
      rw [update_of_ne, hid']
      rintro rfl
      exact nomatch hid.symm.trans hid'
  refine ⟨fun k nap hnap => ?_, fun k g hnap => ?_, fun bed' k g hbed' => ?_,
    h.indexed_vacated hbed, h.cleared, h.desk, fun bed' id' entry' hbed' => ?_⟩
  · rcases h.kept k nap hnap with ⟨bed', hbed'⟩ | hup
    · by_cases heq : bed' = bed
      · exact .inr (hrising (.inl (heq ▸ hbed')))
      · exact .inl ⟨bed', (update_of_ne heq ..).trans hbed'⟩
    · exact .inr (hrising (.inr hup))
  · exact (h.called k g hnap).imp_right fun hup => hrising (.inr hup)
  · exact h.occupied bed' k g (stays_of_vacated hbed').2
  · obtain ⟨hother, hbed'⟩ := stays_of_vacated hbed'
    simp only [update_apply]
    split
    · intro heq
      obtain rfl := some.inj heq
      exact hother (h.bed_unique hbed' hbed)
    · exact h.apart bed' id' entry' hbed'

/-- A wake-up call is done with. -/
lemma Lawful.popWake (h : d.Lawful) (hcalls : d.calls = some (.wake k :: rest))
    (hup : ∀ nap, d.naps k = some nap → ∃ id, d.rising id = some (k, nap.1)) :
    Lawful { d with calls := some rest } := by
  have hlater {call : Call κ} (hne : call ≠ .wake k) (hleft : d.Left call) :=
    ((left_cons hcalls).mp hleft).resolve_left hne
  refine ⟨h.kept, fun k' g hnap => ?_, fun bed k' g hbed => ?_, h.indexed,
    fun k' g hleft => h.cleared k' g ((left_cons hcalls).mpr (.inr hleft)),
      fun _ _ _ => rfl, h.apart⟩
  · by_cases hk : k' = k
    · subst hk
      exact .inr (hup _ hnap)
    · exact (h.called k' g hnap).imp_left (hlater fun heq => hk (Call.wake.inj heq))
  · exact (h.occupied bed k' g hbed).imp_right (hlater nofun)

omit [DecidableEq κ] in
/-- A bed is cleared. -/
lemma Lawful.popClear (h : d.Lawful) (hcalls : d.calls = some (.clear k g :: rest))
    (hbeds : ∀ bed, d.beds bed ≠ some (k, g)) : Lawful { d with calls := some rest } := by
  have hlater {call : Call κ} (hne : call ≠ .clear k g) (hleft : d.Left call) :=
    ((left_cons hcalls).mp hleft).resolve_left hne
  refine ⟨h.kept, fun k' g' hnap => ?_, fun bed k' g' hbed => ?_, h.indexed,
    fun k' g' hleft => h.cleared k' g' ((left_cons hcalls).mpr (.inr hleft)),
      fun _ _ _ => rfl, h.apart⟩
  · exact (h.called k' g' hnap).imp_left (hlater nofun)
  · refine (h.occupied bed k' g' hbed).imp_right (hlater fun heq => hbeds bed ?_)
    obtain ⟨rfl, rfl⟩ := Call.clear.inj heq
    exact hbed

lemma Lawful.evict (h : d.Lawful) (hbed : d.beds bed = some entry) :
    Lawful { d with
      naps := Dormitory.getUp d.naps entry.1 entry.2
      beds := update d.beds bed none
      index := update d.index entry.1 none } := by
  obtain ⟨k₀, g₀⟩ := entry
  refine ⟨fun k nap hnap => ?_, fun k g hnap => ?_, fun bed' k g hbed' => ?_,
    h.indexed_vacated hbed, fun k g hleft b hnap => ?_, fun k nap hnap => ?_,
    fun bed' id entry hbed' => h.apart bed' id entry (stays_of_vacated hbed').2⟩
  · obtain ⟨hold, hne⟩ := getUp_of_some hnap
    refine (h.kept k nap hold).imp_left fun ⟨bed', hbed'⟩ => ⟨bed', ?_⟩
    refine (update_of_ne ?_ ..).trans hbed'
    rintro rfl
    obtain ⟨rfl, rfl⟩ := Prod.mk.inj (some.inj (hbed.symm.trans hbed'))
    exact hne ⟨rfl, rfl⟩
  · exact h.called k g (getUp_of_some hnap).1
  · obtain ⟨hother, hstays⟩ := stays_of_vacated hbed'
    refine (h.occupied bed' k g hstays).imp_left fun ⟨b, hnap⟩ => ⟨b, getUp_of_ne hnap ?_⟩
    rintro ⟨rfl, rfl⟩
    exact hother (h.bed_unique hstays hbed)
  · exact h.cleared k g hleft b (getUp_of_some hnap).1
  · exact h.desk k nap (getUp_of_some hnap).1

lemma getUp_eq_self (h : ∀ b, naps k ≠ some (g, b)) : Dormitory.getUp naps k g = naps := by
  funext k'
  refine if_neg ?_
  rintro ⟨-, hg⟩
  obtain ⟨⟨g', b⟩, hnap, rfl⟩ := map_eq_some_iff.mp hg
  exact h b hnap

lemma Lawful.getUp (h : d.Lawful) {id : ℕ} (hid : d.rising id = some entry) :
    Lawful { d with
      naps := Dormitory.getUp d.naps entry.1 entry.2
      rising := update d.rising id none } := by
  obtain ⟨k₀, g₀⟩ := entry
  have hrising {k : κ} {g : ℕ} (hne : ¬(k = k₀ ∧ g = g₀))
    (hold : ∃ id', d.rising id' = some (k, g)) :
      ∃ id', update d.rising id none id' = some (k, g) := by
    obtain ⟨id', hid'⟩ := hold
    refine ⟨id', ?_⟩
    rw [update_of_ne, hid']
    rintro rfl
    obtain ⟨rfl, rfl⟩ := Prod.mk.inj (some.inj (hid.symm.trans hid'))
    exact hne ⟨rfl, rfl⟩
  refine ⟨fun k nap hnap => ?_, fun k g hnap => ?_, fun bed k g hbed => ?_, h.indexed,
    fun k g hleft b hnap => ?_, fun k nap hnap => ?_, fun bed id' entry hbed => ?_⟩
  · obtain ⟨hold, hne⟩ := getUp_of_some hnap
    exact (h.kept k nap hold).imp_right (hrising hne)
  · obtain ⟨hold, hne⟩ := getUp_of_some hnap
    exact (h.called k g hold).imp_right (hrising hne)
  · refine (h.occupied bed k g hbed).imp_left fun ⟨b, hnap⟩ => ⟨b, getUp_of_ne hnap ?_⟩
    rintro ⟨rfl, rfl⟩
    exact h.apart bed id _ hbed hid
  · exact h.cleared k g hleft b (getUp_of_some hnap).1
  · exact h.desk k nap (getUp_of_some hnap).1
  · simp only [update_apply]
    split
    · exact nofun
    · exact h.apart bed id' entry hbed

omit [DecidableEq κ] in
lemma Lawful.evictAll (h : d.Lawful)
    (hnaps : ∀ k, naps k = d.naps k ∧ (∀ nap ∈ naps k, ∀ bed, d.beds bed ≠ some (k, nap.1)) ∨
      naps k = none) : Lawful { d with naps, beds := fun _ => none, index := fun _ => none } := by
  have hold {k : κ} {nap : ℕ × Bool} (hnap : naps k = some nap) :
      d.naps k = some nap ∧ ∀ bed, d.beds bed ≠ some (k, nap.1) := by
    rcases hnaps k with ⟨heq, hbeds⟩ | hnone
    · exact ⟨heq.symm.trans hnap, hbeds nap hnap⟩
    · exact nomatch hnone.symm.trans hnap
  refine ⟨fun k nap hnap => ?_, fun k g hnap => h.called k g (hold hnap).1,
    fun _ _ _ hnone => (nomatch hnone), fun k bed => ?_,
    fun k g hleft b hnap => h.cleared k g hleft b (hold hnap).1,
    fun k nap hnap => h.desk k nap (hold hnap).1, fun _ _ _ hnone => (nomatch hnone)⟩
  · obtain ⟨hnap', hbeds⟩ := hold hnap
    exact .inr ((h.kept k nap hnap').resolve_left fun ⟨bed, hbed⟩ => hbeds bed hbed)
  · simp

/-- As if the process had gone to bed and risen at once. -/
lemma Lawful.doze (h : d.Lawful) (id : ℕ) (hmay : d.MayRetire k) (hbed : d.beds bed = none)
    (hnew : ∀ id, d.rising id ≠ some (k, g)) (hid : d.rising id = none) :
    Lawful { d with
      naps := update d.naps k (some (g, false))
      rising := update d.rising id (some (k, g)) } := by
  have hindex : d.index k = none := by
    refine eq_none_iff_forall_ne_some.mpr fun bed' hbed' => ?_
    obtain ⟨g', hin⟩ := (h.indexed k bed').mp hbed'
    exact h.no_bed hmay bed' g' hin
  have hrisen := (h.retire bed hmay hbed hnew).rise id (update_self ..) hid
  simp only [update_idem] at hrisen
  rwa [← hbed, update_eq_self, ← hindex, update_eq_self] at hrisen

lemma Lawful.wake (h : d.Lawful) (id : ℕ) (hcalls : d.calls = some (.wake k :: rest))
    (hindex : d.index k = some bed) (hbed : d.beds bed = some entry) (hid : d.rising id = none) :
    Lawful { d with
      calls := some rest
      beds := update d.beds bed none
      index := update d.index entry.1 none
      rising := update d.rising id (some entry) } := by
  have hrisen := h.rise id hbed hid
  refine hrisen.popWake hcalls fun nap hnap => ?_
  refine (hrisen.kept k nap hnap).resolve_left fun ⟨bed', hbed'⟩ => ?_
  -- the only bed of that name was left
  obtain ⟨hother, hbed'⟩ := stays_of_vacated hbed'
  obtain ⟨g, hbed''⟩ := (h.indexed k bed).mp hindex
  exact hother (h.bed_unique hbed' hbed'')

lemma Lawful.clear (h : d.Lawful) (hcalls : d.calls = some (.clear k g :: rest))
    (hindex : d.index k = some bed) (hbed : d.beds bed = some entry) (hgen : entry.2 = g) :
    Lawful { d with
      calls := some rest
      beds := update d.beds bed none
      index := update d.index entry.1 none } := by
  obtain ⟨g', hbed'⟩ := (h.indexed k bed).mp hindex
  obtain rfl := some.inj (hbed'.symm.trans hbed)
  obtain rfl : g' = g := hgen
  -- whose bed is to be cleared does not sleep, so no nap ends with it
  have hgone := getUp_eq_self (h.cleared k g' ((left_cons hcalls).mpr (.inl rfl)))
  have hvacated := h.evict hbed
  rw [hgone] at hvacated
  refine hvacated.popClear hcalls fun bed' hbed' => ?_
  obtain ⟨hother, hbed'⟩ := stays_of_vacated hbed'
  exact hother (h.bed_unique hbed' hbed)

lemma Lawful.step (h : d.Lawful) (hstep : d.Step sent d') : d'.Lawful := by
  cases hstep with
  | rest => exact h
  | retire bed hmay hbed hnew => exact h.retire bed hmay hbed hnew
  | doze id hmay hbed hnew hid => exact h.doze id hmay hbed hnew hid
  | replace hnap => exact h.replace hnap
  | wake id hcalls hindex hbed hid => exact h.wake id hcalls hindex hbed hid
  | wakeMissed hcalls hmissed =>
    refine h.popWake hcalls fun nap hnap => ?_
    refine (h.kept _ nap hnap).resolve_left fun ⟨bed, hbed⟩ => ?_
    exact nomatch (hmissed bed ((h.indexed _ bed).mpr ⟨_, hbed⟩)).symm.trans hbed
  | clear hcalls hindex hbed hgen => exact h.clear hcalls hindex hbed hgen
  | clearMissed hcalls hmissed =>
    refine h.popClear hcalls fun bed hbed => ?_
    exact hmissed bed ((h.indexed _ bed).mpr ⟨_, hbed⟩) _ hbed rfl
  | rise id hbed hid => exact h.rise id hbed hid
  | evict hbed => exact h.evict hbed
  | evictAll hnaps => exact h.evictAll hnaps
  | getUp hid => exact h.getUp hid

/-! ### A sleeper is called once -/

/-- One step, and then some sleepers are called. -/
def Turn (d : Dormitory κ) (sent : List (Call κ)) (d' : Dormitory κ) : Prop :=
  ∃ d₁ sent₁ called, d.Step sent₁ d₁ ∧ d₁.Rouses called d' ∧ sent = sent₁ ++ called.map .wake

lemma Lawful.turn (h : d.Lawful) (hturn : d.Turn sent d') : d'.Lawful := by
  obtain ⟨d₁, sent₁, called, hstep, hrouses, -⟩ := hturn
  exact (h.step hstep).rouses hrouses

lemma Step.naps_of_some (hstep : d.Step sent d') (hnap : d.naps k = some nap) :
    (d'.naps k = some nap ∨ d'.naps k = none) ∧ sent.count (.wake k) = 0 := by
  have hup (k₀ : κ) (g₀ : ℕ) : Dormitory.getUp d.naps k₀ g₀ k = some nap ∨
      Dormitory.getUp d.naps k₀ g₀ k = none := by
    unfold Dormitory.getUp
    split
    · exact .inr rfl
    · exact .inl hnap
  have hkept {k₀ : κ} {g : ℕ} (hmay : d.MayRetire k₀) :
      update d.naps k₀ (some (g, false)) k = some nap := by
    rw [update_of_ne, hnap]
    rintro rfl
    exact nomatch hmay.1.symm.trans hnap
  cases hstep with
  | rest | wake | wakeMissed | clear | clearMissed | rise => exact ⟨.inl hnap, rfl⟩
  | retire bed hmay => exact ⟨.inl (hkept hmay), rfl⟩
  | doze id hmay => exact ⟨.inl (hkept hmay), rfl⟩
  | @replace k₀ nap₀ hnap₀ =>
    refine ⟨?_, by simp⟩
    show update d.naps k₀ none k = some nap ∨ update d.naps k₀ none k = none
    rw [update_apply]
    split
    · exact .inr rfl
    · exact .inl hnap
  | @evict bed entry => exact ⟨hup entry.1 entry.2, rfl⟩
  | evictAll hnaps =>
    refine ⟨?_, rfl⟩
    rcases hnaps k with ⟨heq, -⟩ | hnone
    · exact .inl (heq.trans hnap)
    · exact .inr hnone
  | @getUp id entry => exact ⟨hup entry.1 entry.2, rfl⟩

/-- In the course of a nap a sleeper is called once at most. -/
lemma Turn.wakes (hturn : d.Turn sent d') (hnap : d.naps k = some (g, b)) :
    (∃ b', d'.naps k = some (g, b') ∧ b.toNat + sent.count (.wake k) = b'.toNat) ∨
      d'.naps k = none ∧ sent.count (.wake k) = 0 := by
  obtain ⟨d₁, sent₁, called, hstep, hrouses, rfl⟩ := hturn
  obtain ⟨hnap₁, hcount₁⟩ := hstep.naps_of_some hnap
  have hcount : (sent₁ ++ called.map Call.wake).count (.wake k) = called.count k := by
    rw [List.count_append, hcount₁, List.count_map_of_injective _ _ fun _ _ => Call.wake.inj,
      Nat.zero_add]
  rw [hcount]
  have hnoticed := hrouses.naps k
  rcases hnap₁ with heq | heq
  · rw [heq] at hnoticed
    exact .inl hnoticed
  · rw [heq] at hnoticed
    exact .inr ⟨hnoticed.2, hnoticed.1⟩

end Dormitory

end Lib
