import Mathlib.Data.List.Basic
import Mathlib.Order.Basic

/-!
# Write-behind logging of one key

A change of a key's value leaves a mark, a flush turns the marks into log records, and a checkpoint
writes a snapshot and then empties the log, while memory goes on changing. A key without a mark has
its value on disk as soon as the write in progress completes (`InSync`), and a crash recovers a
value the key had since the last flush (`Covered`), unless the value is about to lapse: that a flush
does not write.
-/

namespace Lib.WriteBehind

open List

/-- A pending mark. -/
inductive Mark where
  /-- The value changed: to be logged. -/
  | dirty
  /-- The value is gone: to be logged as a tombstone. -/
  | removed
  deriving DecidableEq, Repr

/-- What memory holds about a key. -/
structure Memory (D : Type*) where
  /-- The durable value. -/
  value : Option D
  /-- The pending mark. -/
  mark : Option Mark
  /-- Whether the value is too close to its end to be written at a given time. -/
  lapsing : ℕ → Prop
  /-- Time only brings the end closer. -/
  lapsing_mono : ∀ {t t' : ℕ}, t ≤ t' → lapsing t → lapsing t'
  /-- Whether the value is in the hands of someone else and still to be handed in. -/
  unsettled : Prop

variable {D : Type*} {same : Option D → Option D → Prop} {m : Memory D} {now : ℕ}

/-- The ways in which the store may change a key. -/
inductive Moves (m m' : Memory D) : Prop
  /-- Nothing durable changes. -/
  | keep (hvalue : m'.value = m.value) (hmark : m'.mark = m.mark)
      (hlapsing : ∀ t, m.lapsing t → m'.lapsing t) (hunsettled : m.unsettled → m'.unsettled)
  /-- The new value is marked. -/
  | put (hmark : m'.mark = some .dirty) (hvalue : m'.value ≠ none)
  /-- The value is gone, and marked as such. -/
  | drop (hmark : m'.mark = some .removed) (hvalue : m'.unsettled ∨ m'.value = none)
  /-- The value is not settled; a value marked dirty does not disappear unmarked. -/
  | unsettle (hunsettled : m'.unsettled) (hmark : m'.mark = m.mark)
      (hvalue : m.mark = some .dirty → m'.value ≠ none)

/-- Two changes in a row are one. -/
lemma Moves.trans {m' m'' : Memory D} (h : Moves m m') (h' : Moves m' m'') : Moves m m'' := by
  cases h' with
  | put hmark hvalue => exact .put hmark hvalue
  | drop hmark hvalue => exact .drop hmark hvalue
  | keep hvalue' hmark' hlapsing' hunsettled' =>
    cases h with
    | keep hvalue hmark hlapsing hunsettled =>
      exact .keep (hvalue'.trans hvalue) (hmark'.trans hmark)
        (fun t h => hlapsing' t (hlapsing t h))
        (hunsettled' ∘ hunsettled)
    | put hmark hvalue => exact .put (hmark'.trans hmark) (hvalue' ▸ hvalue)
    | drop hmark hvalue => exact .drop (hmark'.trans hmark) (hvalue' ▸ hvalue.imp_left hunsettled')
    | unsettle hunsettled hmark hvalue =>
      exact .unsettle (hunsettled' hunsettled) (hmark'.trans hmark) (hvalue' ▸ hvalue)
  | unsettle hunsettled' hmark' hvalue' =>
    cases h with
    | keep hvalue hmark hlapsing hunsettled =>
      exact .unsettle hunsettled' (hmark'.trans hmark) fun hd => hvalue' (hmark.trans hd)
    | put hmark hvalue => exact .put (hmark'.trans hmark) (hvalue' hmark)
    | drop hmark hvalue => exact .drop (hmark'.trans hmark) (.inl hunsettled')
    | unsettle hunsettled hmark hvalue =>
      exact .unsettle hunsettled' (hmark'.trans hmark) fun hd => hvalue' (hmark.trans hd)

lemma Moves.refl (m : Memory D) : Moves m m :=
  .keep rfl rfl (fun _ h => h) id

/-- `disk` is what the disk says about a key once the write in progress completes. -/
structure InSync (same : Option D → Option D → Prop) (m : Memory D) (now : ℕ)
    (disk : Option D) : Prop where
  clean : m.mark = none → m.unsettled ∨ m.lapsing now ∨ same disk m.value
  removed : m.mark = some .removed → m.unsettled ∨ m.value = none
  dirty : m.mark = some .dirty → m.value ≠ none

/-- A change of memory keeps the key in step with the disk. -/
lemma InSync.moves {m' : Memory D} {now' : ℕ} {disk : Option D} (h : InSync same m now disk)
    (hm : Moves m m') (hnow : now ≤ now') : InSync same m' now' disk := by
  cases hm with
  | keep hvalue hmark hlapsing hunsettled =>
    refine ⟨fun hm' => ?_, fun hm' => ?_, fun hm' => ?_⟩
    · rw [hvalue]
      exact (h.clean (hmark ▸ hm')).imp hunsettled (Or.imp_left fun hl =>
        hlapsing _ (m.lapsing_mono hnow hl))
    · rw [hvalue]
      exact (h.removed (hmark ▸ hm')).imp_left hunsettled
    · rw [hvalue]
      exact h.dirty (hmark ▸ hm')
  | put hmark hvalue =>
    refine ⟨fun hm' => ?_, fun hm' => ?_, fun _ => hvalue⟩
    · rw [hmark] at hm'
      cases hm'
    · rw [hmark] at hm'
      cases hm'
  | drop hmark hvalue =>
    refine ⟨fun hm' => ?_, fun _ => hvalue, fun hm' => ?_⟩
    · rw [hmark] at hm'
      cases hm'
    · rw [hmark] at hm'
      cases hm'
  | unsettle hunsettled hmark hvalue =>
    exact ⟨fun _ => .inl hunsettled, fun _ => .inl hunsettled, fun hm' => hvalue (hmark ▸ hm')⟩

/-- The record a flush at time `now` writes for a key: a tombstone, the current value of a dirty
key that is not lapsing, or nothing. -/
inductive Batched (m : Memory D) (now : ℕ) : Option (Option D) → Prop
  | unmarked : m.mark = none → Batched m now none
  | tombstone : m.mark = some .removed → Batched m now (some none)
  | lapsing : m.mark = some .dirty → m.lapsing now → Batched m now none
  | value {d : D} : m.mark = some .dirty → m.value = some d → Batched m now (some (some d))

/-- What recovery finds for a key: its last log record, or else its snapshot entry. -/
def recovered (base : Option D) (last : Option (Option D)) : Option D :=
  last.getD base

/-- The last record of a log to which a batch is appended. -/
def appended (batch last : Option (Option D)) : Option (Option D) :=
  batch.or last

/-- A flush brings the disk in step with every key, once its batch is appended. -/
lemma InSync.flush (hrefl : ∀ d, same d d) {base : Option D} {last batch : Option (Option D)}
    (h : InSync same m now (recovered base last)) (hb : Batched m now batch) :
    InSync same { m with mark := none } now (recovered base (appended batch last)) := by
  refine ⟨fun _ => ?_, fun hm => (by cases hm), fun hm => (by cases hm)⟩
  cases hb with
  | unmarked hm => exact h.clean hm
  | tombstone hm =>
    refine (h.removed hm).imp_right fun hnone => .inr ?_
    rw [show m.value = none from hnone]
    exact hrefl none
  | lapsing _ hl => exact .inr (.inl hl)
  | value _ hd =>
    refine .inr (.inr ?_)
    rw [show m.value = some _ from hd]
    exact hrefl _

/-- What a checkpoint at time `now` writes for a key. -/
inductive Snapped (m : Memory D) (now : ℕ) : Option D → Prop
  | value : Snapped m now m.value
  | lapsing : m.lapsing now → Snapped m now none

/-- A checkpoint brings the disk in step with every key, once the log is emptied. -/
lemma InSync.checkpoint (hrefl : ∀ d, same d d) {disk entry : Option D}
    (h : InSync same m now disk) (he : Snapped m now entry) : InSync same m now entry := by
  refine ⟨fun _ => .inr ?_, h.removed, h.dirty⟩
  cases he with
  | value => exact .inr (hrefl _)
  | lapsing hl => exact .inl hl

/-! ### The system seen from one key -/

/-- What the logging task is doing: nothing, appending a batch, writing a snapshot, or about to
empty the log. -/
inductive Phase (D : Type*) where
  | idle
  | appending (batch : Option (Option D))
  | saving (entry : Option D)
  | truncating

/-- A moment of a key's history: what memory held, and when. -/
abbrev Moment (D : Type*) := Memory D × ℕ

/-- One key of the store, its two files, and the two windows of its history: since the flush that
the log contains last, and since the flush in progress. -/
structure Cell (D : Type*) where
  memory : Memory D
  now : ℕ
  /-- The key's snapshot entry. -/
  base : Option D
  /-- The key's last log record. -/
  last : Option (Option D)
  phase : Phase D
  recent : List (Moment D)
  fresh : List (Moment D)

namespace Cell

/-- What a crash recovers. -/
def disk (c : Cell D) : Option D :=
  recovered c.base c.last

/-- What the disk says once the write in progress completes. -/
def upcoming (c : Cell D) : Option D :=
  match c.phase with
  | .idle => c.disk
  | .appending batch => recovered c.base (appended batch c.last)
  | .saving entry => entry
  | .truncating => c.base

/-- Memory is now `m` at time `now`: a new moment of both windows. -/
def observe (c : Cell D) (m : Memory D) (now : ℕ) : Cell D :=
  { c with
    memory := m
    now := now
    recent := (m, now) :: c.recent
    fresh := (m, now) :: c.fresh }

/-- Everything that can happen to a key. -/
inductive Step (c : Cell D) : Cell D → Prop
  /-- The store changes the key, or time passes. -/
  | mutate {m : Memory D} {now : ℕ} : Moves c.memory m → c.now ≤ now → Step c (c.observe m now)
  /-- A flush takes its batch, and with it all marks. -/
  | take {m : Memory D} {batch : Option (Option D)} : c.phase = .idle →
      m = { c.memory with mark := none } → Batched c.memory c.now batch →
      Step c { c.observe m c.now with phase := .appending batch, fresh := [(m, c.now)] }
  /-- A flush that finds nothing to write. -/
  | skip {m : Memory D} : c.phase = .idle → m = { c.memory with mark := none } →
      Batched c.memory c.now none → Step c (c.observe m c.now)
  /-- The batch is on disk. -/
  | append {batch : Option (Option D)} : c.phase = .appending batch →
      Step c { c with last := appended batch c.last, phase := .idle, recent := c.fresh }
  /-- A checkpoint collects the values. -/
  | collect {entry : Option D} : c.phase = .idle → Snapped c.memory c.now entry →
      Step c { c with phase := .saving entry }
  /-- The snapshot is on disk. -/
  | save {entry : Option D} : c.phase = .saving entry →
      Step c { c with base := entry, phase := .truncating }
  /-- The log is empty. -/
  | truncate : c.phase = .truncating → Step c { c with last := none, phase := .idle }

/-- The key is in step with what the disk is about to say. -/
def Synced (same : Option D → Option D → Prop) (c : Cell D) : Prop :=
  InSync same c.memory c.now c.upcoming

lemma Synced.step (hrefl : ∀ d, same d d) {c c' : Cell D} (h : c.Synced same) (hs : c.Step c') :
    c'.Synced same := by
  unfold Synced at *
  cases hs with
  | mutate hm hnow => exact h.moves hm hnow
  | take hp hm hb =>
    subst hm
    simp only [upcoming, hp] at h
    exact h.flush hrefl hb
  | skip hp hm hb =>
    subst hm
    simp only [upcoming, hp] at h
    simp only [upcoming, observe, hp]
    exact h.flush hrefl hb
  | append hp =>
    simp only [upcoming, hp] at h
    exact h
  | collect hp he => exact h.checkpoint hrefl he
  | save hp =>
    simp only [upcoming, hp] at h
    exact h
  | truncate hp =>
    simp only [upcoming, hp] at h
    exact h

end Cell

/-! ### What a crash recovers -/

/-- `disk` is a value the key had in the window, unless its value was lapsing in the window. -/
def Covered (same : Option D → Option D → Prop) (window : List (Moment D)) (disk : Option D) :
    Prop :=
  (∃ w ∈ window, w.1.lapsing w.2) ∨ ∃ w ∈ window, same disk w.1.value

lemma Covered.cons {window : List (Moment D)} {disk : Option D} (h : Covered same window disk)
    (w : Moment D) : Covered same (w :: window) disk := by
  refine h.imp ?_ ?_
  all_goals
    rintro ⟨w', hw', hd⟩
    exact ⟨w', mem_cons_of_mem _ hw', hd⟩

/-- An unmarked key that is in step with the disk and settled has its value on disk. -/
lemma InSync.covered {disk : Option D} (h : InSync same m now disk) (hm : m.mark = none)
    (hs : ¬m.unsettled) {window : List (Moment D)} (hw : (m, now) ∈ window) :
    Covered same window disk :=
  ((h.clean hm).resolve_left hs).imp (fun hl => ⟨_, hw, hl⟩) fun hv => ⟨_, hw, hv⟩

namespace Cell

/-- The window that the write in progress will leave as the recent one. -/
def window (c : Cell D) : List (Moment D) :=
  match c.phase with
  | .appending _ => c.fresh
  | _ => c.recent

/-- A new moment makes the window of the write in progress one longer. -/
lemma window_observe (c : Cell D) (m : Memory D) (now : ℕ) :
    (c.observe m now).window = (m, now) :: c.window := by
  unfold window
  cases hp : c.phase <;> simp [observe, hp]

/-- A crash recovers a value of the recent window, now and after the write in progress. -/
structure Recoverable (same : Option D → Option D → Prop) (c : Cell D) : Prop where
  synced : c.Synced same
  settled : ¬c.memory.unsettled
  mem_recent : (c.memory, c.now) ∈ c.recent
  mem_fresh : (c.memory, c.now) ∈ c.fresh
  disk : Covered same c.recent c.disk
  upcoming : Covered same c.window c.upcoming

lemma Recoverable.step (hrefl : ∀ d, same d d) {c c' : Cell D} (h : c.Recoverable same)
    (hs : c.Step c') (hsettled : ¬c'.memory.unsettled) : c'.Recoverable same := by
  have hsynced := h.synced.step hrefl hs
  cases hs with
  | mutate hm hnow =>
    refine ⟨hsynced, hsettled, mem_cons_self, mem_cons_self, h.disk.cons _, ?_⟩
    rw [window_observe]
    exact h.upcoming.cons _
  | take hp hm hb =>
    subst hm
    refine ⟨hsynced, hsettled, mem_cons_self, mem_singleton_self _, h.disk.cons _, ?_⟩
    exact InSync.covered hsynced rfl hsettled (mem_singleton_self _)
  | skip hp hm hb =>
    subst hm
    refine ⟨hsynced, hsettled, mem_cons_self, mem_cons_self, h.disk.cons _, ?_⟩
    rw [window_observe]
    exact h.upcoming.cons _
  | append hp =>
    have hup := h.upcoming
    simp only [window, Cell.upcoming, hp] at hup
    exact ⟨hsynced, hsettled, h.mem_fresh, h.mem_fresh, hup, hup⟩
  | collect hp he =>
    refine ⟨hsynced, hsettled, h.mem_recent, h.mem_fresh, h.disk, ?_⟩
    cases he with
    | value => exact .inr ⟨_, h.mem_recent, hrefl _⟩
    | lapsing hl => exact .inl ⟨_, h.mem_recent, hl⟩
  | save hp =>
    have hup := h.upcoming
    simp only [window, Cell.upcoming, hp] at hup
    refine ⟨hsynced, hsettled, h.mem_recent, h.mem_fresh, ?_, hup⟩
    -- until the log is emptied its last record hides the new snapshot entry
    have hdisk := h.disk
    cases hl : c.last with
    | none => simpa [Cell.disk, recovered, hl] using hup
    | some r => simpa [Cell.disk, recovered, hl] using hdisk
  | truncate hp =>
    have hup := h.upcoming
    simp only [window, Cell.upcoming, hp] at hup
    exact ⟨hsynced, hsettled, h.mem_recent, h.mem_fresh, hup, hup⟩

end Cell

end Lib.WriteBehind
