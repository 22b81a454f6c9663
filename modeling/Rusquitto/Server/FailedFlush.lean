import Rusquitto.Server.Crash

/-!
# A batch that the log refuses

`take_wal_batch` drains the marks before the batch is appended, and the WAL task only reports an
append that fails. What the files say about such a client after the next flush is its current
durable state exactly when that batch has a record of it, or the files had that state all along
(`ShardRun.failed_append_retried_iff`).
-/

namespace Rusquitto

open Lib.WriteBehind (Memory Moves)

namespace ShardRun

variable {hash : ContentHash} {r r' : ShardRun}

/-- `wal.append` fails: the log stays as it was, and the error is only reported. -/
def failAppend (r : ShardRun) : ShardRun :=
  match r.task with
  | .appending _ => { r with task := .idle }
  | _ => r

/-- Regular work on the shard during which the WAL task stays where it is. -/
def Meanwhile (hash : ContentHash) (r r' : ShardRun) : Prop :=
  Lib.Reached (apply hash) (fun r op => op.Regular r.toMoment ∧ (r.apply hash op).task =
    r.task) r r'

/-- What holds of the marks whatever happens to the files: a client marked as removed has no durable
state. -/
structure MarksTrue (r : ShardRun) : Prop where
  coherent : r.toMoment.Coherent false
  removed : ∀ k, (r.shard.view k).wal.join = some .removed → (r.shard.view k).durable = none

lemma Inv.marksTrue (h : r.Inv false) : r.MarksTrue where
  coherent := h.coherent
  removed k hmark := ((h.synced k).removed hmark).resolve_left (h.coherent.settled k)

/-- The WAL task goes round without a batch, or the shard moves on. -/
lemma apply_of_task_eq (hr : r.toMoment.Coherent false) {op : Op} (hop : op.Regular r.toMoment)
    (htask : (r.apply hash op).task = r.task) : r.apply hash op = r ∨
      r.apply hash op = r.withShard r.shard.drainWal ∨
      ∃ m, r.apply hash op = r.observe m ∧ r.toMoment.Next false m := by
  cases hwal : op.isWalStep with
  | false =>
    rcases apply_shard hash r hr hop.proper hwal with h | h
    · exact .inl h
    · exact .inr (.inr h)
  | true =>
    cases op with
    | takeWalBatch =>
      simp only [apply, takeBatch] at htask ⊢
      split
      · next hidle =>
        rw [hidle] at htask
        split
        · exact .inr (.inl rfl)
        · next hbatch =>
          rw [if_neg hbatch] at htask
          exact nomatch htask
      · exact .inl rfl
    | appendDone =>
      simp only [apply, finishAppend] at htask ⊢
      split
      · next batch hbatch =>
        rw [hbatch] at htask
        exact nomatch htask
      · exact .inl rfl
    | persistSessions =>
      simp only [apply, collectSessions] at htask ⊢
      split
      · next hidle =>
        rw [hidle] at htask
        exact nomatch htask
      · exact .inl rfl
    | saveDone =>
      simp only [apply, finishSave] at htask ⊢
      split
      · next sessions hsaving =>
        rw [hsaving] at htask
        exact nomatch htask
      · exact .inl rfl
    | truncateDone =>
      simp only [apply, finishTruncate] at htask ⊢
      split
      · next htruncating =>
        rw [htruncating] at htask
        exact nomatch htask
      · exact .inl rfl
    | _ => exact nomatch hwal

lemma MarksTrue.drain (h : r.MarksTrue) : (r.withShard r.shard.drainWal).MarksTrue where
  coherent := Moment.coherent_drainWal h.coherent
  removed k hmark := by
    have hnone := congrArg Memory.mark (Moment.memory_drainWal r.toMoment k)
    exact nomatch hnone.symm.trans hmark

lemma MarksTrue.next (h : r.MarksTrue) {m : Moment} (hnext : r.toMoment.Next false m) :
    (r.observe m).MarksTrue where
  coherent := hnext.coherent
  removed k hmark := by
    have hmark : (m.memory k).mark = some .removed := hmark
    cases hnext.moves k with
    | keep hvalue hmarks => exact hvalue.trans (h.removed k (hmarks.symm.trans hmark))
    | put hdirty => exact nomatch hdirty.symm.trans hmark
    | drop _ hvalue => exact hvalue.resolve_left (hnext.coherent.settled k)
    | unsettle hunsettled => exact absurd hunsettled (hnext.coherent.settled k)

lemma MarksTrue.takeBatch (h : r.MarksTrue) : r.takeBatch.MarksTrue := by
  unfold ShardRun.takeBatch
  split
  · dsimp only
    split
    · exact h.drain
    · exact ⟨h.drain.coherent, h.drain.removed⟩
  · exact h

lemma MarksTrue.failAppend (h : r.MarksTrue) : r.failAppend.MarksTrue := by
  unfold ShardRun.failAppend
  split
  · exact ⟨h.coherent, h.removed⟩
  · exact h

/-- Work beside the WAL task leaves the files alone. -/
lemma Meanwhile.spec (hrun : Meanwhile hash r r') (h : r.MarksTrue) :
    r'.MarksTrue ∧ r'.disk = r.disk ∧ r'.task = r.task := by
  refine Lib.Reached.inv (fun r' => r'.MarksTrue ∧ r'.disk = r.disk ∧ r'.task = r.task)
    ⟨h, rfl, rfl⟩
    (fun r₁ op hinv hop => ?_) hrun
  obtain ⟨hmarks, hdisk, htask⟩ := hinv
  rcases apply_of_task_eq hmarks.coherent hop.1 hop.2 with heq | heq | ⟨m, heq, hnext⟩
  · rw [heq]
    exact ⟨hmarks, hdisk, htask⟩
  · rw [heq]
    exact ⟨hmarks.drain, hdisk, htask⟩
  · rw [heq]
    exact ⟨hmarks.next hnext, hdisk, htask⟩

/-- A record in a batch has the client's durable state at that moment. -/
lemma MarksTrue.lastRecord_eq (h : r.MarksTrue) {k : String} {state : Option MigratedSession}
    (hlast : lastRecord k (r.shard.walRecords r.now) = some state) :
    state = (r.shard.view k).durable := by
  rw [ShardState.lastRecord_walRecords] at hlast
  cases hmark : (r.shard.view k).wal.join with
  | none =>
    rw [hmark] at hlast
    exact nomatch hlast
  | some mark =>
    rw [hmark] at hlast
    cases mark with
    | removed =>
      obtain rfl := Option.some.inj hlast
      exact (h.removed k hmark).symm
    | dirty =>
      obtain ⟨ps, hps, rfl⟩ := Option.map_eq_some_iff.mp hlast
      have hsession := r.shard.session_persistOne k r.now
      rw [hps, Option.map_some] at hsession
      split at hsession
      · exact nomatch hsession
      · exact hsession

lemma lastRecord_eq_none_iff (k : String) (batch : List Record) :
    lastRecord k batch = none ↔ ∀ record ∈ batch, record.clientId ≠ k := by
  induction batch with
  | nil => simp [lastRecord]
  | cons record batch ih => simp [lastRecord, ih, and_comm]

/-- What a flush takes, and where it leaves the files. -/
lemma takeBatch_eq {batch : List Record} (h : r.takeBatch.task = .appending batch)
    (hidle : r.task = .idle) : batch = r.shard.walRecords r.now ∧ r.takeBatch.disk = r.disk := by
  unfold takeBatch at h ⊢
  rw [hidle] at h ⊢
  dsimp only at h ⊢
  split at h
  · exact nomatch hidle.symm.trans h
  · next hbatch =>
    rw [if_neg hbatch]
    exact ⟨(WalTask.appending.inj h).symm, rfl⟩

/-- A batch is taken from a running shard and its append fails; later a batch is taken again and
appended. The files then have the durable state that a client had when the second batch was taken if
and only if that batch has a record of the client, or they had that state before the first one. -/
theorem failed_append_retried_iff {r₀ r r₁ r₂ r₃ : ShardRun} {failed batch : List Record}
    (hstart : r₀.Started) (hrun : Reached hash (fun m op => op.Regular m) r₀ r)
    (hidle : r.task = .idle)
    (htake : r.takeBatch.task = .appending failed) (hwrite : Meanwhile hash r.takeBatch r₁)
    (hlater : Meanwhile hash r₁.failAppend r₂) (htake' : r₂.takeBatch.task = .appending batch)
    (hwrite' : Meanwhile hash r₂.takeBatch r₃) (k : String) :
    SameState (r₃.finishAppend.disk.state k) (r₂.shard.view k).durable ↔
      (∃ record ∈ batch, record.clientId = k) ∨
        SameState (r.disk.state k) (r₂.shard.view k).durable := by
  have hmarks : r.MarksTrue := (hrun.safe hstart).inv.marksTrue
  obtain ⟨-, hdisk⟩ := takeBatch_eq htake hidle
  obtain ⟨hmarks₁, hdisk₁, htask₁⟩ := hwrite.spec hmarks.takeBatch
  have hfailed : r₁.failAppend.disk = r₁.disk ∧ r₁.failAppend.task = .idle := by
    rw [failAppend, htask₁.trans htake]
    exact ⟨rfl, rfl⟩
  obtain ⟨hmarks₂, hdisk₂, htask₂⟩ := hlater.spec hmarks₁.failAppend
  obtain ⟨hbatch, hdisk₃⟩ := takeBatch_eq htake' (htask₂.trans hfailed.2)
  obtain ⟨-, hdisk₄, htask₄⟩ := hwrite'.spec hmarks₂.takeBatch
  -- between the two batches nothing was written
  have hsame : r₃.disk = r.disk := by
    rw [hdisk₄, hdisk₃, hdisk₂, hfailed.1, hdisk₁, hdisk]
  have hstate : r₃.finishAppend.disk.state k = (lastRecord k batch).getD (r.disk.state k) := by
    rw [finishAppend, htask₄.trans htake', state_eq, state_eq, ← hsame, lastRecord_append]
    cases lastRecord k batch <;> rfl
  rw [hstate]
  cases hlast : lastRecord k batch with
  | none =>
    have hnone := (lastRecord_eq_none_iff k batch).mp hlast
    have hnot : ¬∃ record ∈ batch, record.clientId = k := fun ⟨record, hmem, hk⟩ =>
      hnone record hmem hk
    exact ⟨.inr, fun h => h.resolve_left hnot⟩
  | some state =>
    have heq := hmarks₂.lastRecord_eq (hbatch ▸ hlast)
    refine ⟨fun _ => .inl ?_, fun _ => ?_⟩
    · by_contra hnot
      rw [(lastRecord_eq_none_iff k batch).mpr fun record hmem hk =>
        hnot ⟨record, hmem, hk⟩] at hlast
      exact nomatch hlast
    · rw [Option.getD_some, heq]
      exact .refl _

/-- A client connects and leaves a session that does not expire. -/
def suspendOps (clientId : String) (mailbox generation : ℕ) (cleanStart : Bool) : List Op :=
  [.openSession clientId mailbox cleanStart,
    .closeSession clientId generation sessionNeverExpires {} []]

/-- One session is to be logged. -/
def markedRun : ShardRun := Lib.run (ShardRun.apply fun _ => 0) freshRun (suspendOps "a" 0 1 true)

lemma markedRun_reached : Reached (fun _ => 0) (fun m op => op.Regular m) freshRun markedRun :=
  Lib.Reached.start.run ⟨trivial, trivial, trivial⟩

/-- The append fails. -/
def refusedRun : ShardRun := markedRun.takeBatch.failAppend

/-- The client comes back and leaves again. -/
def revisitedRun : ShardRun := Lib.run (ShardRun.apply fun _ => 0) refusedRun
    (suspendOps "a" 1 2 false)

theorem failed_append_retried_revisited : (markedRun.shard.view "a").wal.join = some .dirty ∧
      SameState (revisitedRun.takeBatch.finishAppend.disk.state "a")
        (revisitedRun.shard.view "a").durable :=
  ⟨by decide, (failed_append_retried_iff freshRun_started markedRun_reached rfl rfl .start
    (Lib.Reached.start.run ⟨⟨trivial, rfl⟩, ⟨trivial, rfl⟩, trivial⟩ :
      Meanwhile (fun _ => 0) refusedRun revisitedRun) rfl .start "a").mpr
    (.inl ⟨_, List.mem_singleton.mpr rfl, rfl⟩)⟩

/-- Only another client leaves a session. -/
def unrelatedRun : ShardRun := Lib.run (ShardRun.apply fun _ => 0) refusedRun
    (suspendOps "b" 1 2 true)

/-- The flush after the failed one succeeds, and the files know nothing of the session whose mark
was in the failed batch. -/
theorem failed_append_forgets : (markedRun.shard.view "a").wal.join = some .dirty ∧
      Meanwhile (fun _ => 0) refusedRun unrelatedRun ∧
      (∃ batch, unrelatedRun.takeBatch.task = .appending batch) ∧
      unrelatedRun.takeBatch.finishAppend.disk.state "a" = none ∧
      (unrelatedRun.shard.view "a").durable.isSome = true :=
  ⟨by decide, Lib.Reached.start.run ⟨⟨trivial, rfl⟩, ⟨trivial, rfl⟩, trivial⟩, ⟨_, rfl⟩, by decide,
    by decide⟩

end ShardRun

end Rusquitto
