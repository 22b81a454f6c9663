import Rusquitto.Server.ClientMemory
import Rusquitto.Server.Maintenance

/-!
# Snapshot plus log of a running shard

Every piece of work on a running shard, and every step of its WAL task, is for each client a step of
write-behind logging (`ShardRun.simulated_apply`). What the library proves about one key of such a
store then holds of every client's durable session: an unmarked session is on disk, and a crash
recovers a state the session had recently.
-/

namespace Rusquitto

open ShardState ClientView Option
open Lib.WriteBehind (Memory Moves InSync Batched Snapped Cell)

variable {shard : ShardState} {c : String} {op : Op} {r : ShardRun}

/-! ### Moments of a running shard -/

namespace Moment

/-- A client as a key of the write-behind store. -/
def memory (m : Moment) (clientId : String) : Memory MigratedSession :=
  (m.shard.view clientId).memory (m.live clientId)

/-- Every record fits the connections that run. -/
def Coherent (shedding : Bool) (m : Moment) : Prop :=
  ∀ k, (m.shard.view k).Coherent shedding (m.live k)

/-- The client's session is suspended: it is not parked, and no connection owns it. -/
def Suspended (m : Moment) (clientId : String) : Prop :=
  ∃ session, m.shard.sessions.lookup clientId = some session ∧ session.online = false ∧
    (clientId, session.generation) ∉ m.running

/-- A coherent moment that may follow `m`: every client has made a move of the store. -/
structure Next (shedding : Bool) (m m' : Moment) : Prop where
  now_le : m.now ≤ m'.now
  moves : ∀ k, Moves (m.memory k) (m'.memory k)
  coherent : m'.Coherent shedding

variable {shedding : Bool} {m : Moment}

end Moment

/-- The pieces of work that a shard performs on its own account are sound whatever its state. A
SUBSCRIBE, an UNSUBSCRIBE and the installation of a migrated session must not reach the client while
its session is suspended. Mailboxes are dropped only where `shedding` says so. -/
def Op.Proper (shedding : Bool) (m : Moment) : Op → Prop
  | .shedConnections _ _ => shedding = true
  | .shutdownConnections => shedding = true
  | .subscribe _ clientId _ => ¬m.Suspended clientId
  | .unsubscribe _ clientId _ => ¬m.Suspended clientId
  | .installMigrated clientId _ => ¬m.Suspended clientId
  | _ => True

lemma Op.Proper.shedding {shedding : Bool} {m : Moment} (h : op.Proper shedding m)
    (hop : op.Sheds) : shedding = true := by
  cases op with
  | shedConnections | shutdownConnections => exact h
  | _ => exact hop.elim

lemma Op.Proper.not_suspended {shedding : Bool} {m : Moment} (h : op.Proper shedding m)
    (hop : op.Arms c) : ¬m.Suspended c := by
  cases op with
  | subscribe | unsubscribe | installMigrated =>
    subst hop
    exact h
  | _ => exact hop.elim

/-- Every step of a client other than the WAL task's is a move of the store, and leaves its record
coherent. -/
lemma ClientView.Step.next {shedding : Bool} {now : ℕ} {k : String} {v v' : ClientView}
    {live live' : ℕ → Prop} (hstep : v.Step now op k live live' v') (hc : v.Coherent shedding live)
    (hshard : op.isWalStep = false) (hsheds : op.Sheds → shedding = true)
    (harms : op.Arms k → ∀ session, v.session = some session → session.online = false →
      live session.generation) :
    Moves (v.memory live) (v'.memory live') ∧ v'.Coherent shedding live' := by
  cases hstep with
  | same hlive =>
    obtain rfl : live' = live := funext fun g => propext (hlive g)
    exact ⟨.refl _, hc⟩
  | marks hop => rw [hop] at hshard; cases hshard
  | subscriptions hop subs =>
    exact ⟨moves_subs subs (harms hop), hc.narrows ⟨rfl, fun session hs =>
      ⟨session, hs, rfl, rfl, id⟩⟩⟩
  | opened mailbox cleanStart hlive =>
    exact ⟨moves_opened hc.walOn .., coherent_opened hc mailbox cleanStart
      ((hlive _).mpr (.inl rfl))⟩
  | @closed _ generation expirySecs snapshot pending hrun hlive =>
    obtain rfl : live' = fun g => live g ∧ g ≠ generation := funext fun g => propext (hlive g)
    exact ⟨moves_close_stop hc hrun .., coherent_close_stop hc ..⟩
  | @parked _ generation snapshot session hs hown hlive =>
    refine ⟨moves_parked hs hown, ?_⟩
    rw [ClientView.parked, hs]
    simp only [if_neg hown]
    -- the parked record has no mailbox, and its connection runs no longer
    simp only [not_or, not_not] at hown
    have hdead : ¬live' (session.park snapshot).generation := fun hl =>
      ((hlive _).mp hl).2 hown.1
    refine ⟨hc.walOn, fun h hmail => ?_, fun h hl => ?_, fun _ h hl => ?_⟩
    all_goals cases h
    · cases hmail
    · exact absurd hl hdead
    · exact absurd hl hdead
  | @reattached _ generation mailbox session hs hown hlive =>
    refine ⟨moves_reattached hs hown, ?_⟩
    rw [ClientView.reattached, hs]
    simp only [if_neg hown]
    refine ⟨hc.walOn, fun h _ => ?_, fun h _ => ?_, fun _ h _ => ?_⟩
    all_goals cases h
    · simp only [not_or, not_not] at hown
      exact (hlive _).mpr (.inl hown.1)
    · rfl
    · rfl
  | suspended => exact ⟨moves_suspended hc .., hc.narrows (narrows_suspended ..)⟩
  | willArmed => exact ⟨moves_willArmed .., hc.narrows (narrows_willArmed ..)⟩
  | received h => exact moves_receives hc h
  | swept => exact ⟨moves_swept hc.walOn _, hc.narrows (narrows_swept _)⟩
  | claimed => exact ⟨moves_claimed hc.walOn, hc.narrows narrows_claimed⟩
  | shed hop =>
    obtain rfl := hsheds hop
    exact ⟨moves_shed hc, coherent_shed hc⟩

namespace ShardRun

lemma observe_apply (hash : ContentHash) (r : ShardRun) (hshard : op.isWalStep = false) :
    r.apply hash op = r ∨ r.apply hash op = r.observe (r.apply hash op).toMoment := by
  cases op with
  | closeSession c generation expirySecs snapshot pending =>
    by_cases hrun : (c, generation) ∈ r.running
    · rw [show r.apply hash (.closeSession c generation expirySecs snapshot pending) = _ from
        if_pos hrun]
      exact .inr rfl
    · exact .inl (if_neg hrun)
  | parkSession c generation snapshot =>
    by_cases hrun : (c, generation) ∈ r.running
    · rw [show r.apply hash (.parkSession c generation snapshot) = _ from if_pos hrun]
      exact .inr rfl
    · exact .inl (if_neg hrun)
  | takeWalBatch | appendDone | persistSessions | saveDone | truncateDone => cases hshard
  | _ => exact .inr rfl

/-- Every piece of work other than the WAL task's is a move of the store for every client. -/
lemma apply_shard (hash : ContentHash) {shedding : Bool} (r : ShardRun)
    (hr : r.toMoment.Coherent shedding) (hproper : op.Proper shedding r.toMoment)
    (hshard : op.isWalStep = false) :
    r.apply hash op = r ∨ ∃ m, r.apply hash op = r.observe m ∧ r.toMoment.Next shedding m := by
  have hnext (k : String) := (r.view_apply hash op k).next (hr k) hshard hproper.shedding
    fun hop session hs hoff =>
    by_contra fun hdead => hproper.not_suspended hop ⟨session, hs, hoff, hdead⟩
  exact (r.observe_apply hash hshard).imp_right fun h =>
    ⟨_, h, r.le_now_apply hash op, fun k => (hnext k).1, fun k => (hnext k).2⟩

end ShardRun

/-! ### What the files say about a client -/

/-- The state a record leaves the client in. -/
def Record.state : Record → Option MigratedSession
  | .upsert ps => some ps.session
  | .remove _ => none

/-- What the last record about a client says. -/
def lastRecord (clientId : String) : List Record → Option (Option MigratedSession)
  | [] => none
  | record :: log =>
    (lastRecord clientId log).or (if record.clientId = clientId then some record.state else none)

lemma lastRecord_append (k : String) (log batch : List Record) :
    lastRecord k (log ++ batch) = (lastRecord k batch).or (lastRecord k log) := by
  induction log with
  | nil => simp [lastRecord]
  | cons record log ih => rw [List.cons_append, lastRecord, ih, lastRecord, Option.or_assoc]

/-- The last record decides what a replay leaves for a client. -/
lemma lookup_replay (k : String) (log : List Record) (m : HashMap String PersistedSession) :
    ((log.foldl applyRecord m).lookup k).map PersistedSession.session =
      (lastRecord k log).getD ((m.lookup k).map PersistedSession.session) := by
  induction log generalizing m with
  | nil => rfl
  | cons record log ih =>
    rw [List.foldl_cons, ih, lastRecord]
    cases record with
    | upsert ps =>
      simp only [applyRecord, Record.clientId, Record.state, AList.lookup_insert_eq_ite]
      by_cases hk : ps.clientId = k
      · cases lastRecord k log <;> simp [hk]
      · cases lastRecord k log <;> simp [hk, Ne.symm hk]
    | remove c =>
      simp only [applyRecord, Record.clientId, Record.state, AList.lookup_erase_eq_ite]
      by_cases hk : c = k
      · cases lastRecord k log <;> simp [hk]
      · cases lastRecord k log <;> simp [hk, Ne.symm hk]

/-- A client's entry in a snapshot file. -/
def snapshotEntry (clientId : String) (sessions : List PersistedSession) :
    Option MigratedSession :=
  ((mergeSessions ∅ sessions).lookup clientId).map PersistedSession.session

/-- Recovery in terms of one client: its last log record, or else its snapshot entry. -/
lemma state_eq (disk : Disk) (k : String) : disk.state k =
      Lib.WriteBehind.recovered (snapshotEntry k disk.sessions) (lastRecord k disk.wal) :=
  lookup_replay k disk.wal _

namespace ShardState

lemma clientId_persistOne {s : ShardState} {now : ℕ} {ps : PersistedSession}
    (h : s.persistOne c now = some ps) : ps.clientId = c := by
  unfold persistOne at h
  simp only [bind, bind_eq_some_iff] at h
  obtain ⟨session, _, h⟩ := h
  split at h
  · cases h
  · simp only [bind_eq_some_iff] at h
    obtain ⟨expirySecs, _, h⟩ := h
    cases h
    rfl

lemma lookup_mergeSessions_filterMap (s : ShardState) (now : ℕ) (k : String) (ids : List String)
    (m : HashMap String PersistedSession) :
    (mergeSessions m (ids.filterMap (s.persistOne · now))).lookup k =
      (if k ∈ ids then s.persistOne k now else none).or (m.lookup k) := by
  induction ids generalizing m with
  | nil => rfl
  | cons c ids ih =>
    cases hc : s.persistOne c now with
    | none =>
      simp only [List.filterMap_cons, hc]
      rw [ih]
      by_cases hk : k = c
      · subst hk
        simp [hc]
      · simp [hk]
    | some ps =>
      simp only [List.filterMap_cons, hc, mergeSessions, List.foldl_cons]
      refine (ih _).trans ?_
      rw [clientId_persistOne hc, AList.lookup_insert_eq_ite]
      by_cases hk : k = c
      · subst hk
        by_cases hm : k ∈ ids <;> simp [hc, hm]
      · simp [hk]

/-- The snapshot a shard writes holds exactly the sessions that `persistOne` returns. -/
lemma snapshotEntry_persistSessions (s : ShardState) (now : ℕ) (k : String) :
    snapshotEntry k (s.persistSessions now) =
      (s.persistOne k now).map PersistedSession.session := by
  rw [snapshotEntry, persistSessions, lookup_mergeSessions_filterMap, AList.lookup_empty,
    or_none]
  split
  · rfl
  next hk =>
    rw [← AList.mem_keys, ← AList.lookup_eq_none] at hk
    simp [persistOne, hk]

lemma lastRecord_removes (k : String) (ids : List String) :
    lastRecord k (ids.map .remove) = if k ∈ ids then some none else none := by
  induction ids with
  | nil => rfl
  | cons c ids ih =>
    rw [List.map_cons, lastRecord, ih]
    by_cases hk : k = c
    · subst hk
      by_cases hm : k ∈ ids <;> simp [hm, Record.clientId, Record.state]
    · simp [hk, Ne.symm hk, Record.clientId]

lemma lastRecord_upserts (s : ShardState) (now : ℕ) (k : String) (ids : List String) :
    lastRecord k (ids.filterMap fun c => (s.persistOne c now).map .upsert) =
      if k ∈ ids then (s.persistOne k now).map fun ps => some ps.session else none := by
  induction ids with
  | nil => rfl
  | cons c ids ih =>
    cases hc : s.persistOne c now with
    | none =>
      simp only [List.filterMap_cons, hc, map_none]
      rw [ih]
      by_cases hk : k = c
      · subst hk
        simp [hc]
      · simp [hk]
    | some ps =>
      simp only [List.filterMap_cons, hc, map_some, lastRecord, ih, Record.clientId,
        Record.state, clientId_persistOne hc]
      by_cases hk : k = c
      · subst hk
        by_cases hm : k ∈ ids <;> simp [hc, hm]
      · simp [hk, Ne.symm hk]

/-- The record of a client in a batch: a tombstone, or the session of a dirty client that is
persisted. -/
lemma lastRecord_walRecords (s : ShardState) (now : ℕ) (k : String) :
    lastRecord k (s.walRecords now) =
      match (s.view k).wal.join with
      | none => none
      | some .removed => some none
      | some .dirty => (s.persistOne k now).map fun ps => some ps.session := by
  unfold walRecords
  cases hw : s.wal with
  | none => simp [view, hw, lastRecord]
  | some w =>
    simp only [view, hw, map_some, join_some]
    rw [lastRecord_append, lastRecord_removes, lastRecord_upserts]
    cases hm : w.mark k with
    | none =>
      have hd : k ∉ w.dirty := fun h => by simp [(w.mark_eq_dirty_iff k).mpr h] at hm
      have hr : k ∉ w.removed := fun h => by simp [(w.mark_eq_removed_iff k).mpr h] at hm
      simp [hd, hr]
    | some mark =>
      cases mark with
      | dirty =>
        have hd := (w.mark_eq_dirty_iff k).mp hm
        simp [hd, w.disjoint k hd]
      | removed =>
        have hr := (w.mark_eq_removed_iff k).mp hm
        have hd : k ∉ w.dirty := fun h => w.disjoint k h hr
        simp [hd, hr]

end ShardState

/-! ### The WAL task -/

/-- A flush takes the marks and nothing else. -/
lemma Moment.memory_drainWal (m : Moment) (k : String) :
    ({ m with shard := m.shard.drainWal } : Moment).memory k =
      { m.memory k with mark := none } := by
  have hmark : ((m.shard.drainWal).view k).wal.join = none := by
    cases hw : m.shard.wal <;> simp [view, drainWal, hw, WalPending.mark]
  unfold Moment.memory ClientView.memory
  simp only [hmark]
  rfl

lemma Moment.coherent_drainWal {shedding : Bool} {m : Moment} (hm : m.Coherent shedding) :
    Moment.Coherent shedding { m with shard := m.shard.drainWal } := by
  intro k
  refine (hm k).narrows ⟨?_, fun session hs => ⟨session, hs, rfl, rfl, id⟩⟩
  simp [view, drainWal]

/-- The batch holds for every client what a flush of its key writes. -/
lemma Moment.batched (m : Moment) (k : String) {disk : Option MigratedSession}
    (hsync : InSync SameState (m.memory k) m.now disk) :
    Batched (m.memory k) m.now (lastRecord k (m.shard.walRecords m.now)) := by
  rw [lastRecord_walRecords]
  cases hmark : (m.shard.view k).wal.join with
  | none => exact .unmarked hmark
  | some mark =>
    cases mark with
    | removed => exact .tombstone hmark
    | dirty =>
      have hps := m.shard.session_persistOne k m.now
      cases hexp : (m.shard.view k).expiring m.now with
      | true =>
        rw [hexp, if_pos rfl, map_eq_none_iff] at hps
        simp only [hps]
        exact .lapsing hmark hexp
      | false =>
        -- a dirty session is suspended, so it is persisted unless it is about to expire
        rw [hexp] at hps
        obtain ⟨d, hd⟩ := ne_none_iff_exists'.mp (hsync.dirty hmark)
        have hd' : (m.shard.view k).durable = some d := hd
        rw [if_neg nofun, hd', map_eq_some_iff] at hps
        obtain ⟨ps, hps, rfl⟩ := hps
        simp only [hps, map_some]
        exact .value hmark hd

/-- The snapshot holds for every client what a checkpoint of its key writes. -/
lemma Moment.snapped (m : Moment) (k : String) :
    Snapped (m.memory k) m.now (snapshotEntry k (m.shard.persistSessions m.now)) := by
  rw [snapshotEntry_persistSessions, session_persistOne]
  split
  next hexp => exact .lapsing hexp
  next => exact .value

/-- The WAL task's position seen from one client. -/
def WalTask.phase (k : String) : WalTask → Lib.WriteBehind.Phase MigratedSession
  | .idle => .idle
  | .appending batch => .appending (lastRecord k batch)
  | .saving sessions => .saving (snapshotEntry k sessions)
  | .truncating => .truncating

namespace ShardRun

/-- A running shard seen from one client. -/
def cell (r : ShardRun) (k : String) : Cell MigratedSession where
  memory := r.memory k
  now := r.now
  base := snapshotEntry k r.disk.sessions
  last := lastRecord k r.disk.wal
  phase := r.task.phase k
  recent := r.recent.map fun m => (m.memory k, m.now)
  fresh := r.fresh.map fun m => (m.memory k, m.now)

/-- What holds in every state of a run: records fit the running connections, and every client is
in step with the disk. -/
structure Inv (shedding : Bool) (r : ShardRun) : Prop where
  coherent : r.toMoment.Coherent shedding
  synced : ∀ k, (r.cell k).Synced SameState

variable {shedding : Bool}

/-- `r'` is `r`, or a step away from it for every client. -/
def Simulated (shedding : Bool) (r r' : ShardRun) : Prop :=
  r' = r ∨ r'.toMoment.Coherent shedding ∧ ∀ k, (r.cell k).Step (r'.cell k)

section

variable (hr : r.Inv shedding)
include hr

lemma simulated_takeBatch : r.Simulated shedding r.takeBatch := by
  have hmemory := r.toMoment.memory_drainWal
  have hbatched := fun k => r.toMoment.batched k (hr.synced k)
  unfold takeBatch
  split
  next htask =>
    have hphase : ∀ k, (r.cell k).phase = .idle := fun k => congrArg (WalTask.phase k) htask
    refine .inr ?_
    simp only
    split
    next hempty =>
      refine ⟨Moment.coherent_drainWal hr.coherent, fun k => .skip (hphase k) (hmemory k) ?_⟩
      have hb := hbatched k
      rw [hempty] at hb
      exact hb
    next =>
      exact ⟨Moment.coherent_drainWal hr.coherent,
        fun k => .take (hphase k) (hmemory k) (hbatched k)⟩
  next => exact .inl rfl

lemma simulated_finishAppend : r.Simulated shedding r.finishAppend := by
  unfold finishAppend
  split
  next batch htask =>
    refine .inr ⟨hr.coherent, fun k => ?_⟩
    -- the records of the batch come after those of the log
    have hphase : (r.cell k).phase = .appending (lastRecord k batch) :=
      congrArg (WalTask.phase k) htask
    have hstep := Cell.Step.append hphase
    rw [Lib.WriteBehind.appended] at hstep
    have hlast : (lastRecord k batch).or (r.cell k).last = lastRecord k (r.disk.wal ++ batch) :=
      (lastRecord_append ..).symm
    rw [hlast] at hstep
    exact hstep
  next => exact .inl rfl

lemma simulated_collectSessions : r.Simulated shedding r.collectSessions := by
  unfold collectSessions
  split
  next htask =>
    exact .inr ⟨hr.coherent, fun k =>
      .collect (congrArg (WalTask.phase k) htask) (r.toMoment.snapped k)⟩
  next => exact .inl rfl

lemma simulated_finishSave : r.Simulated shedding r.finishSave := by
  unfold finishSave
  split
  next sessions htask =>
    exact .inr ⟨hr.coherent, fun k => .save (congrArg (WalTask.phase k) htask)⟩
  next => exact .inl rfl

lemma simulated_finishTruncate : r.Simulated shedding r.finishTruncate := by
  unfold finishTruncate
  split
  next htask =>
    exact .inr ⟨hr.coherent, fun k => .truncate (congrArg (WalTask.phase k) htask)⟩
  next => exact .inl rfl

end

section

variable (hash : ContentHash) (hr : r.Inv shedding) (hproper : op.Proper shedding r.toMoment)
include hr hproper

/-- Simulation: a piece of work does nothing, or it is a step of write-behind logging for every
client. -/
lemma simulated_apply : r.Simulated shedding (r.apply hash op) := by
  by_cases hshard : op.isWalStep = false
  · rcases apply_shard hash r hr.coherent hproper hshard with h | ⟨m, h, hnext⟩
    · exact .inl h
    · rw [h]
      exact .inr ⟨hnext.coherent, fun k => .mutate (hnext.moves k) hnext.now_le⟩
  · cases op with
    | takeWalBatch => exact simulated_takeBatch hr
    | appendDone => exact simulated_finishAppend hr
    | persistSessions => exact simulated_collectSessions hr
    | saveDone => exact simulated_finishSave hr
    | truncateDone => exact simulated_finishTruncate hr
    | _ => exact absurd rfl hshard

lemma Inv.apply : (r.apply hash op).Inv shedding := by
  rcases simulated_apply hash hr hproper with h | ⟨hcoherent, hstep⟩
  · rwa [h]
  · exact ⟨hcoherent, fun k => (hr.synced k).step SameState.refl (hstep k)⟩

end

/-! ### Runs -/

/-- A shard that has just started: the log is enabled, no connection runs, every session is
suspended, nothing is marked, and the files say of every client what has been loaded. -/
structure Started (r : ShardRun) : Prop where
  walOn : r.shard.wal.isSome
  unmarked : ∀ k, (r.shard.view k).wal.join = none
  offline : ∀ k session, r.shard.sessions.lookup k = some session → session.online = false
  running : r.running = []
  task : r.task = .idle
  loaded : ∀ k, SameState (r.disk.state k) (r.shard.view k).durable
  recent : r.recent = [r.toMoment]
  fresh : r.fresh = [r.toMoment]

lemma Started.inv (h : r.Started) : r.Inv shedding := by
  have hdead : ∀ k g, ¬r.live k g := fun k g => by simp [Moment.live, h.running]
  refine ⟨fun k => ⟨?_, fun hs hm => ?_, fun _ hl => absurd hl (hdead k _),
    fun _ _ hl => absurd hl (hdead k _)⟩, fun k => ?_⟩
  · simpa [view] using h.walOn
  · have hoff := h.offline k _ hs
    simp [Session.online, hm] at hoff
  · have hup : (r.cell k).upcoming = r.disk.state k := by
      simp only [Cell.upcoming, cell, h.task, WalTask.phase, Cell.disk, state_eq]
    refine ⟨fun _ => .inr (.inr ?_), fun hm => ?_, fun hm => ?_⟩
    · rw [hup]
      exact h.loaded k
    · cases (h.unmarked k).symm.trans hm
    · cases (h.unmarked k).symm.trans hm

/-- Every state of a run whose work is proper satisfies the invariant. -/
lemma Reached.inv {hash : ContentHash} {P : Moment → Op → Prop} {r₀ : ShardRun}
    (hproper : ∀ m op, P m op → op.Proper shedding m) (hstart : r₀.Started)
    (hrun : Reached hash P r₀ r) : r.Inv shedding := by
  induction hrun with
  | start => exact hstart.inv
  | step op _ hop ih => exact ih.apply hash (hproper _ _ hop)

/-- A shard that starts on empty files. -/
def freshRun : ShardRun where
  shard := ({} : ShardState).enableWal

lemma freshRun_started : freshRun.Started where
  walOn := rfl
  unmarked _ := rfl
  offline _ _ h := nomatch h
  running := rfl
  task := rfl
  loaded _ := .absent
  recent := rfl
  fresh := rfl

/-- A reading that reaches a suspended subscriber. -/
def reading : Publish where
  qos := .atLeastOnce
  topic := "t"
  pkid := 1
  payload := [1]

end ShardRun

end Rusquitto
