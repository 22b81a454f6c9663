import Rusquitto.Server.Durability

/-!
# Crash consistency of snapshot plus log

A shard that sheds no connection can crash at any moment: replaying the log over the snapshot gives
every client a durable state that its suspended session had at some moment since the batch that was
appended last was taken. The session may change between that and the append, so no later moment will
do.
-/

namespace Rusquitto

open Lib.WriteBehind (Moves Cell Covered)

/-- The work of a shard that sheds no connection and changes the subscriptions of connected clients
only. -/
def Op.Regular (m : Moment) : Op → Prop
  | .shedConnections _ _ => False
  | .shutdownConnections => False
  | .subscribe _ clientId _ => (m.shard.sessions.lookup clientId).any (·.mailbox.isSome) = true
  | .unsubscribe _ clientId _ => (m.shard.sessions.lookup clientId).any (·.mailbox.isSome) = true
  | .installMigrated clientId _ =>
    (m.shard.sessions.lookup clientId).any (·.mailbox.isSome) = true
  | _ => True

variable {m : Moment}

/-- A connected client is not suspended. -/
lemma Moment.not_suspended_of_mailbox {c : String}
    (h : (m.shard.sessions.lookup c).any (·.mailbox.isSome) = true) : ¬m.Suspended c := by
  rintro ⟨session, hs, hoff, _⟩
  rw [hs, Option.any_some] at h
  simp [Session.online, h] at hoff

lemma Op.Regular.proper {op : Op} (h : op.Regular m) : op.Proper false m := by
  cases op with
  | shedConnections order max => exact h.elim
  | shutdownConnections => exact h.elim
  | subscribe filter c opts => exact Moment.not_suspended_of_mailbox h
  | unsubscribe filter c group => exact Moment.not_suspended_of_mailbox h
  | installMigrated c migrated => exact Moment.not_suspended_of_mailbox h
  | _ => trivial

/-- Without shedding, whatever looks suspended is suspended. -/
lemma Moment.Coherent.settled (hm : m.Coherent false) (k : String) : ¬(m.memory k).unsettled := by
  rintro ⟨session, hs, hoff, hlive⟩
  have hmailbox := (hm k).live_mailbox rfl hs hlive
  simp [Session.online, hmailbox] at hoff

namespace ShardRun

/-- What holds of every client in every state of a regular run. -/
structure Safe (r : ShardRun) : Prop where
  inv : r.Inv false
  recoverable : ∀ k, (r.cell k).Recoverable SameState

lemma Started.safe {r : ShardRun} (h : r.Started) : r.Safe := by
  have hinv : r.Inv false := h.inv
  refine ⟨hinv, fun k => ?_⟩
  have hmem : (r.memory k, r.now) ∈ (r.cell k).recent := by simp [cell, h.recent]
  have hdisk : Covered SameState (r.cell k).recent (r.cell k).disk := by
    refine .inr ⟨_, hmem, ?_⟩
    have hloaded := h.loaded k
    rw [state_eq] at hloaded
    exact hloaded
  refine ⟨hinv.synced k, hinv.coherent.settled k, hmem, by simp [cell, h.fresh], hdisk, ?_⟩
  have hphase : (r.cell k).phase = .idle := congrArg (WalTask.phase k) h.task
  simpa [Cell.window, Cell.upcoming, hphase] using hdisk

lemma Safe.apply (hash : ContentHash) {r : ShardRun} (hr : r.Safe) {op : Op}
    (hop : op.Regular r.toMoment) : (r.apply hash op).Safe := by
  have hinv := hr.inv.apply hash hop.proper
  refine ⟨hinv, fun k => ?_⟩
  rcases simulated_apply hash hr.inv hop.proper with h | ⟨_, hstep⟩
  · rw [h]
    exact hr.recoverable k
  · exact (hr.recoverable k).step SameState.refl (hstep k) (hinv.coherent.settled k)

lemma Reached.safe {hash : ContentHash} {r₀ r : ShardRun} (hstart : r₀.Started)
    (hrun : Reached hash (fun m op => op.Regular m) r₀ r) : r.Safe := by
  induction hrun with
  | start => exact hstart.safe
  | step op _ hop ih => exact ih.apply hash hop

/-- A change of a client's durable state leaves a mark. -/
lemma marked_of_moves {m' : Moment} {k : String} (hm : m'.Coherent false)
    (h : Moves (m.memory k) (m'.memory k))
    (hne : (m'.shard.view k).durable ≠ (m.shard.view k).durable) :
    (m'.shard.view k).wal.join.isSome := by
  cases h with
  | keep hvalue => exact absurd hvalue hne
  | put hmark => exact Option.isSome_iff_exists.mpr ⟨_, hmark⟩
  | drop hmark => exact Option.isSome_iff_exists.mpr ⟨_, hmark⟩
  | unsettle hunsettled => exact absurd hunsettled (hm.settled k)

/-- Crash consistency. In every state of a regular run, replaying the log over the snapshot gives
each client a durable state that its suspended session had since the last appended batch was taken,
unless it was within a second of its deadline then; no client is marked both dirty and removed; and
no piece of work changes a durable state without marking it. -/
theorem crash_recovers_recent_state (hash : ContentHash) {r₀ r : ShardRun} (hstart : r₀.Started)
    (hrun : Reached hash (fun m op => op.Regular m) r₀ r) :
    (∀ k, (∀ m ∈ r.recent, (m.shard.view k).expiring m.now = false) →
      ∃ m ∈ r.recent, SameState (r.disk.state k) (m.shard.view k).durable) ∧
    (∀ w, r.shard.wal = some w → ∀ c ∈ w.dirty, c ∉ w.removed) ∧
    (∀ op, op.Regular r.toMoment → op.isWalStep = false → ∀ k,
      ((r.apply hash op).shard.view k).durable ≠ (r.shard.view k).durable →
        ((r.apply hash op).shard.view k).wal.join.isSome) := by
  have hsafe := hrun.safe hstart
  refine ⟨fun k hnear => ?_, fun w _ => w.disjoint, fun op hop hshard k hne => ?_⟩
  · rcases (hsafe.recoverable k).disk with ⟨w, hw, hlapsing⟩ | ⟨w, hw, hsame⟩
    · obtain ⟨m, hm, rfl⟩ := List.mem_map.mp hw
      exact absurd hlapsing (by simp [Moment.memory, ClientView.memory, hnear m hm])
    · obtain ⟨m, hm, rfl⟩ := List.mem_map.mp hw
      refine ⟨m, hm, ?_⟩
      rw [state_eq]
      exact hsame
  · rcases apply_shard hash r hsafe.inv.coherent hop.proper hshard with h | ⟨m, h, hnext⟩
    · rw [h] at hne
      exact absurd rfl hne
    · rw [h] at hne ⊢
      exact marked_of_moves hnext.coherent (hnext.moves k) hne

/-- A session is suspended and its flush begins; a delivery arrives before the append returns. -/
def overtakenOps : List Op :=
  [.openSession "a" 0 true, .subscribe "t" "a" { qos := .atLeastOnce },
    .closeSession "a" 1 sessionNeverExpires {} [], .takeWalBatch, .deliverLocal reading none,
    .appendDone]

def overtakenRun : ShardRun :=
  Lib.run (ShardRun.apply fun _ => 0) freshRun overtakenOps

lemma overtakenRun_reached :
    Reached (fun _ => 0) (fun m op => op.Regular m) freshRun overtakenRun :=
  Lib.Reached.start.run ⟨trivial, rfl, trivial, trivial, trivial, trivial, trivial⟩

theorem crash_recovers_recent_state_overtaken : (overtakenRun.disk.state "a").isSome = true ∧
      ∃ m ∈ overtakenRun.recent,
        SameState (overtakenRun.disk.state "a") (m.shard.view "a").durable :=
  ⟨by decide,
    (crash_recovers_recent_state (fun _ => 0) freshRun_started overtakenRun_reached).1 "a"
      (by decide)⟩

/-- The moment an append completes, the disk may already be behind: a delivery that arrived since
the batch was taken is in memory only. -/
theorem append_behind_memory :
    Reached (fun _ => 0) (fun m op => op.Regular m) freshRun overtakenRun ∧
      overtakenOps.getLast? = some .appendDone ∧
      (overtakenRun.shard.view "a").expiring overtakenRun.now = false ∧
      ¬SameState (overtakenRun.disk.state "a") (overtakenRun.shard.view "a").durable := by
  refine ⟨overtakenRun_reached, rfl, by decide, fun hsame => ?_⟩
  have hdisk : (overtakenRun.disk.state "a").map (·.offline.length) = some 0 := by decide
  have hmemory : ((overtakenRun.shard.view "a").durable).map (·.offline.length) = some 1 := by
    decide
  rw [hsame.map_offline, hmemory] at hdisk
  cases hdisk

end ShardRun

end Rusquitto
