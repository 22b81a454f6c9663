import Rusquitto.Broker.Fanout

/-!
# Restore, final snapshot and the session WAL task

The persistence half of `server/shard/maintenance.rs`, over the content of a shard's two files as
their decoders read it. `ShardRun` is a shard in operation: its state, the connections that run on
it, its files, and the position of the WAL task. An `Op` is one uninterrupted piece of work: a call
of a `ShardState` method, or one step of the WAL task.
-/

namespace Rusquitto

/-- The content of a session snapshot file and of the log beside it. -/
structure Disk where
  sessions : List PersistedSession := []
  wal : List Record := []

/-- Inserts the sessions of a snapshot. -/
def mergeSessions (merged : HashMap String PersistedSession) (sessions : List PersistedSession) :
    HashMap String PersistedSession :=
  sessions.foldl (fun merged ps => merged.insert ps.clientId ps) merged

/-- One file pair of the restore loop: the snapshot, then its log over it. -/
def mergeDisk (walOn : Bool) (merged : HashMap String PersistedSession) (disk : Disk) :
    HashMap String PersistedSession :=
  let merged := mergeSessions merged disk.sessions
  if walOn then disk.wal.foldl applyRecord merged else merged

/-- Restores retained messages and persisted sessions: `disks` is the shard's own file pair,
followed on peer 0 by those orphaned by a decrease of the shard count. -/
def restoreFromDisk (s : ShardState) (walOn : Bool) (retained : List Publish) (disks : List Disk)
    (now : ℕ) : ShardState :=
  let s := if walOn then s.enableWal else s
  let s := s.loadRetained retained
  s.loadSessions (disks.foldl (mergeDisk walOn) ∅).values now

/-- The session half of the final snapshot: the file is replaced, the log stays as it is. -/
def writeFinalSnapshots (s : ShardState) (now : ℕ) (disk : Disk) : Disk :=
  { disk with sessions := s.persistSessions now }

/-- What recovery finds in one pair of files. -/
def Disk.recovered (disk : Disk) : HashMap String PersistedSession :=
  mergeDisk true ∅ disk

/-- The durable state that recovery finds for a client. -/
def Disk.state (disk : Disk) (clientId : String) : Option MigratedSession :=
  (disk.recovered.lookup clientId).map PersistedSession.session

/-- Where the WAL task stands: between two rounds, in the middle of an append, in the middle of
writing a snapshot, or before the truncation that follows. -/
inductive WalTask where
  | idle
  | appending (batch : List Record)
  | saving (sessions : List PersistedSession)
  | truncating

/-- A moment of a shard's life: its state, the time, and the connections whose task runs, by client
id and session generation. -/
structure Moment where
  shard : ShardState := {}
  now : ℕ := 0
  running : List (String × ℕ) := []

/-- A shard in operation. The two histories are no part of the program: they record the moments
since the batch that was appended last was taken, and since a batch was taken last. -/
structure ShardRun extends Moment where
  disk : Disk := {}
  task : WalTask := .idle
  recent : List Moment := [toMoment]
  fresh : List Moment := [toMoment]

/-- One uninterrupted piece of work on a shard. -/
inductive Op where
  | elapse (nanos : ℕ)
  | openSession (clientId : String) (mailbox : ℕ) (cleanStart : Bool)
  | closeSession (clientId : String) (generation : ℕ) (expirySecs : UInt32)
      (snapshot : SessionSnapshot) (pending : List Delivery)
  | parkSession (clientId : String) (generation : ℕ) (snapshot : SessionSnapshot)
  | reattachParked (clientId : String) (generation mailbox : ℕ)
  | suspendParked (clientId : String) (generation : ℕ) (expirySecs : UInt32)
  | subscribe (filter clientId : String) (opts : SubOptions)
  | unsubscribe (filter clientId : String) (shareGroup : Option String)
  | installMigrated (clientId : String) (migrated : MigratedSession)
  | deliverLocal (publish : Publish) (publisher : Option String)
  | handleClaim (clientId : String) (requester : ℕ) (resume : Bool)
  | sweepExpired
  | armWill (clientId : String) (generation : ℕ) (will : Publish) (delaySecs : UInt32)
  | shedConnections (order : List String) (max : ℕ)
  | shutdownConnections
  | takeWalBatch
  | appendDone
  | persistSessions
  | saveDone
  | truncateDone

namespace ShardRun

/-- The shard has moved on to `m`. -/
def observe (r : ShardRun) (m : Moment) : ShardRun :=
  { r with toMoment := m, recent := m :: r.recent, fresh := m :: r.fresh }

/-- The shard's state has changed. -/
def withShard (r : ShardRun) (shard : ShardState) : ShardRun :=
  r.observe { r.toMoment with shard }

/-- A connection's task that runs no longer. -/
def stopped (r : ShardRun) (clientId : String) (generation : ℕ) : List (String × ℕ) :=
  r.running.filter (· ≠ (clientId, generation))

/-! The WAL task of `spawn_session_wal`, cut at its `.await`s. -/

/-- Takes the batch. An empty one is not appended, and the round goes on without it. -/
def takeBatch (r : ShardRun) : ShardRun :=
  match r.task with
  | .idle =>
    let batch := r.shard.walRecords r.now
    let r' := r.withShard r.shard.drainWal
    if batch = [] then r'
    else { r' with task := .appending batch, fresh := [r'.toMoment] }
  | _ => r

/-- `wal.append` returns: the batch is on disk. -/
def finishAppend (r : ShardRun) : ShardRun :=
  match r.task with
  | .appending batch =>
    { r with disk.wal := r.disk.wal ++ batch, task := .idle, recent := r.fresh }
  | _ => r

/-- A checkpoint is due: collects the sessions to write. -/
def collectSessions (r : ShardRun) : ShardRun :=
  match r.task with
  | .idle => { r with task := .saving (r.shard.persistSessions r.now) }
  | _ => r

/-- `save_sessions` returns: the new snapshot is on disk. -/
def finishSave (r : ShardRun) : ShardRun :=
  match r.task with
  | .saving sessions => { r with disk.sessions := sessions, task := .truncating }
  | _ => r

/-- `wal.truncate` returns. -/
def finishTruncate (r : ShardRun) : ShardRun :=
  match r.task with
  | .truncating => { r with disk.wal := [], task := .idle }
  | _ => r

/-- Performs one piece of work. Only a running connection closes or parks, and the WAL task takes
its steps in order: anything else leaves everything as it is. -/
def apply (hash : ContentHash) (r : ShardRun) : Op → ShardRun
  | .elapse nanos => r.observe { r.toMoment with now := r.now + nanos }
  | .openSession clientId mailbox cleanStart =>
    let opened := r.shard.openSession clientId mailbox cleanStart
    r.observe
      { r.toMoment with
        shard := opened.1
        running := (clientId, opened.2.generation) :: r.running }
  | .closeSession clientId generation expirySecs snapshot pending =>
    if (clientId, generation) ∈ r.running then
      r.observe
        { r.toMoment with
          shard := (r.shard.closeSession r.now clientId generation expirySecs snapshot pending).1
          running := r.stopped clientId generation }
    else r
  | .parkSession clientId generation snapshot =>
    if (clientId, generation) ∈ r.running then
      let parked := r.shard.parkSession clientId generation snapshot
      -- a connection that must not park goes on to close
      r.observe
        { r.toMoment with
          shard := parked.1
          running := if parked.2 then r.stopped clientId generation else r.running }
    else r
  | .reattachParked clientId generation mailbox =>
    let resumed := r.shard.reattachParked clientId generation mailbox
    r.observe
      { r.toMoment with
        shard := resumed.1
        running := if resumed.2.isSome then (clientId, generation) :: r.running else r.running }
  | .suspendParked clientId generation expirySecs =>
    r.withShard (r.shard.suspendParked r.now clientId generation expirySecs).1
  | .subscribe filter clientId opts => r.withShard (r.shard.subscribe filter clientId opts).1
  | .unsubscribe filter clientId group =>
    r.withShard (r.shard.unsubscribe filter clientId group).1
  | .installMigrated clientId migrated =>
    r.withShard (r.shard.installMigrated clientId migrated).1
  | .deliverLocal publish publisher => r.withShard (r.shard.deliverLocal hash publish publisher)
  | .handleClaim clientId requester resume =>
    r.withShard (r.shard.handleClaim clientId requester resume)
  | .sweepExpired => r.withShard (r.shard.sweepExpired r.now).1
  | .armWill clientId generation will delaySecs =>
    r.withShard (r.shard.armWill r.now clientId generation will delaySecs)
  | .shedConnections order max => r.withShard (r.shard.shedConnections order max).1
  | .shutdownConnections => r.withShard r.shard.shutdownConnections
  | .takeWalBatch => r.takeBatch
  | .appendDone => r.finishAppend
  | .persistSessions => r.collectSessions
  | .saveDone => r.finishSave
  | .truncateDone => r.finishTruncate

/-- The states a shard reaches from `r₀` by pieces of work that all meet `P` when they begin. -/
abbrev Reached (hash : ContentHash) (P : Moment → Op → Prop) : ShardRun → ShardRun → Prop :=
  Lib.Reached (apply hash) fun r op => P r.toMoment op

end ShardRun

/-! ### What a piece of work does to one client -/

open ShardState ClientView

/-- The generations of a client's running connections. -/
def Moment.live (m : Moment) (clientId : String) (generation : ℕ) : Prop :=
  (clientId, generation) ∈ m.running

/-- The steps of the WAL task. -/
def Op.isWalStep : Op → Bool
  | .takeWalBatch | .appendDone | .persistSessions | .saveDone | .truncateDone => true
  | _ => false

/-- The work that changes the subscriptions of the client and nothing else about it. -/
def Op.Arms (clientId : String) : Op → Prop
  | .subscribe _ c _ | .unsubscribe _ c _ | .installMigrated c _ => c = clientId
  | _ => False

/-- The work that drops mailboxes. -/
def Op.Sheds : Op → Prop
  | .shedConnections .. | .shutdownConnections => True
  | _ => False

/-- What one piece of work can do to what a shard holds about a client, and to the generations of
the client's connections that run. -/
inductive ClientView.Step (now : ℕ) (op : Op) (k : String) (live : ℕ → Prop) (v : ClientView) :
    (ℕ → Prop) → ClientView → Prop
  | same {live' : ℕ → Prop} (hlive : ∀ g, live' g ↔ live g) : Step now op k live v live' v
  | marks (hop : op.isWalStep = true) (wal : Option (Option Mark)) :
      Step now op k live v live { v with wal }
  | subscriptions (hop : op.Arms k) (subs : List FlatSub) : Step now op k live v live
    { v with subs }
  | opened {live' : ℕ → Prop} (mailbox : ℕ) {generation : ℕ} (cleanStart : Bool)
      (hlive : ∀ g, live' g ↔ g = generation ∨ live g) :
      Step now op k live v live' (v.opened mailbox generation cleanStart)
  | closed {live' : ℕ → Prop} {generation : ℕ} (expirySecs : UInt32) (snapshot : SessionSnapshot)
      (pending : List Delivery) (hrun : live generation)
      (hlive : ∀ g, live' g ↔ live g ∧ g ≠ generation) :
      Step now op k live v live' (v.closed now generation expirySecs snapshot pending)
  | parked {live' : ℕ → Prop} {generation : ℕ} (snapshot : SessionSnapshot) {session : Session}
      (hs : v.session = some session)
      (hown : ¬(session.generation ≠ generation ∨ session.mailbox = none))
      (hlive : ∀ g, live' g ↔ live g ∧ g ≠ generation) :
      Step now op k live v live' (v.parked generation snapshot)
  | reattached {live' : ℕ → Prop} {generation : ℕ} (mailbox : ℕ) {session : Session}
      (hs : v.session = some session)
      (hown : ¬(session.generation ≠ generation ∨ session.parked = false))
      (hlive : ∀ g, live' g ↔ g = generation ∨ live g) :
      Step now op k live v live' (v.reattached generation mailbox)
  | suspended (generation : ℕ) (expirySecs : UInt32) :
      Step now op k live v live (v.suspended now generation expirySecs)
  | willArmed (generation : ℕ) (will : Publish) (delaySecs : UInt32) :
      Step now op k live v live (v.willArmed now generation will delaySecs)
  | received {v' : ClientView} (h : Receives v v') : Step now op k live v live v'
  | swept : Step now op k live v live (v.swept now)
  | claimed : Step now op k live v live v.claimed
  | shed (hop : op.Sheds) : Step now op k live v live v.shed

namespace ClientView.Step

variable {now : ℕ} {op : Op} {s s' : ShardState} {c : String} {live live' : String → ℕ → Prop}

lemma refl (v : ClientView) {k : String} {live : ℕ → Prop} : v.Step now op k live live v :=
  .same fun _ => .rfl

/-- Work on one client, seen by any client. -/
lemma of_client {v : String → ClientView}
    (hview : ∀ k, s'.view k = if k = c then v k else s.view k)
    (hlive : ∀ k, k ≠ c → ∀ g, live' k g ↔ live k g)
    (hc : (s.view c).Step now op c (live c) (live' c) (v c)) (k : String) :
    (s.view k).Step now op k (live k) (live' k) (s'.view k) := by
  rw [hview k]
  split
  next hk => exact hk ▸ hc
  next hk => exact .same (hlive k hk)

/-- The same where the connections run on. -/
lemma of_view {v : String → ClientView} (hview : ∀ k, s'.view k = if k = c then v k else s.view k)
    (hc : (s.view c).Step now op c (live c) (live c) (v c)) :
    ∀ k, (s.view k).Step now op k (live k) (live k) (s'.view k) :=
  of_client hview (fun _ _ _ => .rfl) hc

end ClientView.Step

section

variable (hash : ContentHash) (r : ShardRun) (op : Op)

/-- Whatever is done on a shard, each client sees one of these steps. -/
lemma ShardRun.view_apply (k : String) :
    (r.shard.view k).Step r.now op k (r.live k) ((r.apply hash op).live k)
      ((r.apply hash op).shard.view k) := by
  cases op with
  | elapse nanos => exact .refl _
  | openSession c mailbox cleanStart =>
    refine .of_client (fun k => view_openSession ..) (fun k hk g => ?_)
      (.opened mailbox cleanStart fun g => ?_) k
    · change (k, g) ∈ _ :: r.running ↔ (k, g) ∈ r.running
      simp [hk]
    · change (c, g) ∈ _ :: r.running ↔ _ ∨ (c, g) ∈ r.running
      simp [generation_openSession]
  | closeSession c generation expirySecs snapshot pending =>
    by_cases hrun : (c, generation) ∈ r.running
    · rw [show r.apply hash (.closeSession c generation expirySecs snapshot pending) = _ from
        if_pos hrun]
      refine .of_client (fun k => view_closeSession ..) (fun k hk g => ?_)
        (.closed expirySecs snapshot pending hrun fun g => ?_) k
      · simp [observe, Moment.live, stopped, hk]
      · simp [observe, Moment.live, stopped]
    · rw [show r.apply hash (.closeSession c generation expirySecs snapshot pending) = r from
        if_neg hrun]
      exact .refl _
  | parkSession c generation snapshot =>
    by_cases hrun : (c, generation) ∈ r.running
    · rw [show r.apply hash (.parkSession c generation snapshot) = _ from if_pos hrun]
      rcases parkSession_cases (Prod.mk.eta
        (p := r.shard.parkSession c generation snapshot)).symm with
        ⟨hno, -⟩ | ⟨session, hs, hown, hyes⟩
      · rw [Prod.mk.eta] at hno
        rw [hno]
        exact .refl _
      · have hyes := (Prod.mk.inj hyes).2
        refine .of_client (fun k => view_parkSession ..) (fun k hk g => ?_)
          (.parked snapshot hs hown fun g => ?_) k
        · simp [observe, Moment.live, stopped, hyes, hk]
        · simp [observe, Moment.live, stopped, hyes]
    · rw [show r.apply hash (.parkSession c generation snapshot) = r from if_neg hrun]
      exact .refl _
  | reattachParked c generation mailbox =>
    rcases reattachParked_cases
      (Prod.mk.eta (p := r.shard.reattachParked c generation mailbox)).symm with
      ⟨hno, -⟩ | ⟨session, hs, hown, hyes⟩
    · rw [Prod.mk.eta] at hno
      rw [show r.apply hash (.reattachParked c generation mailbox) = r.observe
        { r.toMoment with
          shard := (r.shard.reattachParked c generation mailbox).1
          running := if (r.shard.reattachParked c generation mailbox).2.isSome
            then (c, generation) :: r.running else r.running } from rfl, hno]
      exact .refl _
    · have hyes := (Prod.mk.inj hyes).2
      refine .of_client (fun k => view_reattachParked ..) (fun k hk g => ?_)
        (.reattached mailbox hs hown fun g => ?_) k
      · change (k, g) ∈ (if _ then _ else _) ↔ (k, g) ∈ r.running
        simp [hyes, hk]
      · change (c, g) ∈ (if _ then _ else _) ↔ _ ∨ (c, g) ∈ r.running
        simp [hyes]
  | suspendParked c generation expirySecs =>
    exact .of_view (fun k => view_suspendParked ..) (.suspended _ _) k
  | subscribe filter c opts =>
    exact .of_view (fun k => view_subscribe ..) (.subscriptions (by exact rfl) _) k
  | unsubscribe filter c group =>
    exact .of_view (fun k => view_unsubscribe ..) (.subscriptions (by exact rfl) _) k
  | installMigrated c migrated =>
    exact .of_view (fun k => view_installMigrated ..) (.subscriptions (by exact rfl) _) k
  | deliverLocal publish publisher => exact .received (receives_deliverLocal ..)
  | handleClaim c requester resume => exact .of_view (fun k => view_handleClaim ..) .claimed k
  | sweepExpired =>
    change Step _ _ _ _ _ _ ((r.shard.sweepExpired r.now).1.view k)
    rw [view_sweepExpired]
    exact .swept
  | armWill c generation will delaySecs =>
    exact .of_view (fun k => view_armWill ..) (.willArmed _ _ _) k
  | shedConnections order max =>
    change Step _ _ _ _ _ _ ((r.shard.shedConnections order max).1.view k)
    rcases view_shedConnections r.shard order max k with hv | hv
    · rw [hv]
      exact .refl _
    · rw [hv]
      exact .shed trivial
  | shutdownConnections =>
    change Step _ _ _ _ _ _ (r.shard.shutdownConnections.view k)
    rw [view_shutdownConnections]
    exact .shed trivial
  | takeWalBatch =>
    change Step _ _ _ _ _ (r.takeBatch.live k) (r.takeBatch.shard.view k)
    unfold takeBatch
    split
    · -- the marks are taken, whether or not there is a batch to append
      dsimp only
      split <;> exact .marks rfl _
    · exact .refl _
  | appendDone =>
    change Step _ _ _ _ _ (r.finishAppend.live k) (r.finishAppend.shard.view k)
    unfold finishAppend
    split <;> exact .refl _
  | persistSessions =>
    change Step _ _ _ _ _ (r.collectSessions.live k) (r.collectSessions.shard.view k)
    unfold collectSessions
    split <;> exact .refl _
  | saveDone =>
    change Step _ _ _ _ _ (r.finishSave.live k) (r.finishSave.shard.view k)
    unfold finishSave
    split <;> exact .refl _
  | truncateDone =>
    change Step _ _ _ _ _ (r.finishTruncate.live k) (r.finishTruncate.shard.view k)
    unfold finishTruncate
    split <;> exact .refl _

lemma ShardRun.le_now_apply : r.now ≤ (r.apply hash op).now := by
  cases op with
  | elapse nanos => exact Nat.le_add_right ..
  | closeSession c generation | parkSession c generation =>
    change r.now ≤ (if (c, generation) ∈ r.running then _ else r).now
    split <;> exact le_rfl
  | takeWalBatch =>
    change r.now ≤ r.takeBatch.now
    unfold takeBatch
    split
    · dsimp only
      split <;> exact le_rfl
    · exact le_rfl
  | appendDone => change r.now ≤ r.finishAppend.now; unfold finishAppend; split <;> exact le_rfl
  | persistSessions =>
    change r.now ≤ r.collectSessions.now
    unfold collectSessions
    split <;> exact le_rfl
  | saveDone => change r.now ≤ r.finishSave.now; unfold finishSave; split <;> exact le_rfl
  | truncateDone =>
    change r.now ≤ r.finishTruncate.now
    unfold finishTruncate
    split <;> exact le_rfl
  | openSession | reattachParked | suspendParked | subscribe | unsubscribe | installMigrated
  | deliverLocal | handleClaim | sweepExpired | armWill | shedConnections | shutdownConnections =>
    exact le_rfl

end

end Rusquitto
