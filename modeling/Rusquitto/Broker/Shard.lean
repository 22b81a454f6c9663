import Mathlib.Data.List.Sort
import Mathlib.Data.String.Basic
import Rusquitto.Lib.HashMap
import Rusquitto.Lib.WriteBehind
import Rusquitto.Persistence.Wal

/-!
# Per-shard broker state

`ShardState` and its session lifecycle, from `broker/shard.rs`, with the control outbox and the
membership announcements of `broker/shard/mesh.rs`; claims and migration are in `Broker.Mesh`, the
fan-out is in `Broker.Routing`.

A method that borrows the shard mutably returns the new state. Where the source reads the clock the
current time is an argument. A local channel is a number, its queue an entry of `channels`.
-/

namespace Rusquitto

/-- MQTT 5 Session Expiry Interval sentinel meaning "the session never expires". -/
def sessionNeverExpires : UInt32 := 0xFFFFFFFF

/-- Nanoseconds in a second. -/
def nanosPerSec : ℕ := 1000000000

/-- `Instant::now() + Duration::from_secs(secs)`. -/
def afterSecs (now : ℕ) (secs : UInt32) : ℕ :=
  now + secs.toNat * nanosPerSec

/-- The deadline of a session suspended now with the given expiry interval. -/
def expiryDeadline (now : ℕ) (expirySecs : UInt32) : Option ℕ :=
  if expirySecs = sessionNeverExpires then none else some (afterSecs now expirySecs)

/-- Durable per-client session state, keyed by client id in `ShardState`. -/
structure Session where
  /-- The channel of the live mailbox while the client is connected. -/
  mailbox : Option ℕ := none
  /-- Deadline after which a suspended session is discarded. -/
  expiresAt : Option ℕ := none
  /-- Bumped every time a connection (re)opens this session. -/
  generation : ℕ
  /-- Durable QoS state, held here only between connections. -/
  snapshot : Option SessionSnapshot := none
  /-- QoS > 0 messages that matched while the client was offline. -/
  offlineQueue : List Delivery := []
  /-- A Will Message with its deadline. -/
  pendingWill : Option (Publish × ℕ) := none
  /-- Still connected, but without a connection task. -/
  parked : Bool := false
  /-- Set when the first delivery lands for a parked session. -/
  wakePending : Bool := false

/-- A pending mark of the write-ahead log: the suspended state changed (`dirty`, to be logged as an
Upsert) or the session ended (`removed`, to be logged as a tombstone). -/
abbrev Mark := Lib.WriteBehind.Mark

/-- Session mutations awaiting the next flush. A client id is in at most one set at a time. -/
structure WalPending where
  dirty : List String := []
  removed : List String := []
  disjoint : ∀ c ∈ dirty, c ∉ removed := by simp

namespace WalPending

/-- `wal_dirty` on the pending sets. -/
def markDirty (w : WalPending) (clientId : String) : WalPending where
  dirty := w.dirty.insert clientId
  removed := w.removed.filter (· ≠ clientId)
  disjoint := by
    intro c hc hr
    rw [List.mem_filter, decide_eq_true_iff] at hr
    rcases List.mem_insert_iff.mp hc with rfl | hc
    · exact hr.2 rfl
    · exact w.disjoint c hc hr.1

/-- `wal_removed` on the pending sets. -/
def markRemoved (w : WalPending) (clientId : String) : WalPending where
  dirty := w.dirty.filter (· ≠ clientId)
  removed := w.removed.insert clientId
  disjoint := by
    intro c hc hr
    rw [List.mem_filter, decide_eq_true_iff] at hc
    rcases List.mem_insert_iff.mp hr with rfl | hr
    · exact hc.2 rfl
    · exact w.disjoint c hc.1 hr

/-- The mark a client id carries. -/
def mark (w : WalPending) (clientId : String) : Option Mark :=
  if clientId ∈ w.dirty then some .dirty
  else if clientId ∈ w.removed then some .removed
  else none

lemma mark_eq_dirty_iff (w : WalPending) (c : String) : w.mark c = some .dirty ↔ c ∈ w.dirty := by
  unfold mark
  split <;> simp_all

lemma mark_eq_removed_iff (w : WalPending) (c : String) :
    w.mark c = some .removed ↔ c ∈ w.removed := by
  have hd := w.disjoint c
  unfold mark
  by_cases h : c ∈ w.dirty <;> simp_all

lemma mark_markDirty (w : WalPending) (c k : String) :
    (w.markDirty c).mark k = if k = c then some .dirty else w.mark k := by
  by_cases hk : k = c <;> simp [mark, markDirty, List.mem_insert_iff, hk]

lemma mark_markRemoved (w : WalPending) (c k : String) :
    (w.markRemoved c).mark k = if k = c then some .removed else w.mark k := by
  by_cases hk : k = c <;> simp [mark, markRemoved, List.mem_insert_iff, hk]

end WalPending

/-- The handle on the channel mesh: this shard's peer id and the number of shards. -/
structure Mesh where
  peerId : ℕ
  nrConsumers : ℕ
  deriving DecidableEq, Repr

/-- The other shards, in the order in which the source counts through them. -/
def Mesh.peers (mesh : Mesh) : List ℕ :=
  (List.range mesh.nrConsumers).filter (· ≠ mesh.peerId)

/-- Per-shard broker state. -/
structure ShardState where
  sessions : HashMap String Session := ∅
  nextGeneration : ℕ := 0
  trie : TopicTrie := TopicTrie.empty
  /-- Last retained message per topic. -/
  retained : HashMap String Publish := ∅
  /-- The channel mesh; absent until the shard joins it. -/
  mesh : Option Mesh := none
  /-- Claims this shard is awaiting: the channel their `Handoff` replies go to. -/
  pendingClaims : HashMap String ℕ := ∅
  /-- Reliable outbound queue for control-plane messages, oldest first. -/
  controlTx : Option (List (ℕ × MeshMsg)) := none
  /-- Round-robin cursor per purely local shared group. -/
  sharedCursor : HashMap String ℕ := ∅
  /-- Connected members of each shared group on the other shards. -/
  sharedRemote : HashMap String (List String) := ∅
  /-- Cap on distinct retained topics (0 = unlimited). -/
  retainedLimit : ℕ := 0
  nextAssignedId : ℕ := 0
  /-- Session mutations awaiting the next flush; absent when the log is disabled. -/
  wal : Option WalPending := none
  /-- Commands for the parking task, oldest first; absent when parking is disabled. -/
  unparkTx : Option (List UnparkCmd) := none
  /-- The queue of each local channel that carries deliveries. -/
  channels : ℕ → List Delivery := fun _ => []
  /-- The queue of each local channel that carries claim replies. -/
  claimReplies : ℕ → List (Option MigratedSession) := fun _ => []

/-- Whether the client is connected: a live mailbox, or parked. -/
def Session.online (session : Session) : Bool :=
  session.mailbox.isSome || session.parked

/-- The session inserted for a client that has none. -/
def Session.fresh (mailbox generation : ℕ) : Session :=
  { mailbox := some mailbox, generation := generation }

/-- An existing session as `openSession` leaves it for the resuming connection. -/
def Session.resume (session : Session) (mailbox generation : ℕ) : Session :=
  { session with
    mailbox := some mailbox
    expiresAt := none
    generation := generation
    parked := false
    wakePending := false
    pendingWill := none
    snapshot := none
    offlineQueue := [] }

/-- A connected session as `parkSession` leaves it. -/
def Session.park (session : Session) (snapshot : SessionSnapshot) : Session :=
  { session with
    mailbox := none
    parked := true
    wakePending := false
    snapshot := some snapshot
    expiresAt := none }

/-- A parked session as `reattachParked` leaves it for the resurrected connection. -/
def Session.reattach (session : Session) (mailbox : ℕ) : Session :=
  { session with
    mailbox := some mailbox
    parked := false
    wakePending := false
    snapshot := none
    offlineQueue := [] }

/-- A parked session as `suspendParked` leaves it. -/
def Session.suspend (session : Session) (now : ℕ) (expirySecs : UInt32) : Session :=
  { session with
    parked := false
    wakePending := false
    expiresAt := expiryDeadline now expirySecs }

/-- A session as `closeSession` leaves it. Messages held back by the outbound window precede what
arrived since. -/
def Session.close (session : Session) (now : ℕ) (expirySecs : UInt32) (snapshot : SessionSnapshot)
    (pending : List Delivery) : Session :=
  { session with
    mailbox := none
    snapshot := some snapshot
    offlineQueue := pending ++ session.offlineQueue
    expiresAt := expiryDeadline now expirySecs }

/-- A parked session whose dormant fd is about to be closed. -/
def Session.unpark (session : Session) : Session :=
  { session with parked := false, wakePending := false }

/-- A session whose live mailbox is dropped. -/
def Session.shed (session : Session) : Session :=
  { session with mailbox := none }

/-- Whether the session's delayed will is due. -/
def Session.willDue (session : Session) (now : ℕ) : Bool :=
  session.pendingWill.any fun armed => armed.2 ≤ now

/-- Takes a due will. -/
def Session.fireWill (session : Session) (now : ℕ) : Session :=
  if session.willDue now then { session with pendingWill := none } else session

/-- Arms a will. -/
def Session.armWill (session : Session) (will : Publish) (deadline : ℕ) : Session :=
  { session with pendingWill := some (will, deadline) }

/-- Whether a session without a mailbox has passed its deadline. -/
def Session.expired (session : Session) (now : ℕ) : Bool :=
  session.mailbox.isNone && session.expiresAt.any (· ≤ now)

namespace ShardState

/-! ### The control outbox -/

/-- Enqueues one control-plane message for `peer`; nothing happens without an outbox. -/
def enqueueControl (s : ShardState) (peer : ℕ) (msg : MeshMsg) : ShardState :=
  { s with controlTx := s.controlTx.map (· ++ [(peer, msg)]) }

/-- Announces a shared-group membership change to every peer shard. -/
def broadcastShared (s : ShardState) (group clientId : String) (join : Bool) : ShardState :=
  match s.mesh with
  | none => s
  | some mesh =>
    mesh.peers.foldl
      (fun s idx => s.enqueueControl idx
        (.shared (if join then .join group clientId else .leave group clientId))) s

/-- The loop that announces one change for each of a client's groups. -/
def announce (s : ShardState) (groups : List String) (clientId : String) (join : Bool) :
    ShardState :=
  groups.foldl (fun s group => s.broadcastShared group clientId join) s

/-- The messages `announce` puts in the outbox. -/
def announcements (s : ShardState) (groups : List String) (clientId : String) (join : Bool) :
    List (ℕ × MeshMsg) :=
  match s.mesh with
  | none => []
  | some mesh =>
    groups.flatMap fun group => mesh.peers.map fun idx =>
      (idx, .shared (if join then .join group clientId else .leave group clientId))

/-! ### The write-ahead log's marks -/

/-- Marks a suspended session's durable state as changed. -/
def walDirty (s : ShardState) (clientId : String) : ShardState :=
  { s with wal := s.wal.map (·.markDirty clientId) }

/-- Marks a session as ended. -/
def walRemoved (s : ShardState) (clientId : String) : ShardState :=
  { s with wal := s.wal.map (·.markRemoved clientId) }

/-- Enables WAL tracking on this shard. -/
def enableWal (s : ShardState) : ShardState :=
  { s with wal := some (s.wal.getD {}) }

/-! ### Shared groups of a client -/

/-- The distinct shared groups `clientId` currently subscribes to, in order. -/
def sharedGroupsOf (s : ShardState) (clientId : String) : List String :=
  (((s.trie.clientSubscriptions clientId).filterMap FlatSub.shareGroup).insertionSort (· ≤ ·)).dedup

/-- Whether `clientId` still holds any subscription in shared group `group`. -/
def holdsSharedGroup (s : ShardState) (clientId group : String) : Bool :=
  (s.trie.clientSubscriptions clientId).any fun sub => sub.shareGroup = some group

/-! ### Opening a session -/

/-- Tells the parking task to close a parked session's dormant fd without resuming it. A no-op
unless the session is currently parked. -/
def signalCloseParked (s : ShardState) (clientId : String) : ShardState :=
  match s.sessions.lookup clientId with
  | none => s
  | some session =>
    if session.parked then
      { s with
        sessions := s.sessions.insert clientId session.unpark
        unparkTx := s.unparkTx.map (· ++ [.close clientId session.generation]) }
    else s

/-- Removes a session with its subscriptions and logs a tombstone. -/
def discardSession (s : ShardState) (clientId : String) : ShardState :=
  { s with
    sessions := s.sessions.erase clientId
    trie := s.trie.removeClient clientId }.walRemoved clientId

/-- Opens (or resumes) a session for a connecting client, installing its live mailbox. -/
def openSession (s : ShardState) (clientId : String) (mailbox : ℕ) (cleanStart : Bool) :
    ShardState × SessionHandle :=
  let generation := s.nextGeneration + 1
  let s := { s with nextGeneration := generation }
  let fresh (s : ShardState) : ShardState × SessionHandle :=
    ({ s with sessions := s.sessions.insert clientId (Session.fresh mailbox generation) },
      { resumed := false, generation })
  -- Both branches of the source signal a parked predecessor before they touch its record.
  let s := s.signalCloseParked clientId
  match s.sessions.lookup clientId with
  | none => fresh s
  | some existing =>
    if cleanStart then fresh (s.discardSession clientId)
    else
      let s := { s with
        sessions := s.sessions.insert clientId (existing.resume mailbox generation) }
      let s := s.announce (s.sharedGroupsOf clientId) clientId true
      (s.walRemoved clientId,
        { resumed := true, generation
          -- While a connection is live the record holds no snapshot and the handle is empty.
          snapshot := existing.snapshot.getD {}
          offlineQueue := existing.offlineQueue })

/-! ### Parking -/

/-- Flips a connected session to parked. The result says whether the caller may park. -/
def parkSession (s : ShardState) (clientId : String) (generation : ℕ)
    (snapshot : SessionSnapshot) : ShardState × Bool :=
  match s.sessions.lookup clientId with
  | none => (s, false)
  | some session =>
    if session.generation ≠ generation ∨ session.mailbox = none then (s, false)
    else
      ({ s with sessions := s.sessions.insert clientId (session.park snapshot) }, true)

/-- Re-attaches a resurrected connection to its parked session. -/
def reattachParked (s : ShardState) (clientId : String) (generation mailbox : ℕ) :
    ShardState × Option (SessionSnapshot × List Delivery) :=
  match s.sessions.lookup clientId with
  | none => (s, none)
  | some session =>
    if session.generation ≠ generation ∨ session.parked = false then (s, none)
    else
      ({ s with sessions := s.sessions.insert clientId (session.reattach mailbox) },
        some (session.snapshot.getD {}, session.offlineQueue))

/-- Converts a parked session into a suspended (or destroyed) one. -/
def suspendParked (s : ShardState) (now : ℕ) (clientId : String) (generation : ℕ)
    (expirySecs : UInt32) : ShardState × Bool :=
  let sharedGroups := s.sharedGroupsOf clientId
  match s.sessions.lookup clientId with
  | none => (s, false)
  | some session =>
    if session.generation ≠ generation ∨ session.parked = false then (s, false)
    else
      let s :=
        if expirySecs = 0 then s.discardSession clientId
        else
          { s with
            sessions := s.sessions.insert clientId
              (session.suspend now expirySecs) }.walDirty clientId
      (s.announce sharedGroups clientId false, true)

/-! ### Subscribing -/

/-- Subscribes a client to a topic filter. The result says whether the subscription is new. -/
def subscribe (s : ShardState) (filter clientId : String) (opts : SubOptions) :
    ShardState × Bool :=
  let isNew := (s.trie.insert filter clientId opts).2
  let s := { s with trie := (s.trie.insert filter clientId opts).1 }
  match opts.shareGroup with
  | some group => (if isNew then s.broadcastShared group clientId true else s, isNew)
  | none => (s, isNew)

/-- Removes a single subscription. The result says whether one was removed. -/
def unsubscribe (s : ShardState) (filter clientId : String) (shareGroup : Option String) :
    ShardState × Bool :=
  let removed := (s.trie.remove filter clientId shareGroup).2
  let s := { s with trie := (s.trie.remove filter clientId shareGroup).1 }
  match shareGroup with
  | some group =>
    -- The client may hold the group through another filter; only its last one is a Leave.
    (if removed && !s.holdsSharedGroup clientId group then s.broadcastShared group clientId false
      else s, removed)
  | none => (s, removed)

/-! ### Closing a session -/

/-- Ends a connection's hold on its session. The result says whether the connection still owned
it. -/
def closeSession (s : ShardState) (now : ℕ) (clientId : String) (generation : ℕ)
    (expirySecs : UInt32) (snapshot : SessionSnapshot) (pending : List Delivery) :
    ShardState × Bool :=
  let sharedGroups := s.sharedGroupsOf clientId
  match s.sessions.lookup clientId with
  | none => (s, false)
  | some session =>
    if session.generation ≠ generation then (s, false)
    else
      let s :=
        if expirySecs = 0 then s.discardSession clientId
        else
          { s with
            sessions := s.sessions.insert clientId
              (session.close now expirySecs snapshot pending) }.walDirty clientId
      (s.announce sharedGroups clientId false, true)

/-- Drops the live mailbox of every session on this shard. -/
def shutdownConnections (s : ShardState) : ShardState :=
  { s with sessions := s.sessions.mapValues fun _ session => session.shed }

/-- One turn of the shedding loop: the state and the number shed so far. -/
def shedOne (max : ℕ) (acc : ShardState × ℕ) (clientId : String) : ShardState × ℕ :=
  match acc.1.sessions.lookup clientId with
  | none => acc
  | some session =>
    if acc.2 < max ∧ session.mailbox.isSome then
      ({ acc.1 with sessions := acc.1.sessions.insert clientId session.shed }, acc.2 + 1)
    else acc

/-- Sheds up to `max` currently-connected sessions, in the order in which the table is walked. The
result says how many were shed. -/
def shedConnections (s : ShardState) (order : List String) (max : ℕ) : ShardState × ℕ :=
  order.foldl (shedOne max) (s, 0)

/-! ### Persisting sessions -/

/-- Whole seconds left until `deadline`. -/
def remainingSecs (now deadline : ℕ) : ℕ :=
  (deadline - now) / nanosPerSec

/-- The remaining expiry interval a suspended session is written with, or `none` when it is about
to expire. -/
def persistedExpiry (now : ℕ) : Option ℕ → Option UInt32
  | none => some sessionNeverExpires
  | some deadline =>
    let remaining := remainingSecs now deadline
    if remaining = 0 then none
    else some (if remaining < 2 ^ 32 then UInt32.ofNat remaining else sessionNeverExpires)

/-- The owned durable state of a client: its subscriptions with a session's snapshot and queue. -/
def packageSession (subscriptions : List FlatSub) (session : Session) : MigratedSession :=
  let snapshot := session.snapshot.getD {}
  { subscriptions
    inflight := snapshot.inflight
    incomingQos2 := snapshot.incomingQos2
    nextPkid := snapshot.nextPkid
    offline := session.offlineQueue }

/-- Builds the durable snapshot of a single suspended session. -/
def persistOne (s : ShardState) (clientId : String) (now : ℕ) : Option PersistedSession := do
  let session ← s.sessions.lookup clientId
  if session.mailbox.isSome ∨ session.parked then none
  else
    let expirySecs ← persistedExpiry now session.expiresAt
    pure
      { clientId
        expirySecs
        session := packageSession (s.trie.clientSubscriptions clientId) session }

/-- Snapshots the durable suspended sessions on this shard. -/
def persistSessions (s : ShardState) (now : ℕ) : List PersistedSession :=
  s.sessions.keys.filterMap (s.persistOne · now)

/-- The records of one flush: tombstones for the removed sessions, then Upserts for the current
state of the dirty ones that are still suspended. -/
def walRecords (s : ShardState) (now : ℕ) : List Record :=
  match s.wal with
  | none => []
  | some w =>
    w.removed.map .remove ++ w.dirty.filterMap fun clientId =>
      (s.persistOne clientId now).map .upsert

/-- Empties the pending sets. -/
def drainWal (s : ShardState) : ShardState :=
  { s with wal := s.wal.map fun _ => {} }

/-- Drains the pending mutations into one batch. A record that cannot be encoded adds no bytes. -/
def takeWalBatch (s : ShardState) (wire : Wire) (now : ℕ) : ShardState × Option (List UInt8) :=
  match s.wal with
  | none => (s, none)
  | some w =>
    if w.dirty = [] ∧ w.removed = [] then (s, none)
    else
      let buf := (s.walRecords now).flatMap fun record =>
        (encodeRecord wire record).toOption.getD []
      (s.drainWal, if buf = [] then none else some buf)

/-- The options a stored subscription is re-armed with. No Local on a shared subscription is
stripped. -/
def rearmOptions (sub : FlatSub) : SubOptions where
  qos := sub.qos
  nolocal := sub.nolocal && sub.shareGroup.isNone
  retainAsPublished := sub.retainAsPublished
  shareGroup := sub.shareGroup
  subId := sub.subId

/-- Re-arms a client's subscriptions in the trie. -/
def rearm (trie : TopicTrie) (clientId : String) (subscriptions : List FlatSub) : TopicTrie :=
  subscriptions.foldl (fun trie sub => (trie.insert sub.filter clientId (rearmOptions sub)).1) trie

/-- Installs one persisted session as a suspended session. -/
def loadSession (s : ShardState) (now : ℕ) (ps : PersistedSession) : ShardState :=
  { s with
    trie := rearm s.trie ps.clientId ps.session.subscriptions
    nextGeneration := s.nextGeneration + 1
    sessions := s.sessions.insert ps.clientId
      { expiresAt := expiryDeadline now ps.expirySecs
        generation := s.nextGeneration + 1
        snapshot := some
          { inflight := ps.session.inflight
            incomingQos2 := ps.session.incomingQos2
            nextPkid := ps.session.nextPkid }
        offlineQueue := ps.session.offline } }

/-- Installs persisted sessions as suspended sessions at startup. -/
def loadSessions (s : ShardState) (sessions : List PersistedSession) (now : ℕ) : ShardState :=
  sessions.foldl (fun s ps => s.loadSession now ps) s

/-! ### Wills and expiry -/

/-- Arms a delayed Will Message on a session the connection still owns. -/
def armWill (s : ShardState) (now : ℕ) (clientId : String) (generation : ℕ) (will : Publish)
    (delaySecs : UInt32) : ShardState :=
  match s.sessions.lookup clientId with
  | none => s
  | some session =>
    if session.generation = generation then
      { s with
        sessions := s.sessions.insert clientId
          (session.armWill will (afterSecs now delaySecs)) }
    else s

/-- Takes the delayed wills whose deadline has passed. -/
def fireWills (s : ShardState) (now : ℕ) : ShardState × List Publish :=
  ({ s with sessions := s.sessions.mapValues fun _ session => session.fireWill now },
    (s.sessions.values.filter (·.willDue now)).filterMap fun session =>
      session.pendingWill.map Prod.fst)

/-- The clients whose session has passed its deadline. -/
def expiredIds (s : ShardState) (now : ℕ) : List String :=
  s.sessions.keys.filter fun clientId => (s.sessions.lookup clientId).any (·.expired now)

/-- Ends one expired session. A session ending publishes any still-pending will. -/
def expireOne (acc : ShardState × List Publish) (clientId : String) : ShardState × List Publish :=
  match acc.1.sessions.lookup clientId with
  | none => acc
  | some session =>
    (acc.1.discardSession clientId, acc.2 ++ (session.pendingWill.map Prod.fst).toList)

/-- Discards every suspended session whose deadline has passed, and collects the wills now due. -/
def sweepExpired (s : ShardState) (now : ℕ) : ShardState × List Publish :=
  let fired := s.fireWills now
  (fired.1.expiredIds now).foldl expireOne fired

end ShardState

end Rusquitto
