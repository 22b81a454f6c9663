import Rusquitto.Server.Handlers

/-!
# A shard and its connections

One shard with the connection tasks it runs and the connections it has parked, from
`server/connection.rs` (`run`, `event_loop`), `server/shard/serve.rs` and `server/shard/parking.rs`.
`Server.apply` performs one uninterrupted piece of work; what the outside decides is part of the
step. A connection is known by the number of its mailbox.
-/

namespace Rusquitto

/-! ### Parked connections -/

/-- What a parked connection needs to be rebuilt. -/
structure ResumeState where
  clientId : String
  sessionGeneration : ℕ
  nextPkid : UInt16
  sessionExpiry : UInt32
  will : Option Publish
  willDelay : UInt32
  username : Option String
  peerReceiveMax : UInt16
  peerMaxPacketSize : Option UInt32
  peerTopicAliasMax : UInt16
  aliases : AliasTables
  subscriptionCount : ℕ

/-- The durable snapshot a session is parked with: only the packet-id cursor. -/
def ResumeState.sessionSnapshot (r : ResumeState) : SessionSnapshot :=
  { nextPkid := r.nextPkid }

/-- The parking registry. A slot's number stands for its index and generation tag together, so it is
never used twice. -/
structure Parking where
  slots : HashMap ℕ ResumeState := ∅
  byClient : HashMap String ℕ := ∅
  nextSlot : ℕ := 0

namespace Parking

/-- Registers a parked connection. -/
def park (p : Parking) (r : ResumeState) : Parking where
  slots := p.slots.insert p.nextSlot r
  byClient := p.byClient.insert r.clientId p.nextSlot
  nextSlot := p.nextSlot + 1

/-- Frees a slot, and with it the index entry of its client id. -/
def takeSlot (p : Parking) (slot : ℕ) : Option (Parking × ResumeState) :=
  (p.slots.lookup slot).map fun r =>
    ({ p with slots := p.slots.erase slot, byClient := p.byClient.erase r.clientId }, r)

/-- Takes a client's entry; with a generation, only if it parked under that one. -/
def takeByClient (p : Parking) (clientId : String) (generation : Option ℕ) :
    Option (Parking × ResumeState) :=
  (p.byClient.lookup clientId).bind fun slot =>
    (p.takeSlot slot).filter fun taken =>
      generation.all (· = taken.2.sessionGeneration)

end Parking

namespace Connection

/-- `Connection::new`. -/
def new (id : ℕ) (shardId : ℕ) (limits : LimitsConfig) (tlsIdentity : TlsIdentity) : Connection :=
  { mailboxTx := some id, mailboxRx := id, shardId, limits, tlsIdentity }

/-- `Connection::resume`: rebuilds a parked connection with a fresh mailbox. -/
def resume (id : ℕ) (shardId : ℕ) (limits : LimitsConfig) (r : ResumeState) : Connection :=
  { phase := .resuming
    mailboxTx := some id
    mailboxRx := id
    shardId
    limits
    connected := true
    clientId := r.clientId
    sessionGeneration := r.sessionGeneration
    nextPkid := r.nextPkid
    sessionExpiry := r.sessionExpiry
    will := r.will
    willDelay := r.willDelay
    username := r.username
    peerReceiveMax := r.peerReceiveMax
    peerMaxPacketSize := r.peerMaxPacketSize
    peerTopicAliasMax := r.peerTopicAliasMax
    aliases := r.aliases
    subscriptionCount := r.subscriptionCount }

/-- `Connection::into_parts`. -/
def intoParts (c : Connection) : ResumeState where
  clientId := c.clientId
  sessionGeneration := c.sessionGeneration
  nextPkid := c.nextPkid
  sessionExpiry := c.sessionExpiry
  will := c.will
  willDelay := c.willDelay
  username := c.username
  peerReceiveMax := c.peerReceiveMax
  peerMaxPacketSize := c.peerMaxPacketSize
  peerTopicAliasMax := c.peerTopicAliasMax
  aliases := c.aliases
  subscriptionCount := c.subscriptionCount

/-- Whether the connection is fully idle. Its buffers are empty whenever it blocks. -/
def parkReady (c : Connection) : Bool :=
  c.connected && c.inflight.entries.isEmpty && c.incomingQos2.entries.isEmpty &&
    c.pendingOutbound.isEmpty

/-- The durable QoS state of the connection. -/
def snapshot (c : Connection) : SessionSnapshot where
  inflight := c.inflight
  incomingQos2 := c.incomingQos2
  nextPkid := c.nextPkid

/-- An error unwinds the event loop. -/
def settle (r : Connection × Outcome) : Connection :=
  match r.2 with
  | .ok () => r.1
  | .error _ => { r.1 with phase := .ending }

/-- Takes a delivery from the mailbox. -/
def receive (env : Env) (c : Connection) (d : Delivery) : Connection × Outcome :=
  { c with ledger.received := c.ledger.received ++ [d] }.deliver env d

/-- Drops the connection's hold on its session's state once that is handed over. -/
def emptied (c : Connection) : Connection :=
  { c with inflight := ∅, incomingQos2 := ∅, pendingOutbound := [], will := none }

end Connection

/-! ### The shard with its tasks -/

/-- A shard with its connection tasks, by the number of their mailbox, and its parked connections.
-/
structure Server where
  shard : ShardState := {}
  now : ℕ := 0
  shardId : ℕ := 0
  limits : LimitsConfig := {}
  tasks : ℕ → Option Connection := fun _ => none
  /-- The first mailbox number not used yet. -/
  nextChannel : ℕ := 0
  parking : Parking := {}
  /-- Publishes under way to peer shards, oldest first. -/
  links : List (ℕ × Publish) := []
  shutdown : Bool := false

/-- Why an event loop ends without a packet: the client closed, the socket failed, bytes that are no
packet, or a lapsed deadline. -/
inductive HangUp where
  | eof
  | readError
  | writeError
  | parseError
  | timeout
  deriving DecidableEq, Repr

/-- One uninterrupted piece of work on a shard. -/
inductive ServerOp where
  | elapse (nanos : ℕ)
  /-- A socket is accepted. -/
  | accept (tlsIdentity : TlsIdentity)
  /-- A connection processes a packet. -/
  | packet (id : ℕ) (packet : Packet) (chance : Chance)
  /-- A connection takes a delivery from its mailbox. -/
  | receive (id : ℕ)
  | hangUp (id : ℕ) (why : HangUp)
  /-- A connection finds its mailbox closed. -/
  | mailboxClosed (id : ℕ)
  /-- A connecting client's claim is answered by a peer, or runs out of time. -/
  | claimReply (id : ℕ) (chance : Chance)
  | claimTimeout (id : ℕ) (chance : Chance)
  /-- The cleanup of a connection whose event loop has ended. -/
  | close (id : ℕ)
  | publishWill (id : ℕ) (chance : Chance)
  /-- An idle connection parks. -/
  | park (id : ℕ) (dupFails : Bool)
  /-- The parking task handles the next command. -/
  | parkingCmd
  /-- A parked socket has something to read. -/
  | ingress (slot : ℕ)
  /-- A parked connection is past its keep-alive deadline. -/
  | reap (slot : ℕ) (chance : Chance)
  /-- A connection rebuilt from parking re-attaches to its session. -/
  | reattach (id : ℕ) (chance : Chance)
  /-- A message arrives from a peer shard. -/
  | mesh (msg : MeshMsg)
  /-- The broker publishes a message of its own. -/
  | publish (message : Publish) (chance : Chance)
  | sweep (chance : Chance)
  | shed (order : List String) (max : ℕ)
  /-- Persisted sessions are installed. -/
  | load (sessions : List PersistedSession)
  | drainWal
  | shutDown

namespace Server

variable (env : Env) (srv : Server)

/-- Replaces a task. -/
def setTask (id : ℕ) (task : Option Connection) : Server :=
  { srv with tasks := Function.update srv.tasks id task }

/-- Starts a task with a new mailbox. -/
def spawn (conn : ℕ → Connection) : Server :=
  { srv.setTask srv.nextChannel (some (conn srv.nextChannel)) with nextChannel := srv.nextChannel + 1 }

/-- The task with this number, if it stands at this phase. -/
def taskAt (id : ℕ) (phase : Phase) : Option Connection :=
  (srv.tasks id).filter (·.phase = phase)

/-- A turn of a task has been taken. -/
def finishTurn (id : ℕ) (turn : Turn) : Server :=
  { srv.setTask id (some (Connection.settle (turn.conn, turn.outcome))) with
    shard := turn.shard
    links := srv.links ++ turn.forwards }

/-- Whether the shard still holds the sender of a mailbox. -/
def mailboxOpen (id : ℕ) : Bool :=
  srv.shard.sessions.entries.any (·.2.mailbox = some id)

/-- A publish of the broker's own: peers get it unless their link is full. -/
def broadcast (chance : Chance) (message : Publish) : Server :=
  { srv with
    shard := srv.shard.deliverLocal env.hash message none
    links := srv.links ++
      match srv.shard.mesh with
      | none => []
      | some mesh => (mesh.peers.filter (· ∉ chance.fullLinks)).map (·, message) }

def packet (id : ℕ) (p : Packet) (chance : Chance) : Server :=
  match srv.taskAt id .running with
  | none => srv
  | some c => srv.finishTurn id (c.processOne env srv.shard chance p)

/-- The event loop takes the oldest delivery of the mailbox. -/
def receive (id : ℕ) : Server :=
  match srv.taskAt id .running, srv.shard.channels id with
  | some c, d :: rest =>
    srv.finishTurn id
      (.ofConn { srv.shard with channels := Function.update srv.shard.channels id rest }
        (c.receive env d))
  | _, _ => srv

/-- The event loop ends. Only a lapsed deadline is answered with a DISCONNECT. -/
def hangUp (id : ℕ) (why : HangUp) : Server :=
  match srv.taskAt id .running with
  | none => srv
  | some c =>
    let c := if why = .timeout ∧ c.connected then c.sendDisconnect .keepAliveTimeout else c
    srv.setTask id (some { c with phase := .ending })

/-- The mailbox is empty and its sender dropped: the server stops, or the session was taken over or
shed. -/
def mailboxClosed (id : ℕ) : Server :=
  match srv.taskAt id .running with
  | none => srv
  | some c =>
    if c.mailboxTx = none ∧ srv.shard.channels id = [] ∧ srv.mailboxOpen id = false then
      let c :=
        if srv.shutdown then { c with will := none }.sendDisconnect .serverShuttingDown else c
      srv.setTask id (some { c with phase := .ending })
    else srv

/-- A reply to a claim: the first session found ends the wait, as does the last negative reply. -/
def claimReply (id : ℕ) (chance : Chance) : Server :=
  match srv.tasks id, srv.shard.claimReplies id with
  | some c, reply :: rest =>
    match c.phase with
    | .claiming remaining assigned =>
      let shard := { srv.shard with claimReplies := Function.update srv.shard.claimReplies id rest }
      if reply.isSome ∨ remaining ≤ 1 then
        srv.finishTurn id (c.claimed env shard chance assigned reply)
      else
        { srv.setTask id (some { c with phase := .claiming (remaining - 1) assigned }) with shard }
    | _ => srv
  | _, _ => srv

/-- The wait for replies ends without a session: it timed out, or its channel was closed. -/
def claimTimeout (id : ℕ) (chance : Chance) : Server :=
  match srv.tasks id with
  | none => srv
  | some c =>
    match c.phase with
    | .claiming _ assigned => srv.finishTurn id (c.claimed env srv.shard chance assigned none)
    | _ => srv

/-- The cleanup of `run`: releases the session, and keeps or arms the will if the connection still
owned it. -/
def close (id : ℕ) : Server :=
  match srv.taskAt id .ending with
  | none => srv
  | some c =>
    if c.clientId = "" then srv.setTask id none
    else
      let (shard, owned) := srv.shard.closeSession srv.now c.clientId c.sessionGeneration
        c.sessionExpiry c.snapshot c.pendingOutbound
      match c.will.filter fun _ => owned with
      | none => { srv.setTask id none with shard }
      | some will =>
        let delay := min c.willDelay c.sessionExpiry
        if delay = 0 then { srv.setTask id (some { c.emptied with phase := .willing will }) with shard }
        else
          { srv.setTask id none with
            shard := shard.armWill srv.now c.clientId c.sessionGeneration will delay }

/-- A will without delay is published. -/
def publishWill (id : ℕ) (chance : Chance) : Server :=
  match srv.tasks id with
  | none => srv
  | some c =>
    match c.phase with
    | .willing will =>
      let turn := c.fanOut env srv.shard chance will none
      { srv.setTask id none with shard := turn.shard, links := srv.links ++ turn.forwards }
    | _ => srv

/-- Parks an idle connection whose mailbox is open and empty. -/
def park (id : ℕ) (dupFails : Bool) : Server :=
  match srv.taskAt id .running with
  | none => srv
  | some c =>
    if c.parkReady ∧ srv.shard.channels id = [] ∧ srv.mailboxOpen id ∧ srv.shard.unparkTx.isSome ∧
        srv.shutdown = false then
      let r := c.intoParts
      let (shard, flipped) := srv.shard.parkSession r.clientId r.sessionGeneration r.sessionSnapshot
      let srv := { srv.setTask id none with shard }
      -- displaced by a newer connection: the socket is just closed
      if flipped = false then srv
      else if dupFails then srv.spawn fun id => .resume id srv.shardId srv.limits r
      else { srv with parking := srv.parking.park r }
    else srv

/-- A parked connection wakes up: a new task will re-attach it. -/
def wake (taken : Option (Parking × ResumeState)) : Server :=
  match taken with
  | none => srv
  | some (parking, r) =>
    { srv with parking }.spawn fun id => .resume id srv.shardId srv.limits r

def parkingCmd : Server :=
  match srv.shard.unparkTx with
  | some (cmd :: rest) =>
    let srv := { srv with shard := { srv.shard with unparkTx := some rest } }
    match cmd with
    | .wake clientId => srv.wake (srv.parking.takeByClient clientId none)
    | .close clientId generation =>
      match srv.parking.takeByClient clientId (some generation) with
      | none => srv
      | some (parking, _) => { srv with parking }
  | _ => srv

/-- Reaps a parked connection: the session is suspended, the will published or armed. -/
def reap (slot : ℕ) (chance : Chance) : Server :=
  match srv.parking.takeSlot slot with
  | none => srv
  | some (parking, r) =>
    let (shard, owned) :=
      srv.shard.suspendParked srv.now r.clientId r.sessionGeneration r.sessionExpiry
    let srv := { srv with parking, shard }
    match r.will.filter fun _ => owned with
    | none => srv
    | some will =>
      let delay := min r.willDelay r.sessionExpiry
      if delay = 0 then srv.broadcast env chance will
      else { srv with shard := shard.armWill srv.now r.clientId r.sessionGeneration will delay }

/-- The prelude of a rebuilt connection: without its session it closes quietly. -/
def reattach (id : ℕ) (chance : Chance) : Server :=
  match srv.taskAt id .resuming with
  | none => srv
  | some c =>
    match srv.shard.reattachParked c.clientId c.sessionGeneration id with
    | (shard, none) =>
      { srv.setTask id (some { c with mailboxTx := none, will := none, clientId := "", phase := .ending })
        with shard }
    | (shard, some (snapshot, queued)) =>
      let c := { c with mailboxTx := none, phase := .running }.restore snapshot
      srv.finishTurn id (.ofConn shard (c.resumeDelivery env chance.flushFails queued))

/-- Discards expired sessions and publishes the wills that are due. -/
def sweep (chance : Chance) : Server :=
  let (shard, wills) := srv.shard.sweepExpired srv.now
  wills.foldl (fun srv will => srv.broadcast env chance will) { srv with shard }

/-- The server stops: every mailbox is dropped, every parked session suspended. -/
def shutDown : Server :=
  { srv with
    shutdown := true
    parking := { srv.parking with slots := ∅, byClient := ∅ }
    shard := srv.parking.slots.entries.foldl
      (fun s e => (s.suspendParked srv.now e.2.clientId e.2.sessionGeneration e.2.sessionExpiry).1)
      srv.shard.shutdownConnections }

/-- Performs one piece of work. What cannot happen leaves everything as it is. -/
def apply : ServerOp → Server
  | .elapse nanos => { srv with now := srv.now + nanos }
  | .accept tlsIdentity => srv.spawn fun id => .new id srv.shardId srv.limits tlsIdentity
  | .packet id p chance => srv.packet env id p chance
  | .receive id => srv.receive env id
  | .hangUp id why => srv.hangUp id why
  | .mailboxClosed id => srv.mailboxClosed id
  | .claimReply id chance => srv.claimReply env id chance
  | .claimTimeout id chance => srv.claimTimeout env id chance
  | .close id => srv.close id
  | .publishWill id chance => srv.publishWill env id chance
  | .park id dupFails => srv.park id dupFails
  | .parkingCmd => srv.parkingCmd
  | .ingress slot => srv.wake (srv.parking.takeSlot slot)
  | .reap slot chance => srv.reap env slot chance
  | .reattach id chance => srv.reattach env id chance
  | .mesh msg => { srv with shard := srv.shard.handleMeshMsg env.hash msg }
  | .publish message chance => srv.broadcast env chance message
  | .sweep chance => srv.sweep env chance
  | .shed order max => { srv with shard := (srv.shard.shedConnections order max).1 }
  | .load sessions => { srv with shard := srv.shard.loadSessions sessions srv.now }
  | .drainWal => { srv with shard := srv.shard.drainWal }
  | .shutDown => srv.shutDown

end Server

end Rusquitto
