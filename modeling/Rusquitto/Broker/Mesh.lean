import Rusquitto.Broker.Routing

/-!
# Cross-shard coordination

Membership views, session claims and session migration, from `broker/shard/mesh.rs`.
-/

namespace Rusquitto

namespace ShardState

/-- Folds a peer's membership announcement into the replicated view. -/
def applySharedEvent (s : ShardState) : SharedEvent → ShardState
  | .join group clientId =>
    { s with
      sharedRemote := s.sharedRemote.insert group
        (((s.sharedRemote.lookup group).getD []).insert clientId) }
  | .leave group clientId =>
    match s.sharedRemote.lookup group with
    | none => s
    | some members =>
      let members := members.filter (· ≠ clientId)
      { s with
        sharedRemote :=
          if members = [] then s.sharedRemote.erase group
          else s.sharedRemote.insert group members }

/-- Broadcasts a session claim to every peer shard. -/
def broadcastClaim (s : ShardState) (clientId : String) (resume : Bool) : ShardState :=
  match s.mesh with
  | none => s
  | some mesh =>
    mesh.peers.foldl
      (fun s idx => s.enqueueControl idx (.control (.claim clientId mesh.peerId resume))) s

/-- The number of other shards in the mesh. -/
def meshPeers (s : ShardState) : ℕ :=
  match s.mesh with
  | none => 0
  | some mesh => mesh.nrConsumers - 1

/-- Registers a pending claim whose replies go to `channel`. -/
def registerClaim (s : ShardState) (clientId : String) (channel : ℕ) : ShardState :=
  { s with pendingClaims := s.pendingClaims.insert clientId channel }

/-- Removes a pending claim. -/
def unregisterClaim (s : ShardState) (clientId : String) : ShardState :=
  { s with pendingClaims := s.pendingClaims.erase clientId }

/-- Removes a session from this shard and packages it for migration. -/
def extractSession (s : ShardState) (clientId : String) (session : Session) :
    ShardState × MigratedSession :=
  let (trie, subscriptions) := s.trie.takeClient clientId
  ({ s with trie, sessions := s.sessions.erase clientId }, packageSession subscriptions session)

/-- Handles a peer's session claim. -/
def handleClaim (s : ShardState) (clientId : String) (requester : ℕ) (resume : Bool) :
    ShardState :=
  let s := s.signalCloseParked clientId
  match s.sessions.lookup clientId with
  | none => s.enqueueControl requester (.control (.handoff clientId none))
  | some session =>
    if session.mailbox = none ∧ resume then
      let (s, migrated) := s.extractSession clientId session
      (s.walRemoved clientId).enqueueControl requester
        (.control (.handoff clientId (some migrated)))
    else
      -- A still-live session (cross-shard takeover) or a Clean Start discard: nothing migrates.
      (s.discardSession clientId).enqueueControl requester (.control (.handoff clientId none))

/-- Dispatches a control message received from a peer. -/
def onControl (s : ShardState) : SessionControl → ShardState
  | .claim clientId requester resume => s.handleClaim clientId requester resume
  | .handoff clientId session =>
    match s.pendingClaims.lookup clientId with
    | none => s
    | some channel =>
      { s with
        claimReplies :=
          Function.update s.claimReplies channel (s.claimReplies channel ++ [session]) }

/-- Installs a migrated session onto the local session of `clientId`: re-arms its subscriptions and
returns what the connection loads. -/
def installMigrated (s : ShardState) (clientId : String) (migrated : MigratedSession) :
    ShardState × SessionSnapshot × List Delivery :=
  let s := { s with trie := rearm s.trie clientId migrated.subscriptions }
  let s := s.announce (s.sharedGroupsOf clientId) clientId true
  (s,
    { inflight := migrated.inflight
      incomingQos2 := migrated.incomingQos2
      nextPkid := migrated.nextPkid },
    migrated.offline)

/-- Handles one message from the mesh. -/
def handleMeshMsg (hash : ContentHash) (s : ShardState) : MeshMsg → ShardState
  | .publish publish => s.deliverLocal hash publish none
  | .control control => s.onControl control
  | .shared event => s.applySharedEvent event

/-- The control messages under way to a peer, oldest first. -/
def outgoing (s : ShardState) (peer : ℕ) : List MeshMsg :=
  ((s.controlTx.getD []).filter (·.1 = peer)).map Prod.snd

/-- Takes the oldest message to a peer out of the outbox. -/
def popControl (s : ShardState) (peer : ℕ) : ShardState :=
  { s with controlTx := s.controlTx.map (·.eraseP (·.1 = peer)) }

end ShardState

end Rusquitto
