import Rusquitto.Server.Connection

/-!
# Packet handlers

What a connection does with one packet from its client, from `connection/publish.rs`,
`connection/subscribe.rs`, `connection/connect.rs` and the dispatch in `connection.rs`.
`handle_connect` awaits the replies to a session claim, and is cut there. `fan_out` awaits room on a
full mesh link for a QoS > 0 publish, when it has sent it to the lower-numbered peers and before it
delivers locally; here it is one piece of work all the same, exact as long as no link is full.
-/

namespace Rusquitto

/-- Longest client identifier the broker accepts, in bytes. -/
def maxClientIdLen : ℕ := 256

/-- What the world outside decides while a handler runs. -/
structure Chance where
  /-- After how many replayed deliveries a flush fails, if there is one. -/
  flushFails : Option ℕ := none
  /-- The mesh links that are full. -/
  fullLinks : List ℕ := []
  /-- The random half of a server-assigned client id. -/
  rand : UInt64 := 0
  deriving DecidableEq, Repr

/-- The result of a piece of work of a connection. -/
structure Turn where
  conn : Connection
  shard : ShardState
  /-- Publishes sent to peer shards. -/
  forwards : List (ℕ × Publish) := []
  /-- What was passed to `fan_out`. -/
  fanned : List Publish := []
  outcome : Outcome := .ok ()

/-- A turn that leaves the shard alone. -/
def Turn.ofConn (shard : ShardState) (r : Connection × Outcome) : Turn where
  conn := r.1
  shard := shard
  outcome := r.2

/-- The copies of a publish that reach a mesh link: QoS 0 is dropped on a full one, QoS > 0 waits.
-/
def ShardState.forwards (s : ShardState) (fullLinks : List ℕ) (message : Publish) :
    List (ℕ × Publish) :=
  match s.mesh with
  | none => []
  | some mesh =>
    if 0 < s.meshPeers then
      (mesh.peers.filter fun idx => message.qos ≠ .atMostOnce ∨ idx ∉ fullLinks).map (·, message)
    else []

namespace Connection

/-- Forwards a publish to peer shards, then fans it out to local subscribers, without a wait. -/
def fanOut (env : Env) (c : Connection) (shard : ShardState) (chance : Chance) (message : Publish)
    (publisher : Option String) : Turn where
  conn := c
  shard := shard.deliverLocal env.hash message publisher
  forwards := shard.forwards chance.fullLinks message
  fanned := [message]

/-! ### PUBLISH -/

/-- Resolves an inbound topic alias. -/
def resolveAlias (c : Connection) (publish : Publish) : Connection × Except ConnError Publish :=
  match publish.properties.bind (·.topicAlias) with
  | none => (c, .ok publish)
  | some topicAlias =>
    if topicAlias = 0 ∨ inboundTopicAliasMax < topicAlias then
      (c.sendDisconnect .topicAliasInvalid, .error ⟨.invalidData, "topic alias invalid"⟩)
    else if publish.topic = "" then
      match c.aliases.inbound.lookup topicAlias with
      | some topic => (c, .ok { publish with topic })
      | none =>
        (c.sendDisconnect .topicAliasInvalid, .error ⟨.invalidData, "unknown topic alias"⟩)
    else
      ({ c with aliases.inbound := c.aliases.inbound.insert topicAlias publish.topic },
        .ok publish)

/-- The negative acknowledgement of an unauthorized publish; QoS 0 has none. -/
def denyPublish (c : Connection) (publish : Publish) : Connection :=
  match publish.qos with
  | .atMostOnce => c
  | .atLeastOnce => c.send (.pubAck publish.pkid .notAuthorized)
  | .exactlyOnce => c.send (.pubRec publish.pkid .notAuthorized)

/-- Stores a QoS 2 message until its PUBREL, within the Receive Maximum the broker announced. -/
def storeQos2 (c : Connection) (pkid : UInt16) (message : Publish) : Connection × Outcome :=
  if c.incomingQos2.lookup pkid = none ∧
      c.limits.maxInflight.toNat ≤ c.incomingQos2.entries.length then
    (c.sendDisconnect .receiveMaximumExceeded, .error ⟨.invalidData, "receive maximum exceeded"⟩)
  else
    ({ c with incomingQos2 := c.incomingQos2.insert pkid message }.send (.pubRec pkid .success),
      .ok ())

/-- A PUBLISH whose topic is resolved, valid and authorized. -/
def acceptPublish (env : Env) (c : Connection) (shard : ShardState) (chance : Chance)
    (publish : Publish) : Turn :=
  let message := { publish with pkid := 0, dup := false }
  match publish.qos with
  | .atMostOnce => c.fanOut env shard chance message (some c.clientId)
  | .atLeastOnce =>
    let turn := c.fanOut env shard chance message (some c.clientId)
    { turn with conn := turn.conn.send (.pubAck publish.pkid .success) }
  | .exactlyOnce => .ofConn shard (c.storeQos2 publish.pkid message)

def handlePublish (env : Env) (c : Connection) (shard : ShardState) (chance : Chance)
    (publish : Publish) : Turn :=
  match c.resolveAlias publish with
  | (c, .error e) => .ofConn shard (c, .error e)
  | (c, .ok publish) =>
    if validPublishTopic publish.topic = false then
      .ofConn shard
        (c.sendDisconnect .topicNameInvalid, .error ⟨.invalidData, "invalid publish topic"⟩)
    else if env.auth.authorizePublish c.username publish.topic = false then
      .ofConn shard (c.denyPublish publish, .ok ())
    else c.acceptPublish env shard chance publish

/-- The publisher has released a QoS 2 message: it is delivered if it is still held. -/
def handlePubrel (env : Env) (c : Connection) (shard : ShardState) (chance : Chance)
    (pkid : UInt16) : Turn :=
  match c.incomingQos2.lookup pkid with
  | none => .ofConn shard (c.send (.pubComp pkid), .ok ())
  | some message =>
    let c := { c with incomingQos2 := c.incomingQos2.erase pkid }
    let turn := c.fanOut env shard chance message (some c.clientId)
    { turn with conn := turn.conn.send (.pubComp pkid) }

/-! ### SUBSCRIBE and UNSUBSCRIBE -/

/-- The loop state of `handle_subscribe`. -/
structure SubscribeLoop where
  conn : Connection
  shard : ShardState
  returnCodes : List SubscribeReasonCode := []
  /-- The retained messages to replay, with the granted QoS. -/
  retained : List (Publish × QoS) := []

/-- A filter that is not registered. -/
def SubscribeLoop.refuse (acc : SubscribeLoop) (code : SubscribeReasonCode) : SubscribeLoop :=
  { acc with returnCodes := acc.returnCodes ++ [code] }

/-- Whether a subscription replays retained messages now. -/
def sendsRetained (filter : SubscribeFilter) (shareGroup : Option String) (isNew : Bool) : Bool :=
  shareGroup.isNone &&
    match filter.retainForwardRule with
    | .onEverySubscribe => true
    | .onNewSubscribe => isNew
    | .never => false

/-- Registers a filter that passed every check, unless that exceeds the client's quota. -/
def SubscribeLoop.register (acc : SubscribeLoop) (filter : SubscribeFilter) (effective : String)
    (shareGroup : Option String) (subId : Option ℕ) : SubscribeLoop :=
  let c := acc.conn
  let granted := minQos filter.qos c.limits.maxQosLevel
  let (shard, isNew) := acc.shard.subscribe effective c.clientId
    { qos := granted
      nolocal := filter.nolocal
      retainAsPublished := filter.preserveRetain
      shareGroup
      subId }
  let max := c.limits.maxSubscriptionsPerClient
  if isNew ∧ 0 < max ∧ max ≤ c.subscriptionCount then
    { acc with shard := (shard.unsubscribe effective c.clientId shareGroup).1 }.refuse
      .quotaExceeded
  else
    { conn := { c with subscriptionCount := c.subscriptionCount + if isNew then 1 else 0 }
      shard
      returnCodes := acc.returnCodes ++ [.granted granted]
      retained := acc.retained ++
        if sendsRetained filter shareGroup isNew then
          (shard.retainedMatching effective).map (·, granted)
        else [] }

/-- One turn of the loop over the requested filters. -/
def subscribeOne (env : Env) (subId : Option ℕ) (acc : SubscribeLoop) (filter : SubscribeFilter) :
    SubscribeLoop :=
  match parseSharedFilter filter.path with
  | none => acc.refuse .topicFilterInvalid
  | some (effective, shareGroup) =>
    if env.auth.authorizeSubscribe acc.conn.username effective = false then
      acc.refuse .notAuthorized
    else if validSubscribeFilter effective = false then acc.refuse .topicFilterInvalid
    -- No Local on a shared subscription is a protocol error.
    else if shareGroup.isSome ∧ filter.nolocal then acc.refuse .topicFilterInvalid
    else acc.register filter effective shareGroup subId

/-- The delivery that replays a retained message. -/
def retainedDelivery (subId : Option ℕ) (message : Publish × QoS) : Delivery where
  publish := message.1
  qos := minQos message.1.qos message.2
  retain := true
  subIds := subId.toList

def handleSubscribe (env : Env) (c : Connection) (shard : ShardState) (subscribe : Subscribe) :
    Turn :=
  let acc := subscribe.filters.foldl (subscribeOne env subscribe.id) { conn := c, shard }
  .ofConn acc.shard <|
    -- here nothing is flushed before the end
    replayAll env (acc.conn.send (.subAck subscribe.pkid acc.returnCodes)) 0 none
      (acc.retained.map (retainedDelivery subscribe.id))

/-- One turn of the loop over the filters of an UNSUBSCRIBE. -/
def unsubscribeOne (acc : Connection × ShardState) (filter : String) : Connection × ShardState :=
  let (effective, shareGroup) := (parseSharedFilter filter).getD (filter, none)
  let (shard, removed) := acc.2.unsubscribe effective acc.1.clientId shareGroup
  ({ acc.1 with subscriptionCount := acc.1.subscriptionCount - if removed then 1 else 0 }, shard)

def handleUnsubscribe (c : Connection) (shard : ShardState) (unsubscribe : Unsubscribe) : Turn :=
  let acc := unsubscribe.filters.foldl unsubscribeOne (c, shard)
  .ofConn acc.2 (acc.1.send (.unsubAck unsubscribe.pkid unsubscribe.filters.length), .ok ())

/-! ### CONNECT -/

/-- Takes over the session lifetime and the flow-control limits the client asks for. -/
def negotiate (c : Connection) (props : Option ConnectProperties) : Connection :=
  let asked := (props.bind (·.sessionExpiryInterval)).getD 0
  { c with
    sessionExpiry :=
      if 0 < c.limits.maxSessionExpiry then min asked c.limits.maxSessionExpiry else asked
    peerReceiveMax := max ((props.bind (·.receiveMaximum)).getD 65535) 1
    peerMaxPacketSize := props.bind (·.maxPacketSize)
    peerTopicAliasMax := min ((props.bind (·.topicAliasMax)).getD 0) outboundTopicAliasMax }

/-- `{:016x}`. -/
def hex16 (n : UInt64) : String :=
  let digits := Nat.toDigits 16 n.toNat
  String.ofList (List.replicate (16 - digits.length) '0' ++ digits)

/-- A server-assigned client id. -/
def assignedClientId (shardId n : ℕ) (rand : UInt64) : String :=
  "auto-" ++ toString shardId ++ "-" ++ toString n ++ "-" ++ hex16 rand

/-- `char::is_control`. -/
def isControl (c : Char) : Bool :=
  c.toNat < 0x20 || (0x7F ≤ c.toNat && c.toNat ≤ 0x9F)

/-- Whether the broker accepts a client id: bounded, without control characters. -/
def validClientId (id : String) : Bool :=
  id.utf8ByteSize ≤ maxClientIdLen && !id.toList.any isControl

/-- Keeps the Will Message as a ready-to-route publish. -/
def stashWill (c : Connection) (lastWill : Option LastWill) : Connection :=
  match lastWill with
  | none => c
  | some w =>
    { c with
      willDelay := w.delayInterval.getD 0
      will := some { topic := w.topic, qos := w.qos, payload := w.message, retain := w.retain } }

/-- The identity a verified client certificate gives a CONNECT without a username. -/
def certGrant (tls : TlsIdentity) (login : Option Login) : Option (Option String) :=
  if login.any (·.username ≠ "") then none
  else
    match tls with
    | .cn name => some (some name)
    | .verified => some none
    | .none => none

/-- Authenticates a CONNECT: the username, or the code of the refusal. -/
def authenticate (env : Env) (tls : TlsIdentity) (login : Option Login) :
    Except ConnectReturnCode (Option String) :=
  match certGrant tls login with
  | some identity => .ok identity
  | none =>
    match env.auth.check env.hashing (login.map (·.username)) (login.map (·.password)) with
    | .granted => .ok (login.map (·.username))
    | .badUserNamePassword => .error .badUserNamePassword
    | .notAuthorized => .error .notAuthorized

/-- Drops a Will Message whose topic is invalid or not authorized. -/
def checkWill (env : Env) (c : Connection) : Connection :=
  if c.will.all fun will =>
      validPublishTopic will.topic && env.auth.authorizePublish c.username will.topic then c
  else { c with will := none }

/-- Replies to a rejected CONNECT. -/
def rejectConnect (c : Connection) (code : ConnectReturnCode) : Connection × Outcome :=
  (c.send (.connAck code false {}), .error ⟨.permissionDenied, "authentication failed"⟩)

/-- The properties of a successful CONNACK. -/
def ackProperties (c : Connection) (assigned : Bool) : ConnAckProperties where
  serverKeepAlive := if 0 < c.limits.keepAlive then some c.limits.keepAlive else none
  assignedClientIdentifier := if assigned then some c.clientId else none
  receiveMax := some c.limits.maxInflight
  maxPacketSize := some (c.limits.maxPayloadSize % 2 ^ 32)
  maxQos := if c.limits.maxQos < 2 then some c.limits.maxQos else none
  retainAvailable := if c.limits.retainAvailable then none else some 0
  topicAliasMax := some inboundTopicAliasMax

/-- The end of the handshake: CONNACK, then message flow for a resumed session. -/
def finishConnect (env : Env) (c : Connection) (chance : Chance) (assigned sessionPresent : Bool)
    (offlineQueue : List Delivery) : Connection × Outcome :=
  let c := c.send (.connAck .success sessionPresent (c.ackProperties assigned))
  let c := { c with connected := true, phase := .running }
  if sessionPresent then c.resumeDelivery env chance.flushFails offlineQueue else (c, .ok ())

/-- Asks the peers for the session, if there are any. -/
def claimRemoteSession (env : Env) (c : Connection) (shard : ShardState) (chance : Chance)
    (assigned : Bool) : Turn :=
  if shard.meshPeers = 0 then .ofConn shard (c.finishConnect env chance assigned false [])
  else
    { conn := { c with phase := .claiming shard.meshPeers assigned }
      -- the connection's own number also names the channel of the replies
      shard := (shard.registerClaim c.clientId c.mailboxRx).broadcastClaim c.clientId true }

/-- Opens or resumes the session of an authenticated client. -/
def openHandle (env : Env) (c : Connection) (shard : ShardState) (chance : Chance)
    (cleanStart assigned : Bool) : Turn :=
  let (shard, handle) := shard.openSession c.clientId c.mailboxRx cleanStart
  let c := { c with mailboxTx := none, sessionGeneration := handle.generation }.restore
    handle.snapshot
  if cleanStart then
    .ofConn (shard.broadcastClaim c.clientId false)
      (c.finishConnect env chance assigned handle.resumed handle.offlineQueue)
  else if handle.resumed then
    .ofConn shard (c.finishConnect env chance assigned true handle.offlineQueue)
  else c.claimRemoteSession env shard chance assigned

/-- A CONNECT whose client id is settled. -/
def acceptConnect (env : Env) (c : Connection) (shard : ShardState) (chance : Chance)
    (connect : Connect) :
    Turn :=
  let c := c.stashWill connect.lastWill
  match authenticate env c.tlsIdentity connect.login with
  | .error code => .ofConn shard (c.rejectConnect code)
  | .ok username =>
    openHandle env (checkWill env { c with username }) shard chance connect.cleanSession
      (connect.clientId = "")

def handleConnect (env : Env) (c : Connection) (shard : ShardState) (chance : Chance)
    (connect : Connect) : Turn :=
  let c := c.negotiate connect.properties
  if connect.clientId = "" then
    let n := shard.nextAssignedId
    acceptConnect env { c with clientId := assignedClientId c.shardId n chance.rand }
      { shard with nextAssignedId := n + 1 } chance connect
  else if validClientId connect.clientId = false then
    .ofConn shard (c.rejectConnect .clientIdentifierNotValid)
  else acceptConnect env { c with clientId := connect.clientId } shard chance connect

/-- The rest of `handle_connect` after the claim: a migrated session is installed. -/
def claimed (env : Env) (c : Connection) (shard : ShardState) (chance : Chance) (assigned : Bool)
    (found : Option MigratedSession) : Turn :=
  let shard := shard.unregisterClaim c.clientId
  match found with
  | none => .ofConn shard (c.finishConnect env chance assigned false [])
  | some migrated =>
    let (shard, snapshot, offline) := shard.installMigrated c.clientId migrated
    let c := { c with subscriptionCount := migrated.subscriptions.length }.restore snapshot
    .ofConn shard (c.finishConnect env chance assigned true offline)

/-! ### Dispatch -/

/-- Handles a packet of a connection that is past its handshake. -/
def dispatch (env : Env) (c : Connection) (shard : ShardState) (chance : Chance) : Packet → Turn
  | .connect _ =>
    .ofConn shard (c.sendDisconnect .protocolError, .error ⟨.invalidData, "duplicate CONNECT"⟩)
  | .publish publish => c.handlePublish env shard chance publish
  | .subscribe subscribe => c.handleSubscribe env shard subscribe
  | .unsubscribe unsubscribe => c.handleUnsubscribe shard unsubscribe
  | .pingReq => .ofConn shard c.handlePing
  | .disconnect reason => .ofConn shard (c.handleDisconnect reason)
  | .pubAck pkid => .ofConn shard (c.handlePuback env pkid)
  | .pubRec pkid => .ofConn shard (c.handlePubrec pkid)
  | .pubRel pkid => c.handlePubrel env shard chance pkid
  | .pubComp pkid => .ofConn shard (c.handlePubcomp env pkid)
  | .serverOnly => .ofConn shard (c, .ok ())

/-- Processes one parsed packet: the first must be a CONNECT, and exactly one is allowed. -/
def processOne (env : Env) (c : Connection) (shard : ShardState) (chance : Chance)
    (packet : Packet) : Turn :=
  if c.connected then c.dispatch env shard chance packet
  else
    match packet with
    | .connect connect => c.handleConnect env shard chance connect
    | _ => .ofConn shard (c, .error ⟨.invalidData, "expected CONNECT"⟩)

end Connection

end Rusquitto
