import Mathlib.Algebra.Order.Group.Multiset
import Rusquitto.Auth
import Rusquitto.Broker.Mesh
import Rusquitto.Lib.Probe

/-!
# One client connection

The state of a connection task and the functions that move it, from `server/connection.rs`,
`connection/delivery.rs` and `connection/control.rs`. Bytes stop at this border: the connection
receives parsed packets and its output is the list of the packets encoded so far, flushed or not.
Only a PUBLISH can fail to encode or be too large, so only its encoder is a parameter. Clocks are
left out: a deadline lapses at any moment.
-/

namespace Rusquitto

/-- Upper bound on QoS > 0 messages held for a connected client whose in-flight window is full. -/
def pendingOutboundLimit : ℕ := 4096

/-- Largest inbound topic alias the broker accepts. -/
def inboundTopicAliasMax : UInt16 := 16

/-- The size at which the output buffer is flushed, in bytes. -/
def flushThreshold : ℕ := 16 * 1024

/-- Ceiling on the outbound aliases assigned per connection. -/
def outboundTopicAliasMax : UInt16 := 32

/-- The configured limits a connection reads. -/
structure LimitsConfig where
  maxPayloadSize : ℕ := 65536
  maxInflight : UInt16 := 128
  maxQos : UInt8 := 2
  keepAlive : UInt16 := 60
  retainAvailable : Bool := true
  maxSessionExpiry : UInt32 := 86400
  maxSubscriptionsPerClient : ℕ := 1024
  deriving DecidableEq, Repr

/-- The `max_qos` ceiling as a QoS. -/
def LimitsConfig.maxQosLevel (limits : LimitsConfig) : QoS :=
  if limits.maxQos = 0 then .atMostOnce
  else if limits.maxQos = 1 then .atLeastOnce
  else .exactlyOnce

/-- The mutual-TLS authentication outcome of a connection. -/
inductive TlsIdentity where
  | none
  | verified
  | cn (name : String)
  deriving DecidableEq, Repr

/-! ### Packets -/

inductive ConnectReturnCode where
  | success
  | clientIdentifierNotValid
  | badUserNamePassword
  | notAuthorized
  deriving DecidableEq, Repr

inductive DisconnectReasonCode where
  | normalDisconnection
  | disconnectWithWillMessage
  | protocolError
  | serverShuttingDown
  | keepAliveTimeout
  | topicNameInvalid
  | receiveMaximumExceeded
  | topicAliasInvalid
  /-- A reason only a client gives. -/
  | other (code : UInt8)
  deriving DecidableEq, Repr

/-- Reason code of a PUBACK or PUBREC. -/
inductive AckReason where
  | success
  | notAuthorized
  deriving DecidableEq, Repr

inductive SubscribeReasonCode where
  | granted (qos : QoS)
  | notAuthorized
  | topicFilterInvalid
  | quotaExceeded
  deriving DecidableEq, Repr

inductive RetainForwardRule where
  | onEverySubscribe
  | onNewSubscribe
  | never
  deriving DecidableEq, Repr

/-- The Will Message of a CONNECT. -/
structure LastWill where
  topic : String
  message : List UInt8
  qos : QoS
  retain : Bool := false
  delayInterval : Option UInt32 := none
  deriving DecidableEq, Repr

structure Login where
  username : String
  password : String
  deriving DecidableEq, Repr

/-- The CONNECT properties the broker reads. -/
structure ConnectProperties where
  sessionExpiryInterval : Option UInt32 := none
  receiveMaximum : Option UInt16 := none
  maxPacketSize : Option UInt32 := none
  topicAliasMax : Option UInt16 := none
  deriving DecidableEq, Repr

structure Connect where
  clientId : String
  cleanSession : Bool
  login : Option Login := none
  lastWill : Option LastWill := none
  properties : Option ConnectProperties := none
  deriving DecidableEq, Repr

structure SubscribeFilter where
  path : String
  qos : QoS
  nolocal : Bool := false
  preserveRetain : Bool := false
  retainForwardRule : RetainForwardRule := .onEverySubscribe
  deriving DecidableEq, Repr

structure Subscribe where
  pkid : UInt16
  filters : List SubscribeFilter
  /-- The Subscription Identifier property. -/
  id : Option ℕ := none
  deriving DecidableEq, Repr

structure Unsubscribe where
  pkid : UInt16
  filters : List String
  deriving DecidableEq, Repr

/-- A packet from the client. -/
inductive Packet where
  | connect (connect : Connect)
  | publish (publish : Publish)
  | subscribe (subscribe : Subscribe)
  | unsubscribe (unsubscribe : Unsubscribe)
  | pingReq
  | disconnect (reason : DisconnectReasonCode)
  | pubAck (pkid : UInt16)
  | pubRec (pkid : UInt16)
  | pubRel (pkid : UInt16)
  | pubComp (pkid : UInt16)
  /-- CONNACK, SUBACK, UNSUBACK or PINGRESP: a client must never send these. -/
  | serverOnly
  deriving DecidableEq, Repr

/-- The CONNACK properties that depend on the connection; the capabilities that are always announced
are left out. -/
structure ConnAckProperties where
  serverKeepAlive : Option UInt16 := none
  assignedClientIdentifier : Option String := none
  receiveMax : Option UInt16 := none
  maxPacketSize : Option ℕ := none
  maxQos : Option UInt8 := none
  retainAvailable : Option UInt8 := none
  topicAliasMax : Option UInt16 := none
  deriving DecidableEq, Repr

/-- A packet to the client. -/
inductive Reply where
  | connAck (code : ConnectReturnCode) (sessionPresent : Bool) (properties : ConnAckProperties)
  | publish (publish : Publish)
  | subAck (pkid : UInt16) (returnCodes : List SubscribeReasonCode)
  /-- UNSUBACK with that many Success reasons. -/
  | unsubAck (pkid : UInt16) (reasons : ℕ)
  | pingResp
  | disconnect (reason : DisconnectReasonCode)
  | pubAck (pkid : UInt16) (reason : AckReason)
  | pubRec (pkid : UInt16) (reason : AckReason)
  | pubRel (pkid : UInt16)
  | pubComp (pkid : UInt16)
  deriving DecidableEq, Repr

/-! ### The connection's state -/

inductive ErrorKind where
  | invalidData
  | connectionAborted
  | permissionDenied
  /-- The socket write failed. -/
  | broken
  deriving DecidableEq, Repr

/-- An error that unwinds the event loop. -/
structure ConnError where
  kind : ErrorKind
  text : String
  deriving DecidableEq, Repr

abbrev Outcome := Except ConnError Unit

/-- Inbound and outbound topic-alias tables. The source allocates them on first use; absent tables
are empty ones. -/
structure AliasTables where
  /-- Alias → topic, for aliases the client registered. -/
  inbound : HashMap UInt16 String := ∅
  /-- Topic → alias, for aliases assigned on the way out. -/
  outbound : HashMap String UInt16 := ∅

/-- What became of the QoS > 0 messages of a connection. No part of the program: nothing reads it.
-/
structure Ledger where
  /-- Deliveries taken from the mailbox, oldest first. -/
  received : List Delivery := []
  /-- Messages that came from elsewhere: the restored in-flight table and offline queue, and the
  retained messages of a SUBSCRIBE. -/
  replayed : Multiset Publish := 0
  /-- Messages the client acknowledged to the end. -/
  acked : Multiset Publish := 0
  /-- Messages dropped by `pendingOutboundLimit` or the client's Maximum Packet Size. -/
  dropped : Multiset Publish := 0
  /-- Messages that could not be encoded. -/
  failed : Multiset Publish := 0

/-- Where a connection task stands. -/
inductive Phase where
  /-- In the event loop. -/
  | running
  /-- In `handle_connect`, awaiting that many replies to a session claim. -/
  | claiming (remaining : ℕ) (assigned : Bool)
  /-- Rebuilt from a parked connection; the session is yet to be re-attached. -/
  | resuming
  /-- The event loop has returned; the session is yet to be released. -/
  | ending
  /-- The session is released; the Will Message is yet to be published. -/
  | willing (will : Publish)
  deriving DecidableEq, Repr

/-- The state of one client connection. -/
structure Connection where
  phase : Phase := .running
  shardId : ℕ := 0
  clientId : String := ""
  /-- The mailbox's sender, until CONNECT hands it to the shard. -/
  mailboxTx : Option ℕ
  /-- The mailbox's receiver. -/
  mailboxRx : ℕ
  /-- Inbound QoS 2 messages received but not yet released, by the publisher's packet id. -/
  incomingQos2 : HashMap UInt16 Publish := ∅
  /-- Outbound QoS 1/2 messages awaiting their acknowledgement. -/
  inflight : HashMap UInt16 InflightMessage := ∅
  nextPkid : UInt16 := 0
  limits : LimitsConfig := {}
  sessionExpiry : UInt32 := 0
  sessionGeneration : ℕ := 0
  will : Option Publish := none
  willDelay : UInt32 := 0
  peerReceiveMax : UInt16 := 65535
  peerMaxPacketSize : Option UInt32 := none
  /-- Outbound QoS 1/2 messages held back by a full in-flight window. -/
  pendingOutbound : List Delivery := []
  username : Option String := none
  peerTopicAliasMax : UInt16 := 0
  aliases : AliasTables := {}
  connected : Bool := false
  tlsIdentity : TlsIdentity := .none
  subscriptionCount : ℕ := 0
  /-- The packets encoded so far. -/
  outbound : List Reply := []
  /-- This connection's share of the sent-message counter. -/
  messagesSent : ℕ := 0
  ledger : Ledger := {}

/-- What the connections of a broker share: the configuration, and the functions that come from
elsewhere. -/
structure Env where
  wire : Wire
  /-- The length of a packet other than a PUBLISH, as it is written. -/
  packetLen : Reply → ℕ
  hash : ContentHash
  hashing : PasswordHashing
  auth : Authenticator
  /-- The order in which a hash map with these keys is iterated. -/
  iterOrder : List UInt16 → List UInt16 := id
  iterOrder_perm : ∀ keys, (iterOrder keys).Perm keys := by exact fun _ => .refl _

/-- The length of a packet. -/
def Env.replyLen (env : Env) : Reply → ℕ
  | .publish p =>
    match env.wire.write p with
    | .ok bytes => bytes.length
    | .error _ => 0
  | reply => env.packetLen reply

/-! ### Messages on their way out -/

/-- The PUBLISH a delivery becomes, before it has a packet id: this subscriber's QoS, retain flag
and Subscription Identifiers, and never the publisher's Topic Alias. -/
def Delivery.outgoing (d : Delivery) : Publish :=
  let message := { d.publish with qos := d.qos, dup := false, retain := d.retain }
  if d.subIds ≠ [] ∨ message.properties.isSome then
    { message with
      properties := some
        { message.properties.getD {} with
          topicAlias := none
          subscriptionIdentifiers := d.subIds } }
  else message

/-- The message a delivery carries to the client, whatever packet id it gets. -/
def Delivery.message (d : Delivery) : Publish := { d.outgoing with pkid := 0 }

/-- The message an in-flight entry carries, whatever its packet id. -/
def InflightMessage.message (m : InflightMessage) : Publish := { m.publish with pkid := 0 }

/-- The QoS > 0 messages of a queue. -/
def unsent (queue : List Delivery) : Multiset Publish :=
  (queue.filter (·.qos ≠ .atMostOnce)).map Delivery.message

/-- The messages of an in-flight table. -/
def unacked (inflight : HashMap UInt16 InflightMessage) : Multiset Publish :=
  inflight.entries.map (·.2.message)

/-- `topic_alias = Some(alias)` on a message. -/
def Publish.withAlias (message : Publish) (topicAlias : UInt16) : Publish :=
  { message with
    properties := some { message.properties.getD {} with topicAlias := some topicAlias } }

namespace Connection

/-- Encodes a packet other than a PUBLISH into the output buffer. -/
def send (c : Connection) (reply : Reply) : Connection :=
  { c with outbound := c.outbound ++ [reply] }

/-- Queues a server-initiated DISCONNECT. -/
def sendDisconnect (c : Connection) (reason : DisconnectReasonCode) : Connection :=
  c.send (.disconnect reason)

/-- `?` on a result: goes on from a success, hands an error up. -/
def andThen (r : Connection × Outcome) (k : Connection → Connection × Outcome) :
    Connection × Outcome :=
  match r.2 with
  | .ok () => k r.1
  | .error e => (r.1, .error e)

lemma andThen_rel {R : Connection → Connection → Prop} {c : Connection} {r : Connection × Outcome}
    {k : Connection → Connection × Outcome} (htrans : R c r.1 → R r.1 (k r.1).1 → R c (k r.1).1)
    (hr : R c r.1) (hk : R r.1 (k r.1).1) : R c (andThen r k).1 := by
  unfold andThen
  split
  · exact htrans hr hk
  · exact hr

/-- The outbound in-flight ceiling: the smaller of the client's Receive Maximum and `max_inflight`,
and always at least 1. -/
def outboundWindow (c : Connection) : ℕ :=
  max (min c.peerReceiveMax c.limits.maxInflight).toNat 1

/-- Whether the in-flight window has room. -/
def hasRoom (c : Connection) : Bool :=
  c.inflight.entries.length < c.outboundWindow

/-! ### Packet ids -/

/-- The id after `pkid`: zero is skipped. -/
def succPkid (pkid : UInt16) : UInt16 :=
  if pkid + 1 = 0 then 1 else pkid + 1

/-- The next unused packet id. The source searches without a bound; after 65535 candidates it has
seen every id, so a bounded search finds an id whenever there is one. -/
def allocPkid (c : Connection) : UInt16 :=
  (Lib.probe succPkid (fun pkid => (c.inflight.lookup pkid).isSome) 65535 c.nextPkid).getD 0

/-- Gives a message its packet id and, for QoS > 0, the stage it enters the in-flight table at. -/
def assignPkid (c : Connection) (qos : QoS) (message : Publish) :
    Connection × Publish × Option InflightState :=
  match qos with
  | .atMostOnce => (c, { message with pkid := 0 }, none)
  | .atLeastOnce =>
    ({ c with nextPkid := c.allocPkid }, { message with pkid := c.allocPkid }, some .qos1)
  | .exactlyOnce =>
    ({ c with nextPkid := c.allocPkid }, { message with pkid := c.allocPkid }, some .qos2Pending)

/-! ### Outbound topic aliases -/

/-- Applies an outbound alias: the tables afterwards, the message for the wire, and the topic if it
was registered just now. -/
def applyAlias (c : Connection) (message : Publish) : AliasTables × Publish × Option String :=
  if 0 < c.peerTopicAliasMax then
    match c.aliases.outbound.lookup message.topic with
    -- a repeat goes out as just the alias, with an empty topic name
    | some existing => (c.aliases, { message.withAlias existing with topic := "" }, none)
    | none =>
      let assigned := UInt16.ofNat c.aliases.outbound.entries.length
      if assigned < c.peerTopicAliasMax then
        ({ c.aliases with outbound := c.aliases.outbound.insert message.topic (assigned + 1) },
          message.withAlias (assigned + 1), some message.topic)
      else (c.aliases, message, none)
  else (c.aliases, message, none)

/-- Takes a registration back that the client will never see. -/
def rollbackAlias (aliases : AliasTables) (newlyAliased : Option String) : AliasTables :=
  match newlyAliased with
  | some topic => { aliases with outbound := aliases.outbound.erase topic }
  | none => aliases

/-! ### Sending -/

/-- The in-flight table with a message that was just sent: the copy for a retransmission keeps the
full topic. -/
def record (c : Connection) (message : Publish) (stage : Option InflightState) : Connection :=
  match stage with
  | some state => { c with inflight := c.inflight.insert message.pkid ⟨message, state⟩ }
  | none => c

/-- The QoS > 0 message of a send, for the ledger. -/
def counted (message : Publish) (stage : Option InflightState) : Multiset Publish :=
  if stage.isSome then {{ message with pkid := 0 }} else 0

/-- Encodes a message that has its packet id, under an outbound alias if there is one, and records
it if it needs an acknowledgement. -/
def transmit (env : Env) (c : Connection) (message : Publish) (stage : Option InflightState) :
    Connection × Outcome :=
  let (aliases, onWire, newlyAliased) := c.applyAlias message
  match env.wire.write onWire with
  | .error e =>
    ({ c with
        aliases := rollbackAlias aliases newlyAliased
        ledger.failed := c.ledger.failed + counted message stage },
      .error ⟨.invalidData, e⟩)
  | .ok bytes =>
    -- a packet above the client's Maximum Packet Size can never be delivered
    if c.peerMaxPacketSize.any (fun max => max.toNat < bytes.length) then
      ({ c with
          aliases := rollbackAlias aliases newlyAliased
          ledger.dropped := c.ledger.dropped + counted message stage },
        .ok ())
    else
      (record
        { c with
          aliases := aliases
          outbound := c.outbound ++ [.publish onWire]
          messagesSent := c.messagesSent + 1 } message stage,
        .ok ())

/-- Queues a routed message for this client at its effective QoS and retain flag. -/
def sendPublish (env : Env) (c : Connection) (d : Delivery) : Connection × Outcome :=
  let (c, message, stage) := c.assignPkid d.qos d.outgoing
  c.transmit env message stage

/-- Holds a delivery back. A full queue drops its oldest message. -/
def holdBack (c : Connection) (d : Delivery) : Connection :=
  if pendingOutboundLimit ≤ c.pendingOutbound.length then
    { c with
      pendingOutbound := c.pendingOutbound.tail ++ [d]
      ledger.dropped := c.ledger.dropped + unsent (c.pendingOutbound.take 1) }
  else { c with pendingOutbound := c.pendingOutbound ++ [d] }

/-- Sends a delivery if the in-flight window has room (QoS 0 always goes out), otherwise holds it
back. -/
def deliver (env : Env) (c : Connection) (d : Delivery) : Connection × Outcome :=
  if d.qos = .atMostOnce ∨ c.hasRoom then c.sendPublish env d
  else (c.holdBack d, .ok ())

/-- The loop of `drain_pending` over the messages held back. -/
def drainLoop (env : Env) (c : Connection) : List Delivery → Connection × Outcome
  | [] => ({ c with pendingOutbound := [] }, .ok ())
  | d :: rest =>
    if c.hasRoom then
      andThen (sendPublish env { c with pendingOutbound := rest } d) fun c => drainLoop env c rest
    else ({ c with pendingOutbound := d :: rest }, .ok ())

/-- Releases held-back messages up to the in-flight window. -/
def drainPending (env : Env) (c : Connection) : Connection × Outcome :=
  c.drainLoop env c.pendingOutbound

/-! ### Resuming -/

/-- Retransmits the unacknowledged messages of the in-flight table. -/
def retransmit (env : Env) (c : Connection) : List UInt16 → Connection × Outcome
  | [] => (c, .ok ())
  | pkid :: rest =>
    match c.inflight.lookup pkid with
    | none => retransmit env c rest
    | some entry =>
      match entry.state with
      -- PUBLISH already acknowledged via PUBREC: resume at PUBREL.
      | .qos2Released => retransmit env (c.send (.pubRel pkid)) rest
      | .qos1 | .qos2Pending =>
        let publish := { entry.publish with pkid, dup := true }
        match env.wire.write publish with
        | .error e => (c, .error ⟨.invalidData, e⟩)
        | .ok _ => retransmit env (c.send (.publish publish)) rest

/-- A delivery that did not come through the mailbox. -/
def replay (env : Env) (c : Connection) (d : Delivery) : Connection × Outcome :=
  { c with ledger.replayed := c.ledger.replayed + unsent [d] }.deliver env d

/-- The bytes of the packets after the first `flushed`, which have left the output buffer. -/
def buffered (env : Env) (c : Connection) (flushed : ℕ) : ℕ :=
  ((c.outbound.drop flushed).map env.replyLen).sum

/-- Flushes a full output buffer: how many packets have left it then, or `none` if the flush fails.
`flushFails` says after how many more deliveries a flush fails, if there is one. -/
def flushFull (env : Env) (c : Connection) (flushed : ℕ) (flushFails : Option ℕ) :
    Option (ℕ × Option ℕ) :=
  let later := flushFails.bind fun k => if k = 0 then none else some (k - 1)
  if c.buffered env flushed < flushThreshold then some (flushed, later)
  else if flushFails = some 0 then none
  else some (c.outbound.length, later)

/-- Delivers what was buffered while the client was away. -/
def replayAll (env : Env) (c : Connection) (flushed : ℕ) (flushFails : Option ℕ) :
    List Delivery → Connection × Outcome
  | [] => (c, .ok ())
  | d :: rest =>
    andThen (c.replay env d) fun c =>
      match c.flushFull env flushed flushFails with
      | none => (c, .error ⟨.broken, "write failed"⟩)
      | some (flushed, flushFails) => replayAll env c flushed flushFails rest

/-- Goes on after the retransmissions: nothing was flushed yet. -/
def flushAndReplay (env : Env) (c : Connection) (flushFails : Option ℕ)
    (offlineQueue : List Delivery) : Connection × Outcome :=
  match c.flushFull env 0 flushFails with
  | none => (c, .error ⟨.broken, "write failed"⟩)
  | some (flushed, flushFails) => c.replayAll env flushed flushFails offlineQueue

/-- Restores message flow on a resumed session: first the unacknowledged in-flight messages, then
everything buffered while the client was away. -/
def resumeDelivery (env : Env) (c : Connection) (flushFails : Option ℕ)
    (offlineQueue : List Delivery) : Connection × Outcome :=
  andThen (c.retransmit env (env.iterOrder c.inflight.keys)) fun c =>
    c.flushAndReplay env flushFails offlineQueue

/-- The restored durable QoS state. -/
def restore (c : Connection) (snapshot : SessionSnapshot) : Connection :=
  { c with
    inflight := snapshot.inflight
    incomingQos2 := snapshot.incomingQos2
    nextPkid := snapshot.nextPkid
    ledger.replayed := c.ledger.replayed + unacked snapshot.inflight }

/-! ### Acknowledgements, PING and DISCONNECT -/

/-- Completes an outbound transaction: PUBACK for QoS 1, PUBCOMP for QoS 2. A held message takes the
freed slot. -/
def release (env : Env) (c : Connection) (pkid : UInt16) : Connection × Outcome :=
  match c.inflight.lookup pkid with
  | none => (c, .ok ())
  | some entry =>
    drainPending env
      { c with
        inflight := c.inflight.erase pkid
        ledger.acked := c.ledger.acked + {entry.message} }

def handlePuback (env : Env) (c : Connection) (pkid : UInt16) : Connection × Outcome :=
  c.release env pkid

def handlePubcomp (env : Env) (c : Connection) (pkid : UInt16) : Connection × Outcome :=
  c.release env pkid

/-- The client received a QoS 2 PUBLISH: the transaction is released. -/
def handlePubrec (c : Connection) (pkid : UInt16) : Connection × Outcome :=
  let c :=
    match c.inflight.lookup pkid with
    | some entry =>
      if entry.state = InflightState.qos2Pending then
        { c with inflight := c.inflight.insert pkid { entry with state := .qos2Released } }
      else c
    | none => c
  (c.send (.pubRel pkid), .ok ())

def handlePing (c : Connection) : Connection × Outcome :=
  (c.send .pingResp, .ok ())

/-- A normal DISCONNECT suppresses the will; any other reason leaves it to fire. -/
def handleDisconnect (c : Connection) (reason : DisconnectReasonCode) : Connection × Outcome :=
  (if reason = .normalDisconnection then { c with will := none } else c,
    .error ⟨.connectionAborted, "Client Disconnected"⟩)

end Connection

end Rusquitto
