import Mathlib.Data.List.AList
import Rusquitto.Topics.TopicTrie

/-!
# Value types of the broker

Deliveries, durable session state and the messages between shards, from `delivery.rs`,
`session.rs` and `messages.rs`. A `HashMap` is an `AList`, read by key; nothing depends on the
order of its entries unless it is named. A `usize` is a natural number and an `Instant` counts
nanoseconds.
-/

namespace Rusquitto

/-- A hash map from `K` to `V`. -/
abbrev HashMap (K V : Type) := AList fun _ : K => V

/-- Upper bound on QoS > 0 messages buffered for a suspended session. -/
def offlineQueueLimit : ℕ := 1024

/-- Upper bound on deliveries queued in a connected session's mailbox. -/
def mailboxLimit : ℕ := 256

/-- A message routed toward a connection for delivery. -/
structure Delivery where
  publish : Publish
  /-- This subscriber's effective QoS. -/
  qos : QoS
  /-- Retain flag for the delivered PUBLISH. -/
  retain : Bool := false
  /-- Subscription Identifiers to echo. -/
  subIds : List ℕ := []
  deriving DecidableEq, Repr, Inhabited

/-- Stage of an outbound QoS 1/2 message awaiting acknowledgement. -/
inductive InflightState where
  | qos1
  | qos2Pending
  | qos2Released
  deriving DecidableEq, Repr, Inhabited

/-- An outbound QoS 1/2 message in flight. -/
structure InflightMessage where
  publish : Publish
  state : InflightState
  deriving DecidableEq, Repr, Inhabited

/-- The durable QoS state a connection hands to its session on disconnect and receives back on
resume. -/
structure SessionSnapshot where
  /-- Outbound QoS 1/2 messages sent but not fully acknowledged. -/
  inflight : HashMap UInt16 InflightMessage := ∅
  /-- Inbound QoS 2 messages received but not yet released. -/
  incomingQos2 : HashMap UInt16 Publish := ∅
  /-- Where the outbound packet-id allocator left off. -/
  nextPkid : UInt16 := 0

/-- A whole session as it migrates to another shard or to disk. The offline queue is a list of
deliveries: the source's tuples have the same four components. -/
structure MigratedSession where
  subscriptions : List FlatSub := []
  inflight : HashMap UInt16 InflightMessage := ∅
  incomingQos2 : HashMap UInt16 Publish := ∅
  nextPkid : UInt16 := 0
  offline : List Delivery := []

/-- A durable session captured for on-disk persistence. -/
structure PersistedSession where
  clientId : String
  /-- Remaining seconds until the session expires; `u32::MAX` means never. -/
  expirySecs : UInt32
  session : MigratedSession

/-- Outcome of opening a session at CONNECT. -/
structure SessionHandle where
  /-- Whether an existing session was resumed (CONNACK `session_present`). -/
  resumed : Bool
  /-- The generation this connection owns; passed back to `closeSession`. -/
  generation : ℕ
  /-- Durable QoS state to restore. -/
  snapshot : SessionSnapshot := {}
  /-- Messages buffered while offline. -/
  offlineQueue : List Delivery := []

/-- A command from the broker layer to the shard's parking task. -/
inductive UnparkCmd where
  /-- A delivery landed for a parked client: resurrect its connection task. -/
  | wake (clientId : String)
  /-- The parked fd must be closed without resuming. -/
  | close (clientId : String) (generation : ℕ)
  deriving DecidableEq, Repr

/-- Shared-subscription membership replication. -/
inductive SharedEvent where
  /-- A connected client on some shard now holds a subscription in `group`. -/
  | join (group clientId : String)
  /-- The client no longer holds a connected subscription in `group`. -/
  | leave (group clientId : String)
  deriving DecidableEq, Repr

/-- Cross-shard session-migration protocol. -/
inductive SessionControl where
  /-- The client connected to shard `requester`; hand over its session, or discard it when
  `resume` is false. -/
  | claim (clientId : String) (requester : ℕ) (resume : Bool)
  /-- Reply to a claim. -/
  | handoff (clientId : String) (session : Option MigratedSession)

/-- A message crossing the inter-shard mesh. -/
inductive MeshMsg where
  | publish (publish : Publish)
  | control (control : SessionControl)
  | shared (event : SharedEvent)

end Rusquitto
