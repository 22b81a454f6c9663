import Rusquitto.Broker.Shard
import Rusquitto.Topics.Matching

/-!
# Fan-out

Turning one published message into per-subscriber deliveries, and the retained-message table, from
`broker/shard/routing.rs`. The content hash behind the shared-group pick is a parameter: nothing
here depends on which hash the standard library computes, only on every shard computing the same.
-/

namespace Rusquitto

/-- The hash of a message's topic and payload bytes. -/
abbrev ContentHash := List UInt8 → UInt64

/-- The chosen subscription for a client during routing. -/
structure Match where
  qos : QoS
  nolocal : Bool
  retainAsPublished : Bool
  subIds : List ℕ := []
  deriving DecidableEq, Repr

/-- The entry of a client whose first matching subscription is `sub`. -/
def Match.ofSub (sub : Subscription) : Match where
  qos := sub.qos
  nolocal := sub.nolocal
  retainAsPublished := sub.retainAsPublished

/-- Folds one more matching subscription into a client's entry: the highest QoS gives the options,
every identifier is kept. -/
def Match.absorb (entry : Match) (sub : Subscription) : Match :=
  let entry :=
    if entry.qos.toNat < sub.qos.toNat then
      { entry with
        qos := sub.qos
        nolocal := sub.nolocal
        retainAsPublished := sub.retainAsPublished }
    else entry
  match sub.subId with
  | some id => if id ∈ entry.subIds then entry else { entry with subIds := entry.subIds ++ [id] }
  | none => entry

/-- Adds a matching subscription to a bucket keyed by client id. -/
def addMatch (bucket : HashMap String Match) (sub : Subscription) : HashMap String Match :=
  bucket.insert sub.clientId (((bucket.lookup sub.clientId).getD (Match.ofSub sub)).absorb sub)

/-- The matching subscriptions, collapsed to one entry per client: ordinary ones in `best`, shared
ones by group name. -/
structure Buckets where
  best : HashMap String Match := ∅
  groups : HashMap String (HashMap String Match) := ∅

/-- One turn of the collapsing loop. -/
def Buckets.add (b : Buckets) (sub : Subscription) : Buckets :=
  match sub.shareGroup with
  | none => { b with best := addMatch b.best sub }
  | some group =>
    { b with groups := b.groups.insert group (addMatch ((b.groups.lookup group).getD ∅) sub) }

/-- The buckets of a list of matching subscriptions. -/
def collapse (subs : List Subscription) : Buckets :=
  subs.foldl Buckets.add {}

/-- Deterministic member index for a shared-group delivery. -/
def sharedPickIndex (hash : ContentHash) (topic : String) (payload : List UInt8)
    (members : ℕ) : ℕ :=
  (hash (asBytes topic ++ payload)).toNat % members

/-- Appends to an offline queue, dropping the oldest entry of a full one. -/
def pushBounded (queue : List Delivery) (delivery : Delivery) : List Delivery :=
  (if offlineQueueLimit ≤ queue.length then queue.tail else queue) ++ [delivery]

/-- A session without a mailbox that takes a delivery into its queue. -/
def Session.enqueue (session : Session) (delivery : Delivery) : Session :=
  { session with offlineQueue := pushBounded session.offlineQueue delivery }

namespace ShardState

/-- Delivers one message to a single client's session. -/
def deliverTo (s : ShardState) (clientId : String) (delivery : Delivery) : ShardState :=
  match s.sessions.lookup clientId with
  | none => s
  | some session =>
    match session.mailbox with
    | some mailbox =>
      if (s.channels mailbox).length < mailboxLimit then
        { s with
          channels := Function.update s.channels mailbox (s.channels mailbox ++ [delivery]) }
      else s
    | none =>
      if session.parked then
        -- Parked is connected: QoS 0 is queued too, and one wake resurrects the connection.
        { s with
          sessions := s.sessions.insert clientId
            { session.enqueue delivery with wakePending := true }
          unparkTx :=
            if session.wakePending then s.unparkTx
            else s.unparkTx.map (· ++ [.wake clientId]) }
      else if delivery.qos ≠ .atMostOnce then
        { s with
          sessions := s.sessions.insert clientId (session.enqueue delivery) }.walDirty clientId
      else s

/-- The delivery a matched client receives. -/
def deliveryFor (publish : Publish) (wasRetained : Bool) (m : Match) : Delivery where
  publish := publish
  qos := minQos publish.qos m.qos
  retain := wasRetained && m.retainAsPublished
  subIds := m.subIds

/-- The ordinary subscribers' turn: one copy each, never back to a No Local publisher. -/
def deliverBest (s : ShardState) (publish : Publish) (publisher : Option String)
    (wasRetained : Bool) (clientId : String) (m : Match) : ShardState :=
  if m.nolocal ∧ publisher = some clientId then s
  else s.deliverTo clientId (deliveryFor publish wasRetained m)

/-- The candidates of a group that are connected here, in order. -/
def onlineMembers (s : ShardState) (members : HashMap String Match) : List String :=
  (members.keys.insertionSort (· ≤ ·)).filter fun id => (s.sessions.lookup id).any (·.online)

/-- The members of a group on other shards, when the replicated view has any. -/
def remoteMembers (s : ShardState) (group : String) : Option (List String) :=
  (s.sharedRemote.lookup group).filter (· ≠ [])

/-- The pick over the merged view of connected members everywhere. Only the shard that owns the
chosen member delivers. -/
def globalPick (hash : ContentHash) (publish : Publish) (online remote : List String) :
    Option String :=
  let all := ((online ++ remote).insertionSort (· ≤ ·)).dedup
  let choice := all[sharedPickIndex hash publish.topic publish.payload all.length]?
  online.find? fun id => some id = choice

/-- The round-robin cursor of a group. -/
def cursorOf (s : ShardState) (group : String) : ℕ :=
  (s.sharedCursor.lookup group).getD 0

/-- The pick of a purely local group: round-robin, a suspended member only when none is
connected. -/
def localPick (s : ShardState) (group : String) (members : HashMap String Match) :
    Option String :=
  let online := s.onlineMembers members
  let pool := if online = [] then members.keys.insertionSort (· ≤ ·) else online
  pool[s.cursorOf group % pool.length]?

/-- The member that receives the message here, or `none` when the pick fell on a member of another
shard. -/
def pickMember (s : ShardState) (hash : ContentHash) (publish : Publish) (group : String)
    (members : HashMap String Match) : Option String :=
  match s.remoteMembers group with
  | some remote => globalPick hash publish (s.onlineMembers members) remote
  | none => s.localPick group members

/-- Advances the cursor of a purely local group. -/
def advanceCursor (s : ShardState) (group : String) : ShardState :=
  match s.remoteMembers group with
  | some _ => s
  | none =>
    { s with sharedCursor := s.sharedCursor.insert group ((s.cursorOf group + 1) % 2 ^ 64) }

/-- A shared group's turn. -/
def deliverGroup (s : ShardState) (hash : ContentHash) (publish : Publish) (wasRetained : Bool)
    (group : String) (members : HashMap String Match) : ShardState :=
  let picked := s.pickMember hash publish group members
  let s := s.advanceCursor group
  match picked with
  | none => s
  | some clientId =>
    match members.lookup clientId with
    | none => s
    | some m => s.deliverTo clientId (deliveryFor publish wasRetained m)

/-- Fans a message out to the local subscribers whose filter matches the publish topic. -/
def route (s : ShardState) (hash : ContentHash) (publish : Publish) (publisher : Option String)
    (wasRetained : Bool) : ShardState :=
  let buckets := collapse (s.trie.matching publish.topic)
  let s := buckets.best.entries.foldl
    (fun s e => s.deliverBest publish publisher wasRetained e.1 e.2) s
  buckets.groups.entries.foldl
    (fun s e => s.deliverGroup hash publish wasRetained e.1 e.2) s

/-- Inserts or clears a retained message. -/
def updateRetain (s : ShardState) (publish : Publish) : ShardState :=
  if publish.payload = [] then { s with retained := s.retained.erase publish.topic }
  else if 0 < s.retainedLimit ∧ s.retainedLimit ≤ s.retained.keys.length ∧
      s.retained.lookup publish.topic = none then s
  else { s with retained := s.retained.insert publish.topic publish }

/-- Routes one publish on this shard: updates the retain table, then fans out. -/
def deliverLocal (s : ShardState) (hash : ContentHash) (publish : Publish)
    (publisher : Option String) : ShardState :=
  let wasRetained := publish.retain
  let s := if wasRetained then s.updateRetain publish else s
  s.route hash { publish with retain := false } publisher wasRetained

/-- The retained messages whose topic matches a subscription filter. -/
def retainedMatching (s : ShardState) (filter : String) : List Publish :=
  Rusquitto.retainedMatching s.retained.values filter

/-- Restores retained messages from a snapshot, respecting the cap. -/
def loadRetained (s : ShardState) (messages : List Publish) : ShardState :=
  messages.foldl
    (fun s message =>
      -- Empty-payload "clears" are never persisted, but the source skips them.
      if message.payload = [] then s else s.updateRetain message) s

end ShardState

end Rusquitto
