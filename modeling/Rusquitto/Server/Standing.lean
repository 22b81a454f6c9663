import Rusquitto.Server.Runs

/-!
# What a connection is, apart from its traffic

Most of a connection's work is traffic to its client: deliveries go out under packet ids and topic
aliases, are held back, retransmitted, acknowledged. None of it touches what the client negotiated
or submitted. `Connection.standing` collects that part of the state, and the lemmas here say which
handler changes what of it.
-/

namespace Rusquitto

namespace Connection

/-- What a connection is, apart from the traffic to its client. -/
structure Standing where
  identity : Identity
  shardId : ℕ
  limits : LimitsConfig
  tlsIdentity : TlsIdentity
  will : Option Publish
  willDelay : UInt32
  peerReceiveMax : UInt16
  peerMaxPacketSize : Option UInt32
  peerTopicAliasMax : UInt16
  incomingQos2 : HashMap UInt16 Publish
  inboundAliases : HashMap UInt16 String
  subscriptionCount : ℕ

def standing (c : Connection) : Standing where
  identity := c.identity
  shardId := c.shardId
  limits := c.limits
  tlsIdentity := c.tlsIdentity
  will := c.will
  willDelay := c.willDelay
  peerReceiveMax := c.peerReceiveMax
  peerMaxPacketSize := c.peerMaxPacketSize
  peerTopicAliasMax := c.peerTopicAliasMax
  incomingQos2 := c.incomingQos2
  inboundAliases := c.aliases.inbound
  subscriptionCount := c.subscriptionCount

/-! ### Traffic to the client -/

section Traffic

variable (env : Env) (c : Connection)

lemma standing_andThen {st : Standing} {r : Connection × Outcome}
    {k : Connection → Connection × Outcome} (hr : r.1.standing = st)
    (hk : ∀ c, c.standing = st → (k c).1.standing = st) : (andThen r k).1.standing = st := by
  unfold andThen
  split
  · exact hk _ hr
  · exact hr

lemma inbound_applyAlias (message : Publish) :
    (c.applyAlias message).1.inbound = c.aliases.inbound := by
  unfold applyAlias
  split
  · split
    · rfl
    · dsimp only
      split <;> rfl
  · rfl

lemma inbound_rollbackAlias (aliases : AliasTables) (newlyAliased : Option String) :
    (rollbackAlias aliases newlyAliased).inbound = aliases.inbound := by
  cases newlyAliased <;> rfl

section

variable (message : Publish) (stage : Option InflightState)

lemma standing_record : (c.record message stage).standing = c.standing := by
  cases stage <;> rfl

lemma standing_transmit : (c.transmit env message stage).1.standing = c.standing := by
  have hinbound := c.inbound_applyAlias message
  unfold transmit
  generalize c.applyAlias message = applied at hinbound
  obtain ⟨aliases, onWire, newlyAliased⟩ := applied
  have hback := (inbound_rollbackAlias aliases newlyAliased).trans hinbound
  dsimp only at hinbound ⊢
  split
  · simp only [standing, identity, hback]
  · split
    · simp only [standing, identity, hback]
    · rw [standing_record]
      simp only [standing, identity, hinbound]

end

lemma standing_assignPkid (qos : QoS) (message : Publish) :
    (c.assignPkid qos message).1.standing = c.standing := by
  cases qos <;> rfl

lemma standing_sendPublish (d : Delivery) : (c.sendPublish env d).1.standing = c.standing :=
  (standing_transmit env _ _ _).trans (standing_assignPkid c d.qos d.outgoing)

lemma standing_deliver (d : Delivery) : (c.deliver env d).1.standing = c.standing := by
  unfold deliver
  split
  · exact standing_sendPublish env c d
  · unfold holdBack
    split <;> rfl

lemma standing_receive (d : Delivery) : (c.receive env d).1.standing = c.standing :=
  (standing_deliver env _ d).trans rfl

lemma standing_replayAll (queue : List Delivery) (flushed : ℕ) (flushFails : Option ℕ) :
    (c.replayAll env flushed flushFails queue).1.standing = c.standing := by
  induction queue generalizing c flushed flushFails with
  | nil => rfl
  | cons d rest ih =>
    refine standing_andThen ((standing_deliver env _ d).trans rfl) fun c' hc' => ?_
    split
    · exact hc'
    · exact (ih c' _ _).trans hc'

lemma standing_retransmit (pkids : List UInt16) :
    (c.retransmit env pkids).1.standing = c.standing := by
  obtain ⟨_, _, -, h, -⟩ := retransmit_spec env pkids c
  rw [h]
  rfl

lemma standing_resumeDelivery (flushFails : Option ℕ) (queue : List Delivery) :
    (c.resumeDelivery env flushFails queue).1.standing = c.standing := by
  refine standing_andThen (standing_retransmit env c _) fun c' hc' => ?_
  obtain ⟨e, h⟩ | ⟨flushed, k, h⟩ := flushAndReplay_cases env c' flushFails queue
  · exact h ▸ hc'
  · exact h ▸ (standing_replayAll env c' queue flushed k).trans hc'

lemma standing_drainLoop (queue : List Delivery) :
    (c.drainLoop env queue).1.standing = c.standing := by
  induction queue generalizing c with
  | nil => rfl
  | cons d rest ih =>
    unfold drainLoop
    split
    · exact standing_andThen ((standing_sendPublish env _ d).trans rfl) fun c' hc' =>
        (ih c').trans hc'
    · rfl

lemma standing_release (pkid : UInt16) : (c.release env pkid).1.standing = c.standing := by
  unfold release
  split
  · rfl
  · exact (standing_drainLoop env _ _).trans rfl

lemma standing_handlePubrec (pkid : UInt16) : (c.handlePubrec pkid).1.standing = c.standing := by
  unfold handlePubrec
  split
  · split <;> rfl
  · rfl

end Traffic

/-! ### Packets from the client -/

section Packets

variable (env : Env) (c : Connection) (shard : ShardState) (chance : Chance)

lemma standing_handlePublish (publish : Publish) : ∃ incomingQos2 inboundAliases,
    (c.handlePublish env shard chance publish).conn.standing =
      { c.standing with incomingQos2, inboundAliases } := by
  obtain ⟨_, _, _, h⟩ := handlePublish_frame env c shard chance publish
  exact h ▸ ⟨_, _, rfl⟩

lemma standing_handlePubrel (pkid : UInt16) : ∃ incomingQos2,
    (c.handlePubrel env shard chance pkid).conn.standing = { c.standing with incomingQos2 } := by
  obtain ⟨_, _, h⟩ := handlePubrel_frame env c shard chance pkid
  exact h ▸ ⟨_, rfl⟩

lemma standing_handleSubscribe (subscribe : Subscribe) : ∃ subscriptionCount,
    (c.handleSubscribe env shard subscribe).conn.standing =
      { c.standing with subscriptionCount } := by
  obtain ⟨_, h⟩ := subscribeAll_frame env subscribe.id subscribe.filters { conn := c, shard }
  have hst := congrArg standing h
  exact ⟨_, (standing_replayAll env _ _ 0 none).trans hst⟩

lemma standing_unsubscribeAll (filters : List String) (acc : Connection × ShardState) :
    ∃ subscriptionCount, (filters.foldl unsubscribeOne acc).1.standing =
      { acc.1.standing with subscriptionCount } := by
  obtain ⟨_, h⟩ := unsubscribeAll_frame filters acc
  exact h ▸ ⟨_, rfl⟩

/-- Past its handshake a connection changes its aliases, its QoS 2 messages and its count of
subscriptions. Only a normal DISCONNECT touches the will. -/
lemma standing_dispatch (packet : Packet) :
    ∃ will incomingQos2 inboundAliases subscriptionCount,
      (will = c.will ∨ will = none ∧ packet = .disconnect .normalDisconnection) ∧
      (c.dispatch env shard chance packet).conn.standing =
        { c.standing with will, incomingQos2, inboundAliases, subscriptionCount } := by
  have hkept {c' : Connection} (h : c'.standing = c.standing) :
      ∃ will incomingQos2 inboundAliases subscriptionCount,
        (will = c.will ∨ will = none ∧ packet = .disconnect .normalDisconnection) ∧
        c'.standing = { c.standing with will, incomingQos2, inboundAliases, subscriptionCount } :=
    ⟨_, _, _, _, .inl rfl, h⟩
  cases packet with
  | connect => exact hkept rfl
  | publish publish =>
    obtain ⟨_, _, h⟩ := standing_handlePublish env c shard chance publish
    exact ⟨_, _, _, _, .inl rfl, h⟩
  | subscribe subscribe =>
    obtain ⟨_, h⟩ := standing_handleSubscribe env c shard subscribe
    exact ⟨_, _, _, _, .inl rfl, h⟩
  | unsubscribe unsubscribe =>
    obtain ⟨_, h⟩ := standing_unsubscribeAll unsubscribe.filters (c, shard)
    exact ⟨_, _, _, _, .inl rfl, h⟩
  | pingReq => exact hkept rfl
  | disconnect reason =>
    by_cases hreason : reason = .normalDisconnection
    · subst hreason
      exact ⟨_, _, _, _, .inr ⟨rfl, rfl⟩, rfl⟩
    · have hsame : (c.handleDisconnect reason).1 = c := if_neg hreason
      exact hkept (congrArg standing hsame)
  | pubAck pkid => exact hkept (standing_release env c pkid)
  | pubRec pkid => exact hkept (standing_handlePubrec c pkid)
  | pubRel pkid =>
    obtain ⟨_, h⟩ := standing_handlePubrel env c shard chance pkid
    exact ⟨_, _, _, _, .inl rfl, h⟩
  | pubComp pkid => exact hkept (standing_release env c pkid)
  | serverOnly => exact hkept rfl

end Packets

/-! ### The handshake -/

section Handshake

variable (env : Env) (c : Connection) (shard : ShardState) (chance : Chance)

lemma standing_finishConnect (assigned sessionPresent : Bool) (queue : List Delivery) :
    (c.finishConnect env chance assigned sessionPresent queue).1.standing =
      { c.standing with identity := { c.identity with connected := true, phase := .running } } := by
  unfold finishConnect
  split
  · exact (standing_resumeDelivery env _ _ _).trans rfl
  · rfl

/-- Opening the session settles who the connection is, and brings back its QoS 2 messages. The
connection is in its event loop then, or asks the peers. -/
lemma standing_openHandle (cleanStart assigned : Bool) : ∃ connected phase,
    (connected = true ∧ phase = .running ∨
      connected = c.connected ∧ ∃ remaining, phase = .claiming remaining assigned) ∧
    (c.openHandle env shard chance cleanStart assigned).conn.standing =
      { c.standing with
        identity :=
          { c.identity with
            mailboxTx := none
            sessionGeneration := shard.nextGeneration + 1
            connected
            phase }
        incomingQos2 :=
          (shard.openSession c.clientId c.mailboxRx cleanStart).2.snapshot.incomingQos2 } := by
  have hgeneration := shard.generation_openSession c.clientId c.mailboxRx cleanStart
  unfold openHandle
  generalize shard.openSession c.clientId c.mailboxRx cleanStart = opened at hgeneration
  obtain ⟨shard', handle⟩ := opened
  dsimp only at hgeneration ⊢
  rw [← hgeneration]
  split
  · exact ⟨_, _, .inl ⟨rfl, rfl⟩, standing_finishConnect env _ chance assigned _ _⟩
  · split
    · exact ⟨_, _, .inl ⟨rfl, rfl⟩, standing_finishConnect env _ chance assigned _ _⟩
    · unfold claimRemoteSession
      split
      · exact ⟨_, _, .inl ⟨rfl, rfl⟩, standing_finishConnect env _ chance assigned _ _⟩
      · exact ⟨_, _, .inr ⟨rfl, _, rfl⟩, rfl⟩

/-- A migrated session brings its QoS 2 messages and its subscriptions. -/
lemma standing_claimed (assigned : Bool) (found : Option MigratedSession) :
    (c.claimed env shard chance assigned found).conn.standing =
      { c.standing with
        identity := { c.identity with connected := true, phase := .running }
        incomingQos2 := (found.map (·.incomingQos2)).getD c.incomingQos2
        subscriptionCount := (found.map (·.subscriptions.length)).getD c.subscriptionCount } := by
  unfold claimed
  split
  · exact standing_finishConnect env c chance assigned false []
  · exact standing_finishConnect env _ chance assigned true _

lemma generation_settle (c : Connection) (outcome : Outcome) :
    (settle (c, outcome)).sessionGeneration = c.sessionGeneration := by
  unfold settle
  split <;> rfl

/-- The configuration a connection was started with. -/
def config : LimitsConfig × ℕ := (c.limits, c.shardId)

lemma config_of_standing {c : Connection} {st : Standing} (h : c.standing = st) :
    c.config = (st.limits, st.shardId) := by
  rw [← h]
  rfl

/-- Whatever a connection is sent, it keeps its configuration. -/
lemma config_processOne (packet : Packet) :
    (c.processOne env shard chance packet).conn.config = c.config := by
  unfold processOne
  split
  · obtain ⟨_, _, _, _, -, h⟩ := standing_dispatch env c shard chance packet
    exact config_of_standing h
  · split
    · next connect =>
      obtain ⟨c₁, n, ⟨_, _, _, _, _, _, _, _, hvet⟩, ⟨code, heq⟩ | ⟨-, heq⟩⟩ :=
        handleConnect_cases env c shard chance connect
      · rw [heq, hvet]
        rfl
      · obtain ⟨_, _, -, h⟩ := standing_openHandle env c₁ { shard with nextAssignedId := n } chance
          connect.cleanSession (connect.clientId = "")
        rw [heq, config_of_standing h, hvet]
        rfl
    · rfl

end Handshake

end Connection

end Rusquitto
