import Mathlib.Logic.Relation
import Rusquitto.Server.Accounting

/-!
# What a connection sends of its own accord

Delivering, draining the queue and replaying are many times one thing: a message goes out, and one
that needs an acknowledgement enters the in-flight table under a free packet id (`Connection.Emits`,
with the QoS that `Q` allows). `Speaks` is what is left when the in-flight table does not matter.
-/

namespace Rusquitto

open List

variable {d : Delivery} {session : Session}

/-- The stage at which a message enters the in-flight table. -/
def QoS.stage : QoS → Option InflightState
  | .atMostOnce => none
  | .atLeastOnce => some .qos1
  | .exactlyOnce => some .qos2Pending

/-- PUBLISH and PUBREL. -/
def Reply.ofSender : Reply → Bool
  | .publish _ | .pubRel _ => true
  | _ => false

namespace Connection

/-! ### The packets -/

/-- The connection sends packets of a sender, and keeps what it has received. -/
structure Speaks (c c' : Connection) : Prop where
  identity : c'.identity = c.identity
  incomingQos2 : c'.incomingQos2 = c.incomingQos2
  outbound : ∃ new, c'.outbound = c.outbound ++ new ∧ ∀ reply ∈ new, reply.ofSender = true

lemma Speaks.refl (c : Connection) : Speaks c c :=
  ⟨rfl, rfl, [], (append_nil _).symm, fun _ h => nomatch h⟩

lemma Speaks.trans {c c' c'' : Connection} (h : Speaks c c') (h' : Speaks c' c'') :
    Speaks c c'' := by
  obtain ⟨new, hnew, hkinds⟩ := h.outbound
  obtain ⟨new', hnew', hkinds'⟩ := h'.outbound
  refine ⟨h'.identity.trans h.identity, h'.incomingQos2.trans h.incomingQos2, new ++ new', ?_, ?_⟩
  · rw [hnew', hnew, append_assoc]
  · intro reply hreply
    exact (mem_append.mp hreply).elim (hkinds reply) (hkinds' reply)

/-- The packets of two pieces of work, one after the other. -/
lemma Speaks.drop_outbound {c c' c'' : Connection} (h : Speaks c' c'') {new : List Reply}
    (hnew : c'.outbound = c.outbound ++ new) :
    c''.outbound.drop c.outbound.length = new ++ c''.outbound.drop c'.outbound.length := by
  obtain ⟨new', hnew', -⟩ := h.outbound
  rw [hnew', drop_left, hnew, append_assoc, drop_left]

lemma speaks_retransmit (env : Env) (pkids : List UInt16) (c : Connection) :
    Speaks c (c.retransmit env pkids).1 := by
  obtain ⟨done, _, -, h, -⟩ := retransmit_spec env pkids c
  rw [h]
  refine ⟨rfl, rfl, _, rfl, fun reply hreply => ?_⟩
  obtain ⟨pkid, -, hreply⟩ := mem_filterMap.mp hreply
  obtain ⟨entry, -, rfl⟩ := Option.map_eq_some_iff.mp hreply
  split <;> rfl

/-! ### The in-flight table -/

/-- What can happen to the in-flight table and the output when one delivery goes out. -/
inductive Emission (Q : QoS → Prop) (c c' : Connection) : Prop where
  /-- Nothing is sent. -/
  | silent (inflight : c'.inflight = c.inflight) (outbound : c'.outbound = c.outbound)
  /-- A message that nobody acknowledges is sent. -/
  | forgotten (onWire : Publish) (qos : onWire.qos = .atMostOnce)
    (inflight : c'.inflight = c.inflight)
      (outbound : c'.outbound = c.outbound ++ [.publish onWire])
  /-- A message is sent under a free packet id, and remembered. -/
  | remembered (onWire : Publish) (entry : InflightMessage) (qos : Q onWire.qos)
      (same : entry.publish.qos = onWire.qos) (stage : onWire.qos.stage = some entry.state)
      (first : onWire.dup = false)
      (free : c.inflight.lookup onWire.pkid = none)
      (inflight : c'.inflight = c.inflight.insert onWire.pkid entry)
      (outbound : c'.outbound = c.outbound ++ [.publish onWire])

/-- One delivery goes out, or is held back. -/
structure Emits (Q : QoS → Prop) (c c' : Connection) : Prop where
  identity : c'.identity = c.identity
  incomingQos2 : c'.incomingQos2 = c.incomingQos2
  queued : ∀ d ∈ c'.pendingOutbound, d ∈ c.pendingOutbound ∨ Q d.qos
  emission : Emission Q c c'

/-- Deliveries go out one after the other. -/
def Outflow (Q : QoS → Prop) : Connection → Connection → Prop :=
  Relation.ReflTransGen (Emits Q)

variable {Q : QoS → Prop} {c c' : Connection}

lemma Emits.speaks (h : Emits Q c c') : Speaks c c' := by
  refine ⟨h.identity, h.incomingQos2, ?_⟩
  cases h.emission with
  | silent _ outbound => exact ⟨[], outbound.trans (append_nil _).symm, fun _ h => nomatch h⟩
  | forgotten _ _ _ outbound => exact ⟨_, outbound, fun _ hr => mem_singleton.mp hr ▸ rfl⟩
  | remembered _ _ _ _ _ _ _ _ outbound =>
    exact ⟨_, outbound, fun _ hr => mem_singleton.mp hr ▸ rfl⟩

lemma Outflow.speaks (h : Outflow Q c c') : Speaks c c' := by
  induction h with
  | refl => exact .refl c
  | tail _ hstep ih => exact ih.trans hstep.speaks

/-- What is held back was held back before, or is of the kind that goes out. -/
lemma Outflow.queued (h : Outflow Q c c') (hc : ∀ d ∈ c.pendingOutbound, Q d.qos) :
    ∀ d ∈ c'.pendingOutbound, Q d.qos := by
  induction h with
  | refl => exact hc
  | tail _ hstep ih => exact fun d hd => (hstep.queued d hd).elim (ih d) id

/-- A change that sends nothing. -/
lemma Outflow.silent (hid : c'.identity = c.identity) (hincoming : c'.incomingQos2 = c.incomingQos2)
    (hqueued : ∀ d ∈ c'.pendingOutbound, d ∈ c.pendingOutbound ∨ Q d.qos)
    (hinflight : c'.inflight = c.inflight) (hout : c'.outbound = c.outbound) : Outflow Q c c' :=
  .single ⟨hid, hincoming, hqueued, .silent hinflight hout⟩

/-- An alias changes the topic and the properties on the wire, nothing else. -/
lemma applyAlias_onWire (c : Connection) (message : Publish) :
    (c.applyAlias message).2.1.pkid = message.pkid ∧ (c.applyAlias message).2.1.qos = message.qos ∧
      (c.applyAlias message).2.1.dup = message.dup := by
  unfold applyAlias
  split
  · split
    · exact ⟨rfl, rfl, rfl⟩
    · dsimp only
      split
      · exact ⟨rfl, rfl, rfl⟩
      · exact ⟨rfl, rfl, rfl⟩
  · exact ⟨rfl, rfl, rfl⟩

lemma emits_transmit (env : Env) (c : Connection) (message : Publish) (stage : Option InflightState)
    (hstage : message.qos.stage = stage) (hqos : Q message.qos) (hdup : message.dup = false)
    (hfree : stage.isSome → c.inflight.lookup message.pkid = none) :
    Emits Q c (c.transmit env message stage).1 := by
  have honWire := c.applyAlias_onWire message
  unfold transmit
  generalize c.applyAlias message = aliased at honWire
  obtain ⟨aliases, onWire, newlyAliased⟩ := aliased
  obtain ⟨hpkid, hqos', hdup'⟩ := honWire
  dsimp only at hpkid hqos' hdup' ⊢
  split
  · exact ⟨rfl, rfl, fun _ h => .inl h, .silent rfl rfl⟩
  · split
    · exact ⟨rfl, rfl, fun _ h => .inl h, .silent rfl rfl⟩
    · cases stage with
      | none =>
        refine ⟨rfl, rfl, fun _ h => .inl h, .forgotten onWire ?_ rfl rfl⟩
        rw [hqos']
        cases hq : message.qos with
        | atMostOnce => rfl
        | atLeastOnce => rw [hq] at hstage; exact nomatch hstage
        | exactlyOnce => rw [hq] at hstage; exact nomatch hstage
      | some state =>
        refine ⟨rfl, rfl, fun _ h => .inl h, .remembered onWire ⟨message, state⟩ (hqos' ▸ hqos)
          hqos'.symm (hqos' ▸ hstage) (hdup'.trans hdup) (hpkid ▸ hfree rfl) ?_ rfl⟩
        rw [hpkid]
        rfl

lemma qos_outgoing (d : Delivery) : d.outgoing.qos = d.qos ∧ d.outgoing.dup = false := by
  unfold Delivery.outgoing
  dsimp only
  split
  · exact ⟨rfl, rfl⟩
  · exact ⟨rfl, rfl⟩

section

variable (env : Env)

lemma outflow_sendPublish (hd : Q d.qos) (hroom : d.qos = .atMostOnce ∨ c.hasRoom = true) :
    Outflow Q c (c.sendPublish env d).1 := by
  obtain ⟨hqos, hdup⟩ := qos_outgoing d
  -- QoS > 0: the packet id is free
  have hfresh (state : InflightState) (hne : d.qos ≠ .atMostOnce)
      (hstage : d.outgoing.qos.stage = some state) :
      Outflow Q c (transmit env { c with nextPkid := c.allocPkid }
        { d.outgoing with pkid := c.allocPkid } (some state)).1 := by
    have hpkid := (allocPkid_spec (length_lt_of_hasRoom (hroom.resolve_left hne))).1
    have hcursor : Outflow Q c { c with nextPkid := c.allocPkid } :=
      .silent rfl rfl (fun _ h => .inl h) rfl rfl
    exact hcursor.tail (emits_transmit env _ _ _ hstage (hqos ▸ hd) hdup
      fun _ => AList.lookup_eq_none.mpr hpkid)
  unfold sendPublish assignPkid
  cases hd' : d.qos with
  | atMostOnce =>
    exact .single (emits_transmit env c { d.outgoing with pkid := 0 } none (hqos ▸ hd' ▸ rfl)
      (hqos ▸ hd) hdup nofun)
  | atLeastOnce => exact hfresh .qos1 (hd' ▸ nofun) (hqos ▸ hd' ▸ rfl)
  | exactlyOnce => exact hfresh .qos2Pending (hd' ▸ nofun) (hqos ▸ hd' ▸ rfl)

lemma outflow_deliver (c : Connection) (hd : Q d.qos) : Outflow Q c (c.deliver env d).1 := by
  unfold deliver
  split
  · next hroom => exact outflow_sendPublish env hd hroom
  · unfold holdBack
    split
    · refine .silent rfl rfl (fun e he => ?_) rfl rfl
      rcases mem_append.mp he with he | he
      · exact .inl (mem_of_mem_tail he)
      · exact .inr (mem_singleton.mp he ▸ hd)
    · refine .silent rfl rfl (fun e he => ?_) rfl rfl
      rcases mem_append.mp he with he | he
      · exact .inl he
      · exact .inr (mem_singleton.mp he ▸ hd)

lemma outflow_receive (c : Connection) (hd : Q d.qos) : Outflow Q c (c.receive env d).1 := by
  have hentered : Outflow Q c { c with ledger.received := c.ledger.received ++ [d] } :=
    .silent rfl rfl (fun _ h => .inl h) rfl rfl
  exact hentered.trans (outflow_deliver env _ hd)

lemma outflow_drainLoop (queue : List Delivery) (hqueue : ∀ d ∈ queue, Q d.qos) (c : Connection) :
    Outflow Q c (c.drainLoop env queue).1 := by
  induction queue generalizing c with
  | nil => exact .silent rfl rfl (fun _ h => nomatch h) rfl rfl
  | cons d rest ih =>
    have hrest : ∀ d ∈ rest, Q d.qos := fun e he => hqueue e (mem_cons_of_mem _ he)
    unfold drainLoop
    split
    · next hroom =>
      have hpopped : Outflow Q c { c with pendingOutbound := rest } :=
        .silent rfl rfl (fun e he => .inr (hrest e he)) rfl rfl
      exact andThen_rel Relation.ReflTransGen.trans (hpopped.trans
        (outflow_sendPublish env (hqueue d mem_cons_self) (.inr hroom))) (ih hrest _)
    · exact .silent rfl rfl (fun e he => .inr (hqueue e he)) rfl rfl

lemma outflow_drainPending (hqueue : ∀ d ∈ c.pendingOutbound, Q d.qos) :
    Outflow Q c (c.drainPending env).1 :=
  outflow_drainLoop env _ hqueue c

lemma queued_release (hqueue : ∀ d ∈ c.pendingOutbound, Q d.qos) (pkid : UInt16) :
    ∀ d ∈ (c.release env pkid).1.pendingOutbound, Q d.qos := by
  unfold release
  split
  · exact hqueue
  · next entry _ =>
    have hdrained : Outflow Q
        { c with inflight := c.inflight.erase pkid, ledger.acked := c.ledger.acked + {entry.message} }
        (drainPending env
          { c with inflight := c.inflight.erase pkid
                   ledger.acked := c.ledger.acked + {entry.message} }).1 :=
      outflow_drainPending env hqueue
    exact hdrained.queued hqueue

end

section

variable (env : Env) (queue : List Delivery) (hqueue : ∀ d ∈ queue, Q d.qos) (c : Connection)
  (flushed : ℕ) (flushFails : Option ℕ)
include hqueue

lemma outflow_replayAll : Outflow Q c (c.replayAll env flushed flushFails queue).1 := by
  induction queue generalizing c flushed flushFails with
  | nil => exact .refl
  | cons d rest ih =>
    have hrest : ∀ d ∈ rest, Q d.qos := fun e he => hqueue e (mem_cons_of_mem _ he)
    have hentered : Outflow Q c { c with ledger.replayed := c.ledger.replayed + unsent [d] } :=
      .silent rfl rfl (fun _ h => .inl h) rfl rfl
    refine andThen_rel Relation.ReflTransGen.trans
      (hentered.trans (outflow_deliver env _ (hqueue d mem_cons_self))) ?_
    split
    · exact .refl
    · exact ih hrest _ _ _

lemma outflow_flushAndReplay : Outflow Q c (c.flushAndReplay env flushFails queue).1 := by
  obtain ⟨e, h⟩ | ⟨flushed, k, h⟩ := flushAndReplay_cases env c flushFails queue
  · exact h ▸ .refl
  · exact h ▸ outflow_replayAll env queue hqueue c flushed k

end

lemma speaks_resumeDelivery (env : Env) (c : Connection) (flushFails : Option ℕ)
    (queue : List Delivery) : Speaks c (c.resumeDelivery env flushFails queue).1 :=
  andThen_rel Speaks.trans (speaks_retransmit env _ c)
    (outflow_flushAndReplay (Q := fun _ => True) env queue (fun _ _ => trivial) _ flushFails).speaks

/-! ### Resuming -/

/-- A connection whose CONNECT was accepted. -/
def greeted (c : Connection) (assigned : Bool) : Connection :=
  { c.send (.connAck .success true (c.ackProperties assigned)) with connected := true, phase := .running }

/-- The connection that takes over a session, before it says anything. -/
def resuming (c : Connection) (generation : ℕ) (snapshot : SessionSnapshot) : Connection :=
  { c with mailboxTx := none, sessionGeneration := generation }.restore snapshot

/-- The record of a session that was resumed. -/
lemma lookup_openSession_of_resume {s : ShardState} {k : String}
    (hs : s.sessions.lookup k = some session) (mailbox : ℕ) :
    (s.openSession k mailbox false).1.sessions.lookup k =
      some (session.resume mailbox (s.nextGeneration + 1)) := by
  have hview := congrArg ClientView.session (s.view_openSession k k mailbox false)
  rw [if_pos rfl, ClientView.opened, ShardState.session_view, ShardState.session_view, hs] at hview
  exact hview

/-- A CONNECT that resumes a session. -/
lemma openHandle_of_resume (env : Env) (c : Connection) {shard : ShardState}
    (hs : shard.sessions.lookup c.clientId = some session) (chance : Chance) (assigned : Bool) :
    c.openHandle env shard chance false assigned =
      .ofConn (shard.openSession c.clientId c.mailboxRx false).1
        (((c.resuming (shard.nextGeneration + 1) (session.snapshot.getD {})).greeted
          assigned).resumeDelivery env chance.flushFails session.offlineQueue) := by
  have hhandle := handle_of_resume hs c.mailboxRx
  unfold openHandle
  generalize shard.openSession c.clientId c.mailboxRx false = opened at hhandle ⊢
  obtain ⟨shard', handle⟩ := opened
  obtain rfl : handle = _ := hhandle
  rfl

/-- A connection that resumes a session has its inbound messages, and after the CONNACK says only
what a sender says. -/
lemma exists_openHandle_eq (env : Env) (c : Connection) {shard : ShardState}
    (hs : shard.sessions.lookup c.clientId = some session) (chance : Chance) (assigned : Bool) :
    ∃ r properties new, c.openHandle env shard chance false assigned =
          .ofConn (shard.openSession c.clientId c.mailboxRx false).1 r ∧
        r.1.clientId = c.clientId ∧ r.1.sessionGeneration = shard.nextGeneration + 1 ∧
        r.1.incomingQos2 = (session.snapshot.getD {}).incomingQos2 ∧
        r.1.outbound = c.outbound ++ .connAck .success true properties :: new ∧
        ∀ reply ∈ new, reply.ofSender = true := by
  have hspeaks := speaks_resumeDelivery env ((c.resuming (shard.nextGeneration + 1)
    (session.snapshot.getD {})).greeted assigned) chance.flushFails session.offlineQueue
  obtain ⟨new, hout, hkinds⟩ := hspeaks.outbound
  exact ⟨_, _, new, c.openHandle_of_resume env hs chance assigned,
    congrArg Identity.clientId hspeaks.identity,
    congrArg Identity.sessionGeneration hspeaks.identity, hspeaks.incomingQos2,
    hout.trans (append_assoc ..), hkinds⟩

end Connection

end Rusquitto
