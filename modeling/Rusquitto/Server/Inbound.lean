import Rusquitto.Lib.Handshake
import Rusquitto.Server.Outflow
import Rusquitto.Server.Runs

/-!
# A publisher and its QoS 2 messages

A publisher sends a PUBLISH until it has seen the PUBREC, then the PUBREL until it has seen the
PUBCOMP, each once per connection. The broker's side is what `handlePublish`, `handlePubrel`,
`closeSession` and `openSession` do. What is under way when a connection is lost may be lost with
it, in both directions.

`Exchange.held`, `fanned` and `completed`, no part of the system, tell messages of equal content
apart. What was passed to `fan_out` is what the turns say.
-/

namespace Rusquitto

open Connection Function Lib.Wire List ShardState

/-- A packet of the publisher. The number says which message it carries. -/
inductive Upstream where
  | publish (pkid : UInt16) (number : ℕ) (dup : Bool)
  | release (pkid : UInt16)
  deriving DecidableEq, Repr

/-- The packet as the broker reads it. -/
def Upstream.packet (messages : ℕ → Publish) : Upstream → Packet
  | .publish pkid number dup =>
    .publish { messages number with qos := .exactlyOnce, pkid, dup }
  | .release pkid => .pubRel pkid

/-- The packet by which a message is sent again: the PUBREL once the PUBREC has arrived. -/
def Upstream.again (pkid : UInt16) (outstanding : ℕ × Bool) : Upstream :=
  if outstanding.2 then .release pkid else .publish pkid outstanding.1 true

/-- A publisher and its session. -/
structure Exchange where
  clientId : String
  shard : ShardState
  /-- The broker's side of the connection, if there is one. -/
  conn : Option Connection
  /-- Packets under way to the broker, oldest first. -/
  up : List Upstream := []
  /-- Packets under way to the publisher, oldest first. -/
  down : List Reply := []
  /-- The messages the publisher is not done with, and whether their PUBREC has arrived. -/
  outstanding : UInt16 → Option (ℕ × Bool) := fun _ => none
  /-- How many messages there have been. -/
  next : ℕ := 0
  /-- Which message the broker holds under a packet id. -/
  held : UInt16 → Option ℕ := fun _ => none
  /-- What was passed to `fanOut`, and which message it was. -/
  fanned : List (ℕ × Publish) := []
  /-- The messages whose PUBCOMP has arrived. -/
  completed : List ℕ := []

/-- What can happen between a publisher and its session. -/
inductive ExchangeOp where
  /-- The publisher has a new message. -/
  | start (pkid : UInt16)
  /-- The broker handles the oldest packet under way. -/
  | serve (chance : Chance)
  /-- The publisher handles the oldest packet under way. -/
  | hear
  /-- The connection ends. -/
  | close (now : ℕ)
  /-- The publisher connects again and sends what it has not seen acknowledged, in the order of
  these packet ids. -/
  | reconnect (conn : Connection) (chance : Chance) (assigned : Bool) (order : List UInt16)
  /-- Something else happens on the shard, or on the connection. -/
  | meanwhile (shard : ShardState) (conn : Option Connection)

/-- Who owns a client's session, and the state it holds while nobody is connected. -/
def ShardState.ownership (s : ShardState) (k : String) : Option (ℕ × Option SessionSnapshot) :=
  (s.sessions.lookup k).map fun session => (session.generation, session.snapshot)

namespace Exchange

variable (env : Env) (messages : ℕ → Publish) (e : Exchange)

/-- What the publisher puts on the connection reaches it if there is one. -/
def sends (packet : Upstream) : List Upstream :=
  if e.conn.isSome then e.up ++ [packet] else e.up

/-- The message that a packet of the publisher is about. -/
def number : Upstream → ℕ
  | .publish _ number _ => number
  | .release pkid => (e.held pkid).getD 0

/-- The broker has handled a packet. -/
def served (c : Connection) (packet : Upstream) (rest : List Upstream) (turn : Turn) : Exchange :=
  let replies := turn.conn.outbound.drop c.outbound.length
  let e :=
    { e with
      shard := turn.shard
      conn := some (settle (turn.conn, turn.outcome))
      up := rest
      down := e.down ++ replies
      fanned := e.fanned ++ turn.fanned.map (e.number packet, ·) }
  match packet with
  | .publish pkid number _ =>
    if .pubRec pkid .success ∈ replies then
      { e with held := update e.held pkid (some number) }
    else e
  | .release pkid => { e with held := update e.held pkid none }

/-- The publisher handles a packet. -/
def heard (reply : Reply) : Exchange :=
  match reply with
  | .pubRec pkid .success =>
    match e.outstanding pkid with
    | some (number, _) =>
      { e with
        outstanding := update e.outstanding pkid (some (number, true))
        up := e.sends (.release pkid) }
    | none => e
  -- the message is given up
  | .pubRec pkid .notAuthorized =>
    { e with outstanding := update e.outstanding pkid none }
  | .pubComp pkid =>
    match e.outstanding pkid with
    | some (number, _) =>
      { e with
        outstanding := update e.outstanding pkid none
        completed := e.completed ++ [number] }
    | none => e
  | _ => e

/-- One thing happens. -/
def apply : ExchangeOp → Exchange
  | .start pkid =>
    { e with
      outstanding := update e.outstanding pkid (some (e.next, false))
      next := e.next + 1
      up := e.sends (.publish pkid e.next false) }
  | .serve chance =>
    match e.conn, e.up with
    | some c, packet :: rest =>
      if c.phase = .running then
        e.served c packet rest (c.dispatch env e.shard chance (packet.packet messages))
      else e
    | _, _ => e
  | .hear =>
    match e.down with
    | reply :: rest => { e with down := rest }.heard reply
    | [] => e
  | .close now =>
    match e.conn with
    | some c =>
      { e with
        shard := (e.shard.closeSession now c.clientId c.sessionGeneration c.sessionExpiry c.snapshot
          c.pendingOutbound).1
        conn := none
        up := [] }
    | none => e
  | .reconnect conn chance assigned order =>
    let turn := conn.openHandle env e.shard chance false assigned
    { e with
      shard := turn.shard
      conn := some (settle (turn.conn, turn.outcome))
      up := order.filterMap fun pkid => (e.outstanding pkid).map (.again pkid)
      down := turn.conn.outbound.drop conn.outbound.length }
  | .meanwhile shard conn => { e with shard, conn }

/-- An honest publisher, and a session that is left alone: a packet id is used for one message at a
time, each connection follows the close of the one before, sessions do not end with their connection
and do not expire, and what else happens leaves the session and its inbound messages as they are. -/
def Honest : ExchangeOp → Prop
  | .start pkid => e.outstanding pkid = none
  | .serve _ | .hear => True
  | .close _ => ∀ c, e.conn = some c → c.sessionExpiry ≠ 0
  | .reconnect conn _ _ order =>
    e.conn = none ∧ conn.clientId = e.clientId ∧ order.Nodup
  | .meanwhile shard conn =>
    shard.ownership e.clientId = e.shard.ownership e.clientId ∧
      conn.map (fun c => (c.clientId, c.sessionGeneration, c.incomingQos2)) =
        e.conn.map fun c => (c.clientId, c.sessionGeneration, c.incomingQos2)

/-- The publisher's first connection has been accepted, and nothing was sent yet. -/
structure Opened (e : Exchange) : Prop where
  conn : ∃ c session, e.conn = some c ∧ c.clientId = e.clientId ∧ c.incomingQos2 = ∅ ∧
    e.shard.sessions.lookup e.clientId = some session ∧ session.generation = c.sessionGeneration
  up : e.up = []
  down : e.down = []
  outstanding : ∀ pkid, e.outstanding pkid = none
  next : e.next = 0
  held : ∀ pkid, e.held pkid = none
  fanned : e.fanned = []
  completed : e.completed = []

end Exchange

/-! ### Who owns a session -/

namespace ShardState

lemma ownership_eq_some {s : ShardState} {k : String} {generation : ℕ}
    {snapshot : Option SessionSnapshot} (h : s.ownership k = some (generation, snapshot)) :
    ∃ session, s.sessions.lookup k = some session ∧ session.generation = generation ∧
      session.snapshot = snapshot := by
  obtain ⟨session, hs, heq⟩ := Option.map_eq_some_iff.mp h
  exact ⟨session, hs, congrArg Prod.fst heq, congrArg Prod.snd heq⟩

end ShardState

/-! ### The handlers -/

/-- What the broker makes of a message: the topic may come from an alias. -/
def Publish.Becomes (sent stored : Publish) : Prop :=
  ∃ topic, stored = { sent with topic, qos := .exactlyOnce, pkid := 0, dup := false } ∧
    (sent.topic ≠ "" ∨ sent.properties.bind (·.topicAlias) = none → topic = sent.topic)

namespace Connection

variable (env : Env) (c : Connection) (shard : ShardState) (chance : Chance)

/-- What a QoS 2 PUBLISH can lead to. -/
inductive Qos2Outcome (publish : Publish) (c' : Connection) : Prop where
  /-- The connection is refused. -/
  | broken (reason : DisconnectReasonCode) (incoming : c'.incomingQos2 = c.incomingQos2)
      (outbound : c'.outbound = c.outbound ++ [.disconnect reason])
  | denied (incoming : c'.incomingQos2 = c.incomingQos2)
      (outbound : c'.outbound = c.outbound ++ [.pubRec publish.pkid .notAuthorized])
  | stored (message : Publish) (becomes : publish.Becomes message)
      (incoming : c'.incomingQos2 = c.incomingQos2.insert publish.pkid message)
      (outbound : c'.outbound = c.outbound ++ [.pubRec publish.pkid .success])

/-- Resolving an alias. -/
lemma resolveAlias_cases (publish : Publish) :
    (c.resolveAlias publish).1.incomingQos2 = c.incomingQos2 ∧
      match (c.resolveAlias publish).2 with
      | .error _ => ∃ reason, (c.resolveAlias publish).1.outbound = c.outbound ++
        [.disconnect reason]
      | .ok resolved => (c.resolveAlias publish).1.outbound = c.outbound ∧
        ∃ topic, resolved = { publish with topic } ∧
          (publish.topic ≠ "" ∨ publish.properties.bind (·.topicAlias) = none → topic =
            publish.topic) := by
  unfold resolveAlias
  split
  · exact ⟨rfl, rfl, publish.topic, rfl, fun _ => rfl⟩
  · next hsome =>
    split
    · exact ⟨rfl, _, rfl⟩
    · split
      · next hempty =>
        split
        · next topic _ =>
          refine ⟨rfl, rfl, topic, rfl, fun h => ?_⟩
          exact (h.elim (absurd hempty) fun h => nomatch hsome.symm.trans h)
        · exact ⟨rfl, _, rfl⟩
      · exact ⟨rfl, rfl, publish.topic, rfl, fun _ => rfl⟩

lemma handlePublish_qos2 (publish : Publish) (hqos : publish.qos = .exactlyOnce) :
    (c.handlePublish env shard chance publish).shard = shard ∧
      (c.handlePublish env shard chance publish).fanned = [] ∧
      c.Qos2Outcome publish (c.handlePublish env shard chance publish).conn := by
  obtain ⟨hincoming, hresolved⟩ := c.resolveAlias_cases publish
  unfold handlePublish
  generalize c.resolveAlias publish = r at hincoming hresolved
  obtain ⟨c₁, _ | resolved⟩ := r
  · obtain ⟨reason, hout⟩ := hresolved
    exact ⟨rfl, rfl, .broken reason hincoming hout⟩
  · obtain ⟨hout, topic, rfl, htopic⟩ := hresolved
    dsimp only at hincoming hout ⊢
    have hsend (reply : Reply) : (c₁.send reply).outbound = c.outbound ++ [reply] := by
      rw [← hout]
      rfl
    split
    · exact ⟨rfl, rfl, .broken _ hincoming (hsend _)⟩
    · split
      · refine ⟨rfl, rfl, ?_⟩
        rw [hqos]
        exact .denied hincoming (hsend _)
      · unfold acceptPublish
        rw [hqos]
        refine ⟨rfl, rfl, ?_⟩
        dsimp only [Turn.ofConn]
        unfold storeQos2
        split
        · exact .broken _ hincoming (hsend _)
        · exact .stored { publish with topic, qos := .exactlyOnce, pkid := 0, dup := false }
            ⟨topic, rfl, htopic⟩ (hincoming ▸ rfl) (hsend _)

/-- A PUBREL passes on what is held under its packet id, forgets it, and is answered either way. -/
lemma handlePubrel_eq (pkid : UInt16) : (c.handlePubrel env shard chance pkid).shard =
        (c.incomingQos2.lookup pkid).toList.foldl
          (fun s message => s.deliverLocal env.hash message (some c.clientId)) shard ∧
      (c.handlePubrel env shard chance pkid).fanned = (c.incomingQos2.lookup pkid).toList ∧
      (∀ q, (c.handlePubrel env shard chance pkid).conn.incomingQos2.lookup q =
        if q = pkid then none else c.incomingQos2.lookup q) ∧
      (c.handlePubrel env shard chance pkid).conn.outbound = c.outbound ++ [.pubComp pkid] := by
  unfold handlePubrel
  split
  · next hnone =>
    rw [hnone]
    refine ⟨rfl, rfl, fun q => ?_, rfl⟩
    split
    · next hq => exact hq ▸ hnone
    · rfl
  · next message hsome =>
    rw [hsome]
    refine ⟨rfl, rfl, fun q => ?_, rfl⟩
    split
    · next hq => exact hq ▸ AList.lookup_erase _ _
    · next hq => exact AList.lookup_erase_ne hq

end Connection

/-! ### What is under way -/

namespace Exchange

variable {env : Env} {messages : ℕ → Publish} {e : Exchange}

/-- What a packet says about a packet id. -/
def about (pkid : UInt16) : Upstream ⊕ Reply → Option (Lib.Flight ℕ)
  | .inl (.publish q number _) => if q = pkid then some (.publish number) else none
  | .inl (.release q) => if q = pkid then some .release else none
  | .inr (.pubRec q .success) => if q = pkid then some .received else none
  | .inr (.pubRec q .notAuthorized) => if q = pkid then some .refused else none
  | .inr (.pubComp q) => if q = pkid then some .complete else none
  | .inr _ => none

/-- The exchange as a handover of messages. -/
def wire (e : Exchange) (taken : List ℕ) (refusing : Bool) :
    Lib.Wire UInt16 ℕ (Upstream ⊕ Reply) where
  sender := e.outstanding
  receiver := e.held
  packets := bag e.up e.down
  started := range e.next
  taken
  committed := e.fanned.map Prod.fst
  completed := e.completed
  refusing

lemma about_of_ofSender {reply : Reply} (h : reply.ofSender = true) (pkid : UInt16) :
    about pkid (.inr reply) = none := by
  cases reply <;> first | rfl | exact nomatch h

/-! ### What the broker holds -/

/-- The table of messages received and not passed on, wherever it is. -/
def Stores (e : Exchange) (table : HashMap UInt16 Publish) : Prop :=
  match e.conn with
  | some c => c.clientId = e.clientId ∧ c.incomingQos2 = table ∧
    ∃ snapshot, e.shard.ownership e.clientId = some (c.sessionGeneration, snapshot)
  | none => ∃ generation snapshot, e.shard.ownership e.clientId = some (generation, snapshot) ∧
    (snapshot.getD {}).incomingQos2 = table

/-- The table has what the messages became. -/
def Labelled (messages : ℕ → Publish) (held : UInt16 → Option ℕ) (table : HashMap UInt16 Publish) :
    Prop :=
  ∀ pkid, (held pkid = none ∧ table.lookup pkid = none) ∨
    ∃ number message, held pkid = some number ∧ table.lookup pkid = some message ∧
      (messages number).Becomes message

/-- What holds in every state. -/
structure Inv (messages : ℕ → Publish) (e : Exchange) : Prop where
  wire : ∃ taken refusing, (e.wire taken refusing).Valid about
  table : ∃ table, e.Stores table ∧ Labelled messages e.held table
  fanned : ∀ x ∈ e.fanned, (messages x.1).Becomes x.2
  /-- Without a connection the publisher sends nothing. -/
  idle : e.conn = none → e.up = []

lemma Opened.inv (h : e.Opened) : e.Inv messages := by
  obtain ⟨c, session, hconn, hid, hempty, hs, hg⟩ := h.conn
  refine ⟨⟨[], false, valid_init h.outstanding h.held ?_ ?_⟩, ⟨∅, ?_, ?_⟩, ?_, fun _ => h.up⟩
  · intro pkid
    simp [wire, h.up, h.down, bag]
  · simp [wire, h.next, h.fanned, h.completed]
  · rw [Stores, hconn]
    exact ⟨hid, hempty, session.snapshot, by rw [ownership, hs, ← hg]; rfl⟩
  · exact fun pkid => .inl ⟨h.held pkid, rfl⟩
  · simp [h.fanned]

section Steps

variable (h : e.Inv messages) {pkid : UInt16}
include h

/-- The publisher sends a packet it may send. -/
lemma Inv.start (hfree : e.outstanding pkid = none) :
    (e.apply env messages (.start pkid)).Inv messages := by
  obtain ⟨taken, refusing, hw⟩ := h.wire
  have hnew : e.next ∉ (e.wire taken refusing).started := by simp [Exchange.wire]
  have hstarted := hw.start hfree hnew
  refine ⟨⟨taken, refusing, ?_⟩, h.table, h.fanned, ?_⟩
  · have hwire : (e.apply env messages (.start pkid)).wire taken refusing =
        { e.wire taken refusing with
          sender := update e.outstanding pkid (some (e.next, false))
          packets := bag (e.sends (.publish pkid e.next false)) e.down
          started := range e.next ++ [e.next] } := by
      rw [← range_succ]
      rfl
    rw [hwire]
    unfold sends
    split
    · rw [bag_snoc_left]
      refine hstarted.send (b := false) (update_self ..) ?_
        (concerns_of_ite fun _ => rfl)
      exact hw.quiet hfree
    · exact hstarted
  · intro hnone
    have hconn : e.conn = none := hnone
    change e.sends _ = []
    rw [sends, hconn]
    exact h.idle hconn

lemma Inv.hear : (e.apply env messages .hear).Inv messages := by
  simp only [Exchange.apply]
  split
  · next reply rest hdown =>
    obtain ⟨taken, refusing, hw⟩ := h.wire
    have hrest : (e.wire taken refusing).packets = .inr reply ::ₘ bag e.up rest := by
      rw [← bag_cons_right, ← hdown]
      rfl
    -- a packet that does not matter is dropped
    have hskip : Inv messages { e with down := rest } :=
      ⟨⟨taken, refusing, hw.lose (hrest ▸ Multiset.le_cons_self ..)⟩, h.table, h.fanned, h.idle⟩
    have hidle (packet : Upstream) : e.conn = none → sends { e with down := rest } packet = [] := by
      intro hconn
      rw [sends, hconn]
      exact h.idle hconn
    unfold heard
    split
    · next pkid =>
      have hx : Concerns about (.inr (.pubRec pkid .success)) pkid .received :=
        concerns_of_ite fun _ => rfl
      split
      · next number b hout =>
        have hreceived := hw.received hrest hx hout
        refine ⟨⟨taken, refusing, ?_⟩, h.table, h.fanned, hidle _⟩
        unfold Exchange.wire sends
        split
        · rw [bag_snoc_left]
          exact hreceived.send (b := true) (update_self ..) (hw.quiet_rest hrest hx)
            (concerns_of_ite fun _ => rfl)
        · exact hreceived
      · exact hskip
    · next pkid =>
      have hx : Concerns about (.inr (.pubRec pkid .notAuthorized)) pkid .refused :=
        concerns_of_ite fun _ => rfl
      exact ⟨⟨taken, refusing, hw.refused hrest hx⟩, h.table, h.fanned, h.idle⟩
    · next pkid =>
      have hx : Concerns about (.inr (.pubComp pkid)) pkid .complete :=
        concerns_of_ite fun _ => rfl
      split
      · next number b hout =>
        exact ⟨⟨taken, refusing, hw.complete hrest hx hout⟩, h.table, h.fanned, h.idle⟩
      · exact hskip
    · exact hskip
  · exact h

/-- A connection that is closed leaves its table to the session. -/
lemma Inv.close (now : ℕ) (hexpiry : ∀ c, e.conn = some c → c.sessionExpiry ≠ 0) :
    (e.apply env messages (.close now)).Inv messages := by
  simp only [Exchange.apply]
  split
  · next c hconn =>
    obtain ⟨taken, refusing, hw⟩ := h.wire
    obtain ⟨table, hstores, hlabelled⟩ := h.table
    rw [Stores, hconn] at hstores
    obtain ⟨hid, htable, snapshot, hrecord⟩ := hstores
    obtain ⟨session, hs, hg, -⟩ := ownership_eq_some hrecord
    refine ⟨⟨taken, refusing, hw.lose ?_⟩, ⟨table, ?_, hlabelled⟩, h.fanned, fun _ => rfl⟩
    · exact bag_nil_left_le _ _
    · refine ⟨session.generation, some c.snapshot, ?_, htable⟩
      rw [← hid] at hs
      have hclosed := Server.lookup_closeSession hs hg now c.sessionExpiry c.snapshot
        c.pendingOutbound
      rw [if_neg (hexpiry c hconn)] at hclosed
      rw [← hid, ownership, hclosed]
      rfl
  · exact h

lemma Inv.meanwhile {shard : ShardState} {conn : Option Connection}
    (hrecord : shard.ownership e.clientId = e.shard.ownership e.clientId)
    (hconn : conn.map (fun c => (c.clientId, c.sessionGeneration, c.incomingQos2)) =
      e.conn.map fun c => (c.clientId, c.sessionGeneration, c.incomingQos2)) :
    (e.apply env messages (.meanwhile shard conn)).Inv messages := by
  obtain ⟨table, hstores, hlabelled⟩ := h.table
  refine ⟨h.wire, ⟨table, ?_, hlabelled⟩, h.fanned, fun hnone => h.idle ?_⟩
  · simp only [Stores, Exchange.apply, hrecord] at hstores ⊢
    cases conn with
    | none =>
      cases hold : e.conn with
      | none => simpa [hold] using hstores
      | some c => simp [hold] at hconn
    | some c' =>
      cases hold : e.conn with
      | none => simp [hold] at hconn
      | some c =>
        obtain ⟨hid, hg, htable⟩ : c'.clientId = c.clientId ∧ c'.sessionGeneration =
          c.sessionGeneration ∧
            c'.incomingQos2 = c.incomingQos2 := by simpa [hold] using hconn
        rw [hold] at hstores
        obtain ⟨hid', htable', hrecord'⟩ := hstores
        exact ⟨hid.trans hid', htable.trans htable', hg ▸ hrecord'⟩
  · have hnone : conn = none := hnone
    rw [hnone] at hconn
    simpa using hconn.symm

omit h in
/-- What the wire shows of a PUBLISH. -/
lemma concerns_publish (pkid : UInt16) (number : ℕ) (dup : Bool) :
    Concerns about (.inl (.publish pkid number dup)) pkid (.publish number) :=
  concerns_of_ite fun _ => rfl

omit h in
lemma concerns_release (pkid : UInt16) : Concerns about (.inl (.release pkid)) pkid .release :=
  concerns_of_ite fun _ => rfl

omit h in
/-- Whether or not its event loop goes on, the connection has its table. -/
lemma stores_settle {r : Connection × Outcome} (hconn : e.conn = some (settle r))
    (hid : r.1.clientId = e.clientId) {table : HashMap UInt16 Publish}
    (htable : r.1.incomingQos2 = table)
    (hrecord : ∃ snapshot, e.shard.ownership e.clientId = some (r.1.sessionGeneration, snapshot)) :
    e.Stores table := by
  obtain ⟨phase, hsettle, -⟩ := Server.exists_settle_eq r
  rw [Stores, hconn, hsettle]
  exact ⟨hid, htable, hrecord⟩

omit h in
lemma Labelled.insert {held : UInt16 → Option ℕ} {table : HashMap UInt16 Publish}
    (hlabelled : Labelled messages held table) {number : ℕ} {message : Publish} (pkid : UInt16)
    (hbecomes : (messages number).Becomes message) :
    Labelled messages (update held pkid (some number)) (table.insert pkid message) := by
  intro q
  by_cases hq : q = pkid
  · subst hq
    exact .inr ⟨number, message, update_self .., AList.lookup_insert _, hbecomes⟩
  · rw [update_of_ne hq, AList.lookup_insert_ne hq]
    exact hlabelled q

/-- The broker's answer to a QoS 2 PUBLISH. -/
lemma Inv.servePublish {c : Connection} (hconn : e.conn = some c) {number : ℕ} {dup : Bool}
    {rest : List Upstream} (hup : e.up = .publish pkid number dup :: rest) {turn : Turn}
    (hidentity : turn.conn.identity = c.identity) (hshard : turn.shard = e.shard)
    (hfanned : turn.fanned = [])
    (houtcome : c.Qos2Outcome { messages number with qos := .exactlyOnce, pkid, dup } turn.conn) :
    (e.served c (.publish pkid number dup) rest turn).Inv messages := by
  obtain ⟨taken, refusing, hw⟩ := h.wire
  obtain ⟨table, hstores, hlabelled⟩ := h.table
  rw [Stores, hconn] at hstores
  obtain ⟨hid, htable, hrecord⟩ := hstores
  have hrest : (e.wire taken refusing).packets =
      .inl (.publish pkid number dup) ::ₘ bag rest e.down := by
    rw [← bag_cons_left, ← hup]
    rfl
  have hx := concerns_publish pkid number dup
  have hid' : turn.conn.clientId = e.clientId :=
    (congrArg Identity.clientId hidentity).trans hid
  have hrecord' : ∃ snapshot, turn.shard.ownership e.clientId =
      some (turn.conn.sessionGeneration, snapshot) := by
    have hg : turn.conn.sessionGeneration = c.sessionGeneration :=
      congrArg Identity.sessionGeneration hidentity
    rw [hshard, hg]
    exact hrecord
  unfold served
  rw [hfanned, map_nil, append_nil]
  cases houtcome with
  | broken reason hincoming hout =>
    have hreplies : turn.conn.outbound.drop c.outbound.length = [.disconnect reason] := by
      rw [hout, drop_left]
    simp only [hreplies]
    rw [if_neg (by simp)]
    refine ⟨⟨taken, refusing, ?_⟩, ⟨table, ?_, hlabelled⟩, h.fanned, nofun⟩
    · -- the packet is gone, and the DISCONNECT is about no message
      have hlost : Valid about
          { e.wire taken refusing with packets := bag rest e.down } :=
        hw.lose (hrest ▸ Multiset.le_cons_self ..)
      have hnoise := hlost.ignore fun x (hx : x ∈ bag [] [.disconnect reason]) _ => by
        rw [Multiset.mem_singleton.mp hx]
        rfl
      rw [← bag_append_right] at hnoise
      exact hnoise
    · exact stores_settle rfl hid' (hincoming.trans htable) hrecord'
  | denied hincoming hout =>
    have hreplies : turn.conn.outbound.drop c.outbound.length = [.pubRec pkid .notAuthorized] := by
      rw [hout, drop_left]
    simp only [hreplies]
    rw [if_neg (by simp)]
    refine ⟨⟨taken, true, ?_⟩, ⟨table, ?_, hlabelled⟩, h.fanned, nofun⟩
    · have hrefused := hw.refuse hrest hx (y := .inr (.pubRec pkid .notAuthorized))
        (concerns_of_ite fun _ => rfl)
      rw [← bag_snoc_right] at hrefused
      exact hrefused
    · exact stores_settle rfl hid' (hincoming.trans htable) hrecord'
  | stored message hbecomes hincoming hout =>
    have hreplies : turn.conn.outbound.drop c.outbound.length = [.pubRec pkid .success] := by
      rw [hout, drop_left]
    simp only [hreplies]
    rw [if_pos (mem_singleton.mpr rfl)]
    have htaken := hw.receive hrest hx (y := .inr (.pubRec pkid .success))
      (concerns_of_ite fun _ => rfl)
    rw [← bag_snoc_right] at htaken
    refine ⟨⟨_, refusing, htaken⟩, ⟨_, stores_settle rfl hid' rfl hrecord', ?_⟩, h.fanned, nofun⟩
    rw [hincoming, htable]
    exact hlabelled.insert pkid hbecomes

/-- The broker's answer to a PUBREL. -/
lemma Inv.serveRelease {c : Connection} (hconn : e.conn = some c) {rest : List Upstream}
    (hup : e.up = .release pkid :: rest) (chance : Chance) :
    (e.served c (.release pkid) rest (c.handlePubrel env e.shard chance pkid)).Inv messages := by
  obtain ⟨taken, refusing, hw⟩ := h.wire
  obtain ⟨table, hstores, hlabelled⟩ := h.table
  rw [Stores, hconn] at hstores
  obtain ⟨hid, htable, snapshot, hrecord⟩ := hstores
  have hrest : (e.wire taken refusing).packets =
      .inl (.release pkid) ::ₘ bag rest e.down := by
    rw [← bag_cons_left, ← hup]
    rfl
  have hidentity := (keeps_handlePubrel env c e.shard chance pkid).identity
  obtain ⟨hshard, hfanned, hlookup, hout⟩ := c.handlePubrel_eq env e.shard chance pkid
  generalize c.handlePubrel env e.shard chance pkid =
    turn at hidentity hshard hfanned hlookup hout ⊢
  have hreplies : turn.conn.outbound.drop c.outbound.length = [.pubComp pkid] := by
    rw [hout, drop_left]
  have hrecord' : turn.shard.ownership e.clientId = e.shard.ownership e.clientId := by
    rw [hshard]
    cases c.incomingQos2.lookup pkid with
    | none => rfl
    | some message =>
      exact (e.shard.receives_deliverLocal ..).session_map
        (fun session => (session.generation, session.snapshot)) fun _ _ _ => rfl
  have hreleased := hw.release hrest (concerns_release pkid) (y := .inr (.pubComp pkid))
    (concerns_of_ite fun _ => rfl)
  rw [← bag_snoc_right] at hreleased
  -- what is passed on is what the label says
  have hpassed : ∃ passed : List (ℕ × Publish),
      turn.fanned.map (e.number (.release pkid), ·) = passed ∧
        passed.map Prod.fst = (e.held pkid).toList ∧ ∀ x ∈ passed, (messages x.1).Becomes x.2 := by
    rw [hfanned, htable, number]
    rcases hlabelled pkid with ⟨hheld, hnone⟩ | ⟨number, message, hheld, hsome, hbecomes⟩
    · rw [hheld, hnone]
      exact ⟨_, rfl, rfl, fun _ hx => nomatch hx⟩
    · rw [hheld, hsome]
      exact ⟨_, rfl, rfl, fun x hx => mem_singleton.mp hx ▸ hbecomes⟩
  obtain ⟨passed, hpassed, hnumbers, hcontent⟩ := hpassed
  unfold served
  simp only [hreplies, hpassed]
  refine ⟨⟨taken, refusing, ?_⟩, ⟨_, stores_settle rfl ?_ rfl ⟨snapshot, ?_⟩, fun q => ?_⟩, ?_,
    nofun⟩
  · simp only [Exchange.wire, map_append, hnumbers]
    exact hreleased
  · exact (congrArg Identity.clientId hidentity).trans hid
  · have hg : turn.conn.sessionGeneration = c.sessionGeneration :=
      congrArg Identity.sessionGeneration hidentity
    rw [hrecord', hrecord, hg]
  · dsimp only
    rw [hlookup q, htable]
    split
    · next hq => exact .inl ⟨hq ▸ update_self .., rfl⟩
    · next hq =>
      rw [update_of_ne hq]
      exact hlabelled q
  · intro x hx
    exact (mem_append.mp hx).elim (h.fanned x) (hcontent x)

lemma Inv.serve (chance : Chance) : (e.apply env messages (.serve chance)).Inv messages := by
  simp only [Exchange.apply]
  split
  · next c packet rest hconn hup =>
    split
    · cases packet with
      | publish pkid number dup =>
        obtain ⟨hshard, hfanned, houtcome⟩ := c.handlePublish_qos2 env e.shard chance
          { messages number with qos := .exactlyOnce, pkid, dup } rfl
        exact h.servePublish hconn hup (keeps_handlePublish env c e.shard chance _).identity
          hshard hfanned houtcome
      | release pkid => exact h.serveRelease hconn hup chance
    · exact h
  · exact h

omit h in
/-- What is sent again is about its packet id. -/
lemma concerns_resent (pkid : UInt16) (number : ℕ) (b : Bool) :
    Concerns about (.inl (.again pkid (number, b))) pkid
      (if b then .release else .publish number) := by
  cases b
  · exact concerns_publish pkid number true
  · exact concerns_release pkid

omit h in
lemma about_of_resumed (properties : ConnAckProperties) {new : List Reply}
    (hkinds : ∀ reply ∈ new, reply.ofSender = true) :
    ∀ x ∈ bag [] (.connAck .success true properties :: new), ∀ pkid, about pkid x = none := by
  intro x hx pkid
  rw [bag_cons_right, Multiset.mem_cons] at hx
  rcases hx with rfl | hx
  · rfl
  · obtain ⟨reply, hreply, rfl⟩ := mem_map.mp (Multiset.mem_coe.mp hx)
    exact about_of_ofSender (hkinds reply hreply) pkid

/-- A new connection has the table again, and the publisher sends what it is not done with. -/
lemma Inv.reconnect {conn : Connection} (chance : Chance) (assigned : Bool) {order : List UInt16}
    (hnone : e.conn = none) (hid : conn.clientId = e.clientId) (hnodup : order.Nodup) :
    (e.apply env messages (.reconnect conn chance assigned order)).Inv messages := by
  obtain ⟨taken, refusing, hw⟩ := h.wire
  obtain ⟨table, hstores, hlabelled⟩ := h.table
  rw [Stores, hnone] at hstores
  obtain ⟨generation, snapshot, hrecord, htable⟩ := hstores
  obtain ⟨session, hs, -, rfl⟩ := ownership_eq_some hrecord
  rw [← hid] at hs
  obtain ⟨r, properties, new, hopen, hid', hg, hincoming, hout, hkinds⟩ :=
    conn.exists_openHandle_eq env hs chance assigned
  have hreplies : r.1.outbound.drop conn.outbound.length =
    .connAck .success true properties :: new := by
    rw [hout, drop_left]
  simp only [Exchange.apply, hopen, Turn.ofConn, hreplies]
  refine ⟨⟨taken, refusing, ?_⟩, ⟨table, ?_, hlabelled⟩, h.fanned, nofun⟩
  · -- everything sent before is lost; the CONNACK and what follows it are about no message
    have hsent := (hw.lose (Multiset.zero_le _)).sendAll (fun pkid s => .inl (.again pkid s))
      concerns_resent hnodup fun _ _ => rfl
    have hbag : Multiset.ofList (order.filterMap fun pkid =>
        (e.outstanding pkid).map fun s => (.inl (.again pkid s) : Upstream ⊕ Reply)) =
        bag (order.filterMap fun pkid => (e.outstanding pkid).map (.again pkid)) [] := by
      rw [bag, map_nil, append_nil, map_filterMap]
      simp only [Option.map_map]
      rfl
    have hnoise := hsent.ignore (about_of_resumed properties hkinds)
    dsimp only [Exchange.wire] at hnoise
    rw [add_zero, hbag, ← bag_append_right, nil_append] at hnoise
    exact hnoise
  · refine stores_settle (r := r) rfl ?_ (hincoming.trans htable) ⟨none, ?_⟩
    · exact hid'.trans hid
    · dsimp only
      rw [← hid, ownership, lookup_openSession_of_resume hs, hg]
      rfl

lemma Inv.apply {op : ExchangeOp} (hop : e.Honest op) : (e.apply env messages op).Inv messages := by
  cases op with
  | start pkid => exact h.start hop
  | serve chance => exact h.serve chance
  | hear => exact h.hear
  | close now => exact h.close now hop
  | reconnect conn chance assigned order => exact h.reconnect chance assigned hop.1 hop.2.1 hop.2.2
  | meanwhile shard conn => exact h.meanwhile hop.1 hop.2

end Steps

/-- However connections are lost, a QoS 2 message is passed on at most once, and exactly once when
its PUBCOMP has reached the publisher. What is passed on is the message. -/
theorem passed_on_exactly_once (env : Env) (messages : ℕ → Publish) {e₀ e : Exchange}
    (h₀ : e₀.Opened) (hrun : Lib.Reached (apply env messages) Honest e₀ e) (number : ℕ) :
    (e.fanned.map Prod.fst).count number ≤ 1 ∧
      (number ∈ e.completed → (e.fanned.map Prod.fst).count number = 1) ∧
      ∀ message, (number, message) ∈ e.fanned → (messages number).Becomes message := by
  have hinv : e.Inv messages := Lib.Reached.inv (Inv messages) h₀.inv
    (fun _ _ h hop => h.apply hop) hrun
  obtain ⟨taken, refusing, hw⟩ := hinv.wire
  have honce := hw.committed_nodup
  refine ⟨nodup_iff_count_le_one.mp honce number, fun hdone => ?_,
    fun message hm => hinv.fanned _ hm⟩
  exact count_eq_one_of_mem honce (hw.mem_committed hdone)

/-- A publisher whose session was just opened. -/
def newPublisher : Exchange where
  clientId := "p"
  shard := (({} : ShardState).openSession "p" 0 true).1
  conn := some
    { mailboxTx := none, mailboxRx := 0, clientId := "p", sessionGeneration := 1, connected := true
      sessionExpiry := sessionNeverExpires }

/-- The publisher connects again and sends packet id 1 again. -/
def comesBack : ExchangeOp :=
  .reconnect { mailboxTx := some 1, mailboxRx := 1, clientId := "p", sessionExpiry := sessionNeverExpires }
    {} false [1]

/-- The PUBLISH is lost, then the PUBREC, then the PUBCOMP. In the end the packet id is used again.
-/
def unluckyRun : List ExchangeOp :=
  [.start 1, .close 0, comesBack, .serve {}, .close 0, comesBack, .serve {}, .hear, .hear,
    .serve {},
    .close 0, comesBack, .serve {}, .hear, .hear, .start 1]

lemma newPublisher_opened : newPublisher.Opened where
  conn := ⟨_, _, rfl, rfl, rfl, rfl, rfl⟩
  up := rfl
  down := rfl
  outstanding _ := rfl
  next := rfl
  held _ := rfl
  fanned := rfl
  completed := rfl

/-- The messages of the run. -/
def greeting : Publish := { topic := "t", qos := .exactlyOnce, payload := [1] }

lemma honest_close {e : Exchange}
    (h : e.conn.map (·.sessionExpiry) = some sessionNeverExpires) (now : ℕ) :
    e.Honest (.close now) := by
  intro c hc
  rw [hc, Option.map_some, Option.some.injEq] at h
  rw [h]
  decide

theorem passed_on_exactly_once_unlucky :
    let e := Lib.run (apply Server.openEnv fun _ => greeting) newPublisher unluckyRun
    e.completed = [0] ∧ e.next = 2 ∧ (e.fanned.map Prod.fst).count 0 = 1 := by
  intro e
  have hrun : Lib.Reached (apply Server.openEnv fun _ => greeting) Honest newPublisher e :=
    Lib.Reached.start.run ⟨rfl, honest_close rfl 0, ⟨rfl, rfl, by decide⟩, trivial,
      honest_close rfl 0,
      ⟨rfl, rfl, by decide⟩, trivial, trivial, trivial, trivial, honest_close rfl 0,
      ⟨rfl, rfl, by decide⟩, trivial, trivial, trivial, rfl, trivial⟩
  have hdone : e.completed = [0] := by decide +kernel
  exact ⟨hdone, rfl, (passed_on_exactly_once Server.openEnv _ newPublisher_opened hrun 0).2.1
    (hdone ▸ mem_singleton.mpr rfl)⟩

end Exchange

end Rusquitto
