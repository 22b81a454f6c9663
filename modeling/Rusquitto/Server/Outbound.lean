import Rusquitto.Server.Inbound

/-!
# A subscriber and its QoS 2 messages

The other direction. The broker's side is what `deliver`, `handlePubrec`, `handlePubcomp`,
`closeSession`, `openSession` and `resumeDelivery` do; a message is the broker's from its entry into
the in-flight table until its PUBCOMP. The subscriber accepts a PUBLISH unless it holds the packet
id already, and holds it until the PUBREL. `Feed.label` and the numbers on the packets, no part of
the system, tell messages apart that had the same packet id.
-/

namespace Rusquitto

open ShardState Connection Function Lib.Wire List Option AList

/-- A packet of the subscriber. -/
inductive Ack where
  | pubRec (pkid : UInt16)
  | pubComp (pkid : UInt16)
  deriving DecidableEq, Repr

/-- The packet as the broker reads it. -/
def Ack.packet : Ack → Packet
  | .pubRec pkid => .pubRec pkid
  | .pubComp pkid => .pubComp pkid

/-- A subscriber and its session. -/
structure Feed where
  clientId : String
  shard : ShardState
  /-- The broker's side of the connection, if there is one. -/
  conn : Option Connection
  /-- Packets under way to the subscriber, oldest first. A QoS 2 PUBLISH has the number of its
  message. -/
  down : List (Reply × ℕ) := []
  /-- Packets under way to the broker, oldest first. -/
  up : List Ack := []
  /-- Which message entered the in-flight table last under a packet id. -/
  label : UInt16 → Option ℕ := fun _ => none
  /-- How many messages have entered the in-flight table. -/
  next : ℕ := 0
  /-- The packet ids the subscriber holds, and for which message. -/
  held : UInt16 → Option ℕ := fun _ => none
  /-- What the subscriber's application has accepted. -/
  accepted : List ℕ := []
  /-- What the broker has removed on a PUBCOMP. -/
  completed : List ℕ := []

/-- What can happen between a subscriber and its session. -/
inductive FeedOp where
  /-- The connection takes a delivery from its mailbox. -/
  | deliver (d : Delivery)
  /-- The broker handles the oldest packet under way. -/
  | serve (chance : Chance)
  /-- The subscriber handles the oldest packet under way. -/
  | hear
  /-- The connection ends. -/
  | close (now : ℕ)
  | reconnect (conn : Connection) (chance : Chance) (assigned : Bool)
  /-- Something else happens on the shard, or on the connection. -/
  | meanwhile (shard : ShardState) (conn : Option Connection)

/-- What is queued for a client. -/
def ShardState.waiting (s : ShardState) (k : String) : List Delivery :=
  ((s.sessions.lookup k).map (·.offlineQueue)).getD []

namespace Feed

variable (env : Env) (e : Feed)

/-- The broker sends a packet. A QoS 2 PUBLISH without DUP is a message that has just entered the
in-flight table; one with DUP is sent again. -/
def emit (reply : Reply) : Feed :=
  match reply with
  | .publish m =>
    if m.qos = .exactlyOnce then
      if m.dup then { e with down := e.down ++ [(reply, (e.label m.pkid).getD 0)] }
      else
        { e with
          down := e.down ++ [(reply, e.next)]
          label := update e.label m.pkid (some e.next)
          next := e.next + 1 }
    else { e with down := e.down ++ [(reply, 0)] }
  | _ => { e with down := e.down ++ [(reply, 0)] }

/-- The connection goes on as `c'`, and what it has encoded since `c` is under way. -/
def goesOn (c c' : Connection) : Feed :=
  { (c'.outbound.drop c.outbound.length).foldl emit e with conn := some c' }

/-- A piece of work of the connection is done. -/
def finish (c : Connection) (r : Connection × Outcome) : Feed :=
  { e.goesOn c r.1 with conn := some (settle r) }

/-- What the subscriber puts on the connection reaches it if there is one. -/
def answers (ack : Ack) : List Ack :=
  if e.conn.isSome then e.up ++ [ack] else e.up

/-- The subscriber handles a packet. -/
def heard (packet : Reply × ℕ) : Feed :=
  match packet.1 with
  | .publish m =>
    if m.qos = .exactlyOnce then
      match e.held m.pkid with
      | some _ => { e with up := e.answers (.pubRec m.pkid) }
      | none =>
        { e with
          held := update e.held m.pkid (some packet.2)
          accepted := e.accepted ++ [packet.2]
          up := e.answers (.pubRec m.pkid) }
    else e
  | .pubRel pkid =>
    { e with held := update e.held pkid none, up := e.answers (.pubComp pkid) }
  | _ => e

/-- What a packet of the subscriber completes. -/
def completes (c : Connection) : Ack → List ℕ
  | .pubRec _ => []
  | .pubComp pkid => if (c.inflight.lookup pkid).isSome then (e.label pkid).toList else []

/-- One thing happens. -/
def apply : FeedOp → Feed
  | .deliver d =>
    match e.conn with
    | some c => if c.phase = .running then e.finish c (c.receive env d) else e
    | none => e
  | .serve chance =>
    match e.conn, e.up with
    | some c, ack :: rest =>
      if c.phase = .running then
        let turn := c.dispatch env e.shard chance ack.packet
        { e with
          shard := turn.shard
          up := rest
          completed := e.completed ++ e.completes c ack }.finish c (turn.conn, turn.outcome)
      else e
    | _, _ => e
  | .hear =>
    match e.down with
    | packet :: rest => { e with down := rest }.heard packet
    | [] => e
  | .close now =>
    match e.conn with
    | some c =>
      { e with
        shard := (e.shard.closeSession now c.clientId c.sessionGeneration c.sessionExpiry c.snapshot
          c.pendingOutbound).1
        conn := none
        up := [] }
    | none => e
  | .reconnect conn chance assigned =>
    let turn := conn.openHandle env e.shard chance false assigned
    { e with shard := turn.shard, up := [], down := [] }.finish conn (turn.conn, turn.outcome)
  | .meanwhile shard conn => { e with shard, conn }

/-- A session that is left alone: its deliveries have QoS 2, each connection follows the close of
the one before, sessions do not end with their connection and do not expire, and what else happens
leaves the session and the in-flight table as they are. -/
def Undisturbed : FeedOp → Prop
  | .deliver d => d.qos = .exactlyOnce
  | .serve _ | .hear => True
  | .close _ => ∀ c, e.conn = some c → c.sessionExpiry ≠ 0
  | .reconnect conn _ _ => e.conn = none ∧ conn.clientId = e.clientId ∧ conn.pendingOutbound = []
  | .meanwhile shard conn =>
    shard.ownership e.clientId = e.shard.ownership e.clientId ∧
      (∀ d ∈ shard.waiting e.clientId, d.qos = .exactlyOnce) ∧
      (∀ c, conn = some c → ∀ d ∈ c.pendingOutbound, d.qos = .exactlyOnce) ∧
      conn.map (fun c => (c.clientId, c.sessionGeneration, c.inflight)) =
        e.conn.map fun c => (c.clientId, c.sessionGeneration, c.inflight)

/-- The subscriber's first connection has been accepted, and nothing was delivered yet. -/
structure Opened (e : Feed) : Prop where
  conn : ∃ c session, e.conn = some c ∧ c.clientId = e.clientId ∧ c.inflight = ∅ ∧
    (∀ d ∈ c.pendingOutbound, d.qos = .exactlyOnce) ∧
    e.shard.sessions.lookup e.clientId = some session ∧ session.generation = c.sessionGeneration ∧
    ∀ d ∈ session.offlineQueue, d.qos = .exactlyOnce
  up : e.up = []
  down : e.down = []
  next : e.next = 0
  held : ∀ pkid, e.held pkid = none
  accepted : e.accepted = []
  completed : e.completed = []

/-! ### What is under way -/

/-- What a packet says about a packet id. -/
def about (pkid : UInt16) : Ack ⊕ (Reply × ℕ) → Option (Lib.Flight ℕ)
  | .inl (.pubRec q) => if q = pkid then some .received else none
  | .inl (.pubComp q) => if q = pkid then some .complete else none
  | .inr (.publish m, number) =>
    if m.qos = .exactlyOnce then if m.pkid = pkid then some (.publish number) else none else none
  | .inr (.pubRel q, _) => if q = pkid then some .release else none
  | .inr _ => none

/-- The feed as a handover of messages, for an in-flight table. -/
def wire (e : Feed) (inflight : HashMap UInt16 InflightMessage) (committed : List ℕ) :
    Lib.Wire UInt16 ℕ (Ack ⊕ (Reply × ℕ)) where
  sender pkid := (inflight.lookup pkid).bind fun entry =>
    (e.label pkid).map (·, decide (entry.state = .qos2Released))
  receiver := e.held
  packets := bag e.up e.down
  started := range e.next
  taken := e.accepted
  committed
  completed := e.completed
  refusing := false

/-- The packets and the table fit together, and the table has labelled QoS 2 messages. -/
structure Core (inflight : HashMap UInt16 InflightMessage) (e : Feed) : Prop where
  wire : ∃ committed, (e.wire inflight committed).Valid about
  entries : ∀ pkid entry, inflight.lookup pkid = some entry →
    (e.label pkid).isSome ∧ entry.state ≠ .qos1 ∧ entry.publish.qos = .exactlyOnce

variable {env : Env} {e : Feed} {inflight : HashMap UInt16 InflightMessage} {c : Connection}
  {pkid : UInt16} {packet : Reply × ℕ}

/-- A packet that is about no message. -/
lemma Core.noise (h : Core inflight e) (hnone : ∀ pkid, about pkid (.inr packet) = none) :
    Core inflight { e with down := e.down ++ [packet] } := by
  obtain ⟨committed, hw⟩ := h.wire
  refine ⟨⟨committed, ?_⟩, h.entries⟩
  have hnoise := hw.ignore fun x (hx : x ∈ bag [] [packet]) pkid => by
    rw [Multiset.mem_singleton.mp hx]
    exact hnone pkid
  dsimp only [Feed.wire] at hnoise
  rw [← bag_append_right] at hnoise
  exact hnoise

/-- A message enters the in-flight table. -/
lemma Core.fresh (h : Core inflight e) {m : Publish} (hqos : m.qos = .exactlyOnce)
    (hdup : m.dup = false) (hfree : inflight.lookup m.pkid = none) {entry : InflightMessage}
    (hstate : entry.state = .qos2Pending) (hsame : entry.publish.qos = .exactlyOnce) :
    Core (inflight.insert m.pkid entry) (e.emit (.publish m)) := by
  obtain ⟨committed, hw⟩ := h.wire
  have hemit : e.emit (.publish m) =
      { e with
        down := e.down ++ [(.publish m, e.next)]
        label := update e.label m.pkid (some e.next)
        next := e.next + 1 } := by
    simp [emit, hqos, hdup]
  have hsender : (e.wire inflight committed).sender m.pkid = none := by
    simp [Feed.wire, hfree]
  have hx : Concerns about (.inr (.publish m, e.next)) m.pkid (.publish e.next) :=
    concerns_of_ite fun _ => by simp [about, hqos]
  have hstarted := hw.start hsender (i := e.next) (by simp [Feed.wire])
  have hsent := hstarted.send (b := false) (update_self ..) (hw.quiet hsender) hx
  rw [hemit]
  refine ⟨⟨committed, ?_⟩, fun pkid entry' hentry => ?_⟩
  · -- the table has the new message under its label
    have hnew : (fun pkid => ((inflight.insert m.pkid entry).lookup pkid).bind fun entry =>
        (update e.label m.pkid (some e.next) pkid).map
          (·, decide (entry.state = InflightState.qos2Released))) =
        update (e.wire inflight committed).sender m.pkid (some (e.next, false)) := by
      funext pkid
      by_cases hpkid : pkid = m.pkid
      · subst hpkid
        rw [lookup_insert, update_self, update_self]
        simp [hstate]
      · rw [lookup_insert_ne hpkid, update_of_ne hpkid, update_of_ne hpkid]
        rfl
    dsimp only [Feed.wire] at hsent hnew ⊢
    rw [hnew, range_succ, bag_snoc_right]
    exact hsent
  · by_cases hpkid : pkid = m.pkid
    · subst hpkid
      rw [lookup_insert, some.injEq] at hentry
      subst hentry
      refine ⟨?_, ?_, hsame⟩
      · simp
      · rw [hstate]
        exact nofun
    · rw [lookup_insert_ne hpkid] at hentry
      dsimp only
      rw [update_of_ne hpkid]
      exact h.entries pkid entry' hentry

/-- A message of the in-flight table is sent again, at the stage it is at. -/
lemma Core.again (h : Core inflight e) {entry : InflightMessage}
    (hentry : inflight.lookup pkid = some entry)
    (hquiet : (bag e.up e.down).filterMap (about pkid) = 0)
    (hpacket : ∀ number, e.label pkid = some number → Concerns about (.inr packet) pkid
      (if entry.state = .qos2Released then .release else .publish number)) :
    Core inflight { e with down := e.down ++ [packet] } := by
  obtain ⟨committed, hw⟩ := h.wire
  obtain ⟨number, hnumber⟩ := isSome_iff_exists.mp (h.entries pkid entry hentry).1
  have hsender : (e.wire inflight committed).sender pkid =
      some (number, decide (entry.state = .qos2Released)) := by
    simp [Feed.wire, hentry, hnumber]
  have hsent := hw.send hsender hquiet (by simpa using hpacket number hnumber)
  refine ⟨⟨committed, ?_⟩, h.entries⟩
  dsimp only [Feed.wire] at hsent ⊢
  rw [bag_snoc_right]
  exact hsent

/-- One delivery goes out. -/
lemma Core.emits {c' : Connection} (hstep : Emits (· = .exactlyOnce) c c') (h : Core c.inflight e) :
    Core c'.inflight ((c'.outbound.drop c.outbound.length).foldl emit e) := by
  cases hstep.emission with
  | silent hinflight hout =>
    rw [hinflight, hout, drop_length]
    exact h
  | forgotten m hqos hinflight hout =>
    rw [hinflight, hout, drop_left, foldl_cons, foldl_nil]
    have hemit : e.emit (.publish m) = { e with down := e.down ++ [(.publish m, 0)] } := by
      simp [emit, hqos]
    rw [hemit]
    exact h.noise fun _ => by simp [about, hqos]
  | remembered m entry hqos hsame hstage hdup hfree hinflight hout =>
    rw [hinflight, hout, drop_left, foldl_cons, foldl_nil]
    have hqos : m.qos = .exactlyOnce := hqos
    have hstate : entry.state = .qos2Pending := by simpa [hqos, QoS.stage] using hstage.symm
    exact h.fresh hqos hdup hfree hstate (hsame.trans hqos)

/-- What a piece of work that only sends does to the feed. -/
lemma Core.outflow {c' : Connection} (hflow : Outflow (· = .exactlyOnce) c c')
    (h : Core c.inflight e) :
    Core c'.inflight ((c'.outbound.drop c.outbound.length).foldl emit e) := by
  induction hflow with
  | refl =>
    rw [drop_length]
    exact h
  | @tail c₁ c₂ hflow hstep ih =>
    obtain ⟨new, hnew, -⟩ := (Outflow.speaks hflow).outbound
    have hdrop : c₁.outbound.drop c.outbound.length = new := by rw [hnew, drop_left]
    rw [hstep.speaks.drop_outbound hnew, foldl_append, ← hdrop]
    exact ih.emits hstep

/-- A resumed session sends its in-flight messages again, each once. -/
lemma Core.retransmit (env : Env) {pkids : List UInt16} (hnodup : pkids.Nodup) (c : Connection)
    (h : Core c.inflight e)
    (hquiet : ∀ pkid ∈ pkids, (bag e.up e.down).filterMap (about pkid) = 0) :
    (c.retransmit env pkids).1.inflight = c.inflight ∧
      Core c.inflight (((c.retransmit env pkids).1.outbound.drop c.outbound.length).foldl emit
        e) := by
  induction pkids generalizing c e with
  | nil =>
    refine ⟨rfl, ?_⟩
    rw [retransmit, drop_length]
    exact h
  | cons pkid rest ih =>
    obtain ⟨hpkid, hnodup⟩ := nodup_cons.mp hnodup
    have hrest : ∀ q ∈ rest, (bag e.up e.down).filterMap (about q) = 0 :=
      fun q hq => hquiet q (mem_cons_of_mem _ hq)
    -- a packet about this message, then the rest
    have hnext (reply : Reply) (number : ℕ) {f : Lib.Flight ℕ}
        (hemit : e.emit reply = { e with down := e.down ++ [(reply, number)] })
        (hcore : Core c.inflight { e with down := e.down ++ [(reply, number)] })
        (hx : Concerns about (.inr (reply, number)) pkid f) :
        ((c.send reply).retransmit env rest).1.inflight = c.inflight ∧
          Core c.inflight ((((c.send reply).retransmit env rest).1.outbound.drop
            c.outbound.length).foldl emit e) := by
      have hspeaks := (c.send reply).speaks_retransmit env rest
      rw [hspeaks.drop_outbound (c := c) rfl, foldl_append, foldl_cons, foldl_nil, hemit]
      refine ih hnodup (c.send reply) hcore fun q hq => ?_
      rw [bag_snoc_right, hx.filterMap_of_ne fun heq => hpkid (heq ▸ hq)]
      exact hrest q hq
    unfold retransmit
    split
    · exact ih hnodup c h hrest
    · next entry hentry =>
      obtain ⟨hlabel, hqos1, hqos⟩ := h.entries pkid entry hentry
      obtain ⟨number, hnumber⟩ := isSome_iff_exists.mp hlabel
      split
      · next hstate =>
        have hx : Concerns about (.inr (.pubRel pkid, 0)) pkid .release :=
          concerns_of_ite fun _ => rfl
        refine hnext (.pubRel pkid) 0 rfl ?_ hx
        exact h.again hentry (hquiet pkid mem_cons_self) fun _ _ => by
          rw [if_pos hstate]
          exact hx
      · next hstate => exact absurd hstate hqos1
      · next hstate =>
        dsimp only
        split
        · refine ⟨rfl, ?_⟩
          rw [drop_length]
          exact h
        · have hx : Concerns about
              (.inr (.publish { entry.publish with pkid, dup := true }, number)) pkid
                (.publish number) :=
            concerns_of_ite fun _ => by simp [about, hqos]
          refine hnext _ number (by simp [emit, hqos, hnumber]) ?_ hx
          refine h.again hentry (hquiet pkid mem_cons_self) fun number' hnumber' => ?_
          rw [hnumber, some.injEq] at hnumber'
          rw [if_neg (by rw [hstate]; exact nofun), ← hnumber']
          exact hx

/-- A resumed session sends its in-flight messages again, and then what was queued. -/
lemma Core.resumeDelivery (env : Env) (h : Core c.inflight e)
    (hquiet : ∀ pkid, (bag e.up e.down).filterMap (about pkid) = 0) (flushFails : Option ℕ)
    {queue : List Delivery} (hqueue : ∀ d ∈ queue, d.qos = .exactlyOnce)
    (hpending : ∀ d ∈ c.pendingOutbound, d.qos = .exactlyOnce) :
    Core (c.resumeDelivery env flushFails queue).1.inflight
        (((c.resumeDelivery env flushFails queue).1.outbound.drop c.outbound.length).foldl emit e) ∧
      ∀ d ∈ (c.resumeDelivery env flushFails queue).1.pendingOutbound, d.qos = .exactlyOnce := by
  have hnodup : (env.iterOrder c.inflight.keys).Nodup :=
    (env.iterOrder_perm _).nodup_iff.mpr c.inflight.nodupKeys
  obtain ⟨hinflight, hsent⟩ := Core.retransmit env hnodup c h fun pkid _ => hquiet pkid
  have hspeaks := c.speaks_retransmit env (env.iterOrder c.inflight.keys)
  have hkept : (c.retransmit env (env.iterOrder c.inflight.keys)).1.pendingOutbound =
      c.pendingOutbound := by
    obtain ⟨_, _, -, h, -⟩ := retransmit_spec env (env.iterOrder c.inflight.keys) c
    rw [h]
  unfold Connection.resumeDelivery
  generalize c.retransmit env (env.iterOrder c.inflight.keys) = r at hinflight hsent hspeaks hkept
  unfold andThen
  rw [← hinflight] at hsent
  split
  · have hflow : Outflow (· = .exactlyOnce) r.1
        (r.1.flushAndReplay env flushFails queue).1 :=
      outflow_flushAndReplay env queue hqueue r.1 flushFails
    obtain ⟨new, hnew, -⟩ := hspeaks.outbound
    have hdrop : r.1.outbound.drop c.outbound.length = new := by rw [hnew, drop_left]
    refine ⟨?_, hflow.queued (hkept ▸ hpending)⟩
    rw [hflow.speaks.drop_outbound hnew, foldl_append, ← hdrop]
    exact hsent.outflow hflow
  · exact ⟨hsent, hkept ▸ hpending⟩

/-- What the sender knows of a slot that is taken. -/
lemma entry_of_sender {committed : List ℕ} {number : ℕ} {released : Bool}
    (hsender : (e.wire inflight committed).sender pkid = some (number, released)) :
    ∃ entry, inflight.lookup pkid = some entry ∧ e.label pkid = some number ∧
      decide (entry.state = .qos2Released) = released := by
  obtain ⟨entry, hentry, hlabel⟩ := bind_eq_some_iff.mp hsender
  obtain ⟨number', hnumber, heq⟩ := map_eq_some_iff.mp hlabel
  obtain ⟨rfl, hreleased⟩ := Prod.mk.inj heq
  exact ⟨entry, hentry, hnumber, hreleased⟩

/-- A PUBREC releases its message, and the PUBREL follows. -/
lemma Core.handlePubrec (h : Core c.inflight e) {rest : List Ack}
    (hup : e.up = .pubRec pkid :: rest) :
    Core (c.handlePubrec pkid).1.inflight
      (((c.handlePubrec pkid).1.outbound.drop c.outbound.length).foldl emit
        { e with up := rest }) := by
  obtain ⟨committed, hw⟩ := h.wire
  have hrest : (e.wire c.inflight committed).packets =
      .inl (.pubRec pkid) ::ₘ bag rest e.down := by
    rw [← bag_cons_left, ← hup]
    rfl
  have hx : Concerns about (.inl (.pubRec pkid)) pkid .received :=
    concerns_of_ite fun _ => rfl
  obtain ⟨number, hsender⟩ := hw.sender_of_received hrest hx
  obtain ⟨entry, hentry, hlabel, hpending⟩ := entry_of_sender hsender
  obtain ⟨-, hqos1, hqos⟩ := h.entries pkid entry hentry
  have hstate : entry.state = .qos2Pending := by
    cases hs : entry.state with
    | qos1 => exact absurd hs hqos1
    | qos2Pending => rfl
    | qos2Released => simp [hs] at hpending
  have hhandled : c.handlePubrec pkid =
      ({ c with inflight := c.inflight.insert pkid { entry with state := .qos2Released } }.send
        (.pubRel pkid), .ok ()) := by
    simp [Connection.handlePubrec, hentry, hstate]
  have hreceived := hw.received hrest hx hsender
  have hsent := hreceived.send (b := true) (x := .inr (.pubRel pkid, 0)) (update_self ..)
    (hw.quiet_rest hrest hx) (concerns_of_ite fun _ => rfl)
  rw [hhandled]
  simp only [Connection.send, drop_left, foldl_cons, foldl_nil, emit]
  refine ⟨⟨committed, ?_⟩, fun q entry' hentry' => ?_⟩
  · have hnew : (fun q => ((c.inflight.insert pkid { entry with state := .qos2Released }).lookup
      q).bind
        fun entry => (e.label q).map (·, decide (entry.state = InflightState.qos2Released))) =
        update (e.wire c.inflight committed).sender pkid (some (number, true)) := by
      funext q
      by_cases hq : q = pkid
      · subst hq
        rw [lookup_insert, update_self]
        simp [hlabel]
      · rw [lookup_insert_ne hq, update_of_ne hq]
        rfl
    dsimp only [Feed.wire] at hsent hnew ⊢
    rw [hnew, bag_snoc_right]
    exact hsent
  · by_cases hq : q = pkid
    · subst hq
      rw [lookup_insert, some.injEq] at hentry'
      subst hentry'
      exact ⟨hlabel ▸ rfl, nofun, hqos⟩
    · rw [lookup_insert_ne hq] at hentry'
      exact h.entries q entry' hentry'

/-- A PUBCOMP removes its message, and messages that were held back may follow. -/
lemma Core.handlePubcomp (env : Env) (h : Core c.inflight e)
    (hpending : ∀ d ∈ c.pendingOutbound, d.qos = .exactlyOnce) {rest : List Ack}
    (hup : e.up = .pubComp pkid :: rest) :
    Core (c.handlePubcomp env pkid).1.inflight
      (((c.handlePubcomp env pkid).1.outbound.drop c.outbound.length).foldl emit
        { e with up := rest, completed := e.completed ++ e.completes c (.pubComp pkid) }) := by
  obtain ⟨committed, hw⟩ := h.wire
  have hrest : (e.wire c.inflight committed).packets =
      .inl (.pubComp pkid) ::ₘ bag rest e.down := by
    rw [← bag_cons_left, ← hup]
    rfl
  have hx : Concerns about (.inl (.pubComp pkid)) pkid .complete :=
    concerns_of_ite fun _ => rfl
  obtain ⟨number, hsender⟩ := hw.sender_of_complete hrest hx
  obtain ⟨entry, hentry, hlabel, -⟩ := entry_of_sender hsender
  have hcompleted := hw.complete hrest hx hsender
  have hcompletes : e.completes c (.pubComp pkid) = [number] := by
    simp [completes, hentry, hlabel]
  -- the message leaves the table before the queue is drained
  obtain ⟨c₁, hc₁⟩ : ∃ c₁ : Connection, c₁ =
      { c with
        inflight := c.inflight.erase pkid
        ledger.acked := c.ledger.acked + {entry.message} } := ⟨_, rfl⟩
  have hreleased : c.handlePubcomp env pkid = c₁.drainPending env := by
    simp only [Connection.handlePubcomp, Connection.release, hentry, hc₁]
  have hinflight : c₁.inflight = c.inflight.erase pkid := hc₁ ▸ rfl
  have hout : c₁.outbound = c.outbound := hc₁ ▸ rfl
  have hqueue : ∀ d ∈ c₁.pendingOutbound, d.qos = .exactlyOnce := hc₁ ▸ hpending
  rw [hreleased, hcompletes, ← hout]
  refine Core.outflow (Connection.outflow_drainPending env hqueue) ?_
  rw [hinflight]
  refine ⟨⟨committed, ?_⟩, fun q entry' hentry' => ?_⟩
  · have hnew : (fun q => ((c.inflight.erase pkid).lookup q).bind fun entry =>
        (e.label q).map (·, decide (entry.state = InflightState.qos2Released))) =
        update (e.wire c.inflight committed).sender pkid none := by
      funext q
      by_cases hq : q = pkid
      · subst hq
        rw [lookup_erase, update_self]
        rfl
      · rw [lookup_erase_ne hq, update_of_ne hq]
        rfl
    dsimp only [Feed.wire] at hcompleted hnew ⊢
    rw [hnew]
    exact hcompleted
  · by_cases hq : q = pkid
    · subst hq
      rw [lookup_erase] at hentry'
      exact nomatch hentry'
    · rw [lookup_erase_ne hq] at hentry'
      exact h.entries q entry' hentry'

/-! ### What holds in every state -/

/-- Where the in-flight table is. -/
def Holds (e : Feed) (inflight : HashMap UInt16 InflightMessage) : Prop :=
  match e.conn with
  | some c => c.clientId = e.clientId ∧ c.inflight = inflight ∧
    (∀ d ∈ c.pendingOutbound, d.qos = .exactlyOnce) ∧
    ∃ snapshot, e.shard.ownership e.clientId = some (c.sessionGeneration, snapshot)
  | none => ∃ generation snapshot, e.shard.ownership e.clientId = some (generation, snapshot) ∧
    (snapshot.getD {}).inflight = inflight

structure Inv (e : Feed) : Prop where
  core : ∃ inflight, e.Holds inflight ∧ Core inflight e
  queue : ∀ d ∈ e.shard.waiting e.clientId, d.qos = .exactlyOnce
  /-- Without a connection the subscriber sends nothing. -/
  idle : e.conn = none → e.up = []

lemma Opened.inv (h : e.Opened) : e.Inv := by
  obtain ⟨c, session, hconn, hid, hempty, hpending, hs, hg, hqueue⟩ := h.conn
  refine ⟨⟨∅, ?_, ⟨[], valid_init (fun _ => rfl) h.held ?_ ?_⟩, fun _ _ h => nomatch h⟩, ?_,
    fun _ => h.up⟩
  · rw [Holds, hconn]
    exact ⟨hid, hempty, hpending, session.snapshot, by rw [ownership, hs, ← hg]; rfl⟩
  · intro pkid
    simp [Feed.wire, h.up, h.down, bag]
  · simp [Feed.wire, h.next, h.accepted, h.completed]
  · intro d hd
    rw [waiting, hs] at hd
    exact hqueue d hd

/-- What the broker sends does not concern its session. -/
lemma foldl_emit (replies : List Reply) (e : Feed) :
    ∃ down label next, replies.foldl emit e = { e with down, label, next } := by
  induction replies generalizing e with
  | nil => exact ⟨_, _, _, rfl⟩
  | cons reply replies ih =>
    have hemit : ∃ down label next, e.emit reply = { e with down, label, next } := by
      unfold emit
      split
      · split
        · split
          · exact ⟨_, _, _, rfl⟩
          · exact ⟨_, _, _, rfl⟩
        · exact ⟨_, _, _, rfl⟩
      · exact ⟨_, _, _, rfl⟩
    obtain ⟨down, label, next, h⟩ := ih (e.emit reply)
    obtain ⟨_, _, _, hemit⟩ := hemit
    rw [hemit] at h
    rw [foldl_cons, hemit, h]
    exact ⟨down, label, next, rfl⟩

/-- A piece of work of the connection is done. -/
lemma Inv.finish {r : Connection × Outcome}
    (hcore : Core r.1.inflight ((r.1.outbound.drop c.outbound.length).foldl emit e))
    (hid : r.1.clientId = e.clientId) (hpending : ∀ d ∈ r.1.pendingOutbound, d.qos = .exactlyOnce)
    (howner : ∃ snapshot, e.shard.ownership e.clientId = some (r.1.sessionGeneration, snapshot))
    (hqueue : ∀ d ∈ e.shard.waiting e.clientId, d.qos = .exactlyOnce) : (e.finish c r).Inv := by
  obtain ⟨down, label, next, heq⟩ := foldl_emit (r.1.outbound.drop c.outbound.length) e
  obtain ⟨phase, hsettle, -⟩ := Server.exists_settle_eq r
  unfold Feed.finish goesOn
  rw [heq] at hcore ⊢
  refine ⟨⟨r.1.inflight, ?_, hcore.wire, hcore.entries⟩, hqueue, nofun⟩
  rw [Holds, hsettle]
  exact ⟨hid, rfl, hpending, howner⟩

section Steps

variable (h : e.Inv)
include h

lemma Inv.deliver {d : Delivery} (hd : d.qos = .exactlyOnce) : (e.apply env (.deliver d)).Inv := by
  simp only [Feed.apply]
  split
  · next c hconn =>
    split
    · obtain ⟨inflight, hholds, hcore⟩ := h.core
      rw [Holds, hconn] at hholds
      obtain ⟨hid, rfl, hpending, howner⟩ := hholds
      have hflow : Outflow (· = .exactlyOnce) c (c.receive env d).1 :=
        outflow_receive env c hd
      have hidentity := hflow.speaks.identity
      have hg : (c.receive env d).1.sessionGeneration = c.sessionGeneration :=
        congrArg Identity.sessionGeneration hidentity
      exact .finish (hcore.outflow hflow)
        ((congrArg Identity.clientId hidentity).trans hid) (hflow.queued hpending)
        (hg ▸ howner) h.queue
    · exact h
  · exact h

lemma Inv.serve (chance : Chance) : (e.apply env (.serve chance)).Inv := by
  simp only [Feed.apply]
  split
  · next c ack rest hconn hup =>
    split
    · obtain ⟨inflight, hholds, hcore⟩ := h.core
      rw [Holds, hconn] at hholds
      obtain ⟨hid, rfl, hpending, howner⟩ := hholds
      have hfinish {r : Connection × Outcome} (hidentity : r.1.identity = c.identity)
          (hpending : ∀ d ∈ r.1.pendingOutbound, d.qos = .exactlyOnce) (completed : List ℕ)
          (hcore : Core r.1.inflight ((r.1.outbound.drop c.outbound.length).foldl emit
            { e with up := rest, completed })) :
          (Feed.finish { e with up := rest, completed } c r).Inv := by
        have hg : r.1.sessionGeneration = c.sessionGeneration :=
          congrArg Identity.sessionGeneration hidentity
        exact .finish hcore ((congrArg Identity.clientId hidentity).trans hid) hpending
          (hg ▸ howner) h.queue
      cases ack with
      | pubRec pkid =>
        have hkept : (c.handlePubrec pkid).1.pendingOutbound = c.pendingOutbound := by
          unfold handlePubrec
          split
          · split
            · rfl
            · rfl
          · rfl
        have hdone := hcore.handlePubrec hup
        refine hfinish (c.keeps_handlePubrec pkid).identity (hkept ▸ hpending) _ ?_
        rw [completes, append_nil]
        exact hdone
      | pubComp pkid =>
        exact hfinish (c.keeps_release env pkid).identity
          (queued_release (Q := (· = .exactlyOnce)) env hpending pkid) _
          (hcore.handlePubcomp env hpending hup)
    · exact h
  · exact h

/-- The answer of the subscriber, if it gets through. -/
lemma Inv.answered {inflight : HashMap UInt16 InflightMessage} (committed : List ℕ) {ack : Ack}
    {held : UInt16 → Option ℕ} {accepted : List ℕ} {rest : List (Reply × ℕ)}
    (hholds : e.Holds inflight) (hcore : Core inflight e)
    (hw : Valid about
      { e.wire inflight committed with
        receiver := held, taken := accepted, packets := .inl ack ::ₘ bag e.up rest }) :
    Inv { e with down := rest, held, accepted, up := answers { e with down := rest } ack } := by
  refine ⟨⟨inflight, hholds, ⟨⟨committed, ?_⟩, hcore.entries⟩⟩, h.queue, fun hnone => ?_⟩
  · dsimp only [Feed.wire, answers]
    split
    · rw [bag_snoc_left]
      exact hw
    · exact hw.lose (Multiset.le_cons_self ..)
  · have hnone : e.conn = none := hnone
    rw [hnone]
    exact h.idle hnone

lemma Inv.hear : (e.apply env .hear).Inv := by
  simp only [Feed.apply]
  split
  · next packet rest hdown =>
    obtain ⟨inflight, hholds, hcore⟩ := h.core
    obtain ⟨committed, hw⟩ := hcore.wire
    have hrest : (e.wire inflight committed).packets = .inr packet ::ₘ bag e.up rest := by
      rw [← bag_cons_right, ← hdown]
      rfl
    -- a packet that does not matter is dropped
    have hskip : Inv { e with down := rest } :=
      ⟨⟨inflight, hholds, ⟨⟨committed, hw.lose (hrest ▸ Multiset.le_cons_self ..)⟩, hcore.entries⟩⟩,
        h.queue, h.idle⟩
    obtain ⟨reply, number⟩ := packet
    unfold heard
    split
    · next m hreply =>
      obtain rfl : reply = .publish m := hreply
      split
      · next hqos =>
        have hx : Concerns about (.inr (.publish m, number)) m.pkid (.publish number) :=
          concerns_of_ite fun _ => by simp [about, hqos]
        have htaken := hw.receive hrest hx (y := .inl (.pubRec m.pkid))
          (concerns_of_ite fun _ => rfl)
        split
        · next j hheld =>
          -- what is held under the packet id is this message
          obtain ⟨b, hsender⟩ := hw.sender_of_held rfl hheld
          have hsame : some (j, b) = some (number, false) :=
            hsender.symm.trans (hw.sound hrest hx).of_publish.1
          obtain ⟨rfl, -⟩ : j = number ∧ b = false := by simpa using hsame
          have hheld' : (e.wire inflight committed).receiver m.pkid = some j := hheld
          rw [if_pos hheld', ← hheld', update_eq_self] at htaken
          exact h.answered committed hholds hcore htaken
        · next hheld =>
          have hheld' : (e.wire inflight committed).receiver m.pkid = none := hheld
          rw [hheld', if_neg nofun] at htaken
          exact h.answered committed hholds hcore htaken
      · exact hskip
    · next pkid hreply =>
      obtain rfl : reply = .pubRel pkid := hreply
      have hx : Concerns about (.inr (.pubRel pkid, number)) pkid .release :=
        concerns_of_ite fun _ => rfl
      have hreleased := hw.release hrest hx (y := .inl (.pubComp pkid))
        (concerns_of_ite fun _ => rfl)
      exact h.answered (committed ++ (e.held pkid).toList) hholds hcore hreleased
    · exact hskip
  · exact h

lemma Inv.close (now : ℕ) (hexpiry : ∀ c, e.conn = some c → c.sessionExpiry ≠ 0) :
    (e.apply env (.close now)).Inv := by
  simp only [Feed.apply]
  split
  · next c hconn =>
    obtain ⟨inflight, hholds, hcore⟩ := h.core
    obtain ⟨committed, hw⟩ := hcore.wire
    rw [Holds, hconn] at hholds
    obtain ⟨hid, rfl, hpending, snapshot, howner⟩ := hholds
    obtain ⟨session, hs, hg, -⟩ := ownership_eq_some howner
    have hqueue := h.queue
    rw [← hid] at hs hqueue
    have hclosed := Server.lookup_closeSession hs hg now c.sessionExpiry c.snapshot
      c.pendingOutbound
    rw [if_neg (hexpiry c hconn)] at hclosed
    refine ⟨⟨c.inflight, ⟨session.generation, some c.snapshot, ?_, rfl⟩,
      ⟨⟨committed, hw.lose (bag_nil_left_le _ _)⟩, hcore.entries⟩⟩, ?_, fun _ => rfl⟩
    · dsimp only
      rw [← hid, ownership, hclosed]
      rfl
    · intro d hd
      rw [← hid, waiting, hclosed] at hd
      rcases mem_append.mp hd with hd | hd
      · exact hpending d hd
      · refine hqueue d ?_
        rw [waiting, hs]
        exact hd
  · exact h

lemma Inv.meanwhile {shard : ShardState} {conn : Option Connection}
    (howner : shard.ownership e.clientId = e.shard.ownership e.clientId)
    (hqueue : ∀ d ∈ shard.waiting e.clientId, d.qos = .exactlyOnce)
    (hpending : ∀ c, conn = some c → ∀ d ∈ c.pendingOutbound, d.qos = .exactlyOnce)
    (hconn : conn.map (fun c => (c.clientId, c.sessionGeneration, c.inflight)) =
      e.conn.map fun c => (c.clientId, c.sessionGeneration, c.inflight)) :
    (e.apply env (.meanwhile shard conn)).Inv := by
  obtain ⟨inflight, hholds, hcore⟩ := h.core
  refine ⟨⟨inflight, ?_, hcore.wire, hcore.entries⟩, hqueue, fun hnone => h.idle ?_⟩
  · simp only [Holds, Feed.apply, howner] at hholds ⊢
    cases conn with
    | none =>
      cases hold : e.conn with
      | none => simpa [hold] using hholds
      | some c => simp [hold] at hconn
    | some c' =>
      cases hold : e.conn with
      | none => simp [hold] at hconn
      | some c =>
        obtain ⟨hid, hg, htable⟩ : c'.clientId = c.clientId ∧ c'.sessionGeneration =
          c.sessionGeneration ∧
            c'.inflight = c.inflight := by simpa [hold] using hconn
        rw [hold] at hholds
        obtain ⟨hid', htable', -, howner'⟩ := hholds
        exact ⟨hid.trans hid', htable.trans htable', hpending c' rfl, hg ▸ howner'⟩
  · have hnone : conn = none := hnone
    rw [hnone] at hconn
    simpa using hconn.symm

/-- A new connection takes over the table, and sends all of it again. -/
lemma Inv.reconnect {conn : Connection} (chance : Chance) (assigned : Bool) (hnone : e.conn = none)
    (hid : conn.clientId = e.clientId) (hempty : conn.pendingOutbound = []) :
    (e.apply env (.reconnect conn chance assigned)).Inv := by
  obtain ⟨inflight, hholds, hcore⟩ := h.core
  obtain ⟨committed, hw⟩ := hcore.wire
  rw [Holds, hnone] at hholds
  obtain ⟨generation, snapshot, howner, rfl⟩ := hholds
  obtain ⟨session, hs, -, rfl⟩ := ownership_eq_some howner
  have hqueue : ∀ d ∈ session.offlineQueue, d.qos = .exactlyOnce := fun d hd => by
    refine h.queue d ?_
    rw [waiting, hs]
    exact hd
  rw [← hid] at hs
  have hopened := lookup_openSession_of_resume hs conn.mailboxRx
  obtain ⟨c₁, hc₁⟩ : ∃ c₁, c₁ = (conn.resuming (e.shard.nextGeneration + 1)
      (session.snapshot.getD {})).greeted assigned := ⟨_, rfl⟩
  have hopen := conn.openHandle_of_resume env hs chance assigned
  rw [← hc₁] at hopen
  obtain ⟨ack, hack, hout⟩ : ∃ ack,
    (∀ e' : Feed, e'.emit ack = { e' with down := e'.down ++ [(ack, 0)] } ∧
      ∀ pkid, about pkid (.inr (ack, 0)) = none) ∧ c₁.outbound = conn.outbound ++ [ack] := by
    rw [hc₁]
    exact ⟨_, fun _ => ⟨rfl, fun _ => rfl⟩, rfl⟩
  have hinflight : c₁.inflight = (session.snapshot.getD {}).inflight := hc₁ ▸ rfl
  have hpending : ∀ d ∈ c₁.pendingOutbound, d.qos = .exactlyOnce := by
    have hnil : c₁.pendingOutbound = [] := by
      rw [hc₁]
      exact hempty
    rw [hnil]
    exact fun _ hd => by cases hd
  obtain ⟨e₁, he₁⟩ : ∃ e₁ : Feed, e₁ =
      { e with
        shard := (e.shard.openSession conn.clientId conn.mailboxRx false).1, up := [], down := [] } :=
    ⟨_, rfl⟩
  -- everything sent before is lost, and the CONNACK is about no message
  have hcore₁ : Core c₁.inflight (e₁.emit ack) := by
    rw [(hack e₁).1]
    refine Core.noise ?_ (hack e₁).2
    rw [hinflight, he₁]
    exact ⟨⟨committed, hw.lose (Multiset.zero_le _)⟩, hcore.entries⟩
  have hquiet (pkid : UInt16) :
      (bag (e₁.emit ack).up (e₁.emit ack).down).filterMap (about pkid) = 0 := by
    rw [(hack e₁).1, he₁]
    rw [bag_snoc_right, Multiset.filterMap_cons_none _ _ ((hack e₁).2 pkid)]
    rfl
  obtain ⟨hresumed, hqueued⟩ := hcore₁.resumeDelivery env hquiet chance.flushFails hqueue hpending
  have hspeaks := c₁.speaks_resumeDelivery env chance.flushFails session.offlineQueue
  simp only [Feed.apply, hopen, Turn.ofConn, ← he₁]
  refine .finish ?_ ?_ hqueued ⟨none, ?_⟩ ?_
  · rw [hspeaks.drop_outbound hout, foldl_append]
    exact hresumed
  · have hname : c₁.clientId = conn.clientId := hc₁ ▸ rfl
    rw [he₁, ← hid, ← hname]
    exact congrArg Identity.clientId hspeaks.identity
  · have hg : c₁.sessionGeneration = e.shard.nextGeneration + 1 := hc₁ ▸ rfl
    have hg' := congrArg Identity.sessionGeneration hspeaks.identity
    rw [he₁, ← hid, ownership, hopened]
    exact congrArg some (Prod.ext (hg.symm.trans hg'.symm) rfl)
  · intro d hd
    rw [he₁, ← hid, waiting, hopened] at hd
    cases hd

lemma Inv.apply {op : FeedOp} (hop : e.Undisturbed op) : (e.apply env op).Inv := by
  cases op with
  | deliver d => exact h.deliver hop
  | serve chance => exact h.serve chance
  | hear => exact h.hear
  | close now => exact h.close now hop
  | reconnect conn chance assigned => exact h.reconnect chance assigned hop.1 hop.2.1 hop.2.2
  | meanwhile shard conn => exact h.meanwhile hop.1 hop.2.1 hop.2.2.1 hop.2.2.2

end Steps

/-- However connections are lost, a message that enters the in-flight table is accepted at most
once, and exactly once when the broker has removed it on its PUBCOMP. What the subscriber holds
under a packet id is the message the broker has in flight under it, so the packet id is given to no
other. -/
theorem accepted_exactly_once (env : Env) {e₀ e : Feed} (h₀ : e₀.Opened)
    (hrun : Lib.Reached (apply env) Undisturbed e₀ e) : (∀ number, e.accepted.count number ≤ 1 ∧
      (number ∈ e.completed → e.accepted.count number = 1)) ∧
      ∀ pkid number, e.held pkid = some number → e.label pkid = some number ∧
        ∃ inflight, e.Holds inflight ∧ (inflight.lookup pkid).isSome = true := by
  have hinv : e.Inv := Lib.Reached.inv Inv h₀.inv (fun _ _ h hop => h.apply hop) hrun
  obtain ⟨inflight, hholds, hcore⟩ := hinv.core
  obtain ⟨committed, hw⟩ := hcore.wire
  have honce : e.accepted.Nodup := hw.taken_nodup
  refine ⟨fun number => ⟨nodup_iff_count_le_one.mp honce number, fun hdone => ?_⟩,
    fun pkid number hheld => ?_⟩
  · exact count_eq_one_of_mem honce (hw.mem_taken (hw.mem_committed hdone))
  · obtain ⟨b, hsender⟩ := hw.sender_of_held rfl hheld
    obtain ⟨entry, hentry, hlabel, -⟩ := entry_of_sender hsender
    exact ⟨hlabel, inflight, hholds, hentry ▸ rfl⟩

/-- A subscriber whose session was just opened. -/
def newSubscriber : Feed where
  clientId := "s"
  shard := (({} : ShardState).openSession "s" 0 true).1
  conn := some
    { mailboxTx := none, mailboxRx := 0, clientId := "s", sessionGeneration := 1, connected := true
      sessionExpiry := sessionNeverExpires }

lemma newSubscriber_opened : newSubscriber.Opened where
  conn := ⟨_, .fresh 0 1, rfl, rfl, rfl, fun _ h => absurd h not_mem_nil, rfl, rfl,
    fun _ h => absurd h not_mem_nil⟩
  up := rfl
  down := rfl
  next := rfl
  held _ := rfl
  accepted := rfl
  completed := rfl

def subscriberBack : FeedOp :=
  .reconnect { mailboxTx := some 1, mailboxRx := 1, clientId := "s", sessionExpiry := sessionNeverExpires }
    {} false

/-- The PUBLISH is lost, then the PUBREC, then the PUBREL, then the PUBCOMP. -/
def unluckyRun : List FeedOp :=
  [.deliver { publish := Exchange.greeting, qos := .exactlyOnce }, .close 0,
    subscriberBack, .hear, .hear, .close 0,
    subscriberBack, .hear, .hear, .serve {}, .close 0,
    subscriberBack, .hear, .hear, .close 0,
    subscriberBack, .hear, .hear, .serve {}]

lemma undisturbed_close {e : Feed}
    (h : e.conn.map (·.sessionExpiry) = some sessionNeverExpires) (now : ℕ) :
    e.Undisturbed (.close now) := by
  intro c hc
  rw [hc, map_some, some.injEq] at h
  rw [h]
  decide

theorem accepted_exactly_once_unlucky :
    let e := Lib.run (apply Server.openEnv) newSubscriber unluckyRun
    e.completed = [0] ∧ e.next = 1 ∧ e.accepted.count 0 = 1 := by
  intro e
  have hrun : Lib.Reached (apply Server.openEnv) Undisturbed newSubscriber e :=
    Lib.Reached.start.run ⟨rfl, undisturbed_close rfl 0, ⟨rfl, rfl, rfl⟩, trivial, trivial,
      undisturbed_close rfl 0, ⟨rfl, rfl, rfl⟩, trivial, trivial, trivial, undisturbed_close rfl 0,
      ⟨rfl, rfl, rfl⟩, trivial, trivial, undisturbed_close rfl 0, ⟨rfl, rfl, rfl⟩, trivial, trivial,
      trivial, trivial⟩
  have hdone : e.completed = [0] := by decide +kernel
  exact ⟨hdone, by decide +kernel,
    ((accepted_exactly_once Server.openEnv newSubscriber_opened hrun).1 0).2
    (hdone ▸ mem_singleton.mpr rfl)⟩

end Feed

end Rusquitto
