import Rusquitto.Server.Resumption

/-!
# Sending a message

`alloc_pkid` searches without a bound, but is never called when no packet id is free
(`allocPkid_terminates`). `send_publish` writes into the output buffer before it knows whether the
message goes out; one that does not leaves nothing behind (`unsent_leaves_no_trace`). What `deliver`
and `drain_pending` hold back goes out in its order (`hold_back_queue_is_fifo`).
-/

namespace Rusquitto

open List

namespace Connection

variable {env : Env} {c c' : Connection} {d : Delivery} {limit : ℕ}

/-! ### When a packet id is looked for -/

/-- `send_publish`, or `none` when it would add to an in-flight table of `limit` messages. -/
def sendBelow (limit : ℕ) (env : Env) (c : Connection) (d : Delivery) :
    Option (Connection × Outcome) :=
  if d.qos ≠ .atMostOnce ∧ limit ≤ c.inflight.entries.length then none
  else some (c.sendPublish env d)

/-- `deliver` on top of `sendBelow`. -/
def deliverBelow (limit : ℕ) (env : Env) (c : Connection) (d : Delivery) :
    Option (Connection × Outcome) :=
  if d.qos = .atMostOnce ∨ c.hasRoom then c.sendBelow limit env d
  else some (c.holdBack d, .ok ())

/-- The loop of `drain_pending` on top of `sendBelow`. -/
def drainBelow (limit : ℕ) (env : Env) (c : Connection) :
    List Delivery → Option (Connection × Outcome)
  | [] => some ({ c with pendingOutbound := [] }, .ok ())
  | d :: rest =>
    if c.hasRoom then
      (sendBelow limit env { c with pendingOutbound := rest } d).bind fun r =>
        match r.2 with
        | .ok () => drainBelow limit env r.1 rest
        | .error e => some (r.1, .error e)
    else some ({ c with pendingOutbound := d :: rest }, .ok ())

section

variable (hlimit : c.outboundWindow ≤ limit)
include hlimit

/-- A window with room is below every limit it respects. -/
lemma sendBelow_eq (h : d.qos = .atMostOnce ∨ c.hasRoom = true) :
    c.sendBelow limit env d = some (c.sendPublish env d) := by
  refine if_neg fun ⟨hqos, hfull⟩ => ?_
  have hroom : c.inflight.entries.length < c.outboundWindow := of_decide_eq_true
    (h.resolve_left hqos)
  omega

lemma deliverBelow_eq (env : Env) (d : Delivery) :
    c.deliverBelow limit env d = some (c.deliver env d) := by
  unfold deliverBelow deliver
  split
  · next h => exact sendBelow_eq hlimit h
  · rfl

lemma drainBelow_eq (env : Env) (queue : List Delivery) :
    c.drainBelow limit env queue = some (c.drainLoop env queue) := by
  induction queue generalizing c with
  | nil => rfl
  | cons d rest ih =>
    unfold drainBelow drainLoop
    split
    · next hroom =>
      have hroom : { c with pendingOutbound := rest }.hasRoom = true := hroom
      have hlimit : { c with pendingOutbound := rest }.outboundWindow ≤ limit := hlimit
      rw [sendBelow_eq hlimit (.inr hroom), Option.bind_some, andThen]
      -- sending does not move the window
      have hwindow := outboundWindow_of_standing
        (standing_sendPublish env { c with pendingOutbound := rest } d)
      generalize sendPublish env { c with pendingOutbound := rest } d = r at hwindow ⊢
      obtain ⟨c₁, outcome⟩ := r
      cases outcome with
      | error e => rfl
      | ok => exact ih (hwindow.trans_le hlimit)
    · rfl

end

lemma outboundWindow_le (c : Connection) : c.outboundWindow ≤ 65535 := by
  have := (min c.peerReceiveMax c.limits.maxInflight).toNat_lt
  unfold outboundWindow
  omega

/-- With fewer than 65535 ids taken, the search ends after at most as many candidates, all of them
different, with an id from 1 to 65535 that is free; and no connection, whatever its table and its
limits, starts the search with more. -/
theorem allocPkid_terminates (env : Env) (c : Connection) :
    (c.inflight.entries.length < 65535 → ∃ n < 65535,
      (∀ fuel > n, Lib.probe succPkid (fun pkid => (c.inflight.lookup pkid).isSome) fuel
        c.nextPkid =
        some c.allocPkid) ∧ c.allocPkid = succPkid^[n + 1] c.nextPkid ∧
      Set.InjOn (fun i => succPkid^[i + 1] c.nextPkid) (Set.Iic n) ∧
      c.allocPkid ∉ c.inflight ∧ 1 ≤ c.allocPkid.toNat ∧ c.allocPkid.toNat ≤ 65535) ∧
    (∀ d, c.deliverBelow 65535 env d = some (c.deliver env d)) ∧
    c.drainBelow 65535 env c.pendingOutbound = some (c.drainPending env) := by
  have hlimit := c.outboundWindow_le
  refine ⟨fun h => ?_, deliverBelow_eq hlimit env, drainBelow_eq hlimit env _⟩
  obtain ⟨n, hn, hpkid, hfree, hbefore⟩ := allocPkid_search h
  obtain ⟨hnew, hzero⟩ := allocPkid_spec h
  refine ⟨n, hn, fun fuel hfuel => ?_, hpkid, ?_, hnew, ?_, ?_⟩
  · exact Lib.probe_eq_some_iff.mpr ⟨n, hfuel, hpkid, hfree, hbefore⟩
  · exact (injOn_succPkid c.nextPkid).mono fun i hi => lt_of_le_of_lt hi hn
  · exact Nat.one_le_iff_ne_zero.mpr fun h0 => hzero (UInt16.toNat_inj.mp h0)
  · exact Nat.le_of_lt_succ c.allocPkid.toNat_lt

/-- A search that starts at the last id and finds the first one taken. -/
theorem allocPkid_terminates_wrapped : let c : Connection :=
      { Connection.new 0 0 {} .none with
        nextPkid := 65535, inflight := AList.insert 1 ⟨plainPublish [], .qos1⟩ ∅ }
    c.allocPkid = 2 ∧ c.allocPkid ∉ c.inflight := by
  intro c
  obtain ⟨_, -, -, -, -, hfree, -⟩ := (allocPkid_terminates Server.openEnv c).1 (by decide)
  exact ⟨by decide, hfree⟩

/-! ### What a send that comes to nothing leaves behind -/

/-- The packet a delivery becomes: with its id, and under an alias if there is one. -/
def onWire (c : Connection) (d : Delivery) : Publish :=
  (c.applyAlias (c.assignPkid d.qos d.outgoing).2.1).2.1

lemma assignPkid_eq (c : Connection) (qos : QoS) (message : Publish) :
    ∃ nextPkid, (c.assignPkid qos message).1 = { c with nextPkid } := by
  cases qos
  exacts [⟨_, rfl⟩, ⟨_, rfl⟩, ⟨_, rfl⟩]

/-- A registration that is taken back leaves the tables as they were. -/
lemma rollbackAlias_applyAlias (c : Connection) (message : Publish) :
    rollbackAlias (c.applyAlias message).1 (c.applyAlias message).2.2 = c.aliases := by
  unfold applyAlias
  split
  · split
    · rfl
    · next hnone =>
      dsimp only
      split
      · have hnew : message.topic ∉ c.aliases.outbound := AList.lookup_eq_none.mp hnone
        have herase (topicAlias : UInt16) :
            (c.aliases.outbound.insert message.topic topicAlias).erase message.topic =
              c.aliases.outbound := by
          ext1
          change kerase message.topic (AList.entries _) = _
          rw [AList.entries_insert_of_notMem hnew]
          exact kerase_cons_eq rfl
        simp only [rollbackAlias, herase]
      · rfl
  · rfl

end Connection

/-- An encoder on bytes: it appends to the buffer, and when it fails it may have appended a part. -/
structure Encoder where
  write : Publish → List UInt8 → List UInt8 × Option String
  write_prefix : ∀ message buffer, buffer <+: (write message buffer).1

/-- The encoder writes what the packet encoding says, and fails when that fails. -/
def Encoder.Implements (enc : Encoder) (wire : Wire) : Prop :=
  ∀ message buffer,
    match wire.write message with
    | .ok bytes => enc.write message buffer = (buffer ++ bytes, none)
    | .error e => (enc.write message buffer).2 = some e

/-- A connection with its output buffer in bytes, and its share of the counter of bytes sent. -/
structure Wired where
  conn : Connection
  buffer : List UInt8
  bytesSent : ℕ

namespace Wired

open Connection

variable {enc : Encoder} {w : Wired}

/-- `send_publish` on the buffer: what was appended is cut off again when the message does not go
out. -/
def sendPublish (enc : Encoder) (w : Wired) (d : Delivery) : Wired × Outcome :=
  let (c, message, stage) := w.conn.assignPkid d.qos d.outgoing
  let (aliases, onWire, newlyAliased) := c.applyAlias message
  let start := w.buffer.length
  match enc.write onWire w.buffer with
  | (buffer, some e) =>
    ({ w with
        conn := { c with
          aliases := rollbackAlias aliases newlyAliased
          ledger.failed := c.ledger.failed + counted message stage }
        buffer := buffer.take start },
      .error ⟨.invalidData, e⟩)
  | (buffer, none) =>
    let written := buffer.length - start
    if c.peerMaxPacketSize.any (fun max => max.toNat < written) then
      ({ w with
          conn := { c with
            aliases := rollbackAlias aliases newlyAliased
            ledger.dropped := c.ledger.dropped + counted message stage }
          buffer := buffer.take start },
        .ok ())
    else
      ({ conn := record
          { c with
            aliases := aliases
            outbound := c.outbound ++ [.publish onWire]
            messagesSent := c.messagesSent + 1 } message stage
         buffer := buffer
         bytesSent := w.bytesSent + onWire.payload.length },
        .ok ())

/-- The packet of a delivery is larger than the client accepts. -/
def TooLarge (enc : Encoder) (w : Wired) (d : Delivery) : Prop :=
  w.conn.peerMaxPacketSize.any fun max =>
    max.toNat < (enc.write (w.conn.onWire d) w.buffer).1.length - w.buffer.length

/-- On the packets, this is `Connection.sendPublish`. -/
lemma sendPublish_conn {env : Env} (henc : enc.Implements env.wire) (w : Wired) (d : Delivery) :
    ((w.sendPublish enc d).1.conn, (w.sendPublish enc d).2) = w.conn.sendPublish env d := by
  unfold sendPublish Connection.sendPublish transmit
  generalize w.conn.assignPkid d.qos d.outgoing = assigned
  obtain ⟨c, message, stage⟩ := assigned
  dsimp only
  generalize c.applyAlias message = aliased
  obtain ⟨aliases, onWire, newlyAliased⟩ := aliased
  have hwrite := henc onWire w.buffer
  generalize enc.write onWire w.buffer = written at hwrite
  obtain ⟨buffer, failed⟩ := written
  cases hbytes : env.wire.write onWire with
  | error e =>
    rw [hbytes] at hwrite
    obtain rfl : failed = some e := hwrite
    rfl
  | ok bytes =>
    rw [hbytes] at hwrite
    obtain ⟨rfl, rfl⟩ := Prod.mk.inj hwrite
    simp only [length_append, Nat.add_sub_cancel_left]
    split <;> rfl

/-- A message that cannot be encoded or is too large for the client leaves the buffer and the
counters as they were, and the connection but for the packet-id cursor; the ledger notes the loss.
-/
theorem unsent_leaves_no_trace (enc : Encoder) (w : Wired) (d : Delivery)
    (h : (w.sendPublish enc d).2 ≠ .ok () ∨ w.TooLarge enc d) :
    ∃ nextPkid ledger, (w.sendPublish enc d).1 =
      { w with conn := { w.conn with nextPkid := nextPkid, ledger := ledger } } := by
  have hcut := prefix_iff_eq_take.mp (enc.write_prefix (w.conn.onWire d) w.buffer)
  obtain ⟨nextPkid, hnext⟩ := w.conn.assignPkid_eq d.qos d.outgoing
  unfold TooLarge onWire at h
  unfold onWire at hcut
  unfold sendPublish at h ⊢
  generalize w.conn.assignPkid d.qos d.outgoing = assigned at *
  obtain ⟨c, message, stage⟩ := assigned
  obtain rfl : c = { w.conn with nextPkid } := hnext
  -- the alias tables do not depend on the cursor
  change _ ∨ w.conn.peerMaxPacketSize.any (fun max =>
    max.toNat < (enc.write (applyAlias { w.conn with nextPkid } message).2.1 w.buffer).1.length -
      w.buffer.length) = true at h
  change w.buffer = take _ (enc.write (applyAlias { w.conn with nextPkid } message).2.1
    w.buffer).1 at hcut
  have hback := rollbackAlias_applyAlias { w.conn with nextPkid } message
  dsimp only at h ⊢
  generalize applyAlias { w.conn with nextPkid } message = aliased at *
  obtain ⟨aliases, onWire, newlyAliased⟩ := aliased
  dsimp only at hback hcut h ⊢
  generalize enc.write onWire w.buffer = written at *
  obtain ⟨buffer, failed⟩ := written
  dsimp only at hcut h ⊢
  cases failed with
  | some e =>
    refine ⟨nextPkid, { w.conn.ledger with failed := w.conn.ledger.failed + counted message stage }, ?_⟩
    dsimp only
    rw [← hcut, hback]
  | none =>
    dsimp only at h ⊢
    by_cases hlarge : w.conn.peerMaxPacketSize.any
      (fun max => max.toNat < buffer.length - w.buffer.length) = true
    · refine ⟨nextPkid,
        { w.conn.ledger with dropped := w.conn.ledger.dropped + counted message stage }, ?_⟩
      rw [if_pos hlarge, ← hcut, hback]
    · rw [if_neg hlarge] at h
      exact absurd rfl (h.resolve_right hlarge)

/-- The encoder of `mqttbytes`: the first byte is out before it refuses the length. -/
def mqttEncoder : Encoder where
  write message buffer :=
    match writePublish message with
    | .ok bytes => (buffer ++ bytes, none)
    | .error e => (buffer ++ [message.header], some e)
  write_prefix message buffer := by
    split <;> exact prefix_append ..

/-- A packet of eight bytes, for a client that accepts seven, is cut off again. -/
theorem unsent_leaves_no_trace_too_large :
    let d : Delivery := { publish := { qos := .atLeastOnce, topic := "t", payload := [] }
                          qos := .atLeastOnce }
    let w : Wired :=
      { conn := { mailboxTx := none, mailboxRx := 0, peerMaxPacketSize := some 7 }
        buffer := [208, 0], bytesSent := 0 }
    mqttEncoder.write (w.conn.onWire d) w.buffer = ([208, 0, 0x32, 6, 0, 1, 0x74, 0, 1, 0], none) ∧
      (w.sendPublish mqttEncoder d).1.buffer = [208, 0] := by
  intro d w
  have hwrite : mqttEncoder.write (w.conn.onWire d) w.buffer =
      ([208, 0, 0x32, 6, 0, 1, 0x74, 0, 1, 0], none) := by
    decide
  obtain ⟨nextPkid, ledger, h⟩ := unsent_leaves_no_trace mqttEncoder w d
    (.inr (by unfold TooLarge; decide))
  exact ⟨hwrite, by rw [h]⟩

end Wired

/-! ### What is held back -/

/-- How an element leaves a queue. -/
inductive Fate where
  | sent
  | tooLarge
  | overflowed
  deriving DecidableEq

/-- A bounded queue: what has arrived, what has left it and how, and what waits. Elements arrive at
the end and leave at the front; one is dropped only if it is too large, or the oldest of too many.
-/
inductive Fifo {α : Type} (limit : ℕ) (large : α → Prop) : List α → List (α × Fate) → List α →
    Prop where
  | empty : Fifo limit large [] [] []
  | arrive {arrived gone waiting} (a : α) (before : Fifo limit large arrived gone waiting) :
      Fifo limit large (arrived ++ [a]) gone (waiting ++ [a])
  | leave {arrived gone a waiting} (fate : Fate)
    (before : Fifo limit large arrived gone (a :: waiting))
      (tooLarge : fate = .tooLarge → large a) (overflow : fate = .overflowed → limit ≤
        waiting.length) :
      Fifo limit large arrived (gone ++ [(a, fate)]) waiting

/-- What a queue has sent, in order. -/
def sentOf {α : Type} (gone : List (α × Fate)) : List α :=
  (gone.filter (·.2 = .sent)).map Prod.fst

lemma Fifo.arrived_eq {α : Type} {limit : ℕ} {large : α → Prop} {arrived waiting : List α}
    {gone : List (α × Fate)} (h : Fifo limit large arrived gone waiting) :
    arrived = gone.map Prod.fst ++ waiting := by
  induction h with
  | empty => rfl
  | arrive a _ ih => rw [ih, append_assoc]
  | leave fate _ _ _ ih => simp [ih]

/-- The PUBLISH packets that wait for an acknowledgement. -/
def numbered (packets : List Reply) : List Publish :=
  packets.filterMap fun
    | .publish p => if p.qos = .atMostOnce then none else some p
    | _ => none

namespace Connection

variable {env : Env} {c₀ c c' : Connection} {d : Delivery}

/-- The packet carries the delivery, under some id and some alias. -/
def Carries (d : Delivery) (packet : Publish) : Prop := ∃ c : Connection, packet = c.onWire d

/-- The delivery is larger than the client accepts, as the connection writes it at some time. -/
def TooLarge (env : Env) (c₀ : Connection) (d : Delivery) : Prop :=
  ∃ (c : Connection) (bytes : List UInt8), c.standing = c₀.standing ∧ env.wire.write (c.onWire d) =
    .ok bytes ∧
    c₀.peerMaxPacketSize.any fun max => max.toNat < bytes.length

lemma qos_onWire (c : Connection) (d : Delivery) : (c.onWire d).qos = d.qos := by
  have hout : d.outgoing.qos = d.qos := by
    unfold Delivery.outgoing
    dsimp only
    split <;> rfl
  have hassign : (c.assignPkid d.qos d.outgoing).2.1.qos = d.qos := by
    rw [← hout]
    unfold assignPkid
    split <;> rfl
  rw [onWire, applyAlias]
  split
  · split
    · exact hassign
    · dsimp only
      split <;> exact hassign
  · exact hassign

/-- A send appends the packet, fails, or drops it for its size. -/
lemma sendPublish_cases {outcome : Outcome} (h : c.sendPublish env d = (c', outcome)) :
    (c'.outbound = c.outbound ++ [.publish (c.onWire d)] ∨
      c'.outbound = c.outbound ∧ (outcome = .ok () → TooLarge env c d)) ∧
    (d.qos = .atMostOnce → c'.inflight = c.inflight) := by
  have hlarge (bytes : List UInt8) (hbytes : env.wire.write (c.onWire d) = .ok bytes)
      (hmax : c.peerMaxPacketSize.any fun max => max.toNat < bytes.length) : TooLarge env c d :=
    ⟨c, bytes, rfl, hbytes, hmax⟩
  have hzero : d.qos = .atMostOnce → (c.assignPkid d.qos d.outgoing).2.2 = none := by
    rintro hqos
    rw [hqos]
    rfl
  obtain ⟨nextPkid, hnext⟩ := c.assignPkid_eq d.qos d.outgoing
  unfold sendPublish transmit at h
  unfold onWire at hlarge ⊢
  generalize c.assignPkid d.qos d.outgoing = assigned at *
  obtain ⟨c₁, message, stage⟩ := assigned
  obtain rfl : c₁ = { c with nextPkid } := hnext
  have hmessage : c.applyAlias message = applyAlias { c with nextPkid } message := rfl
  dsimp only at h hzero hlarge ⊢
  rw [hmessage] at hlarge ⊢
  generalize applyAlias { c with nextPkid } message = aliased at *
  split at h
  · cases h
    exact ⟨.inr ⟨rfl, nofun⟩, fun _ => rfl⟩
  · next bytes hbytes =>
    split at h
    · next hmax =>
      cases h
      exact ⟨.inr ⟨rfl, fun _ => hlarge bytes hbytes hmax⟩, fun _ => rfl⟩
    · cases h
      cases stage with
      | none => exact ⟨.inl rfl, fun _ => rfl⟩
      | some state => exact ⟨.inl rfl, fun hqos => absurd (hzero hqos) (Option.some_ne_none state)⟩

/-- What happens on the outbound side of a connection. -/
inductive Traffic where
  | deliver (d : Delivery)
  | puback (pkid : UInt16)
  | pubrec (pkid : UInt16)
  | pubcomp (pkid : UInt16)

def Traffic.apply (env : Env) (c : Connection) : Traffic → Connection × Outcome
  | .deliver d => c.deliver env d
  | .puback pkid => c.handlePuback env pkid
  | .pubrec pkid => c.handlePubrec pkid
  | .pubcomp pkid => c.handlePubcomp env pkid

def Traffic.delivered : Traffic → List Delivery
  | .deliver d => [d]
  | _ => []

/-- Deliveries and acknowledgements on a connection, each of which succeeds: an error closes the
connection. -/
inductive Flow (env : Env) (c₀ : Connection) : List Delivery → Connection → Prop where
  | start : Flow env c₀ [] c₀
  | step {delivered c c'} (traffic : Traffic) (before : Flow env c₀ delivered c)
      (ok : traffic.apply env c = (c', .ok ())) : Flow env c₀ (delivered ++ traffic.delivered) c'

/-- What was delivered on a connection since `c₀` has gone out, was dropped or is held back, in its
order. -/
structure HoldsBack (env : Env) (c₀ : Connection) (delivered : List Delivery) (c : Connection) :
    Prop where
  standing : c.standing = c₀.standing
  waits : c.pendingOutbound ≠ [] → c.hasRoom = false
  bounded : c.pendingOutbound.length ≤ pendingOutboundLimit
  order : ∃ gone new, Fifo pendingOutboundLimit (TooLarge env c₀) (needAck delivered) gone
    c.pendingOutbound ∧ c.outbound = c₀.outbound ++ new ∧ Forall₂ Carries (sentOf gone)
      (numbered new)

variable {delivered : List Delivery}

section

variable (hst : c.standing = c₀.standing)
include hst

lemma TooLarge.of_standing (h : TooLarge env c d) : TooLarge env c₀ d := by
  obtain ⟨c₁, bytes, hsame, hbytes, hmax⟩ := h
  have hsize : c.peerMaxPacketSize = c₀.peerMaxPacketSize := congrArg Standing.peerMaxPacketSize hst
  exact ⟨c₁, bytes, hsame.trans hst, hbytes, hsize ▸ hmax⟩

/-- The first that waits is sent, or dropped for its size. -/
lemma fifo_sendPublish {arrived waiting : List Delivery} {gone : List (Delivery × Fate)}
    {packets : List Reply} (hqos : d.qos ≠ .atMostOnce) (hsend : c.sendPublish env d = (c', .ok ()))
    (hfifo : Fifo pendingOutboundLimit (TooLarge env c₀) arrived gone (d :: waiting))
    (hout : c.outbound = c₀.outbound ++ packets)
    (hcarries : Forall₂ Carries (sentOf gone) (numbered packets)) :
    ∃ gone packets, Fifo pendingOutboundLimit (TooLarge env c₀) arrived gone waiting ∧
      c'.outbound = c₀.outbound ++ packets ∧ Forall₂ Carries (sentOf gone) (numbered packets) := by
  rcases (sendPublish_cases hsend).1 with hsent | ⟨hsame, hlarge⟩
  · refine ⟨_, packets ++ [.publish (c.onWire d)], hfifo.leave .sent nofun nofun, ?_, ?_⟩
    · rw [hsent, hout, append_assoc]
    · have hnumbered : numbered [.publish (c.onWire d)] = [c.onWire d] := by
        simp [numbered, qos_onWire, hqos]
      have hpackets : numbered (packets ++ [.publish (c.onWire d)]) =
          numbered packets ++ [c.onWire d] := by
        rw [← hnumbered]
        exact filterMap_append
      have hgone : sentOf (gone ++ [(d, .sent)]) = sentOf gone ++ [d] := by simp [sentOf]
      rw [hpackets, hgone]
      exact rel_append hcarries (.cons ⟨c, rfl⟩ .nil)
  · refine ⟨_, packets, hfifo.leave .tooLarge (fun _ => (hlarge rfl).of_standing hst) nofun, ?_, ?_⟩
    · rw [hsame, hout]
    · rw [show sentOf (gone ++ [(d, .tooLarge)]) = sentOf gone by simp [sentOf]]
      exact hcarries

/-- Draining takes from the front until the window is full. -/
lemma HoldsBack.drainLoop {queue : List Delivery} (hbounded : queue.length ≤ pendingOutboundLimit)
    (horder : ∃ gone new, Fifo pendingOutboundLimit (TooLarge env c₀) (needAck delivered) gone
      queue ∧ c.outbound = c₀.outbound ++ new ∧ Forall₂ Carries (sentOf gone) (numbered new))
    (hrun : c.drainLoop env queue = (c', .ok ())) : HoldsBack env c₀ delivered c' := by
  induction queue generalizing c with
  | nil =>
    obtain rfl : _ = c' := congrArg Prod.fst hrun
    exact ⟨hst, fun h => absurd rfl h, hbounded, horder⟩
  | cons d rest ih =>
    unfold Connection.drainLoop at hrun
    split at hrun
    · obtain ⟨gone, new, hfifo, hout, hcarries⟩ := horder
      have hqos : d.qos ≠ .atMostOnce := by
        have hmem : d ∈ needAck delivered := by simp [hfifo.arrived_eq]
        simpa using (mem_filter.mp hmem).2
      have hst₁ := standing_sendPublish env { c with pendingOutbound := rest } d
      cases hsend : Connection.sendPublish env { c with pendingOutbound := rest } d with
      | mk c₁ outcome =>
        rw [hsend] at hrun hst₁
        cases outcome with
        | error e => cases hrun
        | ok =>
          refine ih (hst₁.trans hst) (Nat.le_of_succ_le hbounded) ?_ hrun
          have hst : { c with pendingOutbound := rest }.standing = c₀.standing := hst
          exact fifo_sendPublish hst hqos hsend hfifo hout hcarries
    · next hfull =>
      obtain rfl : _ = c' := congrArg Prod.fst hrun
      exact ⟨hst, fun _ => Bool.eq_false_iff.mpr hfull, hbounded, horder⟩

end

section

variable (h : HoldsBack env c₀ delivered c)
include h

lemma HoldsBack.release {pkid : UInt16} (hrun : c.release env pkid = (c', .ok ())) :
    HoldsBack env c₀ delivered c' := by
  unfold Connection.release at hrun
  split at hrun
  · obtain rfl : c = c' := congrArg Prod.fst hrun
    exact h
  · refine HoldsBack.drainLoop ?_ ?_ ?_ hrun
    exacts [h.standing, h.bounded, h.order]

lemma HoldsBack.pubrec (pkid : UInt16) : HoldsBack env c₀ delivered (c.handlePubrec pkid).1 := by
  have hsent (c₁ : Connection) (h : HoldsBack env c₀ delivered c₁) :
      HoldsBack env c₀ delivered (c₁.send (.pubRel pkid)) := by
    obtain ⟨gone, new, hfifo, hout, hcarries⟩ := h.order
    refine ⟨h.standing, h.waits, h.bounded, gone, new ++ [.pubRel pkid], hfifo, ?_, ?_⟩
    · rw [← append_assoc, ← hout]
      rfl
    · rw [show numbered (new ++ [.pubRel pkid]) = numbered new by simp [numbered]]
      exact hcarries
  apply hsent
  split
  · next entry hentry =>
    split
    · refine ⟨h.standing, fun hpending => ?_, h.bounded, h.order⟩
      -- the table keeps its entries, so the window stays full
      have hfull := h.waits hpending
      rw [hasRoom_eq] at hfull ⊢
      rw [unacked_update hentry { entry with state := .qos2Released } rfl]
      exact hfull
    · exact h
  · exact h

lemma HoldsBack.deliver (hrun : c.deliver env d = (c', .ok ())) :
    HoldsBack env c₀ (delivered ++ [d]) c' := by
  have hneed : needAck (delivered ++ [d]) = needAck delivered ++ needAck [d] := filter_append ..
  obtain ⟨gone, new, hfifo, hout, hcarries⟩ := h.order
  unfold Connection.deliver at hrun
  split at hrun
  · next hgoes =>
    have hst := standing_sendPublish env c d
    have hpending := pendingOutbound_sendPublish env c d
    have hok := sendPublish_cases hrun
    rw [hrun] at hst hpending
    by_cases hqos : d.qos = .atMostOnce
    · -- QoS 0 passes the queue by
      have hroom : c'.hasRoom = c.hasRoom := by
        rw [hasRoom, hasRoom, hok.2 hqos, outboundWindow_of_standing hst]
      refine ⟨hst.trans h.standing, ?_, hpending ▸ h.bounded, gone, ?_⟩
      · rw [hpending, hroom]
        exact h.waits
      · rw [hneed, show needAck [d] = [] by simp [needAck, hqos], append_nil, hpending]
        rcases hok.1 with hsent | ⟨hsame, -⟩
        · refine ⟨new ++ [.publish (c.onWire d)], hfifo, by rw [hsent, hout, append_assoc], ?_⟩
          rw [show numbered (new ++ [.publish (c.onWire d)]) = numbered new by
            simp [numbered, qos_onWire, hqos]]
          exact hcarries
        · exact ⟨new, hfifo, hsame.trans hout, hcarries⟩
    · -- there is room, so nothing waits
      have hempty : c.pendingOutbound = [] := by
        by_contra hwaits
        exact absurd ((h.waits hwaits).symm.trans (hgoes.resolve_left hqos)) Bool.noConfusion
      rw [hempty] at hfifo hpending
      refine ⟨hst.trans h.standing, fun hne => absurd hpending hne, by rw [hpending]; simp, ?_⟩
      rw [hneed, show needAck [d] = [d] by simp [needAck, hqos], hpending]
      exact fifo_sendPublish h.standing hqos hrun (hfifo.arrive d) hout hcarries
  · next hheld =>
    obtain ⟨hqos, hfull⟩ := not_or.mp hheld
    have hfull : c.hasRoom = false := Bool.eq_false_iff.mpr hfull
    obtain rfl : _ = c' := congrArg Prod.fst hrun
    have harrive := hfifo.arrive d
    rw [show needAck delivered ++ [d] = needAck (delivered ++ [d]) by
      rw [hneed]
      simp [needAck, hqos]] at harrive
    have hbounded := h.bounded
    unfold holdBack
    split
    · next hlimit =>
      -- the oldest makes room
      cases hpending : c.pendingOutbound with
      | nil => simp [hpending, pendingOutboundLimit] at hlimit
      | cons oldest rest =>
        rw [hpending] at harrive hlimit hbounded
        have hlength : (rest ++ [d]).length = rest.length + 1 := length_append
        refine ⟨h.standing, fun _ => hfull, hlength.trans_le hbounded, _, new,
          harrive.leave .overflowed (by simp) fun _ => hlength ▸ hlimit, hout, ?_⟩
        rw [show sentOf (gone ++ [(oldest, .overflowed)]) = sentOf gone by simp [sentOf]]
        exact hcarries
    · next hlimit =>
      refine ⟨h.standing, fun _ => hfull, ?_, gone, new, harrive, hout, hcarries⟩
      rw [length_append]
      exact Nat.lt_of_not_le hlimit

end

/-- In every state of every run that starts with nothing held back: messages wait only while the
window is full, never too many, all of QoS > 0; the messages of QoS > 0 have left in the order of
their delivery and the rest waits. No message of QoS > 0 is sent while the window is full. -/
theorem hold_back_queue_is_fifo {env : Env} {c₀ c : Connection} {delivered : List Delivery}
    (hstart : c₀.pendingOutbound = []) (hrun : Flow env c₀ delivered c) :
    (c.pendingOutbound ≠ [] → c.outboundWindow ≤ c.inflight.entries.length) ∧
    (∀ d ∈ c.pendingOutbound, d.qos ≠ .atMostOnce) ∧
    c.pendingOutbound.length ≤ pendingOutboundLimit ∧
    (∃ gone new, Fifo pendingOutboundLimit (TooLarge env c₀) (needAck delivered) gone
      c.pendingOutbound ∧
      needAck delivered = gone.map Prod.fst ++ c.pendingOutbound ∧ c.outbound = c₀.outbound ++ new ∧
      Forall₂ Carries (sentOf gone) (numbered new)) ∧
    ∀ c₁ : Connection, (∀ d, c₁.deliverBelow c₁.outboundWindow env d = some (c₁.deliver env d)) ∧
      c₁.drainBelow c₁.outboundWindow env c₁.pendingOutbound = some (c₁.drainPending env) := by
  have hinv : HoldsBack env c₀ delivered c := by
    induction hrun with
    | start =>
      refine ⟨rfl, fun h => absurd hstart h, by rw [hstart]; simp, [], [], ?_, ?_, .nil⟩
      · rw [hstart]
        exact .empty
      · rw [append_nil]
    | step traffic _ ok ih =>
      cases traffic with
      | deliver d => exact ih.deliver ok
      | pubrec pkid =>
        obtain rfl : _ = _ := congrArg Prod.fst ok
        exact (append_nil _).symm ▸ ih.pubrec pkid
      | puback pkid | pubcomp pkid => exact (append_nil _).symm ▸ ih.release ok
  obtain ⟨gone, new, hfifo, hout, hcarries⟩ := hinv.order
  refine ⟨fun hwaits => ?_, fun d hd => ?_, hinv.bounded,
    ⟨gone, new, hfifo, hfifo.arrived_eq, hout, hcarries⟩,
    fun c₁ => ⟨deliverBelow_eq le_rfl env, drainBelow_eq le_rfl env _⟩⟩
  · exact Nat.le_of_not_lt (of_decide_eq_false (hinv.waits hwaits))
  · have hmem : d ∈ needAck delivered := by
      rw [hfifo.arrived_eq]
      exact mem_append_right _ hd
    simpa using (mem_filter.mp hmem).2

/-- A client that takes one message at a time: the second one waits. -/
theorem hold_back_queue_is_fifo_two :
    let c₀ : Connection := { mailboxTx := none, mailboxRx := 0, peerReceiveMax := 1 }
    let d : Delivery := ⟨{ qos := .atLeastOnce, topic := "t", payload := [] }, .atLeastOnce,
      false, []⟩
    ∃ c, Flow Server.openEnv c₀ [d, d] c ∧ c.pendingOutbound = [d] ∧
      c.outboundWindow ≤ c.inflight.entries.length := by
  intro c₀ d
  have hrun : Flow Server.openEnv c₀ [d, d] _ := .step (.deliver d)
    (.step (.deliver d) .start rfl) rfl
  exact ⟨_, hrun, rfl, (hold_back_queue_is_fifo rfl hrun).1 nofun⟩

end Connection

end Rusquitto
