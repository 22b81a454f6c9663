import Rusquitto.Server.Inbound

/-!
# Requests and answers

A connection answers its client, and between the answers it sends what is delivered to it. Every
request is answered once, under its own packet id and in the order of the requests, whatever is
delivered in between.
-/

namespace Rusquitto

open List

/-- An answer without the reasons it gives. -/
def Reply.outline : Reply → Reply
  | .pubAck pkid _ => .pubAck pkid .success
  | .pubRec pkid _ => .pubRec pkid .success
  | .subAck pkid codes => .subAck pkid (codes.map fun _ => .granted .atMostOnce)
  | reply => reply

/-- The answers among what was sent. -/
def answersOf (outbound : List Reply) : List Reply :=
  (outbound.filter (!·.ofSender)).map Reply.outline

/-- What a packet has to be answered with: a SUBSCRIBE with one code for each filter. -/
def Packet.answer : Packet → List Reply
  | .publish p => match p.qos with
    | .atMostOnce => []
    | .atLeastOnce => [.pubAck p.pkid .success]
    | .exactlyOnce => [.pubRec p.pkid .success]
  | .subscribe p => [.subAck p.pkid (p.filters.map fun _ => .granted .atMostOnce)]
  | .unsubscribe p => [.unsubAck p.pkid p.filters.length]
  | .pubRel pkid => [.pubComp pkid]
  | .pingReq => [.pingResp]
  | _ => []

namespace Connection

variable {env : Env} {c c' : Connection} {shard : ShardState} {chance : Chance} {packet : Packet}
  {packets : List Packet}

lemma Speaks.answersOf (h : Speaks c c') :
    answersOf c'.outbound = Rusquitto.answersOf c.outbound := by
  obtain ⟨new, hout, hkinds⟩ := h.outbound
  have hnone : new.filter (!·.ofSender) = [] :=
    filter_eq_nil_iff.mpr fun reply hreply => by simp [hkinds reply hreply]
  rw [hout, Rusquitto.answersOf, filter_append, hnone, append_nil, Rusquitto.answersOf]

lemma answersOf_send (c : Connection) (reply : Reply) :
    answersOf (c.send reply).outbound = answersOf c.outbound ++ answersOf [reply] := by
  rw [answersOf, send, filter_append, map_append]
  rfl

lemma length_returnCodes (env : Env) (subId : Option ℕ) (filters : List SubscribeFilter)
    (acc : SubscribeLoop) : (filters.foldl (subscribeOne env subId) acc).returnCodes.length =
      acc.returnCodes.length + filters.length := by
  induction filters generalizing acc with
  | nil => rfl
  | cons filter rest ih =>
    have hone : (subscribeOne env subId acc filter).returnCodes.length =
      acc.returnCodes.length + 1 := by
      unfold subscribeOne SubscribeLoop.register SubscribeLoop.refuse
      split
      · exact length_append
      · dsimp only
        split_ifs <;> exact length_append
    rw [foldl_cons, ih, hone, length_cons]
    omega

lemma answersOf_handlePublish (p : Publish) :
    (c.handlePublish env shard chance p).outcome = .ok () →
      answersOf (c.handlePublish env shard chance p).conn.outbound =
        answersOf c.outbound ++ (Packet.publish p).answer := by
  have hresolved := (c.resolveAlias_cases p).2
  unfold handlePublish Packet.answer
  generalize c.resolveAlias p = r at hresolved
  obtain ⟨c₁, _ | resolved⟩ := r
  · exact nofun
  obtain ⟨hout, topic, rfl, -⟩ := hresolved
  rw [← hout]
  dsimp only
  split
  · exact nofun
  split
  · unfold denyPublish
    cases p.qos with
    | atMostOnce => exact fun _ => (append_nil _).symm
    | _ => exact fun _ => answersOf_send _ _
  · unfold acceptPublish
    cases p.qos with
    | atMostOnce => exact fun _ => (append_nil _).symm
    | atLeastOnce => exact fun _ => answersOf_send _ _
    | exactlyOnce =>
      dsimp only [Turn.ofConn, storeQos2]
      split
      · exact nofun
      · exact fun _ => answersOf_send _ _

/-- A packet that does not end the connection is answered. -/
lemma answersOf_dispatch (hok : (c.dispatch env shard chance packet).outcome = .ok ()) :
    answersOf (c.dispatch env shard chance packet).conn.outbound =
      answersOf c.outbound ++ packet.answer := by
  have hrelease (pkid : UInt16) :
      answersOf (c.release env pkid).1.outbound = answersOf c.outbound ++ [] := by
    rw [append_nil]
    unfold release
    split
    · rfl
    · exact (outflow_drainPending (Q := fun _ => True) env fun _ _ => trivial).speaks.answersOf
  cases packet with
  | connect => exact nomatch hok
  | publish p => exact answersOf_handlePublish p hok
  | subscribe p =>
    obtain ⟨_, hframe⟩ := subscribeAll_frame env p.id p.filters { conn := c, shard }
    have hlength := length_returnCodes env p.id p.filters { conn := c, shard }
    refine (outflow_replayAll (Q := fun _ => True) env _
      (fun _ _ => trivial) _ 0 none).speaks.answersOf.trans
      ((answersOf_send _ _).trans ?_)
    rw [hframe]
    refine congrArg (answersOf c.outbound ++ [Reply.subAck p.pkid ·]) ?_
    rw [map_const', map_const', hlength]
    exact congrArg (replicate · _) (Nat.zero_add _)
  | unsubscribe p =>
    obtain ⟨_, hframe⟩ := unsubscribeAll_frame p.filters (c, shard)
    refine (answersOf_send _ _).trans ?_
    rw [hframe]
    rfl
  | pingReq => exact answersOf_send ..
  | disconnect => exact nomatch hok
  | pubAck pkid | pubComp pkid => exact hrelease pkid
  | pubRec pkid =>
    have hout : (c.handlePubrec pkid).1.outbound = c.outbound ++ [.pubRel pkid] := by
      dsimp only [handlePubrec, send]
      split
      · split <;> rfl
      · rfl
    exact (congrArg answersOf hout).trans (answersOf_send c (.pubRel pkid))
  | pubRel pkid =>
    have hout := (c.handlePubrel_eq env shard chance pkid).2.2.2
    exact (congrArg answersOf hout).trans (answersOf_send c (.pubComp pkid))
  | serverOnly => exact (append_nil _).symm

/-- Packets the connection handles, and messages it takes from its mailbox, one after the other.
Between them the shard may change. -/
inductive Serves (env : Env) (c₀ : Connection) : List Packet → Connection → Prop where
  | start : Serves env c₀ [] c₀
  | packet {packets : List Packet} {c : Connection} (packet : Packet) (shard : ShardState)
    (chance : Chance)
      (before : Serves env c₀ packets c) (ok : (c.dispatch env shard chance packet).outcome =
        .ok ()) :
      Serves env c₀ (packets ++ [packet]) (c.dispatch env shard chance packet).conn
  | receive {packets : List Packet} {c : Connection} (d : Delivery)
    (before : Serves env c₀ packets c) :
      Serves env c₀ packets (c.receive env d).1

/-- Every packet is answered once, in the order of the packets, whatever is delivered in between. -/
theorem requests_answered {c₀ : Connection} (h : Serves env c₀ packets c) :
    answersOf c.outbound = answersOf c₀.outbound ++ packets.flatMap Packet.answer := by
  induction h with
  | start => exact (append_nil _).symm
  | packet packet shard chance _ ok ih =>
    rw [answersOf_dispatch ok, ih, flatMap_append, flatMap_singleton, append_assoc]
  | receive d _ ih =>
    exact (outflow_receive (Q := fun _ => True) env _ trivial).speaks.answersOf.trans ih

/-- A message is published, another is delivered, and the client pings. -/
theorem requests_answered_publish_ping :
    let c₁ := ((new 0 0 {} .none).dispatch Server.openEnv {} {}
      (.publish { topic := "t", qos := .atLeastOnce, pkid := 5, payload := [] })).conn
    let c₂ := (c₁.receive Server.openEnv
      { publish := { topic := "u", qos := .atMostOnce, payload := [] }, qos := .atMostOnce }).1
    answersOf (c₂.dispatch Server.openEnv {} {} .pingReq).conn.outbound =
      [.pubAck 5 .success, .pingResp] :=
  requests_answered (((Serves.start.packet _ _ _ rfl).receive _).packet _ _ _ rfl)

end Connection

end Rusquitto
