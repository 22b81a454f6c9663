import Rusquitto.Server.Heirs
import Rusquitto.Server.Mail

/-!
# Messages that were checked

The broker checks a message when a client submits it (`Submission.Allowed`), and may route it much
later, from a QoS 2 table, a session, or as a will. A predicate that holds of every submission that
passes the check, and of the broker's own messages, holds of every message kept anywhere
(`Server.Vouched.apply`), and of every message that is routed (`Server.Vouched.routed`).
-/

namespace Rusquitto

open Connection Option List

variable {s shard : ShardState} {pkid : UInt16} {will message : Publish} {id : ℕ}

/-- The message of a will. -/
def LastWill.publish (w : LastWill) : Publish :=
  { topic := w.topic, qos := w.qos, payload := w.message, retain := w.retain }

/-- A message as a client submits it, with the identity of its connection. -/
structure Submission where
  identity : Option String
  message : Publish

/-- The topic is valid, and the identity may publish on it. -/
def Submission.Allowed (env : Env) (s : Submission) : Prop :=
  validPublishTopic s.message.topic = true ∧
    env.auth.authorizePublish s.identity s.message.topic = true

/-- What a packet submits: the message of a PUBLISH on an accepted connection, or the will of a
CONNECT that is authenticated. -/
def Connection.submits (env : Env) (c : Connection) : Packet → Option Submission
  | .publish publish =>
    if c.connected then
      match (c.resolveAlias publish).2 with
      | .ok publish => some ⟨c.username, { publish with pkid := 0, dup := false }⟩
      | .error _ => none
    else none
  | .connect connect =>
    if c.connected then none
    else
      match authenticate env c.tlsIdentity connect.login, connect.lastWill with
      | .ok username, some will => some ⟨username, will.publish⟩
      | _, _ => none
  | _ => none

/-- What a piece of work submits. -/
def Server.submits (env : Env) (srv : Server) : ServerOp → Option Submission
  | .packet id p _ => (srv.taskAt id .running).bind (·.submits env p)
  | _ => none

section Vouched

variable (ok : Publish → Prop)

/-- Every message in a QoS 2 table is as asked. -/
def VouchedQos2 (messages : HashMap UInt16 Publish) : Prop :=
  ∀ pkid message, messages.lookup pkid = some message → ok message

/-- The messages that a connection keeps for later. The will of a CONNECT that was turned away is
not among them: such a connection has no generation, and never publishes it. -/
structure Connection.Vouched (c : Connection) : Prop where
  incoming : VouchedQos2 ok c.incomingQos2
  will : 0 < c.sessionGeneration → ∀ will, c.will = some will → ok will
  willing : ∀ will, c.phase = .willing will → ok will
  blank : c.connected = false → c.phase = .running → c.will = none

/-- The messages that a session record keeps. -/
structure Session.Vouched (session : Session) : Prop where
  incoming : ∀ snapshot, session.snapshot = some snapshot → VouchedQos2 ok snapshot.incomingQos2
  will : ∀ armed, session.pendingWill = some armed → ok armed.1

/-- The messages that travel between shards. -/
def MeshMsg.Vouched : MeshMsg → Prop
  | .publish message => ok message
  | .control (.handoff _ (some migrated)) => VouchedQos2 ok migrated.incomingQos2
  | _ => True

/-- The messages that a shard keeps. -/
structure ShardState.Vouched (s : ShardState) : Prop where
  record : ∀ k, (s.view k).All (Session.Vouched ok)
  reply : ∀ id migrated, some migrated ∈ s.claimReplies id → VouchedQos2 ok migrated.incomingQos2
  outbox : ∀ e ∈ s.controlTx.getD [], e.2.Vouched ok

/-- Every message that is kept anywhere is as asked. -/
structure Server.Vouched (srv : Server) : Prop where
  task : ∀ id c, srv.tasks id = some c → c.Vouched ok
  slot : ∀ slot r, srv.parking.slots.lookup slot = some r → ∀ will, r.will = some will → ok will
  shard : srv.shard.Vouched ok
  link : ∀ e ∈ srv.links, ok e.2

end Vouched

variable {ok ok' : Publish → Prop}

/-! ### What is kept on a shard -/

lemma VouchedQos2.empty : VouchedQos2 ok ∅ := fun _ _ h => by simp at h

lemma VouchedQos2.mono (h : ∀ message, ok message → ok' message) {messages : HashMap UInt16 Publish}
    (hm : VouchedQos2 ok messages) : VouchedQos2 ok' messages :=
  fun pkid message hlookup => h message (hm pkid message hlookup)

namespace Session

variable {session session' : Session}

section

variable (h : session.Vouched ok)
include h

/-- The snapshot is the same, and the will too, or it is gone. -/
lemma Vouched.fade (hsnapshot : session'.snapshot = session.snapshot)
    (hwill : session'.pendingWill = session.pendingWill ∨ session'.pendingWill = none) :
    session'.Vouched ok := by
  refine ⟨fun snapshot heq => h.incoming snapshot (hsnapshot.symm.trans heq), fun armed heq => ?_⟩
  rcases hwill with hwill | hwill
  · exact h.will armed (hwill.symm.trans heq)
  · exact nomatch hwill.symm.trans heq

lemma Vouched.fireWill (now : ℕ) : (session.fireWill now).Vouched ok := by
  unfold Session.fireWill
  split
  · exact h.fade rfl (.inr rfl)
  · exact h

/-- What a session record gives away when it migrates. -/
lemma Vouched.package (subscriptions : List FlatSub) :
    VouchedQos2 ok (ShardState.packageSession subscriptions session).incomingQos2 := by
  show VouchedQos2 ok (session.snapshot.getD {}).incomingQos2
  cases hsnapshot : session.snapshot with
  | none => exact .empty
  | some snapshot => exact h.incoming snapshot hsnapshot

lemma Vouched.armedWill {armed : ℕ × Publish} (harmed : session.armedWill = some armed) :
    ok armed.2 := by
  obtain ⟨will, hwill, rfl⟩ := map_eq_some_iff.mp harmed
  exact h.will will hwill

end

end Session

lemma MeshMsg.Plain.vouched {msg : MeshMsg} (h : msg.Plain) : msg.Vouched ok := by
  unfold Plain at h
  split at h
  · exact trivial
  · exact trivial
  · exact trivial
  · exact h.elim

lemma MeshMsg.Vouched.mono (hok : ∀ message, ok message → ok' message) {msg : MeshMsg}
    (h : msg.Vouched ok) : msg.Vouched ok' := by
  unfold MeshMsg.Vouched at h ⊢
  split
  · exact hok _ h
  · exact VouchedQos2.mono hok h
  · exact trivial

/-- What a peer is sent of a session. -/
lemma ShardState.Vouched.handedOver (h : s.Vouched ok) {c : String} {resume : Bool}
    {migrated : MigratedSession} (hover : (s.view c).handedOver resume = some migrated) :
    VouchedQos2 ok migrated.incomingQos2 := by
  obtain ⟨session, hs, hif⟩ := bind_eq_some_iff.mp hover
  obtain ⟨-, heq⟩ := ite_none_right_eq_some.mp hif
  exact some.inj heq ▸ (h.record c session hs).package _

/-- The wills that a sweep takes. -/
lemma ShardState.Vouched.sweptWills (h : s.Vouched ok) (now : ℕ) :
    ∀ armed ∈ s.sweptWills now, ok armed.2 := by
  intro armed hmem
  rw [sweptWills_eq, mem_append, mem_filterMap, mem_filterMap] at hmem
  rcases hmem with ⟨e, he, heq⟩ | ⟨e, he, heq⟩
  · have hrecord := h.record e.1 e.2 (AList.mem_lookup_iff.mpr he)
    exact hrecord.armedWill (ite_none_right_eq_some.mp heq).2
  · have hrecord := h.record e.1 e.2 (AList.mem_lookup_iff.mpr he)
    exact (hrecord.fireWill now).armedWill (ite_none_right_eq_some.mp heq).2

/-! ### Connections -/

namespace Connection

variable {env : Env} {c c' : Connection}

lemma Vouched.of_standing (h : c.Vouched ok) (hst : c'.standing = c.standing) : c'.Vouched ok := by
  have hincoming : c'.incomingQos2 = c.incomingQos2 := congrArg Standing.incomingQos2 hst
  have hwill : c'.will = c.will := congrArg Standing.will hst
  have hidentity : c'.identity = c.identity := congrArg Standing.identity hst
  have hphase : c'.phase = c.phase := congrArg Identity.phase hidentity
  have hgeneration : c'.sessionGeneration = c.sessionGeneration :=
    congrArg Identity.sessionGeneration hidentity
  have hconnected : c'.connected = c.connected := congrArg Identity.connected hidentity
  refine ⟨?_, ?_, ?_, ?_⟩
  · rw [hincoming]
    exact h.incoming
  · rw [hgeneration, hwill]
    exact h.will
  · rw [hphase]
    exact h.willing
  · rw [hconnected, hphase, hwill]
    exact h.blank

lemma Vouched.settle (h : c.Vouched ok) (outcome : Outcome) : (settle (c, outcome)).Vouched ok := by
  unfold Connection.settle
  split
  · exact h
  · exact ⟨h.incoming, h.will, fun _ hphase => (nomatch hphase), fun _ hphase => (nomatch hphase)⟩

/-- A connection at the end of its event loop. -/
lemma Vouched.ended (h : c.Vouched ok) (last : List Reply) {will : Option Publish}
    (hwill : will = c.will ∨ will = none) : (Server.ended c last will).Vouched ok := by
  refine ⟨h.incoming, fun hpos will' heq => ?_, fun _ hphase => (nomatch hphase),
    fun _ hphase => (nomatch hphase)⟩
  rcases hwill with rfl | rfl
  · exact h.will hpos will' heq
  · exact nomatch heq

section

variable (id shardId : ℕ) (limits : LimitsConfig)

lemma vouched_new (tlsIdentity : TlsIdentity) : (new id shardId limits tlsIdentity).Vouched ok :=
  ⟨.empty, fun hpos => absurd hpos (lt_irrefl 0), fun _ hphase => (nomatch hphase), fun _ _ => rfl⟩

lemma vouched_resume {r : ResumeState} (hr : ∀ will, r.will = some will → ok will) :
    (resume id shardId limits r).Vouched ok :=
  ⟨.empty, fun _ => hr, fun _ hphase => (nomatch hphase), fun hconnected => (nomatch hconnected)⟩

end

/-- Only a QoS 2 message is stored. -/
lemma incoming_acceptPublish (c : Connection) (shard : ShardState) (chance : Chance)
    (publish : Publish)
    (h : (c.acceptPublish env shard chance publish).conn.incomingQos2.lookup pkid = some message) :
    c.incomingQos2.lookup pkid = some message ∨ { publish with pkid := 0, dup := false } =
      message := by
  unfold acceptPublish at h
  generalize ({ publish with pkid := 0, dup := false } : Publish) = stored at h ⊢
  cases hqos : publish.qos with
  | atMostOnce =>
    rw [hqos] at h
    exact .inl h
  | atLeastOnce =>
    rw [hqos] at h
    exact .inl h
  | exactlyOnce =>
    rw [hqos] at h
    simp only [Turn.ofConn, storeQos2] at h
    split at h
    · exact .inl h
    · replace h : (c.incomingQos2.insert publish.pkid stored).lookup pkid = some message := h
      rw [AList.lookup_insert_eq_ite] at h
      split at h
      · exact .inr (some.inj h)
      · exact .inl h

section

variable (hconnected : c.connected = true) (shard : ShardState) (chance : Chance)
include hconnected

/-- A PUBLISH that is stored until its PUBREL was allowed. -/
lemma incoming_handlePublish (publish : Publish)
    (h : (c.handlePublish env shard chance publish).conn.incomingQos2.lookup pkid = some message) :
    c.incomingQos2.lookup pkid = some message ∨
      ∃ s, c.submits env (.publish publish) = some s ∧ s.Allowed env ∧ s.message = message := by
  obtain ⟨_, _, halias⟩ := c.resolveAlias_frame publish
  have husername := congrArg Connection.username halias
  have hincoming := congrArg Connection.incomingQos2 halias
  simp only [handlePublish, submits, hconnected, if_true] at h ⊢
  generalize c.resolveAlias publish = resolved at husername hincoming h ⊢
  obtain ⟨c', result⟩ := resolved
  cases result with
  | error e => exact .inl (hincoming ▸ h)
  | ok publish =>
    simp only at h ⊢
    split at h
    · exact .inl (hincoming ▸ h)
    · next hvalid =>
      split at h
      · obtain ⟨_, hdeny⟩ := c'.denyPublish_frame publish
        rw [hdeny] at h
        exact .inl (hincoming ▸ h)
      · next hauth =>
        rw [Bool.not_eq_false] at hvalid hauth
        have hallowed : Submission.Allowed env
          ⟨c.username, { publish with pkid := 0, dup := false }⟩ :=
          ⟨hvalid, husername ▸ hauth⟩
        rcases incoming_acceptPublish c' shard chance publish h with hold | heq
        · exact .inl (hincoming ▸ hold)
        · exact .inr ⟨_, rfl, hallowed, heq⟩

/-- What a packet adds to the QoS 2 messages: what it submits, if that is allowed. -/
lemma incoming_dispatch (packet : Packet)
    (h : (c.dispatch env shard chance packet).conn.incomingQos2.lookup pkid = some message) :
    c.incomingQos2.lookup pkid = some message ∨
      ∃ s, c.submits env packet = some s ∧ s.Allowed env ∧ s.message = message := by
  have hkept {c' : Connection} (hst : c'.standing.incomingQos2 = c.incomingQos2)
      (h : c'.incomingQos2.lookup pkid = some message) : c.incomingQos2.lookup pkid =
        some message :=
    hst ▸ h
  cases packet with
  | publish publish => exact incoming_handlePublish hconnected shard chance publish h
  | pubRel pkid' =>
    refine .inl ?_
    simp only [dispatch, handlePubrel] at h
    split at h
    · exact h
    · replace h : (c.incomingQos2.erase pkid').lookup pkid = some message := h
      rw [AList.lookup_erase_eq_ite] at h
      exact (ite_none_left_eq_some.mp h).2
  | subscribe subscribe =>
    obtain ⟨_, hst⟩ := standing_handleSubscribe env c shard subscribe
    exact .inl (hkept (congrArg Standing.incomingQos2 hst) h)
  | unsubscribe unsubscribe =>
    obtain ⟨_, hst⟩ := standing_unsubscribeAll unsubscribe.filters (c, shard)
    exact .inl (hkept (congrArg Standing.incomingQos2 hst) h)
  | pubAck pkid' | pubComp pkid' =>
    exact .inl (hkept (congrArg Standing.incomingQos2 (standing_release env c pkid')) h)
  | pubRec pkid' =>
    exact .inl (hkept (congrArg Standing.incomingQos2 (standing_handlePubrec c pkid')) h)
  | disconnect reason =>
    refine .inl (hkept ?_ h)
    show (c.handleDisconnect reason).1.incomingQos2 = _
    unfold handleDisconnect
    split <;> rfl
  | connect | pingReq | serverOnly => exact .inl h

end

lemma Vouched.dispatch (h : c.Vouched ok) (hconnected : c.connected = true) (shard : ShardState)
    (chance : Chance) (packet : Packet)
    (hsub : ∀ s, c.submits env packet = some s → s.Allowed env → ok s.message) :
    (c.dispatch env shard chance packet).conn.Vouched ok := by
  obtain ⟨will, incomingQos2, inboundAliases, subscriptionCount, hwill, hst⟩ :=
    standing_dispatch env c shard chance packet
  have hincoming : VouchedQos2 ok (c.dispatch env shard chance packet).conn.incomingQos2 := by
    intro pkid message hlookup
    rcases incoming_dispatch hconnected shard chance packet hlookup with hold |
      ⟨s, hs, hallowed, rfl⟩
    · exact h.incoming pkid message hold
    · exact hsub s hs hallowed
  generalize (c.dispatch env shard chance packet).conn = c' at hst hincoming
  have hidentity : c'.identity = c.identity := congrArg Standing.identity hst
  have hwill' : c'.will = will := congrArg Standing.will hst
  have hphase : c'.phase = c.phase := congrArg Identity.phase hidentity
  refine ⟨hincoming, fun hpos will' heq => ?_, fun will' heq => h.willing will' (hphase ▸ heq),
    fun hnot => ?_⟩
  · have hgeneration : c'.sessionGeneration = c.sessionGeneration :=
      congrArg Identity.sessionGeneration hidentity
    have hpos' : 0 < c.sessionGeneration := hgeneration ▸ hpos
    rcases hwill with rfl | ⟨rfl, -⟩
    · exact h.will hpos' will' (hwill'.symm.trans heq)
    · exact nomatch hwill'.symm.trans heq
  · have hconn : c'.connected = c.connected := congrArg Identity.connected hidentity
    rw [hconn, hconnected] at hnot
    exact nomatch hnot

/-! ### CONNECT -/

lemma checkWill_eq_some (h : (c.checkWill env).will = some will) :
    c.will = some will ∧ validPublishTopic will.topic = true ∧
      env.auth.authorizePublish c.username will.topic = true := by
  unfold checkWill at h
  split at h
  · next hall =>
    refine ⟨h, ?_⟩
    rw [h, all_some, Bool.and_eq_true] at hall
    exact hall
  · exact nomatch h

lemma will_openHandle (c : Connection) (shard : ShardState) (chance : Chance)
    (cleanStart assigned : Bool) :
    (c.openHandle env shard chance cleanStart assigned).conn.will = c.will := by
  obtain ⟨_, _, -, hst⟩ := standing_openHandle env c shard chance cleanStart assigned
  exact congrArg Standing.will hst

section

variable (hwill : c.will = none) (hconnected : c.connected = false) (shard : ShardState)
  (chance : Chance) (connect : Connect)
include hwill hconnected

/-- The will of a client that is let in passed the check. -/
lemma will_acceptConnect (h : (c.acceptConnect env shard chance connect).conn.will = some will) :
    (c.acceptConnect env shard chance connect).conn.sessionGeneration = c.sessionGeneration ∨
      ∃ s, c.submits env (.connect connect) = some s ∧ s.Allowed env ∧ s.message = will := by
  obtain ⟨will', willDelay', hstash⟩ := c.stashWill_frame connect.lastWill
  have htls : (c.stashWill connect.lastWill).tlsIdentity = c.tlsIdentity := by rw [hstash]
  simp only [acceptConnect, submits, hconnected, Bool.false_eq_true, if_false, htls] at h ⊢
  cases hauth : authenticate env c.tlsIdentity connect.login with
  | error code =>
    rw [hstash]
    exact .inl rfl
  | ok username =>
    rw [hauth] at h
    rw [will_openHandle] at h
    obtain ⟨hstashed, hallowed⟩ := checkWill_eq_some h
    refine .inr ?_
    cases hlast : connect.lastWill with
    | none =>
      rw [hlast] at hstashed
      exact nomatch hwill.symm.trans hstashed
    | some w =>
      rw [hlast] at hstashed
      obtain rfl : w.publish = will := some.inj hstashed
      exact ⟨_, rfl, hallowed, rfl⟩

lemma will_handleConnect (h : (c.handleConnect env shard chance connect).conn.will = some will) :
    (c.handleConnect env shard chance connect).conn.sessionGeneration = c.sessionGeneration ∨
      ∃ s, c.submits env (.connect connect) = some s ∧ s.Allowed env ∧ s.message = will := by
  unfold handleConnect at h ⊢
  split
  · next hid =>
    rw [if_pos hid] at h
    refine will_acceptConnect ?_ ?_ _ chance connect h
    · exact hwill
    · exact hconnected
  · next hid =>
    rw [if_neg hid] at h
    split
    · exact .inl rfl
    · next hvalid =>
      rw [if_neg hvalid] at h
      refine will_acceptConnect ?_ ?_ _ chance connect h
      · exact hwill
      · exact hconnected

end

lemma vouched_handle (h : shard.Vouched ok) (k : String) (mailbox : ℕ) (cleanStart : Bool) :
    VouchedQos2 ok (shard.openSession k mailbox cleanStart).2.snapshot.incomingQos2 := by
  cases hresumed : (shard.openSession k mailbox cleanStart).2.resumed with
  | false =>
    rw [snapshot_openSession shard k mailbox cleanStart hresumed]
    exact .empty
  | true =>
    rw [Server.resumed_openSession, Bool.and_eq_true, Bool.not_eq_true',
      isSome_iff_exists] at hresumed
    obtain ⟨rfl, session, hs⟩ := hresumed
    rw [handle_of_resume hs mailbox]
    exact (h.record k session hs).package []

lemma Vouched.openHandle {c₁ : Connection} (hvet : Vetted c c₁) (hconnected : c.connected = false)
    (hshard : shard.Vouched ok) (chance : Chance) (cleanStart assigned : Bool)
    (hwill : ∀ will, c₁.will = some will → ok will) :
    (c₁.openHandle env shard chance cleanStart assigned).conn.Vouched ok := by
  obtain ⟨connected, phase, hstage, hst⟩ := standing_openHandle env c₁ shard chance
    cleanStart assigned
  obtain ⟨_, _, _, _, _, _, _, _, hvet⟩ := hvet
  have hconnected₁ : c₁.connected = false := by rw [hvet]; exact hconnected
  generalize (c₁.openHandle env shard chance cleanStart assigned).conn = c' at hst
  have hincoming : c'.incomingQos2 =
      (shard.openSession c₁.clientId c₁.mailboxRx cleanStart).2.snapshot.incomingQos2 :=
    congrArg Standing.incomingQos2 hst
  have hwill' : c'.will = c₁.will := congrArg Standing.will hst
  have hphase' : c'.phase = phase := congrArg (·.identity.phase) hst
  have hconnected' : c'.connected = connected := congrArg (·.identity.connected) hst
  refine ⟨?_, fun _ will heq => hwill will (hwill'.symm.trans heq), fun will heq => ?_,
    fun hnot hrun => ?_⟩
  · rw [hincoming]
    exact vouched_handle hshard _ _ _
  · rw [hphase'] at heq
    rcases hstage with ⟨-, rfl⟩ | ⟨-, _, rfl⟩
    · exact nomatch heq
    · exact nomatch heq
  · rw [hphase'] at hrun
    rw [hconnected'] at hnot
    rcases hstage with ⟨rfl, -⟩ | ⟨-, _, rfl⟩
    · exact nomatch hnot
    · exact nomatch hrun

/-- A connection after a packet. -/
lemma Vouched.processOne (h : c.Vouched ok) (hphase : c.phase = .running)
    (hunopened : c.connected = false → c.sessionGeneration = 0) (hshard : shard.Vouched ok)
    (chance : Chance) (packet : Packet)
    (hsub : ∀ s, c.submits env packet = some s → s.Allowed env → ok s.message) :
    (Connection.settle ((c.processOne env shard chance packet).conn,
      (c.processOne env shard chance packet).outcome)).Vouched ok := by
  cases answer_processOne env c shard chance packet with
  | served hconnected hturn =>
    rw [hturn]
    exact (h.dispatch hconnected shard chance packet hsub).settle _
  | @refused c₁ c₂ n e hconnected hvet hturn hstanding =>
    rw [hturn]
    obtain ⟨_, _, _, _, _, _, _, _, hvet⟩ := hvet
    have hincoming : c₂.incomingQos2 = c.incomingQos2 := by
      rw [show c₂.incomingQos2 = c₁.incomingQos2 from congrArg Standing.incomingQos2
        hstanding, hvet]
    have hgeneration : c₂.sessionGeneration = 0 := by
      rw [show c₂.sessionGeneration = c₁.sessionGeneration from
        congrArg (·.identity.sessionGeneration) hstanding, hvet]
      exact hunopened hconnected
    -- the will stays with a connection that never had a generation
    refine ⟨?_, fun hpos => absurd hgeneration (Nat.pos_iff_ne_zero.mp hpos), fun _ hend =>
      (nomatch hend),
      fun _ hend => (nomatch hend)⟩
    show VouchedQos2 ok c₂.incomingQos2
    rw [hincoming]
    exact h.incoming
  | @opened c₁ n connect hconnected hpacket hvet hname hturn =>
    subst hpacket
    have hprocess : c.processOne env shard chance (.connect connect) =
        c.handleConnect env shard chance connect := by
      simp only [Connection.processOne, hconnected, Bool.false_eq_true, if_false]
    have hgeneration : (c.processOne env shard chance (.connect connect)).conn.sessionGeneration ≠
        c.sessionGeneration := by
      obtain ⟨_, _, -, hst⟩ := standing_openHandle env c₁ { shard with nextAssignedId := n } chance
        connect.cleanSession (connect.clientId = "")
      rw [hturn, hunopened hconnected,
        show sessionGeneration _ = shard.nextGeneration + 1 from
          congrArg (·.identity.sessionGeneration) hst]
      exact Nat.succ_ne_zero _
    have hwill : ∀ will, c₁.will = some will → ok will := by
      intro will heq
      have hchecked : (c.handleConnect env shard chance connect).conn.will = some will := by
        rw [← hprocess, hturn, will_openHandle]
        exact heq
      rcases will_handleConnect (h.blank hconnected hphase) hconnected shard chance connect
        hchecked with
        hsame | ⟨s, hs, hallowed, rfl⟩
      · rw [← hprocess] at hsame
        exact absurd hsame hgeneration
      · exact hsub s hs hallowed
    have hcounted : ({ shard with nextAssignedId := n } : ShardState).Vouched ok :=
      ⟨hshard.record, hshard.reply, hshard.outbox⟩
    rw [hturn]
    exact (Vouched.openHandle hvet hconnected hcounted chance _ _ hwill).settle _

/-- A connection after a claim. -/
lemma Vouched.claimed (env : Env) (h : c.Vouched ok) (shard : ShardState) (chance : Chance)
    (assigned : Bool) {found : Option MigratedSession}
    (hfound : ∀ migrated, found = some migrated → VouchedQos2 ok migrated.incomingQos2) :
    (c.claimed env shard chance assigned found).conn.Vouched ok := by
  have hst := standing_claimed env c shard chance assigned found
  generalize (c.claimed env shard chance assigned found).conn = c' at hst
  have hincoming : c'.incomingQos2 = (found.map (·.incomingQos2)).getD c.incomingQos2 :=
    congrArg Standing.incomingQos2 hst
  have hwill : c'.will = c.will := congrArg Standing.will hst
  have hphase : c'.phase = .running := congrArg (·.identity.phase) hst
  have hconnected : c'.connected = true := congrArg (·.identity.connected) hst
  have hgeneration : c'.sessionGeneration = c.sessionGeneration :=
    congrArg (·.identity.sessionGeneration) hst
  refine ⟨?_, fun hpos will heq => h.will (hgeneration ▸ hpos) will (hwill.symm.trans heq),
    fun will heq => (nomatch hphase.symm.trans heq), fun hnot =>
      (nomatch hconnected.symm.trans hnot)⟩
  rw [hincoming]
  cases found with
  | none => exact h.incoming
  | some migrated => exact hfound migrated rfl

end Connection

/-! ### Pieces of work -/

namespace Server

variable {env : Env} {srv srv' : Server} {op : ServerOp} {c : Connection}

/-- What a piece of work brings in from outside is as asked. -/
structure Brings (env : Env) (ok : Publish → Prop) (srv : Server) (op : ServerOp) : Prop where
  submitted : ∀ s, srv.submits env op = some s → s.Allowed env → ok s.message
  mesh : ∀ msg, op = .mesh msg → msg.Vouched ok
  own : ∀ message chance, op = .publish message chance → ok message
  loaded : ∀ sessions, op = .load sessions → ∀ ps ∈ sessions, VouchedQos2 ok ps.session.incomingQos2

lemma submits_packet (p : Packet) (chance : Chance) (hc : srv.tasks id = some c)
    (hphase : c.phase = .running) : srv.submits env (.packet id p chance) = c.submits env p := by
  have hat : srv.taskAt id .running = some c := by simp [taskAt, hc, hphase]
  simp only [submits, hat, bind_some]

/-- A weaker predicate. -/
lemma Vouched.mono (hok : ∀ message, ok message → ok' message) (h : srv.Vouched ok) :
    srv.Vouched ok' where
  task id c hc :=
    have hkept := h.task id c hc
    ⟨hkept.incoming.mono hok, fun hpos will heq => hok will (hkept.will hpos will heq),
      fun will heq => hok will (hkept.willing will heq), hkept.blank⟩
  slot slot r hr will hwill := hok will (h.slot slot r hr will hwill)
  shard :=
    ⟨fun k session hs =>
      have hrecord := h.shard.record k session hs
      ⟨fun snapshot heq => (hrecord.incoming snapshot heq).mono hok,
        fun armed heq => hok _ (hrecord.will armed heq)⟩,
      fun id migrated hmem => (h.shard.reply id migrated hmem).mono hok,
      fun e he => (h.shard.outbox e he).mono hok⟩
  link e he := hok e.2 (h.link e he)

/-- What a packet of an accepted connection routes. -/
lemma vouched_routes (h : c.Vouched ok) (hconnected : c.connected = true) (p : Packet)
    (hsub : ∀ s, c.submits env p = some s → s.Allowed env → ok s.message) :
    ∀ message ∈ c.routes env p, ok message := by
  intro message hmem
  cases p with
  | publish publish =>
    simp only [Connection.routes, Connection.submits, hconnected, if_true] at hmem hsub
    split at hmem
    · exact nomatch hmem
    · next publish' hresolved =>
      rw [hresolved] at hsub
      split at hmem
      · next hguard =>
        rw [mem_singleton.mp hmem]
        exact hsub _ rfl ⟨hguard.1, hguard.2.1⟩
      · exact nomatch hmem
  | pubRel pkid => exact h.incoming pkid message (mem_toList.mp hmem)
  | _ => exact nomatch hmem

/-- Every message that is routed is as asked. -/
lemma Vouched.routed (h : srv.Vouched ok) (hbrings : Brings env ok srv op) :
    ∀ message ∈ srv.routed env op, ok message := by
  intro message hmem
  cases op with
  | packet id p chance =>
    simp only [Server.routed] at hmem
    split at hmem
    · cases hmem
    · next c hat =>
      obtain ⟨hc, hphase⟩ := tasks_of_taskAt hat
      have hsub := hbrings.submitted
      rw [submits_packet p chance hc hphase] at hsub
      split at hmem
      · next hconnected => exact vouched_routes (h.task id c hc) hconnected p hsub message hmem
      · cases hmem
  | mesh msg =>
    have hmsg := hbrings.mesh msg rfl
    cases msg with
    | publish publish => exact mem_singleton.mp hmem ▸ hmsg
    | control | shared => cases hmem
  | publish own chance => exact mem_singleton.mp hmem ▸ hbrings.own own chance rfl
  | publishWill id chance =>
    obtain ⟨⟨g, will⟩, hfired, rfl⟩ := mem_map.mp hmem
    simp only [fired] at hfired
    split at hfired
    · cases hfired
    · next c hc =>
      split at hfired
      · next will' hphase =>
        obtain ⟨-, rfl⟩ := Prod.mk.injEq .. ▸ mem_singleton.mp hfired
        exact (h.task id c hc).willing _ hphase
      · cases hfired
  | reap slot chance =>
    obtain ⟨⟨g, will⟩, hfired, rfl⟩ := mem_map.mp hmem
    simp only [fired] at hfired
    split at hfired
    · cases hfired
    · next parking r htaken =>
      split at hfired
      · obtain ⟨will', hwill, heq⟩ := mem_map.mp hfired
        obtain ⟨-, rfl⟩ := Prod.mk.injEq .. ▸ heq
        exact h.slot slot r (takeSlot_spec htaken).1 _ (mem_toList.mp hwill)
      · cases hfired
  | sweep chance =>
    obtain ⟨armed, hfired, rfl⟩ := mem_map.mp hmem
    exact h.shard.sweptWills srv.now armed hfired
  | _ => cases hmem

/-- A connection whose session is still its own had its will checked. -/
lemma Vouched.will_of_current (h : srv.Vouched ok) (hinv : srv.Inv) (hc : srv.tasks id = some c)
    (howned : srv.shard.Current c.clientId c.sessionGeneration) (hwill : c.will = some will) :
      ok will := by
  obtain ⟨session, hs, hgen⟩ := howned
  exact (h.task id c hc).will (hgen ▸ hinv.generation_pos _ session hs) will hwill

lemma Vouched.wills (h : srv.Vouched ok) (hinv : srv.Inv) (hwill : srv.Wills will) : ok will := by
  rcases hwill with ⟨id, c, hc, hwill, howned⟩ | ⟨slot, r, hr, hwill⟩
  · exact h.will_of_current hinv hc howned hwill
  · exact h.slot slot r hr will hwill

/-- One edit of a session record. -/
lemma Edit.vouched {k : String} {v v' : ClientView} (hedit : srv.Edit op k v v') (hinv : srv.Inv)
    (h : srv.Vouched ok) (hbrings : Brings env ok srv op) (hv : v.All (Session.Vouched ok)) :
    v'.All (Session.Vouched ok) := by
  cases hedit with
  | received hreceived =>
    refine hreceived.all hv fun session queue wake => propext ⟨fun h => ?_, fun h => ?_⟩
    · exact h.fade rfl (.inl rfl)
    · exact h.fade rfl (.inl rfl)
  | marked | subscribed | unsubscribed | installed => exact hv
  | opened =>
    exact ClientView.all_opened ⟨fun _ h => (nomatch h), fun _ h => (nomatch h)⟩ fun session _ =>
      ⟨fun _ h => (nomatch h), fun _ h => (nomatch h)⟩
  | closed hop hc =>
    exact hv.change (v.change_closed ..) fun _ _ _ hs =>
      ⟨fun _ heq => some.inj heq ▸ (h.task _ _ hc).incoming, hs.will⟩
  | parked =>
    exact hv.change (v.change_parked ..) fun _ _ _ hs =>
      ⟨fun _ heq => some.inj heq ▸ .empty, hs.will⟩
  | reattached =>
    exact hv.change (v.change_reattached ..) fun _ _ _ hs => ⟨fun _ heq => (nomatch heq), hs.will⟩
  | suspended => exact hv.change (v.change_suspended ..) fun _ _ _ hs => hs.fade rfl (.inl rfl)
  | willArmed generation will delaySecs horigin =>
    exact hv.change (v.change_willArmed ..) fun _ _ _ hs =>
      ⟨hs.incoming, fun _ heq => some.inj heq ▸ h.wills hinv horigin⟩
  | swept => exact hv.change (v.change_swept _) fun _ _ _ hs => hs.fireWill _
  | claimed => exact hv.change v.change_claimed fun _ _ => False.elim
  | shed => exact hv.change v.change_shed fun _ _ _ hs => hs.fade rfl (.inl rfl)
  | loaded hop hps =>
    exact ClientView.all_some rfl
      ⟨fun _ heq => some.inj heq ▸ hbrings.loaded _ hop _ hps, fun _ heq => nomatch heq⟩

lemma snapshot_of_reattach {s' : ShardState} {k : String} {session : Session}
    {generation mailbox : ℕ} {snapshot : SessionSnapshot} {queued : List Delivery}
    (hs : s.sessions.lookup k = some session)
    (h : s.reattachParked k generation mailbox = (s', some (snapshot, queued))) :
    snapshot = session.snapshot.getD {} := by
  simp only [ShardState.reattachParked, hs] at h
  split at h
  · cases h
  · cases h
    rfl

/-- A task that is new, or not what it was. -/
lemma Heir.vouched {c' : Connection} (hheir : Heir env srv op id c') (hinv : srv.Inv)
    (h : srv.Vouched ok) (hbrings : Brings env ok srv op) : c'.Vouched ok := by
  cases hheir with
  | accepted tlsIdentity => exact vouched_new _ _ _ _
  | @processed c p chance hop hc hphase =>
    have hsub := hbrings.submitted
    rw [hop, submits_packet p chance hc hphase] at hsub
    exact (h.task id c hc).processOne hphase (hinv.unopened id c hc · hphase) h.shard chance p hsub
  | received _ hc => exact ((h.task id _ hc).of_standing (standing_receive ..)).settle _
  | ended hc _ _ hwill => exact (h.task id _ hc).ended _ hwill
  | claimGoesOn hc =>
    have hkept := h.task id _ hc
    exact ⟨hkept.incoming, hkept.will, fun _ hp => (nomatch hp), fun _ hp => (nomatch hp)⟩
  | claimed hop hc =>
    refine ((h.task id _ hc).claimed env _ _ _ fun migrated heq => ?_).settle _
    rcases hop with ⟨-, rest, hreplies⟩ | ⟨-, hnone⟩
    · exact h.shard.reply id migrated (by rw [hreplies, heq]; exact mem_cons_self)
    · exact nomatch hnone.symm.trans heq
  | willing _ hc _ hwill howned =>
    have hok := h.will_of_current hinv hc howned hwill
    exact ⟨.empty, fun _ _ heq => (nomatch heq), fun _ heq => Phase.willing.inj heq ▸ hok,
      fun _ hp => (nomatch hp)⟩
  | unparked _ hc _ _ howned =>
    exact vouched_resume _ _ _ fun _ => h.will_of_current hinv hc howned
  | woken _ hr => exact vouched_resume _ _ _ (h.slot _ _ hr)
  | reattachLost _ hc =>
    exact ⟨(h.task id _ hc).incoming, fun _ _ heq => (nomatch heq), fun _ hp => (nomatch hp),
      fun _ hp => (nomatch hp)⟩
  | @reattached c chance shard snapshot queued hop hc hphase hreattach =>
    obtain ⟨session, hs, -⟩ := ShardState.reattachParked_eq_some hreattach
    obtain rfl := snapshot_of_reattach hs hreattach
    have hrestored : ({ c with mailboxTx := none, phase := .running }.restore
        (session.snapshot.getD {})).Vouched ok := by
      refine ⟨(h.shard.record _ session hs).package [], (h.task id c hc).will, fun _ hp =>
        (nomatch hp),
        fun hnot => ?_⟩
      exact nomatch ((hinv.sound id c hc).resuming hphase).2.symm.trans hnot
    exact (hrestored.of_standing (standing_resumeDelivery ..)).settle _

/-- Every message that is kept anywhere afterwards is as asked. -/
lemma Vouched.apply (h : srv.Vouched ok) (hinv : srv.Inv) (hbrings : Brings env ok srv op) :
    (srv.apply env op).Vouched ok := by
  have hmove := move_apply env srv op
  refine ⟨fun id c hc => ?_, fun slot r hr will hwill => ?_,
    ⟨fun k => ?_, fun id migrated hmem => ?_,
    fun e he => ?_⟩, fun e he => ?_⟩
  · rcases hmove.heir hc with hold | hheir
    · exact h.task id c hold
    · exact hheir.vouched hinv h hbrings
  · rcases hmove.parked hr with hold | ⟨id, c, -, hc, -, -, rfl, howned⟩
    · exact h.slot slot r hold will hwill
    · exact h.will_of_current hinv hc howned hwill
  · have hchain {v : ClientView}
      (hedits : Relation.ReflTransGen (srv.Edit op k) (srv.shard.view k) v) :
        v.All (Session.Vouched ok) := by
      induction hedits with
      | refl => exact h.shard.record k
      | tail _ hedit ih => exact hedit.vouched hinv h hbrings ih
    exact hchain (hmove.edits k)
  · rcases hmove.replies hmem with hold | ⟨c, hop, -⟩
    · exact h.shard.reply id migrated hold
    · exact hbrings.mesh _ hop
  · rcases hmove.outbox he with hold | hplain | ⟨c, _, resume, migrated, -, hover, heq⟩
    · exact h.shard.outbox e hold
    · exact hplain.vouched
    · rw [heq]
      exact h.shard.handedOver hover
  · rcases (routes_apply env srv op).forwards e he with hold | hrouted
    · exact h.link e hold
    · exact h.routed hbrings e.2 hrouted

end Server

end Rusquitto
