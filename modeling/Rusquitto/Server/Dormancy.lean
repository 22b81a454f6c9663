import Rusquitto.Server.Heirs

/-!
# A parked connection is a connection

An idle connection parks: its task ends, a `ResumeState` remains, and messages queue in the session,
until a new task rebuilds the connection and replays the queue. The client cannot tell
(`parking_is_transparent`). What differs is the mailbox, the accounts of the task, and the identity
from the TLS handshake, of which a connection on a plain socket has none.
-/

namespace Rusquitto

open Connection List

/-! ### Routing to one client -/

namespace ShardState

/-- Routes deliveries to one client, one after the other. -/
def deliverAll (s : ShardState) (clientId : String) (ds : List Delivery) : ShardState :=
  ds.foldl (fun s d => s.deliverTo clientId d) s

variable {s : ShardState} {k : String} {session : Session}

/-- A live connection finds everything in its mailbox. -/
lemma channels_deliverAll {id : ℕ} (hs : s.sessions.lookup k = some session)
    (hmailbox : session.mailbox = some id) (ds : List Delivery)
    (hroom : (s.channels id).length + ds.length ≤ mailboxLimit) :
    (s.deliverAll k ds).channels id = s.channels id ++ ds := by
  induction ds generalizing s with
  | nil => exact (append_nil _).symm
  | cons d rest ih =>
    rw [length_cons] at hroom
    have hone : s.deliverTo k d =
        { s with channels := Function.update s.channels id (s.channels id ++ [d]) } := by
      rw [deliverTo, hs]
      simp only [hmailbox]
      rw [if_pos (by omega)]
    have hchannel : (s.deliverTo k d).channels id = s.channels id ++ [d] := by
      rw [hone]
      exact Function.update_self ..
    have hlookup : (s.deliverTo k d).sessions.lookup k = some session := by
      rw [hone]
      exact hs
    have hrest := ih hlookup (by rw [hchannel, length_append, length_singleton]; omega)
    rw [hchannel, append_assoc] at hrest
    exact hrest

/-- For a parked connection everything queues in the session. -/
lemma lookup_deliverAll_of_parked (hs : s.sessions.lookup k = some session)
    (hmailbox : session.mailbox = none) (hparked : session.parked = true) (ds : List Delivery)
    (hroom : session.offlineQueue.length + ds.length ≤ offlineQueueLimit) :
    ∃ wakePending, (s.deliverAll k ds).sessions.lookup k =
      some { session with wakePending, offlineQueue := session.offlineQueue ++ ds } := by
  induction ds generalizing s session with
  | nil =>
    refine ⟨session.wakePending, ?_⟩
    rw [append_nil]
    exact hs
  | cons d rest ih =>
    rw [length_cons] at hroom
    have hone : (s.deliverTo k d).sessions.lookup k = some
        { session with wakePending := true, offlineQueue := session.offlineQueue ++ [d] } := by
      have hqueue : session.enqueue d =
          { session with offlineQueue := session.offlineQueue ++ [d] } := by
        rw [Session.enqueue, pushBounded, if_neg (by omega)]
      rw [deliverTo, hs]
      dsimp only
      split
      · next id hid => cases hid.symm.trans hmailbox
      · rw [if_pos hparked, hqueue]
        exact AList.lookup_insert s.sessions
    obtain ⟨wakePending, hrest⟩ := ih hone hmailbox hparked
      (by rw [length_append, length_singleton]; omega)
    refine ⟨wakePending, ?_⟩
    simp only [append_assoc, singleton_append] at hrest
    exact hrest

end ShardState

namespace Connection

/-! ### Connections that differ in their mailbox only -/

/-- A connection without its mailbox and its accounts. -/
def core (c : Connection) : Connection :=
  { c with
    mailboxTx := none
    mailboxRx := 0
    tlsIdentity := .none
    outbound := []
    messagesSent := 0
    ledger := {} }

lemma eq_of_core {c c' : Connection} (h : c'.core = c.core) {mailboxTx : Option ℕ} {mailboxRx : ℕ}
    {tlsIdentity : TlsIdentity} (htx : c'.mailboxTx = mailboxTx) (hrx : c'.mailboxRx = mailboxRx)
    (htls : c'.tlsIdentity = tlsIdentity) :
    c' =
      { c with
        mailboxTx
        mailboxRx
        tlsIdentity
        outbound := c'.outbound
        messagesSent := c'.messagesSent
        ledger := c'.ledger } := by
  subst htx hrx htls
  calc
    c' =
      { c'.core with
        mailboxTx := c'.mailboxTx
        mailboxRx := c'.mailboxRx
        tlsIdentity := c'.tlsIdentity
        outbound := c'.outbound
        messagesSent := c'.messagesSent
        ledger := c'.ledger } := rfl
    _ = _ := by rw [h]; rfl

/-- Two connections come out of a piece of work alike, and have said the same in it. -/
structure Alike (said said' : List Reply) (r r' : Connection × Outcome) : Prop where
  outcome : r'.2 = r.2
  core : r'.1.core = r.1.core
  outbound : ∃ new, r.1.outbound = said ++ new ∧ r'.1.outbound = said' ++ new

variable {env : Env} {c c' : Connection}

lemma Alike.silent {c₁ c₁' : Connection} {outcome : Outcome} (hcore : c₁'.core = c₁.core) :
    Alike c₁.outbound c₁'.outbound (c₁, outcome) (c₁', outcome) :=
  ⟨rfl, hcore, [], (append_nil _).symm, (append_nil _).symm⟩

lemma Alike.andThen {said said' : List Reply} {r r' : Connection × Outcome}
    {k k' : Connection → Connection × Outcome} (h : Alike said said' r r')
    (hk : ∀ c₁ c₁' : Connection, c₁'.core = c₁.core →
      Alike c₁.outbound c₁'.outbound (k c₁) (k' c₁')) :
    Alike said said' (andThen r k) (andThen r' k') := by
  obtain ⟨c₁, res⟩ := r
  obtain ⟨c₁', res'⟩ := r'
  obtain ⟨hres, hcore, new, hout, hout'⟩ := h
  obtain rfl : res' = res := hres
  cases res' with
  | error e => exact ⟨rfl, hcore, new, hout, hout'⟩
  | ok =>
    obtain ⟨hres, hcore', more, hmore, hmore'⟩ := hk c₁ c₁' hcore
    refine ⟨hres, hcore', new ++ more, ?_, ?_⟩
    · rw [← append_assoc, ← hout]
      exact hmore
    · rw [← append_assoc, ← hout']
      exact hmore'

lemma alike_transmit (h : c'.core = c.core) (message : Publish) (stage : Option InflightState) :
    Alike c.outbound c'.outbound (c.transmit env message stage)
      (c'.transmit env message stage) := by
  have haliases : c'.aliases = c.aliases := (congrArg aliases h :)
  have haliasMax : c'.peerTopicAliasMax = c.peerTopicAliasMax :=
    (congrArg peerTopicAliasMax h :)
  have hsize : c'.peerMaxPacketSize = c.peerMaxPacketSize :=
    (congrArg peerMaxPacketSize h :)
  have hlarge (bytes : List UInt8) :
      (c'.peerMaxPacketSize.any fun max => decide (max.toNat < bytes.length)) =
        c.peerMaxPacketSize.any fun max => decide (max.toNat < bytes.length) := by
    rw [hsize]
  -- an alias depends on the alias tables and on what the client allows
  have halias : c'.applyAlias message = c.applyAlias message := by
    rw [applyAlias, applyAlias, haliases, haliasMax]
  have hwith (aliases : AliasTables) : { c'.core with aliases } = { c.core with aliases } := by
    rw [h]
  unfold transmit
  rw [halias]
  simp only [hlarge]
  generalize c.applyAlias message = applied
  obtain ⟨aliases, onWire, newlyAliased⟩ := applied
  split
  · exact ⟨rfl, hwith _, [], (append_nil _).symm, (append_nil _).symm⟩
  · split
    · exact ⟨rfl, hwith _, [], (append_nil _).symm, (append_nil _).symm⟩
    · refine ⟨rfl, ?_, [.publish onWire], ?_, ?_⟩
      · cases stage with
        | none => exact hwith aliases
        | some state =>
          have hrecorded (c : Connection) : (record
              { c with
                aliases
                outbound := c.outbound ++ [.publish onWire]
                messagesSent := c.messagesSent + 1 } message (some state)).core =
              { c.core with
                aliases, inflight := c.core.inflight.insert message.pkid ⟨message, state⟩ } := rfl
          rw [hrecorded, hrecorded, h]
      · cases stage <;> rfl
      · cases stage <;> rfl

lemma alike_sendPublish (h : c'.core = c.core) (d : Delivery) :
    Alike c.outbound c'.outbound (c.sendPublish env d) (c'.sendPublish env d) := by
  have hinflight : c'.inflight = c.inflight := (congrArg inflight h :)
  have hcursor : c'.nextPkid = c.nextPkid := (congrArg nextPkid h :)
  have hpkid : c'.allocPkid = c.allocPkid := by
    rw [allocPkid, allocPkid, hinflight, hcursor]
  have hnext : { c' with nextPkid := c.allocPkid }.core =
    { c with nextPkid := c.allocPkid }.core := by
    change { c'.core with nextPkid := c.allocPkid } = { c.core with nextPkid := c.allocPkid }
    rw [h]
  unfold sendPublish assignPkid
  rw [hpkid]
  cases d.qos with
  | atMostOnce => exact alike_transmit h _ _
  | atLeastOnce => exact alike_transmit hnext _ _
  | exactlyOnce => exact alike_transmit hnext _ _

lemma alike_deliver (h : c'.core = c.core) (d : Delivery) :
    Alike c.outbound c'.outbound (c.deliver env d) (c'.deliver env d) := by
  have hinflight : c'.inflight = c.inflight := (congrArg inflight h :)
  have hmax : c'.peerReceiveMax = c.peerReceiveMax := (congrArg peerReceiveMax h :)
  have hlimits : c'.limits = c.limits := (congrArg limits h :)
  have hpending : c'.pendingOutbound = c.pendingOutbound :=
    (congrArg pendingOutbound h :)
  have hroom : c'.hasRoom = c.hasRoom := by
    rw [hasRoom, hasRoom, outboundWindow, outboundWindow, hinflight, hmax, hlimits]
  have hheld (queue : List Delivery) : { c'.core with pendingOutbound := queue } =
      { c.core with pendingOutbound := queue } := by
    rw [h]
  unfold deliver
  rw [hroom]
  split
  · exact alike_sendPublish h d
  · unfold holdBack
    rw [hpending]
    split
    · exact ⟨rfl, hheld _, [], (append_nil _).symm, (append_nil _).symm⟩
    · exact ⟨rfl, hheld _, [], (append_nil _).symm, (append_nil _).symm⟩

/-! ### Draining a mailbox, and replaying a queue -/

/-- Takes deliveries from the mailbox, one after the other. -/
def receiveAll (env : Env) (c : Connection) : List Delivery → Connection × Outcome
  | [] => (c, .ok ())
  | d :: rest => andThen (c.receive env d) fun c => c.receiveAll env rest

/-- A flush that does not fail. -/
lemma exists_flushFull (env : Env) (c : Connection) (flushed : ℕ) :
    ∃ flushed', c.flushFull env flushed none = some (flushed', none) := by
  unfold flushFull
  split
  · exact ⟨_, rfl⟩
  · exact ⟨_, rfl⟩

lemma alike_receiveAll_replayAll (env : Env) (ds : List Delivery) (h : c'.core = c.core)
    (flushed : ℕ) :
    Alike c.outbound c'.outbound (c.receiveAll env ds) (c'.replayAll env flushed none ds) := by
  induction ds generalizing c c' flushed with
  | nil => exact .silent h
  | cons d rest ih =>
    -- the two paths differ in the ledger only
    have hone : Alike c.outbound c'.outbound (c.receive env d) (c'.replay env d) :=
      @alike_deliver env { c with ledger.received := c.ledger.received ++ [d] }
        { c' with ledger.replayed := c'.ledger.replayed + unsent [d] } h d
    refine hone.andThen fun c₁ c₁' hcore => ?_
    obtain ⟨flushed', hflush⟩ := exists_flushFull env c₁' flushed
    rw [hflush]
    exact ih hcore flushed'

/-- The prelude of a rebuilt connection: it re-attaches to its session and replays what queued
there. -/
def unpark (env : Env) (r : ResumeState) (shard : ShardState) (id shardId : ℕ)
    (limits : LimitsConfig) : Option (Connection × Outcome) :=
  (shard.reattachParked r.clientId r.sessionGeneration id).2.map fun (snapshot, queued) =>
    ({ resume id shardId limits r with mailboxTx := none, phase := .running }.restore
      snapshot).resumeDelivery env none queued

lemma unpark_eq (env : Env) {r : ResumeState} {shard : ShardState} {session : Session}
    (hs : shard.sessions.lookup r.clientId = some session)
    (hgeneration : session.generation = r.sessionGeneration) (hparked : session.parked = true)
    (id shardId : ℕ) (limits : LimitsConfig) :
    unpark env r shard id shardId limits =
      some (({ resume id shardId limits r with mailboxTx := none, phase := .running }.restore
        (session.snapshot.getD {})).resumeDelivery env none session.offlineQueue) := by
  rw [unpark, ShardState.reattachParked, hs]
  dsimp only
  rw [if_neg (by simp [hgeneration, hparked])]
  rfl

/-- Nothing is in flight, so there is nothing to retransmit. -/
lemma resumeDelivery_of_idle (env : Env) (c : Connection) (hinflight : c.inflight = ∅)
    (queue : List Delivery) :
    ∃ flushed, c.resumeDelivery env none queue = c.replayAll env flushed none queue := by
  have horder : env.iterOrder c.inflight.keys = [] := by
    rw [hinflight]
    exact (env.iterOrder_perm []).eq_nil
  obtain ⟨flushed, hflush⟩ := exists_flushFull env c 0
  refine ⟨flushed, ?_⟩
  rw [resumeDelivery, horder]
  change c.flushAndReplay env none queue = _
  rw [flushAndReplay, hflush]

lemma eq_empty_of_entries {α β : Type} {m : AList fun _ : α => β} (h : m.entries.isEmpty = true) :
    m = ∅ := by
  apply AList.ext
  rw [isEmpty_iff.mp h]
  rfl

/-- An idle connection is its `ResumeState`. -/
lemma core_resume (hready : c.parkReady = true) (hphase : c.phase = .running) (id : ℕ) :
    ({ resume id c.shardId c.limits c.intoParts with mailboxTx := none, phase := .running }.restore
      c.intoParts.sessionSnapshot).core = c.core := by
  simp only [parkReady, Bool.and_eq_true] at hready
  obtain ⟨⟨⟨hconnected, hinflight⟩, hincoming⟩, hpending⟩ := hready
  have hinflight := eq_empty_of_entries hinflight
  have hincoming := eq_empty_of_entries hincoming
  have hpending := isEmpty_iff.mp hpending
  simp only [core, restore, resume, intoParts, ResumeState.sessionSnapshot, hconnected, hinflight,
    hincoming, hpending, hphase]

end Connection

namespace Server

/-- Parking is transparent. A fully idle connection with an open and empty mailbox either finds
fewer deliveries than a mailbox holds there, or parks, and a new task `id'` takes the connection up
again when they are queued. The two come to the same outcome, have said the same, and are the same
connection but for the mailbox and the accounts of the task. -/
theorem parking_is_transparent (env : Env) {srv₀ srv : Server} (h₀ : srv₀.Started)
    (hrun : Reached env (fun _ _ => True) srv₀ srv) {id : ℕ} {c : Connection}
    (hat : srv.taskAt id .running = some c) (hready : c.parkReady = true)
    (hempty : srv.shard.channels id = []) (hopen : srv.mailboxOpen id = true) (ds : List Delivery)
    (hlen : ds.length < mailboxLimit) (id' : ℕ) :
    (srv.shard.deliverAll c.clientId ds).channels id = ds ∧
    ∃ parked, srv.shard.parkSession c.clientId c.sessionGeneration c.intoParts.sessionSnapshot =
        (parked, true) ∧
      ∃ resumed, unpark env c.intoParts (parked.deliverAll c.clientId ds) id' srv.shardId
          srv.limits = some resumed ∧
        resumed.2 = (c.receiveAll env ds).2 ∧
        (c.receiveAll env ds).1.outbound = c.outbound ++ resumed.1.outbound ∧
        resumed.1 =
          { (c.receiveAll env ds).1 with
            mailboxTx := none
            mailboxRx := id'
            tlsIdentity := .none
            outbound := resumed.1.outbound
            messagesSent := resumed.1.messagesSent
            ledger := resumed.1.ledger } := by
  obtain ⟨hc, hphase⟩ := tasks_of_taskAt hat
  have hinv := Reached.inv h₀ hrun
  have hconfig := Reached.configured h₀ hrun id c hc
  -- the open mailbox is that of the client's session
  obtain ⟨session, hs, hmailbox, hgeneration⟩ : ∃ session,
      srv.shard.sessions.lookup c.clientId = some session ∧ session.mailbox = some id ∧
        session.generation = c.sessionGeneration := by
    simp only [mailboxOpen, any_eq_true, decide_eq_true_eq] at hopen
    obtain ⟨⟨k, session⟩, hmem, hmailbox⟩ := hopen
    have hs : srv.shard.sessions.lookup k = some session := AList.mem_lookup_iff.mpr hmem
    obtain ⟨c', hc', -, hk, hg⟩ := hinv.owned k session id hs hmailbox
    obtain rfl := Option.some.inj (hc.symm.trans hc')
    exact ⟨session, hk ▸ hs, hmailbox, hg.symm⟩
  obtain ⟨-, hqueue, -⟩ := (hinv.lawful _ session hs).live (by rw [hmailbox]; rfl)
  have hflip : srv.shard.parkSession c.clientId c.sessionGeneration c.intoParts.sessionSnapshot =
      ({ srv.shard with
          sessions := srv.shard.sessions.insert c.clientId
            (session.park c.intoParts.sessionSnapshot) }, true) := by
    rw [ShardState.parkSession, hs]
    dsimp only
    rw [if_neg (by simp [hgeneration, hmailbox])]
  refine ⟨?_, _, hflip, ?_⟩
  · have hfound := ShardState.channels_deliverAll hs hmailbox ds (by
      rw [hempty, length_nil, Nat.zero_add]
      exact hlen.le)
    rwa [hempty] at hfound
  -- what queued in the session is what was routed
  obtain ⟨wakePending, hparked⟩ := ShardState.lookup_deliverAll_of_parked
    (s := { srv.shard with
      sessions := srv.shard.sessions.insert c.clientId (session.park c.intoParts.sessionSnapshot) })
    (AList.lookup_insert srv.shard.sessions) rfl rfl ds (by
      have hlimit : mailboxLimit ≤ offlineQueueLimit := by decide
      rw [show (session.park c.intoParts.sessionSnapshot).offlineQueue = [] from hqueue]
      rw [length_nil, Nat.zero_add]
      exact hlen.le.trans hlimit)
  have hqueued : (session.park c.intoParts.sessionSnapshot).offlineQueue ++ ds = ds := by
    rw [show (session.park c.intoParts.sessionSnapshot).offlineQueue = [] from hqueue]
    rfl
  rw [hqueued] at hparked
  obtain ⟨hlimits, hshardId⟩ := Prod.mk.inj hconfig
  have hcore := core_resume hready hphase id'
  rw [hlimits, hshardId] at hcore
  have hunpark := unpark_eq env (r := c.intoParts) hparked hgeneration rfl id' srv.shardId
    srv.limits
  obtain ⟨flushed, hidle⟩ := resumeDelivery_of_idle env
    ({ resume id' srv.shardId srv.limits c.intoParts with
        mailboxTx := none, phase := .running }.restore c.intoParts.sessionSnapshot) rfl ds
  have halike := alike_receiveAll_replayAll env ds hcore flushed
  refine ⟨_, hunpark.trans (congrArg some hidle), halike.outcome, ?_, ?_⟩
  · obtain ⟨new, hlive, hback⟩ := halike.outbound
    exact hlive.trans (congrArg (c.outbound ++ ·) hback.symm)
  · -- replaying leaves the mailbox alone
    have hstanding := standing_replayAll env
      ({ resume id' srv.shardId srv.limits c.intoParts with
          mailboxTx := none, phase := .running }.restore c.intoParts.sessionSnapshot) ds
            flushed none
    exact eq_of_core halike.core (congrArg (·.identity.mailboxTx) hstanding)
      (congrArg (·.identity.mailboxRx) hstanding) (congrArg (·.tlsIdentity) hstanding)

/-- A client has connected, and nothing else has happened. -/
def idleServer : Server :=
  Lib.run (fun srv op => srv.apply openEnv op) freshServer
    [.accept .none, .packet 0 (.connect { clientId := "a", cleanSession := false }) {}]

/-- Two messages for the client. -/
def idleDeliveries : List Delivery :=
  [.atLeastOnce, .atMostOnce].map fun qos =>
    { publish := { topic := "t", qos, payload := [1] }, qos, retain := false, subIds := [] }

theorem parking_is_transparent_idle : ∃ c parked resumed, idleServer.taskAt 0 .running = some c ∧
    idleServer.shard.parkSession "a" 1 c.intoParts.sessionSnapshot = (parked, true) ∧
    unpark openEnv c.intoParts (parked.deliverAll "a" idleDeliveries) 1 0 {} = some resumed ∧
    (c.receiveAll openEnv idleDeliveries).1.outbound = c.outbound ++ resumed.1.outbound := by
  obtain ⟨c, hat⟩ : ∃ c, idleServer.taskAt 0 .running = some c :=
    Option.isSome_iff_exists.mp (by decide)
  have hc : (idleServer.taskAt 0 .running).all fun c =>
      c.parkReady && c.clientId == "a" && c.sessionGeneration == 1 := by decide
  rw [hat, Option.all_some, Bool.and_eq_true, Bool.and_eq_true, beq_iff_eq, beq_iff_eq] at hc
  obtain ⟨⟨hready, hid⟩, hgeneration⟩ := hc
  obtain ⟨-, parked, hflip, resumed, hresumed, -, hout, -⟩ := parking_is_transparent openEnv
    freshServer_started (Lib.reached_run freshServer _) hat hready rfl (by decide) idleDeliveries
    (by decide) 1
  rw [hid, hgeneration] at hflip
  rw [hid] at hresumed
  exact ⟨c, parked, resumed, hat, hflip, hresumed, hout⟩

end Server

end Rusquitto
