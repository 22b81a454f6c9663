import Rusquitto.Broker.Recipients
import Rusquitto.Cluster.Network
import Rusquitto.Server.Restart

/-!
# A publish meets a migrating session

The old shard handles the claim and hands the session off, the new one installs it. The
subscriptions are on neither while the handoff is under way. So the session gets a message once if
the publish comes before the migration on both shards or after it on both; otherwise it misses it,
or gets it twice (`meets_once_iff`).
-/

namespace Rusquitto

open ShardState List TopicTrie
open Network (left right)

variable {trie : TopicTrie} {k : String} {s : ShardState}

/-! ### Subscriptions on the way -/

/-- A subscription as it is re-armed: No Local on a shared one is stripped. -/
def FlatSub.rearmed (sub : FlatSub) : FlatSub :=
  { sub with nolocal := sub.nolocal && sub.shareGroup.isNone }

namespace ShardState

lemma rearm_rearmed (trie : TopicTrie) (k : String) (subs : List FlatSub) :
    rearm trie k (subs.map FlatSub.rearmed) = rearm trie k subs := by
  have hoptions (sub : FlatSub) : rearmOptions sub.rearmed = rearmOptions sub := by
    simp [rearmOptions, FlatSub.rearmed]
  unfold rearm
  rw [foldl_map]
  congr 1
  funext trie sub
  rw [hoptions]
  rfl

/-- A client without subscriptions has the re-armed ones afterwards. -/
lemma clientSubscriptions_rearm {subs : List FlatSub} (hnone : trie.clientSubscriptions k = [])
    (hnd : (subs.map FlatSub.key).Nodup) :
    ((rearm trie k subs).clientSubscriptions k).Perm (subs.map FlatSub.rearmed) := by
  rw [← rearm_rearmed]
  refine rearm_empty_perm k hnone ⟨?_, fun sub hsub hshared => ?_⟩
  · rw [map_map]
    exact hnd
  · obtain ⟨sub, -, rfl⟩ := mem_map.mp hsub
    have hshared : sub.shareGroup.isSome = true := hshared
    simp [FlatSub.rearmed, hshared]

lemma valid_rearm {subs : List FlatSub} (h : ∀ x ∈ trie.stored, validSubscribeFilter x.1 = true)
    (hsubs : ∀ sub ∈ subs, validSubscribeFilter sub.filter = true) :
    ∀ x ∈ (rearm trie k subs).stored, validSubscribeFilter x.1 = true := by
  induction subs generalizing trie with
  | nil => exact h
  | cons sub subs ih =>
    refine ih (fun x hx => ?_) fun sub' hsub' => hsubs sub' (mem_cons_of_mem _ hsub')
    rcases (mem_stored_insert _).mp hx with ⟨hx, -⟩ | rfl
    · exact h x hx
    · exact hsubs sub mem_cons_self

end ShardState

/-- The subscriptions of a client that match a topic, as the walk of the trie returns them. -/
lemma TopicTrie.mem_matching_client_iff
    (hvalid : ∀ x ∈ trie.stored, validSubscribeFilter x.1 = true) {topic : String}
    (htopic : ConcreteTopic topic) (P : QoS → Option String → Prop) :
    (∃ sub ∈ trie.matching topic, sub.clientId = k ∧ P sub.qos sub.shareGroup) ↔
      ∃ flat ∈ trie.clientSubscriptions k, filterMatches flat.filter topic = true ∧
        P flat.qos flat.shareGroup := by
  rw [clientSubscriptions_eq]
  constructor
  · rintro ⟨sub, hsub, hk, hP⟩
    obtain ⟨filter, hstored, hmatch⟩ := (mem_matching_iff hvalid htopic).mp hsub
    refine ⟨sub.flat filter, mem_map.mpr ⟨(filter, sub), ?_, rfl⟩, hmatch, hP⟩
    exact mem_filter.mpr ⟨hstored, by simpa using hk⟩
  · rintro ⟨flat, hflat, hmatch, hP⟩
    obtain ⟨⟨filter, sub⟩, hx, rfl⟩ := mem_map.mp hflat
    obtain ⟨hstored, hk⟩ := mem_filter.mp hx
    exact ⟨sub, (mem_matching_iff hvalid htopic).mpr ⟨filter, hstored, hmatch⟩, by simpa using
      hk, hP⟩

/-- A session without a mailbox is handed off as a whole. -/
lemma ShardState.outgoing_handleClaim {session : Session}
    (hs : s.sessions.lookup k = some session) (hm : session.mailbox = none)
    (houtbox : s.controlTx.isSome) (requester : ℕ) :
    ∃ before, (s.handleClaim k requester true).outgoing requester = before ++ [.control (.handoff k
      (some (packageSession (s.trie.clientSubscriptions k) session)))] := by
  obtain ⟨outbox, houtbox⟩ := Option.isSome_iff_exists.mp houtbox
  -- the signal to a parked connection touches nothing that is packaged
  have hsignal : ∃ session', (s.signalCloseParked k).sessions.lookup k = some session' ∧
      session'.mailbox = none ∧ session'.snapshot = session.snapshot ∧
      session'.offlineQueue = session.offlineQueue ∧ (s.signalCloseParked k).trie = s.trie ∧
      (s.signalCloseParked k).controlTx = s.controlTx := by
    unfold signalCloseParked
    rw [hs]
    dsimp only
    split
    · exact ⟨_, AList.lookup_insert _, hm, rfl, rfl, rfl, rfl⟩
    · exact ⟨session, hs, hm, rfl, rfl, rfl, rfl⟩
  obtain ⟨session', hs', hm', hsnapshot, hqueue, htrie, hcontrol⟩ := hsignal
  have hpackage : packageSession (s.trie.clientSubscriptions k) session' =
      packageSession (s.trie.clientSubscriptions k) session := by
    rw [packageSession, packageSession, hsnapshot, hqueue]
  refine ⟨(outbox.filter (·.1 = requester)).map Prod.snd, ?_⟩
  unfold handleClaim
  dsimp only
  rw [hs']
  dsimp only
  rw [if_pos ⟨hm', rfl⟩]
  simp only [walRemoved_extractSession]
  simp [outgoing, enqueueControl, extractSession, takeClient_eq, discardSession, walRemoved,
    hcontrol, houtbox, htrie, hpackage]

/-! ### The two shards -/

/-- How far the migration is: the claim is under way, the handoff is, or the session is installed,
with the queue that the connection is given. -/
inductive Stage where
  | claimed
  | handedOff (session : Option MigratedSession)
  | installed (queue : List Delivery)

/-- The two shards of a migration, and what they have seen of the publish. -/
structure Meeting where
  old : ShardState
  new : ShardState
  stage : Stage := .claimed
  /-- Once the old shard has processed the publish: whether the session was still there. -/
  atOld : Option Bool := none
  /-- Once the new shard has processed the publish: whether the session was already there. -/
  atNew : Option Bool := none

/-- What meets: a session, and a publish with the publisher each shard knows of. -/
structure Encounter where
  clientId : String
  requester : ℕ
  hash : ContentHash
  publish : Publish
  publisherOld : Option String := none
  publisherNew : Option String := none

inductive MeetingOp where
  /-- The old shard handles the claim. -/
  | claim
  /-- The new shard installs the session. -/
  | install
  /-- The publish is processed on the old shard. -/
  | publishOld
  /-- The publish is processed on the new shard. -/
  | publishNew

namespace Meeting

variable (e : Encounter)

/-- The session in the newest control message to the new shard. -/
def reply (old : ShardState) : Option MigratedSession :=
  match (old.outgoing e.requester).getLast? with
  | some (.control (.handoff _ session)) => session
  | _ => none

/-- Performs one piece of work. What cannot happen, or not again, leaves everything as it is. -/
def apply (m : Meeting) : MeetingOp → Meeting
  | .claim =>
    match m.stage with
    | .claimed =>
      let old := m.old.handleClaim e.clientId e.requester true
      { m with old, stage := .handedOff (reply e old) }
    | _ => m
  | .install =>
    match m.stage with
    | .handedOff (some migrated) =>
      let (new, _, queue) := m.new.installMigrated e.clientId migrated
      { m with new, stage := .installed queue }
    | _ => m
  | .publishOld =>
    if m.atOld.isSome then m
    else
      { m with
        old := m.old.deliverLocal e.hash e.publish e.publisherOld
        atOld := some (match m.stage with | .claimed => true | _ => false) }
  | .publishNew =>
    if m.atNew.isSome then m
    else
      { m with
        new := m.new.deliverLocal e.hash e.publish e.publisherNew
        atNew := some (match m.stage with | .installed _ => true | _ => false) }

/-- The message as it is delivered. -/
def message : Publish := { e.publish with retain := false }

/-- How often a queue holds the message. -/
def countIn (queue : List Delivery) : ℕ :=
  queue.countP (·.publish = message e)

/-- How often the message was queued or delivered for the client: in the queue that came with the
session, and in the mailbox of the connection. -/
def copies (mailbox : ℕ) (m : Meeting) : ℕ :=
  (match m.stage with
    | .installed queue => countIn e queue
    | _ => 0) + countIn e (m.new.channels mailbox)

/-- The migration is over and the publish processed on both shards. -/
def Complete (m : Meeting) : Prop :=
  (∃ queue, m.stage = .installed queue) ∧ m.atOld.isSome ∧ m.atNew.isSome

/-- The new shard before the session is installed: the client has a connection but no
subscriptions. -/
structure Awaiting (new : ShardState) (mailbox : ℕ) : Prop where
  own : new.OwnMailbox e.clientId mailbox
  empty : new.channels mailbox = []
  blank : new.trie.clientSubscriptions e.clientId = []
  valid : ∀ x ∈ new.trie.stored, validSubscribeFilter x.1 = true

/-- A session is about to migrate, and a publish that one of its ordinary subscriptions matches is
about to be processed. -/
structure Start (old new : ShardState) (session : Session) (mailbox : ℕ) : Prop where
  stored : old.sessions.lookup e.clientId = some session
  offline : session.mailbox = none
  outbox : old.controlTx.isSome
  valid : ∀ x ∈ old.trie.stored, validSubscribeFilter x.1 = true
  awaiting : Awaiting e new mailbox
  concrete : ConcreteTopic e.publish.topic
  qos : e.publish.qos ≠ .atMostOnce
  matched : ∃ sub ∈ old.trie.clientSubscriptions e.clientId,
    filterMatches sub.filter e.publish.topic = true ∧ sub.qos ≠ .atMostOnce
  ordinary : ∀ sub ∈ old.trie.clientSubscriptions e.clientId,
    filterMatches sub.filter e.publish.topic = true → sub.shareGroup = none
  /-- The publisher is another client. -/
  foreign : e.publisherOld ≠ some e.clientId ∧ e.publisherNew ≠ some e.clientId
  /-- The message is told apart from those that are queued already. -/
  unseen : ∀ d ∈ session.offlineQueue, d.publish ≠ message e

section

variable {e} {old new : ShardState} {session : Session} {mailbox : ℕ}

/-- A publish does not reach a client without subscriptions. -/
lemma Awaiting.deliverLocal (h : Awaiting e new mailbox) (hconcrete : ConcreteTopic e.publish.topic)
    (publisher : Option String) :
    Awaiting e (new.deliverLocal e.hash e.publish publisher) mailbox := by
  have hnone : new.deliveriesTo e.hash e.publish publisher e.clientId = [] := by
    refine new.deliveriesTo_eq_nil e.hash e.publish publisher fun sub hsub hk => ?_
    obtain ⟨flat, hflat, -⟩ := (mem_matching_client_iff h.valid hconcrete
      fun _ _ => True).mp ⟨sub, hsub, hk, trivial⟩
    rw [h.blank] at hflat
    exact nomatch hflat
  have htrie : (new.deliverLocal e.hash e.publish publisher).trie = new.trie := by
    obtain ⟨_, _, _, _, _, h⟩ := new.deliverLocal_frame e.hash e.publish publisher
    rw [h]
  refine ⟨h.own.of_eq fun k => new.mailbox_deliverLocal e.hash e.publish publisher k, ?_, ?_, ?_⟩
  · rw [new.channels_deliverLocal e.hash e.publish publisher h.own, hnone, h.empty]
    · rfl
    · rw [hnone, h.empty]
      exact Nat.zero_le _
  · rw [htrie, h.blank]
  · rw [htrie]
    exact h.valid

/-- A shard on which the client has an ordinary subscription for the message. -/
structure Subscribed (e : Encounter) (s : ShardState) : Prop where
  valid : ∀ x ∈ s.trie.stored, validSubscribeFilter x.1 = true
  matched : ∃ sub ∈ s.trie.clientSubscriptions e.clientId,
    filterMatches sub.filter e.publish.topic = true ∧ sub.qos ≠ .atMostOnce
  ordinary : ∀ sub ∈ s.trie.clientSubscriptions e.clientId,
    filterMatches sub.filter e.publish.topic = true → sub.shareGroup = none

lemma Start.subscribed (h : Start e old new session mailbox) : Subscribed e old :=
  ⟨h.valid, h.matched, h.ordinary⟩

/-- A publish reaches a client with a matching subscription once. -/
lemma Subscribed.exists_delivery (h : Subscribed e s) (hconcrete : ConcreteTopic e.publish.topic)
    (hqos : e.publish.qos ≠ .atMostOnce) {publisher : Option String}
    (hforeign : publisher ≠ some e.clientId) :
    ∃ d, s.deliveriesTo e.hash e.publish publisher e.clientId = [d] ∧ d.publish = message e ∧
      d.qos ≠ .atMostOnce := by
  obtain ⟨sub, hsub, hk, hsubQos⟩ := (mem_matching_client_iff h.valid hconcrete
    fun qos _ => qos ≠ .atMostOnce).mpr h.matched
  have hall : ∀ sub ∈ s.trie.matching e.publish.topic, sub.clientId = e.clientId →
      sub.shareGroup = none := by
    intro sub hsub hk
    obtain ⟨flat, hflat, hmatch, hgroup⟩ := (mem_matching_client_iff h.valid hconcrete
      fun _ group => group = sub.shareGroup).mp ⟨sub, hsub, hk, rfl⟩
    rw [← hgroup]
    exact h.ordinary flat hflat hmatch
  obtain ⟨m, hle, hdeliveries⟩ := s.exists_deliveriesTo_eq e.hash e.publish publisher hsub hk hall
    hforeign
  refine ⟨_, hdeliveries, rfl, ?_⟩
  -- both the publish and the best subscription are above QoS 0
  have hpos (q : QoS) : q ≠ .atMostOnce ↔ 0 < q.toNat := by cases q <;> simp [QoS.toNat]
  have hm : m.qos ≠ .atMostOnce := (hpos _).mpr (((hpos _).mp hsubQos).trans_le hle)
  simp only [deliveryFor, minQos]
  split
  · exact hqos
  · exact hm

lemma countIn_pushBounded {queue : List Delivery} (hunseen : ∀ d ∈ queue, d.publish ≠ message e)
    {d : Delivery} (hd : d.publish = message e) : countIn e (pushBounded queue d) = 1 := by
  have hrest : countIn e (if offlineQueueLimit ≤ queue.length then queue.tail else queue) = 0 := by
    rw [countIn, countP_eq_zero]
    intro d' hd'
    have hmem : d' ∈ queue := by
      split at hd'
      · exact mem_of_mem_tail hd'
      · exact hd'
    simpa using hunseen d' hmem
  rw [pushBounded, countIn, countP_append]
  rw [countIn] at hrest
  rw [hrest]
  simp [hd]

/-- One copy if the publish met the session, none if not. -/
def counted (met : Option Bool) : ℕ :=
  if met = some true then 1 else 0

/-- The old shard queues the message for the session that is still there. -/
lemma Start.queued (h : Start e old new session mailbox) :
    (old.deliverLocal e.hash e.publish e.publisherOld).controlTx.isSome ∧
      (old.deliverLocal e.hash e.publish e.publisherOld).trie = old.trie ∧
      (some true = none → old.deliverLocal e.hash e.publish e.publisherOld = old) ∧
      ∃ session', (old.deliverLocal e.hash e.publish e.publisherOld).sessions.lookup e.clientId =
        some session' ∧ session'.mailbox = none ∧ countIn e session'.offlineQueue =
          counted (some true) := by
  obtain ⟨d, hdeliveries, hd, hqos⟩ := h.subscribed.exists_delivery h.concrete h.qos h.foreign.1
  obtain ⟨_, _, _, _, _, hframe⟩ := old.deliverLocal_frame e.hash e.publish e.publisherOld
  have hview := congrArg ClientView.session
    (old.view_deliverLocal e.hash e.publish e.publisherOld e.clientId)
  have hs : (old.view e.clientId).session = some session := h.stored
  rw [hdeliveries, foldl_cons, foldl_nil, ClientView.delivered, hs] at hview
  refine ⟨by rw [hframe]; exact h.outbox, by rw [hframe], fun hfirst => (by cases hfirst), ?_⟩
  rw [session_view] at hview
  rw [hview]
  simp only [h.offline, Option.isSome_none, Bool.false_eq_true, if_false, hqos, ne_eq,
    not_false_eq_true, if_true]
  split
  · exact ⟨_, rfl, h.offline, countIn_pushBounded h.unseen hd⟩
  · exact ⟨_, rfl, h.offline, countIn_pushBounded h.unseen hd⟩

/-- Where the message is, by the stage of the migration. -/
structure Inv (e : Encounter) (old : ShardState) (session : Session) (mailbox : ℕ) (m : Meeting) :
    Prop where
  waiting : m.stage = .claimed → m.old.controlTx.isSome ∧ m.old.trie = old.trie ∧
    (m.atOld = none → m.old = old) ∧ ∃ session', m.old.sessions.lookup e.clientId = some session' ∧
      session'.mailbox = none ∧ countIn e session'.offlineQueue = counted m.atOld
  handedOff : ∀ reply, m.stage = .handedOff reply → ∃ migrated, reply = some migrated ∧
    migrated.subscriptions = old.trie.clientSubscriptions e.clientId ∧
    countIn e migrated.offline = counted m.atOld
  awaiting : (∀ queue, m.stage ≠ .installed queue) → m.atNew ≠ some true ∧ Awaiting e m.new mailbox
  installed : ∀ queue, m.stage = .installed queue → countIn e queue = counted m.atOld ∧
    m.new.OwnMailbox e.clientId mailbox ∧ countIn e (m.new.channels mailbox) = counted m.atNew ∧
    (m.atNew = none → m.new.channels mailbox = [] ∧ Subscribed e m.new)

lemma Start.inv (h : Start e old new session mailbox) : Inv e old session mailbox { old, new } where
  waiting _ := by
    refine ⟨h.outbox, rfl, fun _ => rfl, session, h.stored, h.offline, ?_⟩
    exact countP_eq_zero.mpr fun d hd => by simpa using h.unseen d hd
  handedOff _ hstage := nomatch hstage
  awaiting _ := ⟨nofun, h.awaiting⟩
  installed _ hstage := nomatch hstage

/-- The installed subscriptions are those of the old shard. -/
lemma Subscribed.rearm (h : Subscribed e old) (hawaiting : Awaiting e new mailbox)
    (hs : s.trie = rearm new.trie e.clientId (old.trie.clientSubscriptions e.clientId)) :
    Subscribed e s := by
  have hperm := clientSubscriptions_rearm hawaiting.blank
    (old.trie.nodup_clientSubscriptions e.clientId)
  rw [← hs] at hperm
  refine ⟨?_, ?_, fun sub hsub hmatch => ?_⟩
  · rw [hs]
    refine valid_rearm hawaiting.valid fun sub hsub => ?_
    rw [clientSubscriptions_eq] at hsub
    obtain ⟨x, hx, rfl⟩ := mem_map.mp hsub
    exact h.valid x (mem_filter.mp hx).1
  · obtain ⟨sub, hsub, hmatch⟩ := h.matched
    exact ⟨sub.rearmed, hperm.mem_iff.mpr (mem_map_of_mem hsub), hmatch⟩
  · obtain ⟨sub, hsub', rfl⟩ := mem_map.mp (hperm.mem_iff.mp hsub)
    exact h.ordinary sub hsub' hmatch

lemma Inv.apply (hstart : Start e old new session mailbox) {m : Meeting}
    (h : Inv e old session mailbox m) (op : MeetingOp) :
    Inv e old session mailbox (m.apply e op) := by
  cases op with
  | claim =>
    simp only [Meeting.apply]
    split
    · next hstage =>
      obtain ⟨houtbox, htrie, -, session', hs, hm, hcount⟩ := h.waiting hstage
      obtain ⟨_, hout⟩ := outgoing_handleClaim hs hm houtbox e.requester
      refine
        { waiting := nofun
          handedOff := fun reply hreply => ?_
          awaiting := fun _ => h.awaiting (by simp [hstage])
          installed := nofun }
      have hreply := Stage.handedOff.inj hreply
      rw [Meeting.reply, hout, getLast?_concat] at hreply
      refine ⟨_, hreply.symm, ?_, hcount⟩
      rw [htrie]
      rfl
    · exact h
  | install =>
    simp only [Meeting.apply]
    split
    · next migrated hstage =>
      obtain ⟨_, heq, hsubs, hcount⟩ := h.handedOff _ hstage
      cases heq
      obtain ⟨hnew, hawaiting⟩ := h.awaiting (by simp [hstage])
      have hframe : ∃ controlTx, (m.new.installMigrated e.clientId migrated).1 =
          { m.new with
            trie := rearm m.new.trie e.clientId migrated.subscriptions, controlTx } := by
        rw [installMigrated]
        rw [announce_eq]
        exact ⟨_, rfl⟩
      obtain ⟨_, hframe⟩ := hframe
      refine
        { waiting := nofun
          handedOff := nofun
          awaiting := fun hnot => absurd rfl (hnot _)
          installed := fun queue hqueue => ?_ }
      rw [← Stage.installed.inj hqueue]
      rw [hframe]
      refine ⟨hcount, hawaiting.own, ?_, fun _ => ⟨hawaiting.empty, ?_⟩⟩
      · dsimp only
        rw [hawaiting.empty, counted, if_neg hnew]
        rfl
      · exact hstart.subscribed.rearm hawaiting (by rw [hsubs])
    · exact h
  | publishOld =>
    simp only [Meeting.apply]
    split
    · exact h
    · next hold =>
      have hold : m.atOld = none := by simpa using hold
      cases hstage : m.stage with
      | claimed =>
        obtain ⟨houtbox, htrie, hsame, -⟩ := h.waiting hstage
        refine
          { waiting := fun _ => ?_
            handedOff := nofun
            awaiting := fun _ => h.awaiting (by simp [hstage])
            installed := nofun }
        rw [hsame hold]
        exact hstart.queued
      | handedOff reply =>
        refine
          { waiting := nofun
            handedOff := fun reply hreply => ?_
            awaiting := fun _ => h.awaiting (by simp [hstage])
            installed := nofun }
        have hkept := h.handedOff reply (hstage.trans hreply)
        rwa [hold] at hkept
      | installed queue =>
        refine
          { waiting := nofun
            handedOff := nofun
            awaiting := fun hnot => absurd rfl (hnot _)
            installed := fun queue hqueue => ?_ }
        have hkept := h.installed queue (hstage.trans hqueue)
        rwa [hold] at hkept
  | publishNew =>
    simp only [Meeting.apply]
    split
    · exact h
    · next hnew =>
      have hnew : m.atNew = none := by simpa using hnew
      cases hstage : m.stage with
      | installed queue =>
        obtain ⟨hcount, hown, -, hready⟩ := h.installed queue hstage
        obtain ⟨hempty, hsubscribed⟩ := hready hnew
        obtain ⟨d, hdeliveries, hd, -⟩ := hsubscribed.exists_delivery hstart.concrete hstart.qos
          hstart.foreign.2
        refine
          { waiting := nofun
            handedOff := nofun
            awaiting := fun hnot => absurd rfl (hnot _)
            installed := fun queue' hqueue => ⟨?_, ?_, ?_, nofun⟩ }
        · rw [← Stage.installed.inj hqueue]
          exact hcount
        · exact hown.of_eq fun k => m.new.mailbox_deliverLocal e.hash e.publish e.publisherNew k
        · dsimp only
          rw [m.new.channels_deliverLocal e.hash e.publish e.publisherNew hown, hdeliveries, hempty]
          · simp [countIn, counted, hd]
          · rw [hdeliveries, hempty]
            simp [mailboxLimit]
      | claimed | handedOff =>
        refine
          { waiting := fun hclaimed => h.waiting (hstage.trans hclaimed)
            handedOff := fun reply hreply => h.handedOff reply (hstage.trans hreply)
            awaiting := fun _ => ⟨nofun, ?_⟩
            installed := nofun }
        exact (h.awaiting (by simp [hstage])).2.deliverLocal hstart.concrete e.publisherNew

/-- After the migration and the publish, in whatever order the two met on each shard, the message
was queued or delivered for the client once, exactly when the publish came before the migration on
both shards or after it on both. -/
theorem meets_once_iff (hstart : Start e old new session mailbox) {m : Meeting}
    (hrun : Lib.Reached (Meeting.apply e) (fun _ _ => True) { old, new } m)
    (hcomplete : m.Complete) :
    m.copies e mailbox = 1 ↔ m.atOld ≠ m.atNew := by
  have hinv := Lib.Reached.inv (Inv e old session mailbox) hstart.inv
    (fun _ op h _ => h.apply hstart op) hrun
  obtain ⟨⟨queue, hstage⟩, hold, hnew⟩ := hcomplete
  obtain ⟨hqueue, -, hmailbox, -⟩ := hinv.installed queue hstage
  obtain ⟨old, hold⟩ := Option.isSome_iff_exists.mp hold
  obtain ⟨new, hnew⟩ := Option.isSome_iff_exists.mp hnew
  have hcopies : m.copies e mailbox = counted m.atOld + counted m.atNew := by
    rw [copies, hstage, ← hqueue, ← hmailbox]
  rw [hcopies, hold, hnew]
  cases old <;> cases new <;> simp [counted]

end

/-- A client subscribes on the first of two shards, hangs up, and connects to the second. -/
def leaving : Network 2 :=
  Lib.run (Network.apply Server.openEnv) (Network.fresh 2)
    (Network.connecting left 0 "a" ++
      [.control left right, .control right left, .act left (.claimReply 0 {}),
        .act left (.packet 0 (.subscribe
          { pkid := 1, filters := [{ path := "t", qos := .atLeastOnce }] }) {}),
        .act left (.hangUp 0 .eof), .act left (.close 0)] ++
      Network.connecting right 0 "a")

/-- Then somebody publishes to the topic. -/
def leavingEncounter : Encounter where
  clientId := "a"
  requester := 1
  hash := Server.openEnv.hash
  publish := { topic := "t", qos := .atLeastOnce, payload := [7] }

lemma leaving_start : ∃ session,
    Start leavingEncounter (leaving 0).shard (leaving 1).shard session 0 := by
  have hstored : ∃ session, (leaving 0).shard.sessions.lookup "a" = some session ∧
      session.mailbox = none ∧ session.offlineQueue = [] := ⟨_, rfl, rfl, rfl⟩
  obtain ⟨session, hstored, hoffline, hqueue⟩ := hstored
  have hown : (leaving 1).shard.OwnMailbox "a" 0 := by
    refine ⟨rfl, fun k hk => ?_⟩
    -- the second shard has no other session
    obtain ⟨session', hs', -⟩ := Option.map_eq_some_iff.mp hk
    have hkeys : (leaving 1).shard.sessions.keys = ["a"] := by decide +kernel
    have hmem : k ∈ (leaving 1).shard.sessions.keys :=
      AList.mem_keys.mpr (AList.lookup_isSome.mp (Option.isSome_of_mem hs'))
    rw [hkeys] at hmem
    exact mem_singleton.mp hmem
  exact ⟨session,
    { stored := hstored
      offline := hoffline
      outbox := by decide +kernel
      valid := by decide +kernel
      awaiting :=
        { own := hown
          empty := by rfl
          blank := by decide +kernel
          valid := by decide +kernel }
      concrete := by decide +kernel
      qos := by decide +kernel
      matched := by decide +kernel
      ordinary := by decide +kernel
      foreign := by decide +kernel
      unseen := fun d hd => absurd (hqueue ▸ hd) not_mem_nil }⟩

/-- The state after a sequence of work. -/
def met (ops : List MeetingOp) : Meeting :=
  Lib.run (apply leavingEncounter) { old := (leaving left).shard, new := (leaving right).shard } ops

/-- The publish comes first on both shards. -/
theorem meets_once_first : copies leavingEncounter 0
    (met [.publishOld, .publishNew, .claim, .install]) = 1 := by
  obtain ⟨session, hstart⟩ := leaving_start
  exact (meets_once_iff hstart (Lib.reached_run _ _) ⟨⟨_, rfl⟩, rfl, rfl⟩).mpr (by decide +kernel)

/-- The message is missed if it comes to the old shard after the claim and to the new one before the
installation, and it is there twice the other way round. -/
theorem missed_or_twice : ∃ session,
    Start leavingEncounter (leaving 0).shard (leaving 1).shard session 0 ∧
      (met [.claim, .publishOld, .publishNew, .install]).Complete ∧
      copies leavingEncounter 0 (met [.claim, .publishOld, .publishNew, .install]) = 0 ∧
      (met [.publishOld, .claim, .install, .publishNew]).Complete ∧
      copies leavingEncounter 0 (met [.publishOld, .claim, .install, .publishNew]) = 2 := by
  obtain ⟨session, hstart⟩ := leaving_start
  exact ⟨session, hstart, ⟨⟨_, rfl⟩, rfl, rfl⟩, by decide +kernel,
    ⟨⟨_, rfl⟩, rfl, rfl⟩, by decide +kernel⟩

end Meeting

end Rusquitto
