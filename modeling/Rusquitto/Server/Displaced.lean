import Rusquitto.Server.Strangers

/-!
# Displaced connections

A connection that loses its session to a newer one may process packets before it looks at its closed
mailbox. Most of what still names the session compares its generation
(`displaced_leaves_successor`), but SUBSCRIBE, UNSUBSCRIBE and a late reply to a claim compare
nothing (`displaced_subscribes_for_successor`).
-/

namespace Rusquitto

open ShardState Option

/-- The session of a client and its subscriptions are as they were. -/
structure ShardState.Spares (k : String) (s s' : ShardState) : Prop where
  session : s'.sessions.lookup k = s.sessions.lookup k
  subscriptions : s'.trie.clientSubscriptions k = s.trie.clientSubscriptions k

namespace ShardState

variable {s : ShardState} {k : String}

lemma Spares.refl (k : String) (s : ShardState) : Spares k s s := ⟨rfl, rfl⟩

lemma Spares.of_view {s' : ShardState} (h : s'.view k = s.view k) : Spares k s s' :=
  ⟨congrArg ClientView.session h, congrArg ClientView.subs h⟩

/-- Deliveries to a connected client go into its mailbox. -/
lemma Receives.eq_of_live {v v' : ClientView} (h : Receives v v')
    (hlive : ∀ session, v.session = some session → session.mailbox.isSome = true) : v' = v := by
  have hone (d : Delivery) : v.delivered d = v := by
    unfold ClientView.delivered
    split
    · rfl
    · next session hs => exact if_pos (hlive session hs)
  obtain ⟨deliveries, rfl⟩ := h
  induction deliveries with
  | nil => rfl
  | cons d deliveries ih => rw [List.foldl_cons, hone d, ih]

lemma suspendParked_of_stranger {generation : ℕ}
    (h : ∀ session, s.sessions.lookup k = some session → session.generation ≠ generation) (now : ℕ)
    (expirySecs : UInt32) : s.suspendParked now k generation expirySecs = (s, false) := by
  unfold suspendParked
  split
  · rfl
  · next session hs => exact if_pos (.inl (h session hs))

end ShardState

namespace Connection

variable (env : Env) (c : Connection) (shard : ShardState) (chance : Chance)

/-- A PUBLISH is routed here, or leaves the shard as it is. -/
lemma shard_handlePublish (publish : Publish) :
    (c.handlePublish env shard chance publish).shard = shard ∨
      ∃ message publisher, (c.handlePublish env shard chance publish).shard =
        shard.deliverLocal env.hash message publisher := by
  unfold handlePublish
  split
  · exact .inl rfl
  · split
    · exact .inl rfl
    · split
      · exact .inl rfl
      · unfold acceptPublish
        split
        · exact .inr ⟨_, _, rfl⟩
        · exact .inr ⟨_, _, rfl⟩
        · exact .inl rfl

lemma shard_handlePubrel (pkid : UInt16) : (c.handlePubrel env shard chance pkid).shard = shard ∨
      ∃ message publisher, (c.handlePubrel env shard chance pkid).shard =
        shard.deliverLocal env.hash message publisher := by
  unfold handlePubrel
  split
  · exact .inl rfl
  · exact .inr ⟨_, _, rfl⟩

end Connection

namespace Server

variable {env : Env} {srv srv' : Server} {id : ℕ} {c : Connection}

/-- The connection had opened a session, which is gone or has a newer owner. -/
structure Displaced (srv : Server) (id : ℕ) (c : Connection) : Prop where
  task : srv.tasks id = some c
  clientId : c.clientId ≠ ""
  generation : 0 < c.sessionGeneration
  /-- It has not released the session itself. -/
  phase : ∀ will, c.phase ≠ .willing will
  displaced : ∀ session, srv.shard.sessions.lookup c.clientId = some session →
    session.generation ≠ c.sessionGeneration

/-- Work of a connection that cannot reach the session of the client `k` past its generation. -/
def Guarded (srv : Server) (k : String) : ServerOp → Prop
  | .packet _ (.subscribe _) _ | .packet _ (.unsubscribe _) _ => False
  | .packet _ (.publish _) _ | .packet _ (.pubRel _) _ =>
    ∀ session, srv.shard.sessions.lookup k = some session → session.mailbox.isSome = true
  | .claimReply id _ => ∀ migrated rest, srv.shard.claimReplies id ≠ some migrated :: rest
  | _ => True

lemma Displaced.spares_packet (hinv : srv.Inv) (h : srv.Displaced id c)
    (hphase : c.phase = .running) {p : Packet} {chance : Chance}
    (hguard : srv.Guarded c.clientId (.packet id p chance)) :
    Spares c.clientId srv.shard (c.processOne env srv.shard chance p).shard := by
  have hconnected : c.connected = true := by
    by_contra hnot
    exact h.generation.ne' (hinv.unopened id c h.task (Bool.not_eq_true _ ▸ hnot) hphase)
  -- routing reaches the client's session only if nobody is connected to it
  have hrouted {shard' : ShardState} (hlive : ∀ session,
      srv.shard.sessions.lookup c.clientId = some session → session.mailbox.isSome = true)
      (hshard : shard' = srv.shard ∨
        ∃ message publisher, shard' = srv.shard.deliverLocal env.hash message publisher) :
      Spares c.clientId srv.shard shard' := by
    obtain rfl | ⟨message, publisher, rfl⟩ := hshard
    · exact .refl _ _
    · exact .of_view ((receives_deliverLocal ..).eq_of_live hlive)
  unfold Connection.processOne
  rw [if_pos hconnected]
  cases p with
  | subscribe | unsubscribe => exact hguard.elim
  | publish publish =>
    exact hrouted hguard (Connection.shard_handlePublish env c srv.shard chance publish)
  | pubRel pkid => exact hrouted hguard (Connection.shard_handlePubrel env c srv.shard chance pkid)
  | connect | pingReq | disconnect | pubAck | pubRec | pubComp | serverOnly => exact .refl _ _

lemma Displaced.spares (hinv : srv.Inv) (h : srv.Displaced id c) {op : ServerOp}
    (hop : op.connection = some id) (hguard : srv.Guarded c.clientId op)
    (hmove : Move env srv op srv') : Spares c.clientId srv.shard srv'.shard := by
  have hsame {c' : Connection} (hc' : srv.tasks id = some c') : c' = c :=
    some.inj (hc'.symm.trans h.task)
  have hpark (snapshot : SessionSnapshot) :
      srv.shard.parkSession c.clientId c.sessionGeneration snapshot = (srv.shard, false) :=
    parkSession_of_stranger (fun session hs hg => absurd hg (h.displaced session hs)) snapshot
  have hclose := closeSession_of_stranger h.displaced srv.now c.sessionExpiry c.snapshot
    c.pendingOutbound
  cases hmove with
  | idle => exact .refl _ _
  | elapse | accept | mesh | publish | shed | load | drainWal | shutDown => exact nomatch hop
  | wakeMissed | wake | dismissMissed | dismiss | ingress => exact nomatch hop
  | reapQuiet | reapWill | reapArm | sweep => exact nomatch hop
  | packet p chance hc hphase =>
    obtain rfl := some.inj hop
    obtain rfl := hsame hc
    exact h.spares_packet hinv hphase hguard
  | receive | hangUp | mailboxClosed | shutDownNoticed | claimGoesOn | closeNameless =>
    exact ⟨rfl, rfl⟩
  | @claimReply _ _ _ _ reply rest chance hc _ hreplies =>
    obtain rfl := some.inj hop
    obtain rfl := hsame hc
    cases reply with
    | none => exact ⟨rfl, rfl⟩
    | some migrated => exact absurd hreplies (hguard migrated rest)
  | claimTimeout => exact ⟨rfl, rfl⟩
  | closeQuiet hc _ _ hclosed =>
    obtain rfl := some.inj hop
    obtain rfl := hsame hc
    obtain ⟨rfl, -⟩ := Prod.mk.inj (hclose.symm.trans hclosed)
    exact .refl _ _
  | closeWill hc _ _ hclosed | closeArm hc _ _ hclosed =>
    obtain rfl := some.inj hop
    obtain rfl := hsame hc
    exact nomatch (Prod.mk.inj (hclose.symm.trans hclosed)).2
  | publishWill _ hc hphase =>
    obtain rfl := some.inj hop
    obtain rfl := hsame hc
    exact absurd hphase (h.phase _)
  | parkDisplaced _ hc _ _ _ hflip =>
    obtain rfl := some.inj hop
    obtain rfl := hsame hc
    obtain ⟨rfl, -⟩ := Prod.mk.inj ((hpark _).symm.trans hflip)
    exact .refl _ _
  | parkFails hc _ _ _ hflip | park hc _ _ _ hflip =>
    obtain rfl := some.inj hop
    obtain rfl := hsame hc
    exact nomatch (Prod.mk.inj ((hpark _).symm.trans hflip)).2
  | reattachLost _ hc _ hreattach | reattach _ hc _ hreattach =>
    obtain rfl := some.inj hop
    obtain rfl := hsame hc
    -- the session is not the one that was parked
    rcases reattachParked_cases hreattach with ⟨hlost, -⟩ | ⟨session, hs, hgot, -⟩
    · obtain ⟨rfl, -⟩ := Prod.mk.inj hlost
      exact .refl _ _
    · exact absurd (.inl (h.displaced session hs)) hgot

/-- A displaced connection leaves its successor's session alone, as long as its work is guarded, in
any state of any run. The second part is about one that was displaced while it was parked, and is
reaped. -/
theorem displaced_leaves_successor (env : Env) {srv₀ srv : Server} (h₀ : srv₀.Started)
    (hrun : Reached env (fun _ _ => True) srv₀ srv) :
    (∀ id c op, srv.Displaced id c → op.connection = some id → srv.Guarded c.clientId op →
      Spares c.clientId srv.shard (srv.apply env op).shard) ∧
    ∀ slot r chance, srv.parking.slots.lookup slot = some r →
      (∀ session, srv.shard.sessions.lookup r.clientId = some session →
        session.generation ≠ r.sessionGeneration) →
      Spares r.clientId srv.shard (srv.apply env (.reap slot chance)).shard := by
  refine ⟨fun id c op h hop hguard => h.spares (Reached.inv h₀ hrun) hop hguard (move_apply ..),
    fun slot r chance hr hdisplaced => ?_⟩
  have hmove := move_apply env srv (.reap slot chance)
  have hsame {parking : Parking} {r' : ResumeState}
      (htaken : srv.parking.takeSlot slot = some (parking, r')) : r' = r := by
    rw [Parking.takeSlot, hr] at htaken
    exact ((Prod.mk.inj (some.inj htaken)).2).symm
  have hsuspend := suspendParked_of_stranger hdisplaced srv.now r.sessionExpiry
  generalize srv.apply env (.reap slot chance) = srv' at hmove
  cases hmove with
  | idle => exact .refl _ _
  | reapQuiet _ htaken hsuspended =>
    obtain rfl := hsame htaken
    obtain ⟨rfl, -⟩ := Prod.mk.inj (hsuspend.symm.trans hsuspended)
    exact .refl _ _
  | reapWill _ htaken hsuspended | reapArm _ htaken hsuspended =>
    obtain rfl := hsame htaken
    exact nomatch (Prod.mk.inj (hsuspend.symm.trans hsuspended)).2

/-- Two connections of one client, one after the other. -/
def takenOverServer : Server :=
  Lib.run (fun srv op => srv.apply openEnv op) freshServer
    [.accept .none, .packet 0 (.connect { clientId := "a", cleanSession := false }) {},
      .accept .none, .packet 1 (.connect { clientId := "a", cleanSession := false }) {}]

lemma takenOverServer_displaced : ∃ c, takenOverServer.Displaced 0 c ∧ c.clientId = "a" := by
  obtain ⟨c, hc⟩ : ∃ c, takenOverServer.tasks 0 = some c := isSome_iff_exists.mp (by decide)
  have hfacts : (takenOverServer.tasks 0).all fun c =>
      c.clientId == "a" && c.sessionGeneration == 1 && c.phase == .running := by decide
  have hsession : (takenOverServer.shard.sessions.lookup "a").all (·.generation == 2) := by decide
  rw [hc, all_some] at hfacts
  simp only [Bool.and_eq_true, beq_iff_eq] at hfacts
  obtain ⟨⟨hid, hgeneration⟩, hphase⟩ := hfacts
  refine ⟨c, ⟨hc, ?_, ?_, fun will hwill => ?_, fun session hs => ?_⟩, hid⟩
  · rw [hid]
    decide
  · rw [hgeneration]
    decide
  · exact nomatch hphase.symm.trans hwill
  · rw [hid] at hs
    rw [hs, all_some, beq_iff_eq] at hsession
    rw [hsession, hgeneration]
    decide

/-- A SUBSCRIBE that was sent before the takeover is processed after it: the successor has the
subscription. -/
theorem displaced_subscribes_for_successor :
    Reached openEnv (fun _ _ => True) freshServer takenOverServer ∧
    (∃ c, takenOverServer.Displaced 0 c ∧ c.clientId = "a") ∧
    (takenOverServer.shard.trie.clientSubscriptions "a").length = 0 ∧
    ((takenOverServer.apply openEnv (.packet 0 (.subscribe
      { pkid := 1, filters := [{ path := "t", qos := .atLeastOnce }] })
        {})).shard.trie.clientSubscriptions "a").length = 1 :=
  ⟨Lib.reached_run freshServer _, takenOverServer_displaced, by decide, by decide⟩

/-- What the displaced connection publishes does not reach the session of its successor. -/
theorem displaced_leaves_successor_publish :
    (∃ c, takenOverServer.Displaced 0 c ∧ c.clientId = "a") ∧
    Spares "a" takenOverServer.shard
      (takenOverServer.apply openEnv (.packet 0 (.publish
        { topic := "t", qos := .atMostOnce, payload := [] }) {})).shard := by
  refine ⟨takenOverServer_displaced, ?_⟩
  obtain ⟨c, hdisplaced, hid⟩ := takenOverServer_displaced
  rw [← hid]
  refine (displaced_leaves_successor openEnv freshServer_started
    (Lib.reached_run freshServer _)).1 0 c
    _ hdisplaced rfl fun session hs => ?_
  have hlive : (takenOverServer.shard.sessions.lookup "a").all (·.mailbox.isSome) := by decide
  rw [hid] at hs
  have hs : takenOverServer.shard.sessions.lookup "a" = some session := hs
  rw [hs, all_some] at hlive
  exact hlive

end Server

end Rusquitto
