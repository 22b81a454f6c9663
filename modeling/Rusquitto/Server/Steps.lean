import Rusquitto.Server.Calls
import Rusquitto.Server.Handover

/-!
# What a piece of work tells the other shards

Almost every piece of work on a shard is `Still`: it opens no session, gives no session a new
generation and sends no session-control message. The exceptions are a CONNECT that opens a session
(`Connection.openHandle`), the end of a claim (`Connection.claimed`), and what arrives from other
shards.
-/

namespace Rusquitto

open ShardState Connection

variable {id : ℕ} {k : String} {cleanStart : Bool}

namespace Server

variable {env : Env} {srv srv' : Server} {op : ServerOp} {s s' s'' : ShardState}

/-- What a step that opens no session does to what other shards can see: nothing. -/
structure Hushed (s s' : ShardState) : Prop where
  posts : Spreads s s'
  replies : ∀ id, ∀ reply ∈ s'.claimReplies id, reply ∈ s.claimReplies id
  generation : ∀ k session', s'.sessions.lookup k = some session' →
    ∃ session, s.sessions.lookup k = some session ∧ session'.generation = session.generation

lemma Hushed.controls (h : Hushed s s') (hs : s.controlTx.isSome) : s'.controls = s.controls :=
  (h.posts.controls hs).trans (List.append_nil _)

lemma hushed_of_calm (h : s.Calm s') : Hushed s s' where
  posts := h.posts
  replies _ _ hmem := h.replies ▸ hmem
  generation k session' hs' := by
    obtain ⟨session, hs, he⟩ := h.evolves k session' hs'
    exact ⟨session, hs, he.generation⟩

lemma Hushed.refl (s : ShardState) : Hushed s s := hushed_of_calm (.refl s)

lemma Hushed.trans (h : Hushed s s') (h' : Hushed s' s'') : Hushed s s'' where
  posts := h.posts.trans h'.posts
  replies id reply hmem := h.replies id reply (h'.replies id reply hmem)
  generation k session'' hs'' := by
    obtain ⟨session', hs', hg'⟩ := h'.generation k session'' hs''
    obtain ⟨session, hs, hg⟩ := h.generation k session' hs'
    exact ⟨session, hs, hg'.trans hg⟩

/-- An operation on one client's record. -/
lemma hushed_of_view (c : String) {f : ClientView → ClientView} (hposts : s.Posts s' [])
    (hview : ∀ k, s'.view k = if k = c then f (s.view k) else s.view k)
    (hf : ∀ v : ClientView, v.Lasts (f v)) : Hushed s s' where
  posts := hposts.spreads
  replies _ _ hmem := hposts.claimReplies ▸ hmem
  generation k session' hs' := by
    have hs' : (s'.view k).session = some session' := hs'
    rw [hview] at hs'
    split at hs'
    · exact ((hf _).exists_session hs').2
    · exact ⟨session', hs', rfl⟩

section

variable (s : ShardState) (now : ℕ) (c : String) (generation : ℕ)

lemma hushed_closeSession (expirySecs : UInt32) (snapshot : SessionSnapshot)
    (pending : List Delivery) :
    Hushed s (s.closeSession now c generation expirySecs snapshot pending).1 :=
  hushed_of_view c (s.posts_closeSession now c generation expirySecs snapshot pending)
    (s.view_closeSession now c · generation expirySecs snapshot pending)
    (·.lasts_closed now generation expirySecs snapshot pending)

lemma hushed_armWill (will : Publish) (delaySecs : UInt32) :
    Hushed s (s.armWill now c generation will delaySecs) :=
  hushed_of_view c (s.posts_armWill now c generation will delaySecs)
    (s.view_armWill now c · generation will delaySecs)
      (·.lasts_willArmed now generation will delaySecs)

end

lemma hushed_parkSession (s : ShardState) (c : String) (generation : ℕ)
    (snapshot : SessionSnapshot) : Hushed s (s.parkSession c generation snapshot).1 :=
  hushed_of_view c (s.posts_parkSession c generation snapshot)
    (s.view_parkSession c · generation snapshot) (·.lasts_parked generation snapshot)

lemma hushed_reattachParked (s : ShardState) (c : String) (generation mailbox : ℕ) :
    Hushed s (s.reattachParked c generation mailbox).1 :=
  hushed_of_view c (s.posts_reattachParked c generation mailbox)
    (s.view_reattachParked c · generation mailbox) (·.lasts_reattached generation mailbox)

lemma hushed_of_amid (h : s' = s.amid s') (hreplies : ∀ id, ∀ reply ∈ s'.claimReplies id,
    reply ∈ s.claimReplies id) : Hushed s s' where
  posts := h ▸ .books rfl
  replies := hreplies
  generation k session' hs' := ⟨session', by rw [h] at hs'; exact hs', rfl⟩

/-- A reply is taken from a channel. -/
lemma hushed_receiveReply {reply : Option MigratedSession} {rest : List (Option MigratedSession)}
    (h : s.claimReplies id = reply :: rest) :
    Hushed s { s with claimReplies := Function.update s.claimReplies id rest } := by
  refine hushed_of_amid rfl fun id' reply' hmem => ?_
  dsimp only at hmem
  rw [Function.update_apply] at hmem
  split at hmem
  · next hid =>
    rw [hid, h]
    exact List.mem_cons_of_mem _ hmem
  · exact hmem

lemma hushed_claimed (c : Connection) (s : ShardState) (chance : Chance) (assigned : Bool)
    (found : Option MigratedSession) : Hushed s (c.claimed env s chance assigned found).shard := by
  have hunregister : Hushed s (s.unregisterClaim c.clientId) := hushed_of_amid rfl fun _ _ h => h
  unfold claimed
  split
  · exact hunregister
  · exact hunregister.trans (hushed_of_calm (calm_installMigrated _ _ _))

/-! ### Opening a session -/

/-- A CONNECT of `k` passed every check, and the task `id` opens the session. -/
def Opens (env : Env) (srv srv' : Server) (id : ℕ) (k : String) (cleanStart : Bool) : Prop :=
  ∃ c c₁ chance assigned nextAssignedId, srv.taskAt id .running = some c ∧ c.connected = false ∧
    c.Vetted c₁ ∧ c₁.clientId = k ∧ k ≠ "" ∧
    srv' = srv.finishTurn id
      (c₁.openHandle env { srv.shard with nextAssignedId } chance cleanStart assigned)

/-- A packet is refused or out of place, or the event loop dispatches it, or it opens a session. -/
lemma packet_cases (env : Env) (srv : Server) (id : ℕ) (p : Packet) (chance : Chance) :
    (∃ nextAssignedId, (srv.packet env id p chance).shard = { srv.shard with nextAssignedId }) ∨
      (∃ c : Connection, (srv.packet env id p chance).shard =
        (c.dispatch env srv.shard chance p).shard) ∨
      ∃ k cleanStart, Opens env srv (srv.packet env id p chance) id k cleanStart := by
  unfold Server.packet
  cases hat : srv.taskAt id .running with
  | none => exact .inl ⟨_, rfl⟩
  | some c =>
    cases hconn : c.connected with
    | true =>
      simp only [processOne, hconn, if_true]
      exact .inr (.inl ⟨c, rfl⟩)
    | false =>
      simp only [processOne, hconn, Bool.false_eq_true, if_false]
      cases p with
      | connect connect =>
        obtain ⟨c₁, nextAssignedId, hvet, ⟨code, heq⟩ | ⟨hname, heq⟩⟩ :=
          handleConnect_cases env c srv.shard chance connect
        · exact .inl ⟨nextAssignedId, congrArg (fun turn => (srv.finishTurn id turn).shard) heq⟩
        · exact .inr (.inr ⟨c₁.clientId, connect.cleanSession, c, c₁, chance,
            decide (connect.clientId = ""), nextAssignedId, hat, hconn, hvet, rfl, hname,
            congrArg (srv.finishTurn id) heq⟩)
      | _ => exact .inl ⟨_, rfl⟩

/-- Only a CONNECT opens a session, and nothing else tells other shards about one. -/
lemma Move.hushed_or_opens (hmove : Move env srv op srv') (hop : op.Local) :
    Hushed srv.shard srv'.shard ∨ ∃ id p chance k cleanStart, op = .packet id p chance ∧
      Opens env srv srv' id k cleanStart := by
  have hresult {α : Type} {r : ShardState × α} {shard : ShardState} {a : α} (heq : r = (shard, a))
      (h : Hushed srv.shard r.1) : Hushed srv.shard shard := by rwa [heq] at h
  cases hmove with
  | packet p chance hc hphase =>
    cases answer_processOne env _ srv.shard chance p with
    | served hconnected hturn =>
      rw [hturn]
      exact .inl (hushed_of_calm (calm_dispatch _ srv.shard chance p))
    | refused _ _ hturn =>
      rw [hturn]
      exact .inl (hushed_of_amid rfl fun _ _ h => h)
    | opened hconnected hpacket hvet hname hturn =>
      rw [hturn]
      exact .inr ⟨_, p, chance, _, _, rfl, _, _, chance, _, _, by simp [taskAt, hc, hphase],
        hconnected, hvet, rfl, hname, rfl⟩
  | claimGoesOn _ _ _ hreplies => exact .inl (hushed_receiveReply hreplies)
  | claimReply _ _ _ hreplies =>
    exact .inl ((hushed_receiveReply hreplies).trans (hushed_claimed ..))
  | claimTimeout => exact .inl (hushed_claimed ..)
  | closeQuiet _ _ _ h | closeWill _ _ _ h => exact .inl (hresult h (hushed_closeSession ..))
  | closeArm _ _ _ h => exact .inl ((hresult h (hushed_closeSession ..)).trans (hushed_armWill ..))
  | publishWill | publish => exact .inl (hushed_of_calm (calm_deliverLocal ..))
  | parkDisplaced _ _ _ _ _ h | parkFails _ _ _ _ h | park _ _ _ _ h =>
    exact .inl (hresult h (hushed_parkSession ..))
  | reapQuiet _ _ h => exact .inl (hresult h (hushed_of_calm (calm_suspendParked ..)))
  | reapWill _ _ h =>
    exact .inl ((hresult h (hushed_of_calm (calm_suspendParked ..))).trans
      (hushed_of_calm (calm_deliverLocal ..)))
  | reapArm _ _ h =>
    exact .inl ((hresult h (hushed_of_calm (calm_suspendParked ..))).trans
      (hushed_armWill ..))
  | reattachLost _ _ _ h | reattach _ _ _ h => exact .inl (hresult h (hushed_reattachParked ..))
  | sweep chance =>
    exact .inl (hushed_of_calm ((srv.shard.calm_sweepExpired srv.now).trans
      (Lib.foldl_rel .refl .trans (fun s will => s.calm_deliverLocal env.hash will none) _ _)))
  | shed order max => exact .inl (hushed_of_calm (srv.shard.calm_shedConnections order max))
  | shutDown => exact .inl (hushed_of_calm srv.calm_shutDown)
  | mesh | load => exact hop.elim
  | idle | elapse | accept | hangUp | mailboxClosed | shutDownNoticed | closeNameless | ingress =>
    exact .inl (.refl _)
  | receive => exact .inl (hushed_of_amid rfl fun _ _ h => h)
  | wakeMissed | wake | dismissMissed | dismiss | drainWal =>
    exact .inl (hushed_of_calm (.of_eq rfl (.books rfl)))

/-- The claims a CONNECT sends. -/
def claimsOf (s : ShardState) (k : String) (cleanStart : Bool) : List (ℕ × SessionControl) :=
  if cleanStart ∨ s.sessions.lookup k = none then
    s.peers.map (·, .claim k ((s.mesh.map Mesh.peerId).getD 0) !cleanStart)
  else []

/-- What the other shards see of a CONNECT. -/
structure Opened (s s' : ShardState) (k : String) (cleanStart : Bool) : Prop where
  posts : Posts { s.amid s' with nextGeneration := s.nextGeneration + 1 } s'
    (claimsOf s k cleanStart)
  replies : s'.claimReplies = s.claimReplies
  other : ∀ k', k' ≠ k → s'.sessions.lookup k' = s.sessions.lookup k'
  generation : ∃ session, s'.sessions.lookup k = some session ∧
    session.generation = s.nextGeneration + 1 ∧ session.online = true

lemma Opened.controls (h : Opened s s' k cleanStart) (hs : s.controlTx.isSome) :
    s'.controls = s.controls ++ claimsOf s k cleanStart :=
  h.posts.controls hs

section

variable (s : ShardState) (k : String) (mailbox : ℕ) (cleanStart : Bool)

lemma resumed_openSession : (s.openSession k mailbox cleanStart).2.resumed =
      (!cleanStart && (s.sessions.lookup k).isSome) := by
  cases hs : s.sessions.lookup k with
  | none =>
    have hsignal : AList.lookup k
        ({ s with nextGeneration := s.nextGeneration + 1 }.signalCloseParked k).sessions
          = none := by
      simp [signalCloseParked, hs]
    unfold openSession
    dsimp only
    rw [hsignal]
    simp
  | some session =>
    cases cleanStart with
    | false => exact (handle_openSession hs mailbox).1
    | true =>
      unfold openSession
      dsimp only
      split <;> rfl

/-- The session after a CONNECT, seen by itself. -/
lemma opened_openSession : (∀ k', k' ≠ k →
      (s.openSession k mailbox cleanStart).1.sessions.lookup k' = s.sessions.lookup k') ∧
    ∃ session, (s.openSession k mailbox cleanStart).1.sessions.lookup k = some session ∧
      session.generation = s.nextGeneration + 1 ∧ session.online = true := by
  constructor
  · intro k' hk
    exact congrArg ClientView.session
      ((s.view_openSession k k' mailbox cleanStart).trans (if_neg hk))
  · obtain ⟨session, hs, -, hg, -, honline⟩ := Session.exists_opened (s.view k) mailbox
      (s.nextGeneration + 1) cleanStart
    refine ⟨session, ?_, hg, honline⟩
    rw [← hs]
    exact congrArg ClientView.session
      ((s.view_openSession k k mailbox cleanStart).trans (if_pos rfl))

end

lemma opened_openHandle (env : Env) (c : Connection) {s : ShardState}
    (hmesh : s.meshPeers = 0 → s.peers = [])
    (chance : Chance) (cleanStart assigned : Bool) :
    Opened s (c.openHandle env s chance cleanStart assigned).shard c.clientId cleanStart := by
  have hposts := s.posts_openSession c.clientId c.mailboxRx cleanStart
  have hresumed := resumed_openSession s c.clientId c.mailboxRx cleanStart
  obtain ⟨hother, hgen⟩ := opened_openSession s c.clientId c.mailboxRx cleanStart
  unfold openHandle
  generalize s.openSession c.clientId c.mailboxRx cleanStart =
    opened at hposts hresumed hother hgen ⊢
  obtain ⟨s₁, handle⟩ := opened
  dsimp only at hposts hresumed hother hgen ⊢
  have hself : (s₁.mesh.map Mesh.peerId).getD 0 = (s.mesh.map Mesh.peerId).getD 0 := by
    rw [hposts.mesh]
  have hpeers : s₁.peers = s.peers := by rw [peers, hposts.mesh, peers]
  -- what follows the opening touches no record
  have hbroadcast (s₂ : ShardState) (hs₂ : ∃ pendingClaims, s₂ = { s₁ with pendingClaims })
      (resume : Bool) (hclaims : claimsOf s c.clientId cleanStart =
        s.peers.map (·, .claim c.clientId ((s.mesh.map Mesh.peerId).getD 0) resume)) :
      Opened s (s₂.broadcastClaim c.clientId resume) c.clientId cleanStart := by
    obtain ⟨pendingClaims, rfl⟩ := hs₂
    have hclaim := posts_broadcastClaim { s₁ with pendingClaims } c.clientId resume
    have hsessions : (broadcastClaim { s₁ with pendingClaims } c.clientId resume).sessions
        = s₁.sessions := by
      unfold broadcastClaim
      split
      · rfl
      · rw [foldl_enqueueControl]
    generalize broadcastClaim { s₁ with pendingClaims } c.clientId resume = s₂ at hclaim hsessions
    refine ⟨?_, hclaim.claimReplies.trans hposts.claimReplies,
      fun k' hk => by rw [hsessions, hother k' hk], by rw [hsessions]; exact hgen⟩
    rw [hclaims, ← hself, ← hpeers]
    exact (hposts.amid s₂).after (hclaim.amid s₂)
  have hquiet (hclaims : claimsOf s c.clientId cleanStart = []) :
    Opened s s₁ c.clientId cleanStart :=
    ⟨by rw [hclaims]; exact hposts.amid s₁, hposts.claimReplies, hother, hgen⟩
  split
  · next hclean => exact hbroadcast s₁ ⟨_, rfl⟩ false (by simp [claimsOf, hclean])
  · next hclean =>
    have hclean : cleanStart = false := by simpa using hclean
    split
    · next hres =>
      rw [hres, hclean] at hresumed
      refine hquiet (if_neg ?_)
      rw [hclean]
      intro hnone
      rcases hnone with hnone | hnone
      · cases hnone
      · simp [hnone] at hresumed
    · next hres =>
      have hnone : s.sessions.lookup c.clientId = none := by
        rw [hclean] at hresumed
        simpa [hres] using hresumed
      have hclaims : claimsOf s c.clientId cleanStart =
          s.peers.map (·, .claim c.clientId ((s.mesh.map Mesh.peerId).getD 0) true) := by
        simp [claimsOf, hclean, hnone]
      unfold claimRemoteSession
      split
      · next hzero =>
        refine hquiet ?_
        rw [hclaims, hmesh]
        · rfl
        · rw [← hzero, meshPeers, meshPeers, hposts.mesh]
      · exact hbroadcast _ ⟨_, rfl⟩ true hclaims

lemma Opens.opened (h : Opens env srv srv' id k cleanStart)
    (hmesh : srv.shard.meshPeers = 0 → srv.shard.peers = []) :
    Opened srv.shard srv'.shard k cleanStart := by
  obtain ⟨_, c₁, chance, assigned, nextAssignedId, -, -, -, rfl, -, rfl⟩ := h
  have hmesh : meshPeers { srv.shard with nextAssignedId } = 0 →
      peers { srv.shard with nextAssignedId } = [] := hmesh
  have hopened := opened_openHandle env c₁ hmesh chance cleanStart assigned
  exact ⟨hopened.posts, hopened.replies, hopened.other, hopened.generation⟩

/-- The client and the generation of the CONNECT that a piece of work accepts, if it does. -/
def accepted (srv srv' : Server) : ServerOp → Option (String × ℕ)
  | .packet id _ _ =>
    if srv.shard.nextGeneration < srv'.shard.nextGeneration then
      (srv'.tasks id).map fun c => (c.clientId, c.sessionGeneration)
    else none
  | _ => none

lemma accepted_of_hushed (h : Hushed srv.shard srv'.shard) (op : ServerOp) :
    accepted srv srv' op = none := by
  unfold accepted
  split
  · rw [h.posts.nextGeneration]
    exact if_neg (lt_irrefl _)
  · rfl

lemma accepted_of_opens (hinv : srv.Inv) (h : Opens env srv srv' id k cleanStart)
    (hmesh : srv.shard.meshPeers = 0 → srv.shard.peers = []) (p : Packet) (chance : Chance) :
    accepted srv srv' (.packet id p chance) = some (k, srv.shard.nextGeneration + 1) := by
  have hopened := h.opened hmesh
  obtain ⟨c, c₁, chance, assigned, nextAssignedId, hat, hconn, hvet, rfl, -, rfl⟩ := h
  have hinflight : c₁.inflight = ∅ := by
    have hc := (tasks_of_taskAt hat).1
    obtain ⟨_, _, _, _, _, _, _, _, rfl⟩ := hvet
    exact (hinv.sound id c hc).blank (.inl hconn)
  obtain ⟨_, _, -, hkeeps⟩ := keeps_openHandle env hinflight
    { srv.shard with nextAssignedId } chance cleanStart assigned
  have hid := hkeeps.identity
  rw [accepted, if_pos (by rw [hopened.posts.nextGeneration]; exact Nat.lt_succ_self _)]
  generalize c₁.openHandle env { srv.shard with nextAssignedId } chance cleanStart assigned = turn
    at hid
  have htask : (srv.finishTurn id turn).tasks id =
      some (settle (turn.conn, turn.outcome)) := Function.update_self ..
  obtain ⟨_, hsettled, -⟩ := exists_settle_eq (turn.conn, turn.outcome)
  rw [htask, hsettled, Option.map_some, Option.some.injEq]
  exact Prod.ext (congrArg Identity.clientId hid)
    (congrArg Identity.sessionGeneration hid)

/-- A piece of work opens no session, or it accepts a CONNECT. -/
lemma hushed_or_accepted (env : Env) (hinv : srv.Inv) {op : ServerOp} (hop : op.Local)
    (hmesh : srv.shard.meshPeers = 0 → srv.shard.peers = []) :
    Hushed srv.shard (srv.apply env op).shard ∧ accepted srv (srv.apply env op) op = none ∨
      ∃ k cleanStart, Opened srv.shard (srv.apply env op).shard k cleanStart ∧
        accepted srv (srv.apply env op) op = some (k, srv.shard.nextGeneration + 1) := by
  rcases (move_apply env srv op).hushed_or_opens hop with hhush |
    ⟨id, p, chance, k, cleanStart, rfl, hopens⟩
  · exact .inl ⟨hhush, accepted_of_hushed hhush op⟩
  · exact .inr ⟨k, cleanStart, hopens.opened hmesh, accepted_of_opens hinv hopens hmesh p chance⟩

end Server

end Rusquitto
