import Rusquitto.Server.Steps

/-!
# Shards and their connections

All shards of the broker, each with its connections. What is under way from one shard to another is
the part of the sender's outbox and of its `links` that is addressed to it. A CONNECT asks every
other shard for the session, so two shards hold a session of one client only while such a claim is
under way (`Network.one_shard_owns`).
-/

namespace Rusquitto

open Function List Option ShardState

/-- The shards of a broker. -/
abbrev Network (n : ℕ) := Fin n → Server

/-- One piece of work somewhere in the broker. -/
inductive NetworkOp (n : ℕ) where
  /-- A shard works by itself. -/
  | act (i : Fin n) (op : ServerOp)
  /-- The oldest control message from one shard to another is handled. -/
  | control (i j : Fin n)
  /-- The oldest publish forwarded from one shard to another is handled. -/
  | forward (i j : Fin n)

/-- A shard's own work starts there: nothing arrives from nowhere. -/
def NetworkOp.Local {n : ℕ} : NetworkOp n → Prop
  | .act _ op => op.Local
  | _ => True

namespace ShardState

variable {s : ShardState}

lemma fst_of_controlOf {e : ℕ × MeshMsg} {e' : ℕ × SessionControl} (h : controlOf e = some e') :
    e'.1 = e.1 := by
  unfold controlOf at h
  split at h
  · rw [← some.inj h]
  · exact nomatch h

/-- The session-control messages after the oldest message to a peer is taken out. -/
lemma controls_popControl {peer : ℕ} {msg : MeshMsg} {rest : List MeshMsg}
    (h : s.outgoing peer = msg :: rest) :
    ∃ l₁ l₂, s.controls = l₁ ++ (controlOf (peer, msg)).toList ++ l₂ ∧
      (s.popControl peer).controls = l₁ ++ l₂ ∧ ∀ e ∈ l₁, e.1 ≠ peer := by
  unfold outgoing at h
  cases houtbox : s.controlTx with
  | none =>
    rw [houtbox] at h
    exact nomatch h
  | some outbox =>
    rw [houtbox, getD_some] at h
    obtain ⟨e, es, hes, he, -⟩ := map_eq_cons_iff.mp h
    obtain ⟨l₁, l₂, hsplit, hl₁, hpeer, -⟩ := filter_eq_cons_iff.mp hes
    have hpeer : e.1 = peer := by simpa using hpeer
    have heq : e = (peer, msg) := Prod.ext hpeer he
    subst heq
    refine ⟨l₁.filterMap controlOf, l₂.filterMap controlOf, ?_, ?_, ?_⟩
    · simp only [controls, houtbox, getD_some, hsplit, filterMap_append,
        filterMap_cons]
      cases controlOf (peer, msg) <;> simp
    · have herase : outbox.eraseP (·.1 = peer) = l₁ ++ l₂ := by
        rw [hsplit, eraseP_append_right _ (by simpa using hl₁)]
        simp
      simp [controls, popControl, houtbox, herase]
    · intro e he
      obtain ⟨e', he', hcontrol⟩ := mem_filterMap.mp he
      rw [fst_of_controlOf hcontrol]
      simpa using hl₁ e' he'

/-- What one sends to oneself or not at all stays in the outbox. -/
lemma mem_controls_popControl {peer : ℕ} {msg : MeshMsg} {rest : List MeshMsg}
    (h : s.outgoing peer = msg :: rest) {e : ℕ × SessionControl} (he : e ∈ s.controls)
    (hne : controlOf (peer, msg) ≠ some e) : e ∈ (s.popControl peer).controls := by
  obtain ⟨l₁, l₂, hbefore, hafter, -⟩ := controls_popControl h
  rw [hbefore] at he
  rw [hafter]
  simp only [mem_append, mem_toList] at he ⊢
  tauto

/-- A message from a peer is handled within the mesh, and what is sent in return are handoffs. -/
lemma handleMeshMsg_mails (s : ShardState) (hash : ContentHash) (msg : MeshMsg) :
    (s.handleMeshMsg hash msg).mesh = s.mesh ∧
      (s.controlTx.isSome → (s.handleMeshMsg hash msg).controlTx.isSome ∧
        ∃ sent, (s.handleMeshMsg hash msg).controls = s.controls ++ sent ∧
          ∀ e ∈ sent, ∃ k session, e.2 = .handoff k session) := by
  cases msg with
  | publish publish =>
    have h := (s.calm_deliverLocal hash publish none).posts
    exact ⟨h.mesh, fun hs => ⟨h.outbox hs, [], h.controls hs, nofun⟩⟩
  | control control =>
    cases control with
    | claim k requester resume =>
      have h := s.posts_handleClaim k requester resume
      exact ⟨h.mesh, fun hs => ⟨h.outbox hs, _, h.controls hs, fun e he =>
        ⟨k, _, congrArg Prod.snd (mem_singleton.mp he)⟩⟩⟩
    | handoff k session =>
      have hframe : ∃ claimReplies, s.handleMeshMsg hash (.control (.handoff k session)) =
          { s with claimReplies } := by
        simp only [handleMeshMsg, onControl]
        split
        · exact ⟨s.claimReplies, rfl⟩
        · exact ⟨_, rfl⟩
      obtain ⟨_, h⟩ := hframe
      rw [h]
      exact ⟨rfl, fun hs => ⟨hs, [], (append_nil _).symm, nofun⟩⟩
  | shared event =>
    have h := s.posts_applySharedEvent event
    exact ⟨h.mesh, fun hs => ⟨h.outbox hs, [], h.controls hs, nofun⟩⟩

/-- A shard that counts no peers has none. -/
lemma peers_eq_nil {n : ℕ} {i : Fin n} (hmesh : s.mesh = some { peerId := i, nrConsumers := n })
    (hzero : s.meshPeers = 0) : s.peers = [] := by
  simp only [meshPeers, hmesh] at hzero
  simp only [peers, hmesh, map_some, getD_some, Mesh.peers,
    filter_eq_nil_iff, mem_range]
  intro m hm
  have := i.isLt
  simp only [ne_eq, decide_not, Bool.not_eq_eq_eq_not, Bool.not_true, decide_eq_false_iff_not,
    not_not]
  omega

/-- Whoever claims a session, it is gone here. -/
lemma lookup_handleClaim (s : ShardState) (k : String) (requester : ℕ) (resume : Bool) :
    (s.handleClaim k requester resume).sessions.lookup k = none := by
  have h := congrArg ClientView.session (s.view_handleClaim k k requester resume)
  rw [if_pos rfl, ClientView.claimed, session_view, session_view] at h
  rw [h]
  cases hs : s.sessions.lookup k with
  | none => exact hs
  | some session => rfl

end ShardState

namespace Network

variable {n : ℕ} (env : Env)

/-- Performs one piece of work. -/
def apply (net : Network n) : NetworkOp n → Network n
  | .act i op => update net i ((net i).apply env op)
  | .control i j =>
    match (net i).shard.outgoing j with
    | [] => net
    | msg :: _ =>
      -- a shard has no link to itself
      if i = j then net
      else
        update
          (update net i { net i with shard := (net i).shard.popControl j })
          j ((net j).apply env (.mesh msg))
  | .forward i j =>
    match (net i).links.find? (·.1 = (j : ℕ)) with
    | none => net
    | some (_, publish) =>
      if i = j then net
      else
        update
          (update net i { net i with links := (net i).links.eraseP (·.1 = (j : ℕ)) })
          j ((net j).apply env (.mesh (.publish publish)))

/-- The states a broker gets to, when each piece of work meets `P`. -/
abbrev Reached (P : Network n → NetworkOp n → Prop) : Network n → Network n → Prop :=
  Lib.Reached (apply env) P

/-- The shard holds a session of the client. -/
def Holds (net : Network n) (i : Fin n) (k : String) : Prop :=
  (net i).shard.sessions.lookup k ≠ none

/-- A claim for the client is under way from one shard to another. -/
def Claimed (net : Network n) (i j : Fin n) (k : String) : Prop :=
  ∃ resume, ((j : ℕ), .claim k i resume) ∈ (net i).shard.controls

/-- Every shard knows its place in the mesh and has its control outbox. -/
structure Meshed (net : Network n) : Prop where
  mesh : ∀ i, (net i).shard.mesh = some { peerId := i, nrConsumers := n }
  outbox : 1 < n → ∀ i, (net i).shard.controlTx.isSome

/-- The broker before its first connection. -/
structure Started (net : Network n) : Prop extends Meshed net where
  servers : ∀ i, (net i).Started
  empty : ∀ i, (net i).shard.controls = []

variable {env} {net net' : Network n} {i j : Fin n} {k : String} {srv : Server}

lemma Meshed.mem_peers (h : net.Meshed) (hij : i ≠ j) : (j : ℕ) ∈ (net i).shard.peers := by
  have hne : (j : ℕ) ≠ i := fun h => hij (Fin.ext h.symm)
  simp [peers, h.mesh i, Mesh.peers, hne]

lemma Meshed.peers_eq_nil (h : net.Meshed) (hzero : (net i).shard.meshPeers = 0) :
    (net i).shard.peers = [] :=
  ShardState.peers_eq_nil (h.mesh i) hzero

lemma Meshed.isSome (h : net.Meshed) (hij : i ≠ j) (k : Fin n) :
    (net k).shard.controlTx.isSome := by
  refine h.outbox ?_ k
  have hne : (i : ℕ) ≠ j := fun h => hij (Fin.ext h)
  have := i.isLt
  have := j.isLt
  omega

/-- One shard works, and stays in the mesh. -/
lemma Meshed.update (h : net.Meshed) (hmesh : srv.shard.mesh = (net i).shard.mesh)
    (houtbox : (net i).shard.controlTx.isSome → srv.shard.controlTx.isSome) :
    Meshed (update net i srv) where
  mesh l := by
    by_cases hl : l = i
    · subst hl
      rw [update_self, hmesh, h.mesh]
    · rw [update_of_ne hl, h.mesh]
  outbox hn l := by
    by_cases hl : l = i
    · subst hl
      rw [update_self]
      exact houtbox (h.outbox hn l)
    · rw [update_of_ne hl]
      exact h.outbox hn l

/-! ### One shard owns a session -/

/-- Two shards hold a session of one client only while a claim is under way between them. -/
def OneOwner (net : Network n) : Prop :=
  ∀ i j k, i ≠ j → net.Holds i k → net.Holds j k → net.Claimed i j k ∨ net.Claimed j i k

section

variable (h : net.OneOwner) (hmesh : net.Meshed)
include h hmesh

/-- A shard that tells the others of every session it opens. -/
lemma OneOwner.update (sent : List (ℕ × SessionControl))
    (hcontrols : 1 < n → srv.shard.controls = (net i).shard.controls ++ sent)
    (hnew : ∀ k, srv.shard.sessions.lookup k ≠ none → net.Holds i k ∨ ∀ peer ∈ (net i).shard.peers,
      ∃ resume, (peer, .claim k i resume) ∈ sent) : OneOwner (update net i srv) := by
  have hlt (a b : Fin n) (hab : a ≠ b) : 1 < n := by
    have hne : (a : ℕ) ≠ b := fun h => hab (Fin.ext h)
    have := a.isLt
    have := b.isLt
    omega
  -- what was under way still is
  have hclaimed (a b : Fin n) (k : String) (hab : a ≠ b) (hc : net.Claimed a b k) :
      Claimed (Function.update net i srv) a b k := by
    obtain ⟨resume, hmem⟩ := hc
    refine ⟨resume, ?_⟩
    by_cases ha : a = i
    · subst ha
      rw [update_self, hcontrols (hlt a b hab)]
      exact mem_append_left _ hmem
    · rwa [update_of_ne ha]
  have hopened (b : Fin n) (k : String) (hb : b ≠ i)
      (hsent : ∀ peer ∈ (net i).shard.peers, ∃ resume, (peer, .claim k i resume) ∈ sent) :
      Claimed (Function.update net i srv) i b k := by
    obtain ⟨resume, hmem⟩ := hsent b (hmesh.mem_peers hb.symm)
    refine ⟨resume, ?_⟩
    rw [update_self, hcontrols (hlt b i hb)]
    exact mem_append_right _ hmem
  intro a b k hab ha hb
  by_cases hai : a = i
  · subst hai
    rw [Holds, update_self] at ha
    rw [Holds, update_of_ne hab.symm] at hb
    rcases hnew k ha with hold | hsent
    · exact (h a b k hab hold hb).imp (hclaimed _ _ _ hab) (hclaimed _ _ _ hab.symm)
    · exact .inl (hopened b k hab.symm hsent)
  · rw [Holds, update_of_ne hai] at ha
    by_cases hbi : b = i
    · subst hbi
      rw [Holds, update_self] at hb
      rcases hnew k hb with hold | hsent
      · exact (h a b k hab ha hold).imp (hclaimed _ _ _ hab) (hclaimed _ _ _ hab.symm)
      · exact .inr (hopened a k hab hsent)
    · rw [Holds, update_of_ne hbi] at hb
      exact (h a b k hab ha hb).imp (hclaimed _ _ _ hab) (hclaimed _ _ _ hab.symm)

/-- A shard works by itself. -/
lemma OneOwner.act (i : Fin n) {op : ServerOp} (hop : op.Local) :
    Meshed (net.apply env (.act i op)) ∧ OneOwner (net.apply env (.act i op)) := by
  rcases ((net i).move_apply env op).hushed_or_opens hop with
    hhush | ⟨id, p, chance, k, clean, -, hopens⟩
  · refine ⟨hmesh.update hhush.posts.mesh hhush.posts.outbox, h.update hmesh []
      (fun hn => (hhush.controls (hmesh.outbox hn i)).trans (append_nil _).symm) fun k hk => ?_⟩
    obtain ⟨session', hs'⟩ := ne_none_iff_exists'.mp hk
    obtain ⟨session, hs, -⟩ := hhush.generation k session' hs'
    exact .inl (by rw [Holds, hs]; exact nofun)
  · have hopened := hopens.opened hmesh.peers_eq_nil
    refine ⟨hmesh.update hopened.posts.mesh hopened.posts.outbox, h.update hmesh _
      (fun hn => hopened.posts.controls (hmesh.outbox hn i)) fun k' hk' => ?_⟩
    by_cases hk : k' = k
    · subst hk
      by_cases hclaims : clean = true ∨ (net i).shard.sessions.lookup k' = none
      · refine .inr fun peer hpeer => ⟨!clean, ?_⟩
        rw [Server.claimsOf, if_pos hclaims, hmesh.mesh i]
        exact mem_map.mpr ⟨peer, hpeer, rfl⟩
      · exact .inl fun hnone => hclaims (.inr hnone)
    · exact .inl (by rw [hopened.other k' hk] at hk'; exact hk')

/-- A message arrives. -/
lemma OneOwner.arrive (hij : i ≠ j) (msg : MeshMsg)
    (hmeshed : srv.shard.mesh = (net i).shard.mesh)
    (houtbox : (net i).shard.controlTx.isSome → srv.shard.controlTx.isSome)
    (hsessions : srv.shard.sessions = (net i).shard.sessions)
    (hkept : ∀ e ∈ (net i).shard.controls, controlOf (j, msg) ≠ some e → e ∈ srv.shard.controls) :
    Meshed (Function.update (Function.update net i srv) j ((net j).apply env (.mesh msg))) ∧
      OneOwner (Function.update (Function.update net i srv) j ((net j).apply env (.mesh msg))) := by
  obtain ⟨hmailed, hmails⟩ := (net j).shard.handleMeshMsg_mails env.hash msg
  obtain ⟨houtbox', sent, hsent, -⟩ := hmails (hmesh.isSome hij j)
  have hj : (Function.update net i srv) j = net j := update_of_ne hij.symm ..
  refine ⟨(hmesh.update hmeshed houtbox).update ?_ ?_, ?_⟩
  · rw [hj]
    exact hmailed
  · exact fun _ => houtbox'
  obtain ⟨final, hfinal⟩ : ∃ final : Network n, Function.update (Function.update net i srv) j
      ((net j).apply env (.mesh msg)) = final := ⟨_, rfl⟩
  rw [hfinal]
  have hat (a : Fin n) : final a = if a = j then (net j).apply env (.mesh msg)
      else if a = i then srv else net a := by
    rw [← hfinal, update_apply, update_apply]
  -- no session appears
  have hholds (a : Fin n) (k : String) (ha : final.Holds a k) : net.Holds a k := by
    rw [Holds, hat] at ha
    split at ha
    · next haj =>
      obtain ⟨session', hs'⟩ := ne_none_iff_exists'.mp ha
      obtain ⟨session, hs, -⟩ :=
        ((net j).shard.tame_handleMeshMsg env.hash msg).evolves k session' hs'
      rw [Holds, haj]
      exact fun hnone => nomatch hs.symm.trans hnone
    · split at ha
      · next hai =>
        rw [hsessions] at ha
        exact hai ▸ ha
      · exact ha
  -- what is under way stays under way, but for the message that arrives
  have hclaimed (a b : Fin n) (k : String) (hb : final.Holds b k) (hc : net.Claimed a b k) :
      final.Claimed a b k := by
    obtain ⟨resume, hmem⟩ := hc
    refine ⟨resume, ?_⟩
    rw [hat]
    split
    · next haj =>
      subst haj
      change _ ∈ ((net a).shard.handleMeshMsg env.hash msg).controls
      rw [hsent]
      exact mem_append_left _ hmem
    · split
      · next hai =>
        subst hai
        refine hkept _ hmem fun hpopped => ?_
        cases msg with
        | publish publish => exact nomatch hpopped
        | shared event => exact nomatch hpopped
        | control control =>
          obtain ⟨hjb, rfl⟩ := Prod.mk.inj (some.inj hpopped)
          have hjb : j = b := Fin.ext hjb
          subst hjb
          rw [Holds, hat, if_pos rfl] at hb
          exact hb ((net j).shard.lookup_handleClaim k a resume)
      · exact hmem
  intro a b k hab ha hb
  exact (h a b k hab (hholds a k ha) (hholds b k hb)).imp (hclaimed a b k hb) (hclaimed b a k ha)

lemma OneOwner.apply {op : NetworkOp n} (hop : op.Local) :
    Meshed (net.apply env op) ∧ OneOwner (net.apply env op) := by
  cases op with
  | act i op => exact h.act hmesh i hop
  | control i j =>
    simp only [Network.apply]
    split
    · exact ⟨hmesh, h⟩
    · next msg rest hout =>
      split
      · exact ⟨hmesh, h⟩
      · next hij =>
        refine h.arrive hmesh hij msg rfl (fun hs => ?_) rfl fun e he hne => ?_
        · simpa [popControl] using hs
        · exact mem_controls_popControl hout he hne
  | forward i j =>
    simp only [Network.apply]
    split
    · exact ⟨hmesh, h⟩
    · split
      · exact ⟨hmesh, h⟩
      · next hij => exact h.arrive hmesh hij _ rfl id rfl fun e he _ => he

end

/-- In every state of every run two different shards hold a session of one client only while a claim
for it is under way between them. So while no control message is under way, every client has a
session on at most one shard. -/
theorem one_shard_owns (env : Env) {net₀ net : Network n} (h₀ : net₀.Started)
    (hrun : Reached env (fun _ op => op.Local) net₀ net) :
    net.OneOwner ∧ ((∀ i, (net i).shard.controls = []) →
      ∀ i j k, net.Holds i k → net.Holds j k → i = j) := by
  have hinv : net.Meshed ∧ net.OneOwner := by
    refine Lib.Reached.inv (fun net => net.Meshed ∧ net.OneOwner)
      ⟨h₀.toMeshed, fun i j k _ hi => ?_⟩
      (fun net op h hop => h.2.apply h.1 hop) hrun
    rw [Holds, (h₀.servers i).sessions] at hi
    exact absurd rfl hi
  refine ⟨hinv.2, fun hquiet i j k hi hj => ?_⟩
  by_contra hij
  rcases hinv.2 i j k hij hi hj with ⟨_, hmem⟩ | ⟨_, hmem⟩
  · rw [hquiet] at hmem
    exact nomatch hmem
  · rw [hquiet] at hmem
    exact nomatch hmem

/-- A broker of `n` shards, before its first connection. -/
def fresh (n : ℕ) : Network n := fun i =>
  { shard :=
      { mesh := some { peerId := i, nrConsumers := n }
        controlTx := some []
        unparkTx := some [] }
    shardId := i }

lemma fresh_started (n : ℕ) : (fresh n).Started where
  mesh _ := rfl
  outbox _ _ := rfl
  servers _ := ⟨rfl, fun _ => rfl, fun _ => rfl, rfl⟩
  empty _ := rfl

/-- A client connects to a shard, without Clean Start, for the connection `id`. -/
def connecting (i : Fin n) (id : ℕ) (k : String) : List (NetworkOp n) :=
  [.act i (.accept .none),
    .act i (.packet id (.connect
      { clientId := k, cleanSession := false,
        properties := some { sessionExpiryInterval := some 100 } }) {})]

/-- The shards of a network of two. -/
def left : Fin 2 := ⟨0, Nat.two_pos⟩

def right : Fin 2 := ⟨1, Nat.one_lt_two⟩

/-- A client connects to two shards at the same time. -/
def crossing : Network 2 :=
  Lib.run (apply Server.openEnv) (fresh 2) (connecting left 0 "a" ++ connecting right 0 "a")

theorem one_shard_owns_crossing : crossing.Holds 0 "a" ∧ crossing.Holds 1 "a" ∧
    (crossing.Claimed 0 1 "a" ∨ crossing.Claimed 1 0 "a") := by
  have h0 : crossing.Holds 0 "a" := by rw [Holds]; decide
  have h1 : crossing.Holds 1 "a" := by rw [Holds]; decide
  have hrun : Reached Server.openEnv (fun _ op => op.Local) (fresh 2) crossing :=
    Lib.Reached.start.run ⟨trivial, trivial, trivial, trivial, trivial⟩
  exact ⟨h0, h1, (one_shard_owns Server.openEnv (fresh_started 2) hrun).1 0 1 "a" (by decide) h0 h1⟩

end Network

end Rusquitto
