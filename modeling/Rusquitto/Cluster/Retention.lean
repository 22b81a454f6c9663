import Rusquitto.Cluster.Network
import Rusquitto.Server.Publishing

/-!
# The retained messages of all shards

A retained publish is stored where it is accepted, then on each other shard when it arrives there.
Two shards that accept one on one topic at the same time see the two in opposite orders
(`Network.crossed_retained`). The shards with the publishes under way are `Lib.Replicas`, so the
tables agree once nothing is under way, as long as nobody accepts a retained publish on a topic
while one from elsewhere is under way (`Network.retained_agree`).
-/

namespace Rusquitto

open ShardState Function List Network Lib

/-- A shard in its place in the mesh, without a limit on retained messages. -/
structure ShardState.Unlimited (s : ShardState) (i n : ℕ) : Prop where
  mesh : s.mesh = some { peerId := i, nrConsumers := n }
  limit : s.retainedLimit = 0
  outbox : s.ControlOnly

lemma ShardState.Unlimited.keeps {s s' : ShardState} {i n : ℕ} (hs : s.Unlimited i n)
    (h : Keeps s s') : s'.Unlimited i n :=
  ⟨h.mesh.trans hs.mesh, h.limit.trans hs.limit, h.outbox hs.outbox⟩

lemma ShardState.Unlimited.deliverLocal {s : ShardState} {i n : ℕ} (hs : s.Unlimited i n)
    (hash : ContentHash) (publish : Publish) (publisher : Option String) :
    (s.deliverLocal hash publish publisher).Unlimited i n := by
  obtain ⟨_, _, _, _, _, h⟩ := s.deliverLocal_frame hash publish publisher
  rw [h]
  exact ⟨hs.mesh, hs.limit, hs.outbox⟩

/-- The mesh links a piece of work finds full. -/
def NetworkOp.fullLinks {n : ℕ} : NetworkOp n → List ℕ
  | .act _ op => op.fullLinks
  | _ => []

namespace Network

variable {n : ℕ} {env : Env} {net net₀ : Network n} {i j : Fin n}

/-- The retained messages of the shards, and the retained publishes under way. -/
def replicas (net : Network n) : Lib.Replicas (Fin n) String (Option Publish) where
  table i topic := (net i).shard.retained.lookup topic
  link i j := ((net i).links.filter (·.1 = (j : ℕ))).filterMap fun e => e.2.retainWrite

/-- No other shard has a retained publish on the topic under way. -/
def OthersSilent (net : Network n) (i : Fin n) (topic : String) : Prop :=
  ∀ l, l ≠ i → ∀ e ∈ (net l).links, e.2.retain → e.2.topic ≠ topic

instance (net : Network n) (i : Fin n) (topic : String) : Decidable (net.OthersSilent i topic) :=
  inferInstanceAs (Decidable (∀ l, l ≠ i → ∀ e ∈ (net l).links, e.2.retain → e.2.topic ≠ topic))

/-- Whoever forwards a retained publish is the only one with one on its topic under way. -/
def Alone (env : Env) (net : Network n) : NetworkOp n → Prop
  | .act i op => ∀ e ∈ ((net i).apply env op).links.drop (net i).links.length, e.2.retain →
      net.OthersSilent i e.2.topic
  | _ => True

/-- No link is full, and at most one shard has retained publishes on a topic under way. -/
def OneWriter (env : Env) (net : Network n) (op : NetworkOp n) : Prop :=
  (op.Local ∧ op.fullLinks = []) ∧ Alone env net op

instance (net : Network n) (op : NetworkOp n) : Decidable (Alone env net op) := by
  unfold Alone
  split <;> infer_instance

/-- A broker without a limit on retained messages, with the same ones on every shard and no publish
under way. -/
structure Aligned (net : Network n) : Prop where
  shards : ∀ i, (net i).shard.Unlimited i n
  links : ∀ i, (net i).links = []
  agree : ∀ i j topic, (net i).shard.retained.lookup topic = (net j).shard.retained.lookup topic

/-- What holds while publishes are under way. -/
structure Retaining (net : Network n) : Prop where
  shards : ∀ i, (net i).shard.Unlimited i n
  settling : net.replicas.Settling

lemma Aligned.retaining (h : net.Aligned) (i₀ : Fin n) : net.Retaining where
  shards := h.shards
  settling := by
    have hlink (i j : Fin n) : net.replicas.link i j = [] := by simp [replicas, h.links i]
    refine ⟨fun i => hlink i i, fun topic => ⟨i₀, (net i₀).shard.retained.lookup topic, ?_, ?_⟩⟩
    · intro l _ j w hw
      rw [hlink] at hw
      exact nomatch hw
    · intro j
      rw [hlink]
      exact h.agree j i₀ topic

/-- The state of one shard after work in which it published some messages. -/
lemma replicas_update {srv : Server} {ps : List Publish} (hi : (net i).shard.Unlimited i n)
    (h : (net i).Publishes srv ps) : replicas (update net i srv) =
      net.replicas.writes i (ps.filterMap Publish.retainWrite) := by
  have hpeers : (net i).shard.peers = Mesh.peers { peerId := i, nrConsumers := n } := by
    rw [peers, hi.mesh]
    rfl
  -- what a shard is sent of the messages: all of them, unless it is the sender
  have hsent (b : Fin n) : ((ps.flatMap fun publish => (net i).shard.peers.map (·, publish)).filter
      (·.1 = (b : ℕ))).filterMap (fun e => e.2.retainWrite) =
      if b ≠ i then ps.filterMap Publish.retainWrite else [] := by
    have hone (publish : Publish) : ((net i).shard.peers.map (·, publish)).filter (·.1 = (b : ℕ)) =
        if b ≠ i then [((b : ℕ), publish)] else [] := by
      rw [hpeers, filter_map, comp_def]
      by_cases hb : b = i
      · subst hb
        simp [Mesh.peers]
      · have hne : (b : ℕ) ≠ i := fun h => hb (Fin.ext h)
        have hmem : (b : ℕ) ∈ Mesh.peers { peerId := i, nrConsumers := n } := by
          simp [Mesh.peers, hne]
        rw [filter_eq, count_eq_one_of_mem (nodup_meshPeers _) hmem]
        simp [hb]
    rw [filter_flatMap]
    simp only [hone]
    by_cases hb : b = i
    · simp [hb]
    · simp only [ne_eq, hb, not_false_eq_true, if_true]
      rw [← map_eq_flatMap, filterMap_map]
      rfl
  refine Replicas.ext (funext fun a => funext fun topic => ?_) (funext fun a => funext fun b => ?_)
  · rw [Replicas.table_writes]
    by_cases ha : a = i
    · subst ha
      simp only [replicas, update_self, if_true]
      exact h.retained hi.limit topic
    · simp only [replicas, update_of_ne ha, if_neg ha]
  · rw [Replicas.link_writes]
    by_cases ha : a = i
    · subst ha
      simp only [replicas, update_self, h.links, filter_append, filterMap_append,
        hsent, true_and]
      split
      · rfl
      · exact append_nil _
    · simp only [replicas, update_of_ne ha, ha, false_and, if_false]

/-- A shard works by itself. -/
lemma Retaining.act (h : net.Retaining) {op : ServerOp} (hop : OneWriter env net (.act i op)) :
    Retaining (net.apply env (.act i op)) := by
  obtain ⟨⟨hlocal, hfull⟩, halone⟩ := hop
  have hi := h.shards i
  have hps := Server.publishes_apply env (peers_eq_nil hi.mesh) hlocal hfull
  refine ⟨fun a => ?_, ?_⟩
  · simp only [apply, update_apply]
    split
    · next ha =>
      subst ha
      exact ⟨hps.mesh.trans hi.mesh, hps.limit.trans hi.limit, hps.outbox hi.outbox⟩
    · exact h.shards a
  · rw [show net.apply env (.act i op) = update net i ((net i).apply env op) from rfl,
      replicas_update hi hps]
    refine h.settling.writes fun w hw l hl j w' hw' => ?_
    obtain ⟨publish, hpublish, hwrite⟩ := mem_filterMap.mp hw
    obtain ⟨hretain, htopic⟩ := Publish.of_retainWrite hwrite
    obtain ⟨e, he, hwrite'⟩ := mem_filterMap.mp hw'
    obtain ⟨hretain', htopic'⟩ := Publish.of_retainWrite hwrite'
    -- the message went to that other shard, so the condition speaks about it
    have hne : (l : ℕ) ≠ i := fun h => hl (Fin.ext h)
    have hpeer : (l : ℕ) ∈ (net i).shard.peers := by
      simp [peers, hi.mesh, Mesh.peers, hne]
    have hnew : ((l : ℕ), publish) ∈
        ((net i).apply env op).links.drop (net i).links.length := by
      rw [hps.links, drop_left]
      exact mem_flatMap.mpr ⟨publish, hpublish, mem_map.mpr ⟨l, hpeer, rfl⟩⟩
    rw [← htopic, ← htopic']
    exact halone _ hnew hretain l hl e (mem_of_mem_filter he) hretain'

/-- Of the publishes to a shard the oldest is taken. -/
lemma filter_eraseP {links : List (ℕ × Publish)} {j : ℕ} {e : ℕ × Publish}
    (h : links.find? (·.1 = j) = some e) :
    links.filter (·.1 = j) = e :: (links.eraseP (·.1 = j)).filter (·.1 = j) ∧
      ∀ b, b ≠ j → (links.eraseP (·.1 = j)).filter (·.1 = b) = links.filter (·.1 = b) := by
  obtain ⟨hj, l₁, l₂, rfl, hl₁⟩ := find?_eq_some_iff_append.mp h
  have herase : (l₁ ++ e :: l₂).eraseP (·.1 = j) = l₁ ++ l₂ := by
    rw [eraseP_append_right _ (by simpa using hl₁), eraseP_cons_of_pos (by simpa using hj)]
  have hnone : l₁.filter (·.1 = j) = [] := by simpa using hl₁
  have hj : e.1 = j := by simpa using hj
  rw [herase]
  refine ⟨by simp [filter_append, hnone, hj], fun b hb => ?_⟩
  have hne : e.1 ≠ b := fun h => hb (h.symm.trans hj)
  simp [filter_append, hne]

/-- The oldest publish from one shard to another is handled: a retained one is a write that arrives.
-/
lemma replicas_forward (env : Env) (hlimit : (net j).shard.retainedLimit = 0) (hij : i ≠ j) {e : ℕ}
    {publish : Publish} (hfind : (net i).links.find? (·.1 = (j : ℕ)) = some (e, publish)) :
    (net.apply env (.forward i j)).replicas =
      if publish.retainWrite.isSome then net.replicas.deliver i j else net.replicas := by
  obtain ⟨hfirst, hother⟩ := filter_eraseP hfind
  obtain ⟨final, hfinal⟩ : ∃ final, net.apply env (.forward i j) = final := ⟨_, rfl⟩
  have hat (a : Fin n) : final a = if a = j then (net j).apply env (.mesh (.publish publish))
      else if a = i then { net i with links := (net i).links.eraseP (·.1 = (j : ℕ)) } else net a := by
    rw [← hfinal]
    simp only [apply, hfind, hij, if_false]
    rw [update_apply, update_apply]
  have htable (a : Fin n) (topic : String) : final.replicas.table a topic =
      if a = j then Replicas.after topic (net.replicas.table j topic) publish.retainWrite.toList
      else net.replicas.table a topic := by
    simp only [replicas, hat]
    split
    · obtain ⟨_, _, _, _, _, hframe⟩ := (net j).shard.deliverLocal_frame env.hash publish none
      change ((net j).shard.deliverLocal env.hash publish none).retained.lookup topic = _
      rw [hframe, lookup_retaining hlimit]
    · split
      · next ha => rw [ha]
      · rfl
  have hlink (a b : Fin n) : net.replicas.link a b =
      if a = i ∧ b = j then publish.retainWrite.toList ++ final.replicas.link a b
      else final.replicas.link a b := by
    simp only [replicas, hat]
    by_cases ha : a = i
    · subst ha
      simp only [hij, if_false, if_true, true_and]
      by_cases hb : b = j
      · subst hb
        simp only [hfirst, if_true]
        cases hwrite : publish.retainWrite <;> simp [hwrite]
      · have hne : (b : ℕ) ≠ j := fun h => hb (Fin.ext h)
        rw [if_neg hb, hother b hne]
    · simp only [ha, false_and, if_false]
      split
      · next haj => subst haj; rfl
      · rfl
  rw [hfinal]
  cases hwrite : publish.retainWrite with
  | none =>
    simp only [hwrite, Option.toList_none, nil_append, ite_self] at hlink htable
    refine Replicas.ext (funext fun a => funext fun topic => ?_)
      (funext fun a => funext fun b => (hlink a b).symm)
    rw [htable]
    split
    · next ha => subst ha; rfl
    · rfl
  | some w =>
    simp only [hwrite, Option.toList_some, singleton_append] at hlink htable
    have hhead : net.replicas.link i j = w :: final.replicas.link i j := by
      rw [hlink, if_pos ⟨rfl, rfl⟩]
    rw [Option.isSome_some, if_pos rfl]
    refine Replicas.ext (funext fun a => funext fun topic => ?_)
      (funext fun a => funext fun b => ?_)
    · rw [htable, Replicas.table_deliver hhead]
      by_cases ha : a = j
      · subst ha
        simp [Replicas.after, eq_comm]
      · simp [ha]
    · rw [Replicas.link_deliver hhead]
      by_cases hab : a = i ∧ b = j
      · rw [if_pos hab, hab.1, hab.2]
      · rw [hlink, if_neg hab, if_neg hab]

lemma Retaining.forward (h : net.Retaining) (i j : Fin n) :
    Retaining (net.apply env (.forward i j)) := by
  cases hfind : (net i).links.find? (·.1 = (j : ℕ)) with
  | none =>
    simp only [apply, hfind]
    exact h
  | some e =>
    by_cases hij : i = j
    · simp only [apply, hfind, if_pos hij]
      exact h
    refine ⟨fun a => ?_, ?_⟩
    · simp only [apply, hfind, hij, if_false, update_apply]
      split
      · next ha => subst ha; exact (h.shards a).deliverLocal env.hash e.2 none
      · split
        · next ha => subst ha; exact h.shards a
        · exact h.shards a
    · rw [replicas_forward env (h.shards j).limit hij hfind]
      split
      · exact h.settling.deliver hij
      · exact h.settling

/-- Control messages do not touch the retained messages. -/
lemma Retaining.control (h : net.Retaining) (i j : Fin n) :
    Retaining (net.apply env (.control i j)) := by
  cases hout : (net i).shard.outgoing j with
  | nil =>
    simp only [apply, hout]
    exact h
  | cons msg rest =>
    by_cases hij : i = j
    · simp only [apply, hout, if_pos hij]
      exact h
    have hpop : (net i).shard.Keeps ((net i).shard.popControl j) := by
      refine ⟨rfl, rfl, rfl, fun hs e he => hs e ?_⟩
      cases houtbox : (net i).shard.controlTx with
      | none => simp [popControl, houtbox] at he
      | some outbox =>
        simp only [popControl, houtbox, Option.map_some, Option.getD_some] at he
        exact mem_of_mem_eraseP he
    have hhandle : (net j).shard.Keeps ((net j).shard.handleMeshMsg env.hash msg) := by
      cases msg with
      | publish publish =>
        -- none of these is under way as a control message
        have hmem : MeshMsg.publish publish ∈ (net i).shard.outgoing j := by
          rw [hout]
          exact mem_cons_self
        obtain ⟨e, he, hmsg⟩ := mem_map.mp hmem
        exact absurd hmsg ((h.shards i).outbox e (mem_of_mem_filter he) publish)
      | control control => exact Quiet.keeps (.onControl control)
      | shared event => exact Quiet.keeps (.applySharedEvent event)
    have hat (a : Fin n) : net.apply env (.control i j) a =
        if a = j then (net j).apply env (.mesh msg)
        else if a = i then { net i with shard := (net i).shard.popControl j } else net a := by
      simp only [apply, hout, hij, if_false]
      rw [update_apply, update_apply]
    have hkept (a : Fin n) : (net a).shard.Keeps (net.apply env (.control i j) a).shard ∧
        (net.apply env (.control i j) a).links = (net a).links := by
      rw [hat]
      split
      · next ha => subst ha; exact ⟨hhandle, rfl⟩
      · split
        · next ha => subst ha; exact ⟨hpop, rfl⟩
        · exact ⟨⟨rfl, rfl, rfl, fun hs => hs⟩, rfl⟩
    refine ⟨fun a => (h.shards a).keeps (hkept a).1, ?_⟩
    have hreplicas : (net.apply env (.control i j)).replicas = net.replicas := by
      simp only [replicas, (hkept _).1.retained, (hkept _).2]
    rw [hreplicas]
    exact h.settling

/-- In every run in which no link is full and whoever accepts a retained publish is the only shard
with one on its topic under way, all shards have the same retained messages whenever no publish is
under way. -/
theorem retained_agree (env : Env) (h₀ : net₀.Aligned) (hrun : Reached env (OneWriter env) net₀ net)
    (hquiet : ∀ i, (net i).links = []) (i j : Fin n) (topic : String) :
    (net i).shard.retained.lookup topic = (net j).shard.retained.lookup topic := by
  have hinv : net.Retaining := by
    refine Lib.Reached.inv Retaining (h₀.retaining i) (fun net op h hop => ?_) hrun
    cases op with
    | act i op => exact h.act hop
    | control i j => exact h.control i j
    | forward i j => exact h.forward i j
  refine hinv.settling.eq_of_quiet (fun a b => ?_) i j topic
  simp [replicas, hquiet a]

lemma fresh_aligned (n : ℕ) : (fresh n).Aligned where
  shards _ := ⟨rfl, rfl, fun _ he => absurd he not_mem_nil⟩
  links _ := rfl
  agree _ _ _ := rfl

/-- A client connects to each of two shards with Clean Start, and then the rest happens. -/
def retainingRun (ops : List (NetworkOp 2)) : Network 2 :=
  Lib.run (apply Server.openEnv) (fresh 2)
    ([.act left (.accept .none),
      .act left (.packet 0 (.connect { clientId := "a", cleanSession := true }) {}),
      .act right (.accept .none),
      .act right (.packet 0 (.connect { clientId := "b", cleanSession := true }) {})] ++ ops)

/-- The client of a shard publishes a retained message. -/
def retains (i : Fin 2) (payload : List UInt8) : NetworkOp 2 :=
  .act i (.packet 0
    (.publish { topic := "t", qos := .atLeastOnce, pkid := 1, payload, retain := true }) {})

theorem retained_agree_one_writer :
    let net := retainingRun [retains 0 [1], .forward 0 1, retains 1 [2], .forward 1 0]
    (∀ i, (net i).links = []) ∧
      (net 0).shard.retained.lookup "t" = (net 1).shard.retained.lookup "t" ∧
      (net 1).shard.retained.lookup "t" ≠ none := by
  intro net
  have hquiet : ∀ i, (net i).links = [] := by decide
  have hrun : Reached Server.openEnv (OneWriter Server.openEnv) (fresh 2) net :=
    Lib.Reached.start.run ⟨⟨⟨trivial, rfl⟩, by decide⟩, ⟨⟨trivial, rfl⟩, by decide⟩,
      ⟨⟨trivial, rfl⟩, by decide⟩, ⟨⟨trivial, rfl⟩, by decide⟩, ⟨⟨trivial, rfl⟩, by decide⟩,
      ⟨⟨trivial, rfl⟩, trivial⟩, ⟨⟨trivial, rfl⟩, by decide⟩, ⟨⟨trivial, rfl⟩, trivial⟩, trivial⟩
  exact ⟨hquiet, retained_agree Server.openEnv (fresh_aligned 2) hrun hquiet 0 1 "t", by decide⟩

/-- Two shards accept a retained publish on one topic before either hears of the other's. No message
is dropped and all are handled, and each shard keeps the message of the other. -/
theorem crossed_retained : ∃ net : Network 2,
    Reached Server.openEnv (fun _ op => op.Local ∧ op.fullLinks = []) (fresh 2) net ∧
      (fresh 2).Aligned ∧ (∀ i, (net i).links = []) ∧ (∀ i, (net i).shard.controls = []) ∧
      ∃ topic, (net 0).shard.retained.lookup topic ≠ (net 1).shard.retained.lookup topic := by
  refine ⟨retainingRun [retains 0 [1], retains 1 [2], .forward 0 1, .forward 1 0, .control 0 1,
    .control 1 0, .control 0 1, .control 1 0], ?_, fresh_aligned 2, by decide, by decide, "t",
    by decide⟩
  exact Lib.Reached.start.run ⟨⟨trivial, rfl⟩, ⟨trivial, rfl⟩, ⟨trivial, rfl⟩, ⟨trivial, rfl⟩,
    ⟨trivial, rfl⟩, ⟨trivial, rfl⟩, ⟨trivial, rfl⟩, ⟨trivial, rfl⟩, ⟨trivial, rfl⟩, ⟨trivial, rfl⟩,
    ⟨trivial, rfl⟩, ⟨trivial, rfl⟩, trivial⟩

end Network

end Rusquitto
