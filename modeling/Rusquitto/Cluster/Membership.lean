import Rusquitto.Broker.Posting
import Rusquitto.Cluster.SharedPick
import Rusquitto.Lib.Announce
import Rusquitto.Server.Durability

/-!
# Convergence of the replicated membership

Shards in a mesh. What is under way from one shard to another is the part of its control outbox that
is addressed to it. The cluster is an instance of membership by announcement (`Cluster.net`): as
long as announcements of two shards about one member do not meet (`ClusterOp.Orderly`), the views
are exact whenever nothing is under way (`Cluster.views_converge`).
-/

namespace Rusquitto

open ShardState ClientView Function Option List
open Lib.Announce (Net)

variable {op : Op} {s : ShardState} {msg : MeshMsg} {rest : List MeshMsg}

/-! ### Records in a running cluster -/

/-- What holds of a client's record on a shard whose live connections of the client are `live`. -/
structure ClientView.Kept (v : ClientView) (live : ℕ → Prop) : Prop where
  /-- A record stands behind the subscriptions. -/
  backed : v.session = none → v.subs = []
  /-- A parked session has no mailbox and no deadline. -/
  parked : ∀ session, v.session = some session → session.parked →
    session.mailbox = none ∧ session.expiresAt = none
  /-- A session whose connection runs is not parked. -/
  live_unparked : ∀ session, v.session = some session → live session.generation →
    session.parked = false

namespace ClientView

variable {v v' : ClientView} {live live' : ℕ → Prop}

/-- A view without a session and without subscriptions. -/
lemma kept_of_none (hs : v.session = none) (hsubs : v.subs = []) : v.Kept live :=
  ⟨fun _ => hsubs, fun _ h => by simp [hs] at h, fun _ h => by simp [hs] at h⟩

/-- A view with a session that is not parked. -/
lemma kept_of_unparked {session : Session} (hs : v.session = some session)
    (hp : session.parked = false) : v.Kept live := by
  refine ⟨fun h => by simp [hs] at h, fun _ h hp' => ?_, fun _ h _ => ?_⟩
  · rw [hs, some.injEq] at h
    rw [← h, hp] at hp'
    cases hp'
  · rw [hs, some.injEq] at h
    rw [← h, hp]

/-- A changed record with the same fields that matter here, and no further connections. -/
lemma Kept.congr (h : v.Kept live) (hlive : ∀ g, live' g → live g)
    (hnone : v'.session = none → v.session = none ∧ v'.subs = v.subs)
    (hsome : ∀ session', v'.session = some session' → ∃ session, v.session = some session ∧
      session'.parked = session.parked ∧ session'.mailbox = session.mailbox ∧
      session'.expiresAt = session.expiresAt ∧ session'.generation = session.generation) :
    v'.Kept live' := by
  refine ⟨fun hs => ?_, fun session' hs' hp' => ?_, fun session' hs' hl' => ?_⟩
  · obtain ⟨hs, hsubs⟩ := hnone hs
    rw [hsubs, h.backed hs]
  · obtain ⟨session, hs, hp, hm, he, -⟩ := hsome session' hs'
    rw [hm, he]
    exact h.parked session hs (hp ▸ hp')
  · obtain ⟨session, hs, hp, -, -, hg⟩ := hsome session' hs'
    rw [hp]
    exact h.live_unparked session hs (hg ▸ hlive _ hl')

lemma Kept.mono (h : v.Kept live) (hlive : ∀ g, live' g → live g) : v.Kept live' :=
  ⟨h.backed, h.parked, fun session hs hl => h.live_unparked session hs (hlive _ hl)⟩

lemma kept_opened (v : ClientView) (mailbox generation : ℕ) (cleanStart : Bool) :
    (v.opened mailbox generation cleanStart).Kept live := by
  unfold opened
  split
  · exact kept_of_unparked rfl rfl
  · split <;> exact kept_of_unparked rfl rfl

section

variable (h : v.Kept live)
include h

/-- A session that parks is no longer one of a running connection. -/
lemma kept_parked {generation : ℕ} (snapshot : SessionSnapshot)
    (hlive : ∀ g, live' g → live g ∧ g ≠ generation) :
    (v.parked generation snapshot).Kept live' := by
  unfold parked
  split
  · exact h.mono fun g hg => (hlive g hg).1
  · next session hs =>
    split
    · exact h.mono fun g hg => (hlive g hg).1
    · next hown =>
      rw [not_or, not_not] at hown
      refine ⟨(nomatch ·), fun _ hs' _ => ?_, fun _ hs' hl => ?_⟩
      · cases hs'
        exact ⟨rfl, rfl⟩
      · cases hs'
        exact absurd hown.1 (hlive _ hl).2

/-- A record that is rewritten as one that is not parked, or with the same fields that matter here.
-/
lemma Kept.change {gone guard : Session → Prop} {f : Session → Session}
    (hchange : v.Change gone guard f v') (hlive : ∀ g, live' g → live g)
    (hf : ∀ session, v.session = some session → guard session → (f session).parked = false ∨
      (f session).parked = session.parked ∧ (f session).mailbox = session.mailbox ∧
      (f session).expiresAt = session.expiresAt ∧ (f session).generation = session.generation) :
    v'.Kept live' := by
  cases hchange with
  | stays => exact h.mono hlive
  | ends => exact kept_of_none rfl rfl
  | turns hs hguard =>
    rcases hf _ hs hguard with hp | hsame
    · exact kept_of_unparked rfl hp
    · refine h.congr hlive (nomatch ·) fun session' hs' => ?_
      cases hs'
      exact ⟨_, hs, hsame⟩

lemma kept_subs (hsome : v.session.isSome) (subs : List FlatSub) : Kept { v with subs } live :=
  ⟨fun hs => by simp [show v.session = none from hs] at hsome, h.parked, h.live_unparked⟩

lemma kept_claimed : v.claimed.Kept live :=
  h.change v.change_claimed (fun _ => id) fun _ _ => False.elim

/-- A delivery touches the queue and the wake flag of the record, and a mark. -/
lemma kept_receives (hr : Receives v v') : v'.Kept live :=
  hr.rel (R := fun v v' => v.Kept live → v'.Kept live) (fun _ => id) (fun h h' => h' ∘ h)
    (fun v d h => h.change (v.change_delivered d) (fun _ => id) fun _ _ _ =>
      .inr ⟨rfl, rfl, rfl, rfl⟩) h

/-- A step of the client that arms nothing and sheds nothing. -/
lemma Kept.step {now : ℕ} {op : Op} {k : String} (hstep : v.Step now op k live live' v')
    (harms : ¬op.Arms k) (hsheds : ¬op.Sheds) : v'.Kept live' := by
  cases hstep with
  | same hlive => exact h.mono fun g => (hlive g).mp
  | marks => exact ⟨h.backed, h.parked, h.live_unparked⟩
  | subscriptions hop => exact absurd hop harms
  | opened => exact kept_opened ..
  | closed _ _ _ hrun hlive =>
    -- the connection that closes runs, so its session is not parked
    exact h.change (v.change_closed ..) (fun g hg => ((hlive g).mp hg).1) fun session hs hguard =>
      .inl (h.live_unparked session hs (hguard.1 ▸ hrun))
  | parked snapshot _ _ hlive => exact kept_parked h snapshot fun g => (hlive g).mp
  | reattached mailbox hs hown =>
    rw [ClientView.reattached, hs]
    simp only [if_neg hown]
    exact kept_of_unparked rfl rfl
  | suspended => exact h.change (v.change_suspended ..) (fun _ => id) fun _ _ _ => .inl rfl
  | willArmed =>
    exact h.change (v.change_willArmed ..) (fun _ => id) fun _ _ _ => .inr ⟨rfl, rfl, rfl, rfl⟩
  | received hreceives => exact kept_receives h hreceives
  | swept =>
    refine h.change (v.change_swept now) (fun _ => id) fun session _ _ => ?_
    unfold Session.fireWill
    split <;> exact .inr ⟨rfl, rfl, rfl, rfl⟩
  | claimed => exact kept_claimed h
  | shed hop => exact absurd hop hsheds

end

end ClientView

namespace Moment

variable {m m' : Moment}

/-- Every record is kept. -/
def Kept (m : Moment) : Prop :=
  ∀ k, (m.shard.view k).Kept (m.live k)

/-- An operation on one client, with the same connections running. -/
lemma Kept.ofView (hm : m.Kept) {shard : ShardState} {c : String} {v : String → ClientView}
    (hview : ∀ k, shard.view k = if k = c then v k else m.shard.view k)
    (hc : (v c).Kept (m.live c)) : Kept { m with shard } := by
  intro k
  show (shard.view k).Kept (m.live k)
  rw [hview k]
  split
  next hk => exact hk ▸ hc
  next => exact hm k

end Moment

/-- What the convergence of the views rests on, for one piece of work: no Clean Start and no claim
ends the session of a connected member, and only connected clients subscribe or receive a migrated
session. Shedding and shutdown are not considered. -/
def Op.Orderly (m : Moment) : Op → Prop
  | .openSession clientId _ cleanStart =>
    cleanStart = true → ∀ g, ¬ (m.shard.view clientId).Member g
  | .subscribe _ clientId _ => (m.shard.view clientId).session.any (·.online)
  | .installMigrated clientId _ => (m.shard.view clientId).session.any (·.online)
  | .handleClaim clientId _ _ => ∀ g, ¬ (m.shard.view clientId).Member g
  | .shedConnections _ _ => False
  | .shutdownConnections => False
  | _ => True

namespace ShardRun

variable {r : ShardRun}

section

variable (hash : ContentHash) (hr : r.toMoment.Kept) (hop : op.Orderly r.toMoment)
include hr hop

lemma kept_apply : (r.apply hash op).toMoment.Kept := by
  cases op with
  | subscribe filter c opts =>
    exact hr.ofView (fun k => view_subscribe ..)
      (kept_subs (hr c) (isSome_of_any hop) _)
  | unsubscribe filter c group =>
    refine hr.ofView (fun k => view_unsubscribe ..)
      ⟨fun hs => ?_, (hr c).parked, (hr c).live_unparked⟩
    have hnone : r.shard.trie.clientSubscriptions c = [] := (hr c).backed hs
    show (r.shard.trie.remove filter c group).1.clientSubscriptions c = []
    rw [TopicTrie.clientSubscriptions_eq, map_eq_nil_iff] at hnone ⊢
    rw [TopicTrie.stored_remove, filter_comm, hnone, filter_nil]
  | installMigrated c migrated =>
    exact hr.ofView (fun k => view_installMigrated ..)
      (kept_subs (hr c) (isSome_of_any hop) _)
  | shedConnections | shutdownConnections => exact hop.elim
  | _ => exact fun k => (hr k).step (r.view_apply hash _ k) id id

/-- An orderly piece of work announces every change of the members. -/
lemma announced_apply : Announced r.shard (r.apply hash op).shard := by
  cases op with
  | elapse nanos => exact announced_self r.shard
  | openSession c mailbox cleanStart =>
    exact announced_openSession (hr c).backed mailbox hop
  | closeSession c generation expirySecs snapshot pending =>
    simp only [apply]
    split
    next hrun =>
      refine announced_closeSession (fun session hs hg => ?_) ..
      exact (hr c).live_unparked session hs (hg ▸ hrun)
    next => exact announced_self r.shard
  | parkSession c generation snapshot =>
    simp only [apply]
    split
    · exact announced_parkSession ..
    · exact announced_self r.shard
  | reattachParked c generation mailbox => exact announced_reattachParked ..
  | suspendParked c generation expirySecs =>
    exact announced_suspendParked _ _ _ _
      (fun session hs hp => ((hr c).parked session hs hp).1) _
  | subscribe filter c opts => exact announced_subscribe hop filter opts
  | unsubscribe filter c group => exact announced_unsubscribe ..
  | installMigrated c migrated => exact announced_installMigrated hop migrated
  | deliverLocal publish publisher => exact announced_deliverLocal ..
  | handleClaim c requester resume =>
    exact announced_handleClaim hop requester resume
  | sweepExpired =>
    exact announced_sweepExpired _ _ fun k session hs hp =>
      ((hr k).parked session hs hp).2
  | armWill c generation will delaySecs => exact announced_armWill ..
  | shedConnections | shutdownConnections => exact hop.elim
  | takeWalBatch =>
    simp only [apply, takeBatch]
    split
    · split <;> exact announced_of_sameHold (.of_eq rfl rfl rfl) fun k => ⟨rfl, rfl⟩
    · exact announced_self r.shard
  | appendDone => simp only [apply, finishAppend]; split <;> exact announced_self r.shard
  | persistSessions => simp only [apply, collectSessions]; split <;> exact announced_self r.shard
  | saveDone => simp only [apply, finishSave]; split <;> exact announced_self r.shard
  | truncateDone => simp only [apply, finishTruncate]; split <;> exact announced_self r.shard

end

end ShardRun

/-! ### The cluster -/

/-- The shards of a broker, each in operation. -/
abbrev Cluster (n : ℕ) := Fin n → ShardRun

/-- A step of the cluster. -/
inductive ClusterOp (n : ℕ) where
  /-- A piece of work on one shard. -/
  | work (i : Fin n) (op : Op)
  /-- A Clean Start tells the peers to discard the session. -/
  | disclaim (i : Fin n) (clientId : String)
  /-- A connection claims the session, with the channel for the replies. -/
  | claim (i : Fin n) (clientId : String) (channel : ℕ)
  /-- The claim has been answered or timed out. -/
  | unclaim (i : Fin n) (clientId : String)
  /-- Shard `j` handles the oldest control message from shard `i`. -/
  | deliver (i j : Fin n)

namespace Cluster

variable {n : ℕ}

/-- Shard `i` has moved on. -/
def withShard (c : Cluster n) (i : Fin n) (shard : ShardState) : Cluster n :=
  update c i ((c i).withShard shard)

/-- Performs a step. -/
def apply (hash : ContentHash) (c : Cluster n) : ClusterOp n → Cluster n
  | .work i op => update c i ((c i).apply hash op)
  | .disclaim i clientId => c.withShard i ((c i).shard.broadcastClaim clientId false)
  | .claim i clientId channel =>
    c.withShard i (((c i).shard.registerClaim clientId channel).broadcastClaim clientId true)
  | .unclaim i clientId => c.withShard i ((c i).shard.unregisterClaim clientId)
  | .deliver i j =>
    -- a shard has no link to itself
    if i = j then c
    else
      match (c i).shard.outgoing j with
      | [] => c
      | msg :: _ =>
        (c.withShard i ((c i).shard.popControl j)).withShard j
          ((c j).shard.handleMeshMsg hash msg)

/-- No shard but `i` has the client as a connected member of the group, or an announcement about it
under way. -/
def OnlyAt (c : Cluster n) (i : Fin n) (a : String × String) : Prop :=
  ∀ k, k ≠ i → ¬ ((c k).shard.view a.2).Member a.1 ∧
    ∀ l, l ≠ k → ∀ b, (a, b) ∉ (c k).shard.sharedTo l

/-- A step of shard `i` puts announcements in the outbox only about members of its own. -/
def Exclusive (c : Cluster n) (i : Fin n) (shard : ShardState) : Prop :=
  ∀ j, j ≠ i → ∀ e ∈ (shard.sharedTo j).drop ((c i).shard.sharedTo j).length, c.OnlyAt i e.1

instance (c : Cluster n) (i : Fin n) (a : String × String) : Decidable (c.OnlyAt i a) :=
  inferInstanceAs (Decidable (∀ k, k ≠ i → ¬ ((c k).shard.view a.2).Member a.1 ∧
    ∀ l, l ≠ k → ∀ b, (a, b) ∉ (c k).shard.sharedTo l))

instance (c : Cluster n) (i : Fin n) (shard : ShardState) : Decidable (c.Exclusive i shard) :=
  inferInstanceAs (Decidable (∀ j, j ≠ i →
    ∀ e ∈ (shard.sharedTo j).drop ((c i).shard.sharedTo j).length, c.OnlyAt i e.1))

end Cluster

/-- A message is orderly if it is not a claim for the session of a connected member. -/
def MeshMsg.Orderly (s : ShardState) : MeshMsg → Prop
  | .control (.claim clientId _ _) => ∀ g, ¬ (s.view clientId).Member g
  | _ => True

/-- The steps under which the replicated views converge. -/
def ClusterOp.Orderly {n : ℕ} (hash : ContentHash) (c : Cluster n) : ClusterOp n → Prop
  | .work i op => op.Orderly (c i).toMoment ∧ c.Exclusive i ((c i).apply hash op).shard
  | .deliver i j => ∀ msg ∈ ((c i).shard.outgoing j).head?, msg.Orderly (c j).shard
  | _ => True

namespace ShardState

/-! ### The outbox and the view, one message at a time -/

lemma sharedTo_eq (s : ShardState) (peer : ℕ) :
    s.sharedTo peer = (s.outgoing peer).filterMap announcement := by
  rw [sharedTo, outgoing, filterMap_map]
  rfl

lemma outgoing_popControl (s : ShardState) (peer other : ℕ) : (s.popControl peer).outgoing other =
      if other = peer then (s.outgoing other).tail else s.outgoing other := by
  unfold outgoing popControl
  cases s.controlTx with
  | none => simp
  | some outbox =>
    simp only [map_some, getD_some]
    induction outbox with
    | nil => simp
    | cons e outbox ih =>
      by_cases he : e.1 = peer
      · rw [eraseP_cons_of_pos (by simpa using he)]
        by_cases ho : other = peer
        · simp [ho, he]
        · simp [ho, he, Ne.symm ho]
      · rw [eraseP_cons_of_neg (by simpa using he)]
        by_cases ho : other = peer
        · subst ho
          simpa [he] using ih
        · rw [if_neg ho] at ih ⊢
          by_cases heo : e.1 = other
          · simpa [heo] using ih
          · simpa [heo] using ih

/-- A Leave takes the client out of its group, and the group out of the view with its last
member. -/
lemma lookup_leave (s : ShardState) (group clientId g : String) :
    (s.applySharedEvent (.leave group clientId)).sharedRemote.lookup g = if g = group then
        ((s.sharedRemote.lookup group).map (·.filter (· ≠ clientId))).filter (· ≠ [])
      else s.sharedRemote.lookup g := by
  cases hl : s.sharedRemote.lookup group with
  | none =>
    simp only [applySharedEvent, hl]
    split
    · next hg => rw [hg, hl]; rfl
    · rfl
  | some members =>
    simp only [applySharedEvent, hl, map_some]
    split
    · next hnil =>
      rw [AList.lookup_erase_eq_ite, hnil]
      rfl
    · next hnil =>
      rw [AList.lookup_insert_eq_ite,
        show (some (members.filter (· ≠ clientId))).filter (· ≠ []) = _ from
          if_pos (decide_eq_true hnil)]

lemma lookup_join (s : ShardState) (group clientId g : String) :
    (s.applySharedEvent (.join group clientId)).sharedRemote.lookup g =
      if g = group then some (((s.sharedRemote.lookup group).getD []).insert clientId)
      else s.sharedRemote.lookup g :=
  AList.lookup_insert_eq_ite ..

/-- The view after an announcement. -/
lemma mem_applySharedEvent {event : SharedEvent} {a : String × String} {b : Bool}
    (he : announcement (.shared event) = some (a, b)) (g c : String) :
    c ∈ ((s.applySharedEvent event).sharedRemote.lookup g).getD [] ↔
      if (g, c) = a then b = true else c ∈ (s.sharedRemote.lookup g).getD [] := by
  cases event with
  | join group clientId =>
    cases he
    rw [lookup_join]
    by_cases hg : g = group
    · subst hg
      by_cases hc : c = clientId <;> simp [hc, mem_insert_iff]
    · simp [hg]
  | leave group clientId =>
    cases he
    rw [lookup_leave]
    by_cases hg : g = group
    · subst hg
      cases s.sharedRemote.lookup g with
      | none => simp
      | some members =>
        have hfilter : ((some (members.filter (· ≠ clientId))).filter (· ≠ [])).getD [] =
            members.filter (· ≠ clientId) := by
          rw [filter_some]
          split
          · rfl
          · next h =>
            rw [decide_eq_true_iff, not_not] at h
            rw [h]
            rfl
        rw [if_pos rfl, map_some, hfilter]
        by_cases hc : c = clientId <;> simp [hc]
    · simp [hg]

lemma applySharedEvent_ne_nil (hs : ∀ g, s.sharedRemote.lookup g ≠ some []) (event : SharedEvent)
    (g : String) : (s.applySharedEvent event).sharedRemote.lookup g ≠ some [] := by
  cases event with
  | join group clientId =>
    rw [lookup_join]
    split
    · intro h
      have hmem : clientId ∈ ((s.sharedRemote.lookup group).getD []).insert clientId :=
        mem_insert_self
      rw [some.inj h] at hmem
      exact not_mem_nil hmem
    · exact hs g
  | leave group clientId =>
    rw [lookup_leave]
    split
    · intro h
      have hne := (filter_eq_some_iff.mp h).2
      simp at hne
    · exact hs g

end ShardState

namespace Cluster

variable {n : ℕ} {c : Cluster n} {i j : Fin n} {r : ShardRun}

/-! ### The cluster as an instance of membership by announcement -/

/-- The members of the groups on each shard, the announcements under way and the views. -/
def net (c : Cluster n) : Net (Fin n) (String × String) where
  truth i a := ((c i).shard.view a.2).Member a.1
  sent i j := (c i).shard.sharedTo j
  view j a := a.2 ∈ ((c j).shard.sharedRemote.lookup a.1).getD []

/-- What holds in every reachable state of an orderly run. -/
structure Inv (c : Cluster n) : Prop where
  mesh : ∀ i, (c i).shard.mesh = some ⟨i, n⟩
  outbox : ∀ i, (c i).shard.controlTx.isSome
  kept : ∀ i, (c i).toMoment.Kept
  /-- A group without members elsewhere has no entry. -/
  ne_nil : ∀ i g, (c i).shard.sharedRemote.lookup g ≠ some []
  consistent : c.net.Consistent

lemma Inv.mem_peers (hc : c.Inv) (hj : j ≠ i) : (j : ℕ) ∈ (c i).shard.peers := by
  rw [peers, hc.mesh i, map_some, getD_some, Mesh.peers, mem_filter,
    mem_range]
  exact ⟨j.isLt, by simpa [Fin.val_inj] using hj⟩

/-- A shard's step that announces every change of its members, with no other shard concerned. -/
lemma Inv.update (hc : c.Inv) (i : Fin n) (hannounced : Announced (c i).shard r.shard)
    (hkept : r.toMoment.Kept) (hexcl : c.Exclusive i r.shard) : Inv (Function.update c i r) := by
  obtain ⟨clientId, groups, join, hsends, hmember⟩ := hannounced
  have hself : (Function.update c i r) i = r := update_self ..
  have hother : ∀ k, k ≠ i → (Function.update c i r) k = c k := fun k hk =>
    update_of_ne hk ..
  have hsent : ∀ j, j ≠ i → r.shard.sharedTo j =
      (c i).shard.sharedTo j ++ groups.map fun g => ((g, clientId), join) := fun j hj =>
    hsends.sent (hc.outbox i) j (hc.mem_peers hj)
  have hstep : c.net.Announces (net (Function.update c i r)) i
      (groups.map fun g => (g, clientId)) join := by
    refine ⟨fun a => ?_, fun k hk a => ?_, fun j hj => ?_, fun k hk j => ?_, fun k a => ?_⟩
    · obtain ⟨g, k⟩ := a
      have hmem : (g, k) ∈ groups.map (fun g => (g, clientId)) ↔ k = clientId ∧ g ∈ groups := by
        simp [and_comm, eq_comm]
      simp only [net, hself, hmember, hmem]
    · simp only [net, hother k hk]
    · simp only [net, hself, hsent j hj, List.map_map, Function.comp_def]
    · simp only [net, hother k hk]
    · by_cases hk : k = i
      · subst hk
        simp only [net, hself, hsends.remote]
      · simp only [net, hother k hk]
  have hcases : ∀ P : Fin n → ShardRun → Prop, P i r → (∀ k, P k (c k)) →
      ∀ k, P k (Function.update c i r k) := by
    intro P hi hk k
    by_cases h : k = i
    · subst h
      rwa [hself]
    · rw [hother k h]
      exact hk k
  refine ⟨?_, ?_, ?_, ?_, hc.consistent.announce hstep ?_⟩
  · exact hcases (fun k r => r.shard.mesh = some ⟨k, n⟩) (hsends.mesh.trans (hc.mesh i)) hc.mesh
  · exact hcases (fun _ r => r.shard.controlTx.isSome) (hsends.outbox (hc.outbox i)) hc.outbox
  · exact hcases (fun _ r => r.toMoment.Kept) hkept hc.kept
  · refine hcases (fun _ r => ∀ g, r.shard.sharedRemote.lookup g ≠ some []) ?_ hc.ne_nil
    rw [hsends.remote]
    exact hc.ne_nil i
  · -- the new announcements are those at the end of any link, for instance that to `k`
    rintro a ha k hk (htruth | ⟨l, hl, b, hb⟩)
    all_goals
      have hnew : (a, join) ∈ (r.shard.sharedTo k).drop ((c i).shard.sharedTo k).length := by
        rw [hsent k hk, List.drop_left]
        obtain ⟨g, hg, rfl⟩ := List.mem_map.mp ha
        exact List.mem_map.mpr ⟨g, hg, rfl⟩
    · exact (hexcl k hk _ hnew k hk).1 htruth
    · exact (hexcl k hk _ hnew k hk).2 l hl b hb

/-- A step that announces nothing and changes no membership. -/
lemma Inv.update_quiet (hc : c.Inv) (i : Fin n) (hsends : Sends (c i).shard r.shard [])
    (hmember : ∀ k g, (r.shard.view k).Member g ↔ ((c i).shard.view k).Member g)
    (hkept : r.toMoment.Kept) : Inv (Function.update c i r) := by
  refine hc.update i (.of_silent hsends hmember) hkept fun j hj e he => ?_
  rw [hsends.sent (hc.outbox i) j (hc.mem_peers hj), append_nil, drop_length] at he
  exact absurd he not_mem_nil

/-! ### Deliveries -/

/-- Taking a message that announces nothing out of the outbox. -/
lemma sends_popControl {peer : ℕ} (hout : s.outgoing peer = msg :: rest)
    (hmsg : announcement msg = none) : Sends s (s.popControl peer) [] where
  mesh := rfl
  remote := rfl
  outbox h := by simpa [popControl] using h
  sent _ p _ := by
    rw [append_nil, sharedTo_eq, sharedTo_eq,
      outgoing_popControl]
    split
    · next hp => rw [hp, hout, tail_cons, filterMap_cons_none hmsg]
    · rfl

section

variable (hash : ContentHash)

/-- The message handled at the other end, when it announces nothing. -/
lemma sends_handleMeshMsg (s : ShardState) (hmsg : announcement msg = none) :
    Sends s (s.handleMeshMsg hash msg) [] := by
  cases msg with
  | publish publish => exact s.sends_deliverLocal hash publish none
  | control control =>
    cases control with
    | claim clientId requester resume => exact s.sends_handleClaim clientId requester resume
    | handoff clientId session =>
      simp only [handleMeshMsg, onControl]
      split
      · exact .refl s
      · exact .of_eq rfl rfl rfl
  | shared event => cases event <;> cases hmsg

/-- A handled message leaves the members alone, unless it is a claim that finds one. -/
lemma member_handleMeshMsg (hmsg : msg.Orderly s) (k g : String) :
    ((s.handleMeshMsg hash msg).view k).Member g ↔ (s.view k).Member g := by
  cases msg with
  | publish publish =>
    exact (sameHold_receives (s.receives_deliverLocal hash publish none k)).member g
  | control control =>
    cases control with
    | claim clientId requester resume =>
      show ((s.handleClaim clientId requester resume).view k).Member g ↔ _
      rw [view_handleClaim]
      split
      · next hk =>
        exact iff_of_false (not_member_claimed _ g) (hk ▸ hmsg g)
      · rfl
    | handoff clientId session =>
      simp only [handleMeshMsg, onControl]
      split <;> rfl
  | shared event =>
    obtain ⟨_, hframe⟩ := s.applySharedEvent_frame event
    rw [handleMeshMsg, hframe]
    rfl

lemma kept_handleMeshMsg (hr : r.toMoment.Kept) (msg : MeshMsg) :
    (r.withShard (r.shard.handleMeshMsg hash msg)).toMoment.Kept := by
  cases msg with
  | publish publish =>
    exact fun k => kept_receives (hr k) (receives_deliverLocal ..)
  | control control =>
    cases control with
    | claim clientId requester resume =>
      exact hr.ofView (fun k => view_handleClaim ..)
        (kept_claimed (hr clientId))
    | handoff clientId session =>
      simp only [handleMeshMsg, onControl]
      split <;> exact hr
  | shared event =>
    obtain ⟨_, hframe⟩ := r.shard.applySharedEvent_frame event
    rw [handleMeshMsg, hframe]
    exact hr

/-- A delivered announcement. -/
lemma Inv.deliver_announcement (hc : c.Inv) (hij : i ≠ j) {event : SharedEvent}
    (hout : (c i).shard.outgoing j = .shared event :: rest) :
    Inv ((c.withShard i ((c i).shard.popControl j)).withShard j
      ((c j).shard.handleMeshMsg hash (.shared event))) := by
  set c' := (c.withShard i ((c i).shard.popControl j)).withShard j
    ((c j).shard.handleMeshMsg hash (.shared event)) with hc'
  have hi : c' i = (c i).withShard ((c i).shard.popControl j) := by
    rw [hc', withShard, update_of_ne hij, withShard, update_self]
  have hj : c' j = (c j).withShard ((c j).shard.handleMeshMsg hash (.shared event)) := by
    rw [hc', withShard, update_self, withShard, update_of_ne hij.symm]
  have hk : ∀ k, k ≠ i → k ≠ j → c' k = c k := by
    intro k hki hkj
    rw [hc', withShard, update_of_ne hkj, withShard, update_of_ne hki]
  obtain ⟨remote, hframe⟩ := (c j).shard.applySharedEvent_frame event
  -- Only the outbox of `i` and the view of `j` have changed.
  have hsame : ∀ k, (c' k).shard.mesh = (c k).shard.mesh ∧
      ((c' k).shard.controlTx.isSome = (c k).shard.controlTx.isSome) ∧
      (∀ x, (c' k).shard.view x = (c k).shard.view x) ∧
      (k ≠ j → (c' k).shard.sharedRemote = (c k).shard.sharedRemote) ∧
      (k ≠ i → (c' k).shard.controlTx = (c k).shard.controlTx) ∧
      (c' k).running = (c k).running := by
    intro k
    by_cases hki : k = i
    · subst hki
      rw [hi]
      exact ⟨rfl, isSome_map .., fun _ => rfl, fun _ => rfl, fun h => absurd rfl h, rfl⟩
    · by_cases hkj : k = j
      · subst hkj
        rw [hj, handleMeshMsg, hframe]
        exact ⟨rfl, rfl, fun _ => rfl, fun h => absurd rfl h, fun _ => rfl, rfl⟩
      · rw [hk k hki hkj]
        exact ⟨rfl, rfl, fun _ => rfl, fun _ => rfl, fun _ => rfl, rfl⟩
  obtain ⟨⟨a, b⟩, he⟩ : ∃ e, announcement (.shared event) = some e := by
    cases event <;> exact ⟨_, rfl⟩
  have hstep : c.net.Delivers c'.net i j a b := by
    refine ⟨hij, fun k a => ?_, ?_, fun k l hkl => ?_, fun a' => ?_, fun k hkj a => ?_⟩
    · simp only [net, (hsame k).2.2.1]
    · simp only [net, hi]
      rw [sharedTo_eq, hout, filterMap_cons_some he]
      congr 1
      show _ = ((c i).shard.popControl j).sharedTo j
      rw [sharedTo_eq, outgoing_popControl, if_pos rfl, hout, tail_cons]
    · by_cases hki : k = i
      · subst hki
        have hlj : (l : ℕ) ≠ (j : ℕ) := fun h => hkl ⟨rfl, Fin.ext h⟩
        simp only [net, hi]
        show ((c k).shard.popControl j).sharedTo l = _
        rw [sharedTo_eq, outgoing_popControl, if_neg hlj,
          ← sharedTo_eq]
      · simp only [net, sharedTo, (hsame k).2.2.2.2.1 hki]
    · simp only [net, hj]
      exact mem_applySharedEvent he a'.1 a'.2
    · simp only [net, (hsame k).2.2.2.1 hkj]
  refine ⟨fun k => ?_, fun k => ?_, fun k x => ?_, fun k g => ?_, hc.consistent.deliver hstep⟩
  · rw [(hsame k).1]
    exact hc.mesh k
  · rw [(hsame k).2.1]
    exact hc.outbox k
  · rw [(hsame k).2.2.1]
    refine (hc.kept k x).mono fun g hg => ?_
    rwa [Moment.live, (hsame k).2.2.2.2.2] at hg
  · by_cases hkj : k = j
    · subst hkj
      rw [hj]
      exact applySharedEvent_ne_nil (hc.ne_nil k) event g
    · rw [(hsame k).2.2.2.1 hkj]
      exact hc.ne_nil k g

lemma Inv.deliver (hc : c.Inv) (hij : i ≠ j) (hout : (c i).shard.outgoing j = msg :: rest)
    (hmsg : msg.Orderly (c j).shard) : Inv ((c.withShard i ((c i).shard.popControl j)).withShard j
      ((c j).shard.handleMeshMsg hash msg)) := by
  have hquiet : announcement msg = none →
      Inv ((c.withShard i ((c i).shard.popControl j)).withShard j
        ((c j).shard.handleMeshMsg hash msg)) := by
    intro hnone
    have hpop : Inv (c.withShard i ((c i).shard.popControl j)) :=
      hc.update_quiet i (sends_popControl hout hnone) (fun _ _ => Iff.rfl) (hc.kept i)
    have hj : (c.withShard i ((c i).shard.popControl j)) j = c j :=
      update_of_ne hij.symm ..
    refine hpop.update_quiet j ?_ ?_ ?_
    · rw [hj]
      exact sends_handleMeshMsg hash _ hnone
    · rw [hj]
      exact member_handleMeshMsg hash hmsg
    · rw [hj]
      exact kept_handleMeshMsg hash (hc.kept j) msg
  cases msg with
  | publish publish => exact hquiet rfl
  | control control => exact hquiet rfl
  | shared event => exact hc.deliver_announcement hash hij hout

end

/-! ### Runs -/

lemma Inv.apply (hash : ContentHash) (hc : c.Inv) {op : ClusterOp n}
    (hop : op.Orderly hash c) : (c.apply hash op).Inv := by
  cases op with
  | work i op =>
    exact hc.update i (ShardRun.announced_apply hash (hc.kept i) hop.1)
      (ShardRun.kept_apply hash (hc.kept i) hop.1) hop.2
  | disclaim i clientId =>
    refine hc.update_quiet i ((c i).shard.sends_broadcastClaim clientId false) (fun k g => ?_)
      fun k => ?_
    · show (((c i).shard.broadcastClaim clientId false).view k).Member g ↔ _
      rw [view_broadcastClaim]
    · show (((c i).shard.broadcastClaim clientId false).view k).Kept _
      rw [view_broadcastClaim]
      exact hc.kept i k
  | claim i clientId channel =>
    have hview := fun k => view_broadcastClaim
      ((c i).shard.registerClaim clientId channel) clientId k true
    have hregister : Sends (c i).shard ((c i).shard.registerClaim clientId channel) [] :=
      .of_eq rfl rfl rfl
    refine hc.update_quiet i (hregister.trans (sends_broadcastClaim _ clientId true))
      (fun k g => ?_) fun k => ?_
    · show ((((c i).shard.registerClaim clientId channel).broadcastClaim clientId true).view
        k).Member g ↔ _
      rw [hview]
      rfl
    · show ((((c i).shard.registerClaim clientId channel).broadcastClaim clientId true).view
        k).Kept _
      rw [hview]
      exact hc.kept i k
  | unclaim i clientId =>
    exact hc.update_quiet i (.of_eq rfl rfl rfl) (fun _ _ => Iff.rfl) (hc.kept i)
  | deliver i j =>
    simp only [Cluster.apply]
    split
    · exact hc
    · next hij =>
      split
      · exact hc
      · next msg rest hout =>
        exact hc.deliver hash hij hout (hop msg (by rw [hout]; rfl))

/-- The states that `c₀` reaches by steps that all meet `P` when they begin. -/
abbrev Reached (hash : ContentHash) (P : Cluster n → ClusterOp n → Prop) :
    Cluster n → Cluster n → Prop :=
  Lib.Reached (apply hash) P

/-- A cluster that has just started: the shards know the mesh, nothing is under way, and the
sessions that were restored are suspended. -/
structure Started (c : Cluster n) : Prop where
  mesh : ∀ i, (c i).shard.mesh = some ⟨i, n⟩
  outbox : ∀ i, (c i).shard.controlTx = some []
  remote : ∀ i, (c i).shard.sharedRemote = ∅
  offline : ∀ i k session, (c i).shard.sessions.lookup k = some session → session.online = false
  backed : ∀ i k, (c i).shard.sessions.lookup k = none →
    (c i).shard.trie.clientSubscriptions k = []

lemma Started.inv (h : c.Started) : c.Inv := by
  have hnot : ∀ i k g, ¬ ((c i).shard.view k).Member g := by
    rintro i k g ⟨honline, -⟩
    rw [session_view] at honline
    cases hs : (c i).shard.sessions.lookup k with
    | none =>
      rw [hs] at honline
      cases honline
    | some session =>
      rw [hs, any_some, h.offline i k session hs] at honline
      cases honline
  have hsent : ∀ i j, c.net.sent i j = [] := by
    intro i j
    show (c i).shard.sharedTo j = []
    rw [sharedTo, h.outbox i]
    rfl
  refine ⟨h.mesh, fun i => by rw [h.outbox i]; rfl, fun i k => ?_, fun i g => ?_, ?_⟩
  · cases hs : (c i).shard.sessions.lookup k with
    | none => exact kept_of_none hs (h.backed i k hs)
    | some session =>
      have hoffline := h.offline i k session hs
      rw [Session.online, Bool.or_eq_false_iff] at hoffline
      exact kept_of_unparked hs hoffline.2
  · rw [h.remote i]
    simp
  · refine ⟨fun i k a hi => ?_, fun i j a b _ hlast => ?_, fun j a _ => ?_⟩
    · rcases hi with htruth | ⟨l, -, b, hb⟩
      · exact absurd htruth (hnot i _ _)
      · rw [hsent i l] at hb
        exact absurd hb not_mem_nil
    · rw [hsent i j] at hlast
      cases hlast
    · simp only [net, h.remote j, AList.lookup_empty, getD_none, not_mem_nil, false_iff]
      rintro ⟨k, -, htruth⟩
      exact hnot k _ _ htruth

lemma Reached.inv {hash : ContentHash} {c₀ : Cluster n} (h₀ : c₀.Started)
    (hc : Reached hash (fun c op => op.Orderly hash c) c₀ c) : c.Inv := by
  induction hc with
  | start => exact h₀.inv
  | step op _ hop ih => exact ih.apply hash hop

/-- No control message is under way. -/
def Quiescent (c : Cluster n) : Prop :=
  ∀ i j, i ≠ j → (c i).shard.outgoing j = []

instance (c : Cluster n) : Decidable c.Quiescent :=
  inferInstanceAs (Decidable (∀ i j, i ≠ j → (c i).shard.outgoing j = []))

/-- Shards without any session. -/
def empty (n : ℕ) : Cluster n :=
  fun i => { shard := { mesh := some ⟨i, n⟩, controlTx := some [] } }

lemma started_empty (n : ℕ) : (empty n).Started where
  mesh _ := rfl
  outbox _ := rfl
  remote _ := rfl
  offline _ k session hs := by simp [empty] at hs
  backed _ _ _ := rfl

lemma mem_members_iff (s : ShardState) (g k : String) :
    k ∈ s.members g ↔ (s.view k).Member g := by
  rw [mem_connected]
  simp only [and_true]
  rfl

/-- In every orderly run of a cluster, whenever no control message is under way every shard's view
of every group is exact, and a group without connected members elsewhere has no entry. -/
theorem views_converge (hash : ContentHash) {c₀ : Cluster n} (h₀ : c₀.Started)
    (hc : Reached hash (fun c op => op.Orderly hash c) c₀ c) (hquiet : c.Quiescent) :
    ExactViews (fun i => (c i).shard) ∧ ∀ i g, (∀ j, j ≠ i → (c j).shard.members g = ∅) →
        (c i).shard.sharedRemote.lookup g = none := by
  have hinv := hc.inv h₀
  have hviews : ExactViews fun i => (c i).shard := by
    intro j g k
    simp only [mem_members_iff]
    refine hinv.consistent.view_iff (fun i l hil => ?_) j (g, k)
    show (c i).shard.sharedTo l = []
    rw [sharedTo_eq, hquiet i l hil]
    rfl
  refine ⟨hviews, fun i g hempty => ?_⟩
  cases hl : (c i).shard.sharedRemote.lookup g with
  | none => rfl
  | some members =>
    -- an entry has a client, which would be connected somewhere
    cases members with
    | nil => exact absurd hl (hinv.ne_nil i g)
    | cons k ks =>
      obtain ⟨j, hj, hk⟩ := (hviews i g k).mp (by rw [hl]; exact mem_cons_self)
      rw [hempty j hj] at hk
      exact absurd hk (Finset.notMem_empty k)

/-- A client connects to the first shard and subscribes in a group; the other shard hears of it. -/
def joining : List (ClusterOp 2) :=
  [.work 0 (.openSession "x" 0 true),
    .work 0 (.subscribe "a" "x" { qos := .atLeastOnce, shareGroup := some "g" }),
    .deliver 0 1]

theorem views_converge_joining :
    ExactViews (fun i => (Lib.run (apply fun _ => 0) (empty 2) joining i).shard) := by
  refine (views_converge (fun _ => 0) (started_empty 2) (Lib.Reached.start.run ?_) ?_).1
  · refine ⟨⟨?_, by decide⟩, ⟨?_, by decide⟩, ?_, trivial⟩
    · rintro _ g ⟨honline, -⟩
      cases honline
    · show (((empty 2).apply (fun _ => 0) (.work 0 (.openSession "x" 0 true))) 0).shard.view "x"
        |>.session.any (·.online)
      decide
    · intro msg hmsg
      cases hmsg
      trivial
  · decide

/-- The client then connects again to the same shard with Clean Start, and all messages arrive. -/
def cleanStart : List (ClusterOp 2) :=
  joining ++
    [.work 0 (.openSession "x" 1 true), .disclaim 0 "x", .deliver 0 1, .deliver 1 0]

/-- Opening a session with Clean Start ends the session of a connected member without a Leave: the
other shard keeps the client in its view, although it holds no subscription anywhere. -/
theorem clean_start_leaves_stale_member : (empty 2).Started ∧
      Reached (fun _ => 0) (fun _ _ => True) (empty 2)
        (Lib.run (apply fun _ => 0) (empty 2) cleanStart) ∧
      Quiescent (Lib.run (apply fun _ => 0) (empty 2) cleanStart) ∧
      ¬ ExactViews (fun i => (Lib.run (apply fun _ => 0) (empty 2) cleanStart i).shard) := by
  refine ⟨started_empty 2, Lib.Reached.start.run ?_, by decide, fun hviews => ?_⟩
  · simp [cleanStart, joining, Lib.AllMeet]
  · obtain ⟨j, -, hmember⟩ := (hviews 1 "g" "x").mp (by decide)
    have hnone : ∀ j, "x" ∉ (Lib.run (apply fun _ => 0) (empty 2) cleanStart j).shard.members
      "g" := by
      decide
    exact hnone j hmember

end Cluster

end Rusquitto
