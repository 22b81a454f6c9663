import Rusquitto.Cluster.Network
import Rusquitto.Server.Survival

/-!
# The newest connection

A second CONNECT on another shard claims the session of the first away. A claim names the client and
nothing else, so it also takes a session that was opened after it was sent (`overtaken_claim`).
`Traced` is the broker with a clock that counts accepted CONNECTs. If no CONNECT is accepted on a
shard while an older claim for the client is under way to it, the newest connection keeps its
session (`newest_survives`).
-/

namespace Rusquitto

open ShardState Function Server List
open Network (left right)

variable {msg : MeshMsg} {rest : List MeshMsg} {op : ServerOp}

/-- The client whose session a control message claims. -/
def SessionControl.claimant : SessionControl → Option String
  | .claim k _ _ => some k
  | .handoff .. => none

namespace ShardState

variable {s s' : ShardState}

/-- The clients claimed from a peer, oldest claim first. -/
def claimsTo (s : ShardState) (peer : ℕ) : List String :=
  s.controls.filterMap fun e => if e.1 = peer then e.2.claimant else none

lemma claimsTo_of_controls (h : s'.controls = s.controls) (peer : ℕ) :
    s'.claimsTo peer = s.claimsTo peer := by
  rw [claimsTo, h, claimsTo]

/-- Handoffs claim nothing. -/
lemma claimsTo_of_handoffs {sent : List (ℕ × SessionControl)}
    (h : s'.controls = s.controls ++ sent) (hsent : ∀ e ∈ sent, ∃ k session, e.2 =
      .handoff k session)
    (peer : ℕ) : s'.claimsTo peer = s.claimsTo peer := by
  have hnone : sent.filterMap (fun e => if e.1 = peer then e.2.claimant else none) = [] := by
    refine filterMap_eq_nil_iff.mpr fun e he => ?_
    obtain ⟨k, session, hhandoff⟩ := hsent e he
    rw [hhandoff]
    exact ite_self _
  rw [claimsTo, h, filterMap_append, hnone, append_nil, claimsTo]

/-- The claim in a message from the mesh. -/
def claimIn : MeshMsg → Option String
  | .control control => control.claimant
  | _ => none

/-- The oldest message to a peer is taken out. -/
lemma claimsTo_popControl {peer : ℕ} (h : s.outgoing peer = msg :: rest) :
    s.claimsTo peer = (claimIn msg).toList ++ (s.popControl peer).claimsTo peer := by
  obtain ⟨l₁, l₂, hbefore, hafter, hl₁⟩ := controls_popControl h
  have hnone : l₁.filterMap (fun e => if e.1 = peer then e.2.claimant else none) = [] :=
    filterMap_eq_nil_iff.mpr fun e he => if_neg (hl₁ e he)
  rw [claimsTo, hbefore, claimsTo, hafter]
  simp only [filterMap_append, hnone, nil_append, append_cancel_right_eq]
  cases msg with
  | control control => cases control <;> simp [controlOf, claimIn, SessionControl.claimant]
  | publish | shared => rfl

lemma claimsTo_popControl_of_ne {peer other : ℕ} (h : s.outgoing peer = msg :: rest)
    (hne : peer ≠ other) : (s.popControl peer).claimsTo other = s.claimsTo other := by
  obtain ⟨l₁, l₂, hbefore, hafter, -⟩ := controls_popControl h
  have hnone : (controlOf (peer, msg)).toList.filterMap
      (fun e => if e.1 = other then e.2.claimant else none) = [] := by
    refine filterMap_eq_nil_iff.mpr fun e he => if_neg ?_
    rw [fst_of_controlOf (Option.mem_toList.mp he)]
    exact hne
  rw [claimsTo, hafter, claimsTo, hbefore]
  simp only [filterMap_append, hnone, append_nil]

end ShardState

/-- The claims a CONNECT sends are for its client, and each peer gets at most one kind. -/
lemma Server.claimsTo_opened {s s' : ShardState} {k : String} {cleanStart : Bool}
    (h : Opened s s' k cleanStart) (hs : s.controlTx.isSome) (peer : ℕ) : ∃ new,
      s'.claimsTo peer = s.claimsTo peer ++ new ∧ ∀ k' ∈ new, k' = k ∧ peer ∈ s.peers := by
  refine ⟨(claimsOf s k cleanStart).filterMap
    fun e => if e.1 = peer then e.2.claimant else none, ?_, fun k' hk' => ?_⟩
  · rw [claimsTo, h.controls hs, filterMap_append, claimsTo]
  · obtain ⟨e, he, hclaim⟩ := mem_filterMap.mp hk'
    unfold claimsOf at he
    split at he
    · obtain ⟨p, hp, rfl⟩ := mem_map.mp he
      split at hclaim
      · next heq => exact ⟨(Option.some.inj hclaim).symm, heq ▸ hp⟩
      · exact nomatch hclaim
    · exact nomatch he

instance (s : ShardState) (k : String) (g : ℕ) : Decidable (s.OnlineAs k g) :=
  inferInstanceAs (Decidable (s.standing k = some (g, true)))

/-- A broker with a record of its CONNECTs. -/
structure Traced (n : ℕ) where
  net : Network n
  /-- How many CONNECTs have been accepted. -/
  clock : ℕ := 0
  /-- The claims under way from one shard to another, oldest first, each with the CONNECT that
  issued it. -/
  claims : Fin n → Fin n → List (String × ℕ) := fun _ _ => []
  /-- By which CONNECT the session of a generation was opened on a shard. -/
  opened : Fin n → ℕ → ℕ := fun _ _ => 0
  /-- The shard and the generation of a client's most recently accepted CONNECT, unless the broker
  itself took that connection down. -/
  newest : String → Option (Fin n × ℕ) := fun _ => none

namespace Traced

variable {n : ℕ} (env : Env)

/-- A shard works by itself. -/
def act (t : Traced n) (i : Fin n) (op : ServerOp) : Traced n :=
  let srv' := (t.net i).apply env op
  match accepted (t.net i) srv' op with
  | some (k, g) =>
    -- what the outbox gained was sent by this CONNECT
    let new j := (srv'.shard.claimsTo j).drop ((t.net i).shard.claimsTo j).length
    { net := t.net.apply env (.act i op)
      clock := t.clock + 1
      claims := update t.claims i fun j =>
        t.claims i j ++ (new j).map (·, t.clock + 1)
      opened := update t.opened i (update (t.opened i) g (t.clock + 1))
      newest := update t.newest k (some (i, g)) }
  | none =>
    { t with
      net := t.net.apply env (.act i op)
      newest := fun k => (t.newest k).filter fun e =>
        -- a connection that is shed, or shut down, was ended by the broker
        !op.endsConnections || e.1 ≠ i || srv'.shard.OnlineAs k e.2 }

/-- A message arrives. -/
def deliver (t : Traced n) (i j : Fin n) : Traced n :=
  let arrived := (((t.net i).shard.outgoing j).head?.bind claimIn).toList
  { t with
    net := t.net.apply env (.control i j)
    claims := update t.claims i
      (update (t.claims i) j ((t.claims i j).drop arrived.length)) }

/-- Performs one piece of work. -/
def apply (t : Traced n) : NetworkOp n → Traced n
  | .act i op => t.act env i op
  | .control i j => t.deliver env i j
  | .forward i j => { t with net := t.net.apply env (.forward i j) }

/-- No CONNECT is accepted on a shard while an older claim for its client is under way to that
shard. -/
def NotOvertaken (t : Traced n) : NetworkOp n → Prop
  | .act j op => ∀ e ∈ accepted (t.net j) ((t.net j).apply env op) op,
      ∀ i, i ≠ j → e.1 ∉ (t.net i).shard.claimsTo j
  | _ => True

/-- The states a broker gets to, when each piece of work meets `P`. -/
abbrev Reached (P : Traced n → NetworkOp n → Prop) : Traced n → Traced n → Prop :=
  Lib.Reached (apply env) P

/-- The record is right, and no claim is older than the session it will meet. -/
structure Inv (t : Traced n) : Prop where
  meshed : t.net.Meshed
  servers : ∀ i, (t.net i).Inv
  claims : ∀ i j, i ≠ j → (t.claims i j).map Prod.fst = (t.net i).shard.claimsTo j
  opened_le : ∀ i g, t.opened i g ≤ t.clock
  later : ∀ i j e session, i ≠ j → e ∈ t.claims i j →
    (t.net j).shard.sessions.lookup e.1 = some session → t.opened j session.generation < e.2
  unclaimed : ∀ k j g, t.newest k = some (j, g) → ∀ i, i ≠ j → k ∉ (t.net i).shard.claimsTo j
  bounded : ∀ k j g, t.newest k = some (j, g) → 0 < g ∧ g ≤ (t.net j).shard.nextGeneration
  survives : ∀ k j g, t.newest k = some (j, g) → (t.net j).Alive g → (t.net j).shard.OnlineAs k g

variable {env} {t : Traced n}

lemma Inv.isSome (h : t.Inv) {i j : Fin n} (hij : i ≠ j) (a : Fin n) :
    (t.net a).shard.controlTx.isSome :=
  h.meshed.isSome hij a

section

variable (h : t.Inv) (i : Fin n) {srv : Server} (hinv : srv.Inv)
  (hmesh : srv.shard.mesh = (t.net i).shard.mesh)
  (houtbox : (t.net i).shard.controlTx.isSome → srv.shard.controlTx.isSome)
  (hnext : (t.net i).shard.nextGeneration ≤ srv.shard.nextGeneration)
  (hgen : ∀ k session', srv.shard.sessions.lookup k = some session' → ∃ session,
    (t.net i).shard.sessions.lookup k = some session ∧ session'.generation = session.generation)
  (newest : String → Option (Fin n × ℕ))
  (hnewest : ∀ k e, newest k = some e → t.newest k = some e)
  (honline : ∀ k g, newest k = some (i, g) → srv.Alive g → srv.shard.OnlineAs k g)
include h hinv hmesh houtbox hnext hgen hnewest honline

/-- One shard works: it opens no session and sends no claim, but may have claims delivered. -/
lemma Inv.update (claims : Fin n → List (String × ℕ)) (hsub : ∀ j, claims j ⊆ t.claims i j)
    (hclaims : ∀ j, i ≠ j → (claims j).map Prod.fst = srv.shard.claimsTo j) :
    Inv { t with
      net := Function.update t.net i srv, claims := Function.update t.claims i claims, newest } := by
  have hself : Function.update t.net i srv i = srv := update_self ..
  have hother {a : Fin n} (ha : a ≠ i) : Function.update t.net i srv a = t.net a :=
    update_of_ne ha ..
  have hlink (a b : Fin n) : Function.update t.claims i claims a b ⊆ t.claims a b := by
    rw [update_apply]
    split
    · next ha => exact ha ▸ hsub b
    · exact Subset.refl _
  have hright (a b : Fin n) (hab : a ≠ b) : (Function.update t.claims i claims a b).map Prod.fst =
      (Function.update t.net i srv a).shard.claimsTo b := by
    by_cases ha : a = i
    · subst ha
      rw [hself, update_self, hclaims b hab]
    · rw [hother ha, update_of_ne ha, h.claims a b hab]
  refine
    { meshed := h.meshed.update hmesh houtbox
      servers := fun a => ?_
      claims := hright
      opened_le := h.opened_le
      later := fun a b e session' hab he hs' => ?_
      unclaimed := fun k j g hk a ha => ?_
      bounded := fun k j g hk => ?_
      survives := fun k j g hk halive => ?_ }
  all_goals dsimp only at *
  · by_cases ha : a = i
    · subst ha
      rwa [hself]
    · rw [hother ha]
      exact h.servers a
  · have hmem := hlink a b he
    by_cases hb : b = i
    · subst hb
      rw [hself] at hs'
      obtain ⟨session, hs, hg⟩ := hgen e.1 session' hs'
      rw [hg]
      exact h.later a b e session hab hmem hs
    · rw [hother hb] at hs'
      exact h.later a b e session' hab hmem hs'
  · rw [← hright a j ha]
    intro hmem
    obtain ⟨e, he, rfl⟩ := mem_map.mp hmem
    refine h.unclaimed e.1 j g (hnewest e.1 _ hk) a ha ?_
    rw [← h.claims a j ha]
    exact mem_map_of_mem (hlink a j he)
  · obtain ⟨hpos, hle⟩ := h.bounded k j g (hnewest k _ hk)
    refine ⟨hpos, ?_⟩
    by_cases hj : j = i
    · subst hj
      rw [hself]
      exact hle.trans hnext
    · rwa [hother hj]
  · by_cases hj : j = i
    · subst hj
      rw [hself] at halive ⊢
      exact honline k g hk halive
    · rw [hother hj] at halive ⊢
      exact h.survives k j g (hnewest k _ hk) halive

/-- One shard works: it opens no session and has nothing to do with claims. -/
lemma Inv.update_of_claimsTo (hclaims : (t.net i).shard.controlTx.isSome → ∀ j,
    srv.shard.claimsTo j = (t.net i).shard.claimsTo j) :
    Inv { t with net := Function.update t.net i srv, newest } := by
  have hupdated := h.update i hinv hmesh houtbox hnext hgen newest hnewest honline (t.claims i)
    (fun _ => Subset.refl _)
    fun j hij => (h.claims i j hij).trans (hclaims (h.isSome hij i) j).symm
  rwa [update_eq_self] at hupdated

end

section

variable (h : t.Inv) (i : Fin n)
include h

/-- A piece of work that accepts no CONNECT. -/
lemma Inv.act_hushed (hop : op.Local)
    (hhush : Hushed (t.net i).shard ((t.net i).apply env op).shard)
    (haccepted : accepted (t.net i) ((t.net i).apply env op) op = none) : (t.act env i op).Inv := by
  unfold act
  dsimp only
  rw [haccepted]
  refine h.update_of_claimsTo i ((h.servers i).apply op) hhush.posts.mesh hhush.posts.outbox
    hhush.posts.nextGeneration.ge hhush.generation _
    (fun k e hk => (Option.filter_eq_some_iff.mp hk).1) (fun k g hk halive => ?_)
    fun hs j => claimsTo_of_controls (hhush.controls hs) j
  obtain ⟨hk, hkept⟩ := Option.filter_eq_some_iff.mp hk
  obtain ⟨hpos, hle⟩ := h.bounded k i g hk
  by_cases hends : op.endsConnections = true
  · simpa [hends] using hkept
  · exact online_apply (h.servers i) hpos hle (h.survives k i g hk)
      (by rintro _ rfl; exact hop) (by rintro _ _ rfl; exact hop) (by simpa using hends)
      h.meshed.peers_eq_nil (by simp [haccepted]) halive

/-- A CONNECT is accepted that no claim under way to its shard is meant for. -/
lemma Inv.act_opened (hop : op.Local) {k : String} {cleanStart : Bool}
    (hopened : Opened (t.net i).shard ((t.net i).apply env op).shard k cleanStart)
    (haccepted : accepted (t.net i) ((t.net i).apply env op) op =
      some (k, (t.net i).shard.nextGeneration + 1))
    (hfree : ∀ a, a ≠ i → k ∉ (t.net a).shard.claimsTo i) : (t.act env i op).Inv := by
  have hinv : ((t.net i).apply env op).Inv := (h.servers i).apply op
  -- the other clients of this shard stay on line
  have hothers (k' : String) (g : ℕ) (hk : k' ≠ k) (hk' : t.newest k' = some (i, g))
      (halive : ((t.net i).apply env op).Alive g) :
      ((t.net i).apply env op).shard.OnlineAs k' g := by
    obtain ⟨hpos, hle⟩ := h.bounded k' i g hk'
    have hends : op.endsConnections = false := by
      cases op with
      | packet => rfl
      | _ => exact nomatch haccepted
    refine online_apply (h.servers i) hpos hle (h.survives k' i g hk')
      (by rintro _ rfl; exact hop) (by rintro _ _ rfl; exact hop) hends h.meshed.peers_eq_nil
        ?_ halive
    intro g' hg'
    rw [haccepted, Option.some.injEq, Prod.mk.injEq] at hg'
    exact hk hg'.1.symm
  unfold act
  dsimp only
  rw [haccepted]
  dsimp only [Network.apply]
  generalize (t.net i).apply env op = srv at hopened hinv hothers
  obtain ⟨session, hsession, hgen, honline⟩ := hopened.generation
  have hat (a : Fin n) : Function.update t.net i srv a = if a = i then srv else t.net a :=
    update_apply ..
  -- what the CONNECT adds to a link
  have hnew (j : Fin n) (hj : i ≠ j) : ∃ new, srv.shard.claimsTo j =
      (t.net i).shard.claimsTo j ++ new ∧ ∀ k' ∈ new, k' = k := by
    obtain ⟨new, hnew, honly⟩ := claimsTo_opened hopened (h.isSome hj i) j
    exact ⟨new, hnew, fun k' hk' => (honly k' hk').1⟩
  refine
    { meshed := h.meshed.update hopened.posts.mesh hopened.posts.outbox
      servers := fun a => ?_
      claims := fun a b hab => ?_
      opened_le := fun a g => ?_
      later := fun a b e session' hab he hs' => ?_
      unclaimed := fun k' j g hk' a ha => ?_
      bounded := fun k' j g hk' => ?_
      survives := fun k' j g hk' halive => ?_ }
  all_goals dsimp only at *
  · rw [hat]
    split
    · exact hinv
    · exact h.servers a
  · rw [hat, update_apply]
    split
    · next ha =>
      subst ha
      obtain ⟨new, hnew, -⟩ := hnew b hab
      rw [map_append, map_map, h.claims a b hab, hnew, drop_left]
      exact congrArg _ (map_id new)
    · exact h.claims a b hab
  · by_cases ha : a = i
    · subst ha
      rw [update_self, update_apply]
      split
      · exact le_rfl
      · exact (h.opened_le a g).trans (Nat.le_succ _)
    · rw [update_of_ne ha]
      exact (h.opened_le a g).trans (Nat.le_succ _)
  · by_cases hb : b = i
    · -- the shard on which the session is opened: only older claims for others are under way to it
      subst hb
      rw [hat, if_pos rfl] at hs'
      rw [update_of_ne hab] at he
      have hmem : e.1 ∈ (t.net a).shard.claimsTo b := by
        rw [← h.claims a b hab]
        exact mem_map_of_mem he
      have hne : e.1 ≠ k := fun heq => hfree a hab (heq ▸ hmem)
      rw [hopened.other e.1 hne] at hs'
      have hle := (h.servers b).generation_le e.1 session' hs'
      rw [update_self, update_of_ne (by omega)]
      exact h.later a b e session' hab he hs'
    · rw [hat, if_neg hb] at hs'
      rw [update_of_ne hb]
      rw [update_apply] at he
      split at he
      · next ha =>
        subst ha
        rcases mem_append.mp he with he | he
        · exact h.later a b e session' hab he hs'
        · -- a claim of this CONNECT is younger than every session
          obtain ⟨_, -, rfl⟩ := mem_map.mp he
          exact Nat.lt_succ_of_le (h.opened_le b _)
      · exact h.later a b e session' hab he hs'
  · rw [hat]
    split
    · next hai =>
      subst hai
      obtain ⟨new, hnew, honly⟩ := hnew j ha
      rw [hnew, mem_append, not_or]
      by_cases hk : k' = k
      · -- the newest connection of this client is now on this very shard
        subst hk
        rw [update_self, Option.some.injEq, Prod.mk.injEq] at hk'
        exact absurd hk'.1 ha
      · rw [update_of_ne hk] at hk'
        exact ⟨h.unclaimed k' j g hk' a ha, fun hmem => hk (honly k' hmem)⟩
    · by_cases hk : k' = k
      · subst hk
        rw [update_self, Option.some.injEq, Prod.mk.injEq] at hk'
        rw [← hk'.1] at ha ⊢
        exact hfree a ha
      · rw [update_of_ne hk] at hk'
        exact h.unclaimed k' j g hk' a ha
  · by_cases hk : k' = k
    · subst hk
      rw [update_self, Option.some.injEq, Prod.mk.injEq] at hk'
      obtain ⟨rfl, rfl⟩ := hk'
      rw [hat, if_pos rfl, hopened.posts.nextGeneration]
      exact ⟨Nat.succ_pos _, le_rfl⟩
    · rw [update_of_ne hk] at hk'
      obtain ⟨hpos, hle⟩ := h.bounded k' j g hk'
      rw [hat]
      split
      · next hj =>
        subst hj
        rw [hopened.posts.nextGeneration]
        exact ⟨hpos, hle.trans (Nat.le_succ _)⟩
      · exact ⟨hpos, hle⟩
  · by_cases hk : k' = k
    · subst hk
      rw [update_self, Option.some.injEq, Prod.mk.injEq] at hk'
      obtain ⟨rfl, rfl⟩ := hk'
      rw [hat, if_pos rfl]
      exact onlineAs_iff.mpr ⟨session, hsession, hgen, honline⟩
    · rw [update_of_ne hk] at hk'
      obtain ⟨hpos, hle⟩ := h.bounded k' j g hk'
      rw [hat] at halive ⊢
      split at halive
      · next hj =>
        subst hj
        rw [if_pos rfl]
        exact hothers k' g hk hk' halive
      · next hj =>
        rw [if_neg hj]
        exact h.survives k' j g hk' halive

/-- A shard works by itself. -/
lemma Inv.act (hop : op.Local) (hnot : t.NotOvertaken env (.act i op)) :
    (t.act env i op).Inv := by
  rcases hushed_or_accepted env (h.servers i) hop h.meshed.peers_eq_nil with
    ⟨hhush, haccepted⟩ | ⟨k, cleanStart, hopened, haccepted⟩
  · exact h.act_hushed i hop hhush haccepted
  · exact h.act_opened i hop hopened haccepted (hnot _ haccepted)

end

lemma claims_drop_subset (i j b : Fin n) (count : ℕ) :
    update (t.claims i) j ((t.claims i j).drop count) b ⊆ t.claims i b := by
  rw [update_apply]
  split
  · next heq => exact heq ▸ drop_subset _ _
  · exact Subset.refl _

/-- The oldest message on a link is taken out of the sender's outbox. -/
lemma Inv.pop (h : t.Inv) {i j : Fin n} (hij : i ≠ j)
    (hout : (t.net i).shard.outgoing j = msg :: rest) :
    Inv { t with
      net := Function.update t.net i { t.net i with shard := (t.net i).shard.popControl j }
      claims := Function.update t.claims i (Function.update (t.claims i) j
        ((t.claims i j).drop (claimIn msg).toList.length)) } := by
  have hinv : Server.Inv { t.net i with shard := (t.net i).shard.popControl j } :=
    (h.servers i).tame (.of_eq rfl rfl rfl) rfl rfl rfl
  refine h.update i hinv rfl (fun hs => ?_) le_rfl (fun k session' hs' => ⟨session', hs', rfl⟩)
    t.newest (fun _ _ hk => hk) (fun k g => h.survives k i g) _ (fun b => ?_) fun b hb => ?_
  · simpa [popControl] using hs
  · exact claims_drop_subset i j b _
  · rw [update_apply]
    split
    · next heq =>
      rw [heq, map_drop, h.claims i j hij, claimsTo_popControl hout, drop_left]
    · next hne =>
      have hne : (j : ℕ) ≠ b := fun heq => hne (Fin.ext heq.symm)
      exact (h.claims i b hb).trans (claimsTo_popControl_of_ne hout hne).symm

/-- A message from the mesh opens no session, sends no claim, and takes nobody off line but the
client it claims. -/
lemma Inv.arrive (h : t.Inv) (env : Env) (j : Fin n) (msg : MeshMsg)
    (hmsg : ∀ k g, t.newest k = some (j, g) → claimIn msg ≠ some k) :
    Inv { t with net := Function.update t.net j ((t.net j).apply env (.mesh msg)) } := by
  obtain ⟨hmesh, hmails⟩ := (t.net j).shard.handleMeshMsg_mails env.hash msg
  have htame := (t.net j).shard.tame_handleMeshMsg env.hash msg
  have hinv : ((t.net j).apply env (.mesh msg)).Inv := (h.servers j).apply _
  refine h.update_of_claimsTo j hinv hmesh (fun hs => (hmails hs).1) htame.nextGeneration.ge
    (fun k session' hs' => ?_) t.newest (fun _ _ hk => hk) (fun k g hk halive => ?_)
    fun hs a => ?_
  · obtain ⟨session, hs, he⟩ := htame.evolves k session' hs'
    exact ⟨session, hs, he.generation⟩
  · obtain ⟨hpos, hle⟩ := h.bounded k j g hk
    refine online_apply (h.servers j) hpos hle (h.survives k j g hk) (fun _ => nofun) ?_ rfl
      h.meshed.peers_eq_nil (fun _ => nofun) halive
    intro requester resume hop
    obtain rfl := ServerOp.mesh.inj hop
    exact hmsg k g hk rfl
  · obtain ⟨-, sent, hsent, honly⟩ := hmails hs
    exact claimsTo_of_handoffs hsent honly a

/-- A control message is delivered. -/
lemma Inv.deliver (h : t.Inv) (i j : Fin n) : (t.deliver env i j).Inv := by
  unfold Traced.deliver
  dsimp only [Network.apply]
  cases hout : (t.net i).shard.outgoing j with
  | nil => simpa using h
  | cons msg rest =>
    dsimp only [head?_cons, Option.bind_some]
    by_cases hij : i = j
    · -- a shard has no link to itself
      rw [if_pos hij]
      have hsame := h.update i (h.servers i) rfl id le_rfl
        (fun k session' hs' => ⟨session', hs', rfl⟩) t.newest (fun _ _ hk => hk)
        (fun k g => h.survives k i g) (Function.update (t.claims i) j
          ((t.claims i j).drop (claimIn msg).toList.length)) (fun b => ?_) fun b hb => ?_
      · rwa [update_eq_self] at hsame
      · exact claims_drop_subset i j b _
      · rw [update_of_ne (hij ▸ hb.symm)]
        exact h.claims i b hb
    · rw [if_neg hij]
      have hpopped := (h.pop hij hout).arrive env j msg fun k g hk hclaim => ?_
      · have hj : Function.update t.net i { t.net i with shard := (t.net i).shard.popControl j } j =
            t.net j := update_of_ne (Ne.symm hij) ..
        dsimp only at hpopped
        rwa [hj] at hpopped
      · -- no claim under way to its shard is meant for the newest connection
        refine h.unclaimed k j g hk i hij ?_
        rw [claimsTo_popControl hout, hclaim]
        exact mem_append_left _ (mem_singleton_self k)

/-- Every piece of work keeps the record right. -/
lemma Inv.apply (h : t.Inv) {op : NetworkOp n} (hop : op.Local) (hnot : t.NotOvertaken env op) :
    (t.apply env op).Inv := by
  cases op with
  | act i op => exact h.act i hop hnot
  | control i j => exact h.deliver i j
  | forward i j =>
    simp only [Traced.apply, Network.apply]
    split
    · exact h
    · next publish _ =>
      split
      · exact h
      · next hij =>
        let srv : Server := { t.net i with links := (t.net i).links.eraseP (·.1 = (j : ℕ)) }
        have hinv : srv.Inv := (h.servers i).tame (.refl _) rfl rfl rfl
        have hpopped : Inv { t with net := Function.update t.net i srv } :=
          h.update_of_claimsTo i hinv rfl id le_rfl
            (fun k session' hs' => ⟨session', hs', rfl⟩) t.newest (fun _ _ hk => hk)
            (fun k g => h.survives k i g) fun _ _ => rfl
        have harrived := hpopped.arrive env j (.publish publish) fun _ _ _ heq => by
          cases heq
        dsimp only at harrived
        rwa [update_of_ne (Ne.symm hij)] at harrived

/-- A broker before its first connection. -/
lemma inv_of_started {net : Network n} (h : net.Started) : Inv { net } where
  meshed := h.toMeshed
  servers i := (h.servers i).inv
  claims i j _ := by rw [claimsTo, h.empty i]; rfl
  opened_le _ _ := le_rfl
  later _ _ _ _ _ he := absurd he not_mem_nil
  unclaimed _ _ _ hk := absurd hk.symm (Option.some_ne_none _)
  bounded _ _ _ hk := absurd hk.symm (Option.some_ne_none _)
  survives _ _ _ hk := absurd hk.symm (Option.some_ne_none _)

/-- In every run in which no CONNECT is accepted while an older claim for its client is under way to
its shard, every claim was issued by a later CONNECT than the one that opened the session it meets,
and the connection of the last accepted CONNECT, unless it has ended, has its session connected or
parked. -/
theorem newest_survives (env : Env) {net₀ : Network n} {t : Traced n} (h₀ : net₀.Started)
    (hrun : Reached env (fun t op => op.Local ∧ t.NotOvertaken env op) { net := net₀ } t) :
    (∀ i j, i ≠ j → (t.claims i j).map Prod.fst = (t.net i).shard.claimsTo j ∧
      ∀ e ∈ t.claims i j, ∀ session, (t.net j).shard.sessions.lookup e.1 = some session →
        t.opened j session.generation < e.2) ∧
    ∀ k j g, t.newest k = some (j, g) → (t.net j).Alive g → (t.net j).shard.OnlineAs k g := by
  have hinv := Lib.Reached.inv Inv (inv_of_started h₀) (fun _ _ h hop => h.apply hop.1 hop.2) hrun
  exact ⟨fun i j hij => ⟨hinv.claims i j hij, fun e he session => hinv.later i j e session hij he⟩,
    hinv.survives⟩

/-- A client connects to one shard and, once the claim of its CONNECT is handled, to another. -/
def moved : Traced 2 :=
  Lib.run (apply openEnv) { net := Network.fresh 2 }
    (Network.connecting left 0 "a" ++ [.control left right] ++ Network.connecting right 0 "a")

theorem newest_survives_moved : moved.newest "a" = some (1, 1) ∧
    (moved.net 1).shard.OnlineAs "a" 1 := by
  have hnewest : moved.newest "a" = some (1, 1) := by decide
  have hrun : Reached openEnv (fun t op => op.Local ∧ t.NotOvertaken openEnv op)
      { net := Network.fresh 2 } moved := by
    refine Lib.Reached.start.run ⟨⟨trivial, ?_⟩, ⟨trivial, ?_⟩, ⟨trivial, ?_⟩, ⟨trivial, ?_⟩,
      ⟨trivial, ?_⟩, trivial⟩
    · rw [NotOvertaken]; decide
    · rw [NotOvertaken]; decide
    · trivial
    · rw [NotOvertaken]; decide
    · rw [NotOvertaken]; decide
  refine ⟨hnewest, (newest_survives openEnv (Network.fresh_started 2) hrun).2 "a" 1 1
    hnewest ?_⟩
  exact .inl ⟨0, _, rfl, rfl, rfl⟩

/-- A client connects to two shards, and the claim of the first CONNECT is slow. Once both claims
and their answers are handled, the client has no session anywhere. -/
def overtaken : Traced 2 :=
  Lib.run (apply openEnv) { net := Network.fresh 2 }
    (Network.connecting left 0 "a" ++ Network.connecting right 0 "a" ++
      [.control right left, .control left right, .control left right, .control right left])

/-- The claim of the first CONNECT removes the session that the second one opened. -/
theorem overtaken_claim : ∃ t : Traced 2,
    Reached openEnv (fun _ op => op.Local) { net := Network.fresh 2 } t ∧
      (∀ i, (t.net i).shard.controls = []) ∧
      ∃ j g, t.newest "a" = some (j, g) ∧ (t.net j).Alive g ∧
        ¬(t.net j).shard.OnlineAs "a" g := by
  refine ⟨overtaken, Lib.Reached.start.run ⟨trivial, trivial, trivial, trivial, trivial, trivial,
    trivial, trivial, trivial⟩, ?_, 1, 1, by decide, .inl ⟨0, _, rfl, rfl, rfl⟩, by decide⟩
  decide

end Traced

end Rusquitto
