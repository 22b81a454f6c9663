import Mathlib.Data.List.Dedup
import Rusquitto.Broker.Fanout

/-!
# Who hears of a membership change

For each operation of the shard: how it changes the connected members of shared groups, and which
announcements it puts in the outbox (`Announced`). Where it may change a member and announce nothing
there is a hypothesis: opening with Clean Start and handling a claim must not find a member, and
only a connected client may subscribe.
-/

namespace Rusquitto

open ClientView List Session Subscription

variable {c : String} {v : ClientView}

/-- The client is connected or parked and holds a subscription of the group. -/
def ClientView.Member (v : ClientView) (group : String) : Prop :=
  v.session.any (·.online) ∧ ∃ sub ∈ v.subs, sub.shareGroup = some group

instance (v : ClientView) (group : String) : Decidable (v.Member group) :=
  inferInstanceAs (Decidable (_ ∧ _))

namespace ShardState

/-! ### The outbox -/

/-- The membership change a message announces. -/
def announcement : MeshMsg → Option ((String × String) × Bool)
  | .shared (.join group clientId) => some ((group, clientId), true)
  | .shared (.leave group clientId) => some ((group, clientId), false)
  | _ => none

/-- The announcements in the outbox for a peer, oldest first. -/
def sharedTo (s : ShardState) (peer : ℕ) : List ((String × String) × Bool) :=
  ((s.controlTx.getD []).filter (·.1 = peer)).filterMap fun e => announcement e.2

/-- The other shards of the mesh. -/
def peers (s : ShardState) : List ℕ :=
  (s.mesh.map Mesh.peers).getD []

/-- What an operation puts in the outbox: the given announcements, for every peer. It leaves the
shard's own view of other shards alone. -/
structure Sends (s s' : ShardState) (events : List ((String × String) × Bool)) : Prop where
  mesh : s'.mesh = s.mesh
  remote : s'.sharedRemote = s.sharedRemote
  outbox : s.controlTx.isSome → s'.controlTx.isSome
  sent : s.controlTx.isSome → ∀ peer ∈ s.peers, s'.sharedTo peer = s.sharedTo peer ++ events

variable {s s' s'' : ShardState}

/-- An operation that leaves the outbox alone. -/
lemma Sends.of_eq (hmesh : s'.mesh = s.mesh) (hremote : s'.sharedRemote = s.sharedRemote)
    (houtbox : s'.controlTx = s.controlTx) : Sends s s' [] where
  mesh := hmesh
  remote := hremote
  outbox h := houtbox ▸ h
  sent _ peer _ := by rw [sharedTo, houtbox, append_nil, sharedTo]

lemma Sends.refl (s : ShardState) : Sends s s [] :=
  .of_eq rfl rfl rfl

lemma Sends.trans {events events' : List ((String × String) × Bool)} (h : Sends s s' events)
    (h' : Sends s' s'' events') : Sends s s'' (events ++ events') where
  mesh := h'.mesh.trans h.mesh
  remote := h'.remote.trans h.remote
  outbox hs := h'.outbox (h.outbox hs)
  sent hs peer hpeer := by
    have hpeer' : peer ∈ s'.peers := by rwa [peers, h.mesh]
    rw [h'.sent (h.outbox hs) peer hpeer', h.sent hs peer hpeer, append_assoc]

/-- Appending to the outbox. -/
lemma sharedTo_append (s : ShardState) (hs : s.controlTx.isSome) (msgs : List (ℕ × MeshMsg))
    (peer : ℕ) :
    sharedTo { s with controlTx := s.controlTx.map (· ++ msgs) } peer =
      s.sharedTo peer ++ (msgs.filter (·.1 = peer)).filterMap fun e => announcement e.2 := by
  obtain ⟨outbox, houtbox⟩ := Option.isSome_iff_exists.mp hs
  simp [sharedTo, houtbox]

/-- Control messages announce nothing. -/
lemma sends_control (s : ShardState) {msgs : List (ℕ × MeshMsg)}
    (hmsgs : ∀ e ∈ msgs, announcement e.2 = none) :
    Sends s { s with controlTx := s.controlTx.map (· ++ msgs) } [] where
  mesh := rfl
  remote := rfl
  outbox hs := by simpa using hs
  sent hs peer _ := by
    rw [sharedTo_append s hs, filterMap_eq_nil_iff.mpr]
    exact fun e he => hmsgs e (mem_of_mem_filter he)

lemma nodup_meshPeers (mesh : Mesh) : mesh.peers.Nodup :=
  nodup_range.filter _

/-- The announcements of several groups, as one peer hears them. -/
lemma sends_announce (s : ShardState) (groups : List String) (clientId : String) (join : Bool) :
    Sends s (s.announce groups clientId join) (groups.map fun g => ((g, clientId), join)) := by
  rw [announce_eq]
  refine ⟨rfl, rfl, fun hs => by simpa using hs, fun hs peer hpeer => ?_⟩
  rw [sharedTo_append s hs]
  congr 1
  unfold peers at hpeer
  unfold announcements
  cases hmesh : s.mesh with
  | none =>
    rw [hmesh] at hpeer
    cases hpeer
  | some mesh =>
    rw [hmesh] at hpeer
    replace hpeer : peer ∈ mesh.peers := hpeer
    simp only
    induction groups with
    | nil => rfl
    | cons g groups ih =>
      -- of the messages about one group exactly one is for this peer
      have hone : (mesh.peers.map fun idx => (idx, MeshMsg.shared
            (if join then .join g clientId else .leave g clientId))).filter (·.1 = peer) =
          [(peer, .shared (if join then .join g clientId else .leave g clientId))] := by
        rw [filter_map, Function.comp_def, filter_eq,
          count_eq_one_of_mem (nodup_meshPeers mesh) hpeer]
        rfl
      rw [flatMap_cons, filter_append, filterMap_append, ih, hone, map_cons]
      cases join <;> rfl

/-! ### Announced changes -/

/-- An operation that announces every change of the members: for one client and some groups it
announces one value, and that is what holds afterwards. All other memberships are as before. -/
def Announced (s s' : ShardState) : Prop :=
  ∃ (clientId : String) (groups : List String) (join : Bool),
    Sends s s' (groups.map fun g => ((g, clientId), join)) ∧
      ∀ g k, (s'.view k).Member g ↔
        if k = clientId ∧ g ∈ groups then join = true else (s.view k).Member g

lemma Announced.of_silent (hsends : Sends s s' [])
    (hmember : ∀ k g, (s'.view k).Member g ↔ (s.view k).Member g) : Announced s s' :=
  ⟨"", [], true, hsends, fun g k => by simpa using hmember k g⟩

/-- An operation on one client. -/
lemma Announced.of_client (c : String) (groups : List String) (join : Bool)
    (hsends : Sends s s' (groups.map fun g => ((g, c), join)))
    (hother : ∀ k, k ≠ c → s'.view k = s.view k) (hmember : ∀ g, (s'.view c).Member g ↔
      if g ∈ groups then join = true else (s.view c).Member g) : Announced s s' := by
  refine ⟨c, groups, join, hsends, fun g k => ?_⟩
  by_cases hk : k = c
  · subst hk
    simpa using hmember g
  · rw [if_neg fun h => hk h.1, hother k hk]

lemma mem_sharedGroupsOf (s : ShardState) (c g : String) :
    g ∈ s.sharedGroupsOf c ↔ ∃ sub ∈ (s.view c).subs, sub.shareGroup = some g := by
  rw [sharedGroupsOf, mem_dedup, mem_insertionSort, mem_filterMap]
  rfl

/-- A connection that ends: it announces that its client leaves all its groups. -/
lemma announced_leaveAll (hsends : Sends s s' ((s.sharedGroupsOf c).map fun g => ((g, c), false)))
    (hview : ∀ k, s'.view k = if k = c then v else s.view k)
    (hoffline : v.session.any (·.online) = false) : Announced s s' := by
  refine .of_client c _ false hsends (fun k hk => (hview k).trans (if_neg hk)) fun g => ?_
  rw [hview c, if_pos rfl]
  have hnot : ¬ v.Member g := fun h => Bool.false_ne_true (hoffline.symm.trans h.1)
  rw [iff_false_left hnot]
  split
  · simp
  · next hg =>
    rintro ⟨-, hsub⟩
    exact hg ((mem_sharedGroupsOf s c g).mpr hsub)

/-- A client that is connected afterwards and announces all its groups. -/
lemma announced_joinAll (s₁ : ShardState)
    (hsends : Sends s s' ((s₁.sharedGroupsOf c).map fun g => ((g, c), true)))
    (hsubs : (s₁.view c).subs = v.subs) (hview : ∀ k, s'.view k = if k = c then v else s.view k)
    (honline : v.session.any (·.online)) (hkeeps : ∀ g, (s.view c).Member g → v.Member g) :
    Announced s s' := by
  refine .of_client c _ true hsends (fun k hk => (hview k).trans (if_neg hk)) fun g => ?_
  rw [hview c, if_pos rfl]
  have hmember : v.Member g ↔ g ∈ s₁.sharedGroupsOf c := by
    rw [mem_sharedGroupsOf, hsubs]
    exact and_iff_right honline
  split
  · next hg => exact iff_of_true (hmember.mpr hg) rfl
  · next hg => exact ⟨fun h => absurd (hmember.mp h) hg, hkeeps g⟩

/-! ### The operations -/

section

variable (s : ShardState) (c : String)

lemma sends_walRemoved : Sends s (s.walRemoved c) [] := .of_eq rfl rfl rfl

lemma sends_signalCloseParked : Sends s (s.signalCloseParked c) [] := by
  unfold signalCloseParked
  split
  · exact .refl s
  · split
    · exact .of_eq rfl rfl rfl
    · exact .refl s

lemma trie_signalCloseParked : (s.signalCloseParked c).trie = s.trie := by
  unfold signalCloseParked
  split
  · rfl
  · split <;> rfl

lemma isSome_lookup_signalCloseParked :
    ((s.signalCloseParked c).sessions.lookup c).isSome = (s.sessions.lookup c).isSome := by
  have hview := s.view_signalCloseParked c c
  rw [if_pos rfl] at hview
  rw [← session_view, hview, unparked, Option.isSome_map, session_view]

/-- Only a resumed session announces its groups. -/
lemma sends_openSession (mailbox : ℕ) (cleanStart : Bool) :
    Sends s (s.openSession c mailbox cleanStart).1
      (if (s.sessions.lookup c).isSome ∧ cleanStart = false then
        (s.sharedGroupsOf c).map fun g => ((g, c), true) else []) := by
  set s₁ := { s with nextGeneration := s.nextGeneration + 1 }.signalCloseParked c with hs₁
  have hsends : Sends s s₁ [] :=
    (Sends.of_eq rfl rfl rfl :
      Sends s { s with nextGeneration := s.nextGeneration + 1 } []).trans
      (sends_signalCloseParked _ c)
  have htrie : s₁.trie = s.trie := trie_signalCloseParked _ c
  have hsome : (s₁.sessions.lookup c).isSome = (s.sessions.lookup c).isSome :=
    isSome_lookup_signalCloseParked _ c
  unfold openSession
  simp only
  rw [← hs₁, ← hsome]
  cases s₁.sessions.lookup c with
  | none =>
    rw [if_neg (by simp)]
    exact hsends.trans (.of_eq rfl rfl rfl)
  | some existing =>
    cases cleanStart with
    | true =>
      rw [if_neg (by simp)]
      exact hsends.trans (.of_eq rfl rfl rfl)
    | false =>
      rw [if_pos ⟨rfl, rfl⟩]
      simp only [Bool.false_eq_true, if_false]
      set s₂ : ShardState :=
        { s₁ with sessions := s₁.sessions.insert c (existing.resume mailbox (s.nextGeneration + 1)) }
      have hgroups : s₂.sharedGroupsOf c = s.sharedGroupsOf c := by
        show (((s₁.trie.clientSubscriptions c).filterMap _).insertionSort _).dedup = _
        rw [htrie]
        rfl
      have hjoin := (hsends.trans (.of_eq rfl rfl rfl : Sends s₁ s₂ [])).trans
        (sends_announce s₂ (s₂.sharedGroupsOf c) c true)
      rw [hgroups] at hjoin ⊢
      simpa using hjoin.trans (sends_walRemoved _ c)

end

/-- A fresh session and a Clean Start announce nothing, so they must not end a membership; a
resumed session joins all its groups. -/
lemma announced_openSession (hbacked : (s.view c).session = none → (s.view c).subs = [])
    (mailbox : ℕ) {cleanStart : Bool} (hclean : cleanStart = true → ∀ g, ¬ (s.view c).Member g) :
    Announced s (s.openSession c mailbox cleanStart).1 := by
  have hview := fun k => s.view_openSession c k mailbox cleanStart
  have hsends := s.sends_openSession c mailbox cleanStart
  rw [← session_view] at hsends
  cases hs : (s.view c).session with
  | none =>
    -- a new client has no subscription yet
    rw [hs, if_neg (by simp)] at hsends
    refine .of_client c [] true hsends (fun k hk => (hview k).trans (if_neg hk)) fun g => ?_
    rw [hview c, if_pos rfl, opened, hs, if_neg not_mem_nil]
    simp [Member, hs, hbacked hs]
  | some session =>
    cases cleanStart with
    | true =>
      rw [if_neg (by simp)] at hsends
      refine .of_client c [] true hsends (fun k hk => (hview k).trans (if_neg hk)) fun g => ?_
      rw [hview c, if_pos rfl, opened, hs, if_neg not_mem_nil,
        iff_false_right (hclean rfl g)]
      simp [Member, discarded, marked]
    | false =>
      rw [hs, if_pos ⟨rfl, rfl⟩] at hsends
      refine announced_joinAll s hsends
        (v := (s.view c).opened mailbox (s.nextGeneration + 1) false)
        (by rw [opened, hs]; rfl) (fun k => ?_) ?_ ?_
      · rw [hview k]
        split
        · next h => rw [h]
        · rfl
      · rw [opened, hs]
        rfl
      · rintro g ⟨-, hsub⟩
        rw [opened, hs]
        exact ⟨rfl, hsub⟩

/-- An operation that did nothing because the caller no longer owns the session. -/
lemma announced_self (s : ShardState) : Announced s s :=
  .of_silent (.refl s) fun _ _ => Iff.rfl

/-- What `closeSession` and `suspendParked` do once the connection is known to own the session: it
is suspended as `session` or discarded, and its client leaves all its groups. -/
lemma announced_endSession (s : ShardState) (c : String) (expirySecs : UInt32) {session : Session}
    (hoffline : session.online = false) :
    Announced s
      ((if expirySecs = 0 then s.discardSession c
        else { s with sessions := s.sessions.insert c session }.walDirty c).announce
        (s.sharedGroupsOf c) c false) := by
  have hsends : Sends s
      (if expirySecs = 0 then s.discardSession c
        else { s with sessions := s.sessions.insert c session }.walDirty c) [] := by
    split <;> exact .of_eq rfl rfl rfl
  refine announced_leaveAll (hsends.trans (sends_announce _ _ c false))
    (v := if expirySecs = 0 then (s.view c).discarded
      else { s.view c with session := some session }.marked .dirty) (fun k => ?_) ?_
  · rw [view_announce]
    split
    · rw [view_discardSession]
      split
      · next h => rw [h]
      · rfl
    · rw [view_insertSession_dirty]
      split
      · next h => rw [h]
      · rfl
  · split
    · rfl
    · exact hoffline

lemma announced_closeSession {generation : ℕ}
    (hunparked : ∀ session, s.sessions.lookup c = some session →
      session.generation = generation → session.parked = false) (now : ℕ) (expirySecs : UInt32)
    (snapshot : SessionSnapshot) (pending : List Delivery) :
    Announced s (s.closeSession now c generation expirySecs snapshot pending).1 := by
  unfold closeSession
  split
  · exact announced_self s
  · next session hs =>
    split
    · exact announced_self s
    · next hg =>
      refine announced_endSession s c expirySecs ?_
      rw [online, close, hunparked session hs (not_not.mp hg)]
      rfl

lemma announced_suspendParked (s : ShardState) (now : ℕ) (c : String) (generation : ℕ)
    (hmailbox : ∀ session, s.sessions.lookup c = some session → session.parked →
      session.mailbox = none) (expirySecs : UInt32) :
    Announced s (s.suspendParked now c generation expirySecs).1 := by
  unfold suspendParked
  split
  · exact announced_self s
  · next session hs =>
    split
    · exact announced_self s
    · next hg =>
      rw [not_or, Bool.not_eq_false] at hg
      refine announced_endSession s c expirySecs ?_
      rw [online, suspend, hmailbox session hs hg.2]
      rfl

end ShardState

namespace ClientView

lemma SameHold.member {v' : ClientView} (h : v.SameHold v') (g : String) :
    v'.Member g ↔ v.Member g := by
  rw [Member, h.online, h.subs, Member]

lemma sameHold_parked (v : ClientView) (generation : ℕ) (snapshot : SessionSnapshot) :
    v.SameHold (v.parked generation snapshot) :=
  (v.change_parked generation snapshot).sameHold fun session hguard => by
    rw [online, online, Option.isSome_iff_ne_none.mpr hguard.2]
    rfl

lemma sameHold_reattached (v : ClientView) (generation mailbox : ℕ) :
    v.SameHold (v.reattached generation mailbox) :=
  (v.change_reattached generation mailbox).sameHold fun session hguard => by
    rw [online, online, hguard.2, Bool.or_true]
    rfl

lemma sameHold_receives {v' : ClientView} (h : ShardState.Receives v v') : v.SameHold v' :=
  h.rel .refl .trans sameHold_delivered

/-- The sweep ends no membership: a connected session has no deadline that counts. -/
lemma member_swept (now : ℕ)
    (hdeadline : ∀ session, v.session = some session → session.parked → session.expiresAt = none)
    (g : String) : (v.swept now).Member g ↔ v.Member g := by
  have hchange := v.change_swept now
  generalize v.swept now = v' at hchange ⊢
  cases hchange with
  | stays => rfl
  | @ends session hs hexpired =>
    -- an expired session has neither a mailbox nor is it parked
    rw [expired, Bool.and_eq_true] at hexpired
    have hoffline : session.online = false := by
      rw [online, Bool.or_eq_false_iff]
      refine ⟨by simpa using hexpired.1, ?_⟩
      rw [← Bool.not_eq_true]
      intro hp
      simp [hdeadline session hs hp] at hexpired
    simp [Member, discarded, marked, hs, hoffline]
  | @turns session hs =>
    have honline : (session.fireWill now).online = session.online := by
      rw [fireWill]
      split <;> rfl
    rw [Member, Member, hs, Option.any_some, Option.any_some, honline]

lemma not_member_claimed (v : ClientView) (g : String) : ¬ v.claimed.Member g := by
  unfold claimed
  rintro ⟨honline, -⟩
  split at honline
  · next hs => simp [hs] at honline
  · cases honline

end ClientView

namespace ShardState

variable {s s' s'' : ShardState}

lemma announced_of_sameHold (hsends : Sends s s' [])
    (hsame : ∀ k, (s.view k).SameHold (s'.view k)) : Announced s s' :=
  .of_silent hsends fun k g => (hsame k).member g

/-- An operation on one client that changes neither the outbox nor the client's connectedness. -/
lemma announced_of_sameHold_client {v : String → ClientView} (hsends : Sends s s' [])
    (hview : ∀ k, s'.view k = if k = c then v k else s.view k) (hsame : (s.view c).SameHold (v c)) :
    Announced s s' := by
  refine announced_of_sameHold hsends fun k => ?_
  rw [hview k]
  split
  · next h => exact h ▸ hsame
  · exact .refl _

section

variable (s : ShardState)

lemma announced_parkSession (c : String) (generation : ℕ) (snapshot : SessionSnapshot) :
    Announced s (s.parkSession c generation snapshot).1 := by
  refine announced_of_sameHold_client ?_ (fun k => s.view_parkSession c k generation snapshot)
    (sameHold_parked ..)
  unfold parkSession
  split
  · exact .refl s
  · split
    · exact .refl s
    · exact .of_eq rfl rfl rfl

lemma announced_reattachParked (c : String) (generation mailbox : ℕ) :
    Announced s (s.reattachParked c generation mailbox).1 := by
  refine announced_of_sameHold_client ?_ (fun k => s.view_reattachParked c k generation mailbox)
    (sameHold_reattached ..)
  unfold reattachParked
  split
  · exact .refl s
  · split
    · exact .refl s
    · exact .of_eq rfl rfl rfl

lemma announced_armWill (now : ℕ) (c : String) (generation : ℕ) (will : Publish)
    (delaySecs : UInt32) : Announced s (s.armWill now c generation will delaySecs) := by
  refine announced_of_sameHold_client ?_
    (fun k => s.view_armWill now c k generation will delaySecs)
    ((s.view c).change_willArmed now generation will delaySecs |>.sameHold fun _ _ => rfl)
  unfold armWill
  split
  · exact .refl s
  · split
    · exact .of_eq rfl rfl rfl
    · exact .refl s

section

variable (hash : ContentHash) (publish : Publish) (publisher : Option String)

lemma sends_deliverLocal : Sends s (s.deliverLocal hash publish publisher) [] := by
  obtain ⟨_, _, _, _, _, h⟩ := s.deliverLocal_frame hash publish publisher
  rw [h]
  exact .of_eq rfl rfl rfl

lemma announced_deliverLocal : Announced s (s.deliverLocal hash publish publisher) :=
  announced_of_sameHold (s.sends_deliverLocal hash publish publisher) fun k =>
    sameHold_receives (s.receives_deliverLocal hash publish publisher k)

end

lemma announced_sweepExpired (now : ℕ)
    (hdeadline : ∀ k session, s.sessions.lookup k = some session → session.parked →
      session.expiresAt = none) : Announced s (s.sweepExpired now).1 := by
  have hexpire : ∀ (ids : List String) (acc : ShardState × List Publish),
      Sends acc.1 (ids.foldl expireOne acc).1 [] := by
    intro ids
    induction ids with
    | nil => exact fun acc => .refl acc.1
    | cons c ids ih =>
      intro acc
      refine (?_ : Sends acc.1 (expireOne acc c).1 []).trans (ih _)
      unfold expireOne
      split
      · exact .refl acc.1
      · exact .of_eq rfl rfl rfl
  have hfire : Sends s (s.fireWills now).1 [] := .of_eq rfl rfl rfl
  refine .of_silent (hfire.trans (hexpire _ _)) fun k g => ?_
  rw [view_sweepExpired]
  exact member_swept now (hdeadline k) g

lemma sends_handleClaim (c : String) (requester : ℕ) (resume : Bool) :
    Sends s (s.handleClaim c requester resume) [] := by
  have hreply : ∀ (s : ShardState) session,
      Sends s (s.enqueueControl requester (.control (.handoff c session))) [] := by
    intro s session
    refine sends_control s fun e he => ?_
    rw [mem_singleton.mp he]
    rfl
  unfold handleClaim
  simp only [walRemoved_extractSession]
  refine (s.sends_signalCloseParked c).trans ?_
  generalize s.signalCloseParked c = s₁
  split
  · exact hreply s₁ none
  · have hdiscard : Sends s₁ (s₁.discardSession c) [] := .of_eq rfl rfl rfl
    split <;> exact hdiscard.trans (hreply _ _)

end

/-- A claim ends the session without a word to the other shards, so it must not find a member. -/
lemma announced_handleClaim (hmember : ∀ g, ¬ (s.view c).Member g) (requester : ℕ) (resume : Bool) :
    Announced s (s.handleClaim c requester resume) := by
  have hview := fun k => s.view_handleClaim c k requester resume
  refine .of_silent (s.sends_handleClaim c requester resume) fun k g => ?_
  rw [hview k]
  split
  · next h =>
    subst h
    exact iff_of_false (not_member_claimed _ g) (hmember g)
  · rfl

lemma sends_broadcastClaim (s : ShardState) (c : String) (resume : Bool) :
    Sends s (s.broadcastClaim c resume) [] := by
  unfold broadcastClaim
  split
  · exact .refl s
  · rw [foldl_enqueueControl]
    refine sends_control s fun e he => ?_
    obtain ⟨idx, -, rfl⟩ := mem_map.mp he
    rfl

lemma view_broadcastClaim (s : ShardState) (c k : String) (resume : Bool) :
    (s.broadcastClaim c resume).view k = s.view k := by
  unfold broadcastClaim
  split
  · rfl
  · rw [foldl_enqueueControl]
    rfl

/-! ### Subscribing -/

/-- The groups of a client, in terms of what the trie stores. -/
lemma exists_clientSubscriptions_iff (trie : TopicTrie) (c g : String) :
    (∃ sub ∈ trie.clientSubscriptions c, sub.shareGroup = some g) ↔
      ∃ x ∈ trie.stored, x.2.clientId = c ∧ x.2.shareGroup = some g := by
  rw [TopicTrie.clientSubscriptions_eq]
  simp only [mem_map, mem_filter, beq_iff_eq]
  constructor
  · rintro ⟨_, ⟨x, ⟨hx, hc⟩, rfl⟩, hg⟩
    exact ⟨x, hx, hc, hg⟩
  · rintro ⟨x, hx, hc, hg⟩
    exact ⟨_, ⟨x, ⟨hx, hc⟩, rfl⟩, hg⟩

/-- A subscription adds its own group to the groups of its client. -/
lemma exists_clientSubscriptions_insert (trie : TopicTrie) (filter c g : String)
    (opts : SubOptions) :
    (∃ sub ∈ (trie.insert filter c opts).1.clientSubscriptions c, sub.shareGroup = some g) ↔
      (∃ sub ∈ trie.clientSubscriptions c, sub.shareGroup = some g) ∨ opts.shareGroup = some g := by
  rw [exists_clientSubscriptions_iff, exists_clientSubscriptions_iff]
  simp only [TopicTrie.mem_stored_insert]
  constructor
  · rintro ⟨x, ⟨hx, -⟩ | rfl, hc, hg⟩
    · exact .inl ⟨x, hx, hc, hg⟩
    · exact .inr hg
  · rintro (⟨x, hx, hc, hg⟩ | hg)
    · -- an entry that is replaced is replaced by one of the same group
      by_cases hsame : x.1 = filter ∧ x.2.same c opts.shareGroup = true
      · refine ⟨_, .inr rfl, rfl, ?_⟩
        rw [same, Bool.and_eq_true, beq_iff_eq, beq_iff_eq] at hsame
        exact hsame.2.2.symm.trans hg
      · exact ⟨x, .inl ⟨hx, hsame⟩, hc, hg⟩
    · exact ⟨_, .inr rfl, rfl, hg⟩

lemma sends_trie (s : ShardState) (trie : TopicTrie) : Sends s { s with trie } [] :=
  .of_eq rfl rfl rfl

/-- The groups a subscription announces as joined. -/
def joinedGroups (s : ShardState) (filter c : String) (opts : SubOptions) : List String :=
  if (s.trie.insert filter c opts).2 then opts.shareGroup.toList else []

lemma mem_joinedGroups (s : ShardState) (filter c g : String) (opts : SubOptions) :
    g ∈ s.joinedGroups filter c opts ↔
      (s.trie.insert filter c opts).2 = true ∧ opts.shareGroup = some g := by
  unfold joinedGroups
  split <;> simp_all

lemma sends_subscribe (s : ShardState) (filter c : String) (opts : SubOptions) :
    Sends s (s.subscribe filter c opts).1
      ((s.joinedGroups filter c opts).map fun g => ((g, c), true)) := by
  have htrie := s.sends_trie (s.trie.insert filter c opts).1
  unfold subscribe joinedGroups
  cases opts.shareGroup with
  | none =>
    simp only [Option.toList_none, ite_self, map_nil]
    exact htrie
  | some group =>
    simp only
    by_cases hnew : (s.trie.insert filter c opts).2 = true
    · rw [if_pos hnew, if_pos hnew]
      exact htrie.trans (sends_announce _ [group] c true)
    · rw [if_neg hnew, if_neg hnew]
      exact htrie

/-- Only a connected client may subscribe: a suspended one would be announced all the same. -/
lemma announced_subscribe (honline : (s.view c).session.any (·.online)) (filter : String)
    (opts : SubOptions) : Announced s (s.subscribe filter c opts).1 := by
  have hview := fun k => s.view_subscribe filter c k opts
  refine .of_client c _ true (s.sends_subscribe filter c opts)
    (fun k hk => (hview k).trans (if_neg hk)) fun g => ?_
  have hmember : ((s.subscribe filter c opts).1.view c).Member g ↔
      (s.view c).Member g ∨ opts.shareGroup = some g := by
    rw [hview c, if_pos rfl]
    refine (and_congr_right fun _ => exists_clientSubscriptions_insert ..).trans ?_
    rw [and_or_left]
    exact or_congr Iff.rfl (and_iff_right honline)
  rw [hmember]
  split
  · next hg => exact iff_of_true (.inr ((mem_joinedGroups ..).mp hg).2) rfl
  · next hg =>
    refine or_iff_left_of_imp fun hgroup => ?_
    -- not announced, because the subscription was refreshed: the group was held already
    have hnew : (s.trie.insert filter c opts).2 = false :=
      Bool.eq_false_iff.mpr fun hnew => hg ((mem_joinedGroups ..).mpr ⟨hnew, hgroup⟩)
    obtain ⟨sub, hsub, hsame⟩ := (s.trie.insert_snd_eq_false_iff filter c opts).mp hnew
    rw [same, Bool.and_eq_true, beq_iff_eq, beq_iff_eq, hgroup] at hsame
    exact ⟨honline, (exists_clientSubscriptions_iff ..).mpr ⟨_, hsub, hsame⟩⟩

/-- An unsubscribe takes away at most its own group. -/
lemma exists_clientSubscriptions_remove (trie : TopicTrie) (filter c g : String)
    (group : Option String) :
    (∃ sub ∈ (trie.remove filter c group).1.clientSubscriptions c, sub.shareGroup = some g) ↔
      ∃ x ∈ trie.stored, ¬ (x.1 = filter ∧ x.2.same c group = true) ∧
        x.2.clientId = c ∧ x.2.shareGroup = some g := by
  rw [exists_clientSubscriptions_iff]
  simp only [TopicTrie.stored_remove, mem_filter, Bool.not_eq_true', Bool.and_eq_false_iff,
    beq_eq_false_iff_ne, and_assoc, not_and_or, Bool.not_eq_true, ne_eq]

/-- The groups an unsubscribe announces as left. -/
def leftGroups (s : ShardState) (filter c : String) (group : Option String) : List String :=
  group.toList.filter fun g => (s.trie.remove filter c group).2 &&
    !{ s with trie := (s.trie.remove filter c group).1 }.holdsSharedGroup c g

section

variable (s : ShardState) (filter c : String) (group : Option String)

lemma sends_unsubscribe : Sends s (s.unsubscribe filter c group).1
      ((s.leftGroups filter c group).map fun g => ((g, c), false)) := by
  have htrie := s.sends_trie (s.trie.remove filter c group).1
  unfold unsubscribe leftGroups
  cases group with
  | none => exact htrie
  | some group =>
    simp only [Option.toList_some, filter_cons, filter_nil]
    by_cases hleft : ((s.trie.remove filter c (some group)).2 &&
        !{ s with trie := (s.trie.remove filter c (some group)).1 }.holdsSharedGroup c group) = true
    · rw [if_pos hleft, if_pos hleft]
      exact htrie.trans (sends_announce _ [group] c false)
    · rw [if_neg hleft, if_neg hleft]
      exact htrie

lemma announced_unsubscribe : Announced s (s.unsubscribe filter c group).1 := by
  have hview := fun k => s.view_unsubscribe filter c k group
  refine .of_client c _ false (s.sends_unsubscribe filter c group)
    (fun k hk => (hview k).trans (if_neg hk)) fun g => ?_
  rw [hview c, if_pos rfl]
  have hmember : ∀ g, Member { s.view c with
        subs := (s.trie.remove filter c group).1.clientSubscriptions c } g ↔
      (s.view c).session.any (·.online) ∧
        { s with trie := (s.trie.remove filter c group).1 }.holdsSharedGroup c g := by
    intro g
    rw [holdsSharedGroup, any_eq_true]
    simp only [decide_eq_true_eq]
    rfl
  split
  · next hg =>
    -- announced, because no subscription of the group is left
    rw [leftGroups, mem_filter, Bool.and_eq_true, Bool.not_eq_true'] at hg
    rw [hmember, hg.2.2]
    simp
  · next hg =>
    refine and_congr_right fun _ => ⟨fun h => ?_, fun h => ?_⟩
    · obtain ⟨x, hx, -, hcg⟩ := (exists_clientSubscriptions_remove ..).mp h
      exact (exists_clientSubscriptions_iff ..).mpr ⟨x, hx, hcg⟩
    · by_contra hlost
      obtain ⟨x, hx, hc, hgx⟩ := (exists_clientSubscriptions_iff ..).mp h
      -- The entry that held the group is the one removed, and the group was not announced as left.
      have hremoved : x.1 = filter ∧ x.2.same c group = true := by
        by_contra hsame
        exact hlost ((exists_clientSubscriptions_remove ..).mpr ⟨x, hx, hsame, hc, hgx⟩)
      have hflag : (s.trie.remove filter c group).2 = true :=
        (s.trie.remove_snd_eq_true_iff filter c group).mpr ⟨x.2, hremoved.1 ▸ hx, hremoved.2⟩
      have hgroup : group = some g := by
        have hsame := hremoved.2
        rw [same, Bool.and_eq_true, beq_iff_eq, beq_iff_eq] at hsame
        exact hsame.2.symm.trans hgx
      refine hg (mem_filter.mpr ⟨Option.mem_toList.mpr hgroup, ?_⟩)
      rw [hflag, Bool.true_and, Bool.not_eq_true', holdsSharedGroup, any_eq_false]
      exact fun sub hsub hsg => hlost ⟨sub, hsub, of_decide_eq_true hsg⟩

end

/-! ### Migration -/

lemma exists_clientSubscriptions_rearm (trie : TopicTrie) (c g : String)
    (subscriptions : List FlatSub)
    (h : ∃ sub ∈ trie.clientSubscriptions c, sub.shareGroup = some g) :
    ∃ sub ∈ (rearm trie c subscriptions).clientSubscriptions c, sub.shareGroup = some g := by
  unfold rearm
  induction subscriptions generalizing trie with
  | nil => exact h
  | cons sub subscriptions ih =>
    rw [foldl_cons]
    exact ih _ ((exists_clientSubscriptions_insert ..).mpr (.inl h))

/-- A migrated session joins its groups, so its client must be connected where it is installed. -/
lemma announced_installMigrated (honline : (s.view c).session.any (·.online))
    (migrated : MigratedSession) : Announced s (s.installMigrated c migrated).1 := by
  have hview := fun k => s.view_installMigrated c k migrated
  set s₁ : ShardState := { s with trie := rearm s.trie c migrated.subscriptions }
  refine announced_joinAll s₁ ((s.sends_trie _).trans (sends_announce s₁ _ c true))
    (v := s₁.view c) rfl (fun k => ?_) honline ?_
  · rw [hview k]
    split
    · next h => rw [h]; rfl
    · rfl
  · rintro g ⟨-, hsub⟩
    exact ⟨honline, exists_clientSubscriptions_rearm s.trie c g migrated.subscriptions hsub⟩

end ShardState

end Rusquitto
