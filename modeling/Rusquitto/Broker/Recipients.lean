import Rusquitto.Broker.Fanout

/-!
# What one client gets of a publish

`deliveriesTo` are the deliveries of a publish to one client. They change the client's view or fill
its mailbox, and nothing else about it (`view_deliverLocal`, `channels_deliverLocal`). A client
whose matching subscriptions are ordinary ones gets one delivery, a client without a matching
subscription none.
-/

namespace Rusquitto

open List ClientView AList

variable {k : String} {mailbox : ℕ}

/-! ### Ordinary subscriptions collapse into one entry -/

lemma Match.qos_absorb (entry : Match) (sub : Subscription) :
    (entry.absorb sub).qos.toNat = max entry.qos.toNat sub.qos.toNat := by
  have hqos : (if entry.qos.toNat < sub.qos.toNat then
      { entry with qos := sub.qos, nolocal := sub.nolocal, retainAsPublished := sub.retainAsPublished }
      else entry).qos.toNat = max entry.qos.toNat sub.qos.toNat := by
    split
    · next h => exact (max_eq_right h.le).symm
    · next h => exact (max_eq_left (not_lt.mp h)).symm
  unfold Match.absorb
  dsimp only
  generalize (if entry.qos.toNat < sub.qos.toNat then _ else entry) = entry' at hqos
  -- the identifier does not matter
  split
  · split <;> exact hqos
  · exact hqos

/-- The entry of a client is there if it was, or if one of the subscriptions is an ordinary one of
the client, and then its QoS is no lower. -/
lemma lookup_best_foldl (subs : List Subscription) (b : Buckets) (k : String) :
    (k ∈ (subs.foldl Buckets.add b).best ↔
      k ∈ b.best ∨ ∃ sub ∈ subs, sub.clientId = k ∧ sub.shareGroup = none) ∧
    ∀ m, (subs.foldl Buckets.add b).best.lookup k = some m →
      (∀ m₀, b.best.lookup k = some m₀ → m₀.qos.toNat ≤ m.qos.toNat) ∧
      ∀ sub ∈ subs, sub.clientId = k → sub.shareGroup = none → sub.qos.toNat ≤ m.qos.toNat := by
  induction subs generalizing b with
  | nil => exact ⟨by simp, fun m hm => ⟨fun m₀ hm₀ => by simp_all, nofun⟩⟩
  | cons sub subs ih =>
    obtain ⟨hmem, hqos⟩ := ih (b.add sub)
    cases hgroup : sub.shareGroup with
    | some group =>
      -- a shared subscription goes elsewhere
      have hbest : (b.add sub).best = b.best := by simp [Buckets.add, hgroup]
      rw [hbest] at hmem hqos
      refine ⟨by simp [hmem, hgroup], fun m hm => ⟨(hqos m hm).1, fun sub' hsub' hk hnone => ?_⟩⟩
      rcases mem_cons.mp hsub' with rfl | hsub'
      · rw [hgroup] at hnone
        exact nomatch hnone
      · exact (hqos m hm).2 sub' hsub' hk hnone
    | none =>
      have hbest : (b.add sub).best = addMatch b.best sub := by simp [Buckets.add, hgroup]
      rw [hbest] at hmem hqos
      refine ⟨?_, fun m hm => ?_⟩
      · rw [foldl_cons, hmem, mem_addMatch, or_assoc, exists_mem_cons_iff]
        simp [hgroup]
      · obtain ⟨hold, hnew⟩ := hqos m hm
        by_cases hk : sub.clientId = k
        · -- the entry of this client absorbs the subscription
          have hentry : (addMatch b.best sub).lookup k =
              some (((b.best.lookup k).getD (Match.ofSub sub)).absorb sub) := by
            rw [addMatch, hk, lookup_insert]
          have hle := hold _ hentry
          rw [Match.qos_absorb] at hle
          refine ⟨fun m₀ hm₀ => ?_, fun sub' hsub' hk' hnone => ?_⟩
          · rw [hm₀, Option.getD_some] at hle
            omega
          · rcases mem_cons.mp hsub' with rfl | hsub'
            · omega
            · exact hnew sub' hsub' hk' hnone
        · refine ⟨fun m₀ hm₀ => hold m₀ ?_, fun sub' hsub' hk' hnone => ?_⟩
          · rw [addMatch, lookup_insert_ne (Ne.symm hk), hm₀]
          · rcases mem_cons.mp hsub' with rfl | hsub'
            · exact absurd hk' hk
            · exact hnew sub' hsub' hk' hnone

lemma mem_best_collapse (subs : List Subscription) (k : String) :
    k ∈ (collapse subs).best ↔ ∃ sub ∈ subs, sub.clientId = k ∧ sub.shareGroup = none :=
  (lookup_best_foldl subs {} k).1.trans (or_iff_right (notMem_empty k))

namespace ShardState

variable (s : ShardState) (hash : ContentHash) (publish : Publish) (publisher : Option String)

/-- The deliveries among some handovers that are for one client. -/
def forClient (k : String) (hs : List Handover) : List Delivery :=
  (hs.filter (·.2.1 = k)).map (·.2.2)

@[simp]
lemma forClient_cons (k : String) (h : Handover) (hs : List Handover) :
    forClient k (h :: hs) = if h.2.1 = k then h.2.2 :: forClient k hs else forClient k hs := by
  unfold forClient
  by_cases hk : h.2.1 = k <;> simp [hk]

/-- The deliveries of a publish to one client. -/
def deliveriesTo (k : String) : List Delivery :=
  forClient k (s.publishHandovers hash publish publisher)

lemma view_foldl_handOver (hs : List Handover) (k : String) :
    (hs.foldl handOver s).view k = (forClient k hs).foldl delivered (s.view k) := by
  induction hs generalizing s with
  | nil => rfl
  | cons h hs ih =>
    rw [foldl_cons, ih, handOver, view_deliverTo, forClient_cons]
    by_cases hk : k = h.2.1
    · rw [if_pos hk, if_pos hk.symm, foldl_cons]
    · rw [if_neg hk, if_neg (Ne.symm hk)]

/-- A publish reaches the client by these deliveries. -/
lemma view_deliverLocal (k : String) : (s.deliverLocal hash publish publisher).view k =
      (s.deliveriesTo hash publish publisher k).foldl delivered (s.view k) := by
  obtain ⟨_, hprepared⟩ := s.deliverLocal_prepared hash publish publisher
  rw [hprepared, view_foldl_handOver]
  rfl

/-- A delivery gives and takes nobody a mailbox. -/
lemma mailbox_deliverTo (c k : String) (d : Delivery) :
    ((s.deliverTo c d).sessions.lookup k).map (·.mailbox) =
      (s.sessions.lookup k).map (·.mailbox) := by
  have hsession := congrArg session (s.view_deliverTo c k d)
  rw [session_view] at hsession
  rw [hsession]
  split
  · rw [← session_view s k, delivered]
    cases hs : (s.view k).session with
    | none => rw [hs]
    | some session =>
      dsimp only
      split
      · rw [hs]
      · split
        · rfl
        · split
          · rfl
          · rw [hs]
  · rfl

lemma mailbox_foldl_handOver (hs : List Handover) (k : String) :
    ((hs.foldl handOver s).sessions.lookup k).map (·.mailbox) =
      (s.sessions.lookup k).map (·.mailbox) := by
  induction hs generalizing s with
  | nil => rfl
  | cons h hs ih => exact (ih _).trans (s.mailbox_deliverTo h.2.1 k h.2.2)

/-- The mailbox belongs to the session of this client and to no other. -/
def OwnMailbox (k : String) (mailbox : ℕ) : Prop :=
  (s.sessions.lookup k).map (·.mailbox) = some (some mailbox) ∧
    ∀ k', (s.sessions.lookup k').map (·.mailbox) = some (some mailbox) → k' = k

variable {s} in
lemma OwnMailbox.of_eq {s' : ShardState} (h : s.OwnMailbox k mailbox)
    (heq : ∀ k, (s'.sessions.lookup k).map (·.mailbox) = (s.sessions.lookup k).map (·.mailbox)) :
    s'.OwnMailbox k mailbox :=
  ⟨(heq k).trans h.1, fun k' hk' => h.2 k' ((heq k').symm.trans hk')⟩

/-- A mailbox is only filled through the session it belongs to. -/
lemma channels_foldl_handOver (hs : List Handover) (hown : s.OwnMailbox k mailbox)
    (hroom : (s.channels mailbox).length + (forClient k hs).length ≤ mailboxLimit) :
    (hs.foldl handOver s).channels mailbox = s.channels mailbox ++ forClient k hs := by
  induction hs generalizing s with
  | nil => simp [forClient]
  | cons h hs ih =>
    have hown' : (s.handOver h).OwnMailbox k mailbox :=
      hown.of_eq fun k => s.mailbox_deliverTo h.2.1 k h.2.2
    rw [forClient_cons] at hroom ⊢
    by_cases hmine : h.2.1 = k
    · -- there is room for the delivery
      rw [if_pos hmine] at hroom ⊢
      rw [length_cons] at hroom
      obtain ⟨session, hk, hm⟩ := Option.map_eq_some_iff.mp hown.1
      have hchannel : (s.handOver h).channels mailbox = s.channels mailbox ++ [h.2.2] := by
        rw [handOver, hmine, deliverTo, hk]
        dsimp only
        rw [hm]
        dsimp only
        rw [if_pos (by omega)]
        exact Function.update_self ..
      rw [foldl_cons, ih _ hown' ?_, hchannel, append_assoc, singleton_append]
      rw [hchannel, length_append, length_singleton]
      omega
    · -- somebody else's delivery goes elsewhere
      rw [if_neg hmine] at hroom ⊢
      have hchannel : (s.handOver h).channels mailbox = s.channels mailbox := by
        rw [handOver, deliverTo]
        split
        · rfl
        · next session' hs' =>
          split
          · next mailbox' hm' =>
            have hne : mailbox ≠ mailbox' := by
              rintro rfl
              exact hmine (hown.2 _ (by rw [hs', Option.map_some, hm']))
            split
            · exact Function.update_of_ne hne ..
            · rfl
          · split
            · rfl
            · split
              · rw [walDirty]
              · rfl
      rw [foldl_cons, ih _ hown' ?_, hchannel]
      rwa [hchannel]

lemma mailbox_deliverLocal (k : String) :
    ((s.deliverLocal hash publish publisher).sessions.lookup k).map (·.mailbox) =
      (s.sessions.lookup k).map (·.mailbox) := by
  obtain ⟨_, hprepared⟩ := s.deliverLocal_prepared hash publish publisher
  rw [hprepared, mailbox_foldl_handOver]

/-- A publish fills the mailbox of a connected client with these deliveries. -/
lemma channels_deliverLocal (hown : s.OwnMailbox k mailbox)
    (hroom : (s.channels mailbox).length + (s.deliveriesTo hash publish publisher k).length ≤
      mailboxLimit) : (s.deliverLocal hash publish publisher).channels mailbox =
      s.channels mailbox ++ s.deliveriesTo hash publish publisher k := by
  obtain ⟨_, hprepared⟩ := s.deliverLocal_prepared hash publish publisher
  rw [hprepared, channels_foldl_handOver _ _ (hown.of_eq fun _ => by rfl) ?_]
  · rfl
  · exact hroom

/-! ### How many there are -/

lemma forClient_append (k : String) (hs hs' : List Handover) :
    forClient k (hs ++ hs') = forClient k hs ++ forClient k hs' := by
  rw [forClient, filter_append, map_append, forClient, forClient]

/-- The turn of the ordinary subscribers, over any part of their table. -/
lemma forClient_filterMap (p : Publish) (wasRetained : Bool) (k : String)
    (es : List (Sigma fun _ : String => Match)) (hnd : (es.map Sigma.fst).Nodup) :
    forClient k (es.filterMap fun e => if e.2.nolocal ∧ publisher = some e.1 then none
        else some (none, e.1, deliveryFor p wasRetained e.2)) =
      ((dlookup k es).filter fun m => ¬(m.nolocal ∧ publisher = some k)).toList.map
        (deliveryFor p wasRetained) := by
  induction es with
  | nil => rfl
  | cons e es ih =>
    rw [map_cons, nodup_cons] at hnd
    have ih := ih hnd.2
    obtain ⟨k', m⟩ := e
    by_cases hk : k' = k
    · subst hk
      -- the client has no other entry
      have hnone : dlookup k' es = none := dlookup_eq_none.mpr hnd.1
      rw [hnone] at ih
      rw [dlookup_cons_eq, filterMap_cons]
      by_cases hlocal : m.nolocal = true ∧ publisher = some k'
      · rw [if_pos hlocal, Option.filter_some, if_neg (by simp [hlocal])]
        exact ih
      · rw [if_neg hlocal, Option.filter_some, if_pos (decide_eq_true hlocal)]
        simp only [forClient_cons, if_true, ih]
        rfl
    · rw [dlookup_cons_ne _ _ (Ne.symm hk), ← ih, filterMap_cons]
      by_cases hlocal : m.nolocal = true ∧ publisher = some k'
      · rw [if_pos hlocal]
      · rw [if_neg hlocal]
        simp only [forClient_cons]
        rw [if_neg hk]

/-- The deliveries to one client, when it is a candidate of no shared group. -/
lemma deliveriesTo_of_ordinary
    (h : ∀ sub ∈ s.trie.matching publish.topic, sub.clientId = k → sub.shareGroup = none) :
    s.deliveriesTo hash publish publisher k =
      (((collapse (s.trie.matching publish.topic)).best.lookup k).filter
        fun m => ¬(m.nolocal ∧ publisher = some k)).toList.map
          (deliveryFor { publish with retain := false } publish.retain) := by
  have hgroups : forClient k ((collapse (s.trie.matching publish.topic)).groups.entries.filterMap
      fun e => s.groupHandover hash { publish with retain := false } publish.retain e.1 e.2)
        = [] := by
    rw [forClient, map_eq_nil_iff, filter_eq_nil_iff]
    intro handover hmem hk
    obtain ⟨⟨group, members⟩, hentry, hpick⟩ := mem_filterMap.mp hmem
    obtain ⟨c, m, -, hm, rfl⟩ := (groupHandover_eq_some_iff ..).mp hpick
    have hc : c = k := by simpa using hk
    subst hc
    have hmembers : s.groupMembers publish.topic group = members := by
      rw [groupMembers, Option.mem_def.mp (mem_lookup_iff.mpr hentry), Option.getD_some]
    have hcandidate : c ∈ s.groupMembers publish.topic group := by
      rw [hmembers]
      exact lookup_isSome.mp (Option.isSome_of_mem hm)
    obtain ⟨sub, hsub, hgroup, hclient⟩ := (mem_groupMembers ..).mp hcandidate
    rw [h sub hsub hclient] at hgroup
    cases hgroup
  rw [deliveriesTo, publishHandovers, handovers, forClient_append]
  rw [hgroups, append_nil, bestHandovers, forClient_filterMap _ _ _ _ _ (keys_nodup _)]
  rfl

/-- A client without a matching subscription gets nothing. -/
lemma deliveriesTo_eq_nil (h : ∀ sub ∈ s.trie.matching publish.topic, sub.clientId ≠ k) :
    s.deliveriesTo hash publish publisher k = [] := by
  have hnone : (collapse (s.trie.matching publish.topic)).best.lookup k = none := by
    rw [lookup_eq_none, mem_best_collapse]
    rintro ⟨sub, hsub, hk, -⟩
    exact h sub hsub hk
  rw [deliveriesTo_of_ordinary s hash publish publisher fun sub hsub hk => absurd hk (h sub hsub),
    hnone]
  rfl

/-- A client whose matching subscriptions are ordinary ones gets one delivery. -/
lemma exists_deliveriesTo_eq {sub : Subscription} (hsub : sub ∈ s.trie.matching publish.topic)
    (hk : sub.clientId = k)
    (hordinary : ∀ sub ∈ s.trie.matching publish.topic, sub.clientId = k → sub.shareGroup = none)
    (hforeign : publisher ≠ some k) : ∃ m : Match, sub.qos.toNat ≤ m.qos.toNat ∧
      s.deliveriesTo hash publish publisher k =
        [deliveryFor { publish with retain := false } publish.retain m] := by
  have hnone := hordinary sub hsub hk
  have hmem := (mem_best_collapse (s.trie.matching publish.topic) k).mpr ⟨sub, hsub, hk, hnone⟩
  obtain ⟨m, hm⟩ := Option.isSome_iff_exists.mp (lookup_isSome.mpr hmem)
  refine ⟨m, ((lookup_best_foldl _ {} k).2 m hm).2 sub hsub hk hnone, ?_⟩
  rw [deliveriesTo_of_ordinary s hash publish publisher hordinary, hm]
  simp [hforeign]

end ShardState

end Rusquitto
