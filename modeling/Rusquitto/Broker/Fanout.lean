import Rusquitto.Broker.View

/-!
# The deliveries of a publish

`route` interleaves choosing recipients with delivering to them. Choosing reads who is online, the
replicated view and the group's own cursor; delivering changes none of these. So the deliveries of a
publish are a list that the state before it determines (`handovers`), and routing is to hand them
over one after the other (`route_eq`). `mem_groupMembers` says who the candidates of a shared group
are.
-/

namespace Rusquitto

open List AList

/-- One call of `deliverTo`: the shared group it is for, the client, and the delivery. -/
abbrev Handover := Option String × String × Delivery

namespace ShardState

variable (s : ShardState)

/-- The deliveries to ordinary subscribers. -/
def bestHandovers (publish : Publish) (publisher : Option String) (wasRetained : Bool)
    (best : HashMap String Match) : List Handover :=
  best.entries.filterMap fun e =>
    if e.2.nolocal ∧ publisher = some e.1 then none
    else some (none, e.1, deliveryFor publish wasRetained e.2)

/-- The delivery for a shared group, if its pick fell on a client of this shard. -/
def groupHandover (s : ShardState) (hash : ContentHash) (publish : Publish) (wasRetained : Bool)
    (group : String) (members : HashMap String Match) : Option Handover := do
  let clientId ← s.pickMember hash publish group members
  let m ← members.lookup clientId
  pure (some group, clientId, deliveryFor publish wasRetained m)

/-- The deliveries of a publish, in order. -/
def handovers (s : ShardState) (hash : ContentHash) (publish : Publish) (publisher : Option String)
    (wasRetained : Bool) : List Handover :=
  let buckets := collapse (s.trie.matching publish.topic)
  bestHandovers publish publisher wasRetained buckets.best ++
    buckets.groups.entries.filterMap fun e => s.groupHandover hash publish wasRetained e.1 e.2

/-- Hands one delivery over. -/
def handOver (s : ShardState) (h : Handover) : ShardState :=
  s.deliverTo h.2.1 h.2.2

/-! ### Delivering does not influence a later choice -/

/-- Two states in which every group makes the same choice, as long as its cursor is the same. -/
structure SameChoices (s s' : ShardState) : Prop where
  online : ∀ c, (s'.sessions.lookup c).any (·.online) = (s.sessions.lookup c).any (·.online)
  remote : s'.sharedRemote = s.sharedRemote

lemma SameChoices.pickMember {s s' : ShardState} (h : SameChoices s s') (hash : ContentHash)
    (publish : Publish) (group : String) (members : HashMap String Match)
    (hcursor : s'.cursorOf group = s.cursorOf group) :
    s'.pickMember hash publish group members = s.pickMember hash publish group members := by
  have honline : s'.onlineMembers members = s.onlineMembers members := by
    exact filter_congr fun c _ => h.online c
  have hremote : s'.remoteMembers group = s.remoteMembers group := by
    rw [remoteMembers, h.remote, remoteMembers]
  unfold ShardState.pickMember
  rw [hremote, honline]
  split
  · rfl
  · rw [localPick, localPick, honline, hcursor]

lemma SameChoices.groupHandover {s s' : ShardState} (h : SameChoices s s') (hash : ContentHash)
    (publish : Publish) (wasRetained : Bool) (group : String) (members : HashMap String Match)
    (hcursor : s'.cursorOf group = s.cursorOf group) :
    s'.groupHandover hash publish wasRetained group members =
      s.groupHandover hash publish wasRetained group members := by
  unfold ShardState.groupHandover
  rw [h.pickMember hash publish group members hcursor]

section

variable (c : String) (d : Delivery)

/-- What a delivery writes: the client's session or mailbox, the wake channel and the log's marks,
whatever the cursors are. -/
lemma deliverTo_frame :
    ∃ sessions channels unparkTx wal, ∀ sharedCursor,
      { s with sharedCursor }.deliverTo c d =
        { s with sharedCursor, sessions, channels, unparkTx, wal } := by
  unfold deliverTo walDirty
  simp only
  split
  · exact ⟨_, _, _, _, fun _ => rfl⟩
  · split
    · split <;> exact ⟨_, _, _, _, fun _ => rfl⟩
    · split
      · exact ⟨_, _, _, _, fun _ => rfl⟩
      · split <;> exact ⟨_, _, _, _, fun _ => rfl⟩

lemma sharedCursor_deliverTo : (s.deliverTo c d).sharedCursor = s.sharedCursor := by
  obtain ⟨_, _, _, _, h⟩ := s.deliverTo_frame c d
  rw [h s.sharedCursor]

lemma sharedRemote_deliverTo : (s.deliverTo c d).sharedRemote = s.sharedRemote := by
  obtain ⟨_, _, _, _, h⟩ := s.deliverTo_frame c d
  rw [h s.sharedCursor]

lemma sameChoices_deliverTo : SameChoices s (s.deliverTo c d) where
  online k := by
    rw [← session_view, ← session_view, view_deliverTo]
    split
    · exact (ClientView.sameHold_delivered ..).online
    · rfl
  remote := sharedRemote_deliverTo s c d

end

lemma sameChoices_advanceCursor (group : String) : SameChoices s (s.advanceCursor group) := by
  unfold advanceCursor
  split <;> exact ⟨fun _ => rfl, rfl⟩

lemma cursorOf_advanceCursor_of_ne {group other : String} (h : other ≠ group) :
    (s.advanceCursor group).cursorOf other = s.cursorOf other := by
  unfold advanceCursor
  split
  · rfl
  · simp only [cursorOf]
    rw [lookup_insert_ne h]

/-- A delivery and a step of a cursor do not meet. -/
lemma deliverTo_advanceCursor (c group : String) (d : Delivery) :
    (s.deliverTo c d).advanceCursor group = (s.advanceCursor group).deliverTo c d := by
  obtain ⟨_, _, _, _, h⟩ := s.deliverTo_frame c d
  have hs : s.deliverTo c d = _ := h s.sharedCursor
  have hremote : (s.deliverTo c d).remoteMembers group = s.remoteMembers group := by
    rw [remoteMembers, sharedRemote_deliverTo, remoteMembers]
  unfold advanceCursor
  rw [hremote]
  split
  · rfl
  · rw [hs]
    exact (h _).symm

/-! ### Routing hands the planned deliveries over -/

/-- The cursors after every group of a publish had its turn. -/
def advanceCursors (s : ShardState) (groups : List String) : ShardState :=
  groups.foldl advanceCursor s

lemma deliverTo_advanceCursors (c : String) (d : Delivery) (groups : List String) :
    (s.deliverTo c d).advanceCursors groups = (s.advanceCursors groups).deliverTo c d := by
  induction groups generalizing s with
  | nil => rfl
  | cons g groups ih =>
    rw [advanceCursors, foldl_cons, deliverTo_advanceCursor]
    exact ih _

lemma advanceCursors_handOver (hs : List Handover) (groups : List String) :
    (hs.foldl handOver s).advanceCursors groups = hs.foldl handOver (s.advanceCursors groups) := by
  induction hs generalizing s with
  | nil => rfl
  | cons h hs ih =>
    rw [foldl_cons, foldl_cons, ih, handOver, deliverTo_advanceCursors]
    rfl

lemma sameChoices_foldl_handOver (hs : List Handover) : SameChoices s (hs.foldl handOver s) ∧
      (hs.foldl handOver s).sharedCursor = s.sharedCursor := by
  induction hs generalizing s with
  | nil => exact ⟨⟨fun _ => rfl, rfl⟩, rfl⟩
  | cons h hs ih =>
    obtain ⟨hsame, hcursor⟩ := ih (s.handOver h)
    have hfirst := sameChoices_deliverTo s h.2.1 h.2.2
    exact ⟨⟨fun c => (hsame.online c).trans (hfirst.online c), hsame.remote.trans hfirst.remote⟩,
      hcursor.trans (sharedCursor_deliverTo ..)⟩

section

variable (hash : ContentHash) (publish : Publish) (wasRetained : Bool)

lemma deliverGroup_eq (group : String) (members : HashMap String Match) :
    s.deliverGroup hash publish wasRetained group members =
      (s.groupHandover hash publish wasRetained group members).toList.foldl handOver
        (s.advanceCursor group) := by
  unfold deliverGroup groupHandover
  cases s.pickMember hash publish group members with
  | none => rfl
  | some c =>
    simp only [Option.bind_eq_bind, Option.bind_some]
    cases members.lookup c <;> rfl

/-- After one group's turn the others still choose as before it. -/
lemma groupHandover_deliverGroup {group other : String} (hne : other ≠ group)
    (members others : HashMap String Match) :
    (s.deliverGroup hash publish wasRetained group members).groupHandover hash publish wasRetained
        other others = s.groupHandover hash publish wasRetained other others := by
  rw [deliverGroup_eq]
  obtain ⟨hsame, hcursor⟩ := sameChoices_foldl_handOver (s.advanceCursor group)
    (s.groupHandover hash publish wasRetained group members).toList
  have hfirst := sameChoices_advanceCursor s group
  rw [hsame.groupHandover _ _ _ _ _ (by rw [cursorOf, hcursor, cursorOf]),
    hfirst.groupHandover _ _ _ _ _ (cursorOf_advanceCursor_of_ne s hne)]

/-- The groups' turns, over any part of the groups: each choice is the one of the first state. -/
lemma foldl_deliverGroup (es : List (Sigma fun _ : String => HashMap String Match))
    (hnd : (es.map Sigma.fst).Nodup) (s : ShardState) :
    es.foldl (fun s e => s.deliverGroup hash publish wasRetained e.1 e.2) s =
      (es.filterMap fun e => s.groupHandover hash publish wasRetained e.1 e.2).foldl handOver
        (s.advanceCursors (es.map Sigma.fst)) := by
  induction es generalizing s with
  | nil => rfl
  | cons e es ih =>
    rw [map_cons, nodup_cons] at hnd
    have hsame : (es.filterMap fun e' =>
          (s.deliverGroup hash publish wasRetained e.1 e.2).groupHandover hash publish wasRetained
            e'.1 e'.2) =
        es.filterMap fun e' => s.groupHandover hash publish wasRetained e'.1 e'.2 :=
      filterMap_congr fun e' he' =>
        groupHandover_deliverGroup s hash publish wasRetained
          (fun h => hnd.1 (mem_map.mpr ⟨e', he', h⟩)) e.2 e'.2
    rw [foldl_cons, ih hnd.2, hsame, deliverGroup_eq, advanceCursors_handOver,
      filterMap_cons]
    cases s.groupHandover hash publish wasRetained e.1 e.2 <;> rfl

end

lemma foldl_deliverBest (publish : Publish) (publisher : Option String) (wasRetained : Bool)
    (best : HashMap String Match) (s : ShardState) :
    best.entries.foldl (fun s e => s.deliverBest publish publisher wasRetained e.1 e.2) s =
      (bestHandovers publish publisher wasRetained best).foldl handOver s := by
  unfold bestHandovers
  generalize best.entries = es
  induction es generalizing s with
  | nil => rfl
  | cons e es ih =>
    rw [foldl_cons, ih, filterMap_cons, deliverBest]
    split <;> rfl

/-- Routing hands the deliveries over that the state before it determines. -/
lemma route_eq (hash : ContentHash) (publish : Publish) (publisher : Option String)
    (wasRetained : Bool) : s.route hash publish publisher wasRetained =
      (s.handovers hash publish publisher wasRetained).foldl handOver
        (s.advanceCursors (collapse (s.trie.matching publish.topic)).groups.keys) := by
  unfold route handovers
  simp only
  -- The ordinary deliveries come first, and no group's choice depends on them.
  set hs := bestHandovers publish publisher wasRetained
    (collapse (s.trie.matching publish.topic)).best
  obtain ⟨hsame, hcursor⟩ := sameChoices_foldl_handOver s hs
  have hgroups : (fun e : Sigma fun _ : String => HashMap String Match =>
        (hs.foldl handOver s).groupHandover hash publish wasRetained e.1 e.2) =
      fun e => s.groupHandover hash publish wasRetained e.1 e.2 := by
    funext e
    exact hsame.groupHandover _ _ _ _ _ (by rw [cursorOf, hcursor, cursorOf])
  rw [foldl_deliverBest, foldl_deliverGroup _ _ _ _ (keys_nodup _), hgroups,
    advanceCursors_handOver, foldl_append]
  rfl

/-! ### A publish on one shard -/

/-- The deliveries `deliverLocal` makes for a publish. -/
def publishHandovers (s : ShardState) (hash : ContentHash) (publish : Publish)
    (publisher : Option String) : List Handover :=
  s.handovers hash { publish with retain := false } publisher publish.retain

lemma updateRetain_frame (publish : Publish) :
    ∃ retained, s.updateRetain publish = { s with retained } := by
  unfold updateRetain
  split
  · exact ⟨_, rfl⟩
  · split
    · exact ⟨s.retained, rfl⟩
    · exact ⟨_, rfl⟩

/-- The state a publish is routed in: the retain table is updated first. -/
def retaining (s : ShardState) (publish : Publish) : ShardState :=
  if publish.retain then s.updateRetain publish else s

lemma retaining_frame (publish : Publish) :
    ∃ retained, s.retaining publish = { s with retained } := by
  unfold retaining
  split
  · exact s.updateRetain_frame publish
  · exact ⟨s.retained, rfl⟩

lemma advanceCursors_frame (groups : List String) :
    ∃ sharedCursor, s.advanceCursors groups = { s with sharedCursor } := by
  induction groups generalizing s with
  | nil => exact ⟨s.sharedCursor, rfl⟩
  | cons group groups ih =>
    obtain ⟨_, h⟩ : ∃ sharedCursor, s.advanceCursor group = { s with sharedCursor } := by
      unfold advanceCursor
      split
      · exact ⟨s.sharedCursor, rfl⟩
      · exact ⟨_, rfl⟩
    obtain ⟨_, h'⟩ := ih (s.advanceCursor group)
    exact ⟨_, h'.trans (by rw [h])⟩

section

variable (hash : ContentHash) (publish : Publish) (publisher : Option String)

/-- A publish updates the retain table, moves the cursors and hands its deliveries over. -/
lemma deliverLocal_prepared : ∃ sharedCursor, s.deliverLocal hash publish publisher =
    (s.publishHandovers hash publish publisher).foldl handOver
      { s with retained := (s.retaining publish).retained, sharedCursor } := by
  have hroute : s.deliverLocal hash publish publisher =
      (s.retaining publish).route hash { publish with retain := false } publisher publish.retain :=
    rfl
  obtain ⟨retained, hretain⟩ := s.retaining_frame publish
  obtain ⟨_, hcursor⟩ := advanceCursors_frame { s with retained }
    (collapse (s.trie.matching publish.topic)).groups.keys
  rw [hroute, route_eq, hretain, hcursor]
  exact ⟨_, rfl⟩

/-- Of the retained messages a publish changes what the retain table says, of the rest of the shard
what the deliveries need. -/
lemma deliverLocal_frame :
    ∃ sharedCursor sessions channels unparkTx wal,
      s.deliverLocal hash publish publisher =
        { s with retained := (s.retaining publish).retained,
                 sharedCursor, sessions, channels, unparkTx, wal } := by
  have hhandovers (handovers : List Handover) (s : ShardState) :
      ∃ sessions channels unparkTx wal, handovers.foldl handOver s =
        { s with sessions, channels, unparkTx, wal } := by
    induction handovers generalizing s with
    | nil => exact ⟨s.sessions, s.channels, s.unparkTx, s.wal, rfl⟩
    | cons handover handovers ih =>
      obtain ⟨_, _, _, _, h⟩ := s.deliverTo_frame handover.2.1 handover.2.2
      have hone : s.handOver handover = _ := h s.sharedCursor
      obtain ⟨_, _, _, _, h'⟩ := ih (s.handOver handover)
      exact ⟨_, _, _, _, h'.trans (by rw [hone])⟩
  obtain ⟨_, hprepared⟩ := s.deliverLocal_prepared hash publish publisher
  obtain ⟨_, _, _, _, h⟩ := hhandovers (s.publishHandovers hash publish publisher) _
  exact ⟨_, _, _, _, _, hprepared.trans h⟩

/-- A publish gives each client some deliveries and changes nothing else about it. -/
lemma receives_deliverLocal (k : String) :
    Receives (s.view k) ((s.deliverLocal hash publish publisher).view k) := by
  obtain ⟨_, hprepared⟩ := s.deliverLocal_prepared hash publish publisher
  rw [hprepared]
  exact Lib.foldl_rel (R := fun s s' : ShardState => Receives (s.view k) (s'.view k))
    (fun _ => .refl _) .trans (fun s (h : Handover) => s.receives_deliverTo h.2.1 k h.2.2) _ _

end

/-! ### The candidates of a group -/

/-- The candidates of a shared group for a topic. -/
def groupMembers (s : ShardState) (topic group : String) : HashMap String Match :=
  ((collapse (s.trie.matching topic)).groups.lookup group).getD ∅

end ShardState

lemma mem_addMatch (bucket : HashMap String Match) (sub : Subscription) (c : String) :
    c ∈ addMatch bucket sub ↔ c ∈ bucket ∨ sub.clientId = c := by
  rw [addMatch, mem_insert, or_comm, eq_comm]

/-- One turn of the collapsing loop adds the subscription's client to its group. -/
lemma mem_groups_add (b : Buckets) (sub : Subscription) (group c : String) :
    c ∈ ((b.add sub).groups.lookup group).getD ∅ ↔
      c ∈ (b.groups.lookup group).getD ∅ ∨ sub.shareGroup = some group ∧ sub.clientId = c := by
  unfold Buckets.add
  cases hg : sub.shareGroup with
  | none => simp
  | some g =>
    rw [lookup_insert_eq_ite]
    by_cases h : group = g
    · rw [if_pos h, Option.getD_some, mem_addMatch, h]
      simp
    · rw [if_neg h]
      simp [Ne.symm h]

/-- The clients in a group's bucket are those with a matching subscription in the group. -/
lemma mem_groups_foldl (subs : List Subscription) (b : Buckets) (group c : String) :
    c ∈ ((subs.foldl Buckets.add b).groups.lookup group).getD ∅ ↔
      c ∈ (b.groups.lookup group).getD ∅ ∨
        ∃ sub ∈ subs, sub.shareGroup = some group ∧ sub.clientId = c := by
  induction subs generalizing b with
  | nil => simp
  | cons sub subs ih =>
    rw [foldl_cons, ih, mem_groups_add, or_assoc, exists_mem_cons_iff]

namespace ShardState

lemma mem_groupMembers (s : ShardState) (topic group c : String) :
    c ∈ s.groupMembers topic group ↔
      ∃ sub ∈ s.trie.matching topic, sub.shareGroup = some group ∧ sub.clientId = c := by
  refine (mem_groups_foldl _ {} group c).trans (or_iff_right ?_)
  exact notMem_empty c

lemma groupHandover_eq_some_iff (s : ShardState) (hash : ContentHash) (publish : Publish)
    (wasRetained : Bool) (group : String) (members : HashMap String Match) (h : Handover) :
    s.groupHandover hash publish wasRetained group members = some h ↔
      ∃ c m, s.pickMember hash publish group members = some c ∧ members.lookup c = some m ∧
        h = (some group, c, deliveryFor publish wasRetained m) := by
  unfold groupHandover
  simp only [Option.bind_eq_bind, Option.bind_eq_some_iff, Option.pure_def, Option.some.injEq]
  constructor
  · rintro ⟨c, hc, m, hm, rfl⟩
    exact ⟨c, m, hc, hm, rfl⟩
  · rintro ⟨c, m, hc, hm, rfl⟩
    exact ⟨c, hc, m, hm, rfl⟩

lemma not_mem_bestHandovers (publish : Publish) (publisher : Option String) (wasRetained : Bool)
    (best : HashMap String Match) (group c : String) (d : Delivery) :
    (some group, c, d) ∉ bestHandovers publish publisher wasRetained best := by
  intro hmem
  obtain ⟨e, -, he⟩ := mem_filterMap.mp hmem
  split at he <;> cases he

/-- A client is handed a delivery for a group exactly when it is a candidate and picked. -/
lemma mem_publishHandovers_group (s : ShardState) (hash : ContentHash) (publish : Publish)
    (publisher : Option String) (group c : String) :
    (∃ d, (some group, c, d) ∈ s.publishHandovers hash publish publisher) ↔
      c ∈ s.groupMembers publish.topic group ∧
        s.pickMember hash publish group (s.groupMembers publish.topic group) = some c := by
  simp only [publishHandovers, handovers, mem_append, not_mem_bestHandovers, false_or,
    mem_filterMap, groupHandover_eq_some_iff]
  constructor
  · rintro ⟨d, ⟨group, members⟩, hmem, c, m, hpick, hm, heq⟩
    cases heq
    have hmembers : s.groupMembers publish.topic group = members := by
      rw [groupMembers, Option.mem_def.mp (mem_lookup_iff.mpr hmem), Option.getD_some]
    rw [hmembers]
    exact ⟨lookup_isSome.mp (Option.isSome_of_mem hm), hpick⟩
  · rintro ⟨hc, hpick⟩
    cases hlookup : (collapse (s.trie.matching publish.topic)).groups.lookup group with
    | none =>
      rw [groupMembers, hlookup] at hc
      exact absurd hc (notMem_empty c)
    | some members =>
      rw [groupMembers, hlookup, Option.getD_some] at hc hpick
      obtain ⟨m, hm⟩ := Option.isSome_iff_exists.mp (lookup_isSome.mpr hc)
      exact ⟨_, ⟨group, members⟩, mem_lookup_iff.mp hlookup, c, m, hpick, hm, rfl⟩

end ShardState

end Rusquitto
