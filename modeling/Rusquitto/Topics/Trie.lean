import Rusquitto.Lib.Assoc
import Rusquitto.Topics.Filter

/-!
# The topic trie

The subscription trie of `trie.rs`. Each level of a filter is an edge keyed by its segment, and
the wildcards `+` and `#` are ordinary keys. A node's children are an association list, read with
`List.lookup`; segment interning only shares storage and is left out.

`Node.entries` lists the stored subscriptions with the path of each, and the equations of the
four operations on it say what they do to the stored set.
-/

namespace Rusquitto

open Lib List Lib.Assoc

/-- One client's subscription, with the QoS the broker granted and its options. -/
structure Subscription where
  clientId : String
  qos : QoS
  /-- No Local: no delivery of a message to the subscriber that published it. -/
  nolocal : Bool
  /-- Retain As Published: forward the publisher's original retain flag. -/
  retainAsPublished : Bool
  /-- Shared Subscription group name, or `none` for an ordinary subscription. -/
  shareGroup : Option String
  /-- Subscription Identifier, echoed on matching deliveries. -/
  subId : Option ℕ
  deriving DecidableEq, Repr, Inhabited

/-- The options a SUBSCRIBE carries for one filter. -/
structure SubOptions where
  qos : QoS
  nolocal : Bool := false
  retainAsPublished : Bool := false
  shareGroup : Option String := none
  subId : Option ℕ := none
  deriving DecidableEq, Repr, Inhabited

/-- A subscription flattened out of the trie, with its filter reconstructed from the path. -/
structure FlatSub where
  filter : String
  qos : QoS
  nolocal : Bool := false
  retainAsPublished : Bool := false
  shareGroup : Option String := none
  subId : Option ℕ := none
  deriving DecidableEq, Repr, Inhabited

/-- The subscription of `clientId` with the given options. -/
def SubOptions.subscription (opts : SubOptions) (clientId : String) : Subscription where
  clientId := clientId
  qos := opts.qos
  nolocal := opts.nolocal
  retainAsPublished := opts.retainAsPublished
  shareGroup := opts.shareGroup
  subId := opts.subId

/-- The flat record of a subscription on `filter`. -/
def Subscription.flat (s : Subscription) (filter : String) : FlatSub where
  filter := filter
  qos := s.qos
  nolocal := s.nolocal
  retainAsPublished := s.retainAsPublished
  shareGroup := s.shareGroup
  subId := s.subId

/-- What tells two subscriptions of one client apart. -/
def FlatSub.key (sub : FlatSub) : String × Option String :=
  (sub.filter, sub.shareGroup)

/-- `s.client_id == client_id && s.share_group == share_group`: the entry that a re-subscribe
replaces and an unsubscribe removes. -/
def Subscription.same (clientId : String) (shareGroup : Option String) (s : Subscription) : Bool :=
  s.clientId == clientId && s.shareGroup == shareGroup

/-- A node of the topic tree: its children by segment, and the subscribers whose filter ends
here. -/
inductive Node where
  | mk (children : List (String × Node)) (subscribers : List Subscription)

namespace Node

def children : Node → List (String × Node)
  | mk children _ => children

def subscribers : Node → List Subscription
  | mk _ subscribers => subscribers

/-- The default node. -/
def empty : Node := mk [] []

/-- A node with no subscribers and no children. -/
def isDead (node : Node) : Bool :=
  node.subscribers.isEmpty && node.children.isEmpty

/-- `children.get(seg)`. -/
def child? (node : Node) (seg : String) : Option Node :=
  node.children.lookup seg

end Node

namespace Node

/-- The descent of `TopicTrie::insert` and the update at its end. -/
def insert (sub : Subscription) : List String → Node → Node
  | [], mk children subscribers =>
    -- `retain` all but the entry of this client and group, then push
    mk children (subscribers.filter (fun s => !s.same sub.clientId sub.shareGroup) ++ [sub])
  | seg :: segs, mk children subscribers =>
    let child := (children.lookup seg).getD empty
    mk (Assoc.set seg (insert sub segs child) children) subscribers

/-- The subscribers at the end of a path. -/
def subscribersAt : List String → Node → List Subscription
  | [], node => node.subscribers
  | seg :: segs, node =>
    match node.child? seg with
    | none => []
    | some child => subscribersAt segs child

/-- The children of a node after its child at `seg` changed to `child`: a child that became dead
is pruned. -/
def putChild (seg : String) (child : Node) (children : List (String × Node)) :
    List (String × Node) :=
  if child.isDead then Assoc.remove seg children else Assoc.set seg child children

/-- `remove_rec`: removes the matching subscriber at the leaf and prunes any node that became dead
on the way back up. Returns whether a subscriber was removed. -/
def removeRec (clientId : String) (shareGroup : Option String) : List String → Node → Node × Bool
  | [], mk children subscribers =>
    let kept := subscribers.filter fun s => !s.same clientId shareGroup
    (mk children kept, kept.length != subscribers.length)
  | seg :: segs, mk children subscribers =>
    match children.lookup seg with
    | none => (mk children subscribers, false)
    | some child =>
      let (child, removed) := removeRec clientId shareGroup segs child
      (mk (putChild seg child children) subscribers, removed)

mutual

/-- `remove_client_rec`: removes every subscription of a client and prunes dead nodes. -/
def removeClientRec (clientId : String) : Node → Node
  | mk children subscribers =>
    mk (removeClientChildren clientId children) (subscribers.filter fun s => s.clientId != clientId)

def removeClientChildren (clientId : String) : List (String × Node) → List (String × Node)
  | [] => []
  | (seg, child) :: rest =>
    let child := removeClientRec clientId child
    if child.isDead then removeClientChildren clientId rest
    else (seg, child) :: removeClientChildren clientId rest

end

mutual

/-- `collect_client_rec`: a client's subscriptions below a node reached by `segments`. -/
def collectClientRec (clientId : String) (segments : List String) : Node → List FlatSub
  | mk children subscribers =>
    (subscribers.filter fun s => s.clientId == clientId).map (·.flat (joinLevels segments)) ++
      collectClientChildren clientId segments children

def collectClientChildren (clientId : String) (segments : List String) :
    List (String × Node) → List FlatSub
  | [] => []
  | (seg, child) :: rest =>
    collectClientRec clientId (segments ++ [seg]) child ++
      collectClientChildren clientId segments rest

end

mutual

/-- `take_client_rec`: removes every subscription of a client below a node reached by `segments`
and returns them. -/
def takeClientRec (clientId : String) (segments : List String) : Node → Node × List FlatSub
  | mk children subscribers =>
    let taken := (subscribers.filter fun s => s.clientId == clientId).map
      (·.flat (joinLevels segments))
    let kept := subscribers.filter fun s => !(s.clientId == clientId)
    let (children, below) := takeClientChildren clientId segments children
    (mk children kept, taken ++ below)

def takeClientChildren (clientId : String) (segments : List String) :
    List (String × Node) → List (String × Node) × List FlatSub
  | [] => ([], [])
  | (seg, child) :: rest =>
    let (child, taken) := takeClientRec clientId (segments ++ [seg]) child
    let (rest, below) := takeClientChildren clientId segments rest
    (if child.isDead then rest else (seg, child) :: rest, taken ++ below)

end

/-- `match_rec` from level `idx` on, where `segments` are the levels still to consume. -/
def matchRec (dollarTop : Bool) (idx : ℕ) : List String → Node → List Subscription
  | [], node =>
    -- `sport/#` also matches the exact topic `sport`
    node.subscribers ++ ((node.child? "#").map subscribers).getD []
  | seg :: segs, node =>
    -- `$` topics are not matched by wildcards at the first level
    let allowWildcard := !(idx == 0 && dollarTop)
    ((node.child? seg).map (matchRec dollarTop (idx + 1) segs)).getD [] ++
      if allowWildcard then
        ((node.child? "+").map (matchRec dollarTop (idx + 1) segs)).getD [] ++
          ((node.child? "#").map subscribers).getD []
      else []

/-! ## Stored subscriptions -/

mutual

/-- The stored subscriptions below a node, each with the path that leads to it. -/
def entries : Node → List (List String × Subscription)
  | mk children subscribers =>
    subscribers.map (fun s => ([], s)) ++ entriesChildren children

def entriesChildren : List (String × Node) → List (List String × Subscription)
  | [] => []
  | (seg, child) :: rest =>
    (entries child).map (fun e => (seg :: e.1, e.2)) ++ entriesChildren rest

end

lemma entriesChildren_eq_flatMap (children : List (String × Node)) : entriesChildren children =
      children.flatMap fun kc => kc.2.entries.map fun e => (kc.1 :: e.1, e.2) := by
  induction children with
  | nil => rfl
  | cons kc rest ih => rw [entriesChildren, ih, flatMap_cons]

mutual

/-- Well-formed nodes: distinct segments without `/` on the edges, one subscriber for each client
and group, and no dead node below. -/
def WF : Node → Prop
  | mk children subscribers =>
    (children.map Prod.fst).Nodup ∧
      (subscribers.map fun s => (s.clientId, s.shareGroup)).Nodup ∧ WFChildren children

def WFChildren : List (String × Node) → Prop
  | [] => True
  | (seg, child) :: rest =>
    ('/' ∉ seg.toList ∧ child.isDead = false ∧ WF child) ∧ WFChildren rest

end

variable {children : List (String × Node)}

lemma wfChildren_iff : WFChildren children ↔
      ∀ kc ∈ children, '/' ∉ kc.1.toList ∧ kc.2.isDead = false ∧ kc.2.WF := by
  induction children with
  | nil => simp [WFChildren]
  | cons kc rest ih => simp [WFChildren, ih]

lemma wf_mk {subscribers : List Subscription} :
    (mk children subscribers).WF ↔ (children.map Prod.fst).Nodup ∧
      (subscribers.map fun s => (s.clientId, s.shareGroup)).Nodup ∧
        ∀ kc ∈ children, '/' ∉ kc.1.toList ∧ kc.2.isDead = false ∧ kc.2.WF := by
  rw [WF, wfChildren_iff]

lemma wf_empty : empty.WF := by
  rw [empty, wf_mk]
  simp

/-- Induction over a node with the hypothesis for its children. -/
lemma ind {motive : Node → Prop}
    (mk : ∀ children subscribers, (∀ kc ∈ children, motive kc.2) → motive (mk children subscribers))
    (node : Node) : motive node :=
  @Node.rec motive (fun children => ∀ kc ∈ children, motive kc.2) (fun kc => motive kc.2) mk
    (fun _ hkc => absurd hkc not_mem_nil) (fun _ _ hkc hrest => forall_mem_cons.mpr ⟨hkc, hrest⟩)
    (fun _ _ h => h) node

variable {node : Node} {path : List String}

/-- A stored subscription is a subscriber at the end of its path. -/
lemma mem_entries_iff (hwf : node.WF) {s : Subscription} :
    (path, s) ∈ node.entries ↔ s ∈ node.subscribersAt path := by
  induction node using ind generalizing path with
  | mk children subscribers ih =>
    obtain ⟨hnd, -, hchildren⟩ := wf_mk.mp hwf
    rw [entries, entriesChildren_eq_flatMap, mem_append, mem_flatMap]
    cases path with
    | nil =>
      simp [subscribersAt, Node.subscribers]
    | cons seg segs =>
      rw [subscribersAt, child?, Node.children]
      have hhere : (seg :: segs, s) ∉ subscribers.map fun s => (([] : List String), s) := by
        simp
      simp only [hhere, false_or]
      constructor
      · rintro ⟨⟨key, child⟩, hmem, hin⟩
        obtain ⟨e, he, heq⟩ := mem_map.mp hin
        obtain ⟨⟨rfl, rfl⟩, rfl⟩ := heq
        rw [(mem_iff_lookup hnd).mp hmem]
        exact (ih _ hmem (hchildren _ hmem).2.2).mp he
      · cases hlook : children.lookup seg with
        | none => simp
        | some child =>
          intro hin
          have hmem := mem_of_lookup hlook
          exact ⟨_, hmem, mem_map.mpr
            ⟨_, (ih _ hmem (hchildren _ hmem).2.2).mpr hin, rfl⟩⟩

/-- No client has two stored subscriptions on one path and group. -/
lemma nodup_entries (hwf : node.WF) :
    (node.entries.map fun e => (e.1, e.2.clientId, e.2.shareGroup)).Nodup := by
  induction node using ind with
  | mk children subscribers ih =>
    obtain ⟨hnd, hsubs, hchildren⟩ := wf_mk.mp hwf
    rw [entries, entriesChildren_eq_flatMap, map_append, nodup_append]
    refine ⟨?_, ?_, ?_⟩
    · have hpair := hsubs.map (f := fun k => (([] : List String), k)) fun a b h => (Prod.mk.inj h).2
      rw [map_map] at hpair ⊢
      exact hpair
    · rw [map_flatMap, nodup_flatMap]
      constructor
      · intro kc hkc
        -- the keys of a child's entries, each with one more segment in front
        have hkeys := (ih kc hkc (hchildren kc hkc).2.2).map
          (f := fun k => (kc.1 :: k.1, k.2)) fun a b h => by
            simp only [Prod.mk.injEq, cons.injEq, true_and] at h
            exact Prod.ext h.1 h.2
        rw [map_map] at hkeys ⊢
        exact hkeys
      · refine (pairwise_map.mp hnd).imp ?_
        intro kc kc' hne k hk hk'
        simp only [map_map, mem_map, Function.comp_apply] at hk hk'
        obtain ⟨e, -, rfl⟩ := hk
        obtain ⟨e', -, heq⟩ := hk'
        exact hne (cons.inj (Prod.mk.inj heq).1).1.symm
    · intro k hk k' hk' heq
      simp only [map_map, mem_map, Function.comp_apply] at hk
      simp only [map_flatMap, mem_flatMap, map_map, mem_map,
        Function.comp_apply] at hk'
      obtain ⟨s, -, rfl⟩ := hk
      obtain ⟨kc, -, e, -, rfl⟩ := hk'
      cases heq

/-! ## What the operations do to the subscribers of a path -/

lemma subscribersAt_empty (path : List String) : empty.subscribersAt path = [] := by
  cases path <;> rfl

/-- Insertion replaces the client's entry for the group at the path and touches no other path. -/
lemma subscribersAt_insert (sub : Subscription) (path path' : List String) (node : Node) :
    (node.insert sub path).subscribersAt path' = if path' = path then
        (node.subscribersAt path).filter (fun s => !s.same sub.clientId sub.shareGroup) ++ [sub]
      else node.subscribersAt path' := by
  induction path generalizing path' node with
  | nil =>
    obtain ⟨children, subscribers⟩ := node
    cases path' with
    | nil => rfl
    | cons seg segs => rfl
  | cons seg segs ih =>
    obtain ⟨children, subscribers⟩ := node
    cases path' with
    | nil => rfl
    | cons seg' segs' =>
      rw [insert, subscribersAt, child?, Node.children, lookup_set]
      by_cases hseg : seg' = seg
      · subst hseg
        rw [if_pos rfl]
        simp only [ih, cons.injEq, true_and, subscribersAt, child?, Node.children]
        cases children.lookup seg' with
        | none => simp only [Option.getD_none, subscribersAt_empty]
        | some child => rfl
      · rw [if_neg hseg, if_neg (fun h => hseg (cons.inj h).1)]
        rfl

/-! ## What the operations do to the stored subscriptions -/

lemma entries_mk (children : List (String × Node)) (subscribers : List Subscription) :
    (mk children subscribers).entries = subscribers.map (fun s => ([], s)) ++
      children.flatMap fun kc => kc.2.entries.map fun e => (kc.1 :: e.1, e.2) := by
  rw [entries, entriesChildren_eq_flatMap]

lemma entries_of_isDead (h : node.isDead = true) : node.entries = [] := by
  obtain ⟨children, subscribers⟩ := node
  simp only [isDead, Node.subscribers, Node.children, Bool.and_eq_true, List.isEmpty_iff] at h
  rw [h.1, h.2, entries_mk, List.map_nil, List.flatMap_nil, List.nil_append]

/-- Compare the entries below the children after one child changed with those before, where a
filter acts inside that child and leaves the other children alone. -/
private lemma flatMap_putChild {seg : String} {child child' : Node}
    {q : List String × Subscription → Bool} (hnd : (children.map Prod.fst).Nodup)
    (hlook : children.lookup seg = some child)
    (hchild : child'.entries = child.entries.filter fun e => q (seg :: e.1, e.2))
    (hother : ∀ key p s, key ≠ seg → q (key :: p, s) = true) :
    (putChild seg child' children).flatMap
        (fun kc => kc.2.entries.map fun e => (kc.1 :: e.1, e.2)) =
      (children.flatMap fun kc => kc.2.entries.map fun e => (kc.1 :: e.1, e.2)).filter q := by
  have hseg : child'.entries.map (fun e => (seg :: e.1, e.2)) =
      (child.entries.map fun e => (seg :: e.1, e.2)).filter q := by
    rw [hchild, filter_map]
    rfl
  have hne : ∀ kc ∈ children, kc.1 ≠ seg →
      kc.2.entries.map (fun e => (kc.1 :: e.1, e.2)) =
        (kc.2.entries.map fun e => (kc.1 :: e.1, e.2)).filter q := by
    intro kc _ hkc
    refine (filter_eq_self.mpr fun e he => ?_).symm
    obtain ⟨e', -, rfl⟩ := mem_map.mp he
    exact hother _ _ _ hkc
  rw [filter_flatMap, putChild]
  by_cases hdead : child'.isDead = true
  · rw [if_pos hdead]
    refine flatMap_remove ?_ hne
    intro w hw
    rw [(mem_iff_lookup hnd).mp hw, Option.some.injEq] at hlook
    rw [hlook, ← hseg, entries_of_isDead hdead, map_nil]
  · rw [if_neg hdead]
    exact flatMap_set hnd hlook hseg hne

section

variable (clientId : String) (group : Option String) (path : List String)

/-- Removal deletes exactly the client's entry for the group at the path. -/
lemma entries_removeRec (hwf : node.WF) : (node.removeRec clientId group path).1.entries =
      node.entries.filter fun e => !(e.1 == path && e.2.same clientId group) := by
  induction path generalizing node with
  | nil =>
    obtain ⟨children, subscribers⟩ := node
    rw [removeRec, entries_mk, entries_mk, filter_append, filter_map]
    congr 1
    refine (filter_eq_self.mpr fun e he => ?_).symm
    obtain ⟨kc, -, hin⟩ := mem_flatMap.mp he
    obtain ⟨e', -, rfl⟩ := mem_map.mp hin
    rfl
  | cons seg segs ih =>
    obtain ⟨children, subscribers⟩ := node
    obtain ⟨hnd, -, hchildren⟩ := wf_mk.mp hwf
    have hhere : (subscribers.map fun s => (([] : List String), s)).filter
        (fun e => !(e.1 == seg :: segs && e.2.same clientId group)) =
          subscribers.map fun s => ([], s) := by
      refine filter_eq_self.mpr fun e he => ?_
      obtain ⟨s, -, rfl⟩ := mem_map.mp he
      rfl
    rw [removeRec]
    cases hlook : children.lookup seg with
    | none =>
      -- no child at the segment, so no entry on the path
      rw [entries_mk, filter_append, hhere]
      congr 1
      refine (filter_eq_self.mpr fun e he => ?_).symm
      obtain ⟨kc, hkc, hin⟩ := mem_flatMap.mp he
      obtain ⟨e', -, rfl⟩ := mem_map.mp hin
      have hne : kc.1 ≠ seg := by
        rintro rfl
        exact lookup_eq_none_iff_notMem.mp hlook (mem_map_of_mem hkc)
      simp [hne]
    | some child =>
      have hmem := mem_of_lookup hlook
      rw [entries_mk, entries_mk, filter_append, hhere]
      congr 1
      refine flatMap_putChild hnd hlook ?_ ?_
      · rw [ih (hchildren _ hmem).2.2]
        simp
      · intro key p s hkey
        simp [hkey]

/-- Removal reports whether there was such an entry. -/
lemma removeRec_snd (node : Node) : (node.removeRec clientId group path).2 =
      (node.subscribersAt path).any (·.same clientId group) := by
  induction path generalizing node with
  | nil =>
    obtain ⟨children, subscribers⟩ := node
    rw [Bool.eq_iff_iff, removeRec, subscribersAt, Node.subscribers, bne_iff_ne, ne_eq,
      length_filter_eq_length_iff, any_eq_true]
    simp
  | cons seg segs ih =>
    obtain ⟨children, subscribers⟩ := node
    rw [removeRec, subscribersAt, child?, Node.children]
    cases children.lookup seg with
    | none => rfl
    | some child => exact ih child

end

lemma removeClientChildren_eq_filterMap (clientId : String) (children : List (String × Node)) :
    removeClientChildren clientId children =
      (children.map fun kc => (kc.1, kc.2.removeClientRec clientId)).filter
        fun kc => !kc.2.isDead := by
  induction children with
  | nil => rfl
  | cons kc rest ih =>
    rw [removeClientChildren, ih, map_cons]
    by_cases hdead : (removeClientRec clientId kc.2).isDead = true
    · rw [filter_cons_of_neg (by simpa using hdead)]
      simp only [hdead, if_true]
    · rw [filter_cons_of_pos (by simpa using hdead)]
      simp only [hdead]
      rfl

/-- Removing a client deletes exactly the client's entries. -/
lemma entries_removeClientRec (clientId : String) (node : Node) :
    (node.removeClientRec clientId).entries =
      node.entries.filter fun e => e.2.clientId != clientId := by
  induction node using ind with
  | mk children subscribers ih =>
    rw [removeClientRec, entries_mk, entries_mk, filter_append, filter_map,
      removeClientChildren_eq_filterMap, filter_flatMap]
    congr 1
    induction children with
    | nil => rfl
    | cons kc rest ihrest =>
      have hkc : (kc.2.removeClientRec clientId).entries.map (fun e => (kc.1 :: e.1, e.2)) =
          (kc.2.entries.map fun e => (kc.1 :: e.1, e.2)).filter
            fun e => e.2.clientId != clientId := by
        rw [ih kc mem_cons_self, filter_map]
        rfl
      have hrest := ihrest fun kc' h => ih kc' (mem_cons_of_mem _ h)
      rw [map_cons, flatMap_cons, ← hrest, ← hkc]
      by_cases hdead : (kc.2.removeClientRec clientId).isDead = true
      · rw [filter_cons_of_neg (by simpa using hdead), entries_of_isDead hdead]
        rfl
      · rw [filter_cons_of_pos (by simpa using hdead), flatMap_cons]

/-- Insertion leaves the entries of the other clients as they are, in their order. -/
lemma filter_entries_insert {sub : Subscription} {q : Subscription → Bool}
    (hq : ∀ s, s.same sub.clientId sub.shareGroup = true → q s = false) (path : List String)
    (hwf : node.WF) : (node.insert sub path).entries.filter (fun e => q e.2) =
      node.entries.filter fun e => q e.2 := by
  have hsub : q sub = false := hq sub (by simp [Subscription.same])
  induction path generalizing node with
  | nil =>
    obtain ⟨children, subscribers⟩ := node
    rw [insert, entries_mk, entries_mk, filter_append, filter_append]
    congr 1
    have hkeep : ∀ s : Subscription, (q s && !s.same sub.clientId sub.shareGroup) = q s := by
      intro s
      cases hs : q s with
      | false => rfl
      | true =>
        have hne : s.same sub.clientId sub.shareGroup = false := by
          by_contra hsame
          rw [hq s (by simpa using hsame)] at hs
          cases hs
        simp [hne]
    simp [filter_map, filter_filter, Function.comp_def, hkeep, hsub]
  | cons seg segs ih =>
    obtain ⟨children, subscribers⟩ := node
    obtain ⟨hnd, -, hchildren⟩ := wf_mk.mp hwf
    rw [insert, entries_mk, entries_mk, filter_append, filter_append,
      filter_flatMap, filter_flatMap]
    congr 1
    cases hlook : children.lookup seg with
    | none =>
      -- a new branch, which holds the new subscription only
      have hnew := ih wf_empty
      rw [set_of_notMem (lookup_eq_none_iff_notMem.mp hlook), flatMap_append,
        flatMap_singleton, filter_map]
      have hnil : ((empty.insert sub segs).entries.filter
          ((fun e => q e.2) ∘ fun e : List String × Subscription => (seg :: e.1, e.2))) = [] :=
        hnew
      simp [hnil]
    | some child =>
      refine flatMap_set hnd hlook ?_ fun _ _ _ => rfl
      have hchild := ih (hchildren _ (mem_of_lookup hlook)).2.2
      rw [filter_map, filter_map]
      exact congrArg _ hchild

/-! ## Well-formedness is kept -/

lemma isDead_insert (sub : Subscription) (path : List String) (node : Node) :
    (node.insert sub path).isDead = false := by
  obtain ⟨children, subscribers⟩ := node
  cases path with
  | nil => simp [insert, isDead, Node.subscribers]
  | cons seg segs =>
    have hne : set seg (((children.lookup seg).getD empty).insert sub segs) children ≠ [] := by
      intro h
      have hlook := lookup_set seg seg (((children.lookup seg).getD empty).insert sub segs)
        children
      rw [h, if_pos rfl] at hlook
      cases hlook
    simp [insert, isDead, Node.children, hne]

lemma wf_insert (sub : Subscription) (hpath : ∀ seg ∈ path, '/' ∉ seg.toList) (hwf : node.WF) :
    (node.insert sub path).WF := by
  induction path generalizing node with
  | nil =>
    obtain ⟨children, subscribers⟩ := node
    obtain ⟨hnd, hsubs, hchildren⟩ := wf_mk.mp hwf
    refine wf_mk.mpr ⟨hnd, ?_, hchildren⟩
    rw [map_append, nodup_append]
    refine ⟨hsubs.sublist (filter_sublist.map _), nodup_singleton _, ?_⟩
    intro a ha b hb hab
    rw [map_singleton, mem_singleton] at hb
    obtain ⟨s, hs, rfl⟩ := mem_map.mp ha
    have hsame := (mem_filter.mp hs).2
    rw [hb, Prod.mk.injEq] at hab
    simp [Subscription.same, hab.1, hab.2] at hsame
  | cons seg segs ih =>
    obtain ⟨children, subscribers⟩ := node
    obtain ⟨hnd, hsubs, hchildren⟩ := wf_mk.mp hwf
    obtain ⟨hseg, hsegs⟩ := forall_mem_cons.mp hpath
    refine wf_mk.mpr ⟨nodup_keys_set hnd, hsubs, fun kc hkc => ?_⟩
    rcases mem_set hkc with rfl | hkc
    · refine ⟨hseg, isDead_insert .., ih hsegs ?_⟩
      cases hlook : children.lookup seg with
      | none => exact wf_empty
      | some child => exact (hchildren _ (mem_of_lookup hlook)).2.2
    · exact hchildren kc hkc

lemma wf_removeRec (clientId : String) (group : Option String) (path : List String)
    (hwf : node.WF) : (node.removeRec clientId group path).1.WF := by
  induction path generalizing node with
  | nil =>
    obtain ⟨children, subscribers⟩ := node
    obtain ⟨hnd, hsubs, hchildren⟩ := wf_mk.mp hwf
    exact wf_mk.mpr ⟨hnd, hsubs.sublist (filter_sublist.map _), hchildren⟩
  | cons seg segs ih =>
    obtain ⟨children, subscribers⟩ := node
    obtain ⟨hnd, hsubs, hchildren⟩ := wf_mk.mp hwf
    rw [removeRec]
    cases hlook : children.lookup seg with
    | none => exact hwf
    | some child =>
      have hmem := mem_of_lookup hlook
      have hchild := ih (hchildren _ hmem).2.2
      refine wf_mk.mpr ?_
      rw [putChild]
      split_ifs with hdead
      · exact ⟨nodup_keys_remove hnd, hsubs,
          fun kc hkc => hchildren kc (mem_of_mem_filter hkc)⟩
      · refine ⟨nodup_keys_set hnd, hsubs, fun kc hkc => ?_⟩
        rcases mem_set hkc with rfl | hkc
        · exact ⟨(hchildren _ hmem).1, by simpa using hdead, hchild⟩
        · exact hchildren kc hkc

lemma wf_removeClientRec (clientId : String) (hwf : node.WF) :
    (node.removeClientRec clientId).WF := by
  induction node using ind with
  | mk children subscribers ih =>
    obtain ⟨hnd, hsubs, hchildren⟩ := wf_mk.mp hwf
    rw [removeClientRec, removeClientChildren_eq_filterMap]
    refine wf_mk.mpr ⟨?_, hsubs.sublist (filter_sublist.map _), ?_⟩
    · have hkeys : (children.map fun kc => (kc.1, kc.2.removeClientRec clientId)).map Prod.fst =
          children.map Prod.fst := by
        rw [map_map]
        rfl
      exact (hkeys ▸ hnd).sublist (filter_sublist.map _)
    · intro kc hkc
      obtain ⟨hmem, hlive⟩ := mem_filter.mp hkc
      obtain ⟨kc', hkc', rfl⟩ := mem_map.mp hmem
      exact ⟨(hchildren kc' hkc').1, by simpa using hlive,
        ih kc' hkc' (hchildren kc' hkc').2.2⟩

/-- The paths of a well-formed node have no `/` in their segments. -/
lemma slash_notMem_of_mem_entries (hwf : node.WF) {s : Subscription}
    (h : (path, s) ∈ node.entries) : ∀ seg ∈ path, '/' ∉ seg.toList := by
  induction node using ind generalizing path with
  | mk children subscribers ih =>
    obtain ⟨-, -, hchildren⟩ := wf_mk.mp hwf
    rw [entries_mk] at h
    rcases mem_append.mp h with h | h
    · obtain ⟨s', -, heq⟩ := mem_map.mp h
      simp only [Prod.mk.injEq] at heq
      simp [← heq.1]
    · obtain ⟨kc, hkc, hin⟩ := mem_flatMap.mp h
      obtain ⟨e, he, heq⟩ := mem_map.mp hin
      obtain ⟨rfl, rfl⟩ := heq
      exact forall_mem_cons.mpr
        ⟨(hchildren kc hkc).1, ih kc hkc (hchildren kc hkc).2.2 he⟩

/-! ## Collecting and taking a client's subscriptions -/

section

variable (clientId : String) (segments : List String) (node : Node)

/-- `collect_client_rec` lists the client's entries with the filter of each path. -/
lemma collectClientRec_eq : node.collectClientRec clientId segments =
      (node.entries.filter fun e => e.2.clientId == clientId).map
        fun e => e.2.flat (joinLevels (segments ++ e.1)) := by
  induction node using ind generalizing segments with
  | mk children subscribers ih =>
    rw [collectClientRec, entries_mk, filter_append, map_append, filter_map,
      map_map]
    congr 1
    · simp [Function.comp_def]
    · induction children with
      | nil => rfl
      | cons kc rest ihrest =>
        rw [collectClientChildren, flatMap_cons, filter_append, map_append,
          ih kc mem_cons_self, ihrest fun kc' h => ih kc' (mem_cons_of_mem _ h)]
        congr 1
        simp [filter_map, Function.comp_def]

/-- `take_client_rec` does in one walk what `remove_client_rec` and `collect_client_rec` do. -/
lemma takeClientRec_eq : node.takeClientRec clientId segments =
      (node.removeClientRec clientId, node.collectClientRec clientId segments) := by
  induction node using ind generalizing segments with
  | mk children subscribers ih =>
    have hchildren : takeClientChildren clientId segments children =
        (removeClientChildren clientId children,
          collectClientChildren clientId segments children) := by
      induction children with
      | nil => rfl
      | cons kc rest ihrest =>
        rw [takeClientChildren, ih kc mem_cons_self,
          ihrest fun kc' h => ih kc' (mem_cons_of_mem _ h), removeClientChildren,
          collectClientChildren]
    rw [takeClientRec, hchildren, removeClientRec, collectClientRec]
    rfl

end

end Node

end Rusquitto
