import Mathlib.Algebra.Order.Ring.Nat
import Mathlib.Data.List.Dedup
import Mathlib.Data.List.Perm.Subperm
import Rusquitto.Topics.Matching

/-!
# The branches of the trie

Removals prune on the way back up what they left without a subscriber and without a child, so the
nodes of a trie are the levels of its filters and nothing else: the paths of the nodes are the
non-empty prefixes of the stored filters (`Node.exists_mem_descendants_iff`). The bound on their
number and the independence of the history follow from that.
-/

namespace Rusquitto

open List

namespace Node

mutual

/-- The nodes below a node, each with the path that leads to it. -/
def descendants : Node → List (List String × Node)
  | mk children _ => descendantsOf children

def descendantsOf : List (String × Node) → List (List String × Node)
  | [] => []
  | (seg, child) :: rest =>
    (([seg], child) :: (descendants child).map fun x => (seg :: x.1, x.2)) ++ descendantsOf rest

end

lemma descendants_mk (children : List (String × Node)) (subscribers : List Subscription) :
    (mk children subscribers).descendants =
      children.flatMap fun kc => ([kc.1], kc.2) :: kc.2.descendants.map fun x =>
        (kc.1 :: x.1, x.2) := by
  rw [descendants]
  induction children with
  | nil => rfl
  | cons kc rest ih => rw [descendantsOf, ih, flatMap_cons]

variable {node : Node} {path : List String}

lemma cons_mem_descendants {children : List (String × Node)} {subscribers : List Subscription}
    {seg : String} {segs : List String} :
    (seg :: segs, node) ∈ (mk children subscribers).descendants ↔ ∃ child, (seg, child) ∈ children ∧
      (segs = [] ∧ node = child ∨ (segs, node) ∈ child.descendants) := by
  rw [descendants_mk, mem_flatMap]
  constructor
  · rintro ⟨⟨key, child⟩, hmem, hx⟩
    rcases mem_cons.mp hx with heq | hx
    · obtain ⟨⟨rfl, rfl⟩, rfl⟩ := by simpa using heq
      exact ⟨_, hmem, .inl ⟨rfl, rfl⟩⟩
    · obtain ⟨x, hbelow, heq⟩ := mem_map.mp hx
      obtain ⟨⟨rfl, rfl⟩, rfl⟩ := by simpa using heq
      exact ⟨_, hmem, .inr hbelow⟩
  · rintro ⟨child, hmem, ⟨rfl, rfl⟩ | hx⟩
    · exact ⟨_, hmem, mem_cons_self⟩
    · exact ⟨_, hmem, mem_cons_of_mem _ (mem_map.mpr ⟨_, hx, rfl⟩)⟩

lemma nil_notMem_descendants (node n : Node) : ([], n) ∉ node.descendants := by
  obtain ⟨children, subscribers⟩ := node
  simp [descendants_mk]

lemma cons_mem_entries {children : List (String × Node)} {subscribers : List Subscription}
    {seg : String} {segs : List String} {s : Subscription} :
    (seg :: segs, s) ∈ (mk children subscribers).entries ↔
      ∃ child, (seg, child) ∈ children ∧ (segs, s) ∈ child.entries := by
  rw [entries_mk]
  simp

/-- A live node has a subscription at it or further below. -/
lemma exists_mem_entries (hwf : node.WF) (hlive : node.isDead = false) :
    ∃ e, e ∈ node.entries := by
  induction node using ind with
  | mk children subscribers ih =>
    obtain ⟨-, -, hchildren⟩ := wf_mk.mp hwf
    rw [entries_mk]
    match subscribers, children with
    | s :: _, _ => exact ⟨([], s), mem_append_left _ mem_cons_self⟩
    | [], [] => cases hlive
    | [], kc :: rest =>
      obtain ⟨-, hkc, hkcwf⟩ := hchildren kc mem_cons_self
      obtain ⟨e, he⟩ := ih kc mem_cons_self hkcwf hkc
      exact ⟨(kc.1 :: e.1, e.2), mem_append_right _ (mem_flatMap.mpr
        ⟨kc, mem_cons_self, mem_map.mpr ⟨e, he, rfl⟩⟩)⟩

/-- Nothing dead is left below. -/
lemma live_of_mem_descendants (hwf : node.WF) {n : Node} (h : (path, n) ∈ node.descendants) :
    n.isDead = false := by
  induction node using ind generalizing path with
  | mk children subscribers ih =>
    obtain ⟨-, -, hchildren⟩ := wf_mk.mp hwf
    cases path with
    | nil => exact absurd h (nil_notMem_descendants _ _)
    | cons seg segs =>
      obtain ⟨child, hmem, ⟨-, rfl⟩ | hbelow⟩ := cons_mem_descendants.mp h
      · exact (hchildren _ hmem).2.1
      · exact ih _ hmem (hchildren _ hmem).2.2 hbelow

/-- There is a node exactly at the non-empty prefixes of the stored paths. -/
lemma exists_mem_descendants_iff (hwf : node.WF) :
    (∃ n, (path, n) ∈ node.descendants) ↔ path ≠ [] ∧ ∃ e ∈ node.entries, path <+: e.1 := by
  induction node using ind generalizing path with
  | mk children subscribers ih =>
    obtain ⟨-, -, hchildren⟩ := wf_mk.mp hwf
    cases path with
    | nil => simp [nil_notMem_descendants]
    | cons seg segs =>
      rw [and_iff_right (cons_ne_nil seg segs)]
      constructor
      · rintro ⟨n, hn⟩
        obtain ⟨child, hmem, hn⟩ := cons_mem_descendants.mp hn
        obtain ⟨-, hlive, hchild⟩ := hchildren _ hmem
        have hentry : ∃ e ∈ child.entries, segs <+: e.1 := by
          rcases hn with ⟨rfl, -⟩ | hn
          · obtain ⟨e, he⟩ := exists_mem_entries hchild hlive
            exact ⟨e, he, nil_prefix⟩
          · exact ((ih _ hmem hchild).mp ⟨n, hn⟩).2
        obtain ⟨e, he, hprefix⟩ := hentry
        exact ⟨(seg :: e.1, e.2), cons_mem_entries.mpr ⟨child, hmem, he⟩,
          (prefix_cons_inj seg).mpr hprefix⟩
      · rintro ⟨⟨path, s⟩, he, hprefix⟩
        obtain ⟨rest, rfl⟩ := hprefix
        obtain ⟨child, hmem, he⟩ := cons_mem_entries.mp he
        by_cases hsegs : segs = []
        · exact ⟨child, cons_mem_descendants.mpr ⟨child, hmem, .inl ⟨hsegs, rfl⟩⟩⟩
        · obtain ⟨n, hn⟩ := (ih _ hmem (hchildren _ hmem).2.2).mpr
            ⟨hsegs, _, he, prefix_append ..⟩
          exact ⟨n, cons_mem_descendants.mpr ⟨child, hmem, .inr hn⟩⟩

/-- A path leads to one node. -/
lemma nodup_descendants (hwf : node.WF) : (node.descendants.map Prod.fst).Nodup := by
  induction node using ind with
  | mk children subscribers ih =>
    obtain ⟨hnd, -, hchildren⟩ := wf_mk.mp hwf
    rw [descendants_mk, map_flatMap, nodup_flatMap]
    constructor
    · intro kc hkc
      have hpaths := (ih kc hkc (hchildren kc hkc).2.2).map (f := (kc.1 :: ·)) cons_injective
      rw [map_cons, map_map, nodup_cons]
      rw [map_map] at hpaths
      refine ⟨fun hnil => ?_, hpaths⟩
      obtain ⟨x, hx, heq⟩ := mem_map.mp hnil
      have hempty : x.1 = [] := (cons.inj heq).2
      exact nil_notMem_descendants kc.2 x.2 (hempty ▸ hx)
    · refine (pairwise_map.mp hnd).imp fun {kc kc'} hne path hpath hpath' => hne ?_
      -- the first level of a path tells the children apart
      have hhead (kc : String × Node) (h : path ∈ (([kc.1], kc.2) :: kc.2.descendants.map
          fun x => (kc.1 :: x.1, x.2)).map Prod.fst) : path.head? = some kc.1 := by
        obtain ⟨x, hx, rfl⟩ := mem_map.mp h
        rcases mem_cons.mp hx with rfl | hx
        · rfl
        · obtain ⟨y, -, rfl⟩ := mem_map.mp hx
          rfl
      exact Option.some.inj ((hhead kc hpath).symm.trans (hhead kc' hpath'))

end Node

namespace TopicTrie

variable (trie : TopicTrie)

/-- The paths of the nodes are the non-empty prefixes of the stored filters. -/
lemma mem_paths_iff :
    path ∈ trie.root.descendants.map Prod.fst ↔ path ≠ [] ∧ ∃ y ∈ trie.stored, path <+:
      levels y.1 := by
  have hnode : path ∈ trie.root.descendants.map Prod.fst ↔ ∃ n,
    (path, n) ∈ trie.root.descendants := by
    simp
  rw [hnode, Node.exists_mem_descendants_iff trie.wf]
  refine and_congr_right fun _ => ?_
  constructor
  · rintro ⟨e, he, hprefix⟩
    exact ⟨_, mem_map.mpr ⟨e, he, rfl⟩, (levels_joinLevels_of_mem_entries he).symm ▸ hprefix⟩
  · rintro ⟨y, hy, hprefix⟩
    obtain ⟨e, he, rfl⟩ := mem_map.mp hy
    exact ⟨e, he, levels_joinLevels_of_mem_entries he ▸ hprefix⟩

/-- The nodes are no more than the levels of the filters, each filter counted once. -/
lemma length_descendants_le : trie.root.descendants.length ≤
    ((trie.stored.map Prod.fst).dedup.map fun filter => (levels filter).length).sum := by
  have hsubset : trie.root.descendants.map Prod.fst ⊆ (trie.stored.map Prod.fst).dedup.flatMap
      fun filter => (range (levels filter).length).map fun i => (levels filter).take (i + 1) := by
    intro path hpath
    obtain ⟨hne, y, hy, hprefix⟩ := trie.mem_paths_iff.mp hpath
    refine mem_flatMap.mpr ⟨y.1, mem_dedup.mpr (mem_map_of_mem hy), mem_map.mpr ?_⟩
    have hpos := length_pos_iff.mpr hne
    refine ⟨path.length - 1, mem_range.mpr (by have := hprefix.length_le; omega), ?_⟩
    rw [Nat.sub_add_cancel hpos]
    exact (prefix_iff_eq_take.mp hprefix).symm
  have hlength := (subperm_of_subset (Node.nodup_descendants trie.wf) hsubset).length_le
  rw [length_map, length_flatMap] at hlength
  simpa using hlength

/-- Whatever sequence of operations led to a trie, every node other than the root has a subscriber
or a child and lies on the path of a stored filter, the nodes are no more than the levels of the
stored filters, and a trie with the same subscriptions has the same nodes. -/
theorem no_dead_branches (ops ops' : List TrieOp) :
    let trie := TrieOp.run ops
    let trie' := TrieOp.run ops'
    (∀ x ∈ trie.root.descendants, x.2.subscribers ≠ [] ∨ x.2.children ≠ []) ∧
      (∀ x ∈ trie.root.descendants, ∃ y ∈ trie.stored, x.1 <+: levels y.1) ∧
      trie.root.descendants.length ≤
        ((trie.stored.map Prod.fst).dedup.map fun filter => (levels filter).length).sum ∧
      ((∀ y, y ∈ trie.stored ↔ y ∈ trie'.stored) →
        (trie.root.descendants.map Prod.fst).Perm (trie'.root.descendants.map Prod.fst)) := by
  intro trie trie'
  refine ⟨fun x hx => ?_, fun x hx => ?_, trie.length_descendants_le, fun hsame => ?_⟩
  · have hlive := Node.live_of_mem_descendants trie.wf hx
    rw [Node.isDead, Bool.and_eq_false_iff] at hlive
    simpa using hlive
  · exact (trie.mem_paths_iff.mp (mem_map_of_mem hx)).2
  · refine (perm_ext_iff_of_nodup (Node.nodup_descendants trie.wf)
      (Node.nodup_descendants trie'.wf)).mpr ?_
    intro path
    rw [mem_paths_iff, mem_paths_iff]
    simp only [hsame]

end TopicTrie

end Rusquitto
