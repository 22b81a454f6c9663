import Rusquitto.Lib.Replica
import Rusquitto.Server.Steps

/-!
# What a shard publishes

A retained message is stored on the shard that accepts it and on every shard it is forwarded to.
This module says of each piece of work which messages it publishes (`Server.Publishes`): they are
applied to the shard's own retained messages in that order, and in the same order put on the link to
every peer. All other work leaves the retained messages and the links alone.
-/

namespace Rusquitto

open List AList

/-- What a publish does to the retained messages: the topic, and the message it leaves there. -/
def Publish.retainWrite (publish : Publish) : Option (String × Option Publish) :=
  if publish.retain then
    some (publish.topic, if publish.payload = [] then none else some publish)
  else none

lemma Publish.of_retainWrite {publish : Publish} {w : String × Option Publish}
    (h : publish.retainWrite = some w) : publish.retain = true ∧ publish.topic = w.1 := by
  unfold retainWrite at h
  split at h
  · next hretain => exact ⟨hretain, congrArg Prod.fst (Option.some.inj h)⟩
  · exact nomatch h

namespace ShardState

variable {s s' s'' : ShardState}

/-- No publish waits among the control messages. -/
def ControlOnly (s : ShardState) : Prop :=
  ∀ e ∈ s.controlTx.getD [], ∀ publish, e.2 ≠ .publish publish

/-- An operation that leaves the retained messages alone. -/
structure Keeps (s s' : ShardState) : Prop where
  retained : s'.retained = s.retained
  limit : s'.retainedLimit = s.retainedLimit
  mesh : s'.mesh = s.mesh
  outbox : s.ControlOnly → s'.ControlOnly

/-- A call that routes nothing leaves the retained messages alone. -/
lemma Quiet.keeps (h : Quiet s s') : Keeps s s' := by
  obtain ⟨-, _, _, _, _, _, _, msgs, heq, -, hmsgs⟩ := h.posts
  refine ⟨by rw [heq], by rw [heq], by rw [heq], fun hs e he => ?_⟩
  rw [heq] at he
  cases houtbox : s.controlTx with
  | none => simp [houtbox] at he
  | some outbox =>
    simp only [houtbox, Option.map_some, Option.getD_some, mem_append] at he
    rcases he with he | he
    · exact hs e (by rwa [houtbox])
    · exact hmsgs e he

/-! ### A publish -/

/-- Without a limit a publish writes its topic, and nothing else. -/
lemma lookup_retaining (hlimit : s.retainedLimit = 0) (publish : Publish) (topic : String) :
    (s.retaining publish).retained.lookup topic =
      Lib.Replicas.after topic (s.retained.lookup topic) publish.retainWrite.toList := by
  unfold retaining Publish.retainWrite
  cases publish.retain with
  | false => rfl
  | true =>
    simp only [if_true, updateRetain, hlimit, lt_irrefl, false_and, if_false, Option.toList_some,
      Lib.Replicas.after, foldl_cons, foldl_nil]
    by_cases hempty : publish.payload = []
    · simp only [hempty, if_true]
      rw [lookup_erase_eq_ite]
      simp only [eq_comm]
    · simp only [hempty, if_false]
      rw [lookup_insert_eq_ite]
      simp only [eq_comm]

end ShardState

/-! ### The pieces of work -/

namespace Server

variable {srv srv' : Server} {ps : List Publish}

/-- The work publishes the given messages, in this order. -/
structure Publishes (srv srv' : Server) (ps : List Publish) : Prop where
  limit : srv'.shard.retainedLimit = srv.shard.retainedLimit
  mesh : srv'.shard.mesh = srv.shard.mesh
  outbox : srv.shard.ControlOnly → srv'.shard.ControlOnly
  /-- Here they are retained one after the other. -/
  retained : srv.shard.retainedLimit = 0 → ∀ topic, srv'.shard.retained.lookup topic =
    Lib.Replicas.after topic (srv.shard.retained.lookup topic) (ps.filterMap Publish.retainWrite)
  /-- Every peer is sent each of them. -/
  links : srv'.links = srv.links ++ ps.flatMap fun publish => srv.shard.peers.map (·, publish)

/-- What is routed on the way is retained, one message after the other. -/
lemma retained_of_calls {hash : ContentHash} {s s' : ShardState}
    (h : ShardState.Calls hash s ps s') : s'.retainedLimit = s.retainedLimit ∧ s'.mesh = s.mesh ∧
      (s.ControlOnly → s'.ControlOnly) ∧ (s.retainedLimit = 0 → ∀ topic, s'.retained.lookup topic =
        Lib.Replicas.after topic (s.retained.lookup topic) (ps.filterMap Publish.retainWrite)) := by
  induction h with
  | done s => exact ⟨rfl, rfl, id, fun _ _ => rfl⟩
  | quiet hcall _ ih =>
    obtain ⟨hlimit, hmesh, houtbox, hretained⟩ := ih
    have hkeeps := hcall.keeps
    refine ⟨hlimit.trans hkeeps.limit, hmesh.trans hkeeps.mesh,
      fun hs => houtbox (hkeeps.outbox hs),
      fun hzero topic => ?_⟩
    rw [hretained (hkeeps.limit.trans hzero), hkeeps.retained]
  | @deliverLocal s s' routed publish publisher _ ih =>
    obtain ⟨hlimit, hmesh, houtbox, hretained⟩ := ih
    obtain ⟨_, _, _, _, _, hframe⟩ := s.deliverLocal_frame hash publish publisher
    rw [hframe] at hlimit hmesh houtbox hretained
    refine ⟨hlimit, hmesh, houtbox, fun hzero topic => ?_⟩
    rw [hretained hzero, ShardState.lookup_retaining hzero]
    cases hwrite : publish.retainWrite <;> simp [hwrite, Lib.Replicas.after]

/-- Whatever a shard does with no link full, it publishes the messages it routes. -/
lemma publishes_apply (env : Env) (hmesh : srv.shard.meshPeers = 0 → srv.shard.peers = [])
    {op : ServerOp} (hop : op.Local) (hfull : op.fullLinks = []) :
    Publishes srv (srv.apply env op) (srv.routed env op) := by
  have hroutes := routes_apply env srv op
  obtain ⟨hlimit, hkept, houtbox, hretained⟩ := retained_of_calls hroutes.calls
  exact ⟨hlimit, hkept, houtbox, hretained, hroutes.links hop hfull hmesh⟩

/-! ### The retained messages of a run -/

/-- Every message stands under its topic, has a payload and comes from `source`. A limit is kept. -/
structure RetainLaw (source : Publish → Prop) (s : ShardState) : Prop where
  stored : ∀ topic p, s.retained.lookup topic = some p → p.topic = topic ∧ p.payload ≠ [] ∧ source p
  bounded : 0 < s.retainedLimit → s.retained.keys.length ≤ s.retainedLimit

variable {source : Publish → Prop} {s s' : ShardState} {messages : List Publish}

lemma RetainLaw.mono {source' : Publish → Prop} (h : RetainLaw source s)
    (hsource : ∀ p, source p → source' p) : RetainLaw source' s :=
  ⟨fun topic p hp => (h.stored topic p hp).imp_right (.imp_right (hsource p)), h.bounded⟩

lemma RetainLaw.updateRetain (h : RetainLaw source s) {publish : Publish} (hp : source publish) :
    RetainLaw source (s.updateRetain publish) := by
  unfold ShardState.updateRetain
  split
  · refine ⟨fun topic p hlookup => ?_, fun hpos => ?_⟩
    · rw [lookup_erase_eq_ite] at hlookup
      split at hlookup
      · exact nomatch hlookup
      · exact h.stored topic p hlookup
    · rw [keys_erase]
      exact length_erase_le.trans (h.bounded hpos)
  · next hpayload =>
    split
    · exact h
    · next hroom =>
      refine ⟨fun topic p hlookup => ?_, fun hpos => ?_⟩
      · rw [lookup_insert_eq_ite] at hlookup
        split at hlookup
        · next heq => exact Option.some.inj hlookup ▸ ⟨heq.symm, hpayload, hp⟩
        · exact h.stored topic p hlookup
      · -- a new topic found room, and a topic that was there takes none
        have hbound := h.bounded hpos
        dsimp only
        rw [keys_insert, length_cons, length_erase]
        split
        · next hmem =>
          have hkeys := length_pos_of_mem hmem
          omega
        · next hnew =>
          have hfree : ¬ s.retainedLimit ≤ s.retained.keys.length := fun hfull =>
            hroom ⟨hpos, hfull, lookup_eq_none.mpr hnew⟩
          omega

lemma RetainLaw.loadRetained (h : RetainLaw source s) (hsource : ∀ p ∈ messages, source p) :
    RetainLaw source (s.loadRetained messages) := by
  induction messages generalizing s with
  | nil => exact h
  | cons p rest ih =>
    refine ih (s := if p.payload = [] then s else s.updateRetain p) ?_
      fun p hp => hsource p (mem_cons_of_mem _ hp)
    split
    · exact h
    · exact h.updateRetain (hsource p mem_cons_self)

lemma RetainLaw.calls {hash : ContentHash} (hcalls : ShardState.Calls hash s ps s')
    (hps : ∀ p ∈ ps, source p) (h : RetainLaw source s) : RetainLaw source s' := by
  induction hcalls with
  | done => exact h
  | quiet hcall _ ih =>
    have hkeeps := hcall.keeps
    refine ih hps ⟨hkeeps.retained ▸ h.stored, ?_⟩
    rw [hkeeps.limit, hkeeps.retained]
    exact h.bounded
  | @deliverLocal s s' routed publish publisher _ ih =>
    have hretaining : RetainLaw source (s.retaining publish) := by
      unfold ShardState.retaining
      split
      · exact h.updateRetain (hps publish mem_cons_self)
      · exact h
    obtain ⟨_, _, _, _, _, hframe⟩ := s.deliverLocal_frame hash publish publisher
    obtain ⟨_, hretained⟩ := s.retaining_frame publish
    rw [hretained] at hframe hretaining
    rw [hframe] at ih
    exact ih (fun p hp => hps p (mem_cons_of_mem _ hp)) ⟨hretaining.stored, hretaining.bounded⟩

end Server

end Rusquitto
