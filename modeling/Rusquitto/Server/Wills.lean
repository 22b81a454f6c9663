import Rusquitto.Broker.View
import Rusquitto.Server.Tasks

/-!
# The wills a piece of work publishes

A will is published by the task of a connection that has closed (`publishWill`), for a parked
connection that is reaped (`reap`), or by the sweep (`sweep`). `Server.fired` names them with the
generation of the connection they belong to. For the sweep this is a second reading of
`sweepExpired`, which returns messages only (`sweepExpired_wills`).
-/

namespace Rusquitto

open List AList

/-- The messages of one generation. -/
def ofGeneration (g : ℕ) (wills : List (ℕ × Publish)) : List Publish :=
  (wills.filter (·.1 = g)).map Prod.snd

section OfGeneration

variable {α : Type} {F : α → Option (ℕ × Publish)} {g : ℕ} {l : List α}

lemma ofGeneration_append (g : ℕ) (wills wills' : List (ℕ × Publish)) :
    ofGeneration g (wills ++ wills') = ofGeneration g wills ++ ofGeneration g wills' := by
  rw [ofGeneration, filter_append, map_append]
  rfl

lemma ofGeneration_filterMap_none (h : ∀ a ∈ l, ∀ will, F a ≠ some (g, will)) :
    ofGeneration g (l.filterMap F) = [] := by
  rw [ofGeneration, map_eq_nil_iff, filter_eq_nil_iff]
  rintro ⟨g', will⟩ hmem hg
  obtain ⟨a, ha, hF⟩ := mem_filterMap.mp hmem
  exact h a ha will (of_decide_eq_true hg ▸ hF)

/-- When one member of a list has the generation, its will is all there is. -/
lemma ofGeneration_filterMap_one (hnodup : l.Nodup) {a : α} (ha : a ∈ l)
    (h : ∀ a' ∈ l, a' ≠ a → ∀ will, F a' ≠ some (g, will)) :
    ofGeneration g (l.filterMap F) = ofGeneration g (F a).toList := by
  obtain ⟨l₁, l₂, rfl⟩ := append_of_mem ha
  have hnotin : a ∉ l₁ ∧ a ∉ l₂ := by
    rw [nodup_append, nodup_cons] at hnodup
    exact ⟨fun hin => hnodup.2.2 a hin a mem_cons_self rfl, hnodup.2.1.1⟩
  have hone : (a :: l₂).filterMap F = (F a).toList ++ l₂.filterMap F := by
    cases hF : F a <;> simp [hF]
  rw [filterMap_append, hone, ofGeneration_append, ofGeneration_append,
    ofGeneration_filterMap_none (l := l₁), ofGeneration_filterMap_none (l := l₂), append_nil,
    nil_append]
  · intro a' ha'
    exact h a' (by simp [ha']) (by rintro rfl; exact hnotin.2 ha')
  · intro a' ha'
    exact h a' (by simp [ha']) (by rintro rfl; exact hnotin.1 ha')

end OfGeneration

/-- The will that waits in a session, with the generation of the connection that left it. -/
def Session.armedWill (session : Session) : Option (ℕ × Publish) :=
  session.pendingWill.map fun armed => (session.generation, armed.1)

/-- The wills a sweep takes from one session: a will that is due, or the one of a session that ends.
-/
def Session.sweptWills (session : Session) (now : ℕ) : List Publish :=
  (if session.willDue now then session.pendingWill.map Prod.fst else none).toList ++
    (if session.expired now then (session.fireWill now).pendingWill.map Prod.fst else none).toList

namespace ShardState

/-- The wills a sweep takes: those that are due, and those of sessions that end. -/
def sweptWills (s : ShardState) (now : ℕ) : List (ℕ × Publish) :=
  let fired := (s.fireWills now).1
  (s.sessions.values.filter (·.willDue now)).filterMap Session.armedWill ++
    (fired.expiredIds now).filterMap fun k => (fired.sessions.lookup k).bind Session.armedWill

variable (s : ShardState) (now : ℕ) {session : Session}

lemma map_snd_armedWill (session : Session) :
    session.armedWill.map Prod.snd = session.pendingWill.map Prod.fst := by
  unfold Session.armedWill
  rw [Option.map_map]
  rfl

lemma lookup_expireOne_of_ne (acc : ShardState × List Publish) {c k : String} (hk : k ≠ c) :
    (expireOne acc c).1.sessions.lookup k = acc.1.sessions.lookup k := by
  have hview := view_expireOne acc c k
  rw [if_neg hk] at hview
  exact congrArg ClientView.session hview

/-- The sessions that end are looked up one after the other, each in a table from which only others
have gone. -/
lemma wills_foldl_expireOne {ids : List String} (hnodup : ids.Nodup)
    (acc : ShardState × List Publish) :
    (ids.foldl expireOne acc).2 = acc.2 ++ ids.filterMap fun k =>
      (acc.1.sessions.lookup k).bind fun session => session.pendingWill.map Prod.fst := by
  induction ids generalizing acc with
  | nil => simp
  | cons c ids ih =>
    rw [nodup_cons] at hnodup
    have hrest : (ids.filterMap fun k => ((expireOne acc c).1.sessions.lookup k).bind fun session =>
        session.pendingWill.map Prod.fst) =
        ids.filterMap fun k => (acc.1.sessions.lookup k).bind fun session =>
          session.pendingWill.map Prod.fst := by
      refine filterMap_congr fun k hk => ?_
      rw [lookup_expireOne_of_ne acc (by rintro rfl; exact hnodup.1 hk)]
    rw [foldl_cons, ih hnodup.2, hrest]
    unfold expireOne
    cases hs : acc.1.sessions.lookup c with
    | none => simp [hs]
    | some session =>
      cases hwill : session.pendingWill <;> simp [hs, hwill]

/-- The sweep returns these wills, in this order. -/
lemma sweepExpired_wills : (s.sweepExpired now).2 = (s.sweptWills now).map Prod.snd := by
  have hnodup : ((s.fireWills now).1.expiredIds now).Nodup := (keys_nodup _).filter _
  rw [sweepExpired, wills_foldl_expireOne hnodup, sweptWills, map_append,
    map_filterMap, map_filterMap]
  congr 1
  · refine filterMap_congr fun session _ => ?_
    exact (map_snd_armedWill session).symm
  · refine filterMap_congr fun k _ => ?_
    cases (s.fireWills now).1.sessions.lookup k with
    | none => rfl
    | some session => exact (map_snd_armedWill session).symm

lemma lookup_swept (k : String) : (s.sweepExpired now).1.sessions.lookup k =
    (s.sessions.lookup k).bind fun session =>
      if session.expired now then none else some (session.fireWill now) := by
  have hview := congrArg ClientView.session (s.view_sweepExpired now k)
  rw [session_view] at hview
  rw [hview]
  unfold ClientView.swept
  split
  · next hnone => rw [← session_view, hnone]; rfl
  · next session hs =>
    rw [← session_view s, hs, Option.bind_some]
    split <;> rfl

/-- The sweep as a walk over the entries of the table. -/
lemma sweptWills_eq : s.sweptWills now =
    (s.sessions.entries.filterMap fun e => if e.2.willDue now then e.2.armedWill else none) ++
      s.sessions.entries.filterMap fun e =>
        if e.2.expired now then (e.2.fireWill now).armedWill else none := by
  rw [sweptWills]
  congr 1
  · rw [values, filter_map, filterMap_map, filterMap_filter]
    rfl
  · have hkeys : ((s.fireWills now).1.expiredIds now) =
        (s.sessions.entries.filter fun e => e.2.expired now).map Sigma.fst := by
      rw [expiredIds, show (s.fireWills now).1.sessions.keys = s.sessions.entries.map Sigma.fst from
        (map_map ..), filter_map]
      refine congrArg (map Sigma.fst) (filter_congr fun e he => ?_)
      rw [Function.comp_apply, fireWills, lookup_mapValues, mem_lookup_iff.mpr he]
      exact expired_fireWill e.2 now
    rw [hkeys, filterMap_map, filterMap_filter]
    refine filterMap_congr fun e he => ?_
    rw [Function.comp_apply, fireWills, lookup_mapValues, mem_lookup_iff.mpr he]
    rfl

lemma armedWill_fireWill_generation {g : ℕ} {will : Publish}
    (h : (session.fireWill now).armedWill = some (g, will)) : session.generation = g := by
  obtain ⟨armed, -, heq⟩ := Option.map_eq_some_iff.mp h
  have hgen : (session.fireWill now).generation = session.generation := by
    unfold Session.fireWill
    split <;> rfl
  exact hgen.symm.trans (congrArg Prod.fst heq)

lemma armedWill_generation {g : ℕ} {will : Publish} (h : session.armedWill = some (g, will)) :
    session.generation = g := by
  obtain ⟨armed, -, heq⟩ := Option.map_eq_some_iff.mp h
  exact congrArg Prod.fst heq

/-- A generation without a record has no will in the sweep. -/
lemma ofGeneration_sweptWills_none {g : ℕ}
    (h : ∀ k session, s.sessions.lookup k = some session → session.generation ≠ g) :
    ofGeneration g (s.sweptWills now) = [] := by
  have hentry (e : Sigma fun _ : String => Session) (he : e ∈ s.sessions.entries) :
      e.2.generation ≠ g := h e.1 e.2 (mem_lookup_iff.mpr he)
  rw [sweptWills_eq, ofGeneration_append, ofGeneration_filterMap_none fun e he will hF => ?_,
    ofGeneration_filterMap_none fun e he will hF => ?_, append_nil]
  · exact hentry e he (armedWill_fireWill_generation now (Option.ite_none_right_eq_some.mp hF).2)
  · exact hentry e he (armedWill_generation (Option.ite_none_right_eq_some.mp hF).2)

lemma ofGeneration_armedWill (session : Session) :
    ofGeneration session.generation session.armedWill.toList =
      (session.pendingWill.map Prod.fst).toList := by
  cases hwill : session.pendingWill <;> simp [ofGeneration, Session.armedWill, hwill]

/-- A generation has in the sweep what its session has. -/
lemma ofGeneration_sweptWills {k : String} (hs : s.sessions.lookup k = some session)
    (hdistinct : ∀ k' session', s.sessions.lookup k' = some session' →
      session'.generation = session.generation → k' = k) :
    ofGeneration session.generation (s.sweptWills now) = session.sweptWills now := by
  have hmem : (⟨k, session⟩ : Sigma fun _ : String => Session) ∈ s.sessions.entries :=
    mem_lookup_iff.mp hs
  have hnodup : s.sessions.entries.Nodup := s.sessions.nodupKeys.nodup
  have hentry (e : Sigma fun _ : String => Session) (he : e ∈ s.sessions.entries)
      (hne : e ≠ ⟨k, session⟩) : e.2.generation ≠ session.generation := by
    intro heq
    have hs' := mem_lookup_iff.mpr he
    obtain ⟨k', session'⟩ := e
    obtain rfl := hdistinct k' session' hs' heq
    obtain rfl := Option.some.inj (hs.symm.trans hs')
    exact hne rfl
  rw [sweptWills_eq, ofGeneration_append, ofGeneration_filterMap_one hnodup hmem
    fun e he hne will hF => ?_,
    ofGeneration_filterMap_one hnodup hmem fun e he hne will hF => ?_]
  · have hgen : (session.fireWill now).generation = session.generation := by
      unfold Session.fireWill
      split <;> rfl
    congr 1
    · split
      · exact ofGeneration_armedWill session
      · rfl
    · split
      · rw [← hgen]
        exact ofGeneration_armedWill (session.fireWill now)
      · rfl
  · exact hentry e he hne
      (armedWill_fireWill_generation now (Option.ite_none_right_eq_some.mp hF).2)
  · exact hentry e he hne (armedWill_generation (Option.ite_none_right_eq_some.mp hF).2)

end ShardState

/-- The shard after a sweep, once the wills that were due have been delivered. -/
def Server.sweptShard (env : Env) (srv : Server) : ShardState :=
  (srv.shard.sweepExpired srv.now).2.foldl (fun s will => s.deliverLocal env.hash will none)
    (srv.shard.sweepExpired srv.now).1

/-- A sweep reaches the shard and the links to the peers. -/
lemma Server.sweep_frame (env : Env) (srv : Server) (chance : Chance) :
    ∃ links, srv.sweep env chance = { srv with shard := srv.sweptShard env, links } := by
  have hall (wills : List Publish) (srv : Server) :
      ∃ links, wills.foldl (fun srv will => srv.broadcast env chance will) srv =
        { srv with
          shard := wills.foldl (fun s will => s.deliverLocal env.hash will none) srv.shard
          links } := by
    induction wills generalizing srv with
    | nil => exact ⟨_, rfl⟩
    | cons will wills ih =>
      obtain ⟨links, h⟩ := ih (srv.broadcast env chance will)
      exact ⟨links, h⟩
  exact hall _ { srv with shard := (srv.shard.sweepExpired srv.now).1 }

/-- The wills a piece of work publishes, with the generation of the connection each belongs to. -/
def Server.fired (srv : Server) : ServerOp → List (ℕ × Publish)
  | .publishWill id _ =>
    match srv.tasks id with
    | none => []
    | some c =>
      match c.phase with
      | .willing will => [(c.sessionGeneration, will)]
      | _ => []
  | .reap slot _ =>
    match srv.parking.takeSlot slot with
    | none => []
    | some (_, r) =>
      if (srv.shard.suspendParked srv.now r.clientId r.sessionGeneration r.sessionExpiry).2 ∧
          min r.willDelay r.sessionExpiry = 0 then
        r.will.toList.map (r.sessionGeneration, ·)
      else []
  | .sweep _ => srv.shard.sweptWills srv.now
  | _ => []

/-- The teardown of a parked connection: the shard afterwards, and whether the session was still its
own. -/
abbrev Server.suspending (srv : Server) (r : ResumeState) : ShardState × Bool :=
  srv.shard.suspendParked srv.now r.clientId r.sessionGeneration r.sessionExpiry

section

variable {srv : Server} {slot : ℕ} {r : ResumeState} {parking : Parking} (chance : Chance)
  (htaken : srv.parking.takeSlot slot = some (parking, r))
include htaken

lemma Server.fired_reap : srv.fired (.reap slot chance) =
    if (srv.suspending r).2 ∧ min r.willDelay r.sessionExpiry = 0 then
      r.will.toList.map (r.sessionGeneration, ·) else [] := by
  simp only [fired, htaken]

lemma Server.fired_reap_quiet {shard : ShardState} {owned : Bool}
    (hsuspend : srv.suspending r = (shard, owned)) (hwill : r.will = none ∨ owned = false) :
    srv.fired (.reap slot chance) = [] := by
  rw [fired_reap chance htaken, hsuspend]
  rcases hwill with hwill | rfl
  · simp [hwill]
  · simp

lemma Server.fired_reap_arm (hdelay : min r.willDelay r.sessionExpiry ≠ 0) :
    srv.fired (.reap slot chance) = [] := by
  rw [fired_reap chance htaken, if_neg fun hnow => hdelay hnow.2]

end

end Rusquitto
