import Rusquitto.Lib.Dormitory
import Rusquitto.Server.Lives

/-!
# Signals to the parking task

What a shard does to its parked sessions and to the commands for the parking task, read as the desk
of a dormitory (`Lib.Dormitory`): a parked session is a nap, `Wake` and `Close` are the calls. A
delivery to a parked session is a call unless one is pending (`ShardState.Rouses`), a connection or
a claim that takes a parked session leaves a `Close`, and everything else leaves the commands alone.
-/

namespace Rusquitto

open ClientView Option

variable {session : Session} {c : String} {generation : ℕ}

/-- The nap of a parked session: its generation, and whether a wake is pending. -/
def Session.nap (session : Session) : Option (ℕ × Bool) :=
  if session.parked then some (session.generation, session.wakePending) else none

def UnparkCmd.call : UnparkCmd → Lib.Call String
  | .wake clientId => .wake clientId
  | .close clientId generation => .clear clientId generation

lemma UnparkCmd.call_injective : Function.Injective call := by
  intro cmd cmd' heq
  cases cmd <;> cases cmd' <;> cases heq <;> rfl

namespace ShardState

open Lib.Dormitory (Noticed getUp)

def naps (s : ShardState) (k : String) : Option (ℕ × Bool) :=
  (s.sessions.lookup k).bind Session.nap

variable {s s' s'' : ShardState} {k : String}

lemma naps_of_session (hs : s.sessions.lookup k = some session) : s.naps k = session.nap := by
  rw [naps, hs, bind_some]

lemma naps_of_view (h : (s'.view k).session = (s.view k).session) : s'.naps k = s.naps k :=
  congrArg (bind · Session.nap) h

lemma nap_of_parked (h : session.parked = true) :
    session.nap = some (session.generation, session.wakePending) := if_pos h

lemma nap_of_not_parked (h : session.parked = false) : session.nap = none :=
  if_neg (by rw [h]; exact Bool.false_ne_true)

lemma exists_session_of_naps {nap : ℕ × Bool} (h : s.naps k = some nap) : ∃ session,
    s.sessions.lookup k = some session ∧ session.parked = true ∧ session.generation = nap.1 ∧
      session.wakePending = nap.2 := by
  obtain ⟨session, hs, hnap⟩ := bind_eq_some_iff.mp h
  obtain ⟨hparked, heq⟩ := ite_none_right_eq_some.mp hnap
  obtain rfl := some.inj heq
  exact ⟨session, hs, hparked, rfl, rfl⟩

/-! ### Deliveries -/

/-- Sessions of these clients are woken, and nothing else happens to a parked session. -/
structure Rouses (s : ShardState) (called : List String) (s' : ShardState) : Prop where
  naps : ∀ k, Noticed (s.naps k) (called.count k) (s'.naps k)
  unparkTx : s'.unparkTx = s.unparkTx.map (· ++ called.map .wake)

/-- Nobody is woken. -/
lemma Rouses.of_eq (hnaps : ∀ k, s'.naps k = s.naps k) (hcmds : s'.unparkTx = s.unparkTx) :
    Rouses s [] s' where
  naps k := hnaps k ▸ Noticed.refl (s.naps k)
  unparkTx := by
    rw [hcmds]
    cases s.unparkTx <;> simp

lemma Rouses.refl (s : ShardState) : Rouses s [] s := .of_eq (fun _ => rfl) rfl

lemma Rouses.trans {called called' : List String} (h : Rouses s called s')
    (h' : Rouses s' called' s'') : Rouses s (called ++ called') s'' where
  naps k := by
    rw [List.count_append]
    exact (h.naps k).trans (h'.naps k)
  unparkTx := by
    rw [h'.unparkTx, h.unparkTx, map_map]
    refine congrArg (Option.map · s.unparkTx) (funext fun cmds => ?_)
    simp

/-- Some sessions may be woken. -/
def Roused (s s' : ShardState) : Prop := ∃ called, Rouses s called s'

lemma Roused.of_eq (hnaps : ∀ k, s'.naps k = s.naps k) (hcmds : s'.unparkTx = s.unparkTx) :
    Roused s s' :=
  ⟨[], .of_eq hnaps hcmds⟩

lemma Roused.refl (s : ShardState) : Roused s s := ⟨[], .refl s⟩

lemma Roused.trans (h : Roused s s') (h' : Roused s' s'') : Roused s s'' := by
  obtain ⟨called, h⟩ := h
  obtain ⟨called', h'⟩ := h'
  exact ⟨called ++ called', h.trans h'⟩

/-- One delivery. A parked session is woken unless that is pending. -/
lemma roused_deliverTo (s : ShardState) (c : String) (d : Delivery) :
    Roused s (s.deliverTo c d) := by
  unfold deliverTo
  split
  · exact .refl s
  · next session hs =>
    split
    · split
      · exact .of_eq (fun _ => rfl) rfl
      · exact .refl s
    · split
      · next hparked =>
        have hnap := (naps_of_session hs).trans (nap_of_parked hparked)
        refine ⟨if session.wakePending then [] else [c], fun k => ?_, ?_⟩
        · by_cases hk : k = c
          · subst hk
            rw [hnap, naps, AList.lookup_insert, bind_some]
            refine ⟨true, nap_of_parked hparked, ?_⟩
            cases session.wakePending <;> simp
          · have hcount : (if session.wakePending = true then [] else [c]).count k = 0 := by
              split <;> simp [Ne.symm hk]
            rw [hcount, naps, naps, AList.lookup_insert_ne hk]
            exact .refl _
        · split
          · simp
          · rfl
      · next hparked =>
        -- a suspended session only queues
        rw [Bool.not_eq_true] at hparked
        split
        · refine .of_eq (fun k => ?_) rfl
          show ((s.sessions.insert c (session.enqueue d)).lookup k).bind Session.nap = s.naps k
          rw [AList.lookup_insert_eq_ite]
          split
          · next hk =>
            rw [hk, naps_of_session hs, nap_of_not_parked hparked]
            exact nap_of_not_parked hparked
          · rfl
        · exact .refl s

lemma roused_deliverLocal (s : ShardState) (hash : ContentHash) (publish : Publish)
    (publisher : Option String) : Roused s (s.deliverLocal hash publish publisher) := by
  obtain ⟨_, hprepared⟩ := s.deliverLocal_prepared hash publish publisher
  rw [hprepared]
  refine Roused.trans ?_ (Lib.foldl_rel Roused.refl Roused.trans
    (fun s (h : Handover) => s.roused_deliverTo h.2.1 h.2.2) _ _)
  exact .of_eq (fun _ => rfl) rfl

/-! ### Everything that leaves parked sessions alone -/

lemma unparkTx_announce (s : ShardState) (groups : List String) (c : String) (join : Bool) :
    (s.announce groups c join).unparkTx = s.unparkTx := by
  rw [announce_eq]

lemma unparkTx_broadcastShared (s : ShardState) (group c : String) (join : Bool) :
    (s.broadcastShared group c join).unparkTx = s.unparkTx := by
  rw [broadcastShared_eq]

lemma roused_closed (hash : ContentHash) : Closed hash Roused where
  refl := .refl
  trans := .trans
  deliverLocal s := s.roused_deliverLocal hash
  subscribe s filter c opts := by
    refine .of_eq (fun k => naps_of_view ?_) ?_
    · rw [view_subscribe]
      split <;> rfl
    · unfold subscribe
      dsimp only
      split
      · split
        · rw [unparkTx_broadcastShared]
        · rfl
      · rfl
  unsubscribe s filter c group := by
    refine .of_eq (fun k => naps_of_view ?_) ?_
    · rw [view_unsubscribe]
      split <;> rfl
    · unfold unsubscribe
      dsimp only
      split
      · split
        · rw [unparkTx_broadcastShared]
        · rfl
      · rfl

section

variable (s : ShardState)

lemma roused_broadcastClaim (c : String) (resume : Bool) :
    Roused s (s.broadcastClaim c resume) := by
  refine .of_eq (fun k => naps_of_view (by rw [view_broadcastClaim])) ?_
  unfold broadcastClaim
  split
  · rfl
  · rw [foldl_enqueueControl]

lemma roused_installMigrated (c : String) (migrated : MigratedSession) :
    Roused s (s.installMigrated c migrated).1 := by
  refine .of_eq (fun k => naps_of_view ?_) ?_
  · rw [view_installMigrated]
    split <;> rfl
  · show (announce _ _ _ _).unparkTx = _
    rw [unparkTx_announce]

lemma roused_armWill (now : ℕ) (c : String) (generation : ℕ) (will : Publish) (delaySecs : UInt32) :
    Roused s (s.armWill now c generation will delaySecs) := by
  unfold armWill
  split
  · exact .refl s
  · next session hs =>
    split
    · refine .of_eq (fun k => ?_) rfl
      rw [naps, AList.lookup_insert_eq_ite]
      split
      · next hk =>
        rw [hk, naps_of_session hs]
        rfl
      · rfl
    · exact .refl s

lemma roused_shedConnections (order : List String) (max : ℕ) :
    Roused s (s.shedConnections order max).1 := by
  refine .of_eq (fun k => ?_) ?_
  · rcases s.view_shedConnections order max k with h | h
    · exact naps_of_view (by rw [h])
    · have hsession := congrArg session h
      rw [session_view] at hsession
      rw [naps, hsession, shed, bind_map, session_view]
      rfl
  · have hone (acc : ShardState × ℕ) (c : String) :
        (shedOne max acc c).1.unparkTx = acc.1.unparkTx := by
      unfold shedOne
      split
      · rfl
      · split <;> rfl
    have hall (acc : ShardState × ℕ) : (order.foldl (shedOne max) acc).1.unparkTx =
      acc.1.unparkTx := by
      induction order generalizing acc with
      | nil => rfl
      | cons c order ih => exact (ih _).trans (hone acc c)
    exact hall (s, 0)

/-- The sweep ends no parked session: it has no deadline. -/
lemma roused_sweepExpired (now : ℕ)
    (hlawful : ∀ k session, s.sessions.lookup k = some session → session.Lawful) :
    Roused s (s.sweepExpired now).1 := by
  refine .of_eq (fun k => ?_) ?_
  · rw [naps, lookup_swept, naps]
    cases hs : s.sessions.lookup k with
    | none => rfl
    | some session =>
      have hnap : (session.fireWill now).nap = session.nap := by
        unfold Session.fireWill
        split <;> rfl
      rw [bind_some, bind_some]
      split
      · next hexpired =>
        have hparked : session.parked = false := by
          by_contra hp
          rw [Bool.not_eq_false] at hp
          have hdeadline := ((hlawful k session hs).parked hp).2.2
          simp [Session.expired, hdeadline] at hexpired
        rw [nap_of_not_parked hparked]
        rfl
      · exact hnap
  · have hone (acc : ShardState × List Publish) (c : String) :
        (expireOne acc c).1.unparkTx = acc.1.unparkTx := by
      unfold expireOne
      split <;> rfl
    have hall (ids : List String) (acc : ShardState × List Publish) :
        (ids.foldl expireOne acc).1.unparkTx = acc.1.unparkTx := by
      induction ids generalizing acc with
      | nil => rfl
      | cons c ids ih => exact (ih _).trans (hone acc c)
    exact hall _ _

end

/-! ### Taking a parked session -/

/-- The command to close the connection of a parked session. -/
def closing (s : ShardState) (c : String) : List UnparkCmd :=
  ((s.naps c).map fun nap => .close c nap.1).toList

lemma client_of_closing {g : ℕ} (h : .close k g ∈ s.closing c) : k = c := by
  unfold closing at h
  cases hnap : s.naps c with
  | none =>
    rw [hnap] at h
    exact nomatch h
  | some nap =>
    rw [hnap] at h
    obtain ⟨rfl, -⟩ := UnparkCmd.close.inj (List.mem_singleton.mp h)
    rfl

/-- A session is taken over: if it was parked, its connection is to be closed. -/
structure Replaces (s : ShardState) (c : String) (s' : ShardState) : Prop where
  naps : s'.naps = Function.update s.naps c none
  unparkTx : s'.unparkTx = s.unparkTx.map (· ++ s.closing c)

section

variable (s : ShardState) (c : String)

lemma unparkTx_signalCloseParked :
    (s.signalCloseParked c).unparkTx = s.unparkTx.map (· ++ s.closing c) := by
  unfold signalCloseParked closing naps
  cases hs : s.sessions.lookup c with
  | none => simp
  | some session =>
    cases hparked : session.parked <;> simp [hparked, Session.nap]

lemma replaces_openSession (mailbox : ℕ) (cleanStart : Bool) :
    Replaces s c (s.openSession c mailbox cleanStart).1 where
  naps := by
    funext k
    have hview := congrArg session (s.view_openSession c k mailbox cleanStart)
    rw [session_view] at hview
    rw [naps, hview, Function.update_apply]
    split
    · unfold opened
      split
      · rfl
      · split <;> rfl
    · rfl
  unparkTx := by
    show _ = { s with nextGeneration := s.nextGeneration + 1 }.unparkTx.map
      (· ++ { s with nextGeneration := s.nextGeneration + 1 }.closing c)
    rw [← unparkTx_signalCloseParked]
    unfold openSession
    dsimp only
    split
    · rfl
    · split
      · rfl
      · show (announce _ _ _ _).unparkTx = _
        rw [unparkTx_announce]

lemma replaces_handleClaim (requester : ℕ) (resume : Bool) :
    Replaces s c (s.handleClaim c requester resume) where
  naps := by
    funext k
    have hview := congrArg session (s.view_handleClaim c k requester resume)
    rw [session_view] at hview
    rw [naps, hview, Function.update_apply]
    split
    · unfold claimed
      split
      · next hnone => rw [hnone]; rfl
      · rfl
    · rfl
  unparkTx := by
    rw [← unparkTx_signalCloseParked]
    unfold handleClaim
    dsimp only
    split
    · rfl
    · split <;> rfl

end

/-! ### Parking and waking up -/

lemma naps_parkSession {snapshot : SessionSnapshot}
    (h : s.parkSession c generation snapshot = (s', true)) :
    s'.naps = Function.update s.naps c (some (generation, false)) ∧ s'.unparkTx = s.unparkTx ∧
      ∃ session, s.sessions.lookup c = some session ∧ session.generation = generation ∧
        session.mailbox ≠ none := by
  simp only [parkSession] at h
  split at h
  · cases h
  · next session hs =>
    split at h
    · cases h
    · next hguard =>
      rw [not_or, not_not] at hguard
      obtain ⟨rfl, -⟩ := Prod.mk.inj h
      refine ⟨funext fun k => ?_, rfl, session, hs, hguard⟩
      rw [naps, AList.lookup_insert_eq_ite, Function.update_apply]
      split
      · rw [bind_some, nap_of_parked rfl, ← hguard.1]
        rfl
      · rfl

/-- The nap of a session that is given up. -/
lemma getUp_naps (hs : s.sessions.lookup c = some session) (hparked : session.parked = true)
    (k : String) : getUp s.naps c session.generation k = if k = c then none else s.naps k := by
  have hnap := (naps_of_session hs).trans (nap_of_parked hparked)
  unfold getUp
  simp [hnap]

lemma getUp_naps_eq_self
    (h : ∀ session, s.sessions.lookup c = some session → session.generation = generation →
      session.parked = false) : getUp s.naps c generation = s.naps := by
  refine Lib.Dormitory.getUp_eq_self fun b hnap => ?_
  obtain ⟨session, hs, hparked, hgen, -⟩ := exists_session_of_naps hnap
  exact nomatch hparked.symm.trans (h session hs hgen)

lemma naps_reattachParked (s : ShardState) (c : String) (generation mailbox : ℕ) :
    (s.reattachParked c generation mailbox).1.naps = getUp s.naps c generation ∧
      (s.reattachParked c generation mailbox).1.unparkTx = s.unparkTx := by
  unfold reattachParked
  split
  · next hnone =>
    exact ⟨(getUp_naps_eq_self fun _ hs => nomatch hnone.symm.trans hs).symm, rfl⟩
  · next session hs =>
    split
    · next hguard =>
      refine ⟨(getUp_naps_eq_self fun session' hs' hgen => ?_).symm, rfl⟩
      obtain rfl := some.inj (hs.symm.trans hs')
      exact hguard.resolve_left fun hne => hne hgen
    · next hguard =>
      rw [not_or, not_not, Bool.not_eq_false] at hguard
      obtain ⟨rfl, hparked⟩ := hguard
      refine ⟨funext fun k => ?_, rfl⟩
      rw [getUp_naps hs hparked, naps, AList.lookup_insert_eq_ite]
      split <;> rfl

lemma naps_suspendParked (s : ShardState) (now : ℕ) (c : String) (generation : ℕ)
    (expirySecs : UInt32) :
    (s.suspendParked now c generation expirySecs).1.naps = getUp s.naps c generation ∧
      (s.suspendParked now c generation expirySecs).1.unparkTx = s.unparkTx := by
  refine ⟨funext fun k => ?_, ?_⟩
  · have hview := congrArg session (s.view_suspendParked now c k generation expirySecs)
    rw [session_view] at hview
    rw [naps, hview]
    cases hs : s.sessions.lookup c with
    | none =>
      rw [getUp_naps_eq_self fun _ hs' => nomatch hs.symm.trans hs']
      split
      · next hk => rw [hk, suspended, session_view, hs, session_view, hs, naps, hs]
      · rfl
    | some session =>
      by_cases hguard : session.generation ≠ generation ∨ session.parked = false
      · have hself : getUp s.naps c generation = s.naps := getUp_naps_eq_self
          fun session' hs' hgen => by
          obtain rfl := some.inj (hs.symm.trans hs')
          exact hguard.resolve_left fun hne => hne hgen
        rw [hself]
        split
        · next hk =>
          rw [hk, suspended, session_view, hs]
          simp only [if_pos hguard, session_view]
          rfl
        · rfl
      · have hactive := hguard
        rw [not_or, not_not, Bool.not_eq_false] at hactive
        obtain ⟨rfl, hparked⟩ := hactive
        rw [getUp_naps hs hparked]
        split
        · next hk =>
          rw [hk, suspended, session_view, hs]
          simp only [if_neg hguard]
          split <;> rfl
        · rfl
  · unfold suspendParked
    split
    · rfl
    · split
      · rfl
      · rw [unparkTx_announce]
        split <;> rfl

/-- A connection that runs gives its session up: it was not parked. -/
lemma roused_closeSession {now : ℕ} {expirySecs : UInt32} {snapshot : SessionSnapshot}
    {pending : List Delivery}
    (h : ∀ session, s.sessions.lookup c = some session → session.generation = generation →
      session.parked = false) :
    Roused s (s.closeSession now c generation expirySecs snapshot pending).1 := by
  refine .of_eq (fun k => ?_) ?_
  · have hview := congrArg session
      (s.view_closeSession now c k generation expirySecs snapshot pending)
    rw [session_view] at hview
    rw [naps, hview]
    split
    · next hk =>
      subst hk
      unfold closed
      rw [session_view]
      cases hs : s.sessions.lookup k with
      | none => rw [session_view, naps]
      | some session =>
        dsimp only
        split
        · rw [session_view, naps]
        · next hgen =>
          rw [not_not] at hgen
          have hnone := nap_of_not_parked (h session hs hgen)
          rw [naps_of_session hs, hnone]
          split
          · rfl
          · exact nap_of_not_parked (h session hs hgen)
    · rfl
  · unfold closeSession
    split
    · rfl
    · split
      · rfl
      · rw [unparkTx_announce]
        split <;> rfl

end ShardState

end Rusquitto
