import Rusquitto.Server.Heirs
import Rusquitto.Server.Pages
import Rusquitto.Server.Steps

/-!
# What ends a session

A connection that has not ended keeps its session connected or parked, unless somebody else takes
the session: on its own shard a newer CONNECT of the client, or a claim from another shard. All
other work on the shard leaves it alone, load shedding and shutdown apart (`Server.Move.online`).
-/

namespace Rusquitto

open Connection Option

namespace ShardState

variable {s : ShardState}

/-- The generation of a client's session, and whether it is connected or parked. -/
def standing (s : ShardState) (k : String) : Option (ℕ × Bool) :=
  (s.sessions.lookup k).map fun session => (session.generation, session.online)

/-- The client is connected or parked, under this generation. -/
def OnlineAs (s : ShardState) (k : String) (g : ℕ) : Prop :=
  s.standing k = some (g, true)

lemma onlineAs_iff {k : String} {g : ℕ} : s.OnlineAs k g ↔ ∃ session,
    (s.view k).session = some session ∧ session.generation = g ∧ session.online = true := by
  simp only [OnlineAs, standing, map_eq_some_iff, Prod.mk.injEq, session_view]

end ShardState

/-- The phases of a connection that has not ended. -/
def Phase.alive : Phase → Bool
  | .running | .claiming .. | .resuming => true
  | .ending | .willing .. => false

/-- The broker itself takes connections down. -/
def ServerOp.endsConnections : ServerOp → Bool
  | .shed .. | .shutDown => true
  | _ => false

namespace Server

variable {env : Env} {srv srv' : Server} {op : ServerOp} {k : String} {g : ℕ}

/-- The connection of this generation has not ended: it has a task, or it is parked. -/
def Alive (srv : Server) (g : ℕ) : Prop :=
  (∃ id c, srv.tasks id = some c ∧ c.phase.alive = true ∧ c.sessionGeneration = g) ∨
    ∃ slot r, srv.parking.slots.lookup slot = some r ∧ r.sessionGeneration = g

lemma Alive.carried (h : srv.Alive g) : ∃ x, srv.generationOf x = some g := by
  rcases h with ⟨id, c, hc, -, hg⟩ | ⟨slot, r, hr, hg⟩
  · exact ⟨.task id, by rw [Inv.carries_task hc, hg]⟩
  · exact ⟨.slot slot, by rw [generationOf, hr, map_some, hg]⟩

/-! ### A connection that is alive was alive before -/

/-- A task that is alive is new, or opens its session now, or carries on a connection that was
alive. -/
lemma Heir.alive {id : ℕ} {c' : Connection} (h : Heir env srv op id c')
    (halive : c'.phase.alive = true) : c'.sessionGeneration = 0 ∨
      c'.sessionGeneration = srv.shard.nextGeneration + 1 ∨ srv.Alive c'.sessionGeneration := by
  have hcarries {c : Connection} (hc : srv.tasks id = some c) (hphase : c.phase.alive = true)
      (hgen : c'.sessionGeneration = c.sessionGeneration) : srv.Alive c'.sessionGeneration :=
    .inl ⟨id, c, hc, hphase, hgen.symm⟩
  cases h with
  | accepted => exact .inl rfl
  | @processed c p chance hop hc hphase =>
    refine .inr ?_
    rcases c.generation_processOne env srv.shard chance p with hgen | ⟨-, hgen⟩
    · exact .inr (hcarries hc (by rw [hphase]; rfl) ((generation_settle ..).trans hgen))
    · exact .inl ((generation_settle ..).trans hgen)
  | @received c d _ hop hc hphase =>
    refine .inr (.inr (hcarries hc (by rw [hphase]; rfl) ?_))
    exact (generation_settle ..).trans (congrArg
      (fun st => st.identity.sessionGeneration) (standing_receive env c d))
  | claimGoesOn hc hphase => exact .inr (.inr (hcarries hc (by rw [hphase]; rfl) rfl))
  | @claimed c _ assigned chance reply replies hop hc hphase =>
    refine .inr (.inr (hcarries hc (by rw [hphase]; rfl) ?_))
    exact (generation_settle ..).trans (congrArg
      (fun st => st.identity.sessionGeneration) (standing_claimed env c _ chance assigned reply))
  | unparked hop hc hphase => exact .inr (.inr (.inl ⟨_, _, hc, by rw [hphase]; rfl, rfl⟩))
  | woken hop hr => exact .inr (.inr (.inr ⟨_, _, hr, rfl⟩))
  | @reattached c chance _ snapshot queued hop hc hphase =>
    refine .inr (.inr (hcarries hc (by rw [hphase]; rfl) ?_))
    exact (generation_settle ..).trans (congrArg
      (fun st => st.identity.sessionGeneration)
      (standing_resumeDelivery env _ chance.flushFails queued))
  | ended | willing | reattachLost => exact nomatch halive

/-- No piece of work brings back a connection that has ended. -/
lemma Alive.of_move (hmove : Move env srv op srv') (hpos : 0 < g)
    (hle : g ≤ srv.shard.nextGeneration) (h : srv'.Alive g) : srv.Alive g := by
  rcases h with ⟨id, c, hc, hphase, rfl⟩ | ⟨slot, r, hr, rfl⟩
  · rcases hmove.heir hc with hold | hnew
    · exact .inl ⟨id, c, hold, hphase, rfl⟩
    · rcases hnew.alive hphase with hzero | hopened | halive
      · omega
      · omega
      · exact halive
  · rcases hmove.parked hr with hold | ⟨id, c, -, hc, hphase, -, rfl, -⟩
    · exact .inr ⟨slot, r, hold, rfl⟩
    · exact .inl ⟨id, c, hc, by rw [hphase]; rfl, rfl⟩

/-! ### A connection that is alive stays on line -/

lemma Inv.not_alive_of_ending (h : srv.Inv) {id : ℕ} {c : Connection} (hc : srv.tasks id = some c)
    (hphase : c.phase = .ending) (hpos : 0 < c.sessionGeneration) :
    ¬srv.Alive c.sessionGeneration := by
  have hcarried := Inv.carries_task hc
  rintro (⟨x, c', hc', halive, hg⟩ | ⟨slot, r, hr, hg⟩)
  · have hother := Inv.carries_task hc'
    rw [hg] at hother
    obtain rfl := Carrier.task.inj (h.carried_once _ _ _ hpos hother hcarried)
    obtain rfl := some.inj (hc.symm.trans hc')
    rw [hphase] at halive
    exact nomatch halive
  · have hother : srv.generationOf (.slot slot) = some c.sessionGeneration := by
      rw [generationOf, hr, map_some, hg]
    exact Carrier.noConfusion (h.carried_once _ _ _ hpos hother hcarried)

/-- A parked connection that is reaped has ended. -/
lemma Inv.not_alive_reap (h : srv.Inv) {slot : ℕ} {r : ResumeState}
    (hr : srv.parking.slots.lookup slot = some r) (hpos : 0 < r.sessionGeneration)
    (chance : Chance) : ¬(srv.reap env slot chance).Alive r.sessionGeneration := by
  obtain ⟨p, htake⟩ : ∃ p, srv.parking.takeSlot slot = some (p, r) := by
    unfold Parking.takeSlot
    rw [hr]
    exact ⟨_, rfl⟩
  have hfreed : ¬{ srv with parking := p }.Alive r.sessionGeneration := fun halive => by
    obtain ⟨x, hx⟩ := halive.carried
    exact (h.takeSlot htake).2 hpos x hx
  unfold Server.reap
  rw [htake]
  dsimp only
  split
  · exact hfreed
  · split <;> exact hfreed

/-- The piece of work does nothing to the connection of this client and generation but what the
connection itself asks for, and does not end it. -/
structure Spares (env : Env) (srv : Server) (op : ServerOp) (k : String) (g : ℕ) : Prop where
  ends : op.endsConnections = false
  opens : ∀ id connect chance c, op = .packet id (.connect connect) chance →
    srv.tasks id = some c → c.connected = true
  claim : ∀ requester resume, op ≠ .mesh (.control (.claim k requester resume))
  load : ∀ sessions, op ≠ .load sessions
  before : srv.Alive g
  alive : (srv.apply env op).Alive g

lemma Edit.online {v v' : ClientView} (hedit : srv.Edit op k v v') (h : srv.Inv) (hpos : 0 < g)
    (hspares : Spares env srv op k g)
    (hv : ∃ session, v.session = some session ∧ session.generation = g ∧ session.online = true) :
    ∃ session, v'.session = some session ∧ session.generation = g ∧ session.online = true := by
  obtain ⟨session, hs, rfl, honline⟩ := hv
  have hsame : ∃ session', v.session = some session' ∧
      session'.generation = session.generation ∧ session'.online =
        true := ⟨session, hs, rfl, honline⟩
  cases hedit with
  | received hreceives =>
    have hkept := hreceives.session_map (fun session => (session.generation, session.online))
      fun _ _ _ => rfl
    rw [hs, map_some] at hkept
    obtain ⟨session', hs', heq⟩ := map_eq_some_iff.mp hkept
    exact ⟨session', hs', congrArg Prod.fst heq, (congrArg Prod.snd heq).trans honline⟩
  | opened hop hc _ hconnected =>
    rw [hspares.opens _ _ _ _ hop hc] at hconnected
    cases hconnected
  | @closed id c hop hc hphase =>
    have hother : session.generation ≠ c.sessionGeneration := fun hgen =>
      h.not_alive_of_ending hc hphase (hgen ▸ hpos) (hgen ▸ hspares.before)
    rw [ClientView.closed, hs]
    dsimp only
    rw [if_pos hother]
    exact hsame
  | parked =>
    rw [ClientView.parked, hs]
    dsimp only
    split
    · exact hsame
    · exact ⟨_, rfl, rfl, by simp [Session.online, Session.park]⟩
  | reattached =>
    rw [ClientView.reattached, hs]
    dsimp only
    split
    · exact hsame
    · exact ⟨_, rfl, rfl, by simp [Session.online, Session.reattach]⟩
  | @suspended slot r hop hr =>
    rcases hop with rfl | ⟨chance, rfl⟩
    · cases hspares.ends
    · have hother : session.generation ≠ r.sessionGeneration := fun hgen =>
        h.not_alive_reap hr (hgen ▸ hpos) chance (hgen ▸ hspares.alive)
      rw [ClientView.suspended, hs]
      dsimp only
      rw [if_pos (.inl hother)]
      exact hsame
  | willArmed generation will delaySecs =>
    rw [ClientView.willArmed, hs]
    dsimp only
    split
    · exact ⟨_, rfl, rfl, honline⟩
    · exact hsame
  | swept hop hfirst =>
    subst hfirst
    have hkept := lookup_sweepExpired hs (h.lawful k session hs) honline srv.now
    have hview := congrArg ClientView.session (srv.shard.view_sweepExpired srv.now k)
    exact ⟨session, hview ▸ hkept, rfl, honline⟩
  | claimed hop => exact absurd hop (hspares.claim _ _)
  | loaded hop => exact absurd hop (hspares.load _)
  | shed hop =>
    rcases hop with rfl | ⟨_, _, rfl⟩ <;> cases hspares.ends
  | marked | subscribed | unsubscribed | installed => exact hsame

/-- On its own shard only a CONNECT of the client itself ends a session whose connection is alive,
load shedding and shutdown apart. -/
lemma online_apply (h : srv.Inv) (hpos : 0 < g) (hle : g ≤ srv.shard.nextGeneration)
    (hk : srv.Alive g → srv.shard.OnlineAs k g) (hload : ∀ sessions, op ≠ .load sessions)
    (hclaim : ∀ requester resume, op ≠ .mesh (.control (.claim k requester resume)))
    (hends : op.endsConnections = false) (hmesh : srv.shard.meshPeers = 0 → srv.shard.peers = [])
    (hother : ∀ g', accepted srv (srv.apply env op) op ≠ some (k, g'))
    (halive : (srv.apply env op).Alive g) : (srv.apply env op).shard.OnlineAs k g := by
  have hmove := move_apply env srv op
  have hbefore := halive.of_move hmove hpos hle
  have hk := hk hbefore
  by_cases hopens : ∀ id connect chance c, op = .packet id (.connect connect) chance →
      srv.tasks id = some c → c.connected = true
  · have hspares : Spares env srv op k g := ⟨hends, hopens, hclaim, hload, hbefore, halive⟩
    refine ShardState.onlineAs_iff.mpr ?_
    have hsteps := hmove.edits k
    generalize (srv.apply env op).shard.view k = v' at hsteps
    induction hsteps with
    | refl => exact ShardState.onlineAs_iff.mp hk
    | tail _ hedit ih => exact hedit.online h hpos hspares ih
  · push Not at hopens
    obtain ⟨id, connect, chance, c, rfl, -⟩ := hopens
    rcases packet_cases env srv id (.connect connect) chance with ⟨_, heq⟩ | ⟨c, heq⟩ | ⟨k', _, h'⟩
    · rw [apply, heq]
      exact hk
    · rw [apply, heq]
      exact hk
    · -- somebody else's CONNECT
      have hne : k ≠ k' := fun heq =>
        hother _ (heq ▸ accepted_of_opens h h' hmesh (.connect connect) chance)
      rw [ShardState.OnlineAs, ShardState.standing, apply, (h'.opened hmesh).other k hne]
      exact hk

end Server

end Rusquitto
