import Rusquitto.Server.Signals

/-!
# The parking task as the clerk of a dormitory

`Server.dormitory` reads the parked sessions, the commands to the parking task, the registry and the
tasks of waking connections off a shard. Every piece of work is a turn of that dormitory
(`Server.Inv.signals`), given that a connection parks only when the parking task has closed the
connections it took over from (`Server.Orderly`). So the dormitory stays lawful, and no parked
connection is forgotten.
-/

namespace Rusquitto

open Connection ShardState Function Option UnparkCmd AList
open Lib.Dormitory (Noticed getUp)

variable {c : Connection} {id slot : ℕ} {task : Option Connection} {shard : ShardState}
  {p parking : Parking} {r : ResumeState} {k clientId : String} {rest : List UnparkCmd}
  {owned : Bool}

/-- A connection that wakes up. -/
def Connection.rising (c : Connection) : Option (String × ℕ) :=
  match c.phase with
  | .resuming => some (c.clientId, c.sessionGeneration)
  | _ => none

lemma Connection.rising_of_resuming (h : c.phase = .resuming) :
    c.rising = some (c.clientId, c.sessionGeneration) := by
  unfold rising
  rw [h]

lemma Connection.resuming_of_rising {entry : String × ℕ} (h : c.rising = some entry) :
    c.phase = .resuming ∧ entry = (c.clientId, c.sessionGeneration) := by
  unfold rising at h
  split at h
  · next hphase => exact ⟨hphase, (some.inj h).symm⟩
  · exact nomatch h

section

variable (env : Env) (c : Connection) (shard : ShardState) (chance : Chance)

lemma Connection.roused_openHandle (cleanStart assigned : Bool) :
    (shard.openSession c.clientId c.mailboxRx cleanStart).1.Roused
      (c.openHandle env shard chance cleanStart assigned).shard :=
  shard_openHandle env c shard chance cleanStart assigned (.refl _)
    (fun _ h => h.trans (.of_eq (fun _ => rfl) rfl)) fun _ _ h =>
      h.trans (roused_broadcastClaim _ _ _)

lemma Connection.roused_claimed (assigned : Bool) (found : Option MigratedSession) :
    shard.Roused (c.claimed env shard chance assigned found).shard := by
  unfold claimed
  split
  · exact .of_eq (fun _ => rfl) rfl
  · have hsame : shard.Roused (shard.unregisterClaim c.clientId) := .of_eq (fun _ => rfl) rfl
    exact hsame.trans (roused_installMigrated _ _ _)

end

/-- The session of a client, if there is one, has begun in between. -/
def ShardState.Superseded (s : ShardState) (k : String) (s' : ShardState) : Prop :=
  ∀ session, s'.sessions.lookup k = some session → s.nextGeneration < session.generation

namespace Server

def dormitory (srv : Server) : Lib.Dormitory String where
  naps := srv.shard.naps
  calls := srv.shard.unparkTx.map (List.map UnparkCmd.call)
  beds slot := (srv.parking.slots.lookup slot).map fun r => (r.clientId, r.sessionGeneration)
  index k := srv.parking.byClient.lookup k
  rising id := (srv.tasks id).bind rising

/-- The commands that are left when a piece of work begins: the parking task takes one. -/
def awaiting (srv : Server) : ServerOp → Option (List UnparkCmd)
  | .parkingCmd => srv.shard.unparkTx.map List.tail
  | _ => srv.shard.unparkTx

variable {env : Env} {srv srv' : Server} {op : ServerOp}

/-- The piece of work is a turn of the dormitory, which leaves these commands. -/
structure Signals (srv : Server) (op : ServerOp) (srv' : Server) (cmds : List UnparkCmd) :
    Prop where
  turn : srv.dormitory.Turn (cmds.map UnparkCmd.call) srv'.dormitory
  unparkTx : srv'.shard.unparkTx = (srv.awaiting op).map (· ++ cmds)
  /-- A connection is closed when a newer one has its session, or none. -/
  replaced : ∀ k g, .close k g ∈ cmds → srv.shard.Superseded k srv'.shard

/-- A step, and then deliveries. -/
lemma exists_signals {srv₁ : Server} {cmds : List UnparkCmd}
    (hstep : srv.dormitory.Step (cmds.map call) srv₁.dormitory)
    (hcmds : srv₁.shard.unparkTx = (srv.awaiting op).map (· ++ cmds))
    (hreplaced : ∀ k g, .close k g ∈ cmds → srv.shard.Superseded k srv'.shard)
    (hroused : srv₁.shard.Roused srv'.shard) (hparking : srv'.parking = srv₁.parking)
    (hrising : srv'.dormitory.rising = srv₁.dormitory.rising) : ∃ cmds,
      Signals srv op srv' cmds := by
  obtain ⟨called, hr⟩ := hroused
  refine ⟨cmds ++ called.map .wake,
    ⟨srv₁.dormitory, _, called, hstep, ⟨hr.naps, ?_, ?_, ?_, hrising⟩, ?_⟩, ?_,
    fun k g hmem => ?_⟩
  · show srv'.shard.unparkTx.map _ = (srv₁.shard.unparkTx.map _).map _
    rw [hr.unparkTx, map_map, map_map]
    refine congrArg (Option.map · srv₁.shard.unparkTx) (funext fun cmds => ?_)
    simp [comp_def, call]
  · funext slot
    rw [dormitory, hparking]
    rfl
  · funext k
    rw [dormitory, hparking]
    rfl
  · simp [comp_def, call]
  · rw [hr.unparkTx, hcmds, map_map]
    refine congrArg (Option.map · (srv.awaiting op)) (funext fun cmds => ?_)
    simp
  · rcases List.mem_append.mp hmem with hmem | hmem
    · exact hreplaced k g hmem
    · obtain ⟨_, -, heq⟩ := List.mem_map.mp hmem
      exact nomatch heq

/-- Work that leaves parked connections alone. -/
lemma signals_rest (hop : srv.awaiting op = srv.shard.unparkTx)
    (hroused : srv.shard.Roused srv'.shard)
    (hparking : srv'.parking = srv.parking)
    (hrising : srv'.dormitory.rising = srv.dormitory.rising) :
    ∃ cmds, Signals srv op srv' cmds := by
  have hstep : srv.dormitory.Step (([] : List UnparkCmd).map call) srv.dormitory := .rest
  refine exists_signals hstep ?_ (by simp) hroused hparking hrising
  rw [hop]
  cases srv.shard.unparkTx <;> simp

lemma rising_update (htasks : srv'.tasks = update srv.tasks id task) : srv'.dormitory.rising =
      update srv.dormitory.rising id (task.bind rising) := by
  funext id'
  show (srv'.tasks id').bind _ = _
  rw [htasks, update_apply, update_apply]
  split <;> rfl

section

variable (hc : srv.tasks id = some c) (hphase : c.phase ≠ .resuming)
include hc hphase

/-- A connection that does not wake up goes on, or ends. -/
lemma rising_same (htasks : srv'.tasks = update srv.tasks id task)
    (htask : ∀ c', task = some c' → c'.phase ≠ .resuming) :
    srv'.dormitory.rising = srv.dormitory.rising := by
  have hnone (c : Connection) (h : c.phase ≠ .resuming) : c.rising = none := by
    unfold rising
    split
    · next hphase => exact absurd hphase h
    · rfl
  have hold : srv.dormitory.rising id = none := by
    show (srv.tasks id).bind _ = none
    rw [hc, bind_some, hnone c hphase]
  have hnew : task.bind rising = none := by
    cases task with
    | none => rfl
    | some c' => exact hnone c' (htask c' rfl)
  rw [rising_update htasks, hnew, ← hold, update_eq_self]

lemma rising_gone (htasks : srv'.tasks = update srv.tasks id none) :
    srv'.dormitory.rising = srv.dormitory.rising :=
  rising_same hc hphase htasks fun _ hnone => nomatch hnone

end

/-! ### Turns of a connection -/

lemma not_resuming_of_holding {phase : Phase} (h : phase.holding = true) : phase ≠ .resuming := by
  rintro rfl
  exact nomatch h

section

variable (hop : srv.awaiting op = srv.shard.unparkTx) (hc : srv.tasks id = some c)
include hop hc

lemma signals_turn {turn : Turn} (hphase : c.phase.holding = true)
    (hphase' : turn.conn.phase.holding = true) (hroused : srv.shard.Roused turn.shard) :
    ∃ cmds, Signals srv op (srv.finishTurn id turn) cmds := by
  have hroused : srv.shard.Roused (srv.finishTurn id turn).shard := hroused
  refine signals_rest hop hroused rfl
    (rising_same hc (not_resuming_of_holding hphase) rfl fun c' hc' => ?_)
  rw [← some.inj hc']
  exact not_resuming_of_holding (holding_settle hphase' turn.outcome)

/-- A task goes on, or ends, and no parked session is concerned. -/
lemma signals_task {links : List (ℕ × Publish)} (hphase : c.phase ≠ .resuming)
    (htask : ∀ c', task = some c' → c'.phase ≠ .resuming) (hroused : srv.shard.Roused shard) :
    ∃ cmds, Signals srv op { srv.setTask id task with shard, links } cmds :=
  signals_rest hop hroused rfl (rising_same hc hphase rfl htask)

end

/-- A session is taken, from a parked connection perhaps. -/
lemma step_replaces {srv₁ : Server} {c : String} (hr : srv.shard.Replaces c srv₁.shard)
    (hparking : srv₁.parking = srv.parking)
    (hrising : srv₁.dormitory.rising = srv.dormitory.rising) :
    srv.dormitory.Step ((srv.shard.closing c).map call) srv₁.dormitory := by
  cases hnap : srv.shard.naps c with
  | none =>
    have hclosing : srv.shard.closing c = [] := by
      rw [closing, hnap]
      rfl
    have hsame : srv₁.dormitory = srv.dormitory := by
      refine Lib.Dormitory.ext ?_ ?_ (by rw [dormitory, hparking]; rfl)
        (by rw [dormitory, hparking]; rfl)
        hrising
      · show srv₁.shard.naps = srv.shard.naps
        rw [hr.naps, ← hnap, update_eq_self]
      · show srv₁.shard.unparkTx.map _ = srv.shard.unparkTx.map _
        rw [hr.unparkTx, hclosing]
        cases srv.shard.unparkTx <;> simp
    rw [hclosing, hsame]
    exact .rest
  | some nap =>
    have hclosing : srv.shard.closing c = [.close c nap.1] := by
      rw [closing, hnap]
      rfl
    have hreplaced : srv₁.dormitory = { srv.dormitory with
        naps := update srv.dormitory.naps c none
        calls := srv.dormitory.calls.map (· ++ [.clear c nap.1]) } := by
      refine Lib.Dormitory.ext hr.naps ?_ (by rw [dormitory, hparking]; rfl)
        (by rw [dormitory, hparking]; rfl) hrising
      show srv₁.shard.unparkTx.map _ = (srv.shard.unparkTx.map _).map _
      rw [hr.unparkTx, hclosing, map_map, map_map]
      refine congrArg (Option.map · srv.shard.unparkTx) (funext fun cmds => ?_)
      simp [call]
    rw [hclosing, hreplaced]
    exact .replace hnap

lemma signals_packet (hc : srv.tasks id = some c) (hphase : c.phase = .running) (p : Packet)
    (chance : Chance) :
    ∃ cmds, Signals srv (.packet id p chance)
      (srv.finishTurn id (c.processOne env srv.shard chance p))
      cmds := by
  have hholding : c.phase.holding = true := by
    rw [hphase]
    rfl
  have hholding' := holding_processOne env hphase srv.shard chance p
  have hanswer := answer_processOne env c srv.shard chance p
  generalize c.processOne env srv.shard chance p = turn at hanswer hholding'
  cases hanswer with
  | served _ hturn =>
    have hroused := closed_dispatch (roused_closed env.hash) c srv.shard chance p
    rw [← hturn] at hroused
    exact signals_turn rfl hc hholding hholding' hroused
  | refused _ _ hturn =>
    have hroused : srv.shard.Roused turn.shard := by
      rw [hturn]
      exact .of_eq (fun _ => rfl) rfl
    exact signals_turn rfl hc hholding hholding' hroused
  | @opened c₁ n connect _ _ _ _ hturn =>
    -- the session is opened, and after that only claims are sent
    have hopen := replaces_openSession { srv.shard with nextAssignedId := n } c₁.clientId
      c₁.mailboxRx connect.cleanSession
    have hreplaces : srv.shard.Replaces c₁.clientId
        ({ srv.shard with nextAssignedId := n }.openSession c₁.clientId c₁.mailboxRx
          connect.cleanSession).1 := ⟨hopen.naps, hopen.unparkTx⟩
    have hroused := roused_openHandle env c₁ { srv.shard with nextAssignedId := n } chance
      connect.cleanSession (connect.clientId = "")
    rw [← hturn] at hroused
    have hstep : srv.dormitory.Step ((srv.shard.closing c₁.clientId).map call)
        ({ srv with shard := ({ srv.shard with nextAssignedId := n }.openSession c₁.clientId
          c₁.mailboxRx connect.cleanSession).1 } : Server).dormitory :=
      step_replaces hreplaces rfl rfl
    have hrewrites := rewrites_openHandle env c₁ { srv.shard with nextAssignedId := n } chance
      connect.cleanSession (connect.clientId = "")
    rw [← hturn] at hrewrites
    have hreplaced (k : String) (g : ℕ) (hmem : .close k g ∈ srv.shard.closing c₁.clientId) :
        srv.shard.Superseded k turn.shard := by
      obtain rfl := client_of_closing hmem
      intro session hs
      have hrecord := hrewrites c₁.clientId
      rw [hs, if_pos rfl] at hrecord
      have hgen : session.generation = srv.shard.nextGeneration + 1 :=
        congrArg Session.Outline.generation (some.inj hrecord)
      omega
    refine exists_signals hstep hreplaces.unparkTx hreplaced hroused rfl
      (rising_same hc (not_resuming_of_holding hholding) rfl fun c' hc' => ?_)
    rw [← some.inj hc']
    exact not_resuming_of_holding (holding_settle hholding' turn.outcome)

/-! ### The registry -/

lemma takeSlot_eq {p' : Parking} (h : p.takeSlot slot = some (p', r)) :
    p.slots.lookup slot = some r ∧
      p' = { p with slots := p.slots.erase slot, byClient := p.byClient.erase r.clientId } := by
  obtain ⟨r', hr, heq⟩ := map_eq_some_iff.mp h
  obtain ⟨rfl, rfl⟩ := Prod.mk.inj heq
  exact ⟨hr, rfl⟩

lemma takeByClient_eq {p' : Parking} {generation : Option ℕ}
    (h : p.takeByClient k generation = some (p', r)) : ∃ slot, p.byClient.lookup k = some slot ∧
      p.takeSlot slot = some (p', r) ∧ ∀ g ∈ generation, g = r.sessionGeneration := by
  obtain ⟨slot, hindex, hfilter⟩ := bind_eq_some_iff.mp h
  obtain ⟨htake, hall⟩ := filter_eq_some_iff.mp hfilter
  refine ⟨slot, hindex, htake, fun g hg => ?_⟩
  rw [hg] at hall
  exact of_decide_eq_true hall

lemma takeByClient_eq_none {generation : Option ℕ} (h : p.takeByClient k generation = none)
    (hindex : p.byClient.lookup k = some slot) (hr : p.slots.lookup slot = some r) :
    ∃ g ∈ generation, g ≠ r.sessionGeneration := by
  unfold Parking.takeByClient Parking.takeSlot at h
  rw [hindex, bind_some, hr] at h
  cases generation with
  | none => exact nomatch h
  | some g =>
    refine ⟨g, rfl, fun heq => ?_⟩
    simp [heq] at h

lemma beds_lookup (h : srv.parking.slots.lookup slot = some r) :
    srv.dormitory.beds slot = some (r.clientId, r.sessionGeneration) := by
  show (srv.parking.slots.lookup slot).map _ = _
  rw [h]
  rfl

lemma beds_erase (hslots : srv'.parking.slots = srv.parking.slots.erase slot) :
    srv'.dormitory.beds = update srv.dormitory.beds slot none := by
  funext slot'
  show (srv'.parking.slots.lookup slot').map _ = _
  rw [hslots, lookup_erase_eq_ite, update_apply]
  split <;> rfl

lemma index_erase (hclients : srv'.parking.byClient = srv.parking.byClient.erase k) :
    srv'.dormitory.index = update srv.dormitory.index k none := by
  funext k'
  show srv'.parking.byClient.lookup k' = _
  rw [hclients, lookup_erase_eq_ite, update_apply]
  rfl

lemma calls_eq {cmds : List UnparkCmd} (hcmds : srv.shard.unparkTx = some cmds) :
    srv.dormitory.calls = some (cmds.map call) := by
  show srv.shard.unparkTx.map _ = _
  rw [hcmds]
  rfl

/-- A step that leaves no commands, and no deliveries. -/
lemma signals_step {d : Lib.Dormitory String} (hstep : srv.dormitory.Step [] d)
    (hcmds : srv'.shard.unparkTx = srv.awaiting op) (hdorm : srv'.dormitory = d) :
    ∃ cmds, Signals srv op srv' cmds := by
  subst hdorm
  have hstep : srv.dormitory.Step (([] : List UnparkCmd).map call) srv'.dormitory := hstep
  refine exists_signals hstep ?_ (by simp) (.refl _) rfl rfl
  rw [hcmds]
  cases srv.awaiting op <;> simp

lemma Inv.rising_nextChannel (h : srv.Inv) : srv.dormitory.rising srv.nextChannel = none := by
  show (srv.tasks srv.nextChannel).bind _ = none
  rw [h.tasks_lt _ le_rfl]
  rfl

lemma rising_spawn (srv : Server) (shardId : ℕ) (limits : LimitsConfig) (r : ResumeState) :
    (srv.spawn fun id => .resume id shardId limits r).dormitory.rising =
      update srv.dormitory.rising srv.nextChannel (some (r.clientId, r.sessionGeneration)) := by
  have htasks : (srv.spawn fun id => .resume id shardId limits r).tasks =
      update srv.tasks srv.nextChannel (some (.resume srv.nextChannel shardId limits r)) := rfl
  rw [rising_update htasks]
  rfl

/-- The parking task has a command to wake a connection, and finds it. -/
lemma Inv.signals_wake (h : srv.Inv) (hcmds : srv.shard.unparkTx = some (.wake clientId :: rest))
    (htaken : srv.parking.takeByClient clientId none = some (parking, r)) :
    ∃ cmds, Signals srv .parkingCmd
      ({ srv with parking, shard := { srv.shard with unparkTx := some rest } }.spawn fun id =>
        .resume id srv.shardId srv.limits r) cmds := by
  obtain ⟨slot, hindex, htake, -⟩ := takeByClient_eq htaken
  obtain ⟨hr, rfl⟩ := takeSlot_eq htake
  have hstep := Lib.Dormitory.Step.wake srv.nextChannel (calls_eq hcmds) hindex (beds_lookup hr)
    h.rising_nextChannel
  refine signals_step hstep (by simp [awaiting, hcmds]; rfl) ?_
  exact Lib.Dormitory.ext rfl rfl (beds_erase rfl) (index_erase rfl) (rising_spawn ..)

lemma signals_wakeMissed (hcmds : srv.shard.unparkTx = some (.wake clientId :: rest))
    (htaken : srv.parking.takeByClient clientId none = none) :
    ∃ cmds, Signals srv .parkingCmd { srv with shard := { srv.shard with unparkTx := some rest } }
      cmds := by
  have hstep := Lib.Dormitory.Step.wakeMissed (d := srv.dormitory) (calls_eq hcmds)
    fun slot hindex => by
    show (srv.parking.slots.lookup slot).map _ = none
    cases hr : srv.parking.slots.lookup slot with
    | none => rfl
    | some r =>
      obtain ⟨_, hg, -⟩ := takeByClient_eq_none htaken hindex hr
      exact nomatch hg
  exact signals_step hstep (by simp [awaiting, hcmds]) rfl

/-- The parking task has a command to close a connection, and finds it. -/
lemma signals_dismiss {generation : ℕ}
    (hcmds : srv.shard.unparkTx = some (.close clientId generation :: rest))
    (htaken : srv.parking.takeByClient clientId (some generation) = some (parking, r)) :
    ∃ cmds, Signals srv .parkingCmd
      { srv with parking, shard := { srv.shard with unparkTx := some rest } } cmds := by
  obtain ⟨slot, hindex, htake, hgen⟩ := takeByClient_eq htaken
  obtain ⟨hr, rfl⟩ := takeSlot_eq htake
  have hstep := Lib.Dormitory.Step.clear (calls_eq hcmds) hindex (beds_lookup hr)
    (hgen generation rfl).symm
  refine signals_step hstep (by simp [awaiting, hcmds]) ?_
  exact Lib.Dormitory.ext rfl rfl (beds_erase rfl) (index_erase rfl) rfl

lemma signals_dismissMissed {generation : ℕ}
    (hcmds : srv.shard.unparkTx = some (.close clientId generation :: rest))
    (htaken : srv.parking.takeByClient clientId (some generation) = none) :
    ∃ cmds, Signals srv .parkingCmd { srv with shard := { srv.shard with unparkTx := some rest } }
      cmds := by
  have hstep := Lib.Dormitory.Step.clearMissed (d := srv.dormitory) (calls_eq hcmds)
    fun slot hindex entry hbed heq => by
      obtain ⟨r, hr, rfl⟩ := map_eq_some_iff.mp hbed
      obtain ⟨g, hg, hne⟩ := takeByClient_eq_none htaken hindex hr
      exact hne ((some.inj hg).symm.trans heq.symm)
  exact signals_step hstep (by simp [awaiting, hcmds]) rfl

lemma Inv.signals_ingress (h : srv.Inv) (htaken : srv.parking.takeSlot slot = some (parking, r)) :
    ∃ cmds, Signals srv (.ingress slot)
      ({ srv with parking }.spawn fun id => .resume id srv.shardId srv.limits r) cmds := by
  obtain ⟨hr, rfl⟩ := takeSlot_eq htaken
  have hstep := Lib.Dormitory.Step.rise srv.nextChannel (beds_lookup hr) h.rising_nextChannel
  refine signals_step hstep rfl ?_
  exact Lib.Dormitory.ext rfl rfl (beds_erase rfl) (index_erase rfl) (rising_spawn ..)

/-- A parked connection is reaped; its will may be published then. -/
lemma signals_reap (chance : Chance) (htaken : srv.parking.takeSlot slot = some (parking, r))
    (hsuspend : srv.suspending r = (shard, owned)) (hparking : srv'.parking = parking)
    (htasks : srv'.tasks = srv.tasks) (hroused : shard.Roused srv'.shard) : ∃ cmds,
      Signals srv (.reap slot chance) srv' cmds := by
  obtain ⟨hr, rfl⟩ := takeSlot_eq htaken
  obtain ⟨hnaps, hcmds⟩ := srv.shard.naps_suspendParked srv.now r.clientId r.sessionGeneration
    r.sessionExpiry
  simp only [hsuspend] at hnaps hcmds
  have hstep := Lib.Dormitory.Step.evict (beds_lookup hr)
  have hdorm : ({ srv with
      shard
      parking := { srv.parking with
        slots := srv.parking.slots.erase slot
        byClient := srv.parking.byClient.erase r.clientId } } : Server).dormitory =
      { srv.dormitory with
        naps := getUp srv.dormitory.naps r.clientId r.sessionGeneration
        beds := update srv.dormitory.beds slot none
        index := update srv.dormitory.index r.clientId none } := by
    refine Lib.Dormitory.ext hnaps ?_ (beds_erase rfl) (index_erase rfl) rfl
    show shard.unparkTx.map _ = _
    rw [hcmds]
    rfl
  rw [← hdorm] at hstep
  have hstep : srv.dormitory.Step (([] : List UnparkCmd).map call) _ := hstep
  refine exists_signals hstep ?_ (by simp) hroused hparking ?_
  · show shard.unparkTx = srv.shard.unparkTx.map (· ++ [])
    rw [hcmds]
    cases srv.shard.unparkTx <;> simp
  · funext id
    show (srv'.tasks id).bind _ = (srv.tasks id).bind _
    rw [htasks]

/-- A connection that was waking up gets its session back, or finds it gone. -/
lemma signals_reattach {c' : Connection} (chance : Chance) (hc : srv.tasks id = some c)
    (hphase : c.phase = .resuming) (hphase' : c'.phase ≠ .resuming)
    (htasks : srv'.tasks = update srv.tasks id (some c'))
    (hshard : srv'.shard = (srv.shard.reattachParked c.clientId c.sessionGeneration id).1)
    (hparking : srv'.parking = srv.parking) :
    ∃ cmds, Signals srv (.reattach id chance) srv' cmds := by
  obtain ⟨hnaps, hcmds⟩ := srv.shard.naps_reattachParked c.clientId c.sessionGeneration id
  rw [← hshard] at hnaps hcmds
  have hrising : srv.dormitory.rising id = some (c.clientId, c.sessionGeneration) := by
    show (srv.tasks id).bind _ = _
    rw [hc, bind_some, rising_of_resuming hphase]
  have hnone : c'.rising = none := by
    unfold rising
    split
    · next heq => exact absurd heq hphase'
    · rfl
  refine signals_step (Lib.Dormitory.Step.getUp hrising) hcmds ?_
  refine Lib.Dormitory.ext hnaps ?_ (by rw [dormitory, hparking]; rfl)
    (by rw [dormitory, hparking]; rfl) ?_
  · show srv'.shard.unparkTx.map _ = _
    rw [hcmds]
    rfl
  · rw [rising_update htasks, bind_some, hnone]

/-- A connection parks only after the parking task has closed those it took over from; sessions are
loaded before there are connections. -/
def Orderly (srv : Server) : ServerOp → Prop
  | .park id _ => ∀ c session, srv.tasks id = some c →
    srv.shard.sessions.lookup c.clientId = some session → session.generation = c.sessionGeneration →
    ∀ cmds, srv.shard.unparkTx = some cmds → ∀ g, .close c.clientId g ∉ cmds
  | .load _ => (∀ id, srv.tasks id = none) ∧ srv.parking.slots = ∅
  | _ => True

/-- The session of a connection that parks. -/
lemma Inv.mayRetire (h : srv.Inv) (hc : srv.tasks id = some c) (hguard : srv.ParkAllowed id)
    (hflip : srv.flipping c = (shard, true)) {dupFails : Bool}
    (horderly : srv.Orderly (.park id dupFails)) :
    srv.dormitory.MayRetire c.clientId ∧ 0 < c.sessionGeneration := by
  obtain ⟨-, -, session, hs, hgen, hmailbox⟩ := naps_parkSession hflip
  have hlive := (h.lawful _ session hs).live (isSome_iff_ne_none.mpr hmailbox)
  obtain ⟨cmds, hcmds⟩ := isSome_iff_exists.mp hguard.unparkTx
  refine ⟨⟨?_, (isSome_map ..).trans hguard.unparkTx, ?_⟩, hgen ▸ h.generation_pos _ session hs⟩
  · exact (naps_of_session hs).trans (nap_of_not_parked hlive.2.2.2)
  · rintro g ⟨calls, hcalls, hmem⟩
    obtain rfl := some.inj ((calls_eq hcmds).symm.trans hcalls)
    obtain ⟨cmd, hmem, heq⟩ := List.mem_map.mp hmem
    obtain rfl : cmd = .close c.clientId g := call_injective heq
    exact horderly c session hc hs hgen cmds hcmds g hmem

lemma Inv.beds_nextSlot (h : srv.Inv) : srv.dormitory.beds srv.parking.nextSlot = none := by
  show (srv.parking.slots.lookup _).map _ = none
  rw [h.slots_lt _ le_rfl]
  rfl

section

variable (h : srv.Inv) (hc : srv.tasks id = some c) (hphase : c.phase = .running)
include h hc hphase

/-- Nobody else has the generation of a connection that runs. -/
lemma Inv.not_rising (hpos : 0 < c.sessionGeneration) (id' : ℕ) :
    srv.dormitory.rising id' ≠ some (c.clientId, c.sessionGeneration) := by
  intro hrising
  obtain ⟨c', hc', hrising⟩ := bind_eq_some_iff.mp hrising
  obtain ⟨hphase', heq⟩ := resuming_of_rising hrising
  have hgen : srv.generationOf (.task id') = some c.sessionGeneration := by
    rw [(Prod.mk.inj heq).2]
    exact Inv.carries_task hc'
  obtain rfl := Carrier.task.inj (h.carried_once _ _ _ hpos hgen (Inv.carries_task hc))
  obtain rfl := some.inj (hc.symm.trans hc')
  exact nomatch hphase.symm.trans hphase'

section

variable (hguard : srv.ParkAllowed id) (hflip : srv.flipping c = (shard, true))
include hguard hflip

/-- What is left of a connection that parks lies in the registry. -/
lemma Inv.signals_park (horderly : srv.Orderly (.park id false)) :
    ∃ cmds, Signals srv (.park id false)
      { srv.setTask id none with shard, parking := srv.parking.park c.intoParts } cmds := by
  obtain ⟨hmay, hpos⟩ := h.mayRetire hc hguard hflip horderly
  obtain ⟨hnaps, hcmds, -⟩ := naps_parkSession hflip
  refine signals_step (.retire _ hmay h.beds_nextSlot (h.not_rising hc hphase hpos)) hcmds
    (Lib.Dormitory.ext hnaps (congrArg (Option.map _) hcmds) ?_ ?_ ?_)
  · funext slot
    show ((srv.parking.slots.insert srv.parking.nextSlot c.intoParts).lookup slot).map _ =
      update srv.dormitory.beds srv.parking.nextSlot _ slot
    rw [lookup_insert_eq_ite, update_apply]
    split <;> rfl
  · funext k
    show (srv.parking.byClient.insert c.clientId srv.parking.nextSlot).lookup k =
      update srv.dormitory.index c.clientId _ k
    rw [lookup_insert_eq_ite, update_apply]
    rfl
  · exact rising_gone hc (hphase ▸ Phase.noConfusion) rfl

/-- A connection that fails to park is taken up by a new task. -/
lemma Inv.signals_parkFails (horderly : srv.Orderly (.park id true)) :
    ∃ cmds, Signals srv (.park id true)
      ({ srv.setTask id none with shard }.spawn fun id =>
        .resume id srv.shardId srv.limits c.intoParts) cmds := by
  obtain ⟨hmay, hpos⟩ := h.mayRetire hc hguard hflip horderly
  obtain ⟨hnaps, hcmds, -⟩ := naps_parkSession hflip
  refine signals_step (.doze srv.nextChannel hmay h.beds_nextSlot (h.not_rising hc hphase hpos)
    h.rising_nextChannel) hcmds (Lib.Dormitory.ext hnaps (congrArg (Option.map _) hcmds) rfl rfl ?_)
  have hsame : ({ srv.setTask id none with shard } : Server).dormitory.rising =
      srv.dormitory.rising := rising_gone hc (hphase ▸ Phase.noConfusion) rfl
  rw [rising_spawn, hsame]
  rfl

end

end

/-- Parked sessions are suspended one after the other. -/
lemma naps_suspended (now : ℕ) (l : List (Σ _ : ℕ, ResumeState)) (s : ShardState) :
    let s' := l.foldl (fun s e =>
      (s.suspendParked now e.2.clientId e.2.sessionGeneration e.2.sessionExpiry).1) s
    s'.unparkTx = s.unparkTx ∧ ∀ k nap, s'.naps k = some nap → s.naps k = some nap ∧
      ∀ e ∈ l, (e.2.clientId, e.2.sessionGeneration) ≠ (k, nap.1) := by
  induction l generalizing s with
  | nil => exact ⟨rfl, fun k nap hnap => ⟨hnap, by simp⟩⟩
  | cons e l ih =>
    obtain ⟨hnaps₁, hcmds₁⟩ := s.naps_suspendParked now e.2.clientId e.2.sessionGeneration
      e.2.sessionExpiry
    obtain ⟨hcmds, hnaps⟩ :=
      ih (s.suspendParked now e.2.clientId e.2.sessionGeneration e.2.sessionExpiry).1
    refine ⟨hcmds.trans hcmds₁, fun k nap hnap => ?_⟩
    obtain ⟨hnap₁, hothers⟩ := hnaps k nap hnap
    rw [hnaps₁] at hnap₁
    obtain ⟨hnap₀, hne⟩ := Lib.Dormitory.getUp_of_some hnap₁
    refine ⟨hnap₀, fun e' he' => ?_⟩
    rcases List.mem_cons.mp he' with rfl | he'
    · intro heq
      obtain ⟨hk, hg⟩ := Prod.mk.inj heq
      exact hne ⟨hk.symm, hg.symm⟩
    · exact hothers e' he'

lemma signals_shutDown (srv : Server) : ∃ cmds, Signals srv .shutDown srv.shutDown cmds := by
  obtain ⟨hcmds, hnaps⟩ := naps_suspended srv.now srv.parking.slots.entries
    srv.shard.shutdownConnections
  have hcmds : srv.shutDown.shard.unparkTx = srv.shard.unparkTx := hcmds
  have hdropped (k : String) : srv.shard.shutdownConnections.naps k = srv.shard.naps k := by
    rw [naps, shutdownConnections, lookup_mapValues, bind_map]
    rfl
  have hstep : srv.dormitory.Step []
      { srv.dormitory with
        naps := srv.shutDown.shard.naps, beds := fun _ => none, index := fun _ => none } := by
    refine .evictAll fun k => ?_
    cases hnap : srv.shutDown.shard.naps k with
    | none => exact .inr rfl
    | some nap =>
      obtain ⟨hnap₀, hothers⟩ := hnaps k nap hnap
      refine .inl ⟨(hnap₀.symm.trans (hdropped k)), fun nap' hnap' bed hbed => ?_⟩
      obtain rfl := some.inj hnap'
      obtain ⟨r, hr, heq⟩ := map_eq_some_iff.mp hbed
      exact hothers ⟨bed, r⟩ (mem_lookup_iff.mp hr) heq
  exact signals_step hstep hcmds (Lib.Dormitory.ext rfl (congrArg (Option.map _) hcmds) rfl rfl rfl)

/-- A message from a peer. A session may be claimed from a parked connection. -/
lemma signals_mesh (env : Env) (srv : Server) (msg : MeshMsg) :
    ∃ cmds, Signals srv (.mesh msg)
      { srv with shard := srv.shard.handleMeshMsg env.hash msg } cmds := by
  match msg with
  | .publish p => exact signals_rest rfl (srv.shard.roused_deliverLocal env.hash p none) rfl rfl
  | .control (.claim k requester resume) =>
    have hreplaces := srv.shard.replaces_handleClaim k requester resume
    have hstep : srv.dormitory.Step ((srv.shard.closing k).map call)
        ({ srv with shard := srv.shard.handleClaim k requester resume } : Server).dormitory :=
      step_replaces hreplaces rfl rfl
    refine exists_signals hstep hreplaces.unparkTx (fun k' g hmem session hs => ?_)
      (.refl _) rfl rfl
    -- the session is gone
    obtain rfl := client_of_closing hmem
    have hrecord := srv.shard.rewrites_handleClaim k' requester resume k'
    rw [if_pos rfl, map_eq_none_iff] at hrecord
    exact nomatch hrecord.symm.trans hs
  | .control (.handoff k session) =>
    have hroused : srv.shard.Roused (srv.shard.onControl (.handoff k session)) := by
      simp only [onControl]
      split
      · exact .refl _
      · exact .of_eq (fun _ => rfl) rfl
    exact signals_rest rfl hroused rfl rfl
  | .shared event =>
    have hroused : srv.shard.Roused (srv.shard.applySharedEvent event) := by
      unfold applySharedEvent
      split
      · exact .of_eq (fun _ => rfl) rfl
      · split
        · exact .refl _
        · exact .of_eq (fun _ => rfl) rfl
    exact signals_rest rfl hroused rfl rfl

/-- The session that a connection gives up is not parked. -/
lemma Inv.roused_closeSession (h : srv.Inv) (hc : srv.tasks id = some c)
    (hphase : c.phase = .ending) (hname : c.clientId ≠ "")
    (hclose : srv.tearDown c = (shard, owned)) : srv.shard.Roused shard := by
  have hroused : srv.shard.Roused (srv.tearDown c).1 := by
    refine ShardState.roused_closeSession fun session hs hgen => ?_
    have hpos : 0 < c.sessionGeneration := hgen ▸ h.generation_pos _ session hs
    have hholds : c.Holds := ⟨hname, hpos, by rw [hphase]; rfl⟩
    exact (h.attached id c session hc hholds hs hgen).parked
  rw [hclose] at hroused
  exact hroused

lemma naps_loadSessions (s : ShardState) (sessions : List PersistedSession) (now : ℕ)
    (h : ∀ k, s.naps k = none) : (∀ k, (s.loadSessions sessions now).naps k = none) ∧
      (s.loadSessions sessions now).unparkTx = s.unparkTx := by
  induction sessions generalizing s with
  | nil => exact ⟨h, rfl⟩
  | cons ps sessions ih =>
    refine ih (s.loadSession now ps) fun k => ?_
    unfold naps loadSession
    rw [lookup_insert_eq_ite]
    split
    · rfl
    · exact h k

/-- Where there are no connections no session is parked. -/
lemma roused_loadSessions (hd : srv.dormitory.Lawful) (htasks : ∀ id, srv.tasks id = none)
    (hslots : srv.parking.slots = ∅) (sessions : List PersistedSession) :
    srv.shard.Roused (srv.shard.loadSessions sessions srv.now) := by
  have hnone (k : String) : srv.shard.naps k = none := by
    by_contra hne
    obtain ⟨nap, hnap⟩ := ne_none_iff_exists'.mp hne
    rcases hd.kept k nap hnap with ⟨slot, hbed⟩ | ⟨id, hrising⟩
    · obtain ⟨r, hr, -⟩ := map_eq_some_iff.mp hbed
      rw [hslots] at hr
      exact nomatch hr
    · obtain ⟨c, hc, -⟩ := bind_eq_some_iff.mp hrising
      exact nomatch (htasks id).symm.trans hc
  obtain ⟨hnaps, hcmds⟩ := naps_loadSessions srv.shard sessions srv.now hnone
  exact .of_eq (fun k => (hnaps k).trans (hnone k).symm) hcmds

section

variable (hop : srv.awaiting op = srv.shard.unparkTx) (hc : srv.tasks id = some c)
include hop hc

lemma signals_ended (hphase : c.phase = .running) (last : List Reply) (will : Option Publish) :
    ∃ cmds, Signals srv op (srv.setTask id (some (ended c last will))) cmds := by
  refine signals_task hop hc (hphase ▸ Phase.noConfusion) (fun c' hc' => ?_) (.refl _)
  rw [← some.inj hc']
  exact Phase.noConfusion

lemma signals_claimed {remaining : ℕ} {assigned : Bool}
    (hphase : c.phase = .claiming remaining assigned) (hroused : srv.shard.Roused shard)
    (chance : Chance) (found : Option MigratedSession) :
    ∃ cmds, Signals srv op (srv.finishTurn id
      (c.claimed env shard chance assigned found)) cmds := by
  have hphase' : (c.claimed env shard chance assigned found).conn.phase = .running :=
    congrArg (fun st => st.identity.phase) (standing_claimed env c shard chance assigned found)
  refine signals_turn hop hc ?_ ?_ (hroused.trans (roused_claimed ..))
  · rw [hphase]
    rfl
  · rw [hphase']
    rfl

end

lemma Inv.signals_closed (h : srv.Inv) {shard' : ShardState} (hc : srv.tasks id = some c)
    (hphase : c.phase = .ending) (hname : c.clientId ≠ "")
    (hclose : srv.tearDown c = (shard, owned)) (htask : ∀ c', task = some c' → c'.phase ≠ .resuming)
    (hroused : shard.Roused shard') :
    ∃ cmds, Signals srv (.close id) { srv.setTask id task with shard := shard' } cmds :=
  signals_task rfl hc (hphase ▸ Phase.noConfusion) htask
    ((h.roused_closeSession hc hphase hname hclose).trans hroused)

/-- Every piece of work is a turn of the dormitory. -/
lemma Move.signals (hmove : Move env srv op srv') (h : srv.Inv) (hd : srv.dormitory.Lawful)
    (horderly : srv.Orderly op) (hidle : srv' = srv → srv.awaiting op = srv.shard.unparkTx) :
    ∃ cmds, Signals srv op srv' cmds := by
  cases hmove with
  | idle op hquiet => exact signals_rest (hidle rfl) (.refl _) rfl rfl
  | elapse | drainWal => exact signals_rest rfl (.of_eq (fun _ => rfl) rfl) rfl rfl
  | accept tlsIdentity =>
    refine signals_rest rfl (.refl _) rfl ?_
    have htasks : (srv.spawn fun id => .new id srv.shardId srv.limits tlsIdentity).tasks =
        update srv.tasks srv.nextChannel
          (some (.new srv.nextChannel srv.shardId srv.limits tlsIdentity)) := rfl
    rw [rising_update htasks]
    exact (congrArg _ h.rising_nextChannel.symm).trans (update_eq_self ..)
  | packet p chance hc hphase => exact signals_packet hc hphase p chance
  | @receive _ c d _ hc hphase =>
    have hholding : c.phase.holding = true := by
      rw [hphase]
      rfl
    have hphase' : (c.receive env d).1.phase = c.phase :=
      congrArg (fun st => st.identity.phase) (standing_receive env c d)
    exact signals_turn rfl hc hholding ((congrArg Phase.holding hphase').trans hholding)
      (.of_eq (fun _ => rfl) rfl)
  | hangUp why last hc hphase => exact signals_ended rfl hc hphase last _
  | mailboxClosed hc hphase => exact signals_ended rfl hc hphase [] _
  | shutDownNoticed hc hphase => exact signals_ended rfl hc hphase _ none
  | claimGoesOn chance hc hphase =>
    refine signals_task rfl hc (hphase ▸ Phase.noConfusion) (fun c' hc' => ?_)
      (.of_eq (fun _ => rfl) rfl)
    rw [← Option.some.inj hc']
    exact Phase.noConfusion
  | claimReply chance hc hphase =>
    refine signals_claimed rfl hc hphase ?_ chance _
    exact .of_eq (fun _ => rfl) rfl
  | claimTimeout chance hc hphase => exact signals_claimed rfl hc hphase (.refl _) chance none
  | closeNameless hc hphase =>
    exact signals_task rfl hc (hphase ▸ Phase.noConfusion) (fun _ hnone => nomatch hnone) (.refl _)
  | closeQuiet hc hphase hname hclose =>
    exact h.signals_closed hc hphase hname hclose (fun _ hnone => nomatch hnone) (.refl _)
  | closeWill hc hphase hname hclose =>
    refine h.signals_closed hc hphase hname hclose (fun c' hc' => ?_) (.refl _)
    rw [← Option.some.inj hc']
    exact Phase.noConfusion
  | closeArm hc hphase hname hclose =>
    exact h.signals_closed hc hphase hname hclose (fun _ hnone => nomatch hnone)
      (roused_armWill ..)
  | publishWill chance hc hphase =>
    exact signals_task rfl hc (hphase ▸ Phase.noConfusion) (fun _ hnone => nomatch hnone)
      (roused_deliverLocal ..)
  | parkDisplaced dupFails hc _ _ hguard hflip =>
    exact absurd hflip (h.not_parkDisplaced hc hguard.mailboxOpen)
  | parkFails hc hphase _ hguard hflip => exact h.signals_parkFails hc hphase hguard hflip horderly
  | park hc hphase _ hguard hflip => exact h.signals_park hc hphase hguard hflip horderly
  | wakeMissed hcmds htaken => exact signals_wakeMissed hcmds htaken
  | wake hcmds htaken => exact h.signals_wake hcmds htaken
  | dismissMissed hcmds htaken => exact signals_dismissMissed hcmds htaken
  | dismiss hcmds htaken => exact signals_dismiss hcmds htaken
  | ingress htaken => exact h.signals_ingress htaken
  | reapQuiet chance htaken hsuspend => exact signals_reap chance htaken hsuspend rfl rfl (.refl _)
  | reapWill chance htaken hsuspend =>
    exact signals_reap chance htaken hsuspend rfl rfl (roused_deliverLocal ..)
  | reapArm chance htaken hsuspend =>
    exact signals_reap chance htaken hsuspend rfl rfl (roused_armWill ..)
  | reattachLost chance hc hphase hreattach =>
    refine signals_reattach chance hc hphase ?_ rfl (congrArg Prod.fst hreattach).symm rfl
    exact Phase.noConfusion
  | @reattach _ c _ snapshot queued chance hc hphase hreattach =>
    have hst := standing_resumeDelivery env
      ({ c with mailboxTx := none, phase := .running }.restore snapshot) chance.flushFails queued
    have hphase' := congrArg (fun st => st.identity.phase.holding) hst
    refine signals_reattach chance hc hphase ?_ rfl (congrArg Prod.fst hreattach).symm rfl
    exact not_resuming_of_holding (holding_settle hphase' _)
  | mesh msg => exact signals_mesh env srv msg
  | publish message chance =>
    exact signals_rest rfl (srv.shard.roused_deliverLocal env.hash message none) rfl rfl
  | sweep chance =>
    have hwills : Roused (srv.shard.sweepExpired srv.now).1 (srv.sweptShard env) :=
      Lib.foldl_rel .refl .trans (fun s will => s.roused_deliverLocal env.hash will none) _ _
    exact signals_rest rfl ((srv.shard.roused_sweepExpired srv.now h.lawful).trans hwills) rfl rfl
  | shed order max => exact signals_rest rfl (srv.shard.roused_shedConnections order max) rfl rfl
  | load sessions =>
    exact signals_rest rfl (roused_loadSessions hd horderly.1 horderly.2 sessions) rfl rfl
  | shutDown => exact signals_shutDown srv

lemma unparkTx_wake (srv : Server) (taken : Option (Parking × ResumeState)) :
    (srv.wake taken).shard.unparkTx = srv.shard.unparkTx := by
  unfold Server.wake
  split <;> rfl

/-- When the parking task is idle there are no commands. -/
lemma awaiting_of_idle (h : srv.apply env op = srv) : srv.awaiting op = srv.shard.unparkTx := by
  match op with
  | .parkingCmd =>
    have hcmds := congrArg (fun srv => srv.shard.unparkTx) h
    simp only [Server.apply, parkingCmd] at hcmds
    split at hcmds
    · next cmd rest heq =>
      have hne : srv.shard.unparkTx ≠ some rest := by
        rw [heq]
        exact fun hsame => List.cons_ne_self cmd rest (some.inj hsame)
      split at hcmds
      · rw [unparkTx_wake] at hcmds
        exact absurd hcmds.symm hne
      · split at hcmds <;> exact absurd hcmds.symm hne
    · next hnone =>
      show srv.shard.unparkTx.map List.tail = srv.shard.unparkTx
      cases hcmds : srv.shard.unparkTx with
      | none => rfl
      | some cmds =>
        cases cmds with
        | nil => rfl
        | cons cmd rest => exact absurd hcmds (hnone cmd rest)
  | .elapse .. | .accept .. | .packet .. | .receive .. | .hangUp .. | .mailboxClosed .. |
    .claimReply ..
  | .claimTimeout .. | .close .. | .publishWill .. | .park .. | .ingress .. | .reap .. |
    .reattach ..
  | .mesh .. | .publish .. | .sweep .. | .shed .. | .load .. | .drainWal | .shutDown => rfl

lemma Inv.signals (h : srv.Inv) (hd : srv.dormitory.Lawful) (horderly : srv.Orderly op) :
    ∃ cmds, Signals srv op (srv.apply env op) cmds :=
  (move_apply env srv op).signals h hd horderly awaiting_of_idle

end Server

end Rusquitto
