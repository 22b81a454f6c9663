import Rusquitto.Lib.Census
import Rusquitto.Server.Calls
import Rusquitto.Server.Life

/-!
# A shard lives the lives of its generations

`Server.Lives` reads the life of a generation off a shard: its bearer is the one task or parked
connection with that generation (`Server.Inv` says there is at most one), its record the one session
record. Every piece of work takes the life of every generation some steps further, and publishes the
wills that `Life.Step` says (`Server.Move.follows`).
-/

namespace Rusquitto

open ShardState Connection Function Option Lib AList
open Session (Outline)

variable {c : Connection} {will : Publish} {id slot : ℕ} {r : ResumeState} {k : String}
  {session : Session} {occ : Occasion} {fires : List Publish} {o : Option Outline}
  {parking : Parking} {shard : ShardState} {owned : Bool}

/-- The part of a connection that its session depends on. -/
def Connection.bearer (c : Connection) : Bearer where
  role := match c.phase with
    | .running | .claiming .. | .ending => .speaking
    | .resuming => .dormant
    | .willing will => .willing will
  clientId := c.clientId
  expiry := c.sessionExpiry
  will := c.will
  willDelay := c.willDelay

def ResumeState.bearer (r : ResumeState) : Bearer where
  role := .dormant
  clientId := r.clientId
  expiry := r.sessionExpiry
  will := r.will
  willDelay := r.willDelay

/-- The connection as the bearer of a generation. -/
def Connection.bears (c : Connection) (g : ℕ) : Option Bearer :=
  if c.sessionGeneration = g then some c.bearer else none

def ResumeState.bears (r : ResumeState) (g : ℕ) : Option Bearer :=
  if r.sessionGeneration = g then some r.bearer else none

/-- The record as the one of a generation. -/
def Session.Outline.recordOf (o : Outline) (k : String) (g : ℕ) : Option (String × Outline) :=
  if o.generation = g then some (k, o) else none

lemma Connection.role_of_holding (h : c.phase.holding = true) : c.bearer.role = .speaking := by
  unfold bearer
  cases hp : c.phase <;> simp_all [Phase.holding]

lemma Connection.role_of_resuming (h : c.phase = .resuming) : c.bearer.role = .dormant := by
  simp [bearer, h]

lemma Connection.role_of_willing (h : c.phase = .willing will) :
    c.bearer.role = .willing will := by
  simp [bearer, h]

lemma Connection.bearer_speaking (h : c.phase.holding = true) :
    { c.bearer with role := .speaking } = c.bearer := by
  rw [← role_of_holding h]

/-- As long as the connection holds its session its phase does not matter. -/
lemma Connection.bearer_phase (h : c.phase.holding = true) {phase : Phase}
    (h' : phase.holding = true) : { c with phase }.bearer = c.bearer := by
  rw [← bearer_speaking h, ← role_of_holding (c := { c with phase }) h']
  rfl

/-- An error that ends the event loop changes nothing for the session. -/
lemma Connection.bearer_settle (h : c.phase.holding = true) (outcome : Outcome) :
    (settle (c, outcome)).bearer = c.bearer := by
  unfold settle
  split
  · rfl
  · exact bearer_phase h rfl

/-- The bearer, from what traffic leaves alone. -/
def Connection.Standing.bearer (st : Standing) : Bearer where
  role := match st.identity.phase with
    | .running | .claiming .. | .ending => .speaking
    | .resuming => .dormant
    | .willing will => .willing will
  clientId := st.identity.clientId
  expiry := st.identity.sessionExpiry
  will := st.will
  willDelay := st.willDelay

lemma Connection.bearer_of_standing {st : Standing} (h : c.standing = st) :
    c.bearer = st.bearer := by
  rw [← h]
  rfl

namespace Server

variable {env : Env} {srv srv' : Server} {g : ℕ} {life : Life}

/-- Who carries a generation. -/
def bearers (srv : Server) (g : ℕ) : Carrier → Option Bearer
  | .task id => (srv.tasks id).bind (·.bears g)
  | .slot slot => (srv.parking.slots.lookup slot).bind (·.bears g)

/-- The records with a generation. -/
def records (srv : Server) (g : ℕ) (k : String) : Option (String × Outline) :=
  ((srv.shard.sessions.lookup k).map Session.outline).bind (·.recordOf k g)

/-- The life of a generation on a shard. -/
structure Lives (srv : Server) (g : ℕ) (life : Life) : Prop where
  bearer : Lib.Found (srv.bearers g) life.bearer
  record : Lib.Found (srv.records g) life.record

lemma exists_lives (srv : Server) (g : ℕ) : ∃ life, srv.Lives g life := by
  obtain ⟨b, hb⟩ := exists_found (srv.bearers g)
  obtain ⟨r, hr⟩ := exists_found (srv.records g)
  exact ⟨⟨b, r⟩, hb, hr⟩

/-! ### Reading a life -/

lemma bears_task (hc : srv.tasks id = some c) :
    srv.bearers c.sessionGeneration (.task id) = some c.bearer := by
  rw [bearers, hc, bind_some, bears, if_pos rfl]

lemma bears_slot (hr : srv.parking.slots.lookup slot = some r) :
    srv.bearers r.sessionGeneration (.slot slot) = some r.bearer := by
  rw [bearers, hr, bind_some, ResumeState.bears, if_pos rfl]

lemma generationOf_of_bearers {x : Carrier} {b : Bearer} (h : srv.bearers g x = some b) :
    srv.generationOf x = some g := by
  cases x with
  | task id =>
    obtain ⟨c, hc, hb⟩ := bind_eq_some_iff.mp h
    obtain ⟨hgen, -⟩ := ite_none_right_eq_some.mp hb
    rw [generationOf, hc, map_some, hgen]
  | slot slot =>
    obtain ⟨r, hr, hb⟩ := bind_eq_some_iff.mp h
    obtain ⟨hgen, -⟩ := ite_none_right_eq_some.mp hb
    rw [generationOf, hr, map_some, hgen]

lemma exists_session_of_records {k' : String} {o : Outline} (h : srv.records g k = some (k', o)) :
    k' = k ∧ ∃ session,
      srv.shard.sessions.lookup k = some session ∧ session.outline = o ∧
        session.generation = g := by
  obtain ⟨o', ho', hrec⟩ := bind_eq_some_iff.mp h
  obtain ⟨session, hs, rfl⟩ := map_eq_some_iff.mp ho'
  obtain ⟨hgen, heq⟩ := ite_none_right_eq_some.mp hrec
  obtain ⟨rfl, rfl⟩ := Prod.mk.inj (some.inj heq)
  exact ⟨rfl, session, hs, rfl, hgen⟩

lemma records_of_session (hs : srv.shard.sessions.lookup k = some session) :
    srv.records session.generation k = some (k, session.outline) := by
  rw [records, hs, map_some, bind_some, Session.Outline.recordOf]
  exact if_pos rfl

lemma Inv.once_bearers (h : srv.Inv) (hg : 0 < g) : Once (srv.bearers g) :=
  fun x y _ _ hx hy =>
    h.carried_once x y g hg (generationOf_of_bearers hx) (generationOf_of_bearers hy)

lemma Inv.once_records (h : srv.Inv) (g : ℕ) : Once (srv.records g) := by
  rintro k k' ⟨_, _⟩ ⟨_, _⟩ hk hk'
  obtain ⟨-, session, hs, -, hgen⟩ := exists_session_of_records hk
  obtain ⟨-, session', hs', -, hgen'⟩ := exists_session_of_records hk'
  exact h.distinct k k' session session' hs hs' (hgen.trans hgen'.symm)

lemma Lives.exists_session (h : srv.Lives g life) {o : Outline} (hr : life.record = some (k, o)) :
    ∃ session,
      srv.shard.sessions.lookup k = some session ∧ session.outline = o ∧
        session.generation = g := by
  have hfound := h.record
  rw [hr] at hfound
  obtain ⟨k', hk'⟩ := hfound
  obtain ⟨rfl, hsession⟩ := exists_session_of_records hk'
  exact hsession

lemma Lives.unique (h : srv.Lives g life) (hinv : srv.Inv) (hg : 0 < g) {life' : Life}
    (h' : srv.Lives g life') : life' = life := by
  have hbearer := h.bearer.unique (hinv.once_bearers hg) h'.bearer
  have hrecord := h.record.unique (hinv.once_records g) h'.record
  cases life
  cases life'
  exact congr (congrArg Life.mk hbearer) hrecord

/-- Before its time a generation has no life. -/
lemma Lives.unborn (h : srv.Lives g life) (hinv : srv.Inv) (hg : srv.shard.nextGeneration < g) :
    life = ⟨none, none⟩ := by
  have hb : life.bearer = none := h.bearer.eq_none fun x => by
    by_contra hne
    obtain ⟨b, hx⟩ := ne_none_iff_exists'.mp hne
    exact absurd (hinv.carried_le x g (generationOf_of_bearers hx)) (not_le.mpr hg)
  have hr : life.record = none := by
    by_contra hne
    obtain ⟨⟨k, o⟩, hr⟩ := ne_none_iff_exists'.mp hne
    obtain ⟨session, hs, -, hgen⟩ := h.exists_session hr
    exact absurd (hinv.generation_le k session hs) (not_le.mpr (hgen.symm ▸ hg))
  cases life
  exact congr (congrArg Life.mk hb) hr

/-! ### The wills and the circumstances of a piece of work -/

/-- The wills of one generation that a piece of work publishes. -/
def firedOf (srv : Server) (op : ServerOp) (g : ℕ) : List Publish :=
  ofGeneration g (srv.fired op)

/-- The session of a client is opened, claimed by another shard, or loaded. -/
def Recalls (env : Env) (srv : Server) : ServerOp → String → Prop
  | .packet id p chance, k =>
    ∃ c, srv.tasks id = some c ∧ c.phase = .running ∧ c.connected = false ∧
      (c.processOne env srv.shard chance p).conn.clientId = k ∧
      (c.processOne env srv.shard chance p).conn.sessionGeneration = srv.shard.nextGeneration + 1
  | .mesh (.control (.claim clientId _ _)), k => clientId = k
  | .load sessions, k => k ∈ sessions.map PersistedSession.clientId
  | _, _ => False

/-- The expiry interval of a generation that begins with a piece of work: what its connection
negotiated, or what was persisted. -/
def negotiates (env : Env) (srv : Server) (op : ServerOp) (g : ℕ) : UInt32 :=
  match op with
  | .packet id p chance =>
    match srv.tasks id with
    | none => 0
    | some c => (c.processOne env srv.shard chance p).conn.sessionExpiry
  | .load sessions =>
    match sessions[g - (srv.shard.nextGeneration + 1)]? with
    | none => 0
    | some ps => ps.expirySecs
  | _ => 0

/-- What a piece of work is for a generation. -/
def occasion (env : Env) (srv : Server) (op : ServerOp) (g : ℕ) : Occasion where
  generation := g
  now := srv.now
  fresh := srv.shard.nextGeneration < g
  expiry := srv.negotiates env op g
  recalls := srv.Recalls env op
  dismisses := op = .parkingCmd ∧ ∃ k rest, srv.shard.unparkTx = some (.close k g :: rest)

/-- The life of a generation goes from one state to the other. -/
def Trails (occ : Occasion) (srv : Server) (fires : List Publish) (srv' : Server) : Prop :=
  ∀ life, srv.Lives occ.generation life → ∃ life', srv'.Lives occ.generation life' ∧
    life.Steps occ fires life'

lemma Trails.trans {srv'' : Server} {fires' : List Publish} (h : Trails occ srv fires srv')
    (h' : Trails occ srv' fires' srv'') : Trails occ srv (fires ++ fires') srv'' := by
  intro life hl
  obtain ⟨life', hl', hsteps⟩ := h life hl
  obtain ⟨life'', hl'', hsteps'⟩ := h' life' hl'
  exact ⟨life'', hl'', hsteps.trans hsteps'⟩

/-- The piece of work takes the life of the generation from one state to the other. -/
def Follows (env : Env) (srv : Server) (op : ServerOp) (srv' : Server) (g : ℕ) : Prop :=
  Trails (srv.occasion env op g) srv (srv.firedOf op g) srv'

/-! ### Work that leaves the records alone, or rewrites one -/

lemma records_of_same (h : SameRecords srv.shard srv'.shard) :
    srv'.records g = srv.records g := by
  funext k
  rw [records, records, h k]

lemma records_of_rewrites (h : Rewrites srv.shard srv'.shard k o) :
    srv'.records g = update (srv.records g) k (o.bind (·.recordOf k g)) := by
  funext k'
  rw [records, h k', update_apply]
  split
  · next hk => rw [hk]
  · rfl

/-- The record of another generation is rewritten. -/
lemma records_of_rewrites_ne (h : Rewrites srv.shard srv'.shard k o)
    (hs : srv.shard.sessions.lookup k = some session) (hgen : session.generation ≠ g)
    (ho : ∀ o', o = some o' → o'.generation = session.generation) :
    srv'.records g = srv.records g := by
  have hold : srv.records g k = none := by
    rw [records, hs, map_some, bind_some]
    exact if_neg hgen
  have hnew : o.bind (·.recordOf k g) = none := by
    cases o with
    | none => rfl
    | some o' => exact if_neg ((ho o' rfl).symm ▸ hgen)
  rw [records_of_rewrites h, hnew, ← hold, update_eq_self]

/-- The record of the generation is rewritten. -/
lemma Inv.found_rewritten (hinv : srv.Inv) (h : Rewrites srv.shard srv'.shard k o)
    (hs : srv.shard.sessions.lookup k = some session)
    (ho : ∀ o', o = some o' → o'.generation = session.generation) :
    Found (srv'.records session.generation) (o.map (k, ·)) := by
  have hnew : o.bind (·.recordOf k session.generation) = o.map (k, ·) := by
    cases o with
    | none => rfl
    | some o' => exact if_pos (ho o' rfl)
  rw [records_of_rewrites h, ← hnew]
  exact found_update (fun k' hk' =>
    (hinv.once_records _).eq_none_of_ne (records_of_session hs) hk') _

/-- Nothing about the generation changes. -/
lemma Trails.rest (hb : srv'.bearers occ.generation = srv.bearers occ.generation)
    (hr : srv'.records occ.generation = srv.records occ.generation) : Trails occ srv [] srv' :=
  fun life hl => ⟨life, ⟨hb ▸ hl.bearer, hr ▸ hl.record⟩, .nil life⟩

lemma Follows.rest {op : ServerOp} (hb : srv'.bearers g = srv.bearers g)
    (hr : srv'.records g = srv.records g) (hfired : srv.firedOf op g = []) :
    srv.Follows env op srv' g := by
  rw [Follows, hfired]
  exact .rest hb hr

/-- A client's record goes to a newer generation, or away. -/
lemma Inv.trails_recalled (h : srv.Inv) (hrec : Rewrites srv.shard srv'.shard k o)
    (ho : ∀ o', o = some o' → o'.generation ≠ occ.generation) (hrecalls : occ.recalls k)
    (hb : srv'.bearers occ.generation = srv.bearers occ.generation) : Trails occ srv [] srv' := by
  have hrecords := records_of_rewrites (g := occ.generation) hrec
  have hgone : o.bind (·.recordOf k occ.generation) = none := by
    cases o with
    | none => rfl
    | some o' => exact if_neg (ho o' rfl)
  rw [hgone] at hrecords
  cases hold : srv.records occ.generation k with
  | none =>
    refine .rest hb ?_
    rw [hrecords, ← hold, update_eq_self]
  | some r =>
    obtain ⟨k', o⟩ := r
    obtain ⟨rfl, -⟩ := exists_session_of_records hold
    rintro ⟨b, r⟩ hl
    obtain rfl := hl.record.eq_some (h.once_records _) hold
    refine ⟨⟨b, none⟩, ⟨hb ▸ hl.bearer, ?_⟩, (Life.Step.recalled o hrecalls).steps⟩
    rw [hrecords]
    exact found_update (fun y hy => (h.once_records _).eq_none_of_ne hold hy) none

lemma bearers_of_eq (htasks : srv'.tasks = srv.tasks)
    (hslots : srv'.parking.slots = srv.parking.slots) : srv'.bearers g = srv.bearers g := by
  funext x
  cases x with
  | task id => rw [bearers, htasks, bearers]
  | slot slot => rw [bearers, hslots, bearers]

/-! ### A connection passes its generation on -/

/-- The bearer of one generation is replaced, and no other. -/
structure Passes (srv srv' : Server) (g₀ : ℕ) (b : Bearer) (b' : Option Bearer) : Prop where
  held : ∃ x, srv.bearers g₀ x = some b
  others : ∀ g, g ≠ g₀ → srv'.bearers g = srv.bearers g
  passed : 0 < g₀ → Lib.Found (srv'.bearers g₀) b'

lemma bearers_update {task : Option Connection} (htasks : srv'.tasks = update srv.tasks id task)
    (hslots : srv'.parking.slots = srv.parking.slots) :
    srv'.bearers g = update (srv.bearers g) (.task id) (task.bind (·.bears g)) := by
  funext x
  cases x with
  | task id' =>
    rw [bearers, htasks, update_apply, update_apply]
    by_cases hid : id' = id
    · rw [if_pos hid, if_pos (congrArg Carrier.task hid)]
    · rw [if_neg hid, if_neg (fun h => hid (Carrier.task.inj h)), bearers]
  | slot slot =>
    have hne : Carrier.slot slot ≠ .task id := nofun
    rw [bearers, hslots, update_of_ne hne, bearers]

section

variable (h : srv.Inv) (hc : srv.tasks id = some c)
include h hc

/-- A task goes on, or ends. -/
lemma Inv.passes_task {task : Option Connection} (htasks : srv'.tasks = update srv.tasks id task)
    (hslots : srv'.parking.slots = srv.parking.slots)
    (hgen : ∀ c', task = some c' → c'.sessionGeneration = c.sessionGeneration) :
    Passes srv srv' c.sessionGeneration c.bearer (task.map (·.bearer)) where
  held := ⟨_, bears_task hc⟩
  others g hg := by
    have hold : srv.bearers g (.task id) = none := by
      rw [bearers, hc, bind_some]
      exact if_neg hg.symm
    have hnew : task.bind (·.bears g) = none := by
      cases task with
      | none => rfl
      | some c' => exact if_neg ((hgen c' rfl).symm ▸ hg.symm)
    rw [bearers_update htasks hslots, hnew, ← hold, update_eq_self]
  passed hpos := by
    have hnew : task.bind (·.bears c.sessionGeneration) = task.map (·.bearer) := by
      cases task with
      | none => rfl
      | some c' => exact if_pos (hgen c' rfl)
    rw [bearers_update htasks hslots, ← hnew]
    exact found_update (fun y hy => (h.once_bearers hpos).eq_none_of_ne (bears_task hc) hy) _

lemma Inv.passes_gone (htasks : srv'.tasks = update srv.tasks id none)
    (hslots : srv'.parking.slots = srv.parking.slots) :
    Passes srv srv' c.sessionGeneration c.bearer none :=
  h.passes_task hc htasks hslots (fun _ hnone => by exact nomatch hnone)

lemma Inv.passes_next {c' : Connection} (htasks : srv'.tasks = update srv.tasks id (some c'))
    (hslots : srv'.parking.slots = srv.parking.slots)
    (hgen : c'.sessionGeneration = c.sessionGeneration) :
    Passes srv srv' c.sessionGeneration c.bearer (some c'.bearer) :=
  h.passes_task hc htasks hslots fun _ hc' => some.inj hc' ▸ hgen

end

lemma bearers_spawn (srv : Server) (conn : ℕ → Connection) (g : ℕ) : (srv.spawn conn).bearers g =
      update (srv.bearers g) (.task srv.nextChannel) ((conn srv.nextChannel).bears g) := by
  have htasks : (srv.spawn conn).tasks =
      update srv.tasks srv.nextChannel (some (conn srv.nextChannel)) := rfl
  rw [bearers_update htasks rfl, bind_some]

variable {op : ServerOp} {g₀ : ℕ} {b : Bearer} {b' : Option Bearer}

section

variable (hp : Passes srv srv' g₀ b b') (h : srv.Inv) (hg : 0 < occ.generation)
include hp h hg

/-- The bearer changes, and no record. -/
lemma Passes.trails (hrec : SameRecords srv.shard srv'.shard)
    (hfires : occ.generation ≠ g₀ → fires = [])
    (hstep : occ.generation = g₀ → ∀ r, srv.Lives occ.generation ⟨some b, r⟩ →
      Life.Steps occ ⟨some b, r⟩ fires ⟨b', r⟩) : Trails occ srv fires srv' := by
  by_cases hgen : occ.generation = g₀
  · rintro ⟨b₀, r⟩ hl
    obtain ⟨x, hx⟩ := hp.held
    rw [← hgen] at hx
    obtain rfl : b₀ = some b := hl.bearer.eq_some (h.once_bearers hg) hx
    have hpassed := hp.passed (hgen ▸ hg)
    rw [← hgen] at hpassed
    exact ⟨⟨b', r⟩, ⟨hpassed, records_of_same hrec ▸ hl.record⟩, hstep hgen r hl⟩
  · rw [hfires hgen]
    exact .rest (hp.others _ hgen) (records_of_same hrec)

/-- The bearer changes together with the record of its session. -/
lemma Passes.trails_rewrite (hs : srv.shard.sessions.lookup k = some session)
    (hgen : session.generation = g₀) (hrec : Rewrites srv.shard srv'.shard k o)
    (ho : ∀ o', o = some o' → o'.generation = session.generation)
    (hfires : occ.generation ≠ g₀ → fires = [])
    (hstep : occ.generation = g₀ → Life.Steps occ ⟨some b, some (k, session.outline)⟩ fires
      ⟨b', o.map (k, ·)⟩) : Trails occ srv fires srv' := by
  by_cases hgen' : occ.generation = g₀
  · rintro ⟨b₀, r⟩ hl
    obtain ⟨x, hx⟩ := hp.held
    rw [← hgen'] at hx
    obtain rfl : b₀ = some b := hl.bearer.eq_some (h.once_bearers hg) hx
    have hpassed := hp.passed (hgen' ▸ hg)
    rw [← hgen'] at hpassed
    have hown := hgen.trans hgen'.symm
    obtain rfl : r = some (k, session.outline) := by
      refine hl.record.eq_some (h.once_records _) (x := k) ?_
      rw [← hown]
      exact records_of_session hs
    have hfound := h.found_rewritten hrec hs ho
    rw [hown] at hfound
    exact ⟨⟨b', o.map (k, ·)⟩, ⟨hpassed, hfound⟩, hstep hgen'⟩
  · rw [hfires hgen']
    exact .rest (hp.others _ hgen')
      (records_of_rewrites_ne hrec hs (hgen ▸ Ne.symm hgen') ho)

end

/-! ### Parked connections -/

/-- One slot is filled or emptied. -/
lemma bearers_slots (parked : Option ResumeState) (htasks : srv'.tasks = srv.tasks)
    (hslots : ∀ s, srv'.parking.slots.lookup s =
      if s = slot then parked else srv.parking.slots.lookup s) :
    srv'.bearers g = update (srv.bearers g) (.slot slot) (parked.bind (·.bears g)) := by
  funext x
  cases x with
  | task id =>
    have hne : Carrier.task id ≠ .slot slot := nofun
    rw [bearers, htasks, update_of_ne hne, bearers]
  | slot slot' =>
    rw [bearers, hslots, update_apply]
    by_cases hs : slot' = slot
    · rw [if_pos hs, if_pos (congrArg Carrier.slot hs)]
    · rw [if_neg hs, if_neg (fun h => hs (Carrier.slot.inj h)), bearers]

/-- A parked connection is closed. -/
lemma Inv.passes_slot (h : srv.Inv) (htaken : srv.parking.takeSlot slot = some (parking, r))
    (htasks : srv'.tasks = srv.tasks) (hparking : srv'.parking = parking) :
    Passes srv srv' r.sessionGeneration r.bearer none := by
  obtain ⟨hr, hslots, -⟩ := takeSlot_spec htaken
  have hlookup := fun s => congrArg (lookup s) (hparking.symm ▸ hslots :
    srv'.parking.slots = _)
  simp only [lookup_erase_eq_ite] at hlookup
  refine ⟨⟨_, bears_slot hr⟩, fun g hg => ?_, fun hpos => ?_⟩
  · have hold : srv.bearers g (.slot slot) = none := by
      rw [bearers, hr, bind_some]
      exact if_neg hg.symm
    rw [bearers_slots none htasks hlookup, bind_none, ← hold, update_eq_self]
  · rw [bearers_slots none htasks hlookup]
    exact found_update (fun y hy => (h.once_bearers hpos).eq_none_of_ne (bears_slot hr) hy) _

lemma Inv.bearers_nextChannel (h : srv.Inv) : srv.bearers g (.task srv.nextChannel) = none := by
  rw [bearers, h.tasks_lt _ le_rfl, bind_none]

lemma Inv.bearers_nextSlot (h : srv.Inv) : srv.bearers g (.slot srv.parking.nextSlot) = none := by
  rw [bearers, h.slots_lt _ le_rfl, bind_none]

/-- A bearer moves to a place that was empty. -/
lemma Passes.move (hp : Passes srv srv' g₀ b none) {srv'' : Server} {y : Carrier}
    {f : ℕ → Option Bearer} (hempty : ∀ g, srv'.bearers g y = none)
    (hbearers : ∀ g, srv''.bearers g = update (srv'.bearers g) y (f g))
    (hself : f g₀ = b') (hother : ∀ g, g ≠ g₀ → f g = none) : Passes srv srv'' g₀ b b' where
  held := hp.held
  others g hg := by
    rw [hbearers, hother g hg, ← hempty g, update_eq_self]
    exact hp.others g hg
  passed hpos := by
    rw [hbearers, hself]
    exact found_update (fun x _ => hp.passed hpos x) _

/-- A parked connection is rebuilt. -/
lemma Inv.passes_wake (h : srv.Inv) (htaken : srv.parking.takeSlot slot = some (parking, r))
    (shard : ShardState) :
    Passes srv ({ srv with parking, shard }.spawn fun id => .resume id srv.shardId srv.limits r)
      r.sessionGeneration r.bearer (some r.bearer) := by
  have hp : Passes srv { srv with parking, shard } r.sessionGeneration r.bearer none :=
    h.passes_slot htaken rfl rfl
  refine hp.move (y := .task srv.nextChannel) (f := r.bears) (fun g => ?_)
    (fun g => bearers_spawn _ _ g) (if_pos rfl) fun g hg => if_neg hg.symm
  rw [bearers, h.tasks_lt _ le_rfl, bind_none]

section

variable (h : srv.Inv) (hc : srv.tasks id = some c) (shard : ShardState)
include h hc

/-- A connection parks. -/
lemma Inv.passes_park :
    Passes srv { srv.setTask id none with shard, parking := srv.parking.park c.intoParts }
      c.sessionGeneration c.bearer (some { c.bearer with role := .dormant }) := by
  have hp : Passes srv { srv.setTask id none with shard } c.sessionGeneration c.bearer none :=
    h.passes_gone hc rfl rfl
  refine hp.move (y := .slot srv.parking.nextSlot) (f := c.intoParts.bears) (fun g => ?_)
    (fun g => bearers_slots (some c.intoParts) rfl fun _ => lookup_insert_eq_ite ..)
    (if_pos rfl) fun g hg => if_neg hg.symm
  exact h.bearers_nextSlot

/-- A connection that cannot park is rebuilt. -/
lemma Inv.passes_parkFails :
    Passes srv ({ srv.setTask id none with shard }.spawn fun id =>
        .resume id srv.shardId srv.limits c.intoParts)
      c.sessionGeneration c.bearer (some { c.bearer with role := .dormant }) := by
  have hp : Passes srv { srv.setTask id none with shard } c.sessionGeneration c.bearer none :=
    h.passes_gone hc rfl rfl
  refine hp.move (y := .task srv.nextChannel) (f := c.intoParts.bears) (fun g => ?_)
    (fun g => bearers_spawn _ _ g) (if_pos rfl) fun g hg => if_neg hg.symm
  have hne : srv.nextChannel ≠ id := (h.lt_nextChannel hc).ne'
  have hfree : update srv.tasks id none srv.nextChannel = none :=
    (update_of_ne hne ..).trans (h.tasks_lt _ le_rfl)
  exact congrArg (bind · (·.bears g)) hfree

end

/-! ### The event loop -/

lemma holding_settle (h : c.phase.holding = true) (outcome : Outcome) :
    (settle (c, outcome)).phase.holding = true := by
  rcases settle_eq (c, outcome) with heq | heq <;> rw [heq]
  · exact h
  · rfl

lemma holding_processOne (env : Env) (hphase : c.phase = .running) (shard : ShardState)
    (chance : Chance) (p : Packet) :
    (c.processOne env shard chance p).conn.phase.holding = true := by
  have hanswer := answer_processOne env c shard chance p
  generalize c.processOne env shard chance p = turn at hanswer
  cases hanswer with
  | served hconnected hturn =>
    subst hturn
    obtain ⟨_, _, _, _, -, hst⟩ := standing_dispatch env c shard chance p
    rw [show (c.dispatch env shard chance p).conn.phase = c.phase from
      congrArg (fun st => st.identity.phase) hst, hphase]
    rfl
  | @refused c₁ c₂ _ _ _ hvet hturn hstanding =>
    have hphase₁ : c₁.phase = c.phase := by
      obtain ⟨_, _, _, _, _, _, _, _, rfl⟩ := hvet
      rfl
    have hphase₂ : c₂.phase = c₁.phase := congrArg (fun st => st.identity.phase) hstanding
    have hrunning : turn.conn.phase = .running := by
      rw [hturn]
      exact hphase₂.trans (hphase₁.trans hphase)
    rw [hrunning]
    rfl
  | @opened c₁ n connect _ _ _ _ hturn =>
    obtain ⟨_, phase, hwhere, hst⟩ := standing_openHandle env c₁
      { shard with nextAssignedId := n } chance connect.cleanSession (connect.clientId = "")
    rw [hturn, show (c₁.openHandle env { shard with nextAssignedId := n } chance
      connect.cleanSession (connect.clientId = "")).conn.phase = phase from
      congrArg (fun st => st.identity.phase) hst]
    rcases hwhere with ⟨-, rfl⟩ | ⟨-, _, rfl⟩ <;> rfl

lemma firedOf_of_nil (h : srv.fired op = []) (g : ℕ) : srv.firedOf op g = [] := by
  rw [firedOf, h]
  rfl

section

variable (h : srv.Inv) (hg : 0 < g) (hc : srv.tasks id = some c)
include h hg hc

/-- A turn in the event loop that leaves the records alone. -/
lemma Inv.follows_turn {turn : Turn} (hphase : c.phase.holding = true)
    (hphase' : turn.conn.phase.holding = true)
    (hgen : turn.conn.sessionGeneration = c.sessionGeneration)
    (hbearer : turn.conn.bearer = c.bearer ∨ turn.conn.bearer = { c.bearer with will := none })
    (hrec : SameRecords srv.shard turn.shard) (hfired : srv.fired op = []) :
    srv.Follows env op (srv.finishTurn id turn) g := by
  have hsettle := bearer_settle hphase' turn.outcome
  refine Passes.trails (h.passes_next hc rfl rfl ((generation_settle _ _).trans hgen)) h hg hrec
    (fun _ => firedOf_of_nil hfired g) fun _ r _ => ?_
  rw [firedOf_of_nil hfired, hsettle]
  rcases hbearer with heq | heq
  · rw [heq]
    exact .nil _
  · rw [heq]
    exact (Life.Step.recants r (role_of_holding hphase)).steps

/-- The event loop ends. -/
lemma Inv.follows_ended (hphase : c.phase = .running) (last : List Reply) {will : Option Publish}
    (hwill : will = c.will ∨ will = none) (hfired : srv.fired op = []) :
    srv.Follows env op (srv.setTask id (some (ended c last will))) g := by
  have hholding : c.phase.holding = true := by
    rw [hphase]
    rfl
  have hbearer : (ended c last will).bearer = { c.bearer with will } := by
    have hrole := role_of_holding hholding
    simp only [ended, bearer] at hrole ⊢
    rw [hrole]
  refine Passes.trails (h.passes_next hc rfl rfl rfl) h hg (.refl _) (fun _ => firedOf_of_nil hfired
    g) fun _ r _ => ?_
  rw [firedOf_of_nil hfired, hbearer]
  rcases hwill with rfl | rfl
  · exact .nil _
  · exact (Life.Step.recants r (role_of_holding hholding)).steps

/-- The wait for the peers' answers is over. -/
lemma Inv.follows_claimed {remaining : ℕ} {assigned : Bool}
    (hphase : c.phase = .claiming remaining assigned) (hrec : SameRecords srv.shard shard)
    (chance : Chance) (assigned' : Bool) (found : Option MigratedSession)
    (hfired : srv.fired op = []) :
    srv.Follows env op (srv.finishTurn id (c.claimed env shard chance assigned' found)) g := by
  have hst := standing_claimed env c shard chance assigned' found
  have hholding : c.phase.holding = true := by
    rw [hphase]
    rfl
  have hid := congrArg Standing.identity hst
  refine h.follows_turn hg hc hholding ?_ (congrArg Identity.sessionGeneration hid)
    (.inl ?_) (hrec.trans (sameRecords_claimed env c shard chance assigned' found)) hfired
  · rw [show (c.claimed env shard chance assigned' found).conn.phase = .running from
      congrArg Identity.phase hid]
    rfl
  · exact (bearer_of_standing hst).trans (bearer_speaking hholding)

end

/-- A session is opened: the connection gets the new generation, and the one before loses its
record. -/
lemma Inv.follows_opened (h : srv.Inv) {c' : Connection} (hc : srv.tasks id = some c)
    (hzero : c.sessionGeneration = 0) (hg : 0 < g)
    (htasks : srv'.tasks = update srv.tasks id (some c'))
    (hslots : srv'.parking.slots = srv.parking.slots)
    (hgen : c'.sessionGeneration = srv.shard.nextGeneration + 1) (hphase : c'.phase.holding = true)
    (hname : c'.clientId ≠ "") {mailbox : ℕ} (hrec : Rewrites srv.shard srv'.shard c'.clientId
      (some (.live mailbox (srv.shard.nextGeneration + 1))))
    (hexpiry : c'.sessionExpiry = srv.negotiates env op g)
    (hrecalls : srv.Recalls env op c'.clientId) (hfired : srv.fired op = []) :
    srv.Follows env op srv' g := by
  have hbearers := bearers_update (g := g) htasks hslots
  have hnone : srv.bearers g (.task id) = none := by
    rw [bearers, hc, bind_some]
    exact if_neg (hzero ▸ hg.ne)
  rw [Follows, firedOf_of_nil hfired]
  by_cases hnew : g = srv.shard.nextGeneration + 1
  · -- the generation begins
    intro life hl
    obtain rfl := hl.unborn h (by show srv.shard.nextGeneration < g; omega)
    refine ⟨⟨some c'.bearer, some (c'.clientId, .live mailbox g)⟩,
      ⟨⟨.task id, ?_⟩, c'.clientId, ?_⟩,
      (Life.Step.opened mailbox (by show srv.shard.nextGeneration < g; omega) hexpiry
        (role_of_holding hphase) hname).steps⟩
    · show srv'.bearers g _ = _
      rw [hbearers, update_self, bind_some]
      exact if_pos (hgen.trans hnew.symm)
    · show srv'.records g _ = _
      rw [records_of_rewrites hrec, update_self, bind_some, ← hnew]
      exact if_pos rfl
  · have hnone' : (some c').bind (·.bears g) = none := if_neg fun heq => hnew (heq.symm.trans hgen)
    refine h.trails_recalled hrec (fun o' ho' heq => hnew ?_) hrecalls ?_
    · rw [← some.inj ho'] at heq
      exact heq.symm
    · show srv'.bearers g = srv.bearers g
      rw [hbearers, hnone', ← hnone, update_eq_self]

lemma Inv.follows_packet (h : srv.Inv) (hg : 0 < g) (hc : srv.tasks id = some c)
    (hphase : c.phase = .running) (p : Packet) (chance : Chance) :
    srv.Follows env (.packet id p chance)
      (srv.finishTurn id (c.processOne env srv.shard chance p)) g := by
  have hholding : c.phase.holding = true := by
    rw [hphase]
    rfl
  have hrecalls (k : String) (hconnected : c.connected = false)
      (hk : (c.processOne env srv.shard chance p).conn.clientId = k)
      (hgen : (c.processOne env srv.shard chance p).conn.sessionGeneration =
        srv.shard.nextGeneration + 1) : srv.Recalls env (.packet id p chance) k :=
    ⟨c, hc, hphase, hconnected, hk, hgen⟩
  have hexpiry : (c.processOne env srv.shard chance p).conn.sessionExpiry =
      srv.negotiates env (.packet id p chance) g := by
    simp only [negotiates, hc]
  have hanswer := answer_processOne env c srv.shard chance p
  generalize c.processOne env srv.shard chance p = turn at hanswer hrecalls hexpiry
  cases hanswer with
  | served hconnected hturn =>
    subst hturn
    obtain ⟨will, _, _, _, hwill, hst⟩ := standing_dispatch env c srv.shard chance p
    have hid := congrArg Standing.identity hst
    have hphase' : (c.dispatch env srv.shard chance p).conn.phase = c.phase :=
      congrArg Identity.phase hid
    refine h.follows_turn hg hc hholding (hphase' ▸ hholding)
      (congrArg Identity.sessionGeneration hid) ?_
      (closed_dispatch (sameRecords_closed env.hash) c srv.shard chance p) rfl
    have hbearer := bearer_of_standing hst
    rcases hwill with rfl | ⟨rfl, -⟩
    · exact .inl hbearer
    · exact .inr hbearer
  | @refused c₁ c₂ _ _ hconnected hvet hturn hstanding =>
    have hzero := h.unopened id c hc hconnected hphase
    have hzero' : c₂.sessionGeneration = 0 := by
      have hgen : c₂.sessionGeneration = c₁.sessionGeneration :=
        congrArg (fun st => st.identity.sessionGeneration) hstanding
      obtain ⟨_, _, _, _, _, _, _, _, rfl⟩ := hvet
      exact hgen.trans hzero
    have hgen : turn.conn.sessionGeneration = c.sessionGeneration := by
      rw [hturn]
      exact hzero'.trans hzero.symm
    have hp : Passes srv (srv.finishTurn id turn) c.sessionGeneration c.bearer
        (some (settle (turn.conn, turn.outcome)).bearer) :=
      h.passes_next hc rfl rfl ((generation_settle _ _).trans hgen)
    have hrec : SameRecords srv.shard turn.shard := by
      rw [hturn]
      exact .of_eq rfl
    refine hp.trails h hg hrec (fun _ => rfl) fun heq => ?_
    exact absurd (hzero ▸ heq) hg.ne'
  | @opened c₁ n connect hconnected hpacket hvet hname hturn =>
    have hzero := h.unopened id c hc hconnected hphase
    have hrx : c₁.mailboxRx = id := by
      obtain ⟨_, _, _, _, _, _, _, _, rfl⟩ := hvet
      exact (h.sound id c hc).mailboxRx
    obtain ⟨connected, phase, hwhere, hst⟩ := standing_openHandle env c₁
      { srv.shard with nextAssignedId := n } chance connect.cleanSession (connect.clientId = "")
    have hrec := rewrites_openHandle env c₁
      { srv.shard with nextAssignedId := n } chance connect.cleanSession (connect.clientId = "")
    rw [← hturn] at hst hrec
    have hid := congrArg Standing.identity hst
    have hclient : turn.conn.clientId = c₁.clientId := congrArg Identity.clientId hid
    have hgen : turn.conn.sessionGeneration = srv.shard.nextGeneration + 1 :=
      congrArg Identity.sessionGeneration hid
    have hphase' : turn.conn.phase.holding = true := by
      rw [show turn.conn.phase = phase from congrArg Identity.phase hid]
      rcases hwhere with ⟨-, rfl⟩ | ⟨-, _, rfl⟩ <;> rfl
    have hsettled := holding_settle hphase' turn.outcome
    have hclient' : (settle (turn.conn, turn.outcome)).clientId = c₁.clientId :=
      (congrArg Bearer.clientId (bearer_settle hphase' turn.outcome)).trans hclient
    rw [← hclient'] at hrec
    have hexpiry' : (settle (turn.conn, turn.outcome)).sessionExpiry =
        srv.negotiates env (.packet id p chance) g :=
      (congrArg Bearer.expiry (bearer_settle hphase' turn.outcome)).trans hexpiry
    refine h.follows_opened hc hzero hg rfl rfl ((generation_settle _ _).trans hgen)
      hsettled (hclient'.symm ▸ hname) hrec hexpiry' ?_ rfl
    rw [hclient']
    exact hrecalls _ hconnected hclient hgen

/-! ### The end of a connection -/

section

variable (h : srv.Inv) (hg : 0 < g) (hc : srv.tasks id = some c)
include h hg hc

/-- A running connection without a session of its own ends. -/
lemma Inv.follows_leaves (hphase : c.phase.holding = true)
    (hlost : c.clientId ≠ "" → ∀ session, srv.shard.sessions.lookup c.clientId = some session →
      session.generation ≠ c.sessionGeneration)
    (hfired : srv.fired op = []) : srv.Follows env op (srv.setTask id none) g := by
  refine Passes.trails (h.passes_gone hc rfl rfl) h hg (.refl _) (fun _ => firedOf_of_nil hfired g)
    fun hgen r hl => ?_
  rw [firedOf_of_nil hfired]
  refine (Life.Step.leaves (role_of_holding hphase) fun hname o hr => ?_).steps
  obtain ⟨session, hs, -, hsgen⟩ := hl.exists_session hr
  exact hlost hname session hs (hsgen.trans hgen)

lemma Inv.follows_close (hphase : c.phase = .ending) (hclose : srv.tearDown c = (shard, owned))
    (hwill : c.will = none ∨ owned = false) :
    srv.Follows env (.close id) { srv.setTask id none with shard } g := by
  have hrole := role_of_holding (c := c) (by rw [hphase]; rfl)
  rcases closeSession_eq hclose with ⟨-, rfl, hlost⟩ | ⟨rfl, session, hs, hgen, hrec⟩
  · exact h.follows_leaves hg hc (by rw [hphase]; rfl) (fun _ => hlost) rfl
  · refine Passes.trails_rewrite (h.passes_gone hc rfl rfl) h hg hs hgen hrec (fun o' ho' =>
      congrArg Outline.generation (Outline.eq_of_unlessEnded ho')) (fun _ => rfl) fun _ => ?_
    exact (Life.Step.closes session.outline c.snapshot hrole
      (hwill.resolve_right nofun)).steps

section

variable (hphase : c.phase = .ending) (hclose : srv.tearDown c = (shard, true))
  (hwill : c.will = some will)
include hphase hclose hwill

lemma Inv.follows_closeWill (hdelay : min c.willDelay c.sessionExpiry = 0) :
    srv.Follows env (.close id)
      { srv.setTask id (some { c.emptied with phase := .willing will }) with shard } g := by
  have hrole := role_of_holding (c := c) (by rw [hphase]; rfl)
  rcases closeSession_eq hclose with ⟨hnot, -⟩ | ⟨-, session, hs, hgen, hrec⟩
  · exact nomatch hnot
  · refine Passes.trails_rewrite (h.passes_next hc rfl rfl rfl) h hg hs hgen hrec (fun o' ho' =>
      congrArg Outline.generation (Outline.eq_of_unlessEnded ho')) (fun _ => rfl) fun _ => ?_
    exact (Life.Step.closesWilling session.outline c.snapshot hrole hwill hdelay).steps

lemma Inv.follows_closeArm (hdelay : min c.willDelay c.sessionExpiry ≠ 0) :
    srv.Follows env (.close id)
      { srv.setTask id none with
        shard := shard.armWill srv.now c.clientId c.sessionGeneration will
          (min c.willDelay c.sessionExpiry) } g := by
  have hrole := role_of_holding (c := c) (by rw [hphase]; rfl)
  rcases closeSession_eq hclose with ⟨hnot, -⟩ | ⟨-, session, hs, hgen, hrec⟩
  · exact nomatch hnot
  · rw [Outline.unlessEnded_of_min hdelay] at hrec
    have harmed := hrec.trans_armWill hgen srv.now will (min c.willDelay c.sessionExpiry)
    refine Passes.trails_rewrite (h.passes_gone hc rfl rfl) h hg hs hgen harmed (fun o' ho' =>
      some.inj ho' ▸ rfl) (fun _ => rfl) fun _ => ?_
    exact (Life.Step.closesArming session.outline c.snapshot hrole hwill hdelay).steps

end

end

lemma firedOf_single (h : srv.fired op = [(g₀, will)]) :
    srv.firedOf op g₀ = [will] ∧ ∀ g, g ≠ g₀ → srv.firedOf op g = [] := by
  refine ⟨by simp [firedOf, ofGeneration, h], fun g hg => ?_⟩
  simp [firedOf, ofGeneration, h, Ne.symm hg]

lemma Inv.follows_publishWill (h : srv.Inv) (hg : 0 < g) (chance : Chance)
    (hc : srv.tasks id = some c) (hphase : c.phase = .willing will) :
    srv.Follows env (.publishWill id chance)
      { srv.setTask id none with
        shard := srv.shard.deliverLocal env.hash will none
        links := srv.links ++ srv.shard.forwards chance.fullLinks will } g := by
  have hfired : srv.fired (.publishWill id chance) = [(c.sessionGeneration, will)] := by
    simp only [fired, hc, hphase]
  obtain ⟨hself, hother⟩ := firedOf_single hfired
  refine Passes.trails (h.passes_gone hc rfl rfl) h hg (srv.shard.sameRecords_deliverLocal env.hash
    will none) (hother g) ?_
  rintro rfl r -
  rw [hself]
  exact (Life.Step.publishes r (role_of_willing hphase)).steps

/-! ### Parking -/

section

variable (h : srv.Inv)
include h

lemma Inv.follows_park (hg : 0 < g) (hphase : c.phase = .running)
    (hflip : srv.flipping c = (shard, true))
    (hp : Passes srv srv' c.sessionGeneration c.bearer (some { c.bearer with role := .dormant }))
    (hshard : srv'.shard = shard) (hfired : srv.fired op = []) : srv.Follows env op srv' g := by
  obtain ⟨session, hs, hgen, hmailbox, hrec⟩ := parkSession_eq_true hflip
  rw [← hshard] at hrec
  refine hp.trails_rewrite h hg hs hgen hrec (fun o' ho' => some.inj ho' ▸ rfl)
    (fun _ => firedOf_of_nil hfired g) fun _ => ?_
  rw [firedOf_of_nil hfired]
  exact (Life.Step.parks { nextPkid := c.nextPkid }
    (role_of_holding (by rw [hphase]; rfl)) hmailbox).steps

/-- A connection whose mailbox is open has its session. -/
lemma Inv.not_parkDisplaced (hc : srv.tasks id = some c) (hopen : srv.mailboxOpen id = true)
    {snapshot : SessionSnapshot} :
    srv.shard.parkSession c.clientId c.sessionGeneration snapshot ≠ (shard, false) := by
  intro hflip
  obtain ⟨-, hlost⟩ := parkSession_eq_false hflip
  obtain ⟨⟨k, session⟩, hmem, hm⟩ := List.any_eq_true.mp hopen
  have hs : srv.shard.sessions.lookup k = some session := mem_lookup_iff.mpr hmem
  have hmailbox : session.mailbox = some id := of_decide_eq_true hm
  obtain ⟨c', hc', -, rfl, hgen⟩ := h.owned k session id hs hmailbox
  obtain rfl := some.inj (hc.symm.trans hc')
  rw [hlost session hs hgen.symm] at hmailbox
  exact nomatch hmailbox

lemma Inv.follows_wake (hg : 0 < g) (htaken : srv.parking.takeSlot slot = some (parking, r))
    (hrec : SameRecords srv.shard shard) (hfired : srv.fired op = []) :
    srv.Follows env op
      ({ srv with parking, shard }.spawn fun id => .resume id srv.shardId srv.limits r) g := by
  refine (h.passes_wake htaken shard).trails h hg hrec (fun _ => firedOf_of_nil hfired g)
    fun _ record _ => ?_
  rw [firedOf_of_nil hfired]
  exact .nil _

lemma Inv.follows_dismiss (hg : 0 < g) {clientId : String} {generation : ℕ}
    {rest : List UnparkCmd} (hcmds : srv.shard.unparkTx = some (.close clientId generation :: rest))
    (htaken : srv.parking.takeByClient clientId (some generation) = some (parking, r)) :
    srv.Follows env .parkingCmd
      { srv with parking, shard := { srv.shard with unparkTx := some rest } } g := by
  obtain ⟨slot, -, htake⟩ := bind_eq_some_iff.mp htaken
  obtain ⟨htake, hgen⟩ := filter_eq_some_iff.mp htake
  have hgen : generation = r.sessionGeneration := of_decide_eq_true hgen
  refine Passes.trails (h.passes_slot htake rfl rfl) h hg (.of_eq rfl) (fun _ => rfl) fun (heq : g =
    _) record _ => ?_
  have hdismisses : (srv.occasion env .parkingCmd g).dismisses :=
    ⟨rfl, clientId, rest, by rw [hcmds, hgen, heq]⟩
  exact (Life.Step.dismissed record hdismisses rfl).steps

/-- A parked connection is closed, and its session suspended if it is still there. Without a will,
or when the server stops. -/
lemma Inv.trails_suspends (hg : 0 < occ.generation) (hnow : occ.now = srv.now)
    (hp : Passes srv srv' r.sessionGeneration r.bearer none)
    (hsuspend : srv.suspending r = (shard, owned)) (hshard : srv'.shard = shard) :
    Trails occ srv [] srv' := by
  rcases suspendParked_eq hsuspend with ⟨-, rfl, hlost⟩ | ⟨-, session, hs, hgen, hpk, hrec⟩
  · refine hp.trails h hg (.of_eq (by rw [hshard])) (fun _ => rfl) fun heq record hl => ?_
    refine (Life.Step.strays rfl fun o hr => ?_).steps
    obtain ⟨session, hs, rfl, hgen⟩ := hl.exists_session hr
    exact hlost session hs (hgen.trans heq)
  · rw [← hshard] at hrec
    refine hp.trails_rewrite h hg hs hgen hrec
      (fun o' ho' => congrArg Outline.generation (Outline.eq_of_unlessEnded ho'))
      (fun _ => rfl) fun _ => ?_
    rw [← hnow]
    exact (Life.Step.suspends rfl hpk).steps

end

section

variable (h : srv.Inv) (hg : 0 < g) (chance : Chance)
  (htaken : srv.parking.takeSlot slot = some (parking, r))
include h hg htaken

lemma Inv.follows_reapQuiet (hsuspend : srv.suspending r = (shard, owned))
    (hwill : r.will = none ∨ owned = false) :
    srv.Follows env (.reap slot chance) { srv with parking, shard } g := by
  rw [Follows, firedOf_of_nil (fired_reap_quiet chance htaken hsuspend hwill)]
  exact h.trails_suspends hg rfl (h.passes_slot htaken rfl rfl) hsuspend rfl

section

variable (hsuspend : srv.suspending r = (shard, true)) (hwill : r.will = some will)
include hsuspend hwill

lemma Inv.follows_reapWill (hdelay : min r.willDelay r.sessionExpiry = 0) :
    srv.Follows env (.reap slot chance)
      ({ srv with parking, shard }.broadcast env chance will) g := by
  have hfired : srv.fired (.reap slot chance) = [(r.sessionGeneration, will)] := by
    rw [fired_reap chance htaken, hsuspend, if_pos ⟨rfl, hdelay⟩, hwill]
    rfl
  obtain ⟨hself, hother⟩ := firedOf_single hfired
  rcases suspendParked_eq hsuspend with ⟨hnot, -⟩ | ⟨-, session, hs, hgen, hpk, hrec⟩
  · exact nomatch hnot
  · refine Passes.trails_rewrite (h.passes_slot htaken rfl rfl) h hg hs hgen (hrec.trans_same
      (shard.sameRecords_deliverLocal env.hash will none)) (fun o' ho' => congrArg
      Outline.generation (Outline.eq_of_unlessEnded ho')) (hother g) ?_
    rintro rfl
    rw [hself]
    have hdelay : r.bearer.delay = 0 := hdelay
    exact (Life.Step.suspendsWilling rfl hpk hwill hdelay).steps

lemma Inv.follows_reapArm (hdelay : min r.willDelay r.sessionExpiry ≠ 0) :
    srv.Follows env (.reap slot chance)
      { srv with
        parking
        shard := shard.armWill srv.now r.clientId r.sessionGeneration will
          (min r.willDelay r.sessionExpiry) } g := by
  have hfired := fired_reap_arm chance htaken hdelay
  rcases suspendParked_eq hsuspend with ⟨hnot, -⟩ | ⟨-, session, hs, hgen, hpk, hrec⟩
  · exact nomatch hnot
  · rw [Outline.unlessEnded_of_min hdelay] at hrec
    have harmed := hrec.trans_armWill hgen srv.now will (min r.willDelay r.sessionExpiry)
    refine Passes.trails_rewrite (h.passes_slot htaken rfl rfl) h hg hs hgen harmed (fun o' ho' =>
      some.inj ho' ▸ rfl) (fun _ => firedOf_of_nil hfired g) fun _ => ?_
    rw [firedOf_of_nil hfired]
    have hdelay : r.bearer.delay ≠ 0 := hdelay
    exact (Life.Step.suspendsArming rfl hpk hwill hdelay).steps

end

end

section

variable (h : srv.Inv) (hg : 0 < g) (chance : Chance) (hc : srv.tasks id = some c)
  (hphase : c.phase = .resuming)
include h hg hc hphase

lemma Inv.follows_reattachLost
    (hreattach : srv.shard.reattachParked c.clientId c.sessionGeneration id = (shard, none)) :
    srv.Follows env (.reattach id chance)
      { srv.setTask id (some
          { c with mailboxTx := none, will := none, clientId := "", phase := .ending }) with
        shard } g := by
  obtain ⟨rfl, hlost⟩ := reattachParked_eq_none hreattach
  refine Passes.trails (h.passes_next hc rfl rfl rfl) h hg (.refl _) (fun _ => rfl) fun heq r hl =>
    ?_
  refine (Life.Step.loses (role_of_resuming hphase) fun o hr => ?_).steps
  obtain ⟨session, hs, rfl, hgen⟩ := hl.exists_session hr
  exact hlost session hs (hgen.trans heq)

lemma Inv.follows_reattach {snapshot : SessionSnapshot} {queued : List Delivery}
    (hreattach : srv.shard.reattachParked c.clientId c.sessionGeneration id =
      (shard, some (snapshot, queued))) :
    srv.Follows env (.reattach id chance) (srv.finishTurn id (.ofConn shard
      (({ c with mailboxTx := none, phase := .running }.restore snapshot).resumeDelivery env
        chance.flushFails queued))) g := by
  obtain ⟨session, hs, hgen, hparked, hrec⟩ := reattachParked_eq_some hreattach
  have hst := standing_resumeDelivery env
    ({ c with mailboxTx := none, phase := .running }.restore snapshot) chance.flushFails queued
  generalize (({ c with mailboxTx := none, phase := .running } : Connection).restore
    snapshot).resumeDelivery env chance.flushFails queued = resumed at hst ⊢
  have hphase' : resumed.1.phase = .running :=
    congrArg (fun st => st.identity.phase) hst
  have hgen' : resumed.1.sessionGeneration = c.sessionGeneration :=
    congrArg (fun st => st.identity.sessionGeneration) hst
  have hbearer : resumed.1.bearer = { c.bearer with role := .speaking } :=
    bearer_of_standing hst
  have hsettle := bearer_settle (c := resumed.1) (by rw [hphase']; rfl) resumed.2
  refine Passes.trails_rewrite (h.passes_next hc rfl rfl ((generation_settle _ _).trans hgen')) h hg
    hs hgen hrec (fun o' ho' => some.inj ho' ▸ rfl) (fun _ => rfl) fun _ => ?_
  dsimp only [Turn.ofConn]
  rw [hsettle, hbearer]
  exact (Life.Step.reattaches id (role_of_resuming hphase) hparked).steps

end

/-! ### Work on the whole table -/

/-- Mailboxes are dropped. A session with one has its connection running. -/
lemma Inv.trails_shed (h : srv.Inv) (hg : 0 < occ.generation)
    (hview : ∀ k, shard.view k = srv.shard.view k ∨ shard.view k = (srv.shard.view k).shed) :
    Trails occ srv [] { srv with shard } := by
  rintro ⟨b, r⟩ hl
  have hlookup (k : String) : shard.sessions.lookup k = srv.shard.sessions.lookup k ∨
      shard.sessions.lookup k = (srv.shard.sessions.lookup k).map Session.shed :=
    (hview k).imp (congrArg ClientView.session) (congrArg ClientView.session)
  cases r with
  | none =>
    refine ⟨⟨b, none⟩, ⟨hl.bearer, fun k => ?_⟩, .nil _⟩
    by_contra hne
    obtain ⟨⟨k', o⟩, hk⟩ := ne_none_iff_exists'.mp hne
    obtain ⟨-, session', hs', -, hgen⟩ := exists_session_of_records hk
    have hnone (session : Session) (hs : srv.shard.sessions.lookup k = some session) :
        session.generation ≠ occ.generation := fun heq => by
      have hk := hl.record k
      rw [← heq, records_of_session hs] at hk
      exact nomatch hk
    rcases hlookup k with heq | heq
    · exact hnone session' (heq.symm.trans hs') hgen
    · obtain ⟨session, hs, rfl⟩ := map_eq_some_iff.mp (heq.symm.trans hs')
      exact hnone session hs hgen
  | some r =>
    obtain ⟨k, o⟩ := r
    obtain ⟨session, hs, rfl, hgen⟩ := hl.exists_session rfl
    rcases hlookup k with heq | heq
    · refine ⟨⟨b, some (k, session.outline)⟩, ⟨hl.bearer, k, ?_⟩, .nil _⟩
      rw [← hgen]
      exact records_of_session (heq.trans hs)
    · rw [hs, map_some] at heq
      have hfound : Found ({ srv with shard }.records occ.generation)
          (some (k, session.shed.outline)) := by
        refine ⟨k, ?_⟩
        rw [← hgen]
        exact @records_of_session k session.shed { srv with shard } heq
      cases hm : session.mailbox with
      | none =>
        -- there was none to drop
        have hsame : session.shed.outline = session.outline := by
          rw [Session.outline, Session.outline, hm]
          rfl
        rw [hsame] at hfound
        exact ⟨⟨b, some (k, session.outline)⟩, ⟨hl.bearer, hfound⟩, .nil _⟩
      | some id =>
        obtain ⟨c, hc, hholds, rfl, hcgen⟩ := h.owned k session id hs hm
        obtain rfl : b = some c.bearer := by
          refine hl.bearer.eq_some (h.once_bearers hg) (x := .task id) ?_
          rw [← hgen, ← hcgen]
          exact bears_task hc
        exact ⟨⟨some c.bearer, some (c.clientId, session.shed.outline)⟩, ⟨hl.bearer, hfound⟩,
          (Life.Step.shed session.outline (role_of_holding hholds.phase)).steps⟩

/-- What a sweep leaves of a record. -/
def sweptRecord (now : ℕ) (r : String × Outline) : Option (String × Outline) :=
  if r.2.expired now then none else some (r.1, r.2.fireWill now)

/-- The sweep takes a due will, and ends a session past its deadline. -/
lemma steps_sweep (occ : Occasion) (b : Option Bearer) (k : String) (session : Session) :
    Life.Steps occ ⟨b, some (k, session.outline)⟩ (session.sweptWills occ.now)
      ⟨b, sweptRecord occ.now (k, session.outline)⟩ := by
  have hfire : Life.Steps occ ⟨b, some (k, session.outline)⟩
      (if session.willDue occ.now then session.pendingWill.map Prod.fst else none).toList
      ⟨b, some (k, (session.fireWill occ.now).outline)⟩ := by
    unfold Session.fireWill
    split
    · next hdue =>
      obtain ⟨⟨will, deadline⟩, hwill, hle⟩ := (any_eq_true ..).mp hdue
      rw [hwill]
      exact (Life.Step.fires (o := session.outline) hwill (of_decide_eq_true hle)).steps
    · exact .nil _
  refine hfire.trans ?_
  have hsame : session.outline.expired occ.now = session.expired occ.now := rfl
  rw [sweptRecord, hsame]
  by_cases hexpired : session.expired occ.now
  · have hexpired' : (session.fireWill occ.now).expired occ.now = true :=
      (expired_fireWill session occ.now).trans hexpired
    rw [if_pos hexpired, if_pos hexpired]
    rw [Session.expired, Bool.and_eq_true, isNone_iff_eq_none] at hexpired'
    obtain ⟨hmailbox, hany⟩ := hexpired'
    obtain ⟨deadline, hdeadline, hle⟩ := (any_eq_true ..).mp hany
    exact (Life.Step.expires (o := (session.fireWill occ.now).outline) hmailbox hdeadline
      (of_decide_eq_true hle)).steps
  · rw [if_neg hexpired, if_neg hexpired, Session.outline_fireWill]
    exact .nil _

lemma recordOf_swept (session : Session) (k : String) (g now : ℕ) :
    ((if session.expired now then none else some (session.fireWill now)).map Session.outline).bind
      (·.recordOf k g) = (session.outline.recordOf k g).bind (sweptRecord now) := by
  have hsame : session.outline.expired now = session.expired now := rfl
  have hgen : (session.outline.fireWill now).generation = session.outline.generation := by
    unfold Outline.fireWill
    split <;> rfl
  by_cases hg : session.outline.generation = g
  · rw [Outline.recordOf, if_pos hg, bind_some, sweptRecord, hsame]
    split
    · rfl
    · rw [map_some, bind_some, Session.outline_fireWill]
      exact if_pos (hgen.trans hg)
  · rw [Outline.recordOf, if_neg hg, bind_none]
    split
    · rfl
    · rw [map_some, bind_some, Session.outline_fireWill]
      exact if_neg (hgen.symm ▸ hg)

lemma Inv.follows_sweep (h : srv.Inv) (chance : Chance)
    (hshard : srv'.shard = srv.sweptShard env) (htasks : srv'.tasks = srv.tasks)
    (hparking : srv'.parking = srv.parking) : srv.Follows env (.sweep chance) srv' g := by
  have hrec : SameRecords { srv with shard := (srv.shard.sweepExpired srv.now).1 }.shard
    srv'.shard := by
    rw [hshard]
    exact foldl_rel .refl .trans (fun s will => s.sameRecords_deliverLocal env.hash will none) _ _
  have hswept (k : String) : srv'.records g k = (srv.records g k).bind (sweptRecord srv.now) := by
    rw [records_of_same hrec, records, records, srv.shard.lookup_swept srv.now k]
    cases srv.shard.sessions.lookup k with
    | none => rfl
    | some session => exact recordOf_swept session k g srv.now
  have hbearer : srv'.bearers g = srv.bearers g := bearers_of_eq htasks (congrArg _ hparking)
  rintro ⟨b, r⟩ hl
  refine ⟨⟨b, r.bind (sweptRecord srv.now)⟩,
    ⟨hbearer ▸ hl.bearer, hl.record.bind (h.once_records g) _ hswept⟩, ?_⟩
  cases r with
  | none =>
    have hnone (k : String) (session : Session) (hs : srv.shard.sessions.lookup k = some session) :
        session.generation ≠ g := by
      rintro rfl
      exact nomatch (hl.record k).symm.trans (records_of_session hs)
    rw [show srv.firedOf (.sweep chance) g = [] from
      srv.shard.ofGeneration_sweptWills_none srv.now hnone]
    exact .nil _
  | some r =>
    obtain ⟨k, o⟩ := r
    obtain ⟨session, hs, rfl, rfl⟩ := hl.exists_session rfl
    rw [show srv.firedOf (.sweep chance) session.generation = session.sweptWills srv.now from
      srv.shard.ofGeneration_sweptWills srv.now hs fun k' session' hs' hgen =>
        h.distinct k' k session' session hs' hs hgen]
    exact steps_sweep (srv.occasion env (.sweep chance) session.generation) b k session

section

variable (h : srv.Inv) (hnow : occ.now = srv.now)
  (hfresh : srv.shard.nextGeneration < occ.generation → occ.fresh)
include h hnow hfresh

lemma Inv.trails_loadSession {ps : PersistedSession}
    (hexpiry : occ.generation = srv.shard.nextGeneration + 1 → ps.expirySecs = occ.expiry)
    (hrecalls : occ.recalls ps.clientId) :
    Trails occ srv [] { srv with shard := srv.shard.loadSession srv.now ps } := by
  have hrec := srv.shard.rewrites_loadSession srv.now ps
  by_cases hnew : occ.generation = srv.shard.nextGeneration + 1
  · -- the generation begins
    intro life hl
    obtain rfl := hl.unborn h (by omega)
    refine ⟨⟨none, some (ps.clientId, .loaded occ.now occ.generation ps)⟩,
      ⟨hl.bearer, ps.clientId, ?_⟩, (Life.Step.loaded ps (hfresh (by omega)) (hexpiry hnew)).steps⟩
    rw [@records_of_rewrites _ _ srv { srv with shard := srv.shard.loadSession srv.now ps } _ hrec,
      update_self, bind_some, hnow, hnew]
    exact if_pos rfl
  · refine h.trails_recalled hrec (fun o' ho' heq => hnew ?_) hrecalls rfl
    rw [← some.inj ho'] at heq
    exact heq.symm

lemma Inv.trails_loadSessions {sessions : List PersistedSession}
    (hexpiry : ∀ i ps, sessions[i]? = some ps → occ.generation = srv.shard.nextGeneration + 1 + i →
      ps.expirySecs = occ.expiry)
    (hrecalls : ∀ ps ∈ sessions, occ.recalls ps.clientId) :
    Trails occ srv [] { srv with shard := srv.shard.loadSessions sessions srv.now } := by
  induction sessions generalizing srv with
  | nil => exact .rest rfl rfl
  | cons ps sessions ih =>
    have hone := h.trails_loadSession hnow hfresh (hexpiry 0 ps rfl)
      (hrecalls ps List.mem_cons_self)
    have hlater : srv.shard.nextGeneration + 1 < occ.generation → occ.fresh :=
      fun hlt => hfresh (by omega)
    refine hone.trans (ih (h.loadSession srv.now ps) hnow hlater (fun i ps' hps' hgen => ?_)
      fun ps' hps' => hrecalls ps' (List.mem_cons_of_mem ps hps'))
    have hgen : occ.generation = srv.shard.nextGeneration + 1 + 1 + i := hgen
    exact hexpiry (i + 1) ps' hps' (by omega)

end

lemma Inv.follows_mesh (h : srv.Inv) (msg : MeshMsg) :
    srv.Follows env (.mesh msg) { srv with shard := srv.shard.handleMeshMsg env.hash msg } g := by
  by_cases hclaim : ∃ clientId requester resume, msg = .control (.claim clientId requester resume)
  · obtain ⟨clientId, requester, resume, rfl⟩ := hclaim
    exact h.trails_recalled (srv.shard.rewrites_handleClaim clientId requester resume)
      (fun _ hnone => by exact nomatch hnone) (rfl : clientId = clientId) rfl
  · have hrec := srv.shard.sameRecords_handleMeshMsg env.hash fun clientId requester resume heq =>
      hclaim ⟨clientId, requester, resume, heq⟩
    exact .rest rfl (records_of_same hrec) rfl

/-- The drain of parked connections when the server stops. -/
def drained (s : ShardState) (now : ℕ) (entries : List (Sigma fun _ : ℕ => ResumeState)) :
    ShardState :=
  entries.foldl
    (fun s e => (s.suspendParked now e.2.clientId e.2.sessionGeneration e.2.sessionExpiry).1) s

/-- One connection is taken from the registry and its session suspended. -/
def drainOne (srv : Server) (slot : ℕ) (r : ResumeState) : Server :=
  { srv with
    parking := { srv.parking with
      slots := srv.parking.slots.erase slot
      byClient := srv.parking.byClient.erase r.clientId }
    shard := (srv.suspending r).1 }

lemma Inv.trails_drainOne (h : srv.Inv) (hg : 0 < occ.generation) (hnow : occ.now = srv.now)
    (hr : srv.parking.slots.lookup slot = some r) : Trails occ srv [] (srv.drainOne slot r) := by
  have htaken : srv.parking.takeSlot slot = some ((srv.drainOne slot r).parking, r) := by
    rw [Parking.takeSlot, hr]
    rfl
  have hp : Passes srv (srv.drainOne slot r) r.sessionGeneration r.bearer none :=
    h.passes_slot htaken rfl rfl
  exact h.trails_suspends hg hnow hp rfl rfl

lemma Inv.drainOne (h : srv.Inv) (slot : ℕ) (r : ResumeState) : (srv.drainOne slot r).Inv := by
  have hcalm := srv.shard.calm_suspendParked srv.now r.clientId r.sessionGeneration r.sessionExpiry
  have hinv : { srv with shard := (srv.suspending r).1 }.Inv := h.tame hcalm.toTame rfl rfl rfl
  refine hinv.freeSlots (fun slot' r' hr' => ?_) rfl
  rw [lookup_erase_eq_ite] at hr'
  exact (ite_none_left_eq_some.mp hr').2

/-- The registry is emptied and every parked session suspended, one after the other. -/
lemma Inv.trails_drain (h : srv.Inv) (hg : 0 < occ.generation) (hnow : occ.now = srv.now)
    (htasks : srv'.tasks = srv.tasks) (hslots : srv'.parking.slots = ∅)
    (hshard : srv'.shard = drained srv.shard srv.now srv.parking.slots.entries) :
    Trails occ srv [] srv' := by
  obtain ⟨entries, hentries⟩ : ∃ entries, srv.parking.slots.entries = entries := ⟨_, rfl⟩
  rw [hentries] at hshard
  induction entries generalizing srv with
  | nil =>
    have hempty : srv.parking.slots = ∅ := ext hentries
    refine .rest (bearers_of_eq htasks (hslots.trans hempty.symm)) (records_of_same (.of_eq ?_))
    rw [hshard]
    rfl
  | cons e entries ih =>
    obtain ⟨slot, r⟩ := e
    have hr : srv.parking.slots.lookup slot = some r :=
      mem_lookup_iff.mpr (hentries ▸ List.mem_cons_self)
    have hrest : (srv.drainOne slot r).parking.slots.entries = entries := by
      show srv.parking.slots.entries.kerase slot = entries
      rw [hentries]
      exact List.kerase_cons_eq rfl
    exact (h.trails_drainOne hg hnow hr).trans (ih (h.drainOne slot r) hnow htasks hshard hrest)

lemma Inv.follows_shutDown (h : srv.Inv) (hg : 0 < g) :
    srv.Follows env .shutDown srv.shutDown g := by
  have hshed : Trails (srv.occasion env .shutDown g) srv []
      { srv with shard := srv.shard.shutdownConnections } :=
    h.trails_shed hg fun k => .inr (srv.shard.view_shutdownConnections k)
  have hinv : { srv with shard := srv.shard.shutdownConnections }.Inv :=
    h.tame srv.shard.calm_shutdownConnections.toTame rfl rfl rfl
  exact hshed.trans (hinv.trails_drain hg rfl rfl rfl rfl)

/-! ### Every piece of work -/

/-- Every piece of work takes the life of every generation some steps further. -/
lemma Move.follows (hmove : Move env srv op srv') (h : srv.Inv) (hg : 0 < g) :
    srv.Follows env op srv' g := by
  cases hmove with
  | idle op hquiet => exact .rest rfl rfl (firedOf_of_nil hquiet g)
  | elapse | drainWal => exact .rest rfl rfl rfl
  | accept tlsIdentity =>
    refine .rest ?_ rfl rfl
    have hnone : (new srv.nextChannel srv.shardId srv.limits tlsIdentity).bears g = none :=
      if_neg hg.ne
    rw [bearers_spawn, hnone, ← h.bearers_nextChannel, update_eq_self]
  | packet p chance hc hphase => exact h.follows_packet hg hc hphase p chance
  | @receive _ c d _ hc hphase =>
    have hst := standing_receive env c d
    have hholding : c.phase.holding = true := by rw [hphase]; rfl
    refine h.follows_turn hg hc hholding ?_ (congrArg (fun st => st.identity.sessionGeneration) hst)
      (.inl (bearer_of_standing hst)) (.of_eq rfl) rfl
    have hphase' : (c.receive env d).1.phase = c.phase :=
      congrArg (fun st => st.identity.phase) hst
    exact (congrArg Phase.holding hphase').trans hholding
  | hangUp why last hc hphase => exact h.follows_ended hg hc hphase last (.inl rfl) rfl
  | mailboxClosed hc hphase => exact h.follows_ended hg hc hphase [] (.inl rfl) rfl
  | shutDownNoticed hc hphase => exact h.follows_ended hg hc hphase _ (.inr rfl) rfl
  | @claimGoesOn id remaining c assigned rest chance hc hphase =>
    have hholding : c.phase.holding = true := by rw [hphase]; rfl
    have hp : Passes srv
        { srv.setTask id (some { c with phase := .claiming (remaining - 1) assigned }) with
          shard := { srv.shard with
            claimReplies := update srv.shard.claimReplies id rest } }
        c.sessionGeneration c.bearer
        (some ({ c with phase := .claiming (remaining - 1) assigned } : Connection).bearer) :=
      h.passes_next hc rfl rfl rfl
    have hbearer : ({ c with phase := .claiming (remaining - 1) assigned } : Connection).bearer =
        c.bearer := bearer_phase hholding rfl
    refine hp.trails h hg (.of_eq rfl) (fun _ => rfl) fun _ r _ => ?_
    rw [hbearer]
    exact .nil _
  | claimReply chance hc hphase =>
    refine h.follows_claimed hg hc hphase ?_ chance _ _ rfl
    exact .of_eq rfl
  | claimTimeout chance hc hphase =>
    refine h.follows_claimed hg hc hphase ?_ chance _ _ rfl
    exact .refl _
  | closeNameless hc hphase hname =>
    exact h.follows_leaves hg hc (by rw [hphase]; rfl) (fun hne => absurd hname hne) rfl
  | closeQuiet hc hphase _ hclose hwill => exact h.follows_close hg hc hphase hclose hwill
  | closeWill hc hphase _ hclose hwill hdelay =>
    exact h.follows_closeWill hg hc hphase hclose hwill hdelay
  | closeArm hc hphase _ hclose hwill hdelay =>
    exact h.follows_closeArm hg hc hphase hclose hwill hdelay
  | publishWill chance hc hphase => exact h.follows_publishWill hg chance hc hphase
  | parkDisplaced dupFails hc _ _ hguard hflip =>
    exact absurd hflip (h.not_parkDisplaced hc hguard.mailboxOpen)
  | parkFails hc hphase _ _ hflip =>
    exact h.follows_park hg hphase hflip (h.passes_parkFails hc _) rfl rfl
  | park hc hphase _ _ hflip =>
    exact h.follows_park hg hphase hflip (h.passes_park hc _) rfl rfl
  | wakeMissed | dismissMissed => exact .rest rfl rfl rfl
  | wake _ htaken =>
    obtain ⟨slot, htake⟩ := takeByClient_spec htaken
    exact h.follows_wake hg htake (.of_eq rfl) rfl
  | dismiss hcmds htaken => exact h.follows_dismiss hg hcmds htaken
  | ingress htaken => exact h.follows_wake hg htaken (.refl _) rfl
  | reapQuiet chance htaken hsuspend hwill =>
    exact h.follows_reapQuiet hg chance htaken hsuspend hwill
  | reapWill chance htaken hsuspend hwill hdelay =>
    exact h.follows_reapWill hg chance htaken hsuspend hwill hdelay
  | reapArm chance htaken hsuspend hwill hdelay =>
    exact h.follows_reapArm hg chance htaken hsuspend hwill hdelay
  | reattachLost chance hc hphase hreattach =>
    exact h.follows_reattachLost hg chance hc hphase hreattach
  | reattach chance hc hphase hreattach => exact h.follows_reattach hg chance hc hphase hreattach
  | mesh msg => exact h.follows_mesh msg
  | publish message =>
    exact .rest rfl (records_of_same (srv.shard.sameRecords_deliverLocal env.hash message none)) rfl
  | sweep chance => exact h.follows_sweep chance rfl rfl rfl
  | shed order max => exact h.trails_shed hg (srv.shard.view_shedConnections order max)
  | load sessions =>
    refine h.trails_loadSessions rfl (fun hlt => hlt) (fun i ps hps hgen => ?_)
      fun ps hps => List.mem_map_of_mem hps
    have hgen : g = srv.shard.nextGeneration + 1 + i := hgen
    show ps.expirySecs = srv.negotiates env (.load sessions) g
    simp only [negotiates]
    rw [hgen, Nat.add_sub_cancel_left, hps]
  | shutDown => exact h.follows_shutDown hg

/-! ### Generations and time go up -/

/-- A session whose generation is not new was there before. -/
lemma Inv.exists_session_of_le (h : srv.Inv) (hmove : Move env srv op srv') (h' : srv'.Inv)
    {session' : Session} (hs' : srv'.shard.sessions.lookup k = some session')
    (hold : session'.generation ≤ srv.shard.nextGeneration) : ∃ session,
      srv.shard.sessions.lookup k = some session ∧ session.generation = session'.generation := by
  have hg := h'.generation_pos k session' hs'
  obtain ⟨life, hl⟩ := srv.exists_lives session'.generation
  obtain ⟨life', hl', hsteps⟩ := hmove.follows h hg life hl
  have hr' := hl'.record.eq_some (h'.once_records _) (records_of_session hs')
  obtain ⟨o, hr⟩ := hsteps.exists_record (not_lt.mpr hold) hr'
  obtain ⟨session, hs, -, hgen⟩ := hl.exists_session hr
  exact ⟨session, hs, hgen⟩

lemma Move.now_le (hmove : Move env srv op srv') : srv.now ≤ srv'.now := by
  cases hmove with
  | elapse nanos => exact Nat.le_add_right ..
  | _ => exact le_rfl

end Server

end Rusquitto
