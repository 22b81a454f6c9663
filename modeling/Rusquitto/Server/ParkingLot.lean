import Rusquitto.Server.Registry
import Rusquitto.Server.Wakeups

/-!
# A shard and its parking task

`Server` numbers parked connections in the order they park; the source keeps them in a slab whose
slots are used again. `ParkingLot` runs the two side by side, and `ParkingLot.Coupled` says that the
slab holds what the shard has parked. So no parked client is forgotten, each is woken once, and a
token takes the connection it was armed for or nothing (`parking_law`).
-/

namespace Rusquitto

open ShardState Function Server Option List Parking AList

variable {srv srv' : Server} {op : ServerOp} {g i id : ℕ} {conn : ParkedConn} {registry : Registry}
  {k : String} {generation : Option ℕ}

/-- A shard with the registry of its parked connections. -/
structure ParkingLot where
  server : Server
  registry : Registry := {}
  /-- How often each slot was vacated. -/
  uses : ℕ → ℕ := fun _ => 0
  /-- The number of the connection that was the last to park in a slot. -/
  parkedAt : ℕ → ℕ := fun _ => 0
  /-- The tokens sockets were armed with, and the connections they were armed for. -/
  armed : List (UInt64 × ℕ) := []
  /-- The commands sent to the parking task. -/
  sent : List UnparkCmd := []
  /-- How many of them before a session generation began. -/
  sentBefore : ℕ → ℕ := fun _ => 0

/-- Work that concerns parking, and all other. -/
inductive LotOp where
  | work (op : ServerOp)
  /-- A connection parks. Its descriptor is duplicated, or that fails. -/
  | park (id : ℕ) (fd : Option (Fin (2 ^ 31))) (deadline : Option ℕ)
  /-- The parking task takes the next command. -/
  | cmd
  /-- It takes a completion from the ring. -/
  | ready (userData : UInt64)
  /-- It takes the next connection past its deadline. -/
  | expire (index : UInt32) (chance : Chance)
  | shutDown

namespace ParkingLot

variable (env : Env) (lot : ParkingLot)

/-- The commands a piece of work has sent. -/
def sentBy (srv : Server) (op : ServerOp) (srv' : Server) : List UnparkCmd :=
  (srv'.shard.unparkTx.getD []).drop ((srv.awaiting op).getD []).length

/-- The shard performs a piece of work. -/
def serve (op : ServerOp) : ParkingLot :=
  let server := lot.server.apply env op
  let sent := lot.sent ++ sentBy lot.server op server
  { lot with
    server
    sent
    sentBefore := fun g =>
      if lot.server.shard.nextGeneration < g then sent.length else lot.sentBefore g }

/-- Connections are removed from the registry. -/
def vacate (registry : Registry) : ParkingLot :=
  { lot with registry, uses := lot.registry.recount registry lot.uses }

def park (id : ℕ) (fd : Option (Fin (2 ^ 31))) (deadline : Option ℕ) : ParkingLot :=
  let next := lot.serve env (.park id fd.isNone)
  match fd, next.server.parking.slots.lookup lot.server.parking.nextSlot with
  | some fd, some resume =>
    let (registry, token) := lot.registry.park { fd, resume, deadline }
    { next with
      registry
      parkedAt := update lot.parkedAt (token >>> 32).toUInt32.toNat lot.server.parking.nextSlot
      armed := (token, lot.server.parking.nextSlot) :: lot.armed }
  | _, _ => next

/-- What the next command takes from the registry. -/
def commanded : Option (Registry × ParkedConn) :=
  match lot.server.shard.unparkTx with
  | some (.wake clientId :: _) => lot.registry.takeByClient clientId none
  | some (.close clientId generation :: _) => lot.registry.takeByClient clientId (some generation)
  | _ => none

def cmd : ParkingLot :=
  match lot.commanded with
  | none => lot.serve env .parkingCmd
  | some (registry, _) => (lot.serve env .parkingCmd).vacate registry

def ready (userData : UInt64) : ParkingLot :=
  match lot.registry.takeByToken userData with
  | none => lot
  | some (registry, _) =>
    (lot.serve env (.ingress (lot.parkedAt (userData >>> 32).toUInt32.toNat))).vacate registry

/-- Those past their deadline are taken first, then each is handled, with nothing in between. -/
def expire (index : UInt32) (chance : Chance) : ParkingLot :=
  if index ∈ lot.registry.expired lot.server.now then
    match lot.registry.removeWithoutCancel index with
    | none => lot
    | some (registry, _) =>
      (lot.serve env (.reap (lot.parkedAt index.toNat) chance)).vacate registry
  else lot

def apply : LotOp → ParkingLot
  | .work op => lot.serve env op
  | .park id fd deadline => lot.park env id fd deadline
  | .cmd => lot.cmd env
  | .ready userData => lot.ready env userData
  | .expire index chance => lot.expire env index chance
  | .shutDown => (lot.serve env .shutDown).vacate (lot.registry.removeAll lot.registry.occupied)

/-- Work that leaves the registry alone. -/
def Unregistered : ServerOp → Prop
  | .park .. | .parkingCmd | .ingress .. | .reap .. | .shutDown => False
  | _ => True

/-- What the parking task, the system and the start of the server see to. -/
def Fair : LotOp → Prop
  | .work (.load _) => (∀ id, lot.server.tasks id = none) ∧ lot.server.parking.slots = ∅
  | .work op => Unregistered op
  -- the commands sent until the connection opened its session are done, and the descriptor is new
  | .park id fd _ =>
    (∀ c cmds, lot.server.tasks id = some c → lot.server.shard.unparkTx = some cmds →
      lot.sentBefore c.sessionGeneration + cmds.length ≤ lot.sent.length) ∧
    ∀ fd' ∈ fd, ∀ i conn, lot.registry.slab.at? i = some conn → conn.fd ≠ fd'
  -- the ring completes what it was asked to
  | .ready userData => userData = Registry.cancelToken ∨ ∃ n, (userData, n) ∈ lot.armed
  | _ => True

variable {env lot} {lot' : ParkingLot}

/-! ### The commands -/

lemma exists_awaiting {waiting : List UnparkCmd} (h : srv.awaiting op = some waiting) :
    ∃ cmds, srv.shard.unparkTx = some cmds ∧ waiting <:+ cmds := by
  unfold awaiting at h
  split at h
  · obtain ⟨cmds, hcmds, rfl⟩ := map_eq_some_iff.mp h
    exact ⟨cmds, hcmds, tail_suffix cmds⟩
  · exact ⟨waiting, h, suffix_refl waiting⟩

lemma unparkTx_sentBy {cmds : List UnparkCmd} (h : srv.Signals op srv' cmds) :
    srv'.shard.unparkTx = (srv.awaiting op).map (· ++ sentBy srv op srv') ∧
      Sublist (sentBy srv op srv') cmds := by
  unfold sentBy
  rw [h.unparkTx]
  cases srv.awaiting op with
  | none => exact ⟨rfl, nil_sublist cmds⟩
  | some waiting => simp

/-- What is known of the commands when a piece of work begins. -/
structure Queued (lot : ParkingLot) : Prop where
  server : lot.server.Inv
  lawful : lot.server.dormitory.Lawful
  /-- The commands that wait were sent last. -/
  waiting : ∀ cmds, lot.server.shard.unparkTx = some cmds → cmds <:+ lot.sent
  /-- A connection of a client was to be closed before the client's session began. -/
  closed : ∀ k session i g, lot.server.shard.sessions.lookup k = some session →
    lot.sent[i]? = some (.close k g) → i < lot.sentBefore session.generation

lemma Queued.serve (h : lot.Queued) (horderly : lot.server.Orderly op) :
    (lot.serve env op).Queued := by
  obtain ⟨cmds, hsignals⟩ : ∃ cmds, lot.server.Signals op (lot.server.apply env op) cmds :=
    h.server.signals h.lawful horderly
  obtain ⟨hunparkTx, hsublist⟩ := unparkTx_sentBy hsignals
  refine ⟨h.server.apply op, h.lawful.turn hsignals.turn, fun cmds' hcmds' => ?_,
    fun k session i g hs hi => ?_⟩
  · obtain ⟨waiting, hwaiting, rfl⟩ := map_eq_some_iff.mp (hunparkTx.symm.trans hcmds')
    obtain ⟨cmds₀, hcmds₀, hsuffix⟩ := exists_awaiting hwaiting
    obtain ⟨done, hdone⟩ := hsuffix.trans (h.waiting cmds₀ hcmds₀)
    refine ⟨done, ?_⟩
    show done ++ (waiting ++ _) = lot.sent ++ _
    rw [← hdone, append_assoc]
  · have hi : (lot.sent ++ sentBy lot.server op (lot.server.apply env op))[i]? =
      some (.close k g) := hi
    have hlt := (List.getElem?_eq_some_iff.mp hi).1
    show i < if lot.server.shard.nextGeneration < session.generation then _ else _
    split
    · exact hlt
    · next hold =>
      -- the session was there before, so nothing of its client was to be closed now
      obtain ⟨session₀, hs₀, hgen⟩ := h.server.exists_session_of_le (lot.server.move_apply env op)
        (h.server.apply op) hs (not_lt.mp hold)
      rw [← hgen]
      rw [getElem?_append] at hi
      split at hi
      · exact h.closed k session₀ i g hs₀ hi
      · have hmem := hsublist.subset (mem_of_getElem? hi)
        exact absurd (hsignals.replaced k g hmem session hs) hold

/-- The commands a connection has to wait for are done when it parks. -/
lemma Queued.orderly_park (h : lot.Queued) {fd : Option (Fin (2 ^ 31))} {deadline : Option ℕ}
    (hfair : lot.Fair (.park id fd deadline)) (dupFails : Bool) :
    lot.server.Orderly (.park id dupFails) := by
  intro c session hc hs hgen cmds hcmds g hmem
  obtain ⟨done, hsent⟩ := h.waiting cmds hcmds
  obtain ⟨i, hi, hcmd⟩ := getElem_of_mem hmem
  have hdone := hfair.1 c cmds hc hcmds
  have hclosed := h.closed c.clientId session (done.length + i) g hs (by
    rw [← hsent, getElem?_append_right (Nat.le_add_right ..), Nat.add_sub_cancel_left,
      getElem?_eq_getElem hi, hcmd])
  rw [hgen] at hclosed
  rw [← hsent, length_append] at hdone
  omega

/-! ### The registry holds what the shard has parked -/

/-- A token was armed for a connection: it is there, or it has left and the slot was vacated since.
-/
def Armed (lot : ParkingLot) (token : UInt64) (n : ℕ) : Prop :=
  n < lot.server.parking.nextSlot ∧ ∃ index use, token = Registry.token index (.ofNat use) ∧
    index.toNat < 2 ^ 31 ∧
    ((use = lot.uses index.toNat ∧ (lot.registry.slab.at? index.toNat).isSome ∧
        lot.parkedAt index.toNat = n) ∨
      (use < lot.uses index.toNat ∧ lot.server.parking.slots.lookup n = none))

structure Coupled (lot : ParkingLot) : Prop where
  consistent : lot.registry.Consistent lot.uses
  parked : ∀ i conn, lot.registry.slab.at? i = some conn →
    lot.server.parking.slots.lookup (lot.parkedAt i) = some conn.resume
  found : ∀ n r, lot.server.parking.slots.lookup n = some r →
    ∃ i conn, lot.registry.slab.at? i = some conn ∧ lot.parkedAt i = n
  armed : ∀ token n, (token, n) ∈ lot.armed → lot.Armed token n

section

variable (h : lot.Coupled)
include h

/-- A connection is in one slot only. -/
lemma Coupled.index_unique {j : ℕ} {conn' : ParkedConn} (hi : lot.registry.slab.at? i = some conn)
    (hj : lot.registry.slab.at? j = some conn') (heq : lot.parkedAt i = lot.parkedAt j) :
    i = j := by
  have hresume : conn.resume = conn'.resume := by
    have hslot := h.parked i conn hi
    rw [heq, h.parked j conn' hj] at hslot
    exact (some.inj hslot).symm
  have hindex {i : ℕ} {conn : ParkedConn} (hi : lot.registry.slab.at? i = some conn) :
      lot.registry.byClient.lookup conn.resume.clientId = some i.toUInt32 :=
    (h.consistent.index _ _).mpr
      ⟨conn, by rw [Registry.toNat_toUInt32 (h.consistent.lt hi), hi], rfl⟩
  have hsame := (hindex hi).symm.trans (hresume ▸ hindex hj)
  have hnat := congrArg UInt32.toNat (some.inj hsame)
  rwa [Registry.toNat_toUInt32 (h.consistent.lt hi), Registry.toNat_toUInt32
    (h.consistent.lt hj)] at hnat

/-- The registry stays as it is. -/
lemma Coupled.rest (hparking : lot'.server.parking = lot.server.parking)
    (hregistry : lot'.registry = lot.registry) (huses : lot'.uses = lot.uses)
    (hparkedAt : lot'.parkedAt = lot.parkedAt) (harmed : lot'.armed = lot.armed) :
    lot'.Coupled where
  consistent := by
    rw [hregistry, huses]
    exact h.consistent
  parked := by
    rw [hregistry, hparking, hparkedAt]
    exact h.parked
  found := by
    rw [hregistry, hparking, hparkedAt]
    exact h.found
  armed token n hmem := by
    rw [harmed] at hmem
    unfold Armed
    rw [hregistry, hparking, huses, hparkedAt]
    exact h.armed token n hmem

/-- A connection leaves the registry. -/
lemma Coupled.vacate {index : UInt32}
    (hremove : lot.registry.removeWithoutCancel index = some (registry, conn))
    (hslots : lot'.server.parking.slots = lot.server.parking.slots.erase (lot.parkedAt index.toNat))
    (hnext : lot'.server.parking.nextSlot = lot.server.parking.nextSlot)
    (hregistry : lot'.registry = registry)
    (huses : lot'.uses = lot.registry.recount registry lot.uses)
    (hparkedAt : lot'.parkedAt = lot.parkedAt) (harmed : lot'.armed = lot.armed) :
    lot'.Coupled := by
  obtain ⟨hat, hat', -, hconsistent⟩ := h.consistent.remove hremove
  rw [Registry.recount_remove hat hat'] at huses
  subst hregistry
  refine ⟨huses ▸ hconsistent, fun i conn' hi => ?_, fun n r hn => ?_, fun token n hmem => ?_⟩
  · rw [hat', update_apply] at hi
    obtain ⟨hne, hi⟩ := ite_none_left_eq_some.mp hi
    rw [hparkedAt, hslots, lookup_erase_eq_ite,
      if_neg fun heq => hne (h.index_unique hi hat heq)]
    exact h.parked i conn' hi
  · rw [hslots, lookup_erase_eq_ite] at hn
    obtain ⟨hne, hn⟩ := ite_none_left_eq_some.mp hn
    obtain ⟨i, conn', hi, rfl⟩ := h.found n r hn
    refine ⟨i, conn', ?_, by rw [hparkedAt]⟩
    rw [hat', update_apply, if_neg, hi]
    rintro rfl
    exact hne rfl
  · rw [harmed] at hmem
    obtain ⟨hlt, index', use, htoken, hlt', hcase⟩ := h.armed token n hmem
    refine ⟨hnext ▸ hlt, index', use, htoken, hlt', ?_⟩
    rw [huses, hat', hparkedAt, hslots, lookup_erase_eq_ite, update_apply,
      update_apply]
    by_cases hindex : index'.toNat = index.toNat
    · rw [if_pos hindex, if_pos hindex]
      rw [hindex] at hcase
      rcases hcase with ⟨huse, -, rfl⟩ | ⟨huse, hgone⟩
      · exact .inr ⟨by omega, by rw [if_pos rfl]⟩
      · exact .inr ⟨by omega, by rw [hgone, ite_self]⟩
    · rw [if_neg hindex, if_neg hindex]
      refine hcase.imp_right fun ⟨huse, hgone⟩ => ⟨huse, by rw [hgone, ite_self]⟩

/-- A connection parks. -/
lemma Coupled.occupy (conn : ParkedConn)
    (hfd : ∀ i conn', lot.registry.slab.at? i = some conn' → conn'.fd ≠ conn.fd)
    (hclient : ∀ i conn', lot.registry.slab.at? i = some conn' → conn'.resume.clientId ≠
      conn.resume.clientId)
    (hslots : lot'.server.parking.slots =
      lot.server.parking.slots.insert lot.server.parking.nextSlot
      conn.resume)
    (hfresh : ∀ n, lot.server.parking.nextSlot ≤ n → lot.server.parking.slots.lookup n = none)
    (hnext : lot'.server.parking.nextSlot = lot.server.parking.nextSlot + 1)
    (hregistry : lot'.registry = (lot.registry.park conn).1) (huses : lot'.uses = lot.uses)
    (hparkedAt : lot'.parkedAt = update lot.parkedAt
      ((lot.registry.park conn).2 >>> 32).toUInt32.toNat lot.server.parking.nextSlot)
    (harmed : lot'.armed = ((lot.registry.park conn).2, lot.server.parking.nextSlot) :: lot.armed) :
    lot'.Coupled := by
  obtain ⟨index, hlt, hnone, hat, -, htoken, hconsistent⟩ := h.consistent.park hfd hclient
  rw [htoken, Registry.index_token] at hparkedAt
  rw [htoken] at harmed
  rw [← hregistry] at hat hconsistent
  -- the slots that are taken stay taken, under the same number
  have hother {i : ℕ} {conn' : ParkedConn} (hi : lot.registry.slab.at? i = some conn') :
      i ≠ index.toNat := by
    rintro rfl
    exact nomatch hnone.symm.trans hi
  have hold {n : ℕ} {r : ResumeState} (hn : lot.server.parking.slots.lookup n = some r) :
      n ≠ lot.server.parking.nextSlot := by
    rintro rfl
    exact nomatch (hfresh _ le_rfl).symm.trans hn
  refine ⟨huses ▸ hconsistent, fun i conn' hi => ?_, fun n r hn => ?_, fun token n hmem => ?_⟩
  · rw [hat, update_apply] at hi
    rw [hparkedAt, hslots, update_apply, lookup_insert_eq_ite]
    split at hi
    · next heq => rw [if_pos heq, if_pos rfl, some.inj hi]
    · next hne =>
      have hslot := h.parked i conn' hi
      rw [if_neg hne, if_neg (hold hslot), hslot]
  · rw [hslots, lookup_insert_eq_ite] at hn
    split at hn
    · next heq =>
      exact ⟨index.toNat, conn, by rw [hat, update_self], by
        rw [hparkedAt, update_self, heq]⟩
    · obtain ⟨i, conn', hi, rfl⟩ := h.found n r hn
      have hne := hother hi
      exact ⟨i, conn', by rw [hat, update_of_ne hne, hi], by
        rw [hparkedAt, update_of_ne hne]⟩
  · rw [harmed] at hmem
    rcases mem_cons.mp hmem with heq | hmem
    · obtain ⟨rfl, rfl⟩ := Prod.mk.inj heq
      refine ⟨by omega, index, lot.uses index.toNat, rfl, hlt, .inl ⟨by rw [huses], ?_, ?_⟩⟩
      · rw [hat, update_self]
        rfl
      · rw [hparkedAt, update_self]
    · obtain ⟨hn, index', use, rfl, hlt', hcase⟩ := h.armed token n hmem
      refine ⟨by omega, index', use, rfl, hlt', ?_⟩
      rw [huses, hat, hparkedAt, hslots, lookup_insert_eq_ite, if_neg hn.ne]
      refine hcase.imp_left fun ⟨huse, hsome, hparked⟩ => ?_
      obtain ⟨conn', hi⟩ := isSome_iff_exists.mp hsome
      have hne := hother hi
      exact ⟨huse, by rw [update_of_ne hne, hi]; rfl, by rw [update_of_ne hne, hparked]⟩

/-- A token resolves to the connection it was armed for, as long as that is there. -/
lemma Coupled.takeByToken_eq (hfew : ∀ i, lot.uses i < 2 ^ 32) {token : UInt64} {n : ℕ}
    (hmem : (token, n) ∈ lot.armed) :
    (lot.registry.takeByToken token).map (·.2.resume) = lot.server.parking.slots.lookup n := by
  obtain ⟨-, index, use, rfl, hlt, hcase⟩ := h.armed token n hmem
  rcases hcase with ⟨huse, hsome, rfl⟩ | ⟨huse, hgone⟩
  · obtain ⟨conn, hat⟩ := isSome_iff_exists.mp hsome
    obtain ⟨registry, hremove⟩ := Registry.removeWithoutCancel_of_at? hat
    rw [h.consistent.takeByToken_eq hlt huse.le (hfew _), if_pos huse, hremove, h.parked _ conn hat]
    rfl
  · rw [h.consistent.takeByToken_eq hlt huse.le (hfew _), if_neg huse.ne, hgone]
    rfl

end

/-! ### The work -/

lemma parking_unregistered (hmove : Move env srv op srv') (hop : Unregistered op) :
    srv'.parking = srv.parking := by
  cases hmove with
  | parkDisplaced | parkFails | park | wakeMissed | wake | dismissMissed | dismiss |
    ingress | reapQuiet
  | reapWill | reapArm | shutDown => exact hop.elim
  | _ => rfl

lemma Coupled.work (h : lot.Coupled) (hop : Unregistered op) : (lot.serve env op).Coupled :=
  h.rest (parking_unregistered (lot.server.move_apply env op) hop) rfl rfl rfl rfl

lemma Fair.orderly (hfair : lot.Fair (.work op)) : lot.server.Orderly op ∧ Unregistered op := by
  cases op with
  | load sessions => exact ⟨hfair, trivial⟩
  | park => exact hfair.elim
  | _ => exact ⟨trivial, hfair⟩

/-- What parking does to the registry of the shard. -/
lemma parking_park {dupFails : Bool} (hmove : Move env srv (.park id dupFails) srv') :
    srv'.parking = srv.parking ∨
      ∃ c shard, srv.tasks id = some c ∧ srv.ParkAllowed id ∧ dupFails = false ∧
        srv.flipping c = (shard, true) ∧ srv'.parking = srv.parking.park c.intoParts := by
  cases hmove with
  | idle | parkDisplaced | parkFails => exact .inl rfl
  | park hc _ _ hguard hflip => exact .inr ⟨_, _, hc, hguard, rfl, hflip, rfl⟩

lemma Coupled.park (h : lot.Coupled) (hq : lot.Queued) {fd : Option (Fin (2 ^ 31))}
    {deadline : Option ℕ} (hfair : lot.Fair (.park id fd deadline)) :
    (lot.park env id fd deadline).Coupled := by
  have horderly := hq.orderly_park hfair fd.isNone
  have hempty : lot.server.parking.slots.lookup lot.server.parking.nextSlot = none :=
    hq.server.slots_lt _ le_rfl
  unfold ParkingLot.park
  dsimp only
  rcases parking_park (lot.server.move_apply env (.park id fd.isNone)) with
    hsame | ⟨c, shard, hc, hguard, hfd, hflip, hparked⟩
  · -- nothing is registered
    have hnone : (lot.serve env (.park id fd.isNone)).server.parking.slots.lookup
        lot.server.parking.nextSlot = none := by
      show (lot.server.apply env _).parking.slots.lookup _ = none
      rw [hsame]
      exact hempty
    rw [hnone]
    cases fd <;> exact h.rest hsame rfl rfl rfl rfl
  · obtain ⟨fd', rfl⟩ := isSome_iff_exists.mp (isNone_eq_false_iff.mp hfd)
    have hresume : (lot.serve env (.park id (some fd').isNone)).server.parking.slots.lookup
        lot.server.parking.nextSlot = some c.intoParts := by
      show (lot.server.apply env _).parking.slots.lookup _ = _
      rw [hparked]
      exact lookup_insert _
    rw [hresume]
    obtain ⟨hmay, -⟩ := hq.server.mayRetire hc hguard hflip horderly
    refine h.occupy { fd := fd', resume := c.intoParts, deadline } (hfair.2 fd' rfl)
      (fun i conn' hi heq => ?_) (congrArg slots hparked) hq.server.slots_lt
      (congrArg nextSlot hparked) rfl rfl rfl rfl
    -- a connection of the same client would have been closed
    refine hq.lawful.no_bed hmay (lot.parkedAt i) conn'.resume.sessionGeneration ?_
    rw [beds_lookup (h.parked i conn' hi), heq]
    rfl

lemma Coupled.takeSlot_eq (h : lot.Coupled) (hat : lot.registry.slab.at? i = some conn) :
    lot.server.parking.takeSlot (lot.parkedAt i) = some ({ lot.server.parking with
      slots := lot.server.parking.slots.erase (lot.parkedAt i)
      byClient := lot.server.parking.byClient.erase conn.resume.clientId }, conn.resume) := by
  rw [takeSlot, h.parked i conn hat]
  rfl

section

variable (h : lot.Coupled) (hd : lot.server.dormitory.Lawful)
include h hd

/-- The index of the shard leads to the same connection as that of the registry. -/
lemma Coupled.takeByClient_eq_some
    (htaken : lot.registry.takeByClient k generation = some (registry, conn)) :
    ∃ index, lot.registry.removeWithoutCancel index = some (registry, conn) ∧
      ∃ parking, lot.server.parking.takeByClient k generation = some (parking, conn.resume) ∧
        parking.slots = lot.server.parking.slots.erase (lot.parkedAt index.toNat) ∧
        parking.nextSlot = lot.server.parking.nextSlot := by
  obtain ⟨index, hindex, hremove, hgen⟩ := Registry.takeByClient_eq_some htaken
  obtain ⟨hat, -⟩ := h.consistent.remove hremove
  obtain ⟨conn', hat', hclient⟩ := (h.consistent.index k index).mp hindex
  obtain rfl := some.inj (hat.symm.trans hat')
  have hslot : lot.server.parking.byClient.lookup k = some (lot.parkedAt index.toNat) :=
    (hd.indexed k _).mpr ⟨conn.resume.sessionGeneration, by
      rw [beds_lookup (h.parked _ conn hat), hclient]⟩
  refine ⟨index, hremove, { lot.server.parking with
    slots := lot.server.parking.slots.erase (lot.parkedAt index.toNat)
    byClient := lot.server.parking.byClient.erase conn.resume.clientId }, ?_, rfl, rfl⟩
  rw [takeByClient, hslot, bind_some, h.takeSlot_eq hat]
  refine filter_eq_some_iff.mpr ⟨rfl, ?_⟩
  cases generation with
  | none => rfl
  | some g => simpa using (hgen g rfl).symm

lemma Coupled.takeByClient_eq_none (htaken : lot.registry.takeByClient k generation = none) :
    lot.server.parking.takeByClient k generation = none := by
  by_contra hne
  obtain ⟨⟨parking, r⟩, hsome⟩ := ne_none_iff_exists'.mp hne
  obtain ⟨slot, hindex, htake, hgen⟩ := Server.takeByClient_eq hsome
  obtain ⟨hr, -⟩ := Server.takeSlot_eq htake
  obtain ⟨i, conn, hat, rfl⟩ := h.found slot r hr
  obtain rfl := some.inj ((h.parked i conn hat).symm.trans hr)
  obtain ⟨g, hbed⟩ := (hd.indexed k _).mp hindex
  rw [Server.beds_lookup hr] at hbed
  have hclient : conn.resume.clientId = k := (Prod.mk.inj (some.inj hbed)).1
  obtain ⟨g', hg', hother⟩ := h.consistent.takeByClient_eq_none htaken hat hclient
  exact hother (hgen g' hg').symm

/-- The next command is for this client. -/
lemma Coupled.cmd_of (hcommanded : lot.commanded = lot.registry.takeByClient k generation)
    (hparking : (lot.server.apply env .parkingCmd).parking =
      ((lot.server.parking.takeByClient k generation).map Prod.fst).getD lot.server.parking) :
    (lot.cmd env).Coupled := by
  unfold ParkingLot.cmd
  rw [hcommanded]
  cases htaken : lot.registry.takeByClient k generation with
  | none =>
    rw [h.takeByClient_eq_none hd htaken] at hparking
    exact h.rest hparking rfl rfl rfl rfl
  | some taken =>
    obtain ⟨registry, conn⟩ := taken
    obtain ⟨index, hremove, parking, hsome, hslots, hnext⟩ := h.takeByClient_eq_some hd htaken
    rw [hsome] at hparking
    refine h.vacate hremove ?_ ?_ rfl rfl rfl rfl
    · exact (congrArg slots hparking).trans hslots
    · exact (congrArg nextSlot hparking).trans hnext

end

lemma parking_wake (srv : Server) (taken : Option (Parking × ResumeState)) :
    (srv.wake taken).parking = (taken.map Prod.fst).getD srv.parking := by
  cases taken <;> rfl

lemma Coupled.cmd (h : lot.Coupled) (hd : lot.server.dormitory.Lawful) : (lot.cmd env).Coupled := by
  match hcmds : lot.server.shard.unparkTx with
  | some (.wake k :: rest) =>
    have hcommanded : lot.commanded = lot.registry.takeByClient k none := by rw [commanded, hcmds]
    refine h.cmd_of hd hcommanded ?_
    simp only [Server.apply, Server.parkingCmd, hcmds]
    exact parking_wake _ _
  | some (.close k g :: rest) =>
    have hcommanded : lot.commanded = lot.registry.takeByClient k (some g) := by rw
      [commanded, hcmds]
    refine h.cmd_of hd hcommanded ?_
    simp only [Server.apply, Server.parkingCmd, hcmds]
    cases lot.server.parking.takeByClient k (some g) <;> rfl
  | some [] | none =>
    have hnone : lot.commanded = none := by rw [commanded, hcmds]
    unfold ParkingLot.cmd
    rw [hnone]
    refine h.rest ?_ rfl rfl rfl rfl
    show (lot.server.parkingCmd).parking = _
    rw [parkingCmd, hcmds]

/-- The shard takes what is taken from the registry. -/
lemma Coupled.serve_vacate (h : lot.Coupled) {index : UInt32}
    (hremove : lot.registry.removeWithoutCancel index = some (registry, conn))
    (hparking : (lot.server.apply env op).parking = ((lot.server.parking.takeSlot
      (lot.parkedAt index.toNat)).map Prod.fst).getD lot.server.parking) :
    ((lot.serve env op).vacate registry).Coupled := by
  obtain ⟨hat, -⟩ := h.consistent.remove hremove
  rw [h.takeSlot_eq hat] at hparking
  refine h.vacate hremove ?_ ?_ rfl rfl rfl rfl
  · exact congrArg slots hparking
  · exact (congrArg nextSlot hparking).trans rfl

lemma Coupled.ready (h : lot.Coupled) (hfew : ∀ i, lot.uses i < 2 ^ 32) {userData : UInt64}
    (hfair : lot.Fair (.ready userData)) : (lot.ready env userData).Coupled := by
  unfold ParkingLot.ready
  cases htaken : lot.registry.takeByToken userData with
  | none => exact h
  | some taken =>
    obtain ⟨registry, conn⟩ := taken
    rcases hfair with rfl | ⟨n, hmem⟩
    · exact nomatch htaken
    · obtain ⟨-, index, use, rfl, hlt, hcase⟩ := h.armed userData n hmem
      have hissued : use ≤ lot.uses index.toNat := by
        rcases hcase with ⟨huse, -⟩ | ⟨huse, -⟩
        · exact huse.le
        · exact huse.le
      rw [h.consistent.takeByToken_eq hlt hissued (hfew _)] at htaken
      obtain ⟨-, hremove⟩ := ite_none_right_eq_some.mp htaken
      rw [Registry.index_token]
      exact h.serve_vacate hremove (parking_wake _ _)

lemma parking_reap (env : Env) (srv : Server) (slot : ℕ) (chance : Chance) :
    (srv.reap env slot chance).parking =
      ((srv.parking.takeSlot slot).map Prod.fst).getD srv.parking := by
  unfold reap
  split
  · next hnone =>
    rw [hnone]
    rfl
  · next parking r hsome =>
    rw [hsome]
    dsimp only
    split
    · rfl
    · split <;> rfl

lemma Coupled.expire (h : lot.Coupled) (index : UInt32) (chance : Chance) :
    (lot.expire env index chance).Coupled := by
  unfold ParkingLot.expire
  split
  · split
    · exact h
    · next hremove => exact h.serve_vacate hremove (parking_reap env lot.server _ chance)
  · exact h

lemma Coupled.shutDown (h : lot.Coupled) : (lot.apply env .shutDown).Coupled := by
  obtain ⟨hconsistent, -⟩ := h.consistent.removeAll lot.registry.occupied
  have hempty := h.consistent.removeAll_occupied
  refine ⟨hconsistent, fun i conn hi => ?_, fun n r hn => ?_, fun token n hmem => ?_⟩
  · exact nomatch (hempty i).symm.trans hi
  · exact nomatch hn
  · obtain ⟨hlt, index, use, htoken, hindex, hcase⟩ := h.armed token n hmem
    refine ⟨hlt, index, use, htoken, hindex, .inr ⟨?_, rfl⟩⟩
    show use < lot.registry.recount _ lot.uses index.toNat
    unfold Registry.recount
    rcases hcase with ⟨huse, hsome, -⟩ | ⟨huse, -⟩
    · rw [if_pos ⟨hsome, hempty _⟩]
      omega
    · split <;> omega

/-! ### The law -/

/-- What is known when a piece of work begins. -/
structure Inv (lot : ParkingLot) : Prop where
  queued : lot.Queued
  coupled : lot.Coupled
  few : ∀ i, lot.uses i < 2 ^ 32

/-- Fair work, as long as no slot is used too often. -/
def Runs (env : Env) (lot : ParkingLot) (op : LotOp) : Prop :=
  lot.Fair op ∧ ∀ i, (lot.apply env op).uses i < 2 ^ 32

/-- Nothing the shard sees has changed. -/
def SameShard (lot lot' : ParkingLot) : Prop :=
  lot'.server = lot.server ∧ lot'.sent = lot.sent ∧ lot'.sentBefore = lot.sentBefore

lemma sameShard_vacate (lot : ParkingLot) (registry : Registry) :
    lot.SameShard (lot.vacate registry) := ⟨rfl, rfl, rfl⟩

/-- A piece of work of the lot is one of the shard, or none. -/
lemma Queued.serves (h : lot.Queued) {op : LotOp} (hfair : lot.Fair op) :
    lot.SameShard (lot.apply env op) ∨
      ∃ sop, lot.server.Orderly sop ∧ (lot.serve env sop).SameShard (lot.apply env op) := by
  cases op with
  | work op => exact .inr ⟨op, (Fair.orderly hfair).1, rfl, rfl, rfl⟩
  | park id fd deadline =>
    refine .inr ⟨.park id fd.isNone, h.orderly_park hfair fd.isNone, ?_⟩
    show SameShard _ (lot.park env id fd deadline)
    unfold ParkingLot.park
    dsimp only
    split <;> exact ⟨rfl, rfl, rfl⟩
  | cmd =>
    refine .inr ⟨.parkingCmd, trivial, ?_⟩
    show SameShard _ (lot.cmd env)
    unfold ParkingLot.cmd
    split
    · exact ⟨rfl, rfl, rfl⟩
    · exact sameShard_vacate _ _
  | ready userData =>
    show lot.SameShard (lot.ready env userData) ∨ ∃ sop, _ ∧ SameShard _ (lot.ready env userData)
    unfold ParkingLot.ready
    split
    · exact .inl ⟨rfl, rfl, rfl⟩
    · exact .inr ⟨.ingress _, trivial, sameShard_vacate _ _⟩
  | expire index chance =>
    show lot.SameShard (lot.expire env index chance) ∨
      ∃ sop, _ ∧ SameShard _ (lot.expire env index chance)
    unfold ParkingLot.expire
    split
    · split
      · exact .inl ⟨rfl, rfl, rfl⟩
      · exact .inr ⟨.reap _ chance, trivial, sameShard_vacate _ _⟩
    · exact .inl ⟨rfl, rfl, rfl⟩
  | shutDown => exact .inr ⟨.shutDown, trivial, sameShard_vacate _ _⟩

lemma SameShard.queued (hsame : lot.SameShard lot') (h : lot.Queued) : lot'.Queued := by
  obtain ⟨hserver, hsent, hbefore⟩ := hsame
  refine ⟨hserver ▸ h.server, hserver ▸ h.lawful, ?_, ?_⟩
  · rw [hserver, hsent]
    exact h.waiting
  · rw [hserver, hsent, hbefore]
    exact h.closed

lemma Queued.apply (h : lot.Queued) {op : LotOp} (hfair : lot.Fair op) :
    (lot.apply env op).Queued := by
  rcases h.serves hfair with hsame | ⟨sop, horderly, hsame⟩
  · exact hsame.queued h
  · exact hsame.queued (h.serve horderly)

lemma Inv.apply (h : lot.Inv) {op : LotOp} (hruns : Runs env lot op) : (lot.apply env op).Inv := by
  obtain ⟨hfair, hfew⟩ := hruns
  refine ⟨h.queued.apply hfair, ?_, hfew⟩
  cases op with
  | work op => exact h.coupled.work (Fair.orderly hfair).2
  | park id fd deadline => exact h.coupled.park h.queued hfair
  | cmd => exact h.coupled.cmd h.queued.lawful
  | ready userData => exact h.coupled.ready h.few hfair
  | expire index chance => exact h.coupled.expire index chance
  | shutDown => exact h.coupled.shutDown

/-- A shard before its first connection, with nothing parked. -/
structure Started (lot : ParkingLot) : Prop where
  server : lot.server.Started
  byClient : lot.server.parking.byClient = ∅
  unparkTx : ∀ cmds, lot.server.shard.unparkTx = some cmds → cmds = []
  registry : lot.registry = {}
  uses : ∀ i, lot.uses i = 0
  armed : lot.armed = []
  sent : lot.sent = []

lemma Started.inv (h : lot.Started) : lot.Inv := by
  have hsession (k : String) : lot.server.shard.sessions.lookup k = none := by
    rw [h.server.sessions]
    rfl
  have hslot (n : ℕ) : lot.server.parking.slots.lookup n = none := by
    rw [h.server.slots]
    rfl
  have hnap (k : String) : lot.server.dormitory.naps k = none := by
    show (lot.server.shard.sessions.lookup k).bind _ = none
    rw [hsession]
    rfl
  have hbed (n : ℕ) : lot.server.dormitory.beds n = none := by
    show (lot.server.parking.slots.lookup n).map _ = none
    rw [hslot]
    rfl
  have hrising (id : ℕ) : lot.server.dormitory.rising id = none := by
    show (lot.server.tasks id).bind _ = none
    rw [h.server.tasks]
    rfl
  have hat (i : ℕ) : lot.registry.slab.at? i = none := by
    rw [h.registry]
    rfl
  have huses : lot.uses = fun _ => 0 := funext h.uses
  refine ⟨⟨h.server.inv, ?_, fun cmds hcmds => ?_, fun k session _ _ hs => ?_⟩, ?_, fun i => ?_⟩
  · exact
      { kept := fun k nap hk => nomatch (hnap k).symm.trans hk
        called := fun k g hk => nomatch (hnap k).symm.trans hk
        occupied := fun n k g hn => nomatch (hbed n).symm.trans hn
        indexed := fun k n => by
          rw [hbed]
          refine ⟨fun hk => ?_, fun ⟨g, hn⟩ => nomatch hn⟩
          have hnone : lot.server.parking.byClient.lookup k = none := by
            rw [h.byClient]
            rfl
          exact nomatch hnone.symm.trans hk
        cleared := fun k g _ called hk => nomatch (hnap k).symm.trans hk
        desk := fun k nap hk => nomatch (hnap k).symm.trans hk
        apart := fun n id entry hn => nomatch (hbed n).symm.trans hn }
  · rw [h.unparkTx cmds hcmds]
    exact nil_suffix
  · exact nomatch (hsession k).symm.trans hs
  · refine ⟨?_, fun i conn hi => ?_, fun n r hn => ?_, fun token n hmem => ?_⟩
    · rw [h.registry, huses]
      refine ⟨Lib.Slab.wf_empty, Nat.zero_le _, fun i _ _ _ hi => ?_, fun k i => ?_⟩
      · exact nomatch hi
      · exact ⟨fun hk => (nomatch hk), fun ⟨_, hi, _⟩ => (nomatch hi)⟩
    · exact nomatch (hat i).symm.trans hi
    · exact nomatch (hslot n).symm.trans hn
    · rw [h.armed] at hmem
      exact nomatch hmem
  · rw [h.uses]
    exact Nat.two_pow_pos 32

/-- Who is to wake up for a client: an entry of the registry, or the task of a waking connection. -/
def Carries (lot : ParkingLot) (k : String) (g : ℕ) : ℕ ⊕ ℕ → Prop
  | .inl i => ∃ conn, lot.registry.slab.at? i = some conn ∧ conn.resume.clientId = k ∧
    conn.resume.sessionGeneration = g
  | .inr id => ∃ c, lot.server.tasks id = some c ∧ c.phase = .resuming ∧ c.clientId = k ∧
    c.sessionGeneration = g

lemma carries_rising :
    lot.Carries k g (.inr id) ↔ lot.server.dormitory.rising id = some (k, g) := by
  show (∃ c, _) ↔ (lot.server.tasks id).bind Connection.rising = _
  rw [bind_eq_some_iff]
  refine exists_congr fun c => and_congr_right fun _ => ?_
  constructor
  · rintro ⟨hphase, rfl, rfl⟩
    exact Connection.rising_of_resuming hphase
  · intro hrising
    obtain ⟨hphase, heq⟩ := Connection.resuming_of_rising hrising
    obtain ⟨rfl, rfl⟩ := Prod.mk.inj heq
    exact ⟨hphase, rfl, rfl⟩

lemma Coupled.bed_of_carries (h : lot.Coupled) (hi : lot.Carries k g (.inl i)) :
    lot.server.dormitory.beds (lot.parkedAt i) = some (k, g) := by
  obtain ⟨conn, hat, rfl, rfl⟩ := hi
  exact beds_lookup (h.parked i conn hat)

/-- A parked session is carried by one entry of the registry, or by one task. -/
lemma Inv.kept (h : lot.Inv) {session : Session}
    (hs : lot.server.shard.sessions.lookup k = some session) (hparked : session.parked = true) :
    ∃! x, lot.Carries k session.generation x := by
  have hnap : lot.server.dormitory.naps k = some (session.generation, session.wakePending) :=
    (naps_of_session hs).trans (nap_of_parked hparked)
  have hpos := h.queued.server.generation_pos k session hs
  refine existsUnique_of_exists_of_unique ?_ ?_
  · rcases h.queued.lawful.kept k _ hnap with ⟨n, hbed⟩ | ⟨id, hrising⟩
    · obtain ⟨r, hr, heq⟩ := map_eq_some_iff.mp hbed
      obtain ⟨i, conn, hat, rfl⟩ := h.coupled.found n r hr
      obtain rfl := some.inj ((h.coupled.parked i conn hat).symm.trans hr)
      obtain ⟨hclient, hgen⟩ := Prod.mk.inj heq
      exact ⟨.inl i, conn, hat, hclient, hgen⟩
    · exact ⟨.inr id, carries_rising.mpr hrising⟩
  · rintro (i | id) (j | id') hx hy
    · have hbeds := h.queued.lawful.bed_unique (h.coupled.bed_of_carries hx)
        (h.coupled.bed_of_carries hy)
      obtain ⟨conn, hi, -⟩ := hx
      obtain ⟨conn', hj, -⟩ := hy
      rw [h.coupled.index_unique hi hj hbeds]
    · exact absurd (carries_rising.mp hy)
        (h.queued.lawful.apart _ id' _ (h.coupled.bed_of_carries hx))
    · exact absurd (carries_rising.mp hx)
        (h.queued.lawful.apart _ id _ (h.coupled.bed_of_carries hy))
    · obtain ⟨c, hc, -, -, hgen⟩ := hx
      obtain ⟨c', hc', -, -, hgen'⟩ := hy
      have hcarries := Inv.carries_task hc
      have hcarries' := Inv.carries_task hc'
      rw [hgen] at hcarries
      rw [hgen'] at hcarries'
      rw [Carrier.task.inj (h.queued.server.carried_once _ _ _ hpos hcarries hcarries')]

/-- A parked session with something in its queue is woken. -/
lemma Inv.roused (h : lot.Inv) {session : Session}
    (hs : lot.server.shard.sessions.lookup k = some session) (hparked : session.parked = true)
    (hqueue : session.offlineQueue ≠ []) :
    (∃ cmds, lot.server.shard.unparkTx = some cmds ∧ .wake k ∈ cmds) ∨
      ∃ id, lot.Carries k session.generation (.inr id) := by
  have hwake : session.wakePending = true :=
    (h.queued.server.lawful k session hs).wake.mpr ⟨hparked, hqueue⟩
  have hnap : lot.server.dormitory.naps k = some (session.generation, true) := by
    rw [← hwake]
    exact (naps_of_session hs).trans (nap_of_parked hparked)
  refine (h.queued.lawful.called k _ hnap).imp (fun ⟨calls, hcalls, hmem⟩ => ?_)
    fun ⟨id, hrising⟩ => ⟨id, carries_rising.mpr hrising⟩
  obtain ⟨cmds, hcmds, rfl⟩ := map_eq_some_iff.mp hcalls
  obtain ⟨cmd, hmem, heq⟩ := mem_map.mp hmem
  obtain rfl : cmd = .wake k := UnparkCmd.call_injective heq
  exact ⟨cmds, hcmds, hmem⟩

/-- A client sleeps through the session of this generation. -/
def Sleeps (lot : ParkingLot) (k : String) (g : ℕ) : Prop :=
  ∃ session, lot.server.shard.sessions.lookup k = some session ∧ session.parked = true ∧
    session.generation = g

lemma sleeps_iff : lot.Sleeps k g ↔ ∃ b, lot.server.dormitory.naps k = some (g, b) := by
  constructor
  · rintro ⟨session, hs, hparked, rfl⟩
    exact ⟨_, (naps_of_session hs).trans (nap_of_parked hparked)⟩
  · rintro ⟨b, hnap⟩
    obtain ⟨session, hs, hparked, hgen, -⟩ := exists_session_of_naps hnap
    exact ⟨session, hs, hparked, hgen⟩

/-- One piece of work in the course of a nap. -/
lemma Inv.wakes_apply (h : lot.Inv) {op : LotOp} (hfair : lot.Fair op) {b : Bool}
    (hnap : lot.server.dormitory.naps k = some (g, b)) :
    (∃ b', (lot.apply env op).server.dormitory.naps k = some (g, b') ∧
      (lot.apply env op).sent.count (.wake k) + b.toNat ≤ lot.sent.count (.wake k) + b'.toNat) ∨
    (lot.apply env op).server.dormitory.naps k = none ∧
      (lot.apply env op).sent.count (.wake k) = lot.sent.count (.wake k) := by
  rcases h.queued.serves hfair with ⟨hserver, hsent, -⟩ | ⟨sop, horderly, hserver, hsent, -⟩
  · rw [hserver, hsent]
    exact .inl ⟨b, hnap, le_rfl⟩
  · obtain ⟨cmds, hsignals⟩ : ∃ cmds, lot.server.Signals sop (lot.server.apply env sop) cmds :=
      h.queued.server.signals h.queued.lawful horderly
    obtain ⟨-, hsublist⟩ := unparkTx_sentBy hsignals
    have hle := hsublist.count_le (UnparkCmd.wake k)
    have hcount : (cmds.map UnparkCmd.call).count (.wake k) = cmds.count (.wake k) :=
      count_map_of_injective cmds _ UnparkCmd.call_injective (.wake k)
    have hserver : (lot.apply env op).server = lot.server.apply env sop := hserver
    have hsent : (lot.apply env op).sent =
        lot.sent ++ sentBy lot.server sop (lot.server.apply env sop) := hsent
    rw [hserver, hsent, count_append]
    rcases hsignals.turn.wakes hnap with ⟨b', hnap', hsum⟩ | ⟨hnap', hzero⟩
    · exact .inl ⟨b', hnap', by omega⟩
    · exact .inr ⟨hnap', by omega⟩

/-- A run in the course of a nap. -/
lemma Inv.wakes_run (h : lot.Inv) {ops : List LotOp} {b : Bool}
    (hnap : lot.server.dormitory.naps k = some (g, b))
    (hops : Lib.AllMeet (fun lot op => lot.apply env op)
      (fun lot op => Runs env lot op ∧ lot.Sleeps k g) lot ops) :
    (Lib.run (fun lot op => lot.apply env op) lot ops).sent.count (.wake k) + b.toNat ≤
      lot.sent.count (.wake k) + 1 := by
  induction ops generalizing lot b with
  | nil => exact Nat.add_le_add_left (Bool.toNat_le b) _
  | cons op ops ih =>
    obtain ⟨⟨hruns, -⟩, hops⟩ := hops
    rcases h.wakes_apply hruns.1 hnap with ⟨b', hnap', hle⟩ | ⟨hnap', heq⟩
    · have hrest := ih (h.apply hruns) hnap' hops
      show (Lib.run _ (lot.apply env op) ops).sent.count _ + _ ≤ _
      omega
    · -- the nap is over, and so is the run
      cases ops with
      | nil =>
        show (lot.apply env op).sent.count _ + _ ≤ _
        have := Bool.toNat_le b
        omega
      | cons op' ops =>
        obtain ⟨b', hnap''⟩ := sleeps_iff.mp hops.1.2
        exact nomatch hnap'.symm.trans hnap''

/-- The law of parked connections. -/
structure ParkingLaw (env : Env) (lot : ParkingLot) : Prop where
  /-- A parked session has one entry in the registry, or one task that wakes up for it. -/
  kept : ∀ k session, lot.server.shard.sessions.lookup k = some session → session.parked = true →
    ∃! x, lot.Carries k session.generation x
  /-- When there is something to deliver, a command to wake the client waits, or it is waking up. -/
  roused : ∀ k session, lot.server.shard.sessions.lookup k = some session → session.parked = true →
    session.offlineQueue ≠ [] →
    (∃ cmds, lot.server.shard.unparkTx = some cmds ∧ .wake k ∈ cmds) ∨
      ∃ id, lot.Carries k session.generation (.inr id)
  /-- As long as a client sleeps, one command at most is sent to wake it. -/
  once : ∀ k g ops, lot.Sleeps k g →
    Lib.AllMeet (fun lot op => lot.apply env op) (fun lot op => Runs env lot op ∧ lot.Sleeps k g)
      lot ops →
    (Lib.run (fun lot op => lot.apply env op) lot ops).sent.count (.wake k) ≤
      lot.sent.count (.wake k) + 1
  /-- The client index, the slots and the free list fit together. -/
  consistent : lot.registry.Consistent lot.uses
  /-- The registry holds what the shard has parked. -/
  coupled : lot.Coupled
  /-- A token takes the connection it was armed for as long as that is there, and nothing else. -/
  tokens : ∀ token n, (token, n) ∈ lot.armed →
    (lot.registry.takeByToken token).map (·.2.resume) = lot.server.parking.slots.lookup n

/-- In every run no parked client is forgotten, and none woken or closed in the place of another. -/
theorem parking_law (env : Env) {lot₀ lot : ParkingLot} (h₀ : lot₀.Started)
    (hrun : Lib.Reached (fun lot op => lot.apply env op) (Runs env) lot₀ lot) :
      ParkingLaw env lot := by
  have h : lot.Inv := Lib.Reached.inv Inv h₀.inv (fun _ _ h hruns => h.apply hruns) hrun
  refine ⟨fun k session hs hp => h.kept hs hp, fun k session hs hp hq => h.roused hs hp hq,
    fun k g ops hsleeps hops => ?_, h.coupled.consistent, h.coupled,
    fun token n hmem => h.coupled.takeByToken_eq h.few hmem⟩
  obtain ⟨b, hnap⟩ := sleeps_iff.mp hsleeps
  have hle := h.wakes_run hnap hops
  omega

/-- A shard with an empty registry. -/
def freshLot : ParkingLot := { server := freshServer }

lemma freshLot_started : freshLot.Started where
  server := freshServer_started
  byClient := rfl
  unparkTx _ h := (some.inj h).symm
  registry := rfl
  uses _ := rfl
  armed := rfl
  sent := rfl

/-- A client connects, and its connection parks. -/
def parkOps : List LotOp :=
  [.work (.accept .none), .work
    (.packet 0 (.connect { clientId := "a", cleanSession := false }) {}),
    .park 0 (some 7) none]

def parkedLot : ParkingLot := Lib.run (fun lot op => lot.apply openEnv op) freshLot parkOps

lemma reached_parkedLot :
    Lib.Reached (fun lot op => lot.apply openEnv op) (Runs openEnv) freshLot parkedLot := by
  have hfew := Nat.two_pow_pos 32
  refine Lib.Reached.start.run ⟨⟨trivial, fun _ => hfew⟩, ⟨trivial, fun _ => hfew⟩,
    ⟨⟨fun c cmds hc hcmds => ?_, fun fd' _ i conn hi => ?_⟩, fun _ => hfew⟩, trivial⟩
  · -- no command was sent yet
    obtain rfl : [] = cmds := some.inj hcmds
    show (if _ then _ else if _ then _ else _) + 0 ≤ 0
    split
    · rfl
    · split <;> rfl
  · exact nomatch hi

theorem parking_law_parkedLot :
    (parkedLot.registry.slab.at? 0).isSome ∧ parkedLot.armed = [(0, 0)] ∧
      ParkingLaw openEnv parkedLot :=
  ⟨by decide, by decide, parking_law openEnv freshLot_started reached_parkedLot⟩

end ParkingLot

end Rusquitto
