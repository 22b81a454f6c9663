import Mathlib.Tactic.Abel
import Rusquitto.Broker.Posting
import Rusquitto.Server.Tasks

/-!
# What becomes of a connection's messages

Every QoS > 0 message a connection takes charge of is accounted for: it was acknowledged, dropped at
a limit, could not be encoded, or is still held, in flight or held back. `Connection.owed` is what
came in, `Connection.settled` what became of it, and no step of a connection makes a difference
between the two (`Connection.Balanced`).
-/

namespace Rusquitto

open AList

variable {d : Delivery} {inflight : HashMap UInt16 InflightMessage} {pkid : UInt16}
  {c c' c'' : Connection} {m : Multiset Publish}

/-! ### Queues and in-flight tables as multisets -/

@[simp]
lemma unsent_nil : unsent [] = 0 := rfl

lemma unsent_append (q q' : List Delivery) : unsent (q ++ q') = unsent q + unsent q' := by
  simp [unsent]

lemma unsent_cons (d : Delivery) (q : List Delivery) : unsent (d :: q) = unsent [d] + unsent q :=
  unsent_append [d] q

lemma unsent_of_qos (h : d.qos ≠ .atMostOnce) : unsent [d] = {d.message} := by
  simp [unsent, h]

lemma unsent_of_atMostOnce (h : d.qos = .atMostOnce) : unsent [d] = 0 := by
  simp [unsent, h]

@[simp]
lemma unacked_empty : unacked ∅ = 0 := rfl

lemma unacked_insert_of_notMem (h : pkid ∉ inflight) (m : InflightMessage) :
    unacked (inflight.insert pkid m) = unacked inflight + {m.message} := by
  rw [unacked, entries_insert_of_notMem h, List.map_cons, ← Multiset.cons_coe,
    ← Multiset.singleton_add, add_comm]
  rfl

lemma unacked_erase {m : InflightMessage} (h : inflight.lookup pkid = some m) :
    unacked (inflight.erase pkid) + {m.message} = unacked inflight := by
  have hmem : pkid ∈ inflight := lookup_isSome.mp (by rw [h]; rfl)
  obtain ⟨m', l₁, l₂, hl₁, hl, herase⟩ := List.exists_of_kerase (mem_keys.mp hmem)
  -- the entry that goes is the one the lookup finds
  have hm : m' = m := by
    have hm' : (⟨pkid, m'⟩ : Sigma fun _ : UInt16 => InflightMessage) ∈ inflight.entries := by
      rw [hl]
      simp
    have := mem_lookup_iff.mpr hm'
    rw [h] at this
    exact (Option.some.inj this).symm
  rw [unacked, unacked, show (inflight.erase pkid).entries = l₁ ++ l₂ from herase, hl, hm]
  simp only [List.map_append, List.map_cons, ← Multiset.coe_add, ← Multiset.cons_coe,
    ← Multiset.singleton_add]
  rw [add_assoc, add_comm (_ : Multiset Publish) {m.message}]

/-- Overwriting an entry with one that carries the same message changes nothing. -/
lemma unacked_update {m : InflightMessage} (h : inflight.lookup pkid = some m)
    (m' : InflightMessage) (hm : m'.message = m.message) :
    unacked (inflight.insert pkid m') = unacked inflight := by
  rw [← unacked_erase h, ← hm]
  have hfree : pkid ∉ inflight.erase pkid := by simp [mem_erase]
  have hinsert : inflight.insert pkid m' = (inflight.erase pkid).insert pkid m' := by
    ext1
    rw [entries_insert_of_notMem hfree, entries_insert]
    rfl
  rw [hinsert, unacked_insert_of_notMem hfree]

namespace Connection

variable (env : Env)

/-! ### Packet ids -/

lemma toNat_succPkid (pkid : UInt16) : (succPkid pkid).toNat = pkid.toNat % 65535 + 1 := by
  have hlt := pkid.toNat_lt
  have hadd : (pkid + 1).toNat = (pkid.toNat + 1) % 65536 := UInt16.toNat_add pkid 1
  unfold succPkid
  split
  · next h =>
    rw [h] at hadd
    change 1 = _
    change 0 = _ at hadd
    omega
  · next h =>
    have : (pkid + 1).toNat ≠ 0 := fun h0 => h (UInt16.toNat_inj.mp h0)
    omega

lemma toNat_iterate_succPkid (pkid : UInt16) (i : ℕ) :
    (succPkid^[i + 1] pkid).toNat = (pkid.toNat + i) % 65535 + 1 := by
  induction i with
  | zero => exact toNat_succPkid pkid
  | succ i ih =>
    rw [Function.iterate_succ_apply', toNat_succPkid, ih]
    omega

/-- No candidate comes twice before every id has come. -/
lemma injOn_succPkid (pkid : UInt16) :
    Set.InjOn (fun i => succPkid^[i + 1] pkid) (Set.Iio 65535) := by
  intro i hi j hj hij
  have := congrArg UInt16.toNat hij
  simp only [toNat_iterate_succPkid] at this
  simp only [Set.mem_Iio] at hi hj
  omega

/-- With a free id the search finds the first one. -/
lemma allocPkid_search (h : c.inflight.entries.length < 65535) :
    ∃ n < 65535, c.allocPkid = succPkid^[n + 1] c.nextPkid ∧
      (c.inflight.lookup c.allocPkid).isSome = false ∧
      ∀ i < n, (c.inflight.lookup (succPkid^[i + 1] c.nextPkid)).isSome = true := by
  have hkeys : c.inflight.keys.length < 65535 := by simpa [keys, List.keys] using h
  have hused : ∀ b, (c.inflight.lookup b).isSome = true → b ∈ c.inflight.keys :=
    fun b hb => mem_keys.mp (lookup_isSome.mp hb)
  obtain ⟨pkid, hpkid⟩ := Lib.exists_probe_eq_some hused hkeys (injOn_succPkid c.nextPkid)
  have halloc : c.allocPkid = pkid := by rw [allocPkid, hpkid]; rfl
  rw [halloc]
  exact Lib.probe_eq_some_iff.mp hpkid

lemma allocPkid_spec (h : c.inflight.entries.length < 65535) :
    c.allocPkid ∉ c.inflight ∧ c.allocPkid ≠ 0 := by
  obtain ⟨n, -, hpkid, hfree, -⟩ := allocPkid_search h
  constructor
  · intro hmem
    rw [lookup_isSome.mpr hmem] at hfree
    exact nomatch hfree
  · intro h0
    have := toNat_iterate_succPkid c.nextPkid n
    rw [← hpkid, h0] at this
    change 0 = _ at this
    omega

lemma length_lt_of_hasRoom (h : c.hasRoom = true) : c.inflight.entries.length < 65535 := by
  have hw : (min c.peerReceiveMax c.limits.maxInflight).toNat < 65536 := UInt16.toNat_lt _
  have hroom : c.inflight.entries.length < c.outboundWindow := of_decide_eq_true h
  unfold outboundWindow at hroom
  omega

/-! ### What a step leaves alone -/

/-- Who a connection is: what only the handshake and the connection's end change. -/
structure Identity where
  phase : Phase
  clientId : String
  mailboxTx : Option ℕ
  mailboxRx : ℕ
  sessionGeneration : ℕ
  sessionExpiry : UInt32
  username : Option String
  connected : Bool

def identity (c : Connection) : Identity where
  phase := c.phase
  clientId := c.clientId
  mailboxTx := c.mailboxTx
  mailboxRx := c.mailboxRx
  sessionGeneration := c.sessionGeneration
  sessionExpiry := c.sessionExpiry
  username := c.username
  connected := c.connected

/-- The QoS > 0 messages a connection has taken charge of. -/
def owed (c : Connection) : Multiset Publish :=
  unsent c.ledger.received + c.ledger.replayed

/-- The QoS > 0 messages a connection still holds. -/
def held (c : Connection) : Multiset Publish :=
  unacked c.inflight + unsent c.pendingOutbound

/-- What became of the messages. -/
def settled (c : Connection) : Multiset Publish :=
  c.ledger.acked + c.ledger.dropped + c.ledger.failed + c.held

/-- Every message is accounted for. -/
def Balanced (c : Connection) : Prop := c.owed = c.settled

/-- What a piece of work on deliveries does to the accounts: `extra` are the messages it takes on.
-/
structure Accounts (c c' : Connection) (extra : Multiset Publish) : Prop where
  identity : c'.identity = c.identity
  owed : c'.owed = c.owed
  settled : c'.settled = c.settled + extra

lemma Accounts.refl (c : Connection) : Accounts c c 0 := ⟨rfl, rfl, (add_zero _).symm⟩

lemma Accounts.trans {m' : Multiset Publish} (h : Accounts c c' m) (h' : Accounts c' c'' m') :
    Accounts c c'' (m + m') where
  identity := h'.identity.trans h.identity
  owed := h'.owed.trans h.owed
  settled := by rw [h'.settled, h.settled, add_assoc]

/-- Changes outside the accounts. -/
lemma Accounts.of_eq (hid : c'.identity = c.identity) (hledger : c'.ledger = c.ledger)
    (hinflight : c'.inflight = c.inflight) (hpending : c'.pendingOutbound = c.pendingOutbound) :
    Accounts c c' 0 where
  identity := hid
  owed := by rw [Connection.owed, hledger, Connection.owed]
  settled := by
    rw [add_zero, Connection.settled, Connection.held, hledger, hinflight, hpending]
    rfl

lemma Accounts.after (h : Accounts c' c'' m) (h₀ : Accounts c c' 0) : Accounts c c'' m :=
  zero_add m ▸ h₀.trans h

lemma Accounts.balanced (h : Accounts c c' 0) (hc : c.Balanced) : c'.Balanced := by
  rw [Balanced, h.owed, h.settled, add_zero]
  exact hc

lemma accounts_send (c : Connection) (reply : Reply) : Accounts c (c.send reply) 0 :=
  .of_eq rfl rfl rfl rfl

/-! ### Sending -/

lemma accounts_record {message : Publish} {stage : Option InflightState}
    (h : stage.isSome → message.pkid ∉ c.inflight) :
    Accounts c (c.record message stage) (counted message stage) := by
  cases stage with
  | none => exact .refl c
  | some state =>
    refine ⟨rfl, rfl, ?_⟩
    simp only [record, settled, held, counted, Option.isSome_some, if_true,
      unacked_insert_of_notMem (h rfl) ⟨message, state⟩]
    rw [InflightMessage.message]
    abel

/-- However a transmission ends, its message is accounted for once. -/
lemma accounts_transmit (c : Connection) (message : Publish) (stage : Option InflightState)
    (h : stage.isSome → message.pkid ∉ c.inflight) :
    Accounts c (c.transmit env message stage).1 (counted message stage) := by
  unfold transmit
  generalize c.applyAlias message = aliased
  obtain ⟨aliases, onWire, newlyAliased⟩ := aliased
  simp only
  split
  · -- encoding failed
    refine ⟨rfl, rfl, ?_⟩
    simp only [settled, held]
    abel
  · split
    · -- above the client's Maximum Packet Size
      refine ⟨rfl, rfl, ?_⟩
      simp only [settled, held]
      abel
    · refine Accounts.after (accounts_record ?_) (.of_eq rfl rfl rfl rfl)
      exact h

lemma accounts_sendPublish (h : d.qos = .atMostOnce ∨ c.hasRoom = true) :
    Accounts c (c.sendPublish env d).1 (unsent [d]) := by
  obtain ⟨m, hm⟩ : ∃ m, d.outgoing = m := ⟨_, rfl⟩
  -- QoS > 0: the packet id is new, so recording the message overwrites nothing
  have hfresh (stage : InflightState) (hd : d.qos ≠ .atMostOnce) :
      Accounts c (transmit env { c with nextPkid := c.allocPkid }
        { m with pkid := c.allocPkid } (some stage)).1 (unsent [d]) := by
    have hpkid := (allocPkid_spec (length_lt_of_hasRoom (h.resolve_left hd))).1
    have hsent := accounts_transmit env { c with nextPkid := c.allocPkid }
      { m with pkid := c.allocPkid } (some stage) fun _ => hpkid
    have hd : unsent [d] = counted { m with pkid := c.allocPkid } (some stage) := by
      rw [unsent_of_qos hd, Delivery.message, hm]
      rfl
    exact hd ▸ hsent.after (.of_eq rfl rfl rfl rfl)
  unfold sendPublish assignPkid
  rw [hm]
  cases hd : d.qos with
  | atMostOnce =>
    rw [unsent_of_atMostOnce hd]
    exact accounts_transmit env c { m with pkid := 0 } none (nomatch ·)
  | atLeastOnce => exact hfresh .qos1 (by rw [hd]; exact nofun)
  | exactlyOnce => exact hfresh .qos2Pending (by rw [hd]; exact nofun)

lemma accounts_holdBack (c : Connection) (d : Delivery) :
    Accounts c (c.holdBack d) (unsent [d]) := by
  have hpending : unsent c.pendingOutbound =
      unsent (c.pendingOutbound.take 1) + unsent c.pendingOutbound.tail := by
    rw [← unsent_append, ← List.drop_one, List.take_append_drop]
  unfold holdBack
  split
  · refine ⟨rfl, rfl, ?_⟩
    simp only [settled, held, unsent_append, hpending]
    abel
  · refine ⟨rfl, rfl, ?_⟩
    simp only [settled, held, unsent_append]
    abel

lemma accounts_deliver (c : Connection) (d : Delivery) :
    Accounts c (c.deliver env d).1 (unsent [d]) := by
  unfold deliver
  split
  · next h => exact accounts_sendPublish env h
  · exact accounts_holdBack c d

lemma pendingOutbound_transmit (c : Connection) (message : Publish) (stage : Option InflightState) :
    (c.transmit env message stage).1.pendingOutbound = c.pendingOutbound := by
  unfold transmit
  generalize c.applyAlias message = aliased
  obtain ⟨aliases, onWire, newlyAliased⟩ := aliased
  simp only
  split
  · rfl
  · split
    · rfl
    · cases stage <;> rfl

lemma pendingOutbound_sendPublish (c : Connection) (d : Delivery) :
    (c.sendPublish env d).1.pendingOutbound = c.pendingOutbound := by
  unfold sendPublish assignPkid
  cases d.qos <;> exact pendingOutbound_transmit env _ _ _

/-- Draining moves messages from the queue into flight and loses none. -/
lemma accounts_drainLoop (env : Env) (queue : List Delivery) (c : Connection) :
    Accounts { c with pendingOutbound := queue } (c.drainLoop env queue).1 0 := by
  induction queue generalizing c with
  | nil => exact .refl _
  | cons d rest ih =>
    unfold drainLoop
    split
    · next hroom =>
      have hsent : Accounts { c with pendingOutbound := rest }
          (sendPublish env { c with pendingOutbound := rest } d).1 (unsent [d]) :=
        accounts_sendPublish env (.inr hroom)
      have hqueue := pendingOutbound_sendPublish env { c with pendingOutbound := rest } d
      generalize sendPublish env { c with pendingOutbound := rest } d = r at hsent hqueue
      -- the message that left the queue is the one the send accounts for
      have hr : Accounts { c with pendingOutbound := d :: rest } r.1 0 := by
        refine ⟨hsent.identity, hsent.owed, ?_⟩
        rw [hsent.settled]
        simp only [settled, held, unsent_cons d rest]
        abel
      unfold andThen
      split
      · obtain rfl : r.1.pendingOutbound = rest := hqueue
        exact (ih r.1).after hr
      · exact hr
    · exact .refl _

/-! ### Taking charge of messages -/

/-- A step that leaves a balanced connection balanced, and itself. -/
structure Keeps (c c' : Connection) : Prop where
  identity : c'.identity = c.identity
  balanced : c.Balanced → c'.Balanced

lemma Keeps.refl (c : Connection) : Keeps c c := ⟨rfl, id⟩

lemma Keeps.trans (h : Keeps c c') (h' : Keeps c' c'') : Keeps c c'' :=
  ⟨h'.identity.trans h.identity, h'.balanced ∘ h.balanced⟩

lemma Accounts.keeps (h : Accounts c c' 0) : Keeps c c' :=
  ⟨h.identity, h.balanced⟩

/-- A message is entered on both sides. -/
lemma Accounts.keeps_of_owed {c₁ : Connection} (h : Accounts c₁ c' m)
    (hid : c₁.identity = c.identity) (howed : c₁.owed = c.owed + m)
    (hsettled : c₁.settled = c.settled) : Keeps c c' where
  identity := h.identity.trans hid
  balanced hc := by
    rw [Balanced, h.owed, h.settled, howed, hsettled, show c.owed = c.settled from hc]

lemma keeps_receive (c : Connection) (d : Delivery) : Keeps c (c.receive env d).1 := by
  refine (accounts_deliver env _ d).keeps_of_owed rfl ?_ rfl
  simp only [owed, unsent_append]
  abel

lemma keeps_replay (c : Connection) (d : Delivery) : Keeps c (c.replay env d).1 := by
  refine (accounts_deliver env _ d).keeps_of_owed rfl ?_ rfl
  simp only [owed]
  abel

lemma keeps_replayAll (queue : List Delivery) (c : Connection) (flushed : ℕ)
    (flushFails : Option ℕ) : Keeps c (c.replayAll env flushed flushFails queue).1 := by
  induction queue generalizing c flushed flushFails with
  | nil => exact .refl c
  | cons d rest ih =>
    refine andThen_rel Keeps.trans (keeps_replay env c d) ?_
    split
    · exact .refl _
    · exact ih _ _ _

/-- What is written again for the entries of the in-flight table under the given ids. -/
def again (c : Connection) (pkids : List UInt16) : List Reply :=
  pkids.filterMap fun pkid => (c.inflight.lookup pkid).map fun entry =>
    if entry.state = .qos2Released then .pubRel pkid
    else .publish { entry.publish with pkid, dup := true }

lemma again_cons_of_none (h : c.inflight.lookup pkid = none) (pkids : List UInt16) :
    c.again (pkid :: pkids) = c.again pkids := by
  rw [again, List.filterMap_cons_none (by rw [h]; rfl), again]

lemma again_cons_of_some {entry : InflightMessage} (h : c.inflight.lookup pkid = some entry)
    (pkids : List UInt16) :
    c.again (pkid :: pkids) = (if entry.state = .qos2Released then .pubRel pkid
      else .publish { entry.publish with pkid, dup := true }) :: c.again pkids := by
  rw [again, List.filterMap_cons_some (by rw [h]; rfl), again]

/-- Retransmitting writes the entries in the given order, up to one that cannot be encoded, and
changes nothing else. -/
lemma retransmit_spec (pkids : List UInt16) (c : Connection) :
    ∃ done rest, pkids = done ++ rest ∧
      (c.retransmit env pkids).1 = { c with outbound := c.outbound ++ c.again done } ∧
      ((c.retransmit env pkids).2 = .ok () → rest = []) ∧
      ∀ publish, .publish publish ∈ c.again done → ∃ bytes, env.wire.write publish = .ok bytes := by
  induction pkids generalizing c with
  | nil => exact ⟨[], [], rfl, by simp [again, retransmit], fun _ => rfl, by simp [again]⟩
  | cons pkid pkids ih =>
    -- the packet of one entry is written, and then those of the others
    have hnext {entry : InflightMessage} (hentry : c.inflight.lookup pkid = some entry)
      (reply : Reply)
        (hreply : reply = if entry.state = .qos2Released then .pubRel pkid
          else .publish { entry.publish with pkid, dup := true })
        (hwrite : ∀ publish, reply = .publish publish → ∃ bytes, env.wire.write publish =
          .ok bytes) :
        ∃ done rest, pkid :: pkids = done ++ rest ∧ ((c.send reply).retransmit env pkids).1 =
          { c with outbound := c.outbound ++ c.again done } ∧
          (((c.send reply).retransmit env pkids).2 = .ok () → rest = []) ∧
          ∀ publish, .publish publish ∈ c.again done → ∃ bytes, env.wire.write publish =
            .ok bytes := by
      obtain ⟨done, rest, hpkids, heq, hrest, hencoded⟩ := ih (c.send reply)
      have hagain : c.again (pkid :: done) = reply :: c.again done := by
        rw [again_cons_of_some hentry, hreply]
      refine ⟨pkid :: done, rest, congrArg (pkid :: ·) hpkids, ?_, hrest, fun publish hmem => ?_⟩
      · rw [heq, hagain]
        exact congrArg (fun out => { c with outbound := out }) (List.append_assoc ..)
      · rw [hagain, List.mem_cons] at hmem
        rcases hmem with hmem | hmem
        · exact hwrite publish hmem.symm
        · exact hencoded publish hmem
    unfold retransmit
    split
    · next hnone =>
      obtain ⟨done, rest, hpkids, heq, hrest, hencoded⟩ := ih c
      have hagain := again_cons_of_none hnone done
      exact ⟨pkid :: done, rest, congrArg (pkid :: ·) hpkids, by rw [heq, hagain],
        hrest, by rwa [hagain]⟩
    · next entry hentry =>
      split
      · next hstate => exact hnext hentry _ (if_pos hstate).symm nofun
      all_goals
        next hstate =>
        dsimp only
        split
        · exact ⟨[], pkid :: pkids, rfl, by simp [again], nofun, by simp [again]⟩
        · next bytes hbytes =>
          refine hnext hentry _ (if_neg (by rw [hstate]; exact nofun)).symm fun publish heq =>
            ⟨bytes, ?_⟩
          obtain rfl := Reply.publish.inj heq
          exact hbytes

lemma keeps_retransmit (pkids : List UInt16) (c : Connection) :
    Keeps c (c.retransmit env pkids).1 := by
  obtain ⟨done, _, -, h, -⟩ := retransmit_spec env pkids c
  have haccounts : Accounts c { c with outbound := c.outbound ++ c.again done } 0 :=
    .of_eq rfl rfl rfl rfl
  rw [h]
  exact haccounts.keeps

section

variable (c : Connection) (flushFails : Option ℕ) (queue : List Delivery)

/-- The first flush fails, or the queue is replayed. -/
lemma flushAndReplay_cases : (∃ e, c.flushAndReplay env flushFails queue = (c, .error e)) ∨
      ∃ flushed k, c.flushAndReplay env flushFails queue = c.replayAll env flushed k queue := by
  unfold flushAndReplay
  split
  · exact .inl ⟨_, rfl⟩
  · exact .inr ⟨_, _, rfl⟩

lemma keeps_resumeDelivery : Keeps c (c.resumeDelivery env flushFails queue).1 := by
  refine andThen_rel Keeps.trans (keeps_retransmit env _ c) ?_
  obtain ⟨e, h⟩ | ⟨flushed, k, h⟩ :=
    flushAndReplay_cases env (c.retransmit env _).1 flushFails queue
  · exact h ▸ .refl _
  · exact h ▸ keeps_replayAll env queue _ _ _

end

/-- A connection without messages of its own takes on those of the session. -/
lemma keeps_restore (h : c.inflight = ∅) (snapshot : SessionSnapshot) :
    Keeps c (c.restore snapshot) where
  identity := rfl
  balanced hc := by
    have hc : c.owed = c.settled := hc
    simp only [owed, settled, held, h, unacked_empty] at hc
    simp only [Balanced, owed, settled, held, restore, ← add_assoc, hc]
    abel

/-! ### Acknowledgements -/

lemma keeps_release (c : Connection) (pkid : UInt16) : Keeps c (c.release env pkid).1 := by
  unfold release
  split
  · exact .refl c
  · next entry hentry =>
    refine Keeps.trans ?_ (accounts_drainLoop env c.pendingOutbound _).keeps
    refine ⟨rfl, fun hc => ?_⟩
    -- the acknowledged message leaves the table for the ledger
    have hc : c.owed = c.settled := hc
    simp only [settled, held, ← unacked_erase hentry] at hc
    simp only [Balanced, settled, held]
    change c.owed = _
    rw [hc]
    abel

lemma keeps_handlePubrec (c : Connection) (pkid : UInt16) : Keeps c (c.handlePubrec pkid).1 := by
  refine Keeps.trans ?_ (accounts_send _ _).keeps
  split
  · next entry hentry =>
    split
    · refine (Accounts.keeps ⟨rfl, rfl, ?_⟩)
      simp only [settled, held, add_zero,
        unacked_update hentry { entry with state := .qos2Released } rfl]
    · exact .refl c
  · exact .refl c

/-! ### The handlers -/

lemma Keeps.of_eq (hid : c'.identity = c.identity) (hledger : c'.ledger = c.ledger)
    (hinflight : c'.inflight = c.inflight) (hpending : c'.pendingOutbound = c.pendingOutbound) :
    Keeps c c' :=
  (Accounts.of_eq hid hledger hinflight hpending).keeps

lemma keeps_send (c : Connection) (reply : Reply) : Keeps c (c.send reply) :=
  (accounts_send c reply).keeps

lemma resolveAlias_frame (c : Connection) (publish : Publish) : ∃ outbound inbound,
    (c.resolveAlias publish).1 = { c with outbound, aliases.inbound := inbound } := by
  unfold resolveAlias
  split
  · exact ⟨_, _, rfl⟩
  · split
    · exact ⟨_, _, rfl⟩
    · split
      · split <;> exact ⟨_, _, rfl⟩
      · exact ⟨_, _, rfl⟩

lemma denyPublish_frame (c : Connection) (publish : Publish) :
    ∃ outbound, c.denyPublish publish = { c with outbound } := by
  unfold denyPublish
  split <;> exact ⟨_, rfl⟩

section

variable (c : Connection) (shard : ShardState) (chance : Chance)

lemma acceptPublish_frame (publish : Publish) : ∃ outbound incomingQos2,
      (c.acceptPublish env shard chance publish).conn = { c with outbound, incomingQos2 } := by
  unfold acceptPublish
  cases publish.qos with
  | atMostOnce => exact ⟨_, _, rfl⟩
  | atLeastOnce => exact ⟨_, _, rfl⟩
  | exactlyOnce =>
    dsimp only [Turn.ofConn]
    unfold storeQos2
    split <;> exact ⟨_, _, rfl⟩

/-- What a PUBLISH changes about its connection. -/
lemma handlePublish_frame (publish : Publish) : ∃ outbound inbound incomingQos2,
      (c.handlePublish env shard chance publish).conn =
        { c with outbound, aliases.inbound := inbound, incomingQos2 } := by
  obtain ⟨_, _, halias⟩ := resolveAlias_frame c publish
  unfold handlePublish
  generalize c.resolveAlias publish = resolved at halias
  obtain ⟨c', result⟩ := resolved
  obtain rfl : c' = _ := halias
  cases result with
  | error e => exact ⟨_, _, _, rfl⟩
  | ok publish =>
    dsimp only
    split
    · exact ⟨_, _, _, rfl⟩
    · split
      · obtain ⟨_, h⟩ := denyPublish_frame _ publish
        exact ⟨_, _, _, h⟩
      · obtain ⟨_, _, h⟩ := acceptPublish_frame env _ shard chance publish
        exact ⟨_, _, _, h⟩

lemma handlePubrel_frame (pkid : UInt16) :
    ∃ outbound incomingQos2,
      (c.handlePubrel env shard chance pkid).conn = { c with outbound, incomingQos2 } := by
  unfold handlePubrel
  split <;> exact ⟨_, _, rfl⟩

end

lemma subscribeOne_frame (subId : Option ℕ) (acc : SubscribeLoop) (filter : SubscribeFilter) :
    ∃ subscriptionCount,
      (subscribeOne env subId acc filter).conn = { acc.conn with subscriptionCount } := by
  unfold subscribeOne
  split
  · exact ⟨_, rfl⟩
  · split
    · exact ⟨_, rfl⟩
    · split
      · exact ⟨_, rfl⟩
      · split
        · exact ⟨_, rfl⟩
        · unfold SubscribeLoop.register
          dsimp only
          split <;> exact ⟨_, rfl⟩

lemma subscribeAll_frame (subId : Option ℕ) (filters : List SubscribeFilter) (acc : SubscribeLoop) :
    ∃ subscriptionCount, (filters.foldl (subscribeOne env subId) acc).conn =
      { acc.conn with subscriptionCount } :=
  Lib.foldl_rel (R := fun acc acc' : SubscribeLoop =>
      ∃ subscriptionCount, acc'.conn = { acc.conn with subscriptionCount })
    (fun _ => ⟨_, rfl⟩) (fun ⟨_, h⟩ ⟨_, h'⟩ => ⟨_, h'.trans (by rw [h])⟩)
    (subscribeOne_frame env subId) filters acc

lemma unsubscribeAll_frame (filters : List String) (acc : Connection × ShardState) :
    ∃ subscriptionCount, (filters.foldl unsubscribeOne acc).1 =
      { acc.1 with subscriptionCount } := by
  have hone (acc : Connection × ShardState) (filter : String) : ∃ subscriptionCount,
      (unsubscribeOne acc filter).1 = { acc.1 with subscriptionCount } := ⟨_, rfl⟩
  exact Lib.foldl_rel (R := fun acc acc' : Connection × ShardState =>
      ∃ subscriptionCount, acc'.1 = { acc.1 with subscriptionCount })
    (fun _ => ⟨_, rfl⟩) (fun ⟨_, h⟩ ⟨_, h'⟩ => ⟨_, h'.trans (by rw [h])⟩) hone filters acc

section

variable (c : Connection) (shard : ShardState)

lemma keeps_handlePublish (chance : Chance) (publish : Publish) :
    Keeps c (c.handlePublish env shard chance publish).conn := by
  obtain ⟨_, _, _, h⟩ := handlePublish_frame env c shard chance publish
  exact h ▸ .of_eq rfl rfl rfl rfl

lemma keeps_handlePubrel (chance : Chance) (pkid : UInt16) :
    Keeps c (c.handlePubrel env shard chance pkid).conn := by
  obtain ⟨_, _, h⟩ := handlePubrel_frame env c shard chance pkid
  exact h ▸ .of_eq rfl rfl rfl rfl

lemma keeps_handleSubscribe (subscribe : Subscribe) :
    Keeps c (c.handleSubscribe env shard subscribe).conn := by
  obtain ⟨_, h⟩ := subscribeAll_frame env subscribe.id subscribe.filters { conn := c, shard }
  refine Keeps.trans ?_ ((keeps_send _ _).trans (keeps_replayAll env _ _ 0 none))
  exact h ▸ .of_eq rfl rfl rfl rfl

end

lemma keeps_handleDisconnect (c : Connection) (reason : DisconnectReasonCode) :
    Keeps c (c.handleDisconnect reason).1 := by
  unfold handleDisconnect
  split
  · exact .of_eq rfl rfl rfl rfl
  · exact .refl c

/-- Past its handshake a connection stays itself, and balanced, whatever its client sends. -/
lemma keeps_dispatch (c : Connection) (shard : ShardState) (chance : Chance) (packet : Packet) :
    Keeps c (c.dispatch env shard chance packet).conn := by
  cases packet with
  | connect => exact keeps_send c _
  | publish publish => exact keeps_handlePublish env c shard chance publish
  | subscribe subscribe => exact keeps_handleSubscribe env c shard subscribe
  | unsubscribe unsubscribe =>
    obtain ⟨_, h⟩ := unsubscribeAll_frame unsubscribe.filters (c, shard)
    refine Keeps.trans ?_ (keeps_send _ _)
    exact h ▸ .of_eq rfl rfl rfl rfl
  | pingReq => exact keeps_send c _
  | disconnect reason => exact keeps_handleDisconnect c reason
  | pubAck pkid => exact keeps_release env c pkid
  | pubRec pkid => exact keeps_handlePubrec c pkid
  | pubRel pkid => exact keeps_handlePubrel env c shard chance pkid
  | pubComp pkid => exact keeps_release env c pkid
  | serverOnly => exact .refl c

/-! ### The handshake -/

/-- What a CONNECT settles about a connection before the session is opened. -/
def Vetted (c c₁ : Connection) : Prop :=
  ∃ clientId sessionExpiry username will willDelay peerReceiveMax peerMaxPacketSize
      peerTopicAliasMax,
    c₁ = { c with
      clientId, sessionExpiry, username, will, willDelay, peerReceiveMax, peerMaxPacketSize,
      peerTopicAliasMax }

lemma stashWill_frame (c : Connection) (lastWill : Option LastWill) :
    ∃ will willDelay, c.stashWill lastWill = { c with will, willDelay } := by
  cases lastWill with
  | none => exact ⟨_, _, rfl⟩
  | some w => exact ⟨_, _, rfl⟩

lemma checkWill_frame (c : Connection) : ∃ will, c.checkWill env = { c with will } := by
  unfold checkWill
  split
  · exact ⟨_, rfl⟩
  · exact ⟨_, rfl⟩

lemma assignedClientId_ne_empty (shardId n : ℕ) (rand : UInt64) :
    assignedClientId shardId n rand ≠ "" := by
  intro h
  have hlen := congrArg String.length h
  simp [assignedClientId] at hlen

/-- A CONNECT whose client id is settled is refused, or goes on to open the session. -/
lemma acceptConnect_cases (c : Connection) (shard : ShardState) (chance : Chance)
    (connect : Connect) : ∃ c₁, Vetted c c₁ ∧ c₁.clientId = c.clientId ∧
      ((∃ code, c.acceptConnect env shard chance connect = .ofConn shard (c₁.rejectConnect code)) ∨
        c.acceptConnect env shard chance connect =
          c₁.openHandle env shard chance connect.cleanSession (connect.clientId = "")) := by
  obtain ⟨_, _, hstash⟩ := c.stashWill_frame connect.lastWill
  unfold acceptConnect
  rw [hstash]
  dsimp only
  split
  · refine ⟨_, ?_, ?_, .inl ⟨_, rfl⟩⟩
    · exact ⟨_, _, _, _, _, _, _, _, rfl⟩
    · rfl
  · next username _ =>
    obtain ⟨_, hcheck⟩ := checkWill_frame env { c.stashWill connect.lastWill with username }
    rw [hstash] at hcheck
    rw [hcheck]
    refine ⟨_, ?_, ?_, .inr rfl⟩
    · exact ⟨_, _, _, _, _, _, _, _, rfl⟩
    · rfl

/-- The client id a CONNECT asks for, or is assigned. -/
def connectingId (c : Connection) (shard : ShardState) (chance : Chance)
    (connect : Connect) : String :=
  if connect.clientId = "" then assignedClientId c.shardId shard.nextAssignedId chance.rand
  else connect.clientId

section

variable (c : Connection) (shard : ShardState) (chance : Chance) (connect : Connect)

lemma connectingId_ne_empty : c.connectingId shard chance connect ≠ "" := by
  unfold connectingId
  split
  · exact assignedClientId_ne_empty _ _ _
  · next hne => exact hne

/-- A CONNECT is refused, or opens the session of the client id it asks for or is assigned. -/
lemma handleConnect_named : ∃ c₁ nextAssignedId, Vetted c c₁ ∧
      ((∃ code, c.handleConnect env shard chance connect =
          .ofConn { shard with nextAssignedId } (c₁.rejectConnect code)) ∨
        c₁.clientId = c.connectingId shard chance connect ∧
          c.handleConnect env shard chance connect =
            c₁.openHandle env { shard with nextAssignedId } chance connect.cleanSession
              (connect.clientId = "")) := by
  unfold handleConnect connectingId
  split
  · obtain ⟨c₁, hvet, hid, hcases⟩ := acceptConnect_cases env
      { c.negotiate connect.properties with
        clientId := assignedClientId (c.negotiate connect.properties).shardId shard.nextAssignedId
          chance.rand }
      { shard with nextAssignedId := shard.nextAssignedId + 1 } chance connect
    obtain ⟨_, _, _, _, _, _, _, _, hvet⟩ := hvet
    exact ⟨c₁, _, ⟨_, _, _, _, _, _, _, _, hvet⟩, hcases.imp id fun h => ⟨hid, h⟩⟩
  · split
    · exact ⟨_, _, ⟨_, _, _, _, _, _, _, _, rfl⟩, .inl ⟨_, rfl⟩⟩
    · obtain ⟨c₁, hvet, hid, hcases⟩ := acceptConnect_cases env
        { c.negotiate connect.properties with clientId := connect.clientId } shard chance connect
      obtain ⟨_, _, _, _, _, _, _, _, hvet⟩ := hvet
      exact ⟨c₁, _, ⟨_, _, _, _, _, _, _, _, hvet⟩, hcases.imp id fun h => ⟨hid, h⟩⟩

lemma handleConnect_cases : ∃ c₁ nextAssignedId, Vetted c c₁ ∧
      ((∃ code, c.handleConnect env shard chance connect =
          .ofConn { shard with nextAssignedId } (c₁.rejectConnect code)) ∨
        c₁.clientId ≠ "" ∧ c.handleConnect env shard chance connect =
          c₁.openHandle env { shard with nextAssignedId } chance connect.cleanSession
            (connect.clientId = "")) := by
  obtain ⟨c₁, n, hvet, hcases⟩ := handleConnect_named env c shard chance connect
  refine ⟨c₁, n, hvet, hcases.imp id fun ⟨hid, h⟩ => ⟨?_, h⟩⟩
  rw [hid]
  exact connectingId_ne_empty c shard chance connect

end

lemma keeps_finishConnect (env : Env) (c : Connection) (chance : Chance)
    (assigned sessionPresent : Bool) (queue : List Delivery) :
    Keeps { c with connected := true, phase := .running }
      (c.finishConnect env chance assigned sessionPresent queue).1 := by
  unfold finishConnect
  split
  · refine Keeps.trans ?_ (keeps_resumeDelivery env _ chance.flushFails queue)
    exact .of_eq rfl rfl rfl rfl
  · exact .of_eq rfl rfl rfl rfl

/-- A session that did not exist before has nothing to hand over. -/
lemma snapshot_openSession (s : ShardState) (clientId : String) (mailbox : ℕ) (cleanStart : Bool)
    (h : (s.openSession clientId mailbox cleanStart).2.resumed = false) :
    (s.openSession clientId mailbox cleanStart).2.snapshot = {} := by
  unfold ShardState.openSession at h ⊢
  dsimp only at h ⊢
  split
  · rfl
  · next hs =>
    rw [hs] at h
    dsimp only at h
    split
    · rfl
    · next hclean =>
      rw [if_neg hclean] at h
      exact nomatch h

/-- A resuming CONNECT receives what the record holds. -/
lemma handle_of_resume {s : ShardState} {k : String} {session : Session}
    (hs : s.sessions.lookup k = some session) (mailbox : ℕ) : (s.openSession k mailbox false).2 =
      { resumed := true
        generation := s.nextGeneration + 1
        snapshot := session.snapshot.getD {}
        offlineQueue := session.offlineQueue } := by
  -- the signal to a parked predecessor touches neither snapshot nor queue
  have hsignal : ∃ existing, ({ s with nextGeneration := s.nextGeneration + 1 }.signalCloseParked
      k).sessions.lookup k = some existing ∧ existing.snapshot = session.snapshot ∧
      existing.offlineQueue = session.offlineQueue := by
    unfold ShardState.signalCloseParked
    rw [hs]
    dsimp only
    split
    · exact ⟨_, lookup_insert _, rfl, rfl⟩
    · exact ⟨session, hs, rfl, rfl⟩
  obtain ⟨existing, hexisting, hsnapshot, hqueue⟩ := hsignal
  unfold ShardState.openSession
  dsimp only
  rw [hexisting, ← hsnapshot, ← hqueue]
  rfl

/-- After the opening of the session the shard is at most told of a claim, which goes to the peers.
-/
@[elab_as_elim]
lemma shard_openHandle {motive : ShardState → Prop} (c : Connection) (shard : ShardState)
    (chance : Chance) (cleanStart assigned : Bool)
    (opened : motive (shard.openSession c.clientId c.mailboxRx cleanStart).1)
    (register : ∀ s, motive s → motive (s.registerClaim c.clientId c.mailboxRx))
    (broadcast : ∀ s resume, motive s → motive (s.broadcastClaim c.clientId resume)) :
    motive (c.openHandle env shard chance cleanStart assigned).shard := by
  unfold openHandle
  dsimp only
  split
  · exact broadcast _ _ opened
  · split
    · exact opened
    · unfold claimRemoteSession
      split
      · exact opened
      · exact broadcast _ _ (register _ opened)

/-- The connection that has opened a session: in its event loop, or asking the peers. -/
lemma keeps_openHandle (hinflight : c.inflight = ∅) (shard : ShardState) (chance : Chance)
    (cleanStart assigned : Bool) :
    ∃ connected phase, ((connected = true ∧ phase = .running) ∨
        (connected = c.connected ∧ phase = .claiming shard.meshPeers assigned ∧
          (c.openHandle env shard chance cleanStart assigned).conn.inflight = ∅)) ∧
      Keeps
        { c with
          mailboxTx := none
          sessionGeneration := shard.nextGeneration + 1
          connected
          phase }
        (c.openHandle env shard chance cleanStart assigned).conn := by
  have hgen := shard.generation_openSession c.clientId c.mailboxRx cleanStart
  have hmesh : (shard.openSession c.clientId c.mailboxRx cleanStart).1.meshPeers =
      shard.meshPeers := by
    rw [ShardState.meshPeers, (shard.posts_openSession c.clientId c.mailboxRx cleanStart).mesh]
    rfl
  have hsnapshot := snapshot_openSession shard c.clientId c.mailboxRx cleanStart
  unfold openHandle
  generalize shard.openSession c.clientId c.mailboxRx cleanStart = opened at hgen hmesh hsnapshot ⊢
  obtain ⟨shard', handle⟩ := opened
  dsimp only at hgen hmesh hsnapshot ⊢
  rw [hgen]
  have hrestore (connected : Bool) (phase : Phase) : Keeps
      { c with mailboxTx := none, sessionGeneration := shard.nextGeneration + 1, connected, phase }
      { { c with mailboxTx := none, sessionGeneration := shard.nextGeneration + 1 }.restore
          handle.snapshot with connected, phase } :=
    keeps_restore (show Connection.inflight { c with
      mailboxTx := none, sessionGeneration := shard.nextGeneration + 1, connected, phase } = ∅
      from hinflight) handle.snapshot
  split
  · exact ⟨true, .running, .inl ⟨rfl, rfl⟩,
      (hrestore _ _).trans (keeps_finishConnect env _ chance assigned _ _)⟩
  · split
    · exact ⟨true, .running, .inl ⟨rfl, rfl⟩,
        (hrestore _ _).trans (keeps_finishConnect env _ chance assigned _ _)⟩
    · unfold claimRemoteSession
      rw [hmesh]
      split
      · exact ⟨true, .running, .inl ⟨rfl, rfl⟩,
          (hrestore _ _).trans (keeps_finishConnect env _ chance assigned _ _)⟩
      · next hresumed _ =>
        refine ⟨c.connected, _, .inr ⟨rfl, rfl, ?_⟩, hrestore _ _⟩
        exact congrArg SessionSnapshot.inflight (hsnapshot (Bool.not_eq_true _ ▸ hresumed))

/-- The claim is over: the connection enters its event loop, with a migrated session or a new one.
-/
lemma keeps_claimed (env : Env) (hinflight : c.inflight = ∅) (shard : ShardState)
    (chance : Chance) (assigned : Bool) (found : Option MigratedSession) :
    Keeps { c with connected := true, phase := .running }
      (c.claimed env shard chance assigned found).conn := by
  unfold claimed
  split
  · exact keeps_finishConnect env c chance assigned false []
  · next migrated =>
    generalize shard.unregisterClaim c.clientId = shard
    refine Keeps.trans ?_ (keeps_finishConnect env _ chance assigned true _)
    have hcount : Keeps { c with connected := true, phase := .running }
        { c with
          connected := true
          phase := .running
          subscriptionCount := migrated.subscriptions.length } := .of_eq rfl rfl rfl rfl
    exact hcount.trans (@keeps_restore
      { c with
        connected := true
        phase := .running
        subscriptionCount := migrated.subscriptions.length }
      hinflight (shard.installMigrated c.clientId migrated).2.1)

end Connection

end Rusquitto
