import Rusquitto.Persistence.Codec

/-!
# The durable-session snapshot

`encode_session`, `decode_session`, `serialize` and `parse` of `session.rs`. What is decoded from an
encoded session is `stored`: the same session, with its publishes as the wire encoding reads them
back and its maps rebuilt entry by entry.
-/

namespace Rusquitto

open Lib List

variable {bytes : List UInt8}

/-- The magic header `RQS1`. -/
def sessionMagic : List UInt8 := [0x52, 0x51, 0x53, 0x31]

/-- The byte of an in-flight state. -/
def stateToU8 : InflightState → UInt8
  | .qos1 => 0
  | .qos2Pending => 1
  | .qos2Released => 2

/-- Any other byte is refused. -/
def stateFromU8 (v : UInt8) : Except CodecError InflightState :=
  if v = 0 then .ok .qos1
  else if v = 1 then .ok .qos2Pending
  else if v = 2 then .ok .qos2Released
  else .error .invalidInflightState

/-! ## Encoding -/

/-- One subscription; bit 0 of the flags is no-local, bit 1 retain-as-published. -/
def encodeSub (sub : FlatSub) : List UInt8 :=
  let flags := sub.nolocal.toUInt8 ||| (sub.retainAsPublished.toUInt8 <<< 1)
  putStr sub.filter ++ (putU8 (qosToU8 sub.qos) ++ (putU8 flags ++
    (putOptStr sub.shareGroup ++ putOptU32 sub.subId)))

/-- One unacknowledged outbound message. -/
def encodeInflight (wire : Wire) (entry : UInt16 × InflightMessage) :
    Except CodecError (List UInt8) := do
  let publish ← putPublish wire entry.2.publish
  pure (putU16 entry.1.toNat ++ (putU8 (stateToU8 entry.2.state) ++ publish))

/-- One inbound QoS 2 publish that is not released. -/
def encodeIncoming (wire : Wire) (entry : UInt16 × Publish) : Except CodecError (List UInt8) := do
  let publish ← putPublish wire entry.2
  pure (putU16 entry.1.toNat ++ publish)

/-- One queued delivery. -/
def encodeOffline (wire : Wire) (d : Delivery) : Except CodecError (List UInt8) := do
  let publish ← putPublish wire d.publish
  pure (putU8 (qosToU8 d.qos) ++ (putU8 d.retain.toUInt8 ++
    (putU32 d.subIds.length ++ ((d.subIds.map putU32).flatten ++ publish))))

/-- The entries of a map as pairs. -/
def pairs {K V : Type} (m : HashMap K V) : List (K × V) :=
  m.entries.map fun e => (e.1, e.2)

/-- The encoding of one session. A publish that the wire encoder refuses fails the whole. -/
def encodeSession (wire : Wire) (ps : PersistedSession) : Except CodecError (List UInt8) := do
  let s := ps.session
  let inflight ← (pairs s.inflight).mapM (encodeInflight wire)
  let incoming ← (pairs s.incomingQos2).mapM (encodeIncoming wire)
  let offline ← s.offline.mapM (encodeOffline wire)
  pure (putStr ps.clientId ++ (putU32 ps.expirySecs.toNat ++
    (putU32 s.subscriptions.length ++ ((s.subscriptions.map encodeSub).flatten ++
      (putU16 s.nextPkid.toNat ++
        (putU32 (pairs s.inflight).length ++ (inflight.flatten ++
          (putU32 (pairs s.incomingQos2).length ++ (incoming.flatten ++
            (putU32 s.offline.length ++ offline.flatten))))))))))

/-- The bytes of a snapshot file. -/
def serialize (wire : Wire) (sessions : List PersistedSession) :
    Except CodecError (List UInt8) := do
  let encoded ← sessions.mapM (encodeSession wire)
  pure (sessionMagic ++ (putU32 sessions.length ++ encoded.flatten))

/-! ## Decoding -/

/-- Reads `encodeSub`. -/
def decodeSub : SnapshotReader FlatSub := do
  let filter ← getStr
  let tag ← getU8
  let qos ← liftExcept (qosFromU8 tag)
  let flags ← getU8
  let shareGroup ← getOptStr
  let subId ← getOptU32
  pure { filter, qos, nolocal := flags &&& 1 != 0, retainAsPublished := flags &&& 2 != 0,
         shareGroup, subId }

/-- Reads `encodeInflight`. -/
def decodeInflight (wire : Wire) : SnapshotReader (UInt16 × InflightMessage) := do
  let pkid ← getU16
  let tag ← getU8
  let state ← liftExcept (stateFromU8 tag)
  let publish ← getPublish wire
  pure (UInt16.ofNat pkid, { publish, state })

/-- Reads `encodeIncoming`. -/
def decodeIncoming (wire : Wire) : SnapshotReader (UInt16 × Publish) := do
  let pkid ← getU16
  let publish ← getPublish wire
  pure (UInt16.ofNat pkid, publish)

/-- Reads `encodeOffline`. -/
def decodeOffline (wire : Wire) : SnapshotReader Delivery := do
  let tag ← getU8
  let qos ← liftExcept (qosFromU8 tag)
  let retain ← getU8
  let count ← getU32
  let subIds ← Reader.readN getU32 count
  let publish ← getPublish wire
  pure { publish, qos, retain := retain != 0, subIds }

/-- A map filled by inserting pairs in order. -/
def insertAll {K V : Type} [DecidableEq K] (l : List (K × V)) : HashMap K V :=
  l.foldl (fun m e => m.insert e.1 e.2) ∅

/-- Reads `encodeSession`; an id that occurs twice keeps its last entry. -/
def decodeSession (wire : Wire) : SnapshotReader PersistedSession := do
  let clientId ← getStr
  let expirySecs ← getU32
  let subCount ← getU32
  let subscriptions ← Reader.readN decodeSub subCount
  let nextPkid ← getU16
  let inflightCount ← getU32
  let inflight ← Reader.readN (decodeInflight wire) inflightCount
  let incomingCount ← getU32
  let incoming ← Reader.readN (decodeIncoming wire) incomingCount
  let offlineCount ← getU32
  let offline ← Reader.readN (decodeOffline wire) offlineCount
  pure { clientId, expirySecs := UInt32.ofNat expirySecs
         session := { subscriptions, inflight := insertAll inflight,
                      incomingQos2 := insertAll incoming, nextPkid := UInt16.ofNat nextPkid,
                      offline } }

/-- The sessions of a snapshot file. -/
def parseSessions (wire : Wire) : SnapshotReader (List PersistedSession) := do
  expectMagic sessionMagic
  let count ← getU32
  Reader.readN (decodeSession wire) count

/-! ## Round trip -/

/-- Sessions whose strings, identifiers and counts fit their fields. -/
structure PersistedSession.Fits (ps : PersistedSession) : Prop where
  clientId : ps.clientId.utf8ByteSize < 2 ^ 16
  filter : ∀ sub ∈ ps.session.subscriptions, sub.filter.utf8ByteSize < 2 ^ 16
  shareGroup : ∀ sub ∈ ps.session.subscriptions, ∀ g ∈ sub.shareGroup, g.utf8ByteSize < 2 ^ 16
  subId : ∀ sub ∈ ps.session.subscriptions, ∀ id ∈ sub.subId, id < 2 ^ 32
  subscriptions : ps.session.subscriptions.length < 2 ^ 32
  inflight : (pairs ps.session.inflight).length < 2 ^ 32
  incomingQos2 : (pairs ps.session.incomingQos2).length < 2 ^ 32
  offline : ps.session.offline.length < 2 ^ 32
  subIds : ∀ d ∈ ps.session.offline, d.subIds.length < 2 ^ 32
  subIds_lt : ∀ d ∈ ps.session.offline, ∀ id ∈ d.subIds, id < 2 ^ 32

/-- The publishes that are part of a session. -/
def PersistedSession.publishes (ps : PersistedSession) : List Publish :=
  (pairs ps.session.inflight).map (·.2.publish) ++
    ((pairs ps.session.incomingQos2).map (·.2) ++ ps.session.offline.map (·.publish))

/-- They read back. -/
def PersistedSession.Readable (wire : Wire) (readBack : Publish → Publish) (ps : PersistedSession) :
    Prop :=
  ∀ p ∈ ps.publishes, wire.Reads readBack (withPlaceholder p)

/-- A publish as it comes back from the codec. -/
def storedPublish (readBack : Publish → Publish) (p : Publish) : Publish :=
  readBack (withPlaceholder p)

/-- So does an unacknowledged message, -/
def storedInflight (readBack : Publish → Publish) (e : UInt16 × InflightMessage) :
    UInt16 × InflightMessage :=
  (e.1, { e.2 with publish := storedPublish readBack e.2.publish })

/-- an inbound QoS 2 publish, -/
def storedIncoming (readBack : Publish → Publish) (e : UInt16 × Publish) : UInt16 × Publish :=
  (e.1, storedPublish readBack e.2)

/-- and a queued delivery. -/
def storedDelivery (readBack : Publish → Publish) (d : Delivery) : Delivery :=
  { d with publish := storedPublish readBack d.publish }

/-- A session as it comes back from the codec. -/
def PersistedSession.stored (readBack : Publish → Publish) (ps : PersistedSession) :
    PersistedSession :=
  { ps with
    session :=
      { ps.session with
        inflight := insertAll ((pairs ps.session.inflight).map (storedInflight readBack))
        incomingQos2 := insertAll ((pairs ps.session.incomingQos2).map (storedIncoming readBack))
        offline := ps.session.offline.map (storedDelivery readBack) } }

section Decodes

open Reader (Decodes)

variable {wire : Wire} {readBack : Publish → Publish}

lemma stateFromU8_stateToU8 (state : InflightState) :
    stateFromU8 (stateToU8 state) = .ok state := by
  cases state <;> rfl

lemma decodes_liftExcept {α : Type} {r : Except CodecError α} {a : α} (h : r = .ok a) :
    Decodes (liftExcept r) [] a := by
  subst h
  exact Decodes.pure a

lemma bind_ok_iff {α β ε : Type} {x : Except ε α} {f : α → Except ε β} {b : β} :
    (x >>= f) = .ok b ↔ ∃ a, x = .ok a ∧ f a = .ok b := by
  cases x with
  | error e => simp [bind, Except.bind]
  | ok a => simp [bind, Except.bind]

lemma decodes_decodeSub {sub : FlatSub} (hfilter : sub.filter.utf8ByteSize < 2 ^ 16)
    (hgroup : ∀ g ∈ sub.shareGroup, g.utf8ByteSize < 2 ^ 16)
    (hid : ∀ id ∈ sub.subId, id < 2 ^ 32) : Decodes decodeSub (encodeSub sub) sub := by
  refine (decodes_getStr hfilter).bind ((decodes_getU8 _).bind ?_)
  rw [← nil_append (putU8 _ ++ _)]
  refine (decodes_liftExcept (qosFromU8_qosToU8 sub.qos)).bind ((decodes_getU8 _).bind
    ((decodes_getOptStr hgroup).bind ((decodes_getOptU32 hid).bind_pure
      (Decodes.pure_of_eq ?_))))
  have hflags : ∀ a b : Bool, ((a.toUInt8 ||| b.toUInt8 <<< 1) &&& 1 != 0) = a ∧
      ((a.toUInt8 ||| b.toUInt8 <<< 1) &&& 2 != 0) = b := by
    decide
  rw [(hflags _ _).1, (hflags _ _).2]

lemma decodes_decodeInflight {e : UInt16 × InflightMessage}
    (hread : wire.Reads readBack (withPlaceholder e.2.publish))
    (h : encodeInflight wire e = .ok bytes) :
    Decodes (decodeInflight wire) bytes (storedInflight readBack e) := by
  obtain ⟨publish, hpublish, heq⟩ := bind_ok_iff.mp h
  cases heq
  refine (decodes_getU16 e.1.toNat_lt).bind ((decodes_getU8 _).bind ?_)
  rw [← nil_append publish]
  refine (decodes_liftExcept (stateFromU8_stateToU8 _)).bind
    ((decodes_getPublish hread hpublish).bind_pure (Decodes.pure_of_eq ?_))
  rw [UInt16.ofNat_toNat]
  rfl

lemma decodes_decodeIncoming {e : UInt16 × Publish}
    (hread : wire.Reads readBack (withPlaceholder e.2)) (h : encodeIncoming wire e = .ok bytes) :
    Decodes (decodeIncoming wire) bytes (storedIncoming readBack e) := by
  obtain ⟨publish, hpublish, heq⟩ := bind_ok_iff.mp h
  cases heq
  refine (decodes_getU16 e.1.toNat_lt).bind
    ((decodes_getPublish hread hpublish).bind_pure (Decodes.pure_of_eq ?_))
  rw [UInt16.ofNat_toNat]
  rfl

lemma decodes_decodeOffline {d : Delivery} (hcount : d.subIds.length < 2 ^ 32)
    (hids : ∀ id ∈ d.subIds, id < 2 ^ 32)
    (hread : wire.Reads readBack (withPlaceholder d.publish))
    (h : encodeOffline wire d = .ok bytes) :
    Decodes (decodeOffline wire) bytes (storedDelivery readBack d) := by
  obtain ⟨publish, hpublish, heq⟩ := bind_ok_iff.mp h
  cases heq
  have hsubs : Decodes (Reader.readN getU32 d.subIds.length) (d.subIds.map putU32).flatten
      (d.subIds.map id) := by
    refine Decodes.readN ?_
    rw [forall₂_map_right_iff, forall₂_same]
    exact fun id hid => decodes_getU32 (hids id hid)
  rw [map_id] at hsubs
  refine (decodes_getU8 _).bind ?_
  rw [← nil_append (putU8 _ ++ _)]
  refine (decodes_liftExcept (qosFromU8_qosToU8 d.qos)).bind ((decodes_getU8 _).bind
    ((decodes_getU32 hcount).bind (hsubs.bind ((decodes_getPublish hread hpublish).bind_pure
      (Decodes.pure_of_eq ?_)))))
  obtain ⟨p, qos, retain, subIds⟩ := d
  cases retain <;> rfl

/-- Decoding an encoded session returns it as stored and reads no further. -/
lemma decodes_decodeSession {ps : PersistedSession} (hread : ps.Readable wire readBack)
    (hfits : ps.Fits) (h : encodeSession wire ps = .ok bytes) :
    Decodes (decodeSession wire) bytes (ps.stored readBack) := by
  obtain ⟨inflight, hinflight, h⟩ := bind_ok_iff.mp h
  obtain ⟨incoming, hincoming, h⟩ := bind_ok_iff.mp h
  obtain ⟨offline, hoffline, heq⟩ := bind_ok_iff.mp h
  cases heq
  simp only [PersistedSession.Readable, PersistedSession.publishes, forall_mem_append,
    forall_mem_map] at hread
  have hsubs : Decodes (Reader.readN decodeSub ps.session.subscriptions.length)
      (ps.session.subscriptions.map encodeSub).flatten (ps.session.subscriptions.map id) := by
    refine Decodes.readN ?_
    rw [forall₂_map_right_iff, forall₂_same]
    exact fun sub hsub => decodes_decodeSub (hfits.filter sub hsub) (hfits.shareGroup sub hsub)
      (hfits.subId sub hsub)
  rw [map_id] at hsubs
  have hinflight' : Decodes (Reader.readN (decodeInflight wire) (pairs ps.session.inflight).length)
      inflight.flatten ((pairs ps.session.inflight).map (storedInflight readBack)) :=
    Decodes.readN ((Reader.forall₂_of_mapM hinflight).imp fun _ _ h =>
      decodes_decodeInflight (hread.1 _ h.1) h.2)
  have hincoming' : Decodes
      (Reader.readN (decodeIncoming wire) (pairs ps.session.incomingQos2).length)
      incoming.flatten ((pairs ps.session.incomingQos2).map (storedIncoming readBack)) :=
    Decodes.readN ((Reader.forall₂_of_mapM hincoming).imp fun _ _ h =>
      decodes_decodeIncoming (hread.2.1 _ h.1) h.2)
  have hoffline' : Decodes (Reader.readN (decodeOffline wire) ps.session.offline.length)
      offline.flatten (ps.session.offline.map (storedDelivery readBack)) :=
    Decodes.readN ((Reader.forall₂_of_mapM hoffline).imp fun d _ h =>
      decodes_decodeOffline (hfits.subIds d h.1) (hfits.subIds_lt d h.1) (hread.2.2 d h.1) h.2)
  refine (decodes_getStr hfits.clientId).bind ((decodes_getU32 ps.expirySecs.toNat_lt).bind
    ((decodes_getU32 hfits.subscriptions).bind (hsubs.bind
      ((decodes_getU16 ps.session.nextPkid.toNat_lt).bind
        ((decodes_getU32 hfits.inflight).bind (hinflight'.bind
          ((decodes_getU32 hfits.incomingQos2).bind (hincoming'.bind
            ((decodes_getU32 hfits.offline).bind (hoffline'.bind_pure
              (Decodes.pure_of_eq ?_)))))))))))
  rw [UInt32.ofNat_toNat, UInt16.ofNat_toNat]
  rfl

end Decodes

/-! ## Locality -/

section Local

open Reader (Local)

lemma local_decodeSub : Local decodeSub :=
  local_getStr.bind fun _ => local_getU8.bind fun _ => (local_liftExcept _).bind fun _ =>
    local_getU8.bind fun _ => local_getOptStr.bind fun _ => local_getOptU32.bind fun _ =>
      Local.pure _

lemma local_decodeInflight (wire : Wire) : Local (decodeInflight wire) :=
  local_getU16.bind fun _ => local_getU8.bind fun _ => (local_liftExcept _).bind fun _ =>
    (local_getPublish wire).bind fun _ => .pure _

lemma local_decodeIncoming (wire : Wire) : Local (decodeIncoming wire) :=
  local_getU16.bind fun _ => (local_getPublish wire).bind fun _ => .pure _

lemma local_decodeOffline (wire : Wire) : Local (decodeOffline wire) :=
  local_getU8.bind fun _ => (local_liftExcept _).bind fun _ => local_getU8.bind fun _ =>
    local_getU32.bind fun n => (local_getU32.readN n).bind fun _ =>
      (local_getPublish wire).bind fun _ => .pure _

lemma local_decodeSession (wire : Wire) : Local (decodeSession wire) :=
  local_getStr.bind fun _ => local_getU32.bind fun _ => local_getU32.bind fun n =>
    (local_decodeSub.readN n).bind fun _ => local_getU16.bind fun _ => local_getU32.bind fun n =>
      ((local_decodeInflight wire).readN n).bind fun _ => local_getU32.bind fun n =>
        ((local_decodeIncoming wire).readN n).bind fun _ => local_getU32.bind fun n =>
          ((local_decodeOffline wire).readN n).bind fun _ => .pure _

end Local

end Rusquitto
