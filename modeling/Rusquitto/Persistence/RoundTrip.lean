import Rusquitto.Persistence.Packet
import Rusquitto.Persistence.Session

/-!
# The session codec round trip

An encoded session decodes to a copy of itself, whatever bytes follow, and a snapshot file parses to
copies of the sessions it was made of (`decode_encode_session`). A copy has the same maps as
functions of the packet id, not the same iteration order, and a publish that needs a packet id and
had none carries the placeholder.
-/

namespace Rusquitto

open Lib List PersistedSession

/-! ## Rebuilt maps -/

section InsertAll

variable {K V W : Type} [DecidableEq K]

lemma lookup_foldl_insert_of_notMem {l : List (K × V)} {k : K} (h : k ∉ l.map Prod.fst)
    (m : HashMap K V) : (l.foldl (fun m e => m.insert e.1 e.2) m).lookup k = m.lookup k := by
  induction l generalizing m with
  | nil => rfl
  | cons e l ih =>
    rw [map_cons, mem_cons, not_or] at h
    rw [foldl_cons, ih h.2, AList.lookup_insert_ne h.1]

lemma lookup_foldl_insert_of_mem {l : List (K × V)} (hnd : (l.map Prod.fst).Nodup) {k : K} {v : V}
    (h : (k, v) ∈ l) (m : HashMap K V) :
    (l.foldl (fun m e => m.insert e.1 e.2) m).lookup k = some v := by
  induction l generalizing m with
  | nil => exact nomatch h
  | cons e l ih =>
    rw [map_cons, nodup_cons] at hnd
    rw [foldl_cons]
    rcases mem_cons.mp h with rfl | h
    · rw [lookup_foldl_insert_of_notMem hnd.1, AList.lookup_insert]
    · exact ih hnd.2 h _

lemma mem_pairs {m : HashMap K V} {k : K} {v : V} : (k, v) ∈ pairs m ↔ m.lookup k = some v := by
  rw [← Option.mem_def, AList.mem_lookup_iff, pairs, mem_map]
  constructor
  · rintro ⟨⟨k', v'⟩, hmem, heq⟩
    obtain ⟨rfl, rfl⟩ := Prod.mk.inj heq
    exact hmem
  · exact fun hmem => ⟨⟨k, v⟩, hmem, rfl⟩

omit [DecidableEq K] in
lemma map_fst_pairs (m : HashMap K V) : (pairs m).map Prod.fst = m.keys := by
  rw [pairs, map_map]
  rfl

/-- A map written out pair by pair, with its values changed, and filled in again. -/
lemma lookup_insertAll_pairs (m : HashMap K V) (f : V → W) (k : K) :
    (insertAll ((pairs m).map fun e => (e.1, f e.2))).lookup k = (m.lookup k).map f := by
  have hkeys : ((pairs m).map fun e => (e.1, f e.2)).map Prod.fst = m.keys := by
    rw [map_map, ← map_fst_pairs]
    rfl
  cases hk : m.lookup k with
  | none =>
    refine (lookup_foldl_insert_of_notMem ?_ ∅).trans (AList.lookup_empty k)
    rw [hkeys]
    exact AList.lookup_eq_none.mp hk
  | some v =>
    refine lookup_foldl_insert_of_mem (hkeys ▸ m.keys_nodup) ?_ ∅
    exact mem_map.mpr ⟨(k, v), mem_pairs.mpr hk, rfl⟩

end InsertAll

/-! ## Copies -/

namespace PersistedSession

/-- The session a snapshot gives back: the same, with maps compared entry by entry and each publish
with a packet id where it needs one. -/
structure IsCopy (copy original : PersistedSession) : Prop where
  clientId : copy.clientId = original.clientId
  expirySecs : copy.expirySecs = original.expirySecs
  subscriptions : copy.session.subscriptions = original.session.subscriptions
  nextPkid : copy.session.nextPkid = original.session.nextPkid
  inflight : ∀ pkid, copy.session.inflight.lookup pkid =
    (original.session.inflight.lookup pkid).map fun m =>
      { m with publish := withPlaceholder m.publish }
  incomingQos2 : ∀ pkid, copy.session.incomingQos2.lookup pkid =
    (original.session.incomingQos2.lookup pkid).map withPlaceholder
  offline : copy.session.offline =
    original.session.offline.map fun d => { d with publish := withPlaceholder d.publish }

lemma isCopy_stored (ps : PersistedSession) : (ps.stored id).IsCopy ps where
  clientId := rfl
  expirySecs := rfl
  subscriptions := rfl
  nextPkid := rfl
  inflight := lookup_insertAll_pairs ps.session.inflight fun m : InflightMessage =>
    ({ m with publish := withPlaceholder m.publish } : InflightMessage)
  incomingQos2 := lookup_insertAll_pairs ps.session.incomingQos2 withPlaceholder
  offline := rfl

/-- Every publish of the session can be put on the wire. -/
def Writable (wire : Wire) (ps : PersistedSession) : Prop :=
  ∀ p ∈ ps.publishes, ∃ bytes, wire.write (withPlaceholder p) = .ok bytes

end PersistedSession

/-! ## When encoding succeeds -/

section Writable

variable {wire : Wire}

lemma exists_mapM_eq_ok_iff {α β ε : Type} {f : α → Except ε β} {l : List α} :
    (∃ bs, l.mapM f = .ok bs) ↔ ∀ a ∈ l, ∃ b, f a = .ok b := by
  induction l with
  | nil => exact ⟨nofun, fun _ => ⟨[], rfl⟩⟩
  | cons a l ih =>
    rw [forall_mem_cons, ← ih]
    constructor
    · rintro ⟨bs, h⟩
      rw [mapM_cons] at h
      obtain ⟨b, hb, h⟩ := bind_ok_iff.mp h
      obtain ⟨bs', hbs', -⟩ := bind_ok_iff.mp h
      exact ⟨⟨b, hb⟩, bs', hbs'⟩
    · rintro ⟨⟨b, hb⟩, bs, hbs⟩
      refine ⟨b :: bs, ?_⟩
      rw [mapM_cons]
      exact bind_ok_iff.mpr ⟨b, hb, bind_ok_iff.mpr ⟨bs, hbs, rfl⟩⟩

lemma exists_putPublish_iff {p : Publish} : (∃ bytes, putPublish wire p = .ok bytes) ↔
      ∃ bytes, wire.write (withPlaceholder p) = .ok bytes := by
  unfold putPublish
  cases wire.write (withPlaceholder p) with
  | error e => simp
  | ok bytes => simp

/-- An encoder that does nothing fallible but to write a publish. -/
lemma exists_bind_putPublish_iff {p : Publish} {β : Type} {k : List UInt8 → β} :
    (∃ b, (putPublish wire p >>= fun bytes => pure (k bytes)) = .ok b) ↔
      ∃ bytes, wire.write (withPlaceholder p) = .ok bytes := by
  rw [← exists_putPublish_iff]
  constructor
  · rintro ⟨b, h⟩
    obtain ⟨bytes, hbytes, -⟩ := bind_ok_iff.mp h
    exact ⟨bytes, hbytes⟩
  · rintro ⟨bytes, hbytes⟩
    exact ⟨k bytes, bind_ok_iff.mpr ⟨bytes, hbytes, rfl⟩⟩

/-- A session is refused only for a publish that the wire encoder refuses. -/
lemma exists_encodeSession_iff {ps : PersistedSession} :
    (∃ bytes, encodeSession wire ps = .ok bytes) ↔ ps.Writable wire := by
  have hinflight : (∃ bs, (pairs ps.session.inflight).mapM (encodeInflight wire) = .ok bs) ↔
      ∀ p ∈ (pairs ps.session.inflight).map (·.2.publish),
        ∃ bytes, wire.write (withPlaceholder p) = .ok bytes := by
    rw [exists_mapM_eq_ok_iff, forall_mem_map]
    exact forall₂_congr fun _ _ => exists_bind_putPublish_iff
  have hincoming : (∃ bs, (pairs ps.session.incomingQos2).mapM (encodeIncoming wire) = .ok bs) ↔
      ∀ p ∈ (pairs ps.session.incomingQos2).map (·.2),
        ∃ bytes, wire.write (withPlaceholder p) = .ok bytes := by
    rw [exists_mapM_eq_ok_iff, forall_mem_map]
    exact forall₂_congr fun _ _ => exists_bind_putPublish_iff
  have hoffline : (∃ bs, ps.session.offline.mapM (encodeOffline wire) = .ok bs) ↔
      ∀ p ∈ ps.session.offline.map (·.publish),
        ∃ bytes, wire.write (withPlaceholder p) = .ok bytes := by
    rw [exists_mapM_eq_ok_iff, forall_mem_map]
    exact forall₂_congr fun _ _ => exists_bind_putPublish_iff
  rw [Writable, publishes, forall_mem_append,
    forall_mem_append, ← hinflight, ← hincoming, ← hoffline]
  constructor
  · rintro ⟨bytes, h⟩
    obtain ⟨inflight, hinflight, h⟩ := bind_ok_iff.mp h
    obtain ⟨incoming, hincoming, h⟩ := bind_ok_iff.mp h
    obtain ⟨offline, hoffline, -⟩ := bind_ok_iff.mp h
    exact ⟨⟨inflight, hinflight⟩, ⟨incoming, hincoming⟩, offline, hoffline⟩
  · rintro ⟨⟨inflight, hinflight⟩, ⟨incoming, hincoming⟩, offline, hoffline⟩
    exact ⟨_, bind_ok_iff.mpr ⟨inflight, hinflight, bind_ok_iff.mpr ⟨incoming, hincoming,
      bind_ok_iff.mpr ⟨offline, hoffline, rfl⟩⟩⟩⟩

lemma exists_serialize_iff {sessions : List PersistedSession} :
    (∃ bytes, serialize wire sessions = .ok bytes) ↔ ∀ ps ∈ sessions, ps.Writable wire := by
  simp only [← exists_encodeSession_iff]
  rw [← exists_mapM_eq_ok_iff]
  constructor
  · rintro ⟨bytes, h⟩
    obtain ⟨encoded, hencoded, -⟩ := bind_ok_iff.mp h
    exact ⟨encoded, hencoded⟩
  · rintro ⟨encoded, hencoded⟩
    exact ⟨_, bind_ok_iff.mpr ⟨encoded, hencoded, rfl⟩⟩

end Writable

/-! ## Files -/

/-- The sessions of a snapshot file's content. -/
def parse (wire : Wire) (data : List UInt8) : Except CodecError (List PersistedSession) :=
  ((parseSessions wire).run data).map Prod.fst

lemma decodes_expectMagic (magic : List UInt8) : Reader.Decodes (expectMagic magic) magic () := by
  refine (decodes_takeBytes rfl).bind_pure ?_
  rw [if_pos rfl]
  exact Reader.Decodes.pure ()

lemma decodes_parseSessions {wire : Wire} {readBack : Publish → Publish}
    {sessions : List PersistedSession} (hread : ∀ ps ∈ sessions, ps.Readable wire readBack)
    (hfits : ∀ ps ∈ sessions, ps.Fits) (hcount : sessions.length < 2 ^ 32) {bytes : List UInt8}
    (h : serialize wire sessions = .ok bytes) : Reader.Decodes (parseSessions wire) bytes
      (sessions.map (stored readBack)) := by
  obtain ⟨encoded, hencoded, heq⟩ := bind_ok_iff.mp h
  cases heq
  have hall : Reader.Decodes (Reader.readN (decodeSession wire) sessions.length) encoded.flatten
      (sessions.map (stored readBack)) :=
    Reader.Decodes.readN ((Reader.forall₂_of_mapM hencoded).imp fun ps _ hps =>
      decodes_decodeSession (hread ps hps.1) (hfits ps hps.1) hps.2)
  exact (decodes_expectMagic sessionMagic).bind ((decodes_getU32 hcount).bind hall)

/-- The session codec round trip, for sessions whose publishes the wire encoding reads back as
written and whose strings, identifiers and counts fit their fields: decoding the bytes, with
anything after them, returns a copy and leaves exactly what comes after. A snapshot file parses to
copies of its sessions in order. -/
theorem decode_encode_session (wire : Wire) :
    (∀ ps : PersistedSession, ps.Fits → ps.Readable wire id →
      ((∃ bytes, encodeSession wire ps = .ok bytes) ↔ ps.Writable wire) ∧
      ∀ bytes, encodeSession wire ps = .ok bytes → ∀ suffix,
        ∃ copy, (decodeSession wire).run (bytes ++ suffix) = .ok (copy, suffix) ∧ copy.IsCopy ps) ∧
    (∀ sessions : List PersistedSession, (∀ ps ∈ sessions, ps.Fits ∧ ps.Readable wire id) →
      sessions.length < 2 ^ 32 →
      ((∃ bytes, serialize wire sessions = .ok bytes) ↔ ∀ ps ∈ sessions, ps.Writable wire) ∧
      ∀ bytes, serialize wire sessions = .ok bytes → ∃ copies, parse wire bytes = .ok copies ∧
          Forall₂ PersistedSession.IsCopy copies sessions) := by
  constructor
  · intro ps hfits hread
    refine ⟨exists_encodeSession_iff, fun bytes hbytes suffix => ?_⟩
    exact ⟨ps.stored id, decodes_decodeSession hread hfits hbytes suffix, ps.isCopy_stored⟩
  · intro sessions hok hcount
    refine ⟨exists_serialize_iff, fun bytes hbytes => ?_⟩
    refine ⟨sessions.map (PersistedSession.stored id), ?_, ?_⟩
    · have hrun := decodes_parseSessions (fun ps hps => (hok ps hps).2)
        (fun ps hps => (hok ps hps).1)
        hcount hbytes []
      rw [append_nil] at hrun
      rw [parse, hrun]
      rfl
    · rw [forall₂_map_left_iff, forall₂_same]
      exact fun ps _ => ps.isCopy_stored

/-- A session with a shared subscription and one message in its offline queue. -/
def pagerSession : PersistedSession where
  clientId := "pager"
  expirySecs := 60
  session :=
    { subscriptions :=
        [{ filter := "t", qos := .atLeastOnce, nolocal := false, retainAsPublished := true,
           shareGroup := some "g", subId := some 7 }]
      nextPkid := 3
      offline := [{ publish := plainPublish [1, 2], qos := .atMostOnce, retain := false, subIds := [7] }] }

lemma pagerSession_fits : pagerSession.Fits := by
  constructor <;> decide

/-- Its message is written as `30 06 00 01 74 00 01 02`. -/
lemma pagerSession_writable : pagerSession.Writable mqttWire := by
  intro p hp
  rw [mem_singleton.mp (show p ∈ [plainPublish [1, 2]] from hp)]
  exact ⟨[0x30, 6, 0, 1, 0x74, 0, 1, 2], by decide⟩

lemma pagerSession_readable : pagerSession.Readable mqttWire id := by
  intro p hp
  rw [mem_singleton.mp (show p ∈ [plainPublish [1, 2]] from hp)]
  exact reads_plainPublish [1, 2]

/-- The session is encoded, and both its encoding and a snapshot of it read back. -/
theorem decode_encode_pager :
    (∃ bytes, encodeSession mqttWire pagerSession = .ok bytes ∧ ∀ suffix, ∃ copy,
      (decodeSession mqttWire).run (bytes ++ suffix) = .ok (copy, suffix) ∧
        copy.IsCopy pagerSession) ∧
    (∃ bytes, serialize mqttWire [pagerSession] = .ok bytes ∧ ∃ copies,
      parse mqttWire bytes = .ok copies ∧
        Forall₂ PersistedSession.IsCopy copies [pagerSession]) := by
  obtain ⟨hone, hall⟩ := decode_encode_session mqttWire
  constructor
  · obtain ⟨hencodes, hdecodes⟩ := hone pagerSession pagerSession_fits pagerSession_readable
    obtain ⟨bytes, hbytes⟩ := hencodes.mpr pagerSession_writable
    exact ⟨bytes, hbytes, hdecodes bytes hbytes⟩
  · obtain ⟨hencodes, hparses⟩ := hall [pagerSession]
      (forall_mem_singleton.mpr ⟨pagerSession_fits, pagerSession_readable⟩) (by decide)
    obtain ⟨bytes, hbytes⟩ := hencodes.mpr (forall_mem_singleton.mpr pagerSession_writable)
    exact ⟨bytes, hbytes, hparses bytes hbytes⟩

end Rusquitto
