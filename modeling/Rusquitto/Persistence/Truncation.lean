import Rusquitto.Persistence.RoundTrip

/-!
# Snapshots that are cut short

A snapshot file of which only a strict prefix is left is refused, and no file makes `parse` decode
more entries than it has bytes, whatever counts and lengths it claims and wherever it fails
(`truncated_snapshot_refused`). `tallySessions` is `parse` with a count of what it has decoded so
far: sessions, subscriptions, in-flight and incoming messages, queued messages and their
identifiers.
-/

namespace Rusquitto

open Lib List
open Reader (Local Pays)
open Tally (Counts times)

variable (wire : Wire)

def tallyOffline : Tally CodecError Delivery := do
  let tag ← getU8.tally 1
  let qos ← (liftExcept (qosFromU8 tag)).tally 0
  let retain ← getU8.tally 0
  let count ← getU32.tally 0
  let subIds ← times (getU32.tally 1) count
  let publish ← (getPublish wire).tally 0
  pure { publish, qos, retain := retain != 0, subIds }

/-- A session counts from its client id on. -/
def tallySession : Tally CodecError PersistedSession := do
  let clientId ← getStr.tally 1
  let expirySecs ← getU32.tally 0
  let subCount ← getU32.tally 0
  let subscriptions ← times (decodeSub.tally 1) subCount
  let nextPkid ← getU16.tally 0
  let inflightCount ← getU32.tally 0
  let inflight ← times ((decodeInflight wire).tally 1) inflightCount
  let incomingCount ← getU32.tally 0
  let incoming ← times ((decodeIncoming wire).tally 1) incomingCount
  let offlineCount ← getU32.tally 0
  let offline ← times (tallyOffline wire) offlineCount
  pure { clientId, expirySecs := UInt32.ofNat expirySecs
         session := { subscriptions, inflight := insertAll inflight,
                      incomingQos2 := insertAll incoming, nextPkid := UInt16.ofNat nextPkid,
                      offline } }

def tallySessions : Tally CodecError (List PersistedSession) := do
  (expectMagic sessionMagic).tally 0
  let count ← getU32.tally 0
  times (tallySession wire) count

/-! ### Every entry is paid for -/

lemma pays_getU8 : Pays getU8 fun _ => 1 := (Pays.take _ 1).bind fun _ => .pure rfl

lemma pays_getU16 : Pays getU16 fun _ => 1 := (Pays.take _ 2).bind fun _ => .pure rfl

lemma pays_getU32 : Pays getU32 fun _ => 1 := (Pays.take _ 4).bind fun _ => .pure rfl

lemma pays_getStr : Pays getStr fun _ => 1 := by
  refine pays_getU16.bind fun n => (local_takeBytes n).pays.bind fun b => ?_
  cases String.fromUTF8? ⟨b.toArray⟩ with
  | none => exact (Local.fail _).pays
  | some s => exact .pure rfl

lemma pays_decodeSub : Pays decodeSub fun _ => 1 :=
  pays_getStr.bind fun _ => local_getU8.pays.bind fun _ => (local_liftExcept _).pays.bind fun _ =>
    local_getU8.pays.bind fun _ => local_getOptStr.pays.bind fun _ =>
      local_getOptU32.pays.bind fun _ => .pure rfl

lemma pays_decodeInflight : Pays (decodeInflight wire) fun _ => 1 :=
  pays_getU16.bind fun _ => local_getU8.pays.bind fun _ => (local_liftExcept _).pays.bind fun _ =>
    (local_getPublish wire).pays.bind fun _ => .pure rfl

lemma pays_decodeIncoming : Pays (decodeIncoming wire) fun _ => 1 :=
  pays_getU16.bind fun _ => (local_getPublish wire).pays.bind fun _ => .pure rfl

lemma counts_tallyOffline : Counts (tallyOffline wire) (decodeOffline wire) :=
  (Counts.tally local_getU8 pays_getU8).bind fun _ =>
    (Counts.free (local_liftExcept _)).bind fun _ =>
    (Counts.free local_getU8).bind fun _ => (Counts.free local_getU32).bind fun n =>
      ((Counts.tally local_getU32 pays_getU32).times n).bind fun _ =>
        (Counts.free (local_getPublish wire)).bind fun _ => .pure _

lemma counts_tallySession : Counts (tallySession wire) (decodeSession wire) :=
  (Counts.tally local_getStr pays_getStr).bind fun _ => (Counts.free local_getU32).bind fun _ =>
    (Counts.free local_getU32).bind fun n =>
      ((Counts.tally local_decodeSub pays_decodeSub).times n).bind fun _ =>
        (Counts.free local_getU16).bind fun _ => (Counts.free local_getU32).bind fun n =>
          ((Counts.tally (local_decodeInflight wire) (pays_decodeInflight wire)).times n).bind
            fun _ =>
            (Counts.free local_getU32).bind fun n =>
              ((Counts.tally (local_decodeIncoming wire) (pays_decodeIncoming wire)).times n).bind
                fun _ => (Counts.free local_getU32).bind fun n =>
                  ((counts_tallyOffline wire).times n).bind fun _ => .pure _

lemma local_expectMagic (magic : List UInt8) : Local (expectMagic magic) :=
  (local_takeBytes _).bind fun _ => Local.ite (Local.pure _) (Local.fail _)

lemma counts_tallySessions : Counts (tallySessions wire) (parseSessions wire) :=
  (Counts.free (local_expectMagic _)).bind fun _ => (Counts.free local_getU32).bind fun n =>
    (counts_tallySession wire).times n

lemma local_parseSessions : Local (parseSessions wire) :=
  (local_expectMagic _).bind fun _ => local_getU32.bind fun n => (local_decodeSession wire).readN n

/-- Every strict prefix of a snapshot of sessions that the broker can hold is refused. And whatever
the bytes are, `parse` ends, with a result or an error, has read a front part of them, and has
decoded no more entries by then than that has bytes. -/
theorem truncated_snapshot_refused (readBack : Publish → Publish) :
    (∀ sessions : List PersistedSession,
      (∀ ps ∈ sessions, ps.Fits ∧ ps.Readable wire readBack) → sessions.length < 2 ^ 32 →
      ∀ front back, serialize wire sessions = .ok (front ++ back) → back ≠ [] →
        ∃ e, parse wire front = .error e) ∧ ∀ data, ∃ used rest entries,
      (tallySessions wire).run (data, 0) = (parse wire data, rest, entries) ∧
        data = used ++ rest ∧ entries ≤ used.length := by
  refine ⟨fun sessions hok hcount front back hbytes hback => ?_, fun data => ?_⟩
  · obtain ⟨e, herror⟩ := (local_parseSessions wire).exists_error
      (decodes_parseSessions (fun ps hps => (hok ps hps).2) (fun ps hps => (hok ps hps).1) hcount
        hbytes) hback
    exact ⟨e, by rw [parse, herror]; rfl⟩
  · obtain ⟨r, used, rest, entries, hrun, hsplit, hle, hparse⟩ := counts_tallySessions wire data 0
    refine ⟨used, rest, entries, ?_, hsplit, by omega⟩
    rw [hrun, parse, hparse]
    cases r <;> rfl

/-- The snapshot of one session, cut anywhere, is refused. -/
theorem truncated_snapshot_refused_pager : ∃ bytes, serialize mqttWire [pagerSession] = .ok bytes ∧
    ∀ front back, bytes = front ++ back → back ≠ [] → ∃ e, parse mqttWire front = .error e := by
  obtain ⟨bytes, hbytes⟩ := exists_serialize_iff.mpr
    (forall_mem_singleton.mpr pagerSession_writable)
  refine ⟨bytes, hbytes, fun front back hsplit => ?_⟩
  exact (truncated_snapshot_refused mqttWire id).1 [pagerSession]
    (forall_mem_singleton.mpr ⟨pagerSession_fits, pagerSession_readable⟩) (by decide) front back
    (hsplit ▸ hbytes)

end Rusquitto
