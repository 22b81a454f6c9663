import Rusquitto.Broker.Types
import Rusquitto.Lib.Reader

/-!
# The on-disk codec

The value writers and the bounds-checked reader of `codec.rs`. A PUBLISH is stored as its MQTT
wire bytes; that encoding belongs to the `mqttbytes` crate and is the parameter `Wire`.
-/

namespace Rusquitto

open Lib

/-- What can go wrong when a snapshot or log is written or read. -/
inductive CodecError where
  /-- "snapshot truncated" -/
  | truncated
  /-- "bad snapshot magic" -/
  | badMagic
  /-- "non-UTF-8 string" -/
  | nonUtf8
  /-- "invalid QoS byte" -/
  | invalidQos
  /-- "invalid in-flight state byte" -/
  | invalidInflightState
  /-- "expected PUBLISH in snapshot" -/
  | expectedPublish
  /-- "corrupt publish in snapshot: …" -/
  | corruptPublish (cause : String)
  /-- "unknown WAL record kind …" -/
  | unknownKind (kind : UInt8)
  /-- The error text of the wire encoder. -/
  | encode (cause : String)
  deriving DecidableEq, Repr

/-- The MQTT 5 wire encoding of `mqttbytes`. -/
structure Wire where
  /-- `Publish::write`. -/
  write : Publish → Except String (List UInt8)
  /-- `mqtt_v5::read` with the snapshot's packet ceiling: a PUBLISH, or another packet. -/
  read : List UInt8 → Except String (Option Publish)

/-- What the codec relies on for a PUBLISH: if it is written, it is below the packet ceiling and
reads back, as `readBack` of the one written. -/
def Wire.Reads (wire : Wire) (readBack : Publish → Publish) (p : Publish) : Prop :=
  ∀ bytes, wire.write p = .ok bytes →
    wire.read bytes = .ok (some (readBack p)) ∧ bytes.length < 2 ^ 32

/-- It can rely on that for every PUBLISH. -/
structure Wire.Lawful (wire : Wire) (readBack : Publish → Publish) : Prop where
  read_write : ∀ p bytes, wire.write p = .ok bytes → wire.read bytes = .ok (some (readBack p))
  length_lt : ∀ p bytes, wire.write p = .ok bytes → bytes.length < 2 ^ 32

lemma Wire.Lawful.reads {wire : Wire} {readBack : Publish → Publish} (h : wire.Lawful readBack)
    (p : Publish) : wire.Reads readBack p :=
  fun bytes hbytes => ⟨h.read_write p bytes hbytes, h.length_lt p bytes hbytes⟩

/-! ## Value writers -/

def putU8 (v : UInt8) : List UInt8 := [v]

/-- `v as u16` in little-endian order. -/
def putU16 (v : ℕ) : List UInt8 := leBytes 2 v

/-- `v as u32` in little-endian order. -/
def putU32 (v : ℕ) : List UInt8 := leBytes 4 v

/-- A UTF-8 string, `u16` length-prefixed. -/
def putStr (s : String) : List UInt8 := putU16 s.utf8ByteSize ++ asBytes s

/-- A tag byte, 1 if a string follows. -/
def putOptStr : Option String → List UInt8
  | some x => putU8 1 ++ putStr x
  | none => putU8 0

/-- A tag byte, 1 if a `u32` follows. -/
def putOptU32 : Option ℕ → List UInt8
  | some x => putU8 1 ++ putU32 x
  | none => putU8 0

/-- A QoS > 0 publish without a packet id is given a placeholder. -/
def withPlaceholder (p : Publish) : Publish :=
  if p.qos ≠ .atMostOnce ∧ p.pkid = 0 then { p with pkid := 1 } else p

/-- A PUBLISH as its MQTT wire bytes, `u32` length-prefixed. -/
def putPublish (wire : Wire) (p : Publish) : Except CodecError (List UInt8) :=
  match wire.write (withPlaceholder p) with
  | .ok bytes => .ok (putU32 bytes.length ++ bytes)
  | .error e => .error (.encode e)

/-- The byte of a QoS. -/
def qosToU8 : QoS → UInt8
  | .atMostOnce => 0
  | .atLeastOnce => 1
  | .exactlyOnce => 2

/-- Any other byte is refused. -/
def qosFromU8 (v : UInt8) : Except CodecError QoS :=
  if v = 0 then .ok .atMostOnce
  else if v = 1 then .ok .atLeastOnce
  else if v = 2 then .ok .exactlyOnce
  else .error .invalidQos

/-! ## Reader -/

/-- A cursor over a snapshot's bytes: the bytes not yet consumed. -/
abbrev SnapshotReader := Reader CodecError

/-- The result of a pure decoding step. -/
def liftExcept {α : Type} : Except CodecError α → SnapshotReader α
  | .ok a => pure a
  | .error e => Reader.fail e

/-- `Reader::take`. -/
def takeBytes (n : ℕ) : SnapshotReader (List UInt8) := Reader.take .truncated n

/-- The file has to start with `magic`. -/
def expectMagic (magic : List UInt8) : SnapshotReader Unit := do
  let b ← takeBytes magic.length
  if b = magic then pure () else Reader.fail .badMagic

def getU8 : SnapshotReader UInt8 := do
  let b ← takeBytes 1
  pure (UInt8.ofNat (leValue b))

/-- `get_u16`, widened. -/
def getU16 : SnapshotReader ℕ := do
  let b ← takeBytes 2
  pure (leValue b)

/-- `get_u32`, widened. -/
def getU32 : SnapshotReader ℕ := do
  let b ← takeBytes 4
  pure (leValue b)

/-- `get_str`: the bytes have to be UTF-8. -/
def getStr : SnapshotReader String := do
  let n ← getU16
  let b ← takeBytes n
  match String.fromUTF8? ⟨b.toArray⟩ with
  | some s => pure s
  | none => Reader.fail .nonUtf8

/-- Any tag but 1 means that nothing follows. -/
def getOptStr : SnapshotReader (Option String) := do
  let tag ← getU8
  if tag = 1 then do
    let s ← getStr
    pure (some s)
  else pure none

/-- Likewise for a `u32`. -/
def getOptU32 : SnapshotReader (Option ℕ) := do
  let tag ← getU8
  if tag = 1 then do
    let v ← getU32
    pure (some v)
  else pure none

/-- Wire bytes that are another packet are refused like those that do not parse. -/
def getPublish (wire : Wire) : SnapshotReader Publish := do
  let n ← getU32
  let bytes ← takeBytes n
  match wire.read bytes with
  | .ok (some p) => pure p
  | .ok none => Reader.fail .expectedPublish
  | .error e => Reader.fail (.corruptPublish e)

/-! ## What is written reads back -/

section Decodes

open Reader (Decodes)

lemma decodes_takeBytes {n : ℕ} {bytes : List UInt8} (h : bytes.length = n) :
    Decodes (takeBytes n) bytes bytes := by
  subst h
  exact Decodes.take _ bytes

lemma decodes_getU8 (v : UInt8) : Decodes getU8 (putU8 v) v := by
  have htake : Decodes (takeBytes 1) (putU8 v) (putU8 v) := decodes_takeBytes rfl
  refine htake.bind_pure (Decodes.pure_of_eq ?_)
  simp [putU8, leValue]

lemma decodes_getU16 {v : ℕ} (h : v < 2 ^ 16) : Decodes getU16 (putU16 v) v := by
  refine (decodes_takeBytes (length_leBytes 2 v)).bind_pure (Decodes.pure_of_eq ?_)
  rw [leValue_leBytes]
  exact Nat.mod_eq_of_lt h

/-- A larger number is cut down to its field. -/
lemma decodes_getU32_mod (v : ℕ) : Decodes getU32 (putU32 v) (v % 2 ^ 32) :=
  (decodes_takeBytes (length_leBytes 4 v)).bind_pure (Decodes.pure_of_eq (leValue_leBytes 4 v))

lemma decodes_getU32 {v : ℕ} (h : v < 2 ^ 32) : Decodes getU32 (putU32 v) v := by
  have hread := decodes_getU32_mod v
  rwa [Nat.mod_eq_of_lt h] at hread

lemma fromUTF8?_asBytes (s : String) : String.fromUTF8? ⟨(asBytes s).toArray⟩ = some s := by
  have hbytes : (⟨(asBytes s).toArray⟩ : ByteArray) = s.toByteArray := rfl
  rw [hbytes, String.fromUTF8?, dif_pos s.isValidUTF8]
  rfl

lemma length_asBytes (s : String) : (asBytes s).length = s.utf8ByteSize := rfl

lemma decodes_getStr {s : String} (h : s.utf8ByteSize < 2 ^ 16) :
    Decodes getStr (putStr s) s := by
  refine (decodes_getU16 h).bind ((decodes_takeBytes (length_asBytes s)).bind_pure ?_)
  rw [fromUTF8?_asBytes]
  exact Decodes.pure s

lemma decodes_getOptStr {s : Option String} (h : ∀ x ∈ s, x.utf8ByteSize < 2 ^ 16) :
    Decodes getOptStr (putOptStr s) s := by
  cases s with
  | none => exact (decodes_getU8 0).bind_pure (Decodes.pure none)
  | some x => exact (decodes_getU8 1).bind ((decodes_getStr (h x rfl)).bind_pure (Decodes.pure _))

lemma decodes_getOptU32 {v : Option ℕ} (h : ∀ x ∈ v, x < 2 ^ 32) :
    Decodes getOptU32 (putOptU32 v) v := by
  cases v with
  | none => exact (decodes_getU8 0).bind_pure (Decodes.pure none)
  | some x => exact (decodes_getU8 1).bind ((decodes_getU32 (h x rfl)).bind_pure (Decodes.pure _))

lemma qosFromU8_qosToU8 (qos : QoS) : qosFromU8 (qosToU8 qos) = .ok qos := by
  cases qos <;> rfl

lemma decodes_getPublish {wire : Wire} {readBack : Publish → Publish} {p : Publish}
    (hread : wire.Reads readBack (withPlaceholder p)) {bytes : List UInt8}
    (h : putPublish wire p = .ok bytes) :
    Decodes (getPublish wire) bytes (readBack (withPlaceholder p)) := by
  rw [putPublish] at h
  cases hwrite : wire.write (withPlaceholder p) with
  | error e => rw [hwrite] at h; cases h
  | ok packet =>
    rw [hwrite] at h
    cases h
    obtain ⟨hback, hlength⟩ := hread _ hwrite
    refine (decodes_getU32 hlength).bind ((decodes_takeBytes rfl).bind_pure ?_)
    rw [hback]
    exact Decodes.pure _

end Decodes

/-! ## Reading depends only on what is read -/

section Local

open Reader (Local)

lemma local_takeBytes (n : ℕ) : Local (takeBytes n) := Local.take _ n

lemma local_getU8 : Local getU8 := (local_takeBytes 1).bind fun _ => .pure _

lemma local_getU16 : Local getU16 := (local_takeBytes 2).bind fun _ => .pure _

lemma local_getU32 : Local getU32 := (local_takeBytes 4).bind fun _ => .pure _

lemma local_getStr : Local getStr := by
  refine local_getU16.bind fun n => (local_takeBytes n).bind fun b => ?_
  cases String.fromUTF8? ⟨b.toArray⟩ with
  | none => exact Local.fail _
  | some s => exact Local.pure s

lemma local_getOptStr : Local getOptStr :=
  local_getU8.bind fun _ => Local.ite (local_getStr.bind fun _ => .pure _) (.pure _)

lemma local_getOptU32 : Local getOptU32 :=
  local_getU8.bind fun _ => Local.ite (local_getU32.bind fun _ => .pure _) (.pure _)

lemma local_liftExcept {α : Type} (r : Except CodecError α) : Local (liftExcept r) := by
  cases r with
  | ok a => exact Local.pure a
  | error e => exact Local.fail e

lemma local_getPublish (wire : Wire) : Local (getPublish wire) := by
  refine local_getU32.bind fun n => (local_takeBytes n).bind fun bytes => ?_
  rcases wire.read bytes with e | _ | p
  · exact Local.fail _
  · exact Local.fail _
  · exact Local.pure p

end Local

end Rusquitto
