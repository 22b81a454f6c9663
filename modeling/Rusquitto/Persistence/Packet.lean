import Rusquitto.Persistence.Codec

/-!
# The bytes of a PUBLISH

What `mqttbytes` writes for a PUBLISH, for the examples of this development; its results hold for
any `Wire`. Reading is defined for packets without properties.
-/

namespace Rusquitto

open List Lib

/-- Seven bits a byte, lowest first, with a mark on every byte but the last. -/
def sevenBits : ℕ → ℕ → List UInt8
  | 0, n => [.ofNat n]
  | k + 1, n =>
    if n < 128 then [.ofNat n] else .ofNat (n % 128 + 128) :: sevenBits k (n / 128)

/-- A variable byte integer: four bytes at most. -/
def varInt (n : ℕ) : List UInt8 := sevenBits 3 n

/-- The `n` low bytes of `v`, highest first. -/
def beBytes (n v : ℕ) : List UInt8 := (leBytes n v).reverse

/-- Bytes with their length before them, as MQTT has strings. -/
def mqttBytes (bytes : List UInt8) : List UInt8 := beBytes 2 bytes.length ++ bytes

def mqttStr (s : String) : List UInt8 := mqttBytes (asBytes s)

def PublishProperties.bytes (q : PublishProperties) : List UInt8 :=
  q.payloadFormatIndicator.toList.flatMap ([1, ·]) ++
    q.messageExpiryInterval.toList.flatMap (fun v => 2 :: beBytes 4 v.toNat) ++
    q.topicAlias.toList.flatMap (fun v => 35 :: beBytes 2 v.toNat) ++
    q.responseTopic.toList.flatMap (8 :: mqttStr ·) ++
    q.correlationData.toList.flatMap (9 :: mqttBytes ·) ++
    q.userProperties.flatMap (fun pair => 38 :: mqttStr pair.1 ++ mqttStr pair.2) ++
    q.subscriptionIdentifiers.flatMap (11 :: varInt ·) ++
    q.contentType.toList.flatMap (3 :: mqttStr ·)

/-- The packet after its remaining length. -/
def Publish.body (p : Publish) : List UInt8 :=
  let properties := (p.properties.map PublishProperties.bytes).getD []
  mqttStr p.topic ++ (if p.qos = .atMostOnce then [] else beBytes 2 p.pkid.toNat) ++
    (varInt properties.length ++ properties) ++ p.payload

/-- The first byte. -/
def Publish.header (p : Publish) : UInt8 :=
  (0x30 : UInt8) ||| p.dup.toUInt8 <<< 3 ||| qosToU8 p.qos <<< 1 ||| p.retain.toUInt8

/-- `Publish::write`. -/
def writePublish (p : Publish) : Except String (List UInt8) :=
  if 268435455 < p.body.length then .error "payload too long"
  else if p.qos ≠ .atMostOnce ∧ p.pkid = 0 then .error "packet id zero"
  else .ok (p.header :: varInt p.body.length ++ p.body)

/-- Reads a PUBLISH after its remaining length. -/
def readBody (first : UInt8) (body : List UInt8) : Except String Publish := do
  let topicLen := leValue (body.take 2).reverse
  let some topic := String.fromUTF8? ⟨((body.drop 2).take topicLen).toArray⟩
    | throw "topic is not UTF-8"
  let qos ← (qosFromU8 (first >>> 1 &&& 3)).mapError fun _ => "invalid QoS"
  let idLen := if qos = .atMostOnce then 0 else 2
  let pkid := leValue ((body.drop (2 + topicLen)).take idLen).reverse
  let 0 :: payload := body.drop (2 + topicLen + idLen) | throw "properties are not read"
  return { dup := first &&& 8 != 0, qos, retain := first &&& 1 != 0, topic, pkid := .ofNat pkid, payload }

/-- `mqtt_v5::read` of a complete packet. -/
def readPublish : List UInt8 → Except String (Option Publish)
  | [] => .error "insufficient bytes"
  | first :: rest =>
    if first >>> 4 ≠ 3 then .ok none
    else (readBody first (rest.drop (rest.findIdx (· < 128) + 1))).map some

def mqttWire : Wire := ⟨writePublish, readPublish⟩

lemma length_varInt_le (n : ℕ) : (varInt n).length ≤ 4 := by
  have hle (k : ℕ) : ∀ n, (sevenBits k n).length ≤ k + 1 := by
    induction k with
    | zero => exact fun _ => le_rfl
    | succ k ih =>
      intro n
      rw [sevenBits]
      split
      · exact Nat.succ_le_succ (Nat.zero_le _)
      · exact Nat.succ_le_succ (ih _)
  exact hle 3 n

/-- The mark shows where a variable byte integer ends. -/
lemma drop_varInt {n : ℕ} (h : n < 2 ^ 28) (rest : List UInt8) :
    (varInt n ++ rest).drop ((varInt n ++ rest).findIdx (· < 128) + 1) = rest := by
  have hdrop (k : ℕ) : ∀ n < 128 ^ (k + 1),
      (sevenBits k n ++ rest).drop ((sevenBits k n ++ rest).findIdx (· < 128) + 1) = rest := by
    have hlast {m : ℕ} (hm : m < 128) : UInt8.ofNat m < 128 := by
      simp [UInt8.lt_iff_toNat_lt]
      omega
    induction k with
    | zero =>
      intro n hn
      simp [sevenBits, findIdx_cons, hlast hn]
    | succ k ih =>
      intro n hn
      rw [sevenBits]
      split
      · next hsmall => simp [findIdx_cons, hlast hsmall]
      · have hmore : ¬ UInt8.ofNat (n % 128 + 128) < 128 := by
          rw [UInt8.lt_iff_toNat_lt, UInt8.toNat_ofNat']
          simp only [UInt8.reduceToNat]
          omega
        rw [cons_append, findIdx_cons, decide_eq_false hmore, cond_false, drop_succ_cons]
        exact ih _ (by omega)
  exact hdrop 3 n h

/-- A QoS 0 message on a fixed topic. -/
def plainPublish (payload : List UInt8) : Publish :=
  { topic := "t", qos := .atMostOnce, payload }

lemma body_plainPublish (payload : List UInt8) :
    (plainPublish payload).body = [0, 1, 0x74, 0] ++ payload := by
  have hfront : mqttStr "t" ++ [] ++ (varInt 0 ++ []) = [0, 1, 0x74, 0] := by decide
  rw [← hfront]
  rfl

/-- It is written in full and read back as it was. -/
lemma reads_plainPublish (payload : List UInt8) : mqttWire.Reads id (plainPublish payload) := by
  intro bytes hbytes
  simp only [mqttWire, writePublish] at hbytes
  split_ifs at hbytes with hlong
  obtain rfl := Except.ok.inj hbytes
  refine ⟨?_, ?_⟩
  · have hrest := drop_varInt (n := (plainPublish payload).body.length) (by omega)
      (plainPublish payload).body
    have hheader : (plainPublish payload).header = 0x30 := by
      simp only [Publish.header, plainPublish, qosToU8]
      decide
    rw [hheader, cons_append, mqttWire]
    simp only [readPublish]
    rw [if_neg (by decide), hrest, body_plainPublish]
    have htopic : String.fromUTF8? ⟨((([0, 1, 0x74, 0] ++ payload).drop 2).take
        (leValue (([0, 1, 0x74, 0] ++ payload).take 2).reverse)).toArray⟩ = some "t" :=
      fromUTF8?_asBytes "t"
    simp only [readBody, htopic]
    rfl
  · have hle := length_varInt_le (plainPublish payload).body.length
    simp only [length_append, length_cons]
    omega

example : mqttWire.write (plainPublish [1, 2]) = .ok [0x30, 6, 0, 1, 0x74, 0, 1, 2] := by
  decide

end Rusquitto
