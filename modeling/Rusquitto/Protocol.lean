import Rusquitto.Lib.Split

/-!
# MQTT helpers without broker state

The value types of a PUBLISH and the side-effect-free functions of `protocol.rs`: QoS arithmetic,
topic and filter validation, and shared-subscription parsing.

A Rust `str` is a Lean `String`: both are valid UTF-8 byte sequences. `str::len` counts bytes
(`String.utf8ByteSize`) and `str::split('/')` is `levels`.
-/

namespace Rusquitto

/-- MQTT quality of service. -/
inductive QoS where
  | atMostOnce
  | atLeastOnce
  | exactlyOnce
  deriving DecidableEq, Repr, Inhabited

/-- `qos as u8`. -/
def QoS.toNat : QoS → ℕ
  | .atMostOnce => 0
  | .atLeastOnce => 1
  | .exactlyOnce => 2

/-- The lower of two QoS levels. -/
def minQos (a b : QoS) : QoS :=
  if a.toNat ≤ b.toNat then a else b

/-- The MQTT 5 properties of a PUBLISH. -/
structure PublishProperties where
  payloadFormatIndicator : Option UInt8 := none
  messageExpiryInterval : Option UInt32 := none
  topicAlias : Option UInt16 := none
  responseTopic : Option String := none
  correlationData : Option (List UInt8) := none
  userProperties : List (String × String) := []
  subscriptionIdentifiers : List ℕ := []
  contentType : Option String := none
  deriving DecidableEq, Repr, Inhabited

/-- An MQTT 5 PUBLISH packet. -/
structure Publish where
  dup : Bool := false
  qos : QoS
  retain : Bool := false
  topic : String
  pkid : UInt16 := 0
  payload : List UInt8
  properties : Option PublishProperties := none
  deriving DecidableEq, Repr, Inhabited

/-- Maximum number of levels (`/`-separated segments) allowed in a topic or filter. -/
def maxTopicLevels : ℕ := 128

/-- `u16::MAX as usize`, the longest MQTT string in bytes. -/
def maxStringLen : ℕ := 65535

/-- `s.split('/')`. -/
def levels (s : String) : List String := Lib.splitOnChar '/' s

/-- `segments.join("/")`. -/
def joinLevels (segments : List String) : String := Lib.joinWith '/' segments

/-- `s.as_bytes()`. -/
def asBytes (s : String) : List UInt8 := s.toByteArray.data.toList

/-- `s.starts_with(c)` for a character `c`. -/
def startsWith (s : String) (c : Char) : Bool := s.toList.head? == some c

/-- `s.contains(c)` for a character `c`. -/
def contains (s : String) (c : Char) : Bool := s.toList.elem c

lemma levels_ne_nil (s : String) : levels s ≠ [] := Lib.splitOnChar_ne_nil '/' s

@[simp]
lemma joinLevels_levels (s : String) : joinLevels (levels s) = s :=
  Lib.joinWith_splitOnChar '/' s

/-- A shared subscription is `$share/{ShareName}/{topic-filter}`: the effective filter is
`{topic-filter}` and the group is `ShareName`. An ordinary filter returns itself with `none`.
A malformed `$share/…` (missing or empty ShareName or topic, or a wildcard in the ShareName) is
`none`, the source's `Err(())`. -/
def parseSharedFilter (filter : String) : Option (String × Option String) :=
  match levels filter with
  -- `strip_prefix("$share/")` succeeds exactly when `$share` is a level with one after it, and
  -- `split_once('/')` on the rest cuts off one more level.
  | "$share" :: group :: topic :: rest =>
    let topic := joinLevels (topic :: rest)
    if group ≠ "" ∧ topic ≠ "" ∧ contains group '+' = false ∧ contains group '#' = false then
      some (topic, some group)
    else none
  | ["$share", _] => none
  | _ => some (filter, none)

/-- Whether a concrete publish `topic` is well-formed: non-empty, within the length and depth
limits, not `$`-prefixed, without wildcards and without NUL. -/
def validPublishTopic (topic : String) : Bool :=
  topic ≠ "" && decide (topic.utf8ByteSize ≤ maxStringLen) &&
    decide ((levels topic).length ≤ maxTopicLevels) && !startsWith topic '$' &&
    !(contains topic '+' || contains topic '#' || contains topic '\x00')

/-- The per-level loop of `valid_subscribe_filter`: `#` only as the final level, and `+` or `#`
only as a whole level. -/
def validLevels : List String → Bool
  | [] => true
  | level :: rest =>
    if level = "#" ∧ rest ≠ [] then false
    else if level.utf8ByteSize > 1 ∧ (contains level '+' ∨ contains level '#') then false
    else validLevels rest

/-- Whether a subscription `filter` is syntactically valid: non-empty, within the length and
depth limits, no NUL, each `+` a whole level, and `#` the final level only. -/
def validSubscribeFilter (filter : String) : Bool :=
  if filter = "" ∨ filter.utf8ByteSize > maxStringLen ∨ contains filter '\x00' ∨
      (levels filter).length > maxTopicLevels then false
  else validLevels (levels filter)

example : parseSharedFilter "$share/g/a/b" = some ("a/b", some "g") := by decide

example : validSubscribeFilter "a/+/#" = true ∧ validSubscribeFilter "a/#/c" = false := by decide

end Rusquitto
