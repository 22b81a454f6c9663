import Mathlib.Data.List.AList
import Rusquitto.Topics.Filter

/-!
# Authentication and topic authorization

The `Authenticator` of `auth.rs`. SHA-256 and Argon2 come from other crates and are parameters. A
SUBSCRIBE is accepted when a rule of the allow-list subsumes the requested filter;
`authorizeSubscribe_sound_iff` says for which filters and rules this confines what the filter can
match.
-/

namespace Rusquitto

/-- The password-hashing functions of the `sha2` and `argon2` crates. -/
structure PasswordHashing where
  /-- Lowercase-hex SHA-256 of a string. -/
  sha256Hex : String → String
  /-- Whether a password verifies against an Argon2 PHC string. -/
  argon2Verify : String → String → Bool

/-- A configured user's credential. -/
inductive Credential where
  | plain (password : String)
  | sha256 (hash : String)
  | argon2 (phc : String)
  deriving DecidableEq, Repr

/-- Byte-string equality by folding every byte difference. -/
def ctEq (a b : List UInt8) : Bool :=
  if a.length ≠ b.length then false
  else (a.zip b).foldl (fun diff xy => diff ||| (xy.1 ^^^ xy.2)) 0 == 0

/-- Whether the client's password matches this credential. -/
def Credential.verify (hashing : PasswordHashing) : Credential → String → Bool
  | .plain expected, provided => ctEq (asBytes expected) (asBytes provided)
  | .sha256 hash, provided => ctEq (asBytes (hashing.sha256Hex provided)) (asBytes hash)
  | .argon2 phc, provided => hashing.argon2Verify phc provided

/-- Result of an authentication check. -/
inductive AuthResult where
  | granted
  | badUserNamePassword
  | notAuthorized
  deriving DecidableEq, Repr

/-- A configured user's credentials and per-operation topic authorization. An absent allow-list
means unrestricted. -/
structure UserEntry where
  credential : Credential
  publishAcl : Option (List String)
  subscribeAcl : Option (List String)
  deriving DecidableEq, Repr

/-- Whether a concrete publish topic is permitted by an optional allow-list. -/
def aclAllowsPublish (acl : Option (List String)) (topic : String) : Bool :=
  match acl with
  | none => true
  | some rules => rules.any fun rule => filterMatches rule topic

/-- Whether a requested subscription filter is permitted by an optional allow-list: it must be
subsumed by a rule, not merely matched. -/
def aclAllowsSubscribe (acl : Option (List String)) (filter : String) : Bool :=
  match acl with
  | none => true
  | some rules => rules.any fun rule => filterSubsumes rule filter

/-- Per-shard credential store, built from the broker configuration. The dummy hash that only
evens out response times is left out. -/
structure Authenticator where
  allowAnonymous : Bool
  users : AList fun _ : String => UserEntry
  anonymousPublishAcl : Option (List String) := none
  anonymousSubscribeAcl : Option (List String) := none

namespace Authenticator

variable (auth : Authenticator)

/-- Checks a client's credentials: a supplied username must match a configured user with the same
password; without a username, access depends on `allowAnonymous`. -/
def check (hashing : PasswordHashing) (username password : Option String) : AuthResult :=
  match username with
  | some name =>
    match auth.users.lookup name with
    | some entry =>
      if entry.credential.verify hashing (password.getD "") then .granted
      else .badUserNamePassword
    | none => .badUserNamePassword
  | none => if auth.allowAnonymous then .granted else .notAuthorized

/-- The publish allow-list that applies to `username`. -/
def publishAcl (username : Option String) : Option (List String) :=
  match username.bind auth.users.lookup with
  | some entry => entry.publishAcl
  | none => auth.anonymousPublishAcl

/-- The subscribe allow-list that applies to `username`. -/
def subscribeAcl (username : Option String) : Option (List String) :=
  match username.bind auth.users.lookup with
  | some entry => entry.subscribeAcl
  | none => auth.anonymousSubscribeAcl

/-- Whether `username` may publish to `topic`. -/
def authorizePublish (username : Option String) (topic : String) : Bool :=
  aclAllowsPublish (auth.publishAcl username) topic

/-- Whether `username` may subscribe to `filter`. -/
def authorizeSubscribe (username : Option String) (filter : String) : Bool :=
  aclAllowsSubscribe (auth.subscribeAcl username) filter

end Authenticator

/-! ## What an accepted SUBSCRIBE can match -/

/-- A rule that subsumes a filter matches all the filter's topics exactly when it is not a
wildcard rule over a `$` filter. -/
private lemma subsumed_confined_iff {rule req : String}
    (hreq : validSubscribeFilter req = true) (hsub : filterSubsumes rule req = true) :
    (∀ topic, ConcreteTopic topic → filterMatches req topic = true →
        filterMatches rule topic = true) ↔
      ¬(startsWithWildcard rule = true ∧ startsWith req '$' = true) := by
  constructor
  · rintro hall ⟨hwild, hdollar⟩
    have hreqTopic := filterMatches_sampleTopic hreq (expandLevels_ne_nil_of_dollar hdollar 0)
      (z := "x") (by decide) (by decide)
    have hruleTopic := hall _ (concreteTopic_sampleTopic hreq (by decide) 0) hreqTopic
    rw [startsWithWildcard_of_dollar hreq hdollar hreqTopic hruleTopic] at hwild
    exact Bool.false_ne_true hwild
  · intro hslip topic _ htopic
    exact filterMatches_of_filterSubsumes hreq hsub hslip htopic

/-- A list of rules, one of which subsumes the filter, matches all the filter's topics exactly
when the filter does not start with `$`, or the rules that do not start with a wildcard subsume
the filter's expansions. -/
private lemma accepted_confined_iff {rules : List String} {filter : String}
    (hfilter : validSubscribeFilter filter = true)
    (haccept : ∃ rule ∈ rules, filterSubsumes rule filter = true) :
    (∀ topic, ConcreteTopic topic → filterMatches filter topic = true →
        ∃ rule ∈ rules, filterMatches rule topic = true) ↔
      (startsWith filter '$' = true → ∀ k, ∃ rule ∈ rules, startsWithWildcard rule = false ∧
        filterSubsumes rule (expandMulti k filter) = true) := by
  constructor
  · intro hall hdollar k
    obtain ⟨z, hslash, hconcrete, hzd, hfresh⟩ := exists_fresh_level rules
    have hne := expandLevels_ne_nil_of_dollar hdollar k
    have hself := filterMatches_sampleTopic hfilter hne hslash hzd
    obtain ⟨rule, hrule, hmatch⟩ := hall _ (concreteTopic_sampleTopic hfilter hconcrete k) hself
    exact ⟨rule, hrule, startsWithWildcard_of_dollar hfilter hdollar hself hmatch,
      (filterSubsumes_expandMulti hne).mpr
        (subsumes_of_filterMatches_sampleTopic hne hslash (hfresh rule hrule) hmatch)⟩
  · intro hcond topic _ htopic
    by_cases hdollar : startsWith filter '$' = true
    · obtain ⟨k, hk⟩ := exists_filterSubsumes_expandMulti hdollar htopic
      obtain ⟨rule, hrule, hwild, hsub⟩ := hcond hdollar k
      exact ⟨rule, hrule, hk rule hwild hsub⟩
    · obtain ⟨rule, hrule, hsub⟩ := haccept
      exact ⟨rule, hrule, filterMatches_of_filterSubsumes hfilter hsub (by simp [hdollar]) htopic⟩

/-- When subscribe authorization is sound. An accepted filter can only match topics of the user's
rules exactly when it does not start with `$` or the rules without a leading wildcard cover it: for
every `k`, one of them subsumes the filter with its `#` read as `k` levels. -/
theorem authorizeSubscribe_sound_iff (auth : Authenticator) :
    (∀ rule req : String, validSubscribeFilter rule = true → validSubscribeFilter req = true →
      filterSubsumes rule req = true →
      ((∀ topic, ConcreteTopic topic → filterMatches req topic = true →
          filterMatches rule topic = true) ↔
        ¬(startsWithWildcard rule = true ∧ startsWith req '$' = true))) ∧
    (∀ (username : Option String) (rules : List String) (filter : String),
      auth.subscribeAcl username = some rules →
      (∀ rule ∈ rules, validSubscribeFilter rule = true) → validSubscribeFilter filter = true →
      auth.authorizeSubscribe username filter = true →
      ((∀ topic, ConcreteTopic topic → filterMatches filter topic = true →
          ∃ rule ∈ rules, filterMatches rule topic = true) ↔
        (startsWith filter '$' = true → ∀ k, ∃ rule ∈ rules, startsWithWildcard rule = false ∧
          filterSubsumes rule (expandMulti k filter) = true))) := by
  constructor
  · intro rule req _ hreq hsub
    exact subsumed_confined_iff hreq hsub
  · intro username rules filter hacl _ hfilter hauth
    refine accepted_confined_iff hfilter ?_
    simpa [Authenticator.authorizeSubscribe, aclAllowsSubscribe, hacl] using hauth

/-- A broker whose only user may subscribe below every first level and below `$SYS/info`. -/
def monitorAuth : Authenticator where
  allowAnonymous := false
  users := AList.insert "monitor"
    { credential := .plain "pw", publishAcl := none, subscribeAcl := some ["#", "$SYS/info/#"] } ∅

/-- Both parts apply: the rule `a/+` covers the request `a/b`, and the user's rules cover the
accepted filter `$SYS/info/+`. -/
theorem authorizeSubscribe_sound_monitor :
    (∀ topic, ConcreteTopic topic → filterMatches "a/b" topic = true →
        filterMatches "a/+" topic = true) ∧
    (∀ topic, ConcreteTopic topic → filterMatches "$SYS/info/+" topic = true →
        ∃ rule ∈ ["#", "$SYS/info/#"], filterMatches rule topic = true) :=
  ⟨((authorizeSubscribe_sound_iff monitorAuth).1 "a/+" "a/b" (by decide) (by decide)
      (by decide)).mpr (by decide),
    ((authorizeSubscribe_sound_iff monitorAuth).2 (some "monitor") ["#", "$SYS/info/#"]
      "$SYS/info/+" rfl (by decide) (by decide) (by decide)).mpr
        fun _ k => ⟨"$SYS/info/#", by decide, by decide, by
          change filterSubsumes "$SYS/info/#" "$SYS/info/+" = true
          decide⟩⟩

/-- The rule `#` subsumes `$SYS/#` and does not match `$SYS/uptime`. -/
theorem filterSubsumes_hash_not_sound :
    ¬∀ rule req topic : String, validSubscribeFilter rule = true →
      validSubscribeFilter req = true → filterSubsumes rule req = true → ConcreteTopic topic →
      filterMatches req topic = true → filterMatches rule topic = true := by
  intro h
  have hmatch := h "#" "$SYS/#" "$SYS/uptime" (by decide) (by decide) (by decide) (by decide)
    (by decide)
  revert hmatch
  decide

end Rusquitto
