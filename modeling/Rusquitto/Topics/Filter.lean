import Mathlib.Algebra.Order.BigOperators.Group.List
import Mathlib.Algebra.Order.Group.Nat
import Rusquitto.Lib.Glob
import Rusquitto.Protocol

/-!
# Topic filters: matching and subsumption

The two level-by-level loops of `trie.rs`. `filterMatches` tests a filter against a concrete
topic, `filterSubsumes` tests a requested filter against an allow-list rule. Both are instances of
the general patterns of `Lib.Glob` through `token`, except for the rule that wildcards never match
a `$` topic at the first level, which only `filterMatches` implements.
-/

namespace Rusquitto

open List
open Lib (Glob)

variable {s z topic filter l level : String} {c : Char} {k : ℕ} {ls : List String}

/-- The loop of `filter_subsumes` over the levels of the rule and of the request. -/
def subsumesLevels : List String → List String → Bool
  -- A `#` in the rule covers this level and everything below it.
  | "#" :: _, _ => true
  -- A `#` in the request spans many levels, so it is broader than `+`.
  | "+" :: _, "#" :: _ => false
  | "+" :: r, _ :: q => subsumesLevels r q
  | "+" :: _, [] => false
  | rs :: r, qs :: q => if rs = qs then subsumesLevels r q else false
  | [], [] => true
  | [], _ :: _ => false
  | _ :: _, [] => false

/-- Whether the requested filter `req` is subsumed by the allow-list `rule`. -/
def filterSubsumes (rule req : String) : Bool :=
  subsumesLevels (levels rule) (levels req)

/-- The loop of `filter_matches` over the levels of the filter and of the topic. -/
def matchesLevels : List String → List String → Bool
  | "#" :: _, _ => true
  | "+" :: f, _ :: t => matchesLevels f t
  | fs :: f, ts :: t => if fs = ts then matchesLevels f t else false
  | [], [] => true
  | _, _ => false

@[simp]
lemma matchesLevels_hash (f t : List String) : matchesLevels ("#" :: f) t = true := by
  rw [matchesLevels]

@[simp]
lemma matchesLevels_plus (f : List String) (l : String) (t : List String) :
    matchesLevels ("+" :: f) (l :: t) = matchesLevels f t := by
  rw [matchesLevels]

lemma matchesLevels_cons_nil (h : l ≠ "#") (f : List String) :
    matchesLevels (l :: f) [] = false := by
  by_cases hplus : l = "+" <;> simp [matchesLevels, h, hplus]

lemma matchesLevels_cons_cons (hhash : l ≠ "#") (hplus : l ≠ "+") (f : List String) (m : String)
    (t : List String) :
    matchesLevels (l :: f) (m :: t) = if l = m then matchesLevels f t else false := by
  rw [matchesLevels]
  · exact hhash
  · exact hplus

/-- `s.starts_with('+') || s.starts_with('#')`. -/
def startsWithWildcard (s : String) : Bool :=
  startsWith s '+' || startsWith s '#'

/-- Whether a subscription `filter` matches a concrete `topic`. Wildcards never match a
`$`-prefixed topic at the first level. -/
def filterMatches (filter topic : String) : Bool :=
  if startsWith topic '$' && startsWithWildcard filter then false
  else matchesLevels (levels filter) (levels topic)

/-- A topic without wildcard characters. -/
def ConcreteTopic (topic : String) : Prop :=
  contains topic '+' = false ∧ contains topic '#' = false

instance (topic : String) : Decidable (ConcreteTopic topic) :=
  inferInstanceAs (Decidable (_ ∧ _))

/-! ## Reading levels as pattern tokens -/

/-- The pattern token of one filter level. -/
def token (level : String) : Glob String :=
  if level = "#" then .rest else if level = "+" then .one else .lit level

@[simp]
lemma token_hash : token "#" = .rest := rfl

@[simp]
lemma token_plus : token "+" = .one := rfl

lemma token_eq_lit (hhash : level ≠ "#") (hplus : level ≠ "+") : token level = .lit level := by
  simp [token, hhash, hplus]

lemma token_eq_lit_iff {a : String} :
    token level = .lit a ↔ level = a ∧ level ≠ "#" ∧ level ≠ "+" := by
  unfold token
  split_ifs with hhash hplus <;> simp_all

/-- `filter_matches` without its `$` rule is acceptance by the filter's pattern. -/
lemma matchesLevels_iff_accepts (f t : List String) :
    matchesLevels f t = true ↔ Glob.Accepts (f.map token) t := by
  fun_induction matchesLevels f t with
  | case1 => simp [Glob.Accepts]
  | case2 f ts t ih => simpa [Glob.Accepts] using ih
  | case3 f ts t hhash hplus ih =>
    simpa [token_eq_lit hhash hplus, Glob.Accepts] using ih
  | case4 fs f ts t hhash hplus hne =>
    simp [token_eq_lit hhash hplus, Glob.Accepts, hne]
  | case5 => simp [Glob.Accepts]
  | case6 f t hhash hplus hlit hnil =>
    cases f with
    | nil =>
      cases t with
      | nil => exact (hnil rfl rfl).elim
      | cons ts t => simp [Glob.Accepts]
    | cons fs f =>
      cases t with
      | nil =>
        have hfs : fs ≠ "#" := fun h => hhash f (by rw [h])
        by_cases h : fs = "+" <;> simp [h, token, hfs, Glob.Accepts]
      | cons ts t => exact (hlit fs f ts t rfl rfl).elim

/-- `filter_subsumes` is the lockstep test on the patterns of the two filters. -/
lemma subsumesLevels_iff_subsumes (r q : List String) :
    subsumesLevels r q = true ↔ Glob.Subsumes (r.map token) (q.map token) := by
  fun_induction subsumesLevels r q with
  | case1 => simp [Glob.Subsumes]
  | case2 => simp [Glob.Subsumes]
  | case3 r qs q hhash ih =>
    by_cases h : qs = "+"
    · simpa [h, Glob.Subsumes] using ih
    · simpa [token_eq_lit hhash h, Glob.Subsumes] using ih
  | case4 => simp [Glob.Subsumes]
  | case5 r qs q hhash hplus1 hplus2 ih =>
    simpa [token_eq_lit hhash hplus2, Glob.Subsumes] using ih
  | case6 rs r qs q hhash hplus1 hplus2 hne =>
    rw [map_cons, token_eq_lit hhash hplus2]
    by_cases h1 : qs = "#"
    · simp [h1, Glob.Subsumes]
    · by_cases h2 : qs = "+"
      · simp [h2, Glob.Subsumes]
      · simp [token_eq_lit h1 h2, Glob.Subsumes, hne]
  | case7 => simp [Glob.Subsumes]
  | case8 qs q => cases h : token qs <;> simp [Glob.Subsumes, h]
  | case9 rs r hhash hplus => simp [token_eq_lit hhash hplus, Glob.Subsumes]

/-! ## First levels -/

lemma levels_eq_cons (s : String) : ∃ l ls, levels s = l :: ls :=
  exists_cons_of_ne_nil (levels_ne_nil s)

lemma startsWith_eq_of_levels (hc : c ≠ '/') (h : levels s = l :: ls) :
    startsWith s c = startsWith l c := by
  rw [startsWith, startsWith, Bool.eq_iff_iff, beq_iff_eq, beq_iff_eq]
  exact Lib.head?_eq_some_iff_of_splitOnChar hc h

lemma contains_eq_true_iff : contains s c = true ↔ c ∈ s.toList := by
  simp [contains]

lemma contains_eq_false_iff : contains s c = false ↔ c ∉ s.toList := by
  simp [contains]

lemma contains_of_startsWith (h : startsWith s c = true) : contains s c = true := by
  rw [startsWith, beq_iff_eq] at h
  exact contains_eq_true_iff.mpr (mem_of_mem_head? h)

/-- A string of one byte at most that contains the character `c` is `c` alone. -/
private lemma eq_singleton_of_contains (hlen : s.utf8ByteSize ≤ 1) (hc : contains s c = true) :
    s = String.ofList [c] := by
  have hle := Lib.length_toList_le_utf8ByteSize s
  have hmem := contains_eq_true_iff.mp hc
  cases hs : s.toList with
  | nil => simp [hs] at hmem
  | cons d ds =>
    have hds : ds = [] := by
      rw [hs, length_cons] at hle
      exact length_eq_zero_iff.mp (by omega)
    rw [← String.ofList_toList (s := s), hs, hds]
    rw [hs, hds, mem_singleton] at hmem
    rw [hmem]

/-- A level of a valid filter is a whole wildcard or has no wildcard character. -/
lemma level_of_validLevels (h : validLevels ls = true) (hl : l ∈ ls) : l = "+" ∨ l = "#" ∨
    (contains l '+' = false ∧ contains l '#' = false) := by
  induction ls with
  | nil => simp at hl
  | cons level rest ih =>
    rw [validLevels] at h
    split_ifs at h with hhash hwild
    rcases mem_cons.mp hl with rfl | hl
    · by_cases hlen : l.utf8ByteSize ≤ 1
      · by_cases hplus : contains l '+' = true
        · exact .inl (eq_singleton_of_contains hlen hplus)
        · by_cases hhash' : contains l '#' = true
          · exact .inr (.inl (eq_singleton_of_contains hlen hhash'))
          · exact .inr (.inr ⟨by simpa using hplus, by simpa using hhash'⟩)
      · simp only [not_and, not_or] at hwild
        have hnone := hwild (by omega)
        exact .inr (.inr ⟨by simpa using hnone.1, by simpa using hnone.2⟩)
    · exact ih h hl

lemma validLevels_of_validSubscribeFilter (h : validSubscribeFilter filter = true) :
    validLevels (levels filter) = true := by
  rw [validSubscribeFilter] at h
  split_ifs at h
  exact h

/-- A valid filter starts with a wildcard character exactly when its first level is a
wildcard. -/
lemma startsWithWildcard_iff (hvalid : validSubscribeFilter filter = true)
    (h : levels filter = l :: ls) : startsWithWildcard filter = true ↔ l = "+" ∨ l = "#" := by
  rw [startsWithWildcard, startsWith_eq_of_levels (by decide) h,
    startsWith_eq_of_levels (by decide) h, Bool.or_eq_true]
  have hlevel := level_of_validLevels (validLevels_of_validSubscribeFilter hvalid)
    (h ▸ mem_cons_self : l ∈ levels filter)
  constructor
  · intro hwild
    rcases hlevel with hl | hl | ⟨hplus, hhash⟩
    · exact .inl hl
    · exact .inr hl
    · rcases hwild with hwild | hwild
      · rw [contains_of_startsWith hwild] at hplus
        cases hplus
      · rw [contains_of_startsWith hwild] at hhash
        cases hhash
  · rintro (rfl | rfl)
    · exact .inl (by decide)
    · exact .inr (by decide)

/-- A filter matches a topic exactly when the filter's pattern accepts the topic's levels, unless
the `$` rule applies. -/
lemma filterMatches_iff (filter topic : String) : filterMatches filter topic = true ↔
      ¬(startsWith topic '$' = true ∧ startsWithWildcard filter = true) ∧
        Glob.Accepts ((levels filter).map token) (levels topic) := by
  rw [filterMatches, ← matchesLevels_iff_accepts, ← Bool.and_eq_true]
  by_cases h : (startsWith topic '$' && startsWithWildcard filter) = true <;> simp [h]

/-- A filter that does not start with a wildcard matches only topics with its own first
character. -/
lemma startsWith_of_filterMatches (hvalid : validSubscribeFilter filter = true)
    (h : filterMatches filter topic = true) : startsWith topic '$' = startsWith filter '$' := by
  obtain ⟨hdollar, hacc⟩ := (filterMatches_iff filter topic).mp h
  obtain ⟨l, ls, hl⟩ := levels_eq_cons filter
  obtain ⟨m, ms, hm⟩ := levels_eq_cons topic
  rw [startsWith_eq_of_levels (by decide) hl]
  by_cases hwild : l = "+" ∨ l = "#"
  · have htopic : startsWith topic '$' = false := by
      simpa [(startsWithWildcard_iff hvalid hl).mpr hwild] using hdollar
    rw [htopic]
    rcases hwild with rfl | rfl <;> decide
  · simp only [not_or] at hwild
    rw [hl, hm, map_cons, token_eq_lit hwild.2 hwild.1] at hacc
    rw [startsWith_eq_of_levels (by decide) hm, hacc.1]

/-! ## Subsumption against matching -/

lemma filterSubsumes_iff (rule req : String) : filterSubsumes rule req = true ↔
      Glob.Subsumes ((levels rule).map token) ((levels req).map token) :=
  subsumesLevels_iff_subsumes _ _

/-- A subsuming rule matches every topic of the request, as long as the `$` rule does not keep
the rule's wildcard away from the request's `$` topics. -/
lemma filterMatches_of_filterSubsumes {rule req : String} (hreq : validSubscribeFilter req = true)
    (hsub : filterSubsumes rule req = true)
    (hslip : ¬(startsWithWildcard rule = true ∧ startsWith req '$' = true))
    (h : filterMatches req topic = true) : filterMatches rule topic = true := by
  have hfirst := startsWith_of_filterMatches hreq h
  have hacc := ((filterMatches_iff req topic).mp h).2
  refine (filterMatches_iff rule topic).mpr
    ⟨?_, ((filterSubsumes_iff rule req).mp hsub).accepts hacc⟩
  rw [hfirst]
  exact fun ⟨hdollar, hwild⟩ => hslip ⟨hwild, hdollar⟩

/-- Replace the final `#` of a filter's levels by `k` levels `+`. -/
def expandLevels (k : ℕ) : List String → List String
  | [] => []
  | "#" :: _ => replicate k "+"
  | l :: ls => l :: expandLevels k ls

/-- The filter with its final `#` replaced by `k` levels `+`. -/
def expandMulti (k : ℕ) (filter : String) : String :=
  joinLevels (expandLevels k (levels filter))

lemma map_token_expandLevels (k : ℕ) (ls : List String) :
    (expandLevels k ls).map token = Glob.expand k (ls.map token) := by
  fun_induction expandLevels k ls with
  | case1 => rfl
  | case2 ls => simp [Glob.expand]
  | case3 l ls hhash ih =>
    by_cases hplus : l = "+"
    · simp [hplus, Glob.expand, ih]
    · simp [token_eq_lit hhash hplus, Glob.expand, ih]

private lemma mem_expandLevels (h : l ∈ expandLevels k ls) : l = "+" ∨ l ∈ ls := by
  fun_induction expandLevels k ls with
  | case1 => simp at h
  | case2 ls => exact .inl (eq_of_mem_replicate h)
  | case3 m ls hhash ih =>
    rcases mem_cons.mp h with rfl | h
    · exact .inr mem_cons_self
    · exact (ih h).imp_right (mem_cons_of_mem _)

lemma slash_notMem_of_mem_levels (h : l ∈ levels s) : '/' ∉ l.toList :=
  Lib.sep_notMem_of_mem_splitOnChar h

lemma levels_joinLevels (hls : ∀ l ∈ ls, '/' ∉ l.toList) (hne : ls ≠ []) :
    levels (joinLevels ls) = ls :=
  Lib.splitOnChar_joinWith hls hne

lemma contains_joinLevels (hc : c ≠ '/') (hls : ∀ l ∈ ls, contains l c = false) :
    contains (joinLevels ls) c = false := by
  rw [contains_eq_false_iff]
  intro hmem
  rcases Lib.mem_toList_joinWith hmem with rfl | ⟨l, hl, hcl⟩
  · exact hc rfl
  · exact contains_eq_false_iff.mp (hls l hl) hcl

/-- There is a topic level that no rule names. -/
lemma exists_fresh_level (rules : List String) :
    ∃ z : String, contains z '/' = false ∧ ConcreteTopic z ∧ startsWith z '$' = false ∧
      ∀ r ∈ rules, z ∉ levels r := by
  -- a run of letters longer than all the levels of the rules together
  let named := (rules.flatMap levels).map fun l => l.toList.length
  refine ⟨String.ofList (replicate (named.sum + 1) 'a'), ?_, ⟨?_, ?_⟩, ?_, ?_⟩
  · simp [contains_eq_false_iff, mem_replicate]
  · simp [contains_eq_false_iff, mem_replicate]
  · simp [contains_eq_false_iff, mem_replicate]
  · simp [startsWith, replicate_succ]
  · intro r hr hmem
    have hlen : (String.ofList (replicate (named.sum + 1) 'a')).toList.length ∈ named :=
      mem_map_of_mem (mem_flatMap.mpr ⟨r, hr, hmem⟩)
    have hle := List.le_sum_of_mem hlen
    rw [String.toList_ofList, length_replicate] at hle
    omega

section SampleTopics

variable {rule req : String} (hreq : validSubscribeFilter req = true)
  (hne : expandLevels k (levels req) ≠ [])

lemma expandLevels_ne_nil (hl : levels req = l :: ls) (hhash : l ≠ "#") :
    expandLevels k (levels req) ≠ [] := by
  rw [hl, expandLevels]
  · simp
  · exact hhash

/-- The first level of a `$` filter is a literal. -/
lemma expandLevels_ne_nil_of_dollar (hdollar : startsWith req '$' = true) (k : ℕ) :
    expandLevels k (levels req) ≠ [] := by
  obtain ⟨l, ls, hl⟩ := levels_eq_cons req
  rw [startsWith_eq_of_levels (by decide) hl] at hdollar
  refine expandLevels_ne_nil hl ?_
  rintro rfl
  revert hdollar
  decide

include hne in
lemma levels_expandMulti : levels (expandMulti k req) = expandLevels k (levels req) := by
  refine levels_joinLevels (fun m hm => ?_) hne
  rcases mem_expandLevels hm with rfl | hm
  · decide
  · exact slash_notMem_of_mem_levels hm

/-- The levels of a topic of the filter `req`: `z` fills each `+`, and `k` times `z` fills the
final `#`. -/
def sampleLevels (k : ℕ) (z req : String) : List String :=
  Glob.instantiate z (Glob.expand k ((levels req).map token))

/-- The topic with the levels `sampleLevels k z req`. -/
def sampleTopic (k : ℕ) (z req : String) : String :=
  joinLevels (sampleLevels k z req)

private lemma mem_sampleLevels {m : String} (hm : m ∈ sampleLevels k z req) :
    m = z ∨ (m ∈ levels req ∧ m ≠ "#" ∧ m ≠ "+") := by
  rcases Glob.mem_instantiate hm with rfl | hm
  · exact .inl rfl
  · rw [← map_token_expandLevels, mem_map] at hm
    obtain ⟨l, hl, htoken⟩ := hm
    obtain ⟨rfl, hhash, hplus⟩ := token_eq_lit_iff.mp htoken
    exact .inr ⟨(mem_expandLevels hl).resolve_left hplus, hhash, hplus⟩

include hne in
lemma levels_sampleTopic (hz : contains z '/' = false) :
    levels (sampleTopic k z req) = sampleLevels k z req := by
  refine levels_joinLevels (fun m hm => ?_) fun hnil => hne ?_
  · rcases mem_sampleLevels hm with rfl | ⟨hm, -⟩
    · exact contains_eq_false_iff.mp hz
    · exact slash_notMem_of_mem_levels hm
  · rw [← map_eq_nil_iff (f := token), map_token_expandLevels]
    exact Glob.instantiate_eq_nil (Glob.rest_notMem_expand k _) hnil

include hreq in
lemma concreteTopic_sampleTopic (hz : ConcreteTopic z) (k : ℕ) :
    ConcreteTopic (sampleTopic k z req) := by
  have hlevel : ∀ m ∈ sampleLevels k z req, contains m '+' = false ∧ contains m '#' = false := by
    intro m hm
    rcases mem_sampleLevels hm with rfl | ⟨hm, hhash, hplus⟩
    · exact hz
    · have hcases := level_of_validLevels (validLevels_of_validSubscribeFilter hreq) hm
      exact (hcases.resolve_left hplus).resolve_left hhash
  exact ⟨contains_joinLevels (by decide) fun m hm => (hlevel m hm).1,
    contains_joinLevels (by decide) fun m hm => (hlevel m hm).2⟩

include hreq hne in
/-- The request matches its own sample topics. -/
lemma filterMatches_sampleTopic (hz : contains z '/' = false) (hzd : startsWith z '$' = false) :
    filterMatches req (sampleTopic k z req) = true := by
  have hlevels := levels_sampleTopic hne hz
  refine (filterMatches_iff _ _).mpr ⟨?_, ?_⟩
  · rintro ⟨hdollar, hwild⟩
    obtain ⟨l, ls, hl⟩ := levels_eq_cons req
    -- a leading wildcard is filled with `z`, also when it is the final `#`
    have hfirst : ∃ ms, sampleLevels k z req = z :: ms := by
      rw [sampleLevels, hl]
      rcases (startsWithWildcard_iff hreq hl).mp hwild with rfl | rfl
      · exact ⟨_, rfl⟩
      · cases k with
        | zero => exact (hne (by rw [hl]; rfl)).elim
        | succ k => exact ⟨_, rfl⟩
    obtain ⟨ms, hms⟩ := hfirst
    rw [startsWith_eq_of_levels (by decide) (hlevels.trans hms), hzd] at hdollar
    exact Bool.false_ne_true hdollar
  · rw [hlevels]
    exact Glob.accepts_iff_exists_expand.mpr ⟨k, Glob.accepts_instantiate z _⟩

include hreq in
/-- A rule that matches a topic of a `$` filter does not start with a wildcard. -/
lemma startsWithWildcard_of_dollar (hdollar : startsWith req '$' = true)
    (h : filterMatches req topic = true) (hrule : filterMatches rule topic = true) :
    startsWithWildcard rule = false := by
  have hfirst := (startsWith_of_filterMatches hreq h).trans hdollar
  simpa [hfirst] using ((filterMatches_iff _ _).mp hrule).1

include hne in
/-- A filter that names no level `z` and matches a sample topic filled with `z` subsumes the
expanded request. -/
lemma subsumes_of_filterMatches_sampleTopic (hz : contains z '/' = false) (hfresh : z ∉ levels rule)
    (h : filterMatches rule (sampleTopic k z req) = true) :
    Glob.Subsumes ((levels rule).map token) (Glob.expand k ((levels req).map token)) := by
  have hacc := ((filterMatches_iff _ _).mp h).2
  rw [levels_sampleTopic hne hz] at hacc
  refine Glob.subsumes_of_accepts_instantiate ?_ (Glob.rest_notMem_expand k _) hacc
  intro hmem
  obtain ⟨l, hl, htoken⟩ := mem_map.mp hmem
  exact hfresh ((token_eq_lit_iff.mp htoken).1 ▸ hl)

include hne in
lemma filterSubsumes_expandMulti : filterSubsumes rule (expandMulti k req) = true ↔
      Glob.Subsumes ((levels rule).map token) (Glob.expand k ((levels req).map token)) := by
  rw [filterSubsumes_iff, levels_expandMulti hne, map_token_expandLevels]

/-- A subsumption of an expansion covers the topics of that length. -/
lemma exists_filterSubsumes_expandMulti (hdollar : startsWith req '$' = true)
    (h : filterMatches req topic = true) : ∃ k, ∀ rule, startsWithWildcard rule = false →
      filterSubsumes rule (expandMulti k req) = true → filterMatches rule topic = true := by
  obtain ⟨k, hk⟩ := Glob.accepts_iff_exists_expand.mp ((filterMatches_iff _ _).mp h).2
  refine ⟨k, fun rule hwild hsub => (filterMatches_iff _ _).mpr ⟨by simp [hwild], ?_⟩⟩
  exact ((filterSubsumes_expandMulti (expandLevels_ne_nil_of_dollar hdollar k)).mp hsub).accepts hk

end SampleTopics

/-! ## Completeness -/

lemma eq_joinLevels (h : levels s = ls) : s = joinLevels ls := by
  rw [← h, joinLevels_levels]

/-- A `#` in a valid filter is its last level. -/
lemma eq_nil_of_validLevels (front : List String) {rest : List String}
    (h : validLevels (front ++ "#" :: rest) = true) : rest = [] := by
  induction front with
  | nil =>
    rw [nil_append, validLevels] at h
    split_ifs at h with hhash
    simpa using hhash
  | cons l front ih =>
    rw [cons_append, validLevels] at h
    split_ifs at h
    exact ih h

lemma token_eq_rest (h : token level = .rest) : level = "#" := by
  unfold token at h
  split_ifs at h with hhash
  exact hhash

lemma token_eq_one (h : token level = .one) : level = "+" := by
  unfold token at h
  split_ifs at h with hhash hplus
  exact hplus

/-- A rule that covers the topics of one level and of two levels, and not `#`, is `+/#`. -/
private lemma eq_plus_hash {rule : String} (hrule : validSubscribeFilter rule = true)
    (h1 : Glob.Subsumes ((levels rule).map token) [.one])
    (h2 : Glob.Subsumes ((levels rule).map token) [.one, .one])
    (h : ¬Glob.Subsumes ((levels rule).map token) [.rest]) : rule = "+/#" := by
  have hvalid := validLevels_of_validSubscribeFilter hrule
  obtain ⟨l, ls, hl⟩ := levels_eq_cons rule
  rw [hl] at hvalid
  rw [hl, map_cons] at h1 h2 h
  cases htoken : token l with
  | lit a => exact (htoken ▸ h1).elim
  | rest =>
    rw [htoken] at h
    exact (h trivial).elim
  | one =>
    rw [htoken] at h1 h2
    -- the rest of the rule covers no level and one level, so it is `#`
    have hrest : Glob.Subsumes (ls.map token) [.rest] := Glob.subsumes_of_expand h1 h2
    cases ls with
    | nil => exact hrest.elim
    | cons m ms =>
      rw [map_cons] at hrest
      cases hm : token m with
      | lit a => exact (hm ▸ hrest).elim
      | one => exact (hm ▸ hrest).elim
      | rest =>
        obtain rfl := token_eq_one htoken
        obtain rfl := token_eq_rest hm
        obtain rfl := eq_nil_of_validLevels ["+"] hvalid
        exact eq_joinLevels hl

/-- Completeness of `filter_subsumes`: a rule that matches every topic of a request subsumes it,
except for the rule `+/#` and the request `#`. These two match the same topics. -/
theorem filterSubsumes_complete {rule req : String} (hrule : validSubscribeFilter rule = true)
    (hreq : validSubscribeFilter req = true)
    (hall : ∀ topic, ConcreteTopic topic → filterMatches req topic = true →
      filterMatches rule topic = true) :
    (filterSubsumes rule req = true ↔ ¬(rule = "+/#" ∧ req = "#")) ∧
      ∀ topic, filterMatches "#" topic = filterMatches "+/#" topic := by
  have hsample (k : ℕ) (hne : expandLevels k (levels req) ≠ []) :
      Glob.Subsumes ((levels rule).map token) (Glob.expand k ((levels req).map token)) := by
    obtain ⟨z, hslash, hconcrete, hzd, hfresh⟩ := exists_fresh_level [rule]
    exact subsumes_of_filterMatches_sampleTopic hne hslash (hfresh rule (mem_singleton_self _))
      (hall _ (concreteTopic_sampleTopic hreq hconcrete k)
        (filterMatches_sampleTopic hreq hne hslash hzd))
  refine ⟨⟨?_, fun hexcept => ?_⟩, fun topic => ?_⟩
  · rintro hsub ⟨rfl, rfl⟩
    revert hsub
    decide
  · rw [filterSubsumes_iff]
    obtain ⟨l, ls, hl⟩ := levels_eq_cons req
    by_cases hhash : l = "#"
    · subst hhash
      obtain rfl := eq_nil_of_validLevels [] (hl ▸ validLevels_of_validSubscribeFilter hreq)
      by_contra hnot
      -- without levels there is no topic, so `#` is tried with one level and with two
      have h1 := hsample 1 (by rw [hl]; exact cons_ne_nil _ _)
      have h2 := hsample 2 (by rw [hl]; exact cons_ne_nil _ _)
      rw [hl] at h1 h2 hnot
      exact hexcept ⟨eq_plus_hash hrule h1 h2 hnot, eq_joinLevels hl⟩
    · have hne (k : ℕ) := expandLevels_ne_nil (k := k) hl hhash
      exact Glob.subsumes_of_expand (hsample 0 (hne 0)) (hsample 1 (hne 1))
  · obtain ⟨l, ls, hl⟩ := levels_eq_cons topic
    have hplus : matchesLevels (levels "+/#") (levels topic) = true := by
      rw [hl]
      exact (matchesLevels_plus _ _ _).trans (matchesLevels_hash _ _)
    have hhash : matchesLevels (levels "#") (levels topic) = true := matchesLevels_hash _ _
    rw [filterMatches, filterMatches, hplus, hhash]
    rfl

/-- The rule `a/+` covers the request `a/b`, and subsumes it. -/
theorem filterSubsumes_complete_literal : filterSubsumes "a/+" "a/b" = true :=
  (filterSubsumes_complete (by decide) (by decide) fun _ _ h =>
    filterMatches_of_filterSubsumes (by decide) (by decide) (by decide) h).1.mpr (by decide)


end Rusquitto
