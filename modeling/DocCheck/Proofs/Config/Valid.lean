import DocCheck.Proofs.Config.Choices

/-!
# Valid configurations

A mapping with names for keys is a configuration exactly if every key is an option,
every value is one that the option takes, and the two options about the line after
the description are not both on. What is then enabled is what has a value other than
null and false.

Results:

* `Valid`: the mappings that are configurations.
* `lookup_of_resolveRules`: the rules are read one by one, each as its value says.
* `bothNewlineRules_iff`: the two options about the line after the description are on by true.
* `resolve_iff_valid`: which mappings resolve, and to what.
* `resolve_not_told`: a number that is too long to be told.
-/
namespace DocCheck.Config

/-! ## Mappings -/

/-- The mapping is a configuration. -/
structure Valid (entries : List (Value × Value)) : Prop where
  known : ∀ e ∈ entries, ∃ rule : RuleId, e.1 = .str rule.name
  choices : ∀ (rule : RuleId) (v : Value), (.str rule.name, v) ∈ entries →
    rule ≠ .checkAnnotations → IsChoice rule v
  annotations : ∀ v, (.str RuleId.checkAnnotations.name, v) ∈ entries → IsAnnotations v
  exclusive : ¬ ((.str RuleId.requireNewlineAfterDescription.name, .bool true) ∈ entries ∧
    (.str RuleId.disallowNewlineAfterDescription.name, .bool true) ∈ entries)

/-- The keys of the mapping are names, and so are those of the mapping for the known tags and of
the tags in it. -/
structure NamedMapping (entries : List (Value × Value)) : Prop where
  top : HasNames entries
  annotations : ∀ inner, (.str RuleId.checkAnnotations.name, .map inner) ∈ entries → HasNames inner
  extra : ∀ inner tags, (.str RuleId.checkAnnotations.name, .map inner) ∈ entries →
    (.str "extra", .map tags) ∈ inner → HasNames tags

variable {entries : List (Value × Value)} {config : Config} {rule : RuleId} {v : Value}
  {choice : Option Choice}

/-! ## Rules -/

theorem resolveRule_of_mem (h : HasNames entries) (hv : (.str rule.name, v) ∈ entries) :
    resolveRule entries rule =
      if rule = .checkAnnotations then resolveAnnotations v else resolveChoice rule v := by
  rw [resolveRule, (valueOf_eq_some h).mpr hv]

theorem resolveRule_of_not_mem (h : HasNames entries) (hv : ∀ v, (.str rule.name, v) ∉ entries) :
    resolveRule entries rule = .ok none := by
  rw [resolveRule, (valueOf_eq_none h).mpr hv]

theorem NamedMapping.names (h : NamedMapping entries)
    (hv : (.str RuleId.checkAnnotations.name, v) ∈ entries) :
    ∀ inner, v = .map inner → HasNames inner ∧
      ∀ tags, (.str "extra", .map tags) ∈ inner → HasNames tags := by
  rintro inner rfl
  exact ⟨h.annotations inner hv, fun tags => h.extra inner tags hv⟩

/-- The reader makes of a value what the value chooses. -/
theorem chooses_of_resolveRule (hn : NamedMapping entries) (hv : (.str rule.name, v) ∈ entries)
    (h : resolveRule entries rule = .ok choice) : Chooses rule v choice := by
  rw [resolveRule_of_mem hn.top hv] at h
  split at h
  · rename_i hrule
    subst hrule
    exact chooses_of_resolveAnnotations (hn.names hv) h
  · rename_i hrule
    exact chooses_of_resolveChoice hrule h

theorem exists_resolveRule (hn : NamedMapping entries) (h : Valid entries) (rule : RuleId) :
    ∃ choice, resolveRule entries rule = .ok choice := by
  by_cases hmem : ∃ v, (.str rule.name, v) ∈ entries
  · obtain ⟨v, hv⟩ := hmem
    rw [resolveRule_of_mem hn.top hv]
    by_cases hrule : rule = .checkAnnotations
    · subst hrule
      rw [if_pos rfl]
      exact exists_resolveAnnotations (hn.names hv) (h.annotations v hv)
    · rw [if_neg hrule]
      exact exists_resolveChoice (h.choices rule v hv hrule)
  · exact ⟨none, resolveRule_of_not_mem hn.top (not_exists.mp hmem)⟩

/-- The choices that were read are those of the rules, and of no other rule. -/
theorem lookup_of_resolveRules {rules : List RuleId} (hnodup : rules.Nodup)
    {choices : List (RuleId × Choice)} (h : resolveRules entries rules = .ok choices) :
    (∀ rule ∈ rules, resolveRule entries rule = .ok (Assoc.lookup rule choices)) ∧
      ∀ rule ∉ rules, Assoc.lookup rule choices = none := by
  induction rules generalizing choices with
  | nil =>
    cases h
    exact ⟨by simp, fun _ _ => rfl⟩
  | cons first rules ih =>
    obtain ⟨hfirst, hnodup⟩ := List.nodup_cons.mp hnodup
    obtain ⟨choice, hchoice, h⟩ := bind_eq_ok h
    obtain ⟨rest, hrest, h⟩ := bind_eq_ok h
    obtain ⟨hin, hout⟩ := ih hnodup hrest
    have hlookup : ∀ rule, Assoc.lookup rule choices =
        if first = rule then choice else Assoc.lookup rule rest := by
      intro rule
      cases choice with
      | some c =>
        cases h
        rw [Assoc.lookup]
      | none =>
        cases h
        by_cases heq : first = rule
        · rw [if_pos heq, hout rule (heq ▸ hfirst)]
        · rw [if_neg heq]
    refine ⟨List.forall_mem_cons.mpr ⟨?_, fun rule hrule => ?_⟩, fun rule hrule => ?_⟩
    · rw [hlookup, if_pos rfl, hchoice]
    · have hne : first ≠ rule := fun heq => hfirst (heq ▸ hrule)
      rw [hlookup, if_neg hne]
      exact hin rule hrule
    · obtain ⟨hne, hrule⟩ := not_or.mp (mt List.mem_cons.mpr hrule)
      rw [hlookup, if_neg (Ne.symm hne)]
      exact hout rule hrule

theorem exists_resolveRules (h : ∀ rule, ∃ choice, resolveRule entries rule = .ok choice)
    (rules : List RuleId) : ∃ choices, resolveRules entries rules = .ok choices := by
  induction rules with
  | nil => exact ⟨[], rfl⟩
  | cons rule rules ih =>
    obtain ⟨choice, hchoice⟩ := h rule
    obtain ⟨rest, hrest⟩ := ih
    rw [resolveRules, hchoice, hrest]
    cases choice with
    | none => exact ⟨_, rfl⟩
    | some c => exact ⟨_, rfl⟩

/-! ## Configurations -/

theorem map_enabled (config : Config) :
    config.enabled.map Prod.fst = RuleId.all.filter fun rule => (config.get rule).isSome := by
  rw [enabled, List.map_filterMap, ← List.filterMap_eq_filter]
  refine List.filterMap_congr fun rule _ => ?_
  cases h : config.get rule <;> simp [h, Option.guard]

theorem mem_map_enabled (config : Config) :
    rule ∈ config.enabled.map Prod.fst ↔ (config.get rule).isSome = true := by
  rw [map_enabled, List.mem_filter]
  exact and_iff_right rule.mem_all

theorem isNamed_optionNames :
    isNamed optionNames v = true ↔ ∃ rule : RuleId, v = .str rule.name := by
  constructor
  · intro h
    cases v with
    | str s =>
      obtain ⟨rule, -, hrule⟩ := List.mem_map.mp (List.contains_iff_mem.mp h)
      exact ⟨rule, by rw [hrule]⟩
    | _ => cases h
  · rintro ⟨rule, rfl⟩
    exact List.contains_iff_mem.mpr (List.mem_map_of_mem rule.mem_all)

theorem resolve_eq_ok : resolve entries = .ok config ↔ resolveEntries entries = .ok config := by
  rw [resolve]
  cases resolveEntries entries <;> simp [Except.mapError]

/-- The two rules about the line after the description are both on. -/
def BothNewlineRules (config : Config) : Prop :=
  (config.get .requireNewlineAfterDescription).isSome ∧
    (config.get .disallowNewlineAfterDescription).isSome

theorem of_resolveEntries (h : resolveEntries entries = .ok config) :
    unknownKeys optionNames entries = .ok [] ∧
      (∀ rule, resolveRule entries rule = .ok (config.get rule)) ∧ ¬ BothNewlineRules config := by
  obtain ⟨keys, hkeys, h⟩ := bind_eq_ok h
  split at h
  · obtain ⟨choices, hchoices, h⟩ := bind_eq_ok h
    simp only at h
    split at h
    · cases h
    · rename_i hboth
      cases h
      have hlookup := (lookup_of_resolveRules (by decide) hchoices).1
      exact ⟨hkeys, fun rule => hlookup rule rule.mem_all, hboth⟩
  · cases h

theorem exists_resolveEntries (hkeys : unknownKeys optionNames entries = .ok [])
    (hrules : ∀ rule, ∃ choice, resolveRule entries rule = .ok choice)
    (hboth : ∀ config : Config, (∀ rule, resolveRule entries rule = .ok (config.get rule)) →
      ¬ BothNewlineRules config) : ∃ config, resolveEntries entries = .ok config := by
  obtain ⟨choices, hchoices⟩ := exists_resolveRules hrules RuleId.all
  have hlookup := (lookup_of_resolveRules (by decide) hchoices).1
  have hnot := hboth ⟨fun rule => Assoc.lookup rule choices⟩ fun rule => hlookup rule rule.mem_all
  refine ⟨⟨fun rule => Assoc.lookup rule choices⟩, ?_⟩
  rw [resolveEntries, ← optionNames, hkeys]
  show (resolveRules entries RuleId.all >>= _) = _
  rw [hchoices]
  exact if_neg hnot

section

variable (hn : NamedMapping entries)
include hn

/-- A rule is enabled if the mapping has a value for it other than null and false. -/
theorem isSome_get_iff (hrules : ∀ rule, resolveRule entries rule = .ok (config.get rule))
    (rule : RuleId) : (config.get rule).isSome = true ↔
      ∃ v, (.str rule.name, v) ∈ entries ∧ v ≠ .null ∧ v ≠ .bool false := by
  constructor
  · intro hsome
    by_contra hnone
    by_cases hmem : ∃ v, (.str rule.name, v) ∈ entries
    · obtain ⟨v, hv⟩ := hmem
      have hchooses := chooses_of_resolveRule hn hv (hrules rule)
      exact hnone ⟨v, hv, hchooses.isSome_iff.mp hsome⟩
    · have hrule := resolveRule_of_not_mem hn.top (not_exists.mp hmem)
      rw [hrules rule, Except.ok.injEq] at hrule
      rw [hrule] at hsome
      cases hsome
  · rintro ⟨v, hv, hvalue⟩
    exact (chooses_of_resolveRule hn hv (hrules rule)).isSome_iff.mpr hvalue

/-- A rule that only has its usual way is enabled by true. -/
theorem isSome_get_iff_of_modes_nil
    (hrules : ∀ rule, resolveRule entries rule = .ok (config.get rule))
    (hrule : rule ≠ .checkAnnotations) (hmodes : rule.modes = []) :
    (config.get rule).isSome = true ↔ (.str rule.name, .bool true) ∈ entries := by
  rw [isSome_get_iff hn hrules]
  constructor
  · rintro ⟨v, hv, hvalue⟩
    have hchooses := chooses_of_resolveRule hn hv (hrules rule)
    have htrue : v = .bool true :=
      (hchooses.isSome_iff_of_modes_nil hrule hmodes).mp (hchooses.isSome_iff.mpr hvalue)
    exact htrue ▸ hv
  · exact fun h => ⟨_, h, by simp, by simp⟩

theorem bothNewlineRules_iff (hrules : ∀ rule, resolveRule entries rule = .ok (config.get rule)) :
    BothNewlineRules config ↔
      (.str RuleId.requireNewlineAfterDescription.name, .bool true) ∈ entries ∧
        (.str RuleId.disallowNewlineAfterDescription.name, .bool true) ∈ entries :=
  and_congr (isSome_get_iff_of_modes_nil hn hrules (by decide) rfl)
    (isSome_get_iff_of_modes_nil hn hrules (by decide) rfl)

theorem valid_of_resolve (h : resolve entries = .ok config) : Valid entries := by
  obtain ⟨hkeys, hrules, hboth⟩ := of_resolveEntries (resolve_eq_ok.mp h)
  exact {
    known := fun e he => isNamed_optionNames.mp (unknownKeys_eq_nil.mp hkeys e he)
    choices := fun rule v hv hrule => (chooses_of_resolveRule hn hv (hrules rule)).isChoice hrule
    annotations := fun v hv =>
      (chooses_of_resolveRule hn hv (hrules .checkAnnotations)).isAnnotations
    exclusive := fun hon => hboth ((bothNewlineRules_iff hn hrules).mpr hon) }

theorem exists_resolve (h : Valid entries) : ∃ config, resolve entries = .ok config := by
  have hkeys : unknownKeys optionNames entries = .ok [] :=
    unknownKeys_eq_nil.mpr fun e he => isNamed_optionNames.mpr (h.known e he)
  obtain ⟨config, hconfig⟩ := exists_resolveEntries hkeys (exists_resolveRule hn h)
    fun config hrules hboth => h.exclusive ((bothNewlineRules_iff hn hrules).mp hboth)
  exact ⟨config, resolve_eq_ok.mpr hconfig⟩

/-- Names can be put in order, so that whatever is wrong with a mapping can be told if no whole
number in it is too long. -/
theorem tellable (hw : Value.entriesWritable entries = true) : Tellable entries where
  top := hn.top.sortable
  annotations := fun inner hinner =>
    (hn.annotations inner ((valueOf_eq_some hn.top).mp hinner)).sortable
  writable := hw

/-- A mapping with names for keys resolves exactly if it is valid. What is enabled then, in the
order of the rules, is what has a value other than null and false, in the way that the value
chooses. Otherwise the error is told, unless the mapping has a whole number that is too long. In
another order of its keys the mapping gives the same. -/
theorem resolve_iff_valid :
    ((∃ config, resolve entries = .ok config) ↔ Valid entries) ∧
    (∀ config, resolve entries = .ok config →
      (config.enabled.map Prod.fst).Sublist RuleId.all ∧
      (∀ rule, rule ∈ config.enabled.map Prod.fst ↔
        ∃ v, (.str rule.name, v) ∈ entries ∧ v ≠ .null ∧ v ≠ .bool false) ∧
      ∀ rule choice, (rule, choice) ∈ config.enabled →
        ∃ v, (.str rule.name, v) ∈ entries ∧ Chooses rule v (some choice)) ∧
    (Value.entriesWritable entries = true → ∀ e, resolve entries = .error e → e.isTold = true) ∧
    ∀ entries', entries.Perm entries' → resolve entries' = resolve entries := by
  refine ⟨⟨fun ⟨config, h⟩ => valid_of_resolve hn h, exists_resolve hn⟩, fun config h => ?_,
    fun hw e he => ?_, fun entries' hp => (resolve_perm hn.top hp).symm⟩
  · obtain ⟨-, hrules, -⟩ := of_resolveEntries (resolve_eq_ok.mp h)
    refine ⟨config.map_enabled ▸ List.filter_sublist, fun rule => ?_, fun rule choice hmem => ?_⟩
    · rw [config.mem_map_enabled, isSome_get_iff hn hrules]
    · have hget : config.get rule = some choice := mem_enabled.mp hmem
      have hsome : (config.get rule).isSome = true := by rw [hget]; rfl
      obtain ⟨v, hv, -⟩ := (isSome_get_iff hn hrules rule).mp hsome
      exact ⟨v, hv, hget ▸ chooses_of_resolveRule hn hv (hrules rule)⟩
  · obtain ⟨config, h⟩ | ⟨e', h, htold⟩ := told_of_tellable (tellable hn hw)
    · rw [h] at he
      cases he
    · rw [h] at he
      cases he
      exact htold

end

/-- A mapping that adds a tag to those of a preset, in two spellings of which the last counts. -/
def relaxedEntries : List (Value × Value) :=
  [(.str "checkTypes", .null),
    (.str "checkAnnotations",
      .map [(.str "preset", .str "jsdoc3"),
        (.str "extra", .map [(.str "Flow", .bool true), (.str "flow", .str "some")])])]

theorem namedMapping_relaxedEntries : NamedMapping relaxedEntries := by
  refine ⟨⟨?_, ?_⟩, fun inner hinner => ?_, fun inner tags hinner htags => ?_⟩
  · simp [relaxedEntries, Value.IsText]
  · simp [relaxedEntries]
  · obtain rfl : inner = _ := by simpa [relaxedEntries, RuleId.name] using hinner
    exact ⟨by simp [Value.IsText], by simp⟩
  · obtain rfl : inner = _ := by simpa [relaxedEntries, RuleId.name] using hinner
    obtain rfl : tags = _ := by simpa using htags
    exact ⟨by simp [Value.IsText], by simp⟩

/-- The mapping is valid, it enables one rule, and so it does with its keys the other way round. -/
theorem resolve_iff_valid_relaxed :
    NamedMapping relaxedEntries ∧ Valid relaxedEntries ∧ ∃ config,
      resolve relaxedEntries = .ok config ∧ resolve relaxedEntries.reverse = .ok config ∧
        config.enabled.map Prod.fst = [.checkAnnotations] := by
  obtain ⟨hvalid, hconfig, -, hperm⟩ := resolve_iff_valid namedMapping_relaxedEntries
  have henabled : (resolve relaxedEntries).toOption.map (fun c => c.enabled.map Prod.fst) =
      some [.checkAnnotations] := by decide +kernel
  cases h : resolve relaxedEntries with
  | error e =>
    rw [h] at henabled
    cases henabled
  | ok config =>
    rw [h] at henabled
    refine ⟨namedMapping_relaxedEntries, hvalid.mp ⟨config, h⟩, config, rfl, ?_,
      Option.some.inj henabled⟩
    rw [hperm _ relaxedEntries.reverse_perm.symm, h]

/-- A whole number of 4301 digits is no value of any option, but that cannot be told. -/
theorem resolve_not_told : ∃ entries e, NamedMapping entries ∧ resolve entries = .error e ∧
    e.isTold = false := by
  have hnamed : ∀ n, NamedMapping [(.str "checkParamNames", .int n)] := fun n =>
    ⟨⟨by simp [Value.IsText], by simp⟩, by simp [RuleId.name], by simp [RuleId.name]⟩
  have hentries : ∀ n, resolveEntries [(.str "checkParamNames", .int n)] =
      .error (.invalidChoice .checkParamNames (.int n)) := fun _ => rfl
  have hlong : Value.isWritable (.int (.ofNat (Nat.pow 10 4300))) = false := by decide +kernel
  have hvalues : Value.areWritable [.int (.ofNat (Nat.pow 10 4300))] = false := by
    rw [Value.areWritable_cons, hlong, Bool.false_and]
  refine ⟨[(.str "checkParamNames", .int (.ofNat (Nat.pow 10 4300)))], .tooManyDigits,
    hnamed _, ?_, rfl⟩
  rw [resolve, hentries]
  show Except.error (Error.told _) = _
  rw [Error.told, Error.values, hvalues, if_neg Bool.false_ne_true]

end DocCheck.Config
