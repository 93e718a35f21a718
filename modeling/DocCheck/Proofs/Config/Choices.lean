import Mathlib.Data.List.Induction
import DocCheck.Proofs.Config.KeyOrder
import DocCheck.Proofs.Config.Resolved

/-!
# What a value chooses

A rule takes null, a truth value, or the name of one of its modes. The rule about known
tags takes in place of a mode the name of a preset, or a mapping that has a preset, tags
with what is required of them, or both. The reader takes no other value.

Results:

* `lookup_ofList`: a table that was written has for each key what was written last.
* `Chooses`: what a value makes of a rule.
* `requirement_eq_some`: what a value requires of a tag; numbers are no truth values.
* `lookup_ofList_word`: a table of tags has for each of them what was said last.
* `chooses_of_resolveChoice`, `chooses_of_resolveAnnotations`: the reader makes of a value what it
  chooses.
* `exists_resolveChoice`, `exists_resolveAnnotations`: the reader takes every value that a rule
  does.
-/
namespace DocCheck

theorem Assoc.ofList_concat {α β : Type} [DecidableEq α] (pairs : List (α × β)) (p : α × β) :
    ofList (pairs ++ [p]) = put p.1 p.2 (ofList pairs) := by
  rw [ofList, List.foldl_append]
  rfl

/-- A table that was written has for each key what was written last. -/
theorem Assoc.lookup_ofList {α β : Type} [DecidableEq α] {key : α} {value : β}
    {pairs : List (α × β)} :
    lookup key (ofList pairs) = some value ↔
      ∃ before after, pairs = before ++ (key, value) :: after ∧ ∀ p ∈ after, p.1 ≠ key := by
  induction pairs using List.reverseRecOn with
  | nil => simp [ofList, lookup]
  | append_singleton pairs p ih =>
    obtain ⟨k, v⟩ := p
    rw [ofList_concat]
    by_cases hk : k = key
    · subst hk
      rw [lookup_put_self, Option.some.injEq]
      constructor
      · rintro rfl
        exact ⟨pairs, [], rfl, by simp⟩
      · rintro ⟨before, after, heq, hafter⟩
        -- nothing comes after the pair, since the last one is of the same key
        cases after using List.reverseRecOn with
        | nil => simpa using (List.append_inj' heq rfl).2
        | append_singleton after q =>
          rw [← List.cons_append, ← List.append_assoc] at heq
          have hq : (k, v) = q := by simpa using (List.append_inj' heq rfl).2
          exact absurd (congrArg Prod.fst hq.symm) (hafter q (by simp))
    · rw [lookup_put_of_ne (Ne.symm hk), ih]
      constructor
      · rintro ⟨before, after, rfl, hafter⟩
        refine ⟨before, after ++ [(k, v)], by simp, fun p hp => ?_⟩
        obtain hp | hp := List.mem_append.mp hp
        · exact hafter p hp
        · rw [List.mem_singleton.mp hp]
          exact hk
      · rintro ⟨before, after, heq, hafter⟩
        cases after using List.reverseRecOn with
        | nil =>
          have hlast : k = key ∧ v = value := by simpa using (List.append_inj' heq rfl).2
          exact absurd hlast.1 hk
        | append_singleton after q =>
          rw [← List.cons_append, ← List.append_assoc] at heq
          exact ⟨before, after, (List.append_inj' heq rfl).1, fun p hp => hafter p (by simp [hp])⟩

namespace Config

/-! ## The values that options take -/

inductive Requires : Value → Requirement → Prop
  | noValue : Requires (.bool false) .noValue
  | anyValue : Requires (.bool true) .anyValue
  | requiredValue : Requires (.str "some") .requiredValue

/-- The rule takes the value. -/
inductive IsChoice (rule : RuleId) : Value → Prop
  | null : IsChoice rule .null
  | bool (b : Bool) : IsChoice rule (.bool b)
  | mode {m : Mode} (h : m ∈ rule.modes) : IsChoice rule (.str m.name)

/-- The value is the name of a preset, or stands for none. -/
inductive IsPreset : Value → Prop
  | null : IsPreset .null
  | preset (p : Preset) : IsPreset (.str p.name)

/-- The value gives tags with what is required of each, or stands for none. -/
inductive IsExtra : Value → Prop
  | null : IsExtra .null
  | map {tags : List (Value × Value)} (h : ∀ e ∈ tags, ∃ r, Requires e.2 r) : IsExtra (.map tags)

/-- The mapping says which tags are known: by a preset, by their names, or both. -/
structure IsTagMapping (inner : List (Value × Value)) : Prop where
  keys : ∀ e ∈ inner, e.1 = .str "preset" ∨ e.1 = .str "extra"
  preset : ∀ v, (.str "preset", v) ∈ inner → IsPreset v
  extra : ∀ v, (.str "extra", v) ∈ inner → IsExtra v

/-- The rule about known tags takes the value. -/
inductive IsAnnotations : Value → Prop
  | null : IsAnnotations .null
  | bool (b : Bool) : IsAnnotations (.bool b)
  | preset (p : Preset) : IsAnnotations (.str p.name)
  | map {inner : List (Value × Value)} (h : IsTagMapping inner) : IsAnnotations (.map inner)

/-- The last entry for a tag, whatever the case of its key, requires `r`. -/
def LastWord (tag : String) (tags : List (Value × Value)) (r : Requirement) : Prop :=
  ∃ before k v after, tags = before ++ (.str k, v) :: after ∧ Text.lower k = tag ∧ Requires v r ∧
    ∀ k' v', (.str k', v') ∈ after → Text.lower k' ≠ tag

/-- The table lists each tag once, with what the mapping says last about it. -/
structure IsTableOf (inner : List (Value × Value)) (extra : TagTable) : Prop where
  nodup : (extra.map Prod.fst).Nodup
  lookup : ∀ tag r, Assoc.lookup tag extra = some r ↔
    ∃ tags, (.str "extra", .map tags) ∈ inner ∧ LastWord tag tags r

/-- What a value makes of a rule. -/
inductive Chooses : RuleId → Value → Option Choice → Prop
  | null (rule : RuleId) : Chooses rule .null none
  | off (rule : RuleId) : Chooses rule (.bool false) none
  | on {rule : RuleId} (h : rule ≠ .checkAnnotations) : Chooses rule (.bool true) (some .on)
  | mode {rule : RuleId} {m : Mode} (h : rule ≠ .checkAnnotations) (hm : m ∈ rule.modes) :
    Chooses rule (.str m.name) (some (.mode m))
  | allTags : Chooses .checkAnnotations (.bool true) (some (.annotations none []))
  | preset (p : Preset) :
    Chooses .checkAnnotations (.str p.name) (some (.annotations (some p) []))
  | tags {inner : List (Value × Value)} {preset : Option Preset} {extra : TagTable}
    (h : IsTagMapping inner) (hpreset : ∀ p, preset = some p ↔ (.str "preset", .str p.name) ∈ inner)
    (hextra : IsTableOf inner extra) :
    Chooses .checkAnnotations (.map inner) (some (.annotations preset extra))

variable {rule : RuleId} {v : Value} {choice : Option Choice}

theorem Chooses.isChoice (h : Chooses rule v choice) (hrule : rule ≠ .checkAnnotations) :
    IsChoice rule v := by
  cases h with
  | null => exact .null
  | off => exact .bool false
  | on => exact .bool true
  | mode _ hm => exact .mode hm
  | allTags => exact absurd rfl hrule
  | preset => exact absurd rfl hrule
  | tags => exact absurd rfl hrule

theorem Chooses.isAnnotations (h : Chooses .checkAnnotations v choice) : IsAnnotations v := by
  cases h with
  | null => exact .null
  | off => exact .bool false
  | on h => exact absurd rfl h
  | mode h => exact absurd rfl h
  | allTags => exact .bool true
  | preset p => exact .preset p
  | tags h => exact .map h

/-- What is enabled has a value other than null and false. -/
theorem Chooses.isSome_iff (h : Chooses rule v choice) :
    choice.isSome = true ↔ v ≠ .null ∧ v ≠ .bool false := by
  cases h <;> simp

/-- A rule that only has its usual way is enabled by nothing but true. -/
theorem Chooses.isSome_iff_of_modes_nil (h : Chooses rule v choice)
    (hrule : rule ≠ .checkAnnotations) (hmodes : rule.modes = []) :
    choice.isSome = true ↔ v = .bool true := by
  cases h with
  | null => simp
  | off => simp
  | on => simp
  | mode _ hm => rw [hmodes] at hm; cases hm
  | allTags => exact absurd rfl hrule
  | preset => exact absurd rfl hrule
  | tags => exact absurd rfl hrule

/-! ## Names -/

theorem mode_of_find {s : String} {m : Mode}
    (h : (rule.modes.find? fun m => m.name = s) = some m) : m ∈ rule.modes ∧ m.name = s :=
  ⟨List.mem_of_find?_eq_some h, by simpa using List.find?_some h⟩

theorem find_mode {m : Mode} (h : m ∈ rule.modes) :
    (rule.modes.find? fun m' => m'.name = m.name) = some m := by
  have hnames : ∀ rule : RuleId, ∀ m ∈ rule.modes,
      (rule.modes.find? fun m' => m'.name = m.name) = some m := by
    intro rule
    cases rule <;> decide
  exact hnames rule m h

theorem ofName_name (p : Preset) : Preset.ofName? p.name = some p := by cases p <;> decide

theorem name_of_ofName {s : String} {p : Preset} (h : Preset.ofName? s = some p) : p.name = s := by
  simpa using List.find?_some h

theorem requirement_eq_some {r : Requirement} : requirement? v = some r ↔ Requires v r := by
  constructor
  · intro h
    unfold requirement? at h
    split at h
    · cases h
      exact .noValue
    · cases h
      exact .anyValue
    · rename_i s
      by_cases hs : s = "some"
      · subst hs
        cases h
        exact .requiredValue
      · rw [if_neg hs] at h
        cases h
    · cases h
  · rintro (_ | _ | _) <;> rfl

/-! ## Rules with modes -/

theorem chooses_of_resolveChoice (hrule : rule ≠ .checkAnnotations)
    (h : resolveChoice rule v = .ok choice) : Chooses rule v choice := by
  unfold resolveChoice at h
  split at h
  · cases h
    exact .null rule
  · cases h
    exact .off rule
  · cases h
    exact .on hrule
  · split at h
    · rename_i m hfind
      cases h
      obtain ⟨hm, rfl⟩ := mode_of_find hfind
      exact .mode hrule hm
    · cases h
  · cases h

theorem exists_resolveChoice (h : IsChoice rule v) :
    ∃ choice, resolveChoice rule v = .ok choice := by
  cases h with
  | null => exact ⟨_, rfl⟩
  | bool b => cases b <;> exact ⟨_, rfl⟩
  | mode hm => exact ⟨_, by rw [resolveChoice, find_mode hm]⟩

/-! ## The known tags -/

/-- What an entry says about its tag. -/
def word (e : Value × Value) : String × Requirement :=
  (Text.lower e.1.plain, (requirement? e.2).getD .noValue)

theorem requires_of_resolveTags {tags : List (Value × Value)} {words : TagTable}
    (h : resolveTags tags = .ok words) : ∀ e ∈ tags, ∃ r, Requires e.2 r := by
  induction tags generalizing words with
  | nil => simp
  | cons e tags ih =>
    rw [resolveTags] at h
    split at h
    · cases h
    · rename_i r hr
      split at h
      · obtain ⟨words, hwords, -⟩ := bind_eq_ok h
        exact List.forall_mem_cons.mpr ⟨⟨r, requirement_eq_some.mp hr⟩, ih hwords⟩
      · cases h

theorem resolveTags_eq {tags : List (Value × Value)} (htexts : ∀ e ∈ tags, e.1.IsText)
    (h : ∀ e ∈ tags, ∃ r, Requires e.2 r) : resolveTags tags = .ok (tags.map word) := by
  induction tags with
  | nil => rfl
  | cons e tags ih =>
    obtain ⟨⟨⟨s, hs⟩, htexts⟩, ⟨r, hr⟩, h⟩ :=
      And.intro (List.forall_mem_cons.mp htexts) (List.forall_mem_cons.mp h)
    have hwritable : e.1.isWritable = true := by rw [hs]; rfl
    rw [resolveTags, requirement_eq_some.mpr hr]
    simp only [hwritable, if_true, ih htexts h]
    rw [List.map_cons, word, requirement_eq_some.mpr hr]
    rfl

/-- A table of tags has for each of them what was said last. -/
theorem lookup_ofList_word {tags : List (Value × Value)} (htexts : ∀ e ∈ tags, e.1.IsText)
    (h : ∀ e ∈ tags, ∃ r, Requires e.2 r) {tag : String} {r : Requirement} :
    Assoc.lookup tag (Assoc.ofList (tags.map word)) = some r ↔ LastWord tag tags r := by
  rw [Assoc.lookup_ofList]
  constructor
  · rintro ⟨_, _, heq, hlast⟩
    obtain ⟨before, later, rfl, -, hlater⟩ := List.map_eq_append_iff.mp heq
    obtain ⟨e, after, rfl, he, rfl⟩ := List.map_eq_cons_iff.mp hlater
    obtain ⟨k, v⟩ := e
    obtain ⟨s, rfl⟩ : k.IsText := htexts (k, v) (by simp)
    obtain ⟨r', hr'⟩ := h (.str s, v) (by simp)
    rw [word, requirement_eq_some.mpr hr', Prod.mk.injEq] at he
    obtain ⟨htag, rfl⟩ := he
    exact ⟨before, s, v, after, rfl, htag, hr', fun k' v' hmem =>
      hlast _ (List.mem_map_of_mem hmem)⟩
  · rintro ⟨before, s, v, after, rfl, htag, hr, hlast⟩
    refine ⟨before.map word, after.map word, ?_, fun p hp => ?_⟩
    · rw [List.map_append, List.map_cons, word, requirement_eq_some.mpr hr]
      show _ ++ (Text.lower s, r) :: _ = _
      rw [htag]
    · obtain ⟨⟨k, v'⟩, hmem, rfl⟩ := List.mem_map.mp hp
      obtain ⟨s', rfl⟩ : k.IsText := htexts (k, v') (by simp [hmem])
      exact hlast s' v' hmem

theorem isPreset_of_resolvePreset {preset : Option Preset} (h : resolvePreset v = .ok preset) :
    IsPreset v ∧ ∀ p, preset = some p ↔ v = .str p.name := by
  unfold resolvePreset at h
  split at h
  · cases h
    exact ⟨.null, by simp⟩
  · rename_i s
    split at h
    · rename_i p hp
      cases h
      obtain rfl := name_of_ofName hp
      refine ⟨.preset p, fun q => ⟨fun hq => by rw [Option.some.inj hq], fun hq => ?_⟩⟩
      rw [← hp, Value.str.inj hq, ofName_name]
    · cases h
  · cases h

theorem exists_resolvePreset (h : IsPreset v) : ∃ preset, resolvePreset v = .ok preset := by
  cases h with
  | null => exact ⟨_, rfl⟩
  | preset p => exact ⟨some p, by rw [resolvePreset, ofName_name]⟩

theorem isExtra_of_resolveExtra {extra : TagTable}
    (htexts : ∀ tags, v = .map tags → ∀ e ∈ tags, e.1.IsText) (h : resolveExtra v = .ok extra) :
    IsExtra v ∧ ∀ tag r, Assoc.lookup tag extra = some r ↔
      ∃ tags, v = .map tags ∧ LastWord tag tags r := by
  unfold resolveExtra at h
  split at h
  · cases h
    exact ⟨.null, by simp [Assoc.lookup]⟩
  · rename_i tags
    obtain ⟨words, hwords, h⟩ := bind_eq_ok h
    have hrequires := requires_of_resolveTags hwords
    rw [resolveTags_eq (htexts tags rfl) hrequires] at hwords
    cases hwords
    cases h
    refine ⟨.map hrequires, fun tag r => ?_⟩
    rw [lookup_ofList_word (htexts tags rfl) hrequires]
    simp
  · cases h

theorem exists_resolveExtra (htexts : ∀ tags, v = .map tags → ∀ e ∈ tags, e.1.IsText)
    (h : IsExtra v) : ∃ extra, resolveExtra v = .ok extra := by
  cases h with
  | null => exact ⟨_, rfl⟩
  | map h => exact ⟨_, by rw [resolveExtra, resolveTags_eq (htexts _ rfl) h]; rfl⟩

section

variable {inner : List (Value × Value)} {name : String}

theorem getD_valueOf_of_mem (h : HasNames inner) (hv : (.str name, v) ∈ inner) :
    (valueOf? name inner).getD .null = v := by
  rw [(valueOf_eq_some h).mpr hv]
  rfl

/-- The value of a key is null if the mapping does not have it. -/
theorem getD_valueOf_eq_iff (h : HasNames inner) (hv : v ≠ .null) :
    (valueOf? name inner).getD .null = v ↔ (.str name, v) ∈ inner := by
  rw [Option.getD_eq_iff, valueOf_eq_some h]
  exact ⟨fun hor => hor.resolve_right fun hnull => hv hnull.2.symm, .inl⟩

theorem getD_valueOf_induction {P : Value → Prop} (h : HasNames inner) (hnull : P .null)
    (hmem : ∀ v, (.str name, v) ∈ inner → P v) : P ((valueOf? name inner).getD .null) := by
  cases hv : valueOf? name inner with
  | none => exact hnull
  | some v => exact hmem v ((valueOf_eq_some h).mp hv)

theorem isNamed_annotationKeys :
    isNamed annotationKeys v = true ↔ v = .str "preset" ∨ v = .str "extra" := by
  cases v <;> simp [isNamed, annotationKeys]

theorem chooses_of_resolveAnnotations (hnames : ∀ inner, v = .map inner → HasNames inner ∧
      ∀ tags, (.str "extra", .map tags) ∈ inner → HasNames tags)
    (h : resolveAnnotations v = .ok choice) : Chooses .checkAnnotations v choice := by
  unfold resolveAnnotations at h
  split at h
  · rename_i inner
    obtain ⟨hinner, htags⟩ := hnames inner rfl
    obtain ⟨keys, hkeys, h⟩ := bind_eq_ok h
    split at h
    · obtain ⟨preset, hpreset, h⟩ := bind_eq_ok h
      obtain ⟨extra, hextra, h⟩ := bind_eq_ok h
      cases h
      obtain ⟨hisPreset, hpreset⟩ := isPreset_of_resolvePreset hpreset
      have htexts : ∀ tags, (valueOf? "extra" inner).getD .null = .map tags →
          ∀ e ∈ tags, e.1.IsText := fun tags he =>
        (htags tags ((getD_valueOf_eq_iff hinner (by simp)).mp he)).texts
      have hnodup := nodup_of_resolveExtra hextra
      obtain ⟨hisExtra, hlookup⟩ := isExtra_of_resolveExtra htexts hextra
      refine .tags ⟨fun e he => ?_, fun w hw => ?_, fun w hw => ?_⟩ (fun p => ?_)
        ⟨hnodup, fun tag r => ?_⟩
      · exact isNamed_annotationKeys.mp (unknownKeys_eq_nil.mp hkeys e he)
      · rwa [getD_valueOf_of_mem hinner hw] at hisPreset
      · rwa [getD_valueOf_of_mem hinner hw] at hisExtra
      · rw [hpreset, getD_valueOf_eq_iff hinner (by simp)]
      · rw [hlookup]
        exact exists_congr fun tags => and_congr_left' (getD_valueOf_eq_iff hinner (by simp))
    · cases h
  · cases h
    exact .null _
  · cases h
    exact .off _
  · cases h
    exact .allTags
  · split at h
    · rename_i p hp
      cases h
      obtain rfl := name_of_ofName hp
      exact .preset p
    · cases h
  · cases h

theorem exists_resolveAnnotations (hnames : ∀ inner, v = .map inner → HasNames inner ∧
      ∀ tags, (.str "extra", .map tags) ∈ inner → HasNames tags)
    (h : IsAnnotations v) : ∃ choice, resolveAnnotations v = .ok choice := by
  cases h with
  | null => exact ⟨_, rfl⟩
  | bool b => cases b <;> exact ⟨_, rfl⟩
  | preset p => exact ⟨_, by rw [resolveAnnotations, ofName_name]⟩
  | map h =>
    rename_i inner
    obtain ⟨hinner, htags⟩ := hnames inner rfl
    have hkeys : unknownKeys annotationKeys inner = .ok [] :=
      unknownKeys_eq_nil.mpr fun e he => isNamed_annotationKeys.mpr (h.keys e he)
    obtain ⟨preset, hpreset⟩ :=
      exists_resolvePreset (getD_valueOf_induction hinner .null h.preset)
    have htexts : ∀ tags, (valueOf? "extra" inner).getD .null = .map tags →
        ∀ e ∈ tags, e.1.IsText := fun tags he =>
      (htags tags ((getD_valueOf_eq_iff hinner (by simp)).mp he)).texts
    obtain ⟨extra, hextra⟩ :=
      exists_resolveExtra htexts (getD_valueOf_induction hinner .null h.extra)
    refine ⟨some (.annotations preset extra), ?_⟩
    rw [resolveAnnotations, ← annotationKeys, hkeys]
    show (resolvePreset _ >>= _) = _
    rw [hpreset]
    show (resolveExtra _ >>= _) = _
    rw [hextra]
    rfl

end

end Config

end DocCheck
