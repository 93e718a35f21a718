import Mathlib.Data.List.Perm.Basic
import DocCheck.Proofs.Config.Told

/-!
# The order of keys

A mapping whose keys are texts, each used once, can be written in any order: its
configuration is the same, and if it has none, the error is. Unknown keys are put in
order before they are told, and every option is looked up by its name.

Results:

* `insertSorted_comm`, `sorted_eq_of_perm`: texts are put in one order, however they come.
* `HasNames`: a mapping with texts for keys, each used once.
* `valueOf_eq_some`: the value of a key is the one that the mapping has for it.
* `resolve_perm`: the order of the keys changes neither the configuration nor the error.
-/
namespace DocCheck

namespace Value

/-! ## Texts in order -/

theorem precedes_of_lt {s t : String} {w : Value} (hst : s < t) (h : (str t).precedes w = true) :
    (str s).precedes w = true := by
  cases w with
  | str u =>
    have htu : t < u := of_decide_eq_true h
    exact decide_eq_true (String.lt_trans hst htu)
  | _ => simp [precedes, size?] at h

theorem insertSorted_comm_of_lt {s t : String} (hst : s < t) (vs : List Value) :
    insertSorted (str s) (insertSorted (str t) vs) =
      insertSorted (str t) (insertSorted (str s) vs) := by
  have hprecedes : (str s).precedes (str t) = true := decide_eq_true hst
  have hnot : (str t).precedes (str s) = false := decide_eq_false (String.lt_asymm hst)
  -- the smaller text goes in front of whatever the greater one goes in front of
  induction vs with
  | nil => simp [insertSorted, hprecedes, hnot]
  | cons w ws ih =>
    by_cases ht : (str t).precedes w = true
    · have hs := precedes_of_lt hst ht
      simp [insertSorted, hprecedes, hnot, ht, hs]
    · by_cases hs : (str s).precedes w = true
      · simp [insertSorted, hnot, ht, hs]
      · simp [insertSorted, ht, hs, ih]

theorem insertSorted_comm (s t : String) (vs : List Value) :
    insertSorted (str s) (insertSorted (str t) vs) =
      insertSorted (str t) (insertSorted (str s) vs) := by
  by_cases hst : s < t
  · exact insertSorted_comm_of_lt hst vs
  · by_cases hts : t < s
    · exact (insertSorted_comm_of_lt hts vs).symm
    · rw [String.le_antisymm (String.not_lt.mp hts) (String.not_lt.mp hst)]

def IsText (v : Value) : Prop := ∃ s, v = str s

theorem IsText.family_eq {v : Value} (h : v.IsText) : v.family? = some .text := by
  obtain ⟨s, rfl⟩ := h
  rfl

theorem sorted_of_texts {vs : List Value} (h : ∀ v ∈ vs, v.IsText) :
    sorted? vs = some (vs.foldr insertSorted []) := by
  match vs, h with
  | [], _ => rfl
  | [v], _ => rfl
  | v :: w :: ws, h =>
    have hall : ((w :: ws).all fun u => u.family? == some .text) = true :=
      List.all_eq_true.mpr fun u hu => by
        rw [(h u (List.mem_cons_of_mem _ hu)).family_eq]
        rfl
    simp only [sorted?, (h v List.mem_cons_self).family_eq]
    exact if_pos hall

theorem sorted_eq_of_perm {vs ws : List Value} (h : ∀ v ∈ vs, v.IsText) (hp : vs.Perm ws) :
    sorted? vs = sorted? ws := by
  have hcomm : ∀ v ∈ vs, ∀ w ∈ vs, ∀ us,
      insertSorted w (insertSorted v us) = insertSorted v (insertSorted w us) := by
    intro v hv w hw us
    obtain ⟨s, rfl⟩ := h v hv
    obtain ⟨t, rfl⟩ := h w hw
    exact insertSorted_comm t s us
  rw [sorted_of_texts h, sorted_of_texts fun v hv => h v (hp.mem_iff.mpr hv)]
  exact congrArg some (hp.foldr_eq' hcomm [])

theorem insertSorted_ne_nil (v : Value) (vs : List Value) : insertSorted v vs ≠ [] := by
  cases vs with
  | nil => simp [insertSorted]
  | cons w ws =>
    rw [insertSorted]
    split <;> simp

theorem sorted_eq_nil {vs : List Value} (h : sorted? vs = some []) : vs = [] := by
  match vs, h with
  | [], _ => rfl
  | [v], h => cases h
  | v :: w :: ws, h =>
    simp only [sorted?] at h
    split at h
    · cases h
    · split at h
      · exact absurd (Option.some.inj h) (insertSorted_ne_nil v _)
      · cases h

end Value

namespace Config

/-! ## Mappings with names for keys -/

/-- The keys of a mapping are texts, and each is used once. -/
structure HasNames (entries : List (Value × Value)) : Prop where
  texts : ∀ e ∈ entries, e.1.IsText
  nodup : (entries.map Prod.fst).Nodup

variable {entries entries' : List (Value × Value)} {names : List String}

theorem HasNames.perm (h : HasNames entries) (hp : entries.Perm entries') : HasNames entries' where
  texts := fun e he => h.texts e (hp.mem_iff.mpr he)
  nodup := (hp.map Prod.fst).nodup_iff.mp h.nodup

theorem HasNames.tail {e : Value × Value} (h : HasNames (e :: entries)) : HasNames entries where
  texts := fun e he => h.texts e (List.mem_cons_of_mem _ he)
  nodup := (List.nodup_cons.mp h.nodup).2

theorem HasNames.sortable (h : HasNames entries) : Value.Sortable (unknown names entries) := by
  refine .inr ⟨.text, fun v hv => ?_⟩
  obtain ⟨e, he, rfl⟩ := List.mem_map.mp (List.mem_of_mem_filter hv)
  exact (h.texts e he).family_eq

/-- The value of a key is the one that the mapping has for it. -/
theorem valueOf_eq_some (h : HasNames entries) {name : String} {v : Value} :
    valueOf? name entries = some v ↔ (.str name, v) ∈ entries := by
  induction entries with
  | nil => simp [valueOf?]
  | cons e entries ih =>
    obtain ⟨k, w⟩ := e
    obtain ⟨s, rfl⟩ : k.IsText := h.texts _ List.mem_cons_self
    rw [valueOf?, List.mem_cons, Prod.mk.injEq, Value.str.injEq]
    by_cases hs : s = name
    · subst hs
      have hfirst : ∀ u, (Value.str s, u) ∉ entries := fun u hu =>
        (List.nodup_cons.mp h.nodup).1 (List.mem_map.mpr ⟨_, hu, rfl⟩)
      rw [if_pos rfl, Option.some.injEq]
      constructor
      · rintro rfl
        exact .inl ⟨rfl, rfl⟩
      · rintro (⟨-, rfl⟩ | hv)
        · rfl
        · exact absurd hv (hfirst v)
    · rw [if_neg hs, ih h.tail]
      exact ⟨.inr, fun hv => hv.resolve_left fun hname => hs hname.1.symm⟩

theorem valueOf_eq_none (h : HasNames entries) {name : String} :
    valueOf? name entries = none ↔ ∀ v, (.str name, v) ∉ entries := by
  rw [Option.eq_none_iff_forall_ne_some]
  exact forall_congr' fun v => not_congr (valueOf_eq_some h)

/-- All keys are known if none has to be told. -/
theorem unknownKeys_eq_nil :
    unknownKeys names entries = .ok [] ↔ ∀ e ∈ entries, isNamed names e.1 = true := by
  have hunknown : unknown names entries = [] ↔ ∀ e ∈ entries, isNamed names e.1 = true := by
    simp [unknown, List.filter_eq_nil_iff]
  rw [← hunknown, unknownKeys, ← unknown]
  constructor
  · intro h
    split at h
    · rename_i hsorted
      cases h
      exact Value.sorted_eq_nil hsorted
    · cases h
  · intro h
    rw [h]
    rfl

/-! ## Another order -/

section

variable (h : HasNames entries) (hp : entries.Perm entries')
include h hp

theorem unknownKeys_perm : unknownKeys names entries = unknownKeys names entries' := by
  have htexts : ∀ v ∈ unknown names entries, v.IsText := by
    intro v hv
    obtain ⟨e, he, rfl⟩ := List.mem_map.mp (List.mem_of_mem_filter hv)
    exact h.texts e he
  have hunknown : (unknown names entries).Perm (unknown names entries') :=
    (hp.map Prod.fst).filter _
  rw [unknownKeys, unknownKeys, ← unknown, ← unknown, Value.sorted_eq_of_perm htexts hunknown]

theorem valueOf_perm (name : String) : valueOf? name entries = valueOf? name entries' := by
  refine Option.ext fun v => ?_
  rw [valueOf_eq_some h, valueOf_eq_some (h.perm hp), hp.mem_iff]

theorem resolveRules_perm (rules : List RuleId) :
    resolveRules entries rules = resolveRules entries' rules := by
  induction rules with
  | nil => rfl
  | cons rule rules ih =>
    rw [resolveRules, resolveRules, ih, resolveRule, resolveRule, valueOf_perm h hp]

/-- A mapping gives the same configuration, or the same error, in every order of its keys. -/
theorem resolve_perm : resolve entries = resolve entries' := by
  rw [resolve, resolve, resolveEntries, resolveEntries, unknownKeys_perm h hp,
    resolveRules_perm h hp]

end

end Config

end DocCheck
