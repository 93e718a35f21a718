import DocCheck.Tag.Preset

/-!
# Tables taken together

What a table says about a tag may be relaxed: from nothing to any word, and from a
word to any value. The tables that are combined say together the least that relaxes
what each of them says, and that does not depend on their order.

Results:

* `lookup_absorb`: what a table adds to those before it.
* `relaxes_combine`, `combine_relaxes`: combined tables say the least that relaxes every one.
* `relaxes_everyPreset`: the tags of all presets taken together relax those of each.
-/
namespace DocCheck.TagTable

/-! ## What tables say -/

/-- The second word about a tag is the first one or lets any value go; where the first table says
nothing, it is any word. -/
def Relaxes (said said' : Option Requirement) : Prop :=
  said = none ∨ said' = said ∨ said' = some .anyValue

/-- What two tables say together. -/
def both : Option Requirement → Option Requirement → Option Requirement
  | said, none => said
  | said, some r => some (relax said r)

section

variable {a b c : Option Requirement}

theorem Relaxes.refl (a : Option Requirement) : Relaxes a a := .inr (.inl rfl)

theorem Relaxes.trans (hab : Relaxes a b) (hbc : Relaxes b c) : Relaxes a c := by
  obtain rfl | rfl | rfl := hab
  · exact .inl rfl
  · exact hbc
  · obtain h | rfl | rfl := hbc
    · cases h
    · exact .inr (.inr rfl)
    · exact .inr (.inr rfl)

theorem Relaxes.antisymm (hab : Relaxes a b) (hba : Relaxes b a) : a = b := by
  obtain rfl | rfl | rfl := hab
  · obtain rfl | h | h := hba
    · rfl
    · exact h
    · cases h
  · rfl
  · obtain h | h | h := hba
    · cases h
    · exact h
    · exact h

theorem relaxes_both_left (a b : Option Requirement) : Relaxes a (both a b) := by
  cases a with
  | none => exact .inl rfl
  | some r' =>
    cases b with
    | none => exact .refl _
    | some r =>
      by_cases h : r' = r
      · exact .inr (.inl (by rw [both, relax, if_pos h, h]))
      · exact .inr (.inr (by rw [both, relax, if_neg h]))

theorem relaxes_both_right (a b : Option Requirement) : Relaxes b (both a b) := by
  cases b with
  | none => exact .inl rfl
  | some r =>
    cases a with
    | none => exact .refl _
    | some r' =>
      by_cases h : r' = r
      · exact .inr (.inl (by rw [both, relax, if_pos h]))
      · exact .inr (.inr (by rw [both, relax, if_neg h]))

/-- Two tables say no more together than what relaxes both. -/
theorem both_relaxes (ha : Relaxes a c) (hb : Relaxes b c) : Relaxes (both a b) c := by
  cases b with
  | none => exact ha
  | some r =>
    cases a with
    | none => exact hb
    | some r' =>
      by_cases h : r' = r
      · rw [both, relax, if_pos h]
        exact hb
      · -- two words that differ have nothing but any value to relax to
        have hc : c = some .anyValue := by
          obtain h' | hr' | hc := ha
          · cases h'
          · obtain h' | hr | hc := hb
            · cases h'
            · exact absurd (Option.some.inj (hr'.symm.trans hr)) h
            · exact hc
          · exact hc
        exact .inr (.inr hc)

end

/-! ## Combined tables -/

/-- A table that has each tag once adds its word to what was said before. -/
theorem lookup_absorb (collected : TagTable) {table : TagTable}
    (h : (table.map Prod.fst).Nodup) (tag : String) :
    Assoc.lookup tag (absorb collected table) =
      both (Assoc.lookup tag collected) (Assoc.lookup tag table) := by
  induction table generalizing collected with
  | nil => rfl
  | cons p rest ih =>
    obtain ⟨tag', r⟩ := p
    obtain ⟨hnew, hrest⟩ := List.nodup_cons.mp h
    have hstep : absorb collected ((tag', r) :: rest) =
        absorb (Assoc.put tag' (relax (Assoc.lookup tag' collected) r) collected) rest := rfl
    rw [hstep, ih _ hrest, Assoc.lookup]
    by_cases htag : tag' = tag
    · subst htag
      rw [if_pos rfl, Assoc.lookup_put_self, Assoc.lookup_eq_none_of_not_mem hnew]
      rfl
    · rw [if_neg htag, Assoc.lookup_put_of_ne (Ne.symm htag)]

section

variable {tables : List TagTable} (h : ∀ table ∈ tables, (table.map Prod.fst).Nodup)
  (tag : String)
include h

/-- Tables that are added one by one say the least that relaxes what was said before and what each
of them says. -/
theorem relaxes_foldl_absorb (collected : TagTable) :
    let said := Assoc.lookup tag (tables.foldl absorb collected)
    Relaxes (Assoc.lookup tag collected) said ∧
      (∀ table ∈ tables, Relaxes (Assoc.lookup tag table) said) ∧
      ∀ c, Relaxes (Assoc.lookup tag collected) c →
        (∀ table ∈ tables, Relaxes (Assoc.lookup tag table) c) → Relaxes said c := by
  induction tables generalizing collected with
  | nil => exact ⟨.refl _, by simp, fun _ hc _ => hc⟩
  | cons table tables ih =>
    obtain ⟨hfirst, hrest⟩ := List.forall_mem_cons.mp h
    obtain ⟨hcollected, hlater, hleast⟩ := ih hrest (absorb collected table)
    rw [lookup_absorb collected hfirst] at hcollected hleast
    refine ⟨(relaxes_both_left _ _).trans hcollected, ?_, fun c hc htables => ?_⟩
    · exact List.forall_mem_cons.mpr ⟨(relaxes_both_right _ _).trans hcollected, hlater⟩
    · obtain ⟨htable, htables⟩ := List.forall_mem_cons.mp htables
      exact hleast c (both_relaxes hc htable) htables

theorem relaxes_combine {table : TagTable} (ht : table ∈ tables) :
    Relaxes (Assoc.lookup tag table) (Assoc.lookup tag (combine tables)) :=
  (relaxes_foldl_absorb h tag []).2.1 table ht

theorem combine_relaxes {c : Option Requirement}
    (hc : ∀ table ∈ tables, Relaxes (Assoc.lookup tag table) c) :
    Relaxes (Assoc.lookup tag (combine tables)) c :=
  (relaxes_foldl_absorb h tag []).2.2 c (.inl rfl) hc

/-- Combined tables know no tag that none of them knows. -/
theorem lookup_combine_of_none (hnone : ∀ table ∈ tables, Assoc.lookup tag table = none) :
    Assoc.lookup tag (combine tables) = none := by
  have hleast : Relaxes (Assoc.lookup tag (combine tables)) none :=
    combine_relaxes h tag fun table ht => .inl (hnone table ht)
  exact hleast.antisymm (.inl rfl)

/-- Tables that agree on a tag say together what each of them says. -/
theorem lookup_combine_of_agree {r : Requirement} {table : TagTable} (ht : table ∈ tables)
    (hr : Assoc.lookup tag table = some r)
    (hagree : ∀ table ∈ tables, ∀ r', Assoc.lookup tag table = some r' → r' = r) :
    Assoc.lookup tag (combine tables) = some r := by
  refine (combine_relaxes h tag fun table' ht' => ?_).antisymm (hr ▸ relaxes_combine h tag ht)
  cases hr' : Assoc.lookup tag table' with
  | none => exact .inl rfl
  | some r' => rw [hagree table' ht' r' hr']; exact .refl _

/-- Where two tables disagree, any value goes. -/
theorem lookup_combine_of_differ {r r' : Requirement} {table table' : TagTable}
    (ht : table ∈ tables) (ht' : table' ∈ tables) (hr : Assoc.lookup tag table = some r)
    (hr' : Assoc.lookup tag table' = some r') (hne : r ≠ r') :
    Assoc.lookup tag (combine tables) = some .anyValue := by
  obtain h₁ | h₁ | h₁ := relaxes_combine h tag ht
  · rw [hr] at h₁
    cases h₁
  · obtain h₂ | h₂ | h₂ := relaxes_combine h tag ht'
    · rw [hr'] at h₂
      cases h₂
    · rw [h₁, hr, hr'] at h₂
      exact absurd (Option.some.inj h₂) hne
    · exact h₂
  · exact h₁

/-- What tables say together does not depend on their order. -/
theorem lookup_combine_of_perm {tables' : List TagTable} (hp : tables'.Perm tables) :
    Assoc.lookup tag (combine tables') = Assoc.lookup tag (combine tables) := by
  have h' : ∀ table ∈ tables', (table.map Prod.fst).Nodup := fun table ht =>
    h table (hp.mem_iff.mp ht)
  exact (combine_relaxes h' tag fun _ ht => relaxes_combine h tag (hp.mem_iff.mp ht)).antisymm
    (combine_relaxes h tag fun _ ht => relaxes_combine h' tag (hp.mem_iff.mpr ht))

end

/-! ## Presets -/

theorem nodup_presets : ∀ table ∈ Preset.all.map Preset.tags, (table.map Prod.fst).Nodup := by
  decide +kernel

theorem relaxes_everyPreset (preset : Preset) (tag : String) :
    Relaxes (Assoc.lookup tag (ofPreset (some preset))) (Assoc.lookup tag (ofPreset none)) :=
  relaxes_combine nodup_presets tag (List.mem_map_of_mem (by cases preset <;> decide))

end DocCheck.TagTable
