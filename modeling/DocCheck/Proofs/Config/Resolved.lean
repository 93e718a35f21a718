import DocCheck.Config.Resolve

/-!
# What a configuration that was read holds

The choice for the known tags lists each tag once, whatever the keys of the
mapping were: names that are equal in lower case are one tag.

Results:

* `bind_eq_ok`: a reader that succeeds succeeds at every step.
* `isTable_of_resolve`: a configuration that was read lists each tag once.
-/
namespace DocCheck

def Choice.IsTable : Choice → Prop
  | .annotations _ extra => (extra.map Prod.fst).Nodup
  | _ => True

namespace Config

variable {entries : List (Value × Value)} {choice : Choice} {r : RuleId}

theorem bind_eq_ok {α β : Type} {x : Except Error α} {f : α → Except Error β} {b : β}
    (h : (x >>= f) = .ok b) : ∃ a, x = .ok a ∧ f a = .ok b := by
  cases x with
  | error e => cases h
  | ok a => exact ⟨a, rfl, h⟩

theorem isTable_of_resolveChoice {value : Value} (h : resolveChoice r value = .ok (some choice)) :
    choice.IsTable := by
  unfold resolveChoice at h
  split at h
  · cases h
  · cases h
  · cases h
    trivial
  · split at h
    · cases h
      trivial
    · cases h
  · cases h

theorem nodup_of_resolveExtra {value : Value} {extra : TagTable}
    (h : resolveExtra value = .ok extra) : (extra.map Prod.fst).Nodup := by
  unfold resolveExtra at h
  split at h
  · cases h
    exact .nil
  · obtain ⟨tags, -, h⟩ := bind_eq_ok h
    cases h
    exact Assoc.keys_ofList_nodup tags
  · cases h

theorem isTable_of_resolveAnnotations {value : Value}
    (h : resolveAnnotations value = .ok (some choice)) : choice.IsTable := by
  unfold resolveAnnotations at h
  split at h
  · obtain ⟨keys, -, h⟩ := bind_eq_ok h
    split at h
    · obtain ⟨preset, -, h⟩ := bind_eq_ok h
      obtain ⟨extra, hextra, h⟩ := bind_eq_ok h
      cases h
      exact nodup_of_resolveExtra hextra
    · cases h
  · cases h
  · cases h
  · cases h
    exact .nil
  · split at h
    · cases h
      exact .nil
    · cases h
  · cases h

theorem isTable_of_resolveRule (h : resolveRule entries r = .ok (some choice)) :
    choice.IsTable := by
  unfold resolveRule at h
  split at h
  · cases h
  · split at h
    · exact isTable_of_resolveAnnotations h
    · exact isTable_of_resolveChoice h

theorem isTable_of_resolveRules {rules : List RuleId} {choices : List (RuleId × Choice)}
    (h : resolveRules entries rules = .ok choices) : ∀ p ∈ choices, p.2.IsTable := by
  induction rules generalizing choices with
  | nil =>
    cases h
    simp
  | cons r rules ih =>
    obtain ⟨choice, hchoice, h⟩ := bind_eq_ok h
    obtain ⟨rest, hrest, h⟩ := bind_eq_ok h
    cases choice with
    | none =>
      cases h
      exact ih hrest
    | some choice =>
      cases h
      simpa using ⟨isTable_of_resolveRule hchoice, fun a b => ih hrest (a, b)⟩

/-- A configuration that was read lists each tag once. -/
theorem isTable_of_resolve {config : Config} (h : resolve entries = .ok config)
    (hget : config.get r = some choice) : choice.IsTable := by
  have hentries : resolveEntries entries = .ok config := by
    unfold resolve at h
    cases he : resolveEntries entries with
    | ok c =>
      rw [he] at h
      exact h
    | error e =>
      rw [he] at h
      cases h
  obtain ⟨keys, -, h⟩ := bind_eq_ok hentries
  split at h
  · obtain ⟨choices, hchoices, h⟩ := bind_eq_ok h
    simp only at h
    split at h
    · cases h
    · cases h
      exact isTable_of_resolveRules hchoices _ (Assoc.mem_of_lookup hget)
  · cases h

end Config

end DocCheck
