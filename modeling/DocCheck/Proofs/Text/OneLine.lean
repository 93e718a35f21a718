import Mathlib.Data.List.Basic
import DocCheck.Proofs.Decimal.Digits
import DocCheck.Proofs.Text.Blank
import DocCheck.Text.Lower

/-!
# Texts on one line

A text on one line holds no line feed. Words hold none, since a line feed is
white space; the lower-case form of a text has a line feed only where the text
has one, and written numbers are made of digits.

Results:

* `isOneLine_append`, `isOneLine_intercalate`: texts that are put together.
* `isOneLine_lower`: the lower-case form of a text on one line.
* `isOneLine_word`: the words of a text.
* `plain_int`: a written number holds neither a line feed nor a colon.
-/
namespace DocCheck

/-- The text holds no line feed. -/
def IsOneLine (s : String) : Prop := '\n' ∉ s.toList

instance (s : String) : Decidable (IsOneLine s) := inferInstanceAs (Decidable (¬ _))

namespace Text

theorem isOneLine_append {s t : String} : IsOneLine (s ++ t) ↔ IsOneLine s ∧ IsOneLine t := by
  simp [IsOneLine, not_or]

theorem isOneLine_ofList {cs : List Char} : IsOneLine (String.ofList cs) ↔ '\n' ∉ cs := by
  rw [IsOneLine, String.toList_ofList]

theorem isOneLine_intercalate {sep : String} {parts : List String} (hsep : IsOneLine sep)
    (h : ∀ part ∈ parts, IsOneLine part) : IsOneLine (sep.intercalate parts) := by
  rw [IsOneLine, String.toList_intercalate]
  intro hm
  obtain hm | ⟨part, hpart, hm⟩ := mem_of_mem_intercalate hm
  · exact hsep hm
  · obtain ⟨s, hs, rfl⟩ := List.mem_map.mp hpart
    exact h s hs hm

/-! ## Classes of characters -/

theorem isBlank_newline : isBlank '\n' = true := by decide

theorem not_isBlank_of_mem_wordsFrom {run cs word : List Char}
    (hrun : ∀ c ∈ run, isBlank c = false) (hw : word ∈ wordsFrom run cs) :
    ∀ c ∈ word, isBlank c = false := by
  have hreverse : ∀ {run : List Char}, (∀ c ∈ run, isBlank c = false) →
      ∀ c ∈ run.reverse, isBlank c = false := fun h c hc => h c (List.mem_reverse.mp hc)
  induction cs generalizing run with
  | nil =>
    rw [wordsFrom] at hw
    split at hw
    · cases hw
    · cases List.mem_singleton.mp hw
      exact hreverse hrun
  | cons c cs ih =>
    rw [wordsFrom] at hw
    split at hw
    · split at hw
      · exact ih (by simp) hw
      · rcases List.mem_cons.mp hw with rfl | hw
        · exact hreverse hrun
        · exact ih (by simp) hw
    · rename_i hc
      refine ih ?_ hw
      intro d hd
      rcases List.mem_cons.mp hd with rfl | hd
      · simpa using hc
      · exact hrun d hd

theorem isOneLine_word {cs word : List Char} (h : word ∈ words cs) :
    IsOneLine (String.ofList word) := by
  rw [isOneLine_ofList]
  intro hm
  have hb := not_isBlank_of_mem_wordsFrom (by simp) h _ hm
  rw [isBlank_newline] at hb
  cases hb

/-! ## Upper and lower case -/

/-- No run of letters is mapped down to control characters. -/
theorem lowerRuns_above : (lowerRuns.all fun (first, _, _, delta) =>
    decide (10 < (first : Int) + delta)) = true := by
  decide +kernel

theorem toLower_ne_newline {c : Char} (h : c ≠ '\n') : c.toLower ≠ '\n' := by
  unfold Char.toLower
  split
  · rename_i hupper
    intro he
    have hle : c.val.toNat ≤ 90 := UInt32.le_iff_toNat_le.mp hupper.2
    have hval : (c.val + ('a'.val - 'A'.val)).toNat = 10 := congrArg (fun d => d.val.toNat) he
    rw [UInt32.toNat_add] at hval
    have hshift : ('a'.val - 'A'.val).toNat = 32 := by decide
    omega
  · exact h

theorem toUpper_ne_newline {c : Char} (h : c ≠ '\n') : c.toUpper ≠ '\n' := by
  unfold Char.toUpper
  split
  · rename_i hlower
    intro he
    have hge : 97 ≤ c.val.toNat := UInt32.le_iff_toNat_le.mp hlower.1
    have hle : c.val.toNat ≤ 122 := UInt32.le_iff_toNat_le.mp hlower.2
    have hval : (c.val + ('A'.val - 'a'.val)).toNat = 10 := congrArg (fun d => d.val.toNat) he
    rw [UInt32.toNat_add] at hval
    have hshift : ('A'.val - 'a'.val).toNat = 4294967264 := by decide
    omega
  · exact h

theorem ofNat_ne_newline {n : Nat} (h : 10 < n) : Char.ofNat n ≠ '\n' := by
  by_cases hv : n.isValidChar
  · have hof : Char.ofNat n = Char.ofNatAux n hv := dif_pos hv
    have hnat : (Char.ofNatAux n hv).toNat = n := rfl
    intro he
    have hn : (Char.ofNat n).toNat = 10 := congrArg Char.toNat he
    rw [hof, hnat] at hn
    omega
  · have hof : Char.ofNat n = Char.ofNat 0 := dif_neg hv
    rw [hof]
    decide

theorem lowerChar_ne_newline {c : Char} (h : c ≠ '\n') : lowerChar c ≠ '\n' := by
  unfold lowerChar
  split
  · exact toLower_ne_newline h
  · split
    · rename_i hrun
      have habove := List.all_eq_true.mp lowerRuns_above _ (List.mem_of_find?_eq_some hrun)
      have hin := List.find?_some hrun
      simp only [decide_eq_true_eq, Bool.and_eq_true] at habove hin
      exact ofNat_ne_newline (by omega)
    · exact h

theorem newline_lowerFrom {before cs : List Char} (h : '\n' ∉ cs) :
    '\n' ∉ lowerFrom before cs := by
  induction cs generalizing before with
  | nil => simp [lowerFrom]
  | cons c cs ih =>
    simp only [List.mem_cons, not_or] at h
    simp only [lowerFrom, List.mem_append, not_or]
    refine ⟨?_, ih h.2⟩
    -- a capital sigma and an `I` with a dot have lower-case forms of their own
    split
    · split <;> decide +kernel
    · split
      · decide +kernel
      · simpa using (lowerChar_ne_newline (Ne.symm h.1)).symm

theorem isOneLine_lower {s : String} (h : IsOneLine s) : IsOneLine (lower s) := by
  rw [lower, isOneLine_ofList]
  exact newline_lowerFrom h

/-! ## Numbers -/

/-- The text holds neither a line feed nor a colon. -/
def IsPlain (s : String) : Prop := '\n' ∉ s.toList ∧ ':' ∉ s.toList

instance (s : String) : Decidable (IsPlain s) := inferInstanceAs (Decidable (_ ∧ _))

theorem plain_nat (n : Nat) : IsPlain (toString n) := by
  constructor <;>
  · intro hm
    exact absurd (Decimal.isDigit_of_mem_nat hm) (by decide)

theorem plain_int (n : Int) : IsPlain (toString n) := by
  constructor <;>
  · intro hm
    exact absurd (Decimal.mem_int hm) (by decide)

end Text

end DocCheck
