import DocCheck.Text.Lower
import DocCheck.Text.Word

/-!
# The case of ASCII letters

Two texts that differ only in the case of ASCII letters have one lower-case form.
The letters on their own are mapped alike. A capital sigma between them looks only
at whether its neighbours are cased, and letters of either case are.

Results:

* `eq_or_isAlpha`: characters of one lower-case form are equal or both letters.
* `isWord_congr`: letters of either case belong to words.
* `lower_congr`: texts that differ in letter case have one lower-case form.
* `toLower_of_head_lower`: the first letter of a text, by that of its lower-case form.
-/
namespace DocCheck.Text

/-! ## Letters -/

/-- What holds of the first 128 characters. -/
theorem forall_ascii {P : Char → Prop} (h : ∀ n < 128, P (Char.ofNat n)) {c : Char}
    (hc : c.toNat < 128) : P c := by
  rw [← Char.ofNat_toNat c]
  exact h _ hc

theorem toNat_lt_of_isAlpha {c : Char} (h : c.isAlpha = true) : c.toNat < 128 :=
  toNat_lt_of_isAlphanum ((Bool.or_eq_true _ _).mpr (.inl h))

theorem isAlpha_of_isUpper {c : Char} (h : c.isUpper = true) : c.isAlpha = true :=
  (Bool.or_eq_true _ _).mpr (.inl h)

theorem isAlpha_toLower {c : Char} (h : c.isUpper = true) : c.toLower.isAlpha = true := by
  have hletters : ∀ n < 128, (Char.ofNat n).isUpper = true →
      (Char.ofNat n).toLower.isAlpha = true := by decide +kernel
  exact forall_ascii (P := fun c => c.isUpper = true → c.toLower.isAlpha = true) hletters
    (toNat_lt_of_isAlpha (isAlpha_of_isUpper h)) h

theorem toLower_of_not_isUpper {c : Char} (h : ¬ c.isUpper = true) : c.toLower = c := by
  unfold Char.toLower
  split
  · rename_i hupper
    exact absurd (decide_eq_true hupper) h
  · rfl

theorem toUpper_of_not_isLower {c : Char} (h : ¬ c.isLower = true) : c.toUpper = c := by
  unfold Char.toUpper
  split
  · rename_i hlower
    have hbounds := And.intro (decide_eq_true hlower.1) (decide_eq_true hlower.2)
    exact absurd (Bool.and_eq_true_iff.mpr hbounds) h
  · rfl

theorem toLower_toUpper (c : Char) : c.toUpper.toLower = c.toLower := by
  by_cases h : c.isLower = true
  · have hletters : ∀ n < 128, (Char.ofNat n).toUpper.toLower = (Char.ofNat n).toLower := by
      decide +kernel
    exact forall_ascii (P := fun c => c.toUpper.toLower = c.toLower) hletters
      (toNat_lt_of_isAlpha ((Bool.or_eq_true _ _).mpr (.inr h)))
  · rw [toUpper_of_not_isLower h]

theorem isUpper_toUpper {c : Char} (hc : c.toNat < 128) (h : c.toLower.isAlpha = true) :
    c.toUpper.isUpper = true := by
  have hletters : ∀ n < 128, (Char.ofNat n).toLower.isAlpha = true →
      (Char.ofNat n).toUpper.isUpper = true := by decide +kernel
  exact forall_ascii (P := fun c => c.toLower.isAlpha = true → c.toUpper.isUpper = true) hletters
    hc h

/-- Characters of one lower-case form are equal, or both are letters. -/
theorem eq_or_isAlpha {c d : Char} (h : c.toLower = d.toLower) :
    c = d ∨ c.isAlpha = true ∧ d.isAlpha = true := by
  by_cases hc : c.isUpper = true
  · by_cases hd : d.isUpper = true
    · exact .inr ⟨isAlpha_of_isUpper hc, isAlpha_of_isUpper hd⟩
    · rw [toLower_of_not_isUpper hd] at h
      exact .inr ⟨isAlpha_of_isUpper hc, h ▸ isAlpha_toLower hc⟩
  · rw [toLower_of_not_isUpper hc] at h
    by_cases hd : d.isUpper = true
    · exact .inr ⟨h ▸ isAlpha_toLower hd, isAlpha_of_isUpper hd⟩
    · exact .inl (h.trans (toLower_of_not_isUpper hd))

/-- Whatever all letters have in common does not depend on their case. -/
theorem congr_of_isAlpha {α : Type} {f : Char → α} {a : α}
    (hf : ∀ c : Char, c.isAlpha = true → f c = a) {c d : Char} (h : c.toLower = d.toLower) :
    f c = f d := by
  obtain rfl | ⟨hc, hd⟩ := eq_or_isAlpha h
  · rfl
  · rw [hf c hc, hf d hd]

theorem isWord_congr {c d : Char} (h : c.toLower = d.toLower) : isWord c = isWord d :=
  congr_of_isAlpha
    (fun c hc => isWord_of_isAlphanum c ((Bool.or_eq_true _ _).mpr (.inl hc))) h

/-! ## Lower case of a text -/

theorem lowerChar_congr {c d : Char} (h : c.toLower = d.toLower) : lowerChar c = lowerChar d := by
  obtain rfl | ⟨hc, hd⟩ := eq_or_isAlpha h
  · rfl
  · rw [lowerChar, lowerChar, if_pos (toNat_lt_of_isAlpha hc), if_pos (toNat_lt_of_isAlpha hd), h]

/-- Letters are cased, and none is looked through. -/
theorem covers_letter {c : Char} (h : c.isAlpha = true) :
    covers casedRanges c.toNat = true ∧ covers ignorableRanges c.toNat = false := by
  have hletters : ∀ n < 128, (Char.ofNat n).isAlpha = true →
      covers casedRanges (Char.ofNat n).toNat = true ∧
        covers ignorableRanges (Char.ofNat n).toNat = false := by decide +kernel
  exact forall_ascii (P := fun c => c.isAlpha = true → covers casedRanges c.toNat = true ∧
    covers ignorableRanges c.toNat = false) hletters (toNat_lt_of_isAlpha h) h

theorem dropWhile_congr {p : Char → Bool} (hp : ∀ c d : Char, c.toLower = d.toLower → p c = p d) :
    ∀ {cs ds : List Char}, cs.map Char.toLower = ds.map Char.toLower →
      (cs.dropWhile p).map Char.toLower = (ds.dropWhile p).map Char.toLower
  | [], [], _ => rfl
  | c :: cs, d :: ds, h => by
    obtain ⟨hc, hcs⟩ := List.cons.inj h
    rw [List.dropWhile_cons, List.dropWhile_cons, hp c d hc]
    split
    · exact dropWhile_congr hp hcs
    · exact h

/-- The first character that is not looked through is cased. -/
def meetsCased (cs : List Char) : Bool :=
  (cs.dropWhile fun c => covers ignorableRanges c.toNat).head?.any fun c =>
    covers casedRanges c.toNat

theorem sigmaIsFinal_eq (before after : List Char) :
    sigmaIsFinal before after = (meetsCased before && !meetsCased after) := by
  simp only [sigmaIsFinal, meetsCased]
  cases before.dropWhile _ <;> cases after.dropWhile _ <;> rfl

theorem meetsCased_congr {cs ds : List Char} (h : cs.map Char.toLower = ds.map Char.toLower) :
    meetsCased cs = meetsCased ds := by
  have hdrop : (cs.dropWhile fun c => covers ignorableRanges c.toNat).map Char.toLower =
      (ds.dropWhile fun c => covers ignorableRanges c.toNat).map Char.toLower :=
    dropWhile_congr (fun _ _ => congr_of_isAlpha fun _ hc => (covers_letter hc).2) h
  rw [meetsCased, meetsCased]
  cases hcs : cs.dropWhile fun c => covers ignorableRanges c.toNat with
  | nil =>
    rw [hcs] at hdrop
    rw [List.map_eq_nil_iff.mp hdrop.symm]
  | cons c r =>
    rw [hcs] at hdrop
    obtain ⟨d, r', hds, hd, -⟩ := List.map_eq_cons_iff.mp hdrop.symm
    rw [hds]
    exact congr_of_isAlpha (f := fun c => covers casedRanges c.toNat)
      (fun _ hc => (covers_letter hc).1) hd.symm

/-- The lower-case form does not depend on the case of letters, in the text and before it. -/
theorem lowerFrom_congr : ∀ {before before' cs ds : List Char},
    before.map Char.toLower = before'.map Char.toLower →
    cs.map Char.toLower = ds.map Char.toLower → lowerFrom before cs = lowerFrom before' ds
  | _, _, [], [], _, _ => rfl
  | before, before', c :: cs, d :: ds, hbefore, h => by
    obtain ⟨hc, hcs⟩ := List.cons.inj h
    have hlater : lowerFrom (c :: before) cs = lowerFrom (d :: before') ds :=
      lowerFrom_congr (by rw [List.map_cons, List.map_cons, hc, hbefore]) hcs
    rw [lowerFrom, lowerFrom, hlater]
    obtain rfl | ⟨hcl, hdl⟩ := eq_or_isAlpha hc
    · rw [sigmaIsFinal_eq, sigmaIsFinal_eq, meetsCased_congr hbefore, meetsCased_congr hcs]
    · -- the two characters with lower-case forms of their own are not ASCII letters
      have hne : ∀ {e : Char}, e.isAlpha = true → (e == 'Σ') = false ∧ (e == 'İ') = false := by
        intro e he
        have hlt := toNat_lt_of_isAlpha he
        refine ⟨beq_false_of_ne ?_, beq_false_of_ne ?_⟩ <;>
        · rintro rfl
          exact absurd hlt (by decide)
      simp only [hne hcl, hne hdl, lowerChar_congr hc, Bool.false_eq_true, if_false]

/-- Texts that differ in the case of ASCII letters have one lower-case form. -/
theorem lower_congr {cs ds : List Char} (h : cs.map Char.toLower = ds.map Char.toLower) :
    lower (String.ofList cs) = lower (String.ofList ds) := by
  rw [lower, lower, String.toList_ofList, String.toList_ofList, lowerFrom_congr rfl h]

/-! ## First letters -/

/-- No run of letters above ASCII is mapped into ASCII, except for one of a single letter. -/
theorem lowerRuns_ascii : (lowerRuns.all fun run =>
    decide (128 ≤ (run.1 : Int) + run.2.2.2 ∨
      run.1 = run.2.1 ∧ (run.1 : Int) + run.2.2.2 = 107)) = true := by
  decide +kernel

theorem toNat_ofNat (n : Nat) : (Char.ofNat n).toNat = n ∨ Char.ofNat n = Char.ofNat 0 := by
  by_cases h : n.isValidChar
  · have hof : Char.ofNat n = Char.ofNatAux n h := dif_pos h
    exact .inl (hof ▸ rfl)
  · exact .inr (dif_neg h)

/-- Only `k` is the lower-case form of a character above ASCII, among the ASCII letters. -/
theorem toNat_lt_of_lowerChar {c : Char} (h : (lowerChar c).isAlpha = true)
    (hk : lowerChar c ≠ 'k') : c.toNat < 128 := by
  refine Decidable.byContradiction fun hc => ?_
  have hlt := toNat_lt_of_isAlpha h
  unfold lowerChar at h hk hlt
  rw [if_neg hc] at h hk hlt
  split at h
  · rename_i first last step delta hrun
    have hrange := List.all_eq_true.mp lowerRuns_ascii _ (List.mem_of_find?_eq_some hrun)
    have hin := List.find?_some hrun
    simp only [decide_eq_true_eq, Bool.and_eq_true] at hrange hin
    simp only [hrun] at hk hlt
    obtain hnat | hnul := toNat_ofNat (c.toNat + delta).toNat
    · rcases hrange with habove | ⟨hlast, hcode⟩
      · omega
      · have hnat : (c.toNat + delta).toNat = 107 := by omega
        rw [hnat] at hk
        exact hk rfl
    · rw [hnul] at h
      cases h
  · exact hc (toNat_lt_of_isAlpha h)

/-- A text starts with the ASCII letter, in either case, that its lower-case form starts with;
`k` and `i` come from other characters as well. -/
theorem toLower_of_head_lower {s : String} {c d : Char} {r : List Char} (hs : s.toList = c :: r)
    (h : (lower s).toList.head? = some d) (hd : d.isAlpha = true) (hk : d ≠ 'k') (hi : d ≠ 'i') :
    c.toNat < 128 ∧ c.toLower = d := by
  rw [lower, String.toList_ofList, hs, lowerFrom] at h
  split at h
  · split at h <;>
    · cases h
      exact absurd hd (by decide)
  · split at h
    · cases h
      exact absurd rfl hi
    · obtain rfl : lowerChar c = d := Option.some.inj h
      have hc := toNat_lt_of_lowerChar hd hk
      exact ⟨hc, (if_pos hc).symm⟩

end DocCheck.Text
