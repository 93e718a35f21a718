import DocCheck.Text.Blank
import DocCheck.Text.Word

/-!
# White space and words

Words hold no white space, so a text is trimmed without cutting into a word, and
white space at the ends of a text never belongs to what is read from it.

Results:

* `isWord_of_isBlank`: no character is both white space and part of a word.
* `trim_blanks`: a text is its trimmed form between two runs of white space.
* `trim_trim`: a trimmed text has no white space left to trim.
* `trim_blanks_append`, `trim_append_blanks`: white space around a text does not change what it is
  trimmed to.
-/
namespace DocCheck.Text

/-- The white space above the ASCII range, one by one. -/
def wideBlanks : List Nat :=
  [0x85, 0xa0, 0x1680, 0x2000, 0x2001, 0x2002, 0x2003, 0x2004, 0x2005, 0x2006, 0x2007, 0x2008,
    0x2009, 0x200a, 0x2028, 0x2029, 0x202f, 0x205f, 0x3000]

theorem toNat_of_isBlank {c : Char} (h : isBlank c = true) :
    c.toNat ≤ 32 ∨ c.toNat ∈ wideBlanks := by
  simp only [isBlank, Bool.or_eq_true, Bool.and_eq_true, decide_eq_true_eq, beq_iff_eq] at h
  simp only [wideBlanks, List.mem_cons, List.not_mem_nil]
  omega

theorem covers_wideBlanks : ∀ n ∈ wideBlanks, covers nonAsciiRanges n = false := by
  decide +kernel

theorem le_toNat_of_val_le {c m : Char} (h : m.val ≤ c.val) (hm : 48 ≤ m.toNat) : 48 ≤ c.toNat :=
  Nat.le_trans hm (UInt32.le_iff_toNat_le.mp h)

theorem toNat_of_isAlphanum {c : Char} (h : c.isAlphanum = true) : 48 ≤ c.toNat := by
  rcases (Bool.or_eq_true c.isAlpha c.isDigit).mp h with h | h
  · rcases (Bool.or_eq_true c.isUpper c.isLower).mp h with h | h
    · have hc : 'A'.val ≤ c.val := (of_decide_eq_true h).1
      exact le_toNat_of_val_le hc (by decide)
    · have hc : 'a'.val ≤ c.val := of_decide_eq_true ((Bool.and_eq_true _ _).mp h).1
      exact le_toNat_of_val_le hc (by decide)
  · have hc : '0'.val ≤ c.val := of_decide_eq_true ((Bool.and_eq_true _ _).mp h).1
    exact le_toNat_of_val_le hc (by decide)

theorem isWord_of_isBlank {c : Char} (h : isBlank c = true) : isWord c = false := by
  unfold isWord
  rcases toNat_of_isBlank h with hle | hmem
  · have hne : c ≠ '_' := by
      rintro rfl
      exact absurd hle (by decide)
    have ha : c.isAlphanum = false := by
      rw [← Bool.not_eq_true]
      intro ha
      have := toNat_of_isAlphanum ha
      omega
    rw [if_pos (by omega), ha, beq_false_of_ne hne]
    rfl
  · have hge : ∀ n ∈ wideBlanks, ¬ n < 128 := by decide
    rw [if_neg (hge _ hmem)]
    exact covers_wideBlanks _ hmem

/-! ## Trimming -/

theorem isBlank_of_mem_takeWhile {c : Char} {cs : List Char} (h : c ∈ cs.takeWhile isBlank) :
    isBlank c = true :=
  List.all_eq_true.mp List.all_takeWhile c h

/-- A text is what `trim` leaves between two runs of white space. -/
theorem trim_blanks (cs : List Char) :
    ∃ before after, cs = before ++ trim cs ++ after ∧ (∀ c ∈ before, isBlank c = true) ∧
      ∀ c ∈ after, isBlank c = true := by
  refine ⟨cs.takeWhile isBlank, ((trimStart cs).reverse.takeWhile isBlank).reverse, ?_, ?_, ?_⟩
  · have h := congrArg List.reverse
      (List.takeWhile_append_dropWhile (p := isBlank) (l := (trimStart cs).reverse))
    rw [List.reverse_append, List.reverse_reverse] at h
    rw [List.append_assoc, trim, trimEnd, h, trimStart, List.takeWhile_append_dropWhile]
  · exact fun c hc => isBlank_of_mem_takeWhile hc
  · exact fun c hc => isBlank_of_mem_takeWhile (List.mem_reverse.mp hc)

theorem isBlank_of_dropWhile_eq {cs r : List Char} {c : Char} (h : cs.dropWhile isBlank = c :: r) :
    isBlank c = false := by
  have hd := List.head?_dropWhile_not isBlank cs
  rw [h] at hd
  simpa using hd

/-- The last character of a text without the white space at its end. -/
theorem isBlank_of_trimEnd_reverse {cs r : List Char} {c : Char}
    (h : (trimEnd cs).reverse = c :: r) : isBlank c = false := by
  rw [trimEnd, List.reverse_reverse] at h
  exact isBlank_of_dropWhile_eq h

theorem trimEnd_prefix (cs : List Char) : trimEnd cs <+: cs := by
  have hs := List.dropWhile_suffix (l := cs.reverse) isBlank
  simpa [trimEnd] using List.reverse_prefix.mpr hs

/-- The first character of a trimmed text. -/
theorem isBlank_of_trim_eq {cs r : List Char} {c : Char} (h : trim cs = c :: r) :
    isBlank c = false := by
  have hp : trim cs <+: trimStart cs := trimEnd_prefix (trimStart cs)
  rw [h] at hp
  obtain ⟨after, ha⟩ := hp
  have hd : cs.dropWhile isBlank = c :: (r ++ after) := ha.symm
  exact isBlank_of_dropWhile_eq hd

theorem trim_trim (cs : List Char) : trim (trim cs) = trim cs :=
  trim_eq_self (fun _ _ h => isBlank_of_trim_eq h) fun _ _ h => isBlank_of_trimEnd_reverse h

theorem mem_of_mem_trim {c : Char} {cs : List Char} (h : c ∈ trim cs) : c ∈ cs := by
  obtain ⟨before, after, he, -, -⟩ := trim_blanks cs
  rw [he]
  simp [h]

theorem trimEnd_eq_self {cs : List Char} (h : trim cs = cs) : trimEnd cs = cs := by
  rw [trimEnd, dropWhile_eq_self, List.reverse_reverse]
  intro c r hr
  rw [← h] at hr
  exact isBlank_of_trimEnd_reverse hr

theorem trim_blank_cons {c : Char} (h : isBlank c = true) (cs : List Char) :
    trim (c :: cs) = trim cs := by
  rw [trim, trim, trimStart, trimStart, List.dropWhile_cons_of_pos h]

theorem trim_blanks_append {bs : List Char} (h : ∀ c ∈ bs, isBlank c = true) (cs : List Char) :
    trim (bs ++ cs) = trim cs := by
  rw [trim, trim, trimStart, trimStart, List.dropWhile_append_of_pos h]

theorem trimEnd_append_blanks {bs : List Char} (h : ∀ c ∈ bs, isBlank c = true) (cs : List Char) :
    trimEnd (cs ++ bs) = trimEnd cs := by
  rw [trimEnd, trimEnd, List.reverse_append, List.dropWhile_append_of_pos]
  exact fun c hc => h c (List.mem_reverse.mp hc)

theorem trim_append_blanks {bs : List Char} (h : ∀ c ∈ bs, isBlank c = true) (cs : List Char) :
    trim (cs ++ bs) = trim cs := by
  have hbs : (bs ++ []).dropWhile isBlank = [].dropWhile isBlank := List.dropWhile_append_of_pos h
  rw [List.append_nil] at hbs
  rw [trim, trim, trimStart, trimStart, List.dropWhile_append]
  split
  · rename_i hcs
    rw [hbs, List.isEmpty_iff.mp hcs, List.dropWhile_nil]
  · exact trimEnd_append_blanks h _

theorem trim_trimEnd (cs : List Char) : trim (trimEnd cs) = trim cs := by
  have hcs : cs = trimEnd cs ++ (cs.reverse.takeWhile isBlank).reverse := by
    have h := congrArg List.reverse
      (List.takeWhile_append_dropWhile (p := isBlank) (l := cs.reverse))
    rw [List.reverse_append, List.reverse_reverse] at h
    exact h.symm
  conv => rhs; rw [hcs]
  exact (trim_append_blanks (fun c hc => isBlank_of_mem_takeWhile (List.mem_reverse.mp hc)) _).symm

/-- A text that starts with a character of its own is trimmed at its end only. -/
theorem trim_cons {c : Char} (h : isBlank c = false) (cs : List Char) :
    trim (c :: cs) = trimEnd (c :: cs) := by
  rw [trim, trimStart, List.dropWhile_cons_of_neg (by simp [h])]

/-- White space is taken from the end of a text only up to a character of its own. -/
theorem trimEnd_append_cons {c : Char} (h : isBlank c = false) (before after : List Char) :
    trimEnd (before ++ c :: after) = before ++ c :: trimEnd after := by
  rw [trimEnd, trimEnd, List.reverse_append, List.reverse_cons, List.append_assoc,
    List.dropWhile_append]
  split
  · rename_i hafter
    rw [List.isEmpty_iff.mp hafter, List.singleton_append,
      List.dropWhile_cons_of_neg (by simp [h])]
    simp
  · simp

/-- A block between two characters of its own keeps its place when a text is trimmed. -/
theorem trim_block {c d : Char} (hc : isBlank c = false) (hd : isBlank d = false)
    (cs rest : List Char) : trim (c :: cs ++ d :: rest) = c :: cs ++ d :: trimEnd rest := by
  rw [List.cons_append, trim_cons hc, ← List.cons_append, trimEnd_append_cons hd]

/-- What stands at the end of a trimmed text is white space and its own trimmed form. -/
theorem exists_blanks_of_trim {before rest : List Char}
    (h : trim (before ++ rest) = before ++ rest) :
    ∃ blanks, rest = blanks ++ trim rest ∧ ∀ c ∈ blanks, isBlank c = true := by
  have hrest : rest.takeWhile isBlank ++ trimStart rest = rest := List.takeWhile_append_dropWhile
  have hend : trimEnd (trimStart rest) = trimStart rest := by
    rw [trimEnd, dropWhile_eq_self, List.reverse_reverse]
    intro c r hr
    -- the last character of the part is that of the text
    have hlast : (trim (before ++ rest)).reverse =
        c :: (r ++ (before ++ rest.takeWhile isBlank).reverse) := by
      rw [h, ← hrest, ← List.append_assoc, List.reverse_append, hr, List.cons_append, hrest]
    exact isBlank_of_trimEnd_reverse hlast
  refine ⟨rest.takeWhile isBlank, ?_, fun c hc => isBlank_of_mem_takeWhile hc⟩
  rw [trim, hend, hrest]

/-! ## Parts with a separator between them -/

theorem mem_of_mem_intercalate {α : Type} {sep : List α} {a : α} {parts : List (List α)}
    (h : a ∈ sep.intercalate parts) : a ∈ sep ∨ ∃ part ∈ parts, a ∈ part := by
  induction parts with
  | nil => simp at h
  | cons part parts ih =>
    cases parts with
    | nil => exact .inr ⟨part, by simp, by simpa using h⟩
    | cons q parts =>
      rw [List.intercalate_cons_cons, List.mem_append, List.mem_append] at h
      obtain (h | h) | h := h
      · exact .inr ⟨part, by simp, h⟩
      · exact .inl h
      · obtain h | ⟨p, hp, h⟩ := ih h
        · exact .inl h
        · exact .inr ⟨p, List.mem_cons_of_mem _ hp, h⟩

end DocCheck.Text
