import DocCheck.Json.Reader

/-!
# Strings of JSON

A character of a string is written as itself or as an escape in ASCII, and what is
written for it is read as that character. Above the first 65536 characters an escape
is a pair of units, which is put together again.

Results:

* `unit_hexDigits`: the digits of a unit are read back as the unit.
* `stringRest_escapeChar`: what is written for a character is read as the character.
* `stringRest_escaped`: a string is read up to its closing quote, whatever is in it.
* `isAscii_quoted`: a string is written in ASCII.
-/
namespace DocCheck.Json

/-! ## Units -/

theorem hexDigit_spec : ∀ n < 16, hexValue? (hexDigit n) = some n ∧ (hexDigit n).toNat < 128 := by
  decide

theorem hexDigits_four (n : Nat) : hexDigits 4 n =
    [hexDigit (n / 4096 % 16), hexDigit (n / 256 % 16), hexDigit (n / 16 % 16),
      hexDigit (n % 16)] := by
  simp [hexDigits, Nat.div_div_eq_div_mul]

/-- The digits of a unit are read back as the unit. -/
theorem unit_hexDigits {n : Nat} (h : n < 0x10000) (rest : List Char) :
    unit? (hexDigits 4 n ++ rest) = some (n, rest) := by
  have hdigit (k : Nat) : hexValue? (hexDigit (k % 16)) = some (k % 16) :=
    (hexDigit_spec _ (Nat.mod_lt _ (by decide))).1
  have hsum : ((n / 4096 % 16 * 16 + n / 256 % 16) * 16 + n / 16 % 16) * 16 + n % 16 = n := by
    omega
  rw [hexDigits_four]
  simp only [List.cons_append, List.nil_append, unit?, hdigit, Option.bind_eq_bind,
    Option.bind_some, hsum]

/-! ## Escapes -/

theorem escape_unit {n : Nat} (h : n < 0xd800 ∨ 0xe000 ≤ n ∧ n < 0x10000) (rest : List Char) :
    escape? ('u' :: hexDigits 4 n ++ rest) = some (Char.ofNat n, rest) := by
  simp only [List.cons_append, escape?, unit_hexDigits (by omega : n < 0x10000),
    Option.bind_eq_bind, Option.bind_some]
  rw [if_neg (by simp; omega), if_neg (by simp; omega)]

/-- The two units of a character are read together. -/
theorem escape_pair {m : Nat} (h : m < 0x100000) (rest : List Char) :
    escape? ('u' :: hexDigits 4 (0xd800 + m / 0x400) ++
        (escapeUnit (0xdc00 + m % 0x400) ++ rest)) = some (Char.ofNat (0x10000 + m), rest) := by
  have hhigh : 0xd800 + m / 0x400 < 0xdc00 := by omega
  have hlow : 0xdc00 + m % 0x400 < 0xe000 := by omega
  have hsum : 0x10000 + (0xd800 + m / 0x400 - 0xd800) * 0x400 + (0xdc00 + m % 0x400 - 0xdc00) =
      0x10000 + m := by
    omega
  simp only [List.cons_append, escape?, unit_hexDigits (by omega : 0xd800 + m / 0x400 < 0x10000),
    Option.bind_eq_bind, Option.bind_some]
  rw [if_pos (by simp; omega)]
  simp only [escapeUnit, List.cons_append, unit_hexDigits (by omega : 0xdc00 + m % 0x400 < 0x10000),
    Option.bind_some, hsum]
  rw [if_pos (by simp; omega)]

/-! ## Strings -/

theorem isAscii_of_all {cs : List Char} (h : (cs.all fun c => c.toNat < 128) = true) :
    ∀ c ∈ cs, c.toNat < 128 :=
  fun c hc => of_decide_eq_true (List.all_eq_true.mp h c hc)

theorem isAscii_escapeUnit (n : Nat) : ∀ d ∈ escapeUnit n, d.toNat < 128 := by
  have hdigit (k : Nat) : (hexDigit (k % 16)).toNat < 128 :=
    (hexDigit_spec _ (Nat.mod_lt _ (by decide))).2
  rw [escapeUnit, hexDigits_four]
  simp [hdigit]

/-- A character is written as itself, or as an escape that is read as the character. -/
theorem escapeChar_cases (c : Char) :
    escapeChar c = [c] ∧ c ≠ '"' ∧ c ≠ '\\' ∧ 0x20 ≤ c.toNat ∧ c.toNat < 128 ∨
      ∃ escape, escapeChar c = '\\' :: escape ∧ (∀ d ∈ escape, d.toNat < 128) ∧
        ∀ rest, escape? (escape ++ rest) = some (c, rest) := by
  have hof {n : Nat} (h : (c.toNat == n) = true) : c = Char.ofNat n := by
    rw [← eq_of_beq h, Char.ofNat_toNat]
  have hvalid : c.toNat < 0xd800 ∨ 0xe000 ≤ c.toNat ∧ c.toNat < 0x110000 := by
    rcases c.valid with h | h
    · exact .inl h
    · exact .inr ⟨h.1, h.2⟩
  unfold escapeChar
  dsimp only
  split
  · rename_i h
    exact .inr ⟨['"'], rfl, isAscii_of_all rfl, fun rest => by rw [eq_of_beq h]; rfl⟩
  rename_i hquote
  split
  · rename_i h
    exact .inr ⟨['\\'], rfl, isAscii_of_all rfl, fun rest => by rw [eq_of_beq h]; rfl⟩
  rename_i hbackslash
  split
  · rename_i h
    exact .inr ⟨['b'], rfl, isAscii_of_all rfl, fun rest => by rw [hof h]; rfl⟩
  split
  · rename_i h
    exact .inr ⟨['t'], rfl, isAscii_of_all rfl, fun rest => by rw [hof h]; rfl⟩
  split
  · rename_i h
    exact .inr ⟨['n'], rfl, isAscii_of_all rfl, fun rest => by rw [hof h]; rfl⟩
  split
  · rename_i h
    exact .inr ⟨['f'], rfl, isAscii_of_all rfl, fun rest => by rw [hof h]; rfl⟩
  split
  · rename_i h
    exact .inr ⟨['r'], rfl, isAscii_of_all rfl, fun rest => by rw [hof h]; rfl⟩
  split
  · rename_i h
    simp only [Bool.and_eq_true, decide_eq_true_eq] at h
    exact .inl ⟨rfl, by simpa using hquote, by simpa using hbackslash, h.1, by omega⟩
  split
  · rename_i h
    have hunit : c.toNat < 0xd800 ∨ 0xe000 ≤ c.toNat ∧ c.toNat < 0x10000 := by omega
    refine .inr ⟨_, rfl, fun d hd => isAscii_escapeUnit _ d (List.mem_cons_of_mem _ hd), ?_⟩
    intro rest
    have hread := escape_unit hunit rest
    rwa [Char.ofNat_toNat] at hread
  · rename_i h
    have hm : 0x10000 + (c.toNat - 0x10000) = c.toNat := by omega
    refine .inr ⟨_, rfl, ?_, fun rest => ?_⟩
    · intro d hd
      rcases List.mem_append.mp hd with hd | hd
      · exact isAscii_escapeUnit _ d (List.mem_cons_of_mem _ hd)
      · exact isAscii_escapeUnit _ d hd
    · have hpair := escape_pair (by omega : c.toNat - 0x10000 < 0x100000) rest
      rw [hm, Char.ofNat_toNat] at hpair
      simpa using hpair

/-- What is written for a character is read as the character. -/
theorem stringRest_escapeChar (n : Nat) (done : List Char) (c : Char) (rest : List Char) :
    stringRest (n + 1) done (escapeChar c ++ rest) = stringRest n (c :: done) rest := by
  rcases escapeChar_cases c with ⟨he, hquote, hbackslash, hlow, -⟩ | ⟨escape, he, -, hread⟩
  · rw [he, List.cons_append, List.nil_append, stringRest, beq_false_of_ne hquote,
      beq_false_of_ne hbackslash]
    simp [Nat.not_lt.mpr hlow]
  · rw [he, List.cons_append, stringRest]
    simp [hread]

theorem escapeChar_ne_nil (c : Char) : escapeChar c ≠ [] := by
  rcases escapeChar_cases c with ⟨he, -⟩ | ⟨escape, he, -⟩ <;> simp [he]

theorem length_le_escaped (cs : List Char) : cs.length ≤ (cs.flatMap escapeChar).length := by
  induction cs with
  | nil => simp
  | cons c cs ih =>
    have := List.length_pos_iff.mpr (escapeChar_ne_nil c)
    simp only [List.flatMap_cons, List.length_append, List.length_cons]
    omega

/-- A string is read up to its closing quote. -/
theorem stringRest_escaped {n : Nat} {cs : List Char} (h : cs.length < n)
    (done rest : List Char) :
    stringRest n done (cs.flatMap escapeChar ++ '"' :: rest) =
      some (String.ofList (done.reverse ++ cs), rest) := by
  induction cs generalizing n done with
  | nil =>
    obtain ⟨n, rfl⟩ : ∃ m, n = m + 1 := ⟨n - 1, by simp at h; omega⟩
    simp [stringRest]
  | cons c cs ih =>
    rw [List.length_cons] at h
    obtain ⟨n, rfl⟩ : ∃ m, n = m + 1 := ⟨n - 1, by omega⟩
    rw [List.flatMap_cons, List.append_assoc, stringRest_escapeChar, ih (by omega)]
    simp

theorem toList_quoted (s : String) :
    (quoted s).toList = '"' :: (s.toList.flatMap escapeChar ++ ['"']) := by
  rw [quoted, String.toList_ofList]
  rfl

/-- A quote, a line feed, an accented letter and a pair of units. -/
example : quoted "\"\né😀" = "\"\\\"\\n\\u00e9\\ud83d\\ude00\"" := by decide

/-- A string is written in ASCII, whatever is in it. -/
theorem isAscii_quoted (s : String) : ∀ c ∈ (quoted s).toList, c.toNat < 128 := by
  have hquote : '"'.toNat < 128 := by decide
  have hchar : ∀ c : Char, ∀ d ∈ escapeChar c, d.toNat < 128 := by
    intro c d hd
    rcases escapeChar_cases c with ⟨he, -, -, -, hc⟩ | ⟨escape, he, hescape, -⟩
    · rw [he, List.mem_singleton] at hd
      rwa [hd]
    · rw [he] at hd
      rcases List.mem_cons.mp hd with rfl | hd
      · decide
      · exact hescape d hd
  intro c hc
  rw [toList_quoted] at hc
  rcases List.mem_cons.mp hc with rfl | hc
  · exact hquote
  rcases List.mem_append.mp hc with hc | hc
  · obtain ⟨d, -, hd⟩ := List.mem_flatMap.mp hc
    exact hchar d c hd
  · rw [List.mem_singleton.mp hc]
    exact hquote

end DocCheck.Json
