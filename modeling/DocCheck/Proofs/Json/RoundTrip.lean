import DocCheck.Proofs.Json.Double
import DocCheck.Proofs.Json.Escape

/-!
# Reading what was written

A value that is written over several lines is read as the value again. The reader
goes down into arrays and objects as the writer does: it is enough that the parts of
a value are read back for the value to be read back. What is read for a double is a
double, and all else is the same.

Results:

* `ReadsAs.arr`, `ReadsAs.obj`: an array and an object are read by their parts.
* `ReadsAs.parse`: a text is read as its value.
* `isAscii_pretty`: a value is written in ASCII.
-/
namespace DocCheck.Json

/-- A value is read as another one, at whatever level it was written and whatever stands
behind it. The reader needs as many calls as the text has characters. -/
def ReadsAs (v w : Json) : Prop :=
  ∀ level n rest, (prettyAt level v).toList.length < n → Ends rest →
    value? n ((prettyAt level v).toList ++ rest) = some (w, rest)

/-- A field is read as another one of the same name. -/
def FieldReadsAs (f g : String × Json) : Prop := f.1 = g.1 ∧ ReadsAs f.2 g.2

/-! ## Blanks -/

theorem toList_lineAt (level : Nat) :
    (lineAt level).toList = '\n' :: List.replicate (2 * level) ' ' := by
  rw [lineAt, String.toList_append, Decimal.toList_pushn]
  rfl

theorem skipBlanks_replicate (n : Nat) (cs : List Char) :
    skipBlanks (List.replicate n ' ' ++ cs) = skipBlanks cs := by
  induction n with
  | zero => rfl
  | succ n ih => rw [List.replicate_succ, List.cons_append, skipBlanks]; simpa using ih

/-- The start of a line is skipped. -/
theorem skipBlanks_lineAt (level : Nat) (cs : List Char) :
    skipBlanks ((lineAt level).toList ++ cs) = skipBlanks cs := by
  rw [toList_lineAt, List.cons_append, skipBlanks]
  simpa using skipBlanks_replicate (2 * level) cs

theorem ends_lineAt (level : Nat) (rest : List Char) : Ends ((lineAt level).toList ++ rest) := by
  rw [toList_lineAt]
  exact ends_lineEnd _

/-- A text that starts with neither a blank nor a closing bracket. -/
def Opens (cs : List Char) : Prop := ∃ c r, cs = c :: r ∧ skipBlanks cs = cs ∧ c ≠ ']'

/-- No value starts with a blank or a closing bracket. -/
theorem opens_of_value {n : Nat} {cs : List Char} {p : Json × List Char}
    (h : value? n cs = some p) : Opens cs := by
  obtain ⟨n, rfl⟩ : ∃ m, n = m + 1 := by
    cases n with
    | zero => simp [value?] at h
    | succ n => exact ⟨n, rfl⟩
  cases cs with
  | nil => simp [value?] at h
  | cons c r =>
    have hspace : c ≠ ' ' := by rintro rfl; cases h
    have hline : c ≠ '\n' := by rintro rfl; cases h
    have htab : c ≠ '\t' := by rintro rfl; cases h
    have hreturn : c ≠ '\r' := by rintro rfl; cases h
    have hclose : c ≠ ']' := by rintro rfl; cases h
    exact ⟨c, r, rfl, by simp [skipBlanks, hspace, hline, htab, hreturn], hclose⟩

/-! ## Scalars -/

theorem reads_str (s : String) : ReadsAs (.str s) (.str s) := by
  intro level n rest hn _
  obtain ⟨n, rfl⟩ : ∃ m, n = m + 1 := ⟨n - 1, by omega⟩
  have hlength := length_le_escaped s.toList
  have htext : (prettyAt level (.str s)).toList = '"' :: (s.toList.flatMap escapeChar ++ ['"']) :=
    toList_quoted s
  rw [htext] at hn ⊢
  simp only [List.length_cons, List.length_append] at hn
  rw [List.cons_append, List.append_assoc, value?, if_pos (by decide)]
  simp [stringRest_escaped (by omega : s.toList.length < n)]

theorem reads_int (m : Int) : ReadsAs (.int m) (.int m) := by
  intro level n rest hn hrest
  have htext : (prettyAt level (.int m)).toList = (Numeral.ofInt m).text :=
    (Numeral.text_ofInt m).symm
  rw [htext, (Numeral.ofInt m).value_text (by omega) hrest, Numeral.value_ofInt]

theorem exists_reads_float (x : Float) : ∃ y, ReadsAs (.float x) (.float y) := by
  obtain ⟨y, hread⟩ := exists_double x
  exact ⟨y, fun level n rest hn hrest => hread n rest (by omega) hrest⟩

/-! ## Arrays -/

theorem ReadsAs.opens {v w : Json} (h : ReadsAs v w) (level : Nat) {rest : List Char}
    (hrest : Ends rest) : Opens ((prettyAt level v).toList ++ rest) :=
  opens_of_value (h level _ rest (Nat.lt_succ_self _) hrest)

theorem Opens.skipBlanks_lineAt {cs : List Char} (h : Opens cs) (level : Nat) :
    skipBlanks ((lineAt level).toList ++ cs) = cs := by
  obtain ⟨-, -, -, hcs, -⟩ := h
  rw [Json.skipBlanks_lineAt, hcs]

theorem toList_prettyItems_cons (level : Nat) (v : Json) (vs : List Json) :
    (prettyItems level (v :: vs)).toList = ',' :: ((lineAt level).toList ++
      ((prettyAt level v).toList ++ (prettyItems level vs).toList)) := by
  simp [prettyItems]

theorem ends_prettyItems (level k : Nat) (vs : List Json) (rest : List Char) :
    Ends ((prettyItems level vs).toList ++ ((lineAt k).toList ++ rest)) := by
  cases vs with
  | nil => simpa [prettyItems] using ends_lineAt k rest
  | cons v vs =>
    rw [toList_prettyItems_cons]
    exact ends_comma _

/-- The items of an array are read one after the other. -/
theorem items_prettyItems (level k : Nat) {v w : Json} {vs ws : List Json} (hv : ReadsAs v w)
    (hvs : List.Forall₂ ReadsAs vs ws) (done : List Json) (rest : List Char) {n : Nat}
    (hn : (prettyAt level v).toList.length + (prettyItems level vs).toList.length + 1 < n) :
    items? n done ((prettyAt level v).toList ++ ((prettyItems level vs).toList ++
        ((lineAt k).toList ++ ']' :: rest))) =
      some (done.reverse ++ w :: ws, rest) := by
  -- on the items behind the first one, which is read whatever stands behind it
  induction hvs generalizing v w n done with
  | nil =>
    obtain ⟨n, rfl⟩ : ∃ m, n = m + 1 := ⟨n - 1, by omega⟩
    have hread := hv level n ((lineAt k).toList ++ ']' :: rest) (by omega) (ends_lineAt _ _)
    have hskip : skipBlanks ((lineAt k).toList ++ ']' :: rest) = ']' :: rest :=
      skipBlanks_lineAt k (']' :: rest)
    simp [items?, prettyItems, hread, hskip]
  | @cons v' w' vs ws hv' _ ih =>
    obtain ⟨n, rfl⟩ : ∃ m, n = m + 1 := ⟨n - 1, by omega⟩
    rw [toList_prettyItems_cons, List.length_cons, List.length_append, List.length_append] at hn
    have hends := ends_prettyItems level k vs (']' :: rest)
    have hread := hv level n _ (by omega) (ends_comma ((lineAt level).toList ++
      ((prettyAt level v').toList ++ ((prettyItems level vs).toList ++
        ((lineAt k).toList ++ ']' :: rest)))))
    have hskip := (hv'.opens level hends).skipBlanks_lineAt level
    have hitems := ih hv' (w :: done) (n := n) (by omega)
    rw [toList_prettyItems_cons]
    simp only [List.cons_append, List.append_assoc]
    rw [items?, hread]
    simp [skipBlanks, hskip, hitems]

/-- An array is read by its items. -/
theorem ReadsAs.arr {vs ws : List Json} (h : List.Forall₂ ReadsAs vs ws) :
    ReadsAs (.arr vs) (.arr ws) := by
  intro level n rest hn _
  obtain ⟨n, rfl⟩ : ∃ m, n = m + 1 := ⟨n - 1, by omega⟩
  cases h with
  | nil => simp [prettyAt, scalarText, value?, skipBlanks]
  | @cons v w vs ws hv hvs =>
    have htext : (prettyAt level (.arr (v :: vs))).toList = '[' :: ((lineAt (level + 1)).toList ++
        ((prettyAt (level + 1) v).toList ++ ((prettyItems (level + 1) vs).toList ++
          ((lineAt level).toList ++ [']'])))) := by
      simp [prettyAt]
    rw [htext] at hn ⊢
    simp only [List.length_cons, List.length_append, toList_lineAt] at hn
    have hopens := hv.opens (level + 1) (ends_prettyItems (level + 1) level vs (']' :: rest))
    have hskip := hopens.skipBlanks_lineAt (level + 1)
    have hitems := items_prettyItems (level + 1) level hv hvs [] rest (n := n) (by omega)
    obtain ⟨c, r, hcons, -, hc⟩ := hopens
    rw [hcons] at hskip hitems
    simp only [List.cons_append, List.append_assoc, List.nil_append]
    rw [hcons, value?, if_neg (by decide), if_pos (by decide), hskip]
    simp [hc, hitems]

/-! ## Objects -/

theorem toList_prettyFields_cons (level : Nat) (f : String × Json) (fs : List (String × Json)) :
    (prettyFields level (f :: fs)).toList = ',' :: ((lineAt level).toList ++
      ((quoted f.1).toList ++ (':' :: ' ' :: ((prettyAt level f.2).toList ++
        (prettyFields level fs).toList)))) := by
  simp [prettyFields]

theorem ends_prettyFields (level k : Nat) (fs : List (String × Json)) (rest : List Char) :
    Ends ((prettyFields level fs).toList ++ ((lineAt k).toList ++ rest)) := by
  cases fs with
  | nil => simpa [prettyFields] using ends_lineAt k rest
  | cons f fs =>
    rw [toList_prettyFields_cons]
    exact ends_comma _

theorem skipBlanks_quoted (level : Nat) (s : String) (rest : List Char) :
    skipBlanks ((lineAt level).toList ++ ((quoted s).toList ++ rest)) =
      (quoted s).toList ++ rest := by
  rw [skipBlanks_lineAt, toList_quoted, List.cons_append]
  rfl

/-- A field is read up to the end of its value: behind it stands a comma and the next field, or
the closing brace. -/
theorem fields_field (level : Nat) {f g : String × Json} (h : FieldReadsAs f g)
    (done : List (String × Json)) {rest : List Char} (hrest : Ends rest) {n : Nat}
    (hn : (quoted f.1).toList.length + (prettyAt level f.2).toList.length < n) :
    (∀ r, skipBlanks rest = ',' :: r →
      fields? (n + 1) done ((quoted f.1).toList ++ (':' :: ' ' ::
        ((prettyAt level f.2).toList ++ rest))) = fields? n (g :: done) (skipBlanks r)) ∧
    (∀ r, skipBlanks rest = '}' :: r →
      fields? (n + 1) done ((quoted f.1).toList ++ (':' :: ' ' ::
        ((prettyAt level f.2).toList ++ rest))) = some ((g :: done).reverse, r)) := by
  obtain ⟨name, v⟩ := f
  obtain ⟨_, w⟩ := g
  obtain ⟨rfl, hv⟩ := h
  have hlength := length_le_escaped name.toList
  have hread := hv level n rest (by omega) hrest
  obtain ⟨-, -, -, hskip, -⟩ := hv.opens level hrest
  rw [toList_quoted] at hn ⊢
  simp only [List.length_cons, List.length_append] at hn
  have hname := fun r => stringRest_escaped (by omega : name.toList.length < n) [] r
  simp only [List.cons_append, List.append_assoc, List.nil_append, List.reverse_nil] at hname ⊢
  constructor <;>
  · intro r hr
    rw [fields?, hname]
    simp [skipBlanks, hskip, hread, hr]

/-- The fields of an object are read one after the other. -/
theorem fields_prettyFields (level k : Nat) {f g : String × Json} {fs gs : List (String × Json)}
    (hf : FieldReadsAs f g) (hfs : List.Forall₂ FieldReadsAs fs gs)
    (done : List (String × Json)) (rest : List Char) {n : Nat}
    (hn : (quoted f.1).toList.length + (prettyAt level f.2).toList.length +
      (prettyFields level fs).toList.length + 1 < n) :
    fields? n done ((quoted f.1).toList ++ (':' :: ' ' :: ((prettyAt level f.2).toList ++
        ((prettyFields level fs).toList ++ ((lineAt k).toList ++ '}' :: rest))))) =
      some (done.reverse ++ g :: gs, rest) := by
  induction hfs generalizing f g n done with
  | nil =>
    obtain ⟨n, rfl⟩ : ∃ m, n = m + 1 := ⟨n - 1, by omega⟩
    have hends := ends_prettyFields level k [] ('}' :: rest)
    have hskip : skipBlanks ((lineAt k).toList ++ '}' :: rest) = '}' :: rest :=
      skipBlanks_lineAt k ('}' :: rest)
    have hlast := (fields_field level hf done hends (n := n) (by omega)).2 rest
      (by simpa [prettyFields] using hskip)
    rw [hlast, List.reverse_cons]
  | @cons f' g' fs gs hf' _ ih =>
    obtain ⟨n, rfl⟩ : ∃ m, n = m + 1 := ⟨n - 1, by omega⟩
    rw [toList_prettyFields_cons] at hn ⊢
    simp only [List.length_cons, List.length_append] at hn
    have hnext := (fields_field level hf done (ends_comma ((lineAt level).toList ++
      ((quoted f'.1).toList ++ (':' :: ' ' :: ((prettyAt level f'.2).toList ++
        ((prettyFields level fs).toList ++ ((lineAt k).toList ++ '}' :: rest))))))) (n := n)
      (by omega)).1 _ rfl
    have hfields := ih hf' (g :: done) (n := n) (by omega)
    simp only [List.cons_append, List.append_assoc]
    rw [hnext, skipBlanks_quoted, hfields]
    simp

/-- An object is read by its fields. -/
theorem ReadsAs.obj {fs gs : List (String × Json)} (h : List.Forall₂ FieldReadsAs fs gs) :
    ReadsAs (.obj fs) (.obj gs) := by
  intro level n rest hn _
  obtain ⟨n, rfl⟩ : ∃ m, n = m + 1 := ⟨n - 1, by omega⟩
  cases h with
  | nil => simp [prettyAt, scalarText, value?, skipBlanks]
  | @cons f g fs gs hf hfs =>
    have htext : (prettyAt level (.obj (f :: fs))).toList =
        '{' :: ((lineAt (level + 1)).toList ++ ((quoted f.1).toList ++ (':' :: ' ' ::
          ((prettyAt (level + 1) f.2).toList ++ ((prettyFields (level + 1) fs).toList ++
            ((lineAt level).toList ++ ['}'])))))) := by
      simp [prettyAt]
    rw [htext] at hn ⊢
    simp only [List.length_cons, List.length_append, toList_lineAt] at hn
    have hfields := fields_prettyFields (level + 1) level hf hfs [] rest (n := n) (by omega)
    simp only [List.cons_append, List.append_assoc, List.nil_append]
    rw [value?, if_neg (by decide), if_neg (by decide), if_pos (by decide), skipBlanks_quoted]
    rw [toList_quoted] at hfields ⊢
    simp_all

/-! ## Texts -/

/-- A text is read as its value. -/
theorem ReadsAs.parse {v w : Json} (h : ReadsAs v w) : Json.parse v.pretty = some w := by
  have hread := h 0 _ [] (Nat.lt_succ_self _) ends_nil
  obtain ⟨-, -, -, hskip, -⟩ := h.opens 0 ends_nil
  rw [List.append_nil] at hread hskip
  simp [Json.parse, pretty, hskip, hread, skipBlanks]

/-! ## ASCII -/

theorem isAscii_lineAt (level : Nat) : ∀ c ∈ (lineAt level).toList, c.toNat < 128 := by
  rw [toList_lineAt]
  intro c hc
  rcases List.mem_cons.mp hc with rfl | hc
  · decide
  · rw [List.eq_of_mem_replicate hc]
    decide

theorem isAscii_scalarText (v : Json) : ∀ c ∈ (scalarText v).toList, c.toNat < 128 := by
  cases v with
  | null => exact isAscii_of_all (by decide)
  | arr items => exact (isAscii_of_all (by decide) : ∀ c ∈ "[]".toList, c.toNat < 128)
  | obj fields => exact (isAscii_of_all (by decide) : ∀ c ∈ "{}".toList, c.toNat < 128)
  | bool b => exact isAscii_of_all (by cases b <;> decide)
  | int n =>
    rw [scalarText, ← Numeral.text_ofInt]
    exact Numeral.isAscii_text _
  | float x => exact isAscii_double x
  | str s => exact isAscii_quoted s

mutual

/-- A value is written in ASCII, whatever is in its strings. -/
theorem isAscii_prettyAt : ∀ (v : Json) (level : Nat),
    ∀ c ∈ (prettyAt level v).toList, c.toNat < 128
  | .arr (v :: vs), level => by
    simp only [prettyAt, String.toList_append, List.forall_mem_append]
    refine ⟨⟨⟨⟨⟨?_, isAscii_lineAt _⟩, isAscii_prettyAt v _⟩, isAscii_prettyItems vs _⟩,
      isAscii_lineAt _⟩, ?_⟩
    all_goals exact isAscii_of_all (by decide)
  | .obj ((name, v) :: fs), level => by
    simp only [prettyAt, String.toList_append, List.forall_mem_append]
    refine ⟨⟨⟨⟨⟨⟨⟨?_, isAscii_lineAt _⟩, isAscii_quoted _⟩, ?_⟩, isAscii_prettyAt v _⟩,
      isAscii_prettyFields fs _⟩, isAscii_lineAt _⟩, ?_⟩
    all_goals exact isAscii_of_all (by decide)
  | .arr [], _ => isAscii_scalarText _
  | .obj [], _ => isAscii_scalarText _
  | .null, _ => isAscii_scalarText _
  | .bool _, _ => isAscii_scalarText _
  | .int _, _ => isAscii_scalarText _
  | .float _, _ => isAscii_scalarText _
  | .str _, _ => isAscii_scalarText _

theorem isAscii_prettyItems : ∀ (vs : List Json) (level : Nat),
    ∀ c ∈ (prettyItems level vs).toList, c.toNat < 128
  | [], _ => by simp [prettyItems]
  | v :: vs, level => by
    simp only [prettyItems, String.toList_append, List.forall_mem_append]
    exact ⟨⟨⟨isAscii_of_all (by decide), isAscii_lineAt _⟩, isAscii_prettyAt v _⟩,
      isAscii_prettyItems vs _⟩

theorem isAscii_prettyFields : ∀ (fs : List (String × Json)) (level : Nat),
    ∀ c ∈ (prettyFields level fs).toList, c.toNat < 128
  | [], _ => by simp [prettyFields]
  | (name, v) :: fs, level => by
    simp only [prettyFields, String.toList_append, List.forall_mem_append]
    refine ⟨⟨⟨⟨⟨?_, isAscii_lineAt _⟩, isAscii_quoted _⟩, ?_⟩, isAscii_prettyAt v _⟩,
      isAscii_prettyFields fs _⟩
    all_goals exact isAscii_of_all (by decide)

end

/-- A value is written in ASCII. -/
theorem isAscii_pretty (v : Json) : ∀ c ∈ v.pretty.toList, c.toNat < 128 := isAscii_prettyAt v 0

end DocCheck.Json
