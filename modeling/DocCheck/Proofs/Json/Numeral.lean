import DocCheck.Json.Reader
import DocCheck.Proofs.Decimal.Digits

/-!
# Numbers of JSON

A number has digits, and behind them perhaps a point with more digits and an
exponent. The reader takes such a text apart where it was put together, so long as
a comma or the end of the line stands behind it. What is written for a whole number
or for a double is a number of this form, but for the doubles that have names.

Results:

* `Numeral.number_text`, `Numeral.value_text`: a number is read up to its end.
* `Numeral.isAscii_text`: the text of a number is ASCII.
* `Numeral.text_ofInt`, `Numeral.value_ofInt`: how a whole number is written, and that it is read
  back.
-/
namespace DocCheck.Json

open Decimal

/-! ## Parts -/

/-- What may stand behind a value: nothing, a comma or the end of the line. -/
def Ends (rest : List Char) : Prop := ∀ c ∈ rest.head?, c = ',' ∨ c = '\n'

theorem ends_nil : Ends [] := by simp [Ends]

theorem ends_comma (rest : List Char) : Ends (',' :: rest) := by simp [Ends]

theorem ends_lineEnd (rest : List Char) : Ends ('\n' :: rest) := by simp [Ends]

theorem Ends.isDigit {rest : List Char} (h : Ends rest) : ∀ c ∈ rest.head?, c.isDigit = false := by
  intro c hc
  rcases h c hc with rfl | rfl <;> decide

/-- One digit or more. -/
structure Digits where
  chars : List Char
  ne_nil : chars ≠ []
  isDigit : ∀ c ∈ chars, c.isDigit = true

def Digits.ofNat (n : Nat) : Digits :=
  ⟨(toString n).toList, toList_nat_ne_nil n, fun _ => isDigit_of_mem_nat⟩

/-- A number as it is written. The exponent has a sign, which is `true` for a minus. -/
structure Numeral where
  negative : Bool
  whole : Digits
  places : Option Digits
  exponent : Option (Bool × Digits)
  /-- A zero before the point stands alone. -/
  whole_head : whole.chars = ['0'] ∨ whole.chars.head? ≠ some '0'

namespace Numeral

def placesText (x : Numeral) : List Char := x.places.elim [] fun ds => '.' :: ds.chars

def exponentText (x : Numeral) : List Char :=
  x.exponent.elim [] fun e => 'e' :: (if e.1 then '-' else '+') :: e.2.chars

def unsignedText (x : Numeral) : List Char := x.whole.chars ++ (x.placesText ++ x.exponentText)

def text (x : Numeral) : List Char := (if x.negative then ['-'] else []) ++ x.unsignedText

def value (x : Numeral) : Json :=
  ofParts x.negative x.whole.chars (x.places.map Digits.chars)
    (x.exponent.map fun e => if e.1 then -(ofDigits e.2.chars : Int) else ofDigits e.2.chars)

end Numeral

/-! ## Reading a number -/

theorem wholePart_append {ds : Digits} (h : ds.chars = ['0'] ∨ ds.chars.head? ≠ some '0')
    {rest : List Char} (hrest : ∀ c ∈ rest.head?, c.isDigit = false) :
    wholePart (ds.chars ++ rest) = (ds.chars, rest) := by
  rcases h with h | h
  · rw [h]
    rfl
  · obtain ⟨d, ds', hds⟩ := List.exists_cons_of_ne_nil ds.ne_nil
    have hd : d ≠ '0' := by simpa [hds] using h
    rw [← spanDigits_append ds.isDigit hrest, hds, List.cons_append]
    unfold wholePart
    split
    · rename_i heq
      exact absurd (List.cons.inj heq).1 hd
    · rfl

theorem fractionPart_append (ds : Digits) {rest : List Char}
    (hrest : ∀ c ∈ rest.head?, c.isDigit = false) :
    fractionPart ('.' :: (ds.chars ++ rest)) = (some ds.chars, rest) := by
  simp [fractionPart, spanDigits_append ds.isDigit hrest, ds.ne_nil]

theorem fractionPart_of_head {cs : List Char} (h : cs.head? ≠ some '.') :
    fractionPart cs = (none, cs) := by
  unfold fractionPart
  split
  · simp at h
  · rfl

theorem exponentPart_append (minus : Bool) (ds : Digits) {rest : List Char}
    (hrest : ∀ c ∈ rest.head?, c.isDigit = false) :
    exponentPart ('e' :: (if minus then '-' else '+') :: (ds.chars ++ rest)) =
      (some (if minus then -(ofDigits ds.chars : Int) else ofDigits ds.chars), rest) := by
  cases minus <;> simp [exponentPart, spanDigits_append ds.isDigit hrest, ds.ne_nil]

theorem exponentPart_of_head {cs : List Char} (h : ∀ c ∈ cs.head?, c ≠ 'e' ∧ c ≠ 'E') :
    exponentPart cs = (none, cs) := by
  cases cs with
  | nil => rfl
  | cons c r =>
    obtain ⟨he, hE⟩ := h c rfl
    simp [exponentPart, he, hE]

theorem Numeral.exponentPart_text (x : Numeral) {rest : List Char} (h : Ends rest) :
    exponentPart (x.exponentText ++ rest) =
      (x.exponent.map fun e =>
        if e.1 then -(ofDigits e.2.chars : Int) else ofDigits e.2.chars, rest) := by
  unfold exponentText
  cases x.exponent with
  | none =>
    refine exponentPart_of_head fun c hc => ?_
    rcases h c hc with rfl | rfl <;> decide
  | some e => exact exponentPart_append e.1 e.2 h.isDigit

theorem Numeral.head_exponentText (x : Numeral) {rest : List Char} (h : Ends rest) :
    ∀ c ∈ (x.exponentText ++ rest).head?, c = 'e' ∨ c = ',' ∨ c = '\n' := by
  unfold exponentText
  cases x.exponent with
  | none => exact fun c hc => .inr (h c hc)
  | some e => simp

theorem Numeral.fractionPart_text (x : Numeral) {rest : List Char} (h : Ends rest) :
    fractionPart (x.placesText ++ (x.exponentText ++ rest)) =
      (x.places.map Digits.chars, x.exponentText ++ rest) := by
  have hhead := x.head_exponentText h
  unfold placesText
  cases x.places with
  | none =>
    refine fractionPart_of_head fun hdot => ?_
    have := hhead '.' hdot
    simp at this
  | some ds =>
    refine fractionPart_append ds fun c hc => ?_
    rcases hhead c hc with rfl | rfl | rfl <;> decide

theorem Numeral.head_placesText (x : Numeral) {rest : List Char} (h : Ends rest) :
    ∀ c ∈ (x.placesText ++ (x.exponentText ++ rest)).head?, c.isDigit = false := by
  have hhead := x.head_exponentText h
  unfold placesText
  cases x.places with
  | none =>
    intro c hc
    rcases hhead c hc with rfl | rfl | rfl <;> decide
  | some ds => simp

theorem Numeral.unsigned_text (x : Numeral) {rest : List Char} (h : Ends rest) :
    unsigned? x.negative (x.unsignedText ++ rest) = some (x.value, rest) := by
  rw [unsignedText, List.append_assoc, List.append_assoc]
  simp [unsigned?, wholePart_append x.whole_head (x.head_placesText h), x.fractionPart_text h,
    x.exponentPart_text h, x.whole.ne_nil, value]

/-- The first character of a number without its sign is a digit. -/
theorem Numeral.exists_digit (x : Numeral) :
    ∃ d r, x.unsignedText = d :: r ∧ d.isDigit = true := by
  obtain ⟨d, r, hds⟩ := List.exists_cons_of_ne_nil x.whole.ne_nil
  exact ⟨d, _, by rw [unsignedText, hds, List.cons_append],
    x.whole.isDigit d (by simp [hds])⟩

/-- A number is read up to its end. -/
theorem Numeral.number_text (x : Numeral) {rest : List Char} (h : Ends rest) :
    number? (x.text ++ rest) = some (x.value, rest) := by
  have hread := x.unsigned_text h
  obtain ⟨d, r, hcons, hd⟩ := x.exists_digit
  unfold text
  cases hneg : x.negative with
  | true =>
    rw [hneg] at hread
    simpa [number?] using hread
  | false =>
    rw [hneg, hcons, List.cons_append] at hread
    simp only [Bool.false_eq_true, if_false, List.nil_append, hcons, List.cons_append]
    unfold number?
    split
    · rename_i heq
      obtain ⟨rfl, -⟩ := List.cons.inj heq
      simp at hd
    · exact hread

/-- A number is no name. -/
theorem named_of_head {c : Char} {r : List Char} (hc : c.isDigit = true ∨
    c = '-' ∧ ∀ d ∈ r.head?, d.isDigit = true) : named? (c :: r) = none := by
  rcases hc with hc | ⟨rfl, hr⟩
  · have hN : c ≠ 'N' := by rintro rfl; simp at hc
    have hI : c ≠ 'I' := by rintro rfl; simp at hc
    have hminus : c ≠ '-' := by rintro rfl; simp at hc
    simp [named?, word?, hN.symm, hI.symm, hminus.symm]
  · cases r with
    | nil => decide
    | cons d r =>
      have hI : d ≠ 'I' := by rintro rfl; simpa using hr 'I' rfl
      simp [named?, word?, hI.symm]

/-- A number is read as a value. -/
theorem Numeral.value_text (x : Numeral) {n : Nat} (hn : 0 < n) {rest : List Char}
    (h : Ends rest) : value? n (x.text ++ rest) = some (x.value, rest) := by
  obtain ⟨n, rfl⟩ : ∃ m, n = m + 1 := ⟨n - 1, by omega⟩
  obtain ⟨d, r, hcons, hd⟩ := x.exists_digit
  have hnumber := x.number_text h
  have hhead : ∃ c r', x.text ++ rest = c :: r' ∧ (c.isDigit = true ∨
      c = '-' ∧ ∀ d ∈ r'.head?, d.isDigit = true) := by
    unfold text
    rw [hcons]
    cases x.negative with
    | true => exact ⟨'-', d :: r ++ rest, rfl, .inr ⟨rfl, by simp [hd]⟩⟩
    | false => exact ⟨d, r ++ rest, rfl, .inl hd⟩
  obtain ⟨c, r', htext, hc⟩ := hhead
  have hne {e : Char} (he : e.isDigit = false) (hm : e ≠ '-') : (c == e) = false := by
    refine beq_false_of_ne ?_
    rintro rfl
    rcases hc with hc | hc
    · simp [he] at hc
    · exact hm hc.1
  rw [htext] at hnumber ⊢
  rw [value?, hne (by decide) (by decide), hne (by decide) (by decide),
    hne (by decide) (by decide), hne (by decide) (by decide), hne (by decide) (by decide),
    hne (by decide) (by decide), named_of_head hc, hnumber]
  rfl

theorem Numeral.isAscii_text (x : Numeral) : ∀ c ∈ x.text, c.toNat < 128 := by
  have hdigits (ds : Digits) : ∀ c ∈ ds.chars, c.toNat < 128 := by
    intro c hc
    have hdigit := ds.isDigit c hc
    simp only [Char.isDigit, Bool.and_eq_true, decide_eq_true_eq, UInt32.le_iff_toNat_le] at hdigit
    exact Nat.lt_of_le_of_lt hdigit.2 (by decide)
  intro c hc
  rw [text, unsignedText] at hc
  rcases List.mem_append.mp hc with hc | hc
  · cases hneg : x.negative <;> simp [hneg] at hc
    rw [hc]
    decide
  rcases List.mem_append.mp hc with hc | hc
  · exact hdigits _ c hc
  rcases List.mem_append.mp hc with hc | hc
  · cases hp : x.places with
    | none => simp [placesText, hp] at hc
    | some ds =>
      rw [placesText, hp] at hc
      rcases List.mem_cons.mp hc with rfl | hc
      · decide
      · exact hdigits ds c hc
  · cases he : x.exponent with
    | none => simp [exponentText, he] at hc
    | some e =>
      rw [exponentText, he] at hc
      rcases List.mem_cons.mp hc with rfl | hc
      · decide
      rcases List.mem_cons.mp hc with rfl | hc
      · cases e.1 <;> decide
      · exact hdigits e.2 c hc

/-! ## Writing a number -/

/-- The digits of a whole number have no zero before them. -/
theorem Digits.head_ofNat (n : Nat) :
    (Digits.ofNat n).chars = ['0'] ∨ (Digits.ofNat n).chars.head? ≠ some '0' := by
  rcases Nat.eq_zero_or_pos n with rfl | hn
  · exact .inl (by decide)
  · exact .inr (head_nat_ne_zero hn)

/-- The number that is written for a whole number. -/
def Numeral.ofInt (n : Int) : Numeral :=
  ⟨decide (n < 0), .ofNat n.natAbs, none, none, Digits.head_ofNat _⟩

theorem Numeral.text_ofInt (n : Int) : (ofInt n).text = (toString n).toList := by
  have hunsigned : (ofInt n).unsignedText = (toString n.natAbs).toList :=
    List.append_nil (toString n.natAbs).toList
  have hsign : (ofInt n).negative = decide (n < 0) := rfl
  rw [text, hunsigned, hsign]
  cases n with
  | ofNat n => rfl
  | negSucc n =>
    rw [toString_negSucc, String.toList_append, if_pos (decide_eq_true (Int.negSucc_lt_zero n))]
    rfl

theorem Numeral.value_ofInt (n : Int) : (ofInt n).value = .int n := by
  have hvalue : (ofInt n).value =
      .int (if decide (n < 0) then -(ofDigits (toString n.natAbs).toList : Int)
        else ofDigits (toString n.natAbs).toList) := rfl
  rw [hvalue, ofDigits_nat]
  by_cases h : n < 0
  · have hneg : -(n.natAbs : Int) = n := by omega
    rw [if_pos (decide_eq_true h), hneg]
  · have hpos : (n.natAbs : Int) = n := by omega
    rw [if_neg (by simpa using h), hpos]

end DocCheck.Json
