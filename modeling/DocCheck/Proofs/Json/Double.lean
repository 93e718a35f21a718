import DocCheck.Proofs.Json.Escape
import DocCheck.Proofs.Json.Numeral

/-!
# Doubles of JSON

The shortest decimal of a double has digits that are not all zero, or it is zero.
Whatever its exponent is, it is written as a number with a point or an exponent,
so it is read as a double again. The values that have no digits are read by name.

Results:

* `shortest_digits`: the digits of a shortest decimal.
* `exists_numeral`: a decimal is written as a number that is no whole number.
* `exists_double`: what is written for a double is read as a double.
-/
namespace DocCheck.Json

open Decimal

/-! ## The shortest decimal -/

theorem strip_digits {s : Scientific} (h : s.digits ≠ 0) (fuel : Nat) :
    (s.strip fuel).digits ≠ 0 := by
  induction fuel generalizing s with
  | zero => exact h
  | succ fuel ih =>
    rw [Scientific.strip]
    split
    · rename_i hzero
      exact ih (by dsimp only; omega)
    · exact h

theorem shortestFrom_digits (r : Rounding) (exponent : Int) (fuel : Nat) :
    (shortestFrom r exponent fuel).digits ≠ 0 ∨ shortestFrom r exponent fuel = ⟨0, 0⟩ := by
  induction fuel generalizing exponent with
  | zero => exact .inr rfl
  | succ fuel ih =>
    rw [shortestFrom]
    split
    · split
      · exact ih _
      · rename_i hdigits
        exact .inl (strip_digits hdigits 20)
    · exact ih _

/-- A shortest decimal is zero, or its digits are not. -/
theorem shortest_digits (r : Rounding) : (shortest r).digits ≠ 0 ∨ shortest r = ⟨0, 0⟩ :=
  shortestFrom_digits r _ _

/-! ## Its text -/

/-- Zeros, and then the digits of a whole number. -/
def Digits.zeros (n : Nat) (ds : Digits) : Digits where
  chars := List.replicate n '0' ++ ds.chars
  ne_nil := by simp [ds.ne_nil]
  isDigit c hc := by
    rcases List.mem_append.mp hc with hc | hc
    · rw [List.eq_of_mem_replicate hc]
      decide
    · exact ds.isDigit c hc

/-- Digits with zeros behind them. -/
def Digits.scaled (ds : Digits) (n : Nat) : Digits where
  chars := ds.chars ++ List.replicate n '0'
  ne_nil := by simp [ds.ne_nil]
  isDigit c hc := by
    rcases List.mem_append.mp hc with hc | hc
    · exact ds.isDigit c hc
    · rw [List.eq_of_mem_replicate hc]
      decide

def Digits.zero : Digits := .ofNat 0

theorem chars_zero : Digits.zero.chars = ['0'] := by decide

theorem toList_padded (width n : Nat) :
    (padded width n).toList =
      ((Digits.ofNat n).zeros (width - (toString n).length)).chars := by
  rw [padded, String.toList_append, toList_pushn]
  rfl

/-- Some of the digits of a number, from its first digit on or up to its last one. -/
def Digits.part (ds : Digits) (cs : List Char) (hne : cs ≠ []) (h : ∀ c ∈ cs, c ∈ ds.chars) :
    Digits :=
  ⟨cs, hne, fun c hc => ds.isDigit c (h c hc)⟩

theorem Digits.head?_append (ds : Digits) (cs : List Char) :
    (ds.chars ++ cs).head? = ds.chars.head? := by
  rw [List.head?_append, List.head?_eq_some_head ds.ne_nil, Option.some_or]

/-- A number that has a point or an exponent. -/
def Numeral.IsFraction (x : Numeral) : Prop := x.places.isSome ∨ x.exponent.isSome

section
variable {s : Scientific}

/-- A decimal below one is written with zeros behind the point. -/
theorem exists_numeral_small (zeros : Nat) :
    ∃ x : Numeral, x.negative = false ∧ x.IsFraction ∧
      x.text = ("0." ++ "".pushn '0' zeros ++ toString s.digits).toList := by
  refine ⟨⟨false, .zero, some ((Digits.ofNat s.digits).zeros zeros), none, .inl chars_zero⟩,
    rfl, .inl rfl, ?_⟩
  rw [String.toList_append, String.toList_append, toList_pushn]
  simp [Numeral.text, Numeral.unsignedText, Numeral.placesText, Numeral.exponentText, chars_zero,
    Digits.zeros, Digits.ofNat]

/-- A decimal that is a whole number is written with a zero behind the point. -/
theorem exists_numeral_whole {zeros : Nat} (h : s.digits ≠ 0 ∨ zeros = 0) :
    ∃ x : Numeral, x.negative = false ∧ x.IsFraction ∧
      x.text = (toString s.digits ++ "".pushn '0' zeros ++ ".0").toList := by
  have hhead : ((Digits.ofNat s.digits).scaled zeros).chars = ['0'] ∨
      ((Digits.ofNat s.digits).scaled zeros).chars.head? ≠ some '0' := by
    rcases h with h | rfl
    · right
      rw [Digits.scaled, Digits.head?_append]
      exact head_nat_ne_zero (Nat.pos_of_ne_zero h)
    · simpa [Digits.scaled] using Digits.head_ofNat s.digits
  refine ⟨⟨false, (Digits.ofNat s.digits).scaled zeros, some .zero, none, hhead⟩,
    rfl, .inl rfl, ?_⟩
  rw [String.toList_append, String.toList_append, toList_pushn]
  simp [Numeral.text, Numeral.unsignedText, Numeral.placesText, Numeral.exponentText, chars_zero,
    Digits.scaled, Digits.ofNat]

/-- The point may stand between two digits. -/
theorem exists_numeral_split (h : s.digits ≠ 0) {k : Nat} (hk : 0 < k)
    (hlt : k < (toString s.digits).toList.length) :
    ∃ x : Numeral, x.negative = false ∧ x.IsFraction ∧
      x.text = (String.ofList ((toString s.digits).toList.take k) ++ "." ++
        String.ofList ((toString s.digits).toList.drop k)).toList := by
  have htake : (toString s.digits).toList.take k ≠ [] := by
    rw [ne_eq, List.take_eq_nil_iff]
    rintro (rfl | hnil)
    · exact Nat.lt_irrefl 0 hk
    · exact toList_nat_ne_nil _ hnil
  have hdrop : (toString s.digits).toList.drop k ≠ [] := by
    rw [ne_eq, List.drop_eq_nil_iff]
    omega
  refine ⟨⟨false, (Digits.ofNat s.digits).part _ htake fun _ => List.mem_of_mem_take,
    some ((Digits.ofNat s.digits).part _ hdrop fun _ => List.mem_of_mem_drop), none, .inr ?_⟩,
    rfl, .inl rfl, ?_⟩
  · dsimp only [Digits.part]
    rw [List.head?_take, if_neg (Nat.ne_of_gt hk)]
    exact head_nat_ne_zero (Nat.pos_of_ne_zero h)
  · rw [String.toList_append, String.toList_append, String.toList_ofList, String.toList_ofList]
    simp [Numeral.text, Numeral.unsignedText, Numeral.placesText, Numeral.exponentText,
      Digits.part]

/-- With an exponent there is one digit before the point. -/
theorem exists_numeral_exponent {d : Char} {r : List Char}
    (h : (toString s.digits).toList = d :: r) (minus : Bool) (n : Nat) :
    ∃ x : Numeral, x.negative = false ∧ x.IsFraction ∧
      x.text = d :: ((if r.isEmpty then [] else '.' :: r) ++
        'e' :: (if minus then '-' else '+') :: (padded 2 n).toList) := by
  have hmem : ∀ c ∈ d :: r, c ∈ (Digits.ofNat s.digits).chars := by
    intro c hc
    rwa [← h] at hc
  have hwhole : [d] = ['0'] ∨ [d].head? ≠ some '0' := by
    by_cases hd : d = '0'
    · exact .inl (by rw [hd])
    · exact .inr (by simpa using hd)
  let whole := (Digits.ofNat s.digits).part [d] (by simp) fun c hc => hmem c (by simp_all)
  let exponent := (minus, (Digits.ofNat n).zeros (2 - (toString n).length))
  cases r with
  | nil =>
    refine ⟨⟨false, whole, none, some exponent, hwhole⟩, rfl, .inr rfl, ?_⟩
    rw [toList_padded]
    rfl
  | cons d' r =>
    let places := (Digits.ofNat s.digits).part (d' :: r) (by simp)
      fun c hc => hmem c (List.mem_cons_of_mem _ hc)
    refine ⟨⟨false, whole, some places, some exponent, hwhole⟩, rfl, .inr rfl, ?_⟩
    rw [toList_padded]
    rfl

/-- A decimal is written as a number with a point or an exponent. -/
theorem exists_numeral (h : s.digits ≠ 0 ∨ s = ⟨0, 0⟩) :
    ∃ x : Numeral, x.negative = false ∧ x.IsFraction ∧ x.text = s.text.toList := by
  obtain ⟨d, r, hds⟩ := List.exists_cons_of_ne_nil (toList_nat_ne_nil s.digits)
  have hlength : (toString s.digits).length = (d :: r).length := by
    rw [← String.length_toList, hds]
  -- the cases are those of the position of the point
  unfold Scientific.text
  dsimp only
  split
  · rename_i hplain
    split
    · exact exists_numeral_small _
    · rename_i hpoint
      split
      · refine exists_numeral_whole ?_
        rcases h with h | rfl
        · exact .inl h
        · exact .inr (by decide)
      · rename_i hlong
        have hdigits : s.digits ≠ 0 := by
          rcases h with h | rfl
          · exact h
          · exact absurd (by decide) hlong
        exact exists_numeral_split hdigits (by omega) (by rw [String.length_toList]; omega)
  · obtain ⟨x, hnegative, hfraction, htext⟩ := exists_numeral_exponent hds
      (decide ((toString s.digits).length + s.exponent - 1 < 0))
      ((toString s.digits).length + s.exponent - 1).natAbs
    refine ⟨x, hnegative, hfraction, htext.trans ?_⟩
    have hsign (b : Bool) : (if b then "-" else "+").toList = [if b then '-' else '+'] := by
      cases b <;> rfl
    have hsign := hsign (decide ((toString s.digits).length + s.exponent - 1 < 0))
    simp only [decide_eq_true_eq] at hsign
    simp only [String.toList_append, hds, hsign]
    cases r <;> simp

end

/-! ## Doubles -/

theorem Numeral.IsFraction.exists_float {x : Numeral} (h : x.IsFraction) :
    ∃ y, x.value = .float y := by
  have hparts : ((x.places.map Digits.chars).isNone && (x.exponent.map fun e =>
      if e.1 then -(ofDigits e.2.chars : Int) else ofDigits e.2.chars).isNone) = false := by
    rcases h with h | h <;> simp [← Option.not_isSome, h]
  rw [value, ofParts, hparts]
  exact ⟨_, rfl⟩

/-- A sign stands before the text of a positive number. -/
theorem Numeral.exists_signed {x : Numeral} (hx : x.negative = false) (negative : Bool) :
    ∃ z : Numeral, (x.IsFraction → z.IsFraction) ∧
      z.text = (if negative then "-" else "").toList ++ x.text := by
  refine ⟨{ x with negative := negative }, id, ?_⟩
  cases negative <;> simp [text, hx, unsignedText, placesText, exponentText]

/-- A double is written as a name, or as a number with a point or an exponent. -/
theorem double_cases (x : Float) :
    Decimal.text floatNames x ∈ ["NaN", "Infinity", "-Infinity"] ∨
      ∃ z : Numeral, z.IsFraction ∧ z.text = (Decimal.text floatNames x).toList := by
  unfold Decimal.text
  split
  · simp [floatNames]
  · rename_i negative _
    cases negative <;> simp [floatNames]
  · rename_i negative _
    exact .inr ⟨⟨negative, .zero, some .zero, none, .inl chars_zero⟩, .inl rfl,
      by cases negative <;> decide⟩
  · rename_i negative r _
    obtain ⟨z, hz, hfraction, htext⟩ := exists_numeral (shortest_digits r)
    obtain ⟨z', hfraction', htext'⟩ := Numeral.exists_signed hz negative
    exact .inr ⟨z', hfraction' hfraction, by rw [htext', htext, String.toList_append]⟩

theorem value_name {name : String} (h : name ∈ ["NaN", "Infinity", "-Infinity"]) :
    ∃ y, ∀ n rest, 0 < n → value? n (name.toList ++ rest) = some (.float y, rest) := by
  simp only [List.mem_cons, List.not_mem_nil, or_false] at h
  have hread {name : String} {y : Float}
      (h : ∀ n rest, value? (n + 1) (name.toList ++ rest) = some (.float y, rest)) :
      ∃ y, ∀ n rest, 0 < n → value? n (name.toList ++ rest) = some (.float y, rest) :=
    ⟨y, fun n rest hn => by rw [← Nat.succ_pred_eq_of_pos hn]; exact h _ rest⟩
  rcases h with rfl | rfl | rfl
  · exact hread (y := 0 / 0) fun _ _ => rfl
  · exact hread (y := 1 / 0) fun _ _ => rfl
  · exact hread (y := -1 / 0) fun _ _ => rfl

/-- What is written for a double is read as a double. -/
theorem exists_double (x : Float) :
    ∃ y, ∀ n rest, 0 < n → Ends rest →
      value? n ((Decimal.text floatNames x).toList ++ rest) = some (.float y, rest) := by
  rcases double_cases x with hname | ⟨z, hfraction, htext⟩
  · obtain ⟨y, hread⟩ := value_name hname
    exact ⟨y, fun n rest hn _ => hread n rest hn⟩
  · obtain ⟨y, hy⟩ := hfraction.exists_float
    exact ⟨y, fun n rest hn hrest => by rw [← htext, z.value_text hn hrest, hy]⟩

theorem isAscii_double (x : Float) :
    ∀ c ∈ (Decimal.text floatNames x).toList, c.toNat < 128 := by
  rcases double_cases x with hname | ⟨z, -, htext⟩
  · simp only [List.mem_cons, List.not_mem_nil, or_false] at hname
    rcases hname with h | h | h <;> exact isAscii_of_all (by rw [h]; decide)
  · rw [← htext]
    exact z.isAscii_text

end DocCheck.Json
