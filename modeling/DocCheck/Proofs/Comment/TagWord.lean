import DocCheck.Proofs.Comment.Layout

/-!
# The word behind an at sign

How a line is cut depends on what stands before an at sign and on what stands behind
the word after it, but not on the word: no delimiter and no white space is in the
word, and none reaches over the at sign.

Results:

* `Keyword.IsTagWord`: the words that start a tag behind an at sign.
* `beforeClosing_append_of_none`: a closing delimiter that is not behind a place is before it.
* `contentOf_word`: the closing delimiter stands before the at sign, or behind the word.
* `openingLength_at`, `decorationLength_at`: what is taken from the start of a line ends at an at
  sign.
* `lineOf_word`: the text of a line with an at sign in it has the word, whatever it is, or lies
  before it.
-/
namespace DocCheck

namespace Keyword

/-- The word makes a tag behind an at sign. -/
structure IsTagWord (word : List Char) : Prop where
  starts : ∃ c r, word = c :: r ∧ Text.isWord c = true
  chars : ∀ c ∈ word, isKeywordChar c = true

namespace IsTagWord

variable {word : List Char} (h : IsTagWord word)
include h

theorem isBlank {c : Char} (hc : c ∈ word) : Text.isBlank c = false := by
  by_contra hblank
  rw [Bool.not_eq_false] at hblank
  obtain hword | hhyphen := (Bool.or_eq_true _ _).mp (h.chars c hc)
  · rw [Text.isWord_of_isBlank hblank] at hword
    cases hword
  · rw [eq_of_beq hhyphen] at hblank
    exact absurd hblank (by decide)

theorem not_mem_star : '*' ∉ word := fun hc => absurd (h.chars _ hc) (by decide)

/-- A word ends in a character that nothing is cut off behind. -/
theorem exists_last : ∃ init last, word = init ++ [last] ∧ Text.isBlank last = false := by
  obtain ⟨c, r, rfl, -⟩ := h.starts
  obtain ⟨init, last, he⟩ := (List.eq_nil_or_concat' (c :: r)).resolve_left (by simp)
  exact ⟨init, last, he, h.isBlank (by rw [he]; simp)⟩

theorem startsTag (rest : List Char) : startsTag ('@' :: (word ++ rest)) = true := by
  obtain ⟨c, r, rfl, hc⟩ := h.starts
  exact hc

end IsTagWord

end Keyword

namespace Comment

open Keyword (IsTagWord)

variable {word : List Char}

/-! ## The ends of a line -/

theorem dropReturns_word (h : IsTagWord word) (before rest : List Char) :
    dropReturns (before ++ '@' :: (word ++ rest)) =
      before ++ '@' :: (word ++ dropReturns rest) := by
  obtain ⟨init, last, rfl, hlast⟩ := h.exists_last
  have hreturn : last ≠ '\r' := by
    rintro rfl
    exact absurd hlast (by decide)
  simpa using dropReturns_append hreturn (before ++ '@' :: init) rest

theorem trimEnd_word (h : IsTagWord word) (before rest : List Char) :
    Text.trimEnd (before ++ '@' :: (word ++ rest)) =
      before ++ '@' :: (word ++ Text.trimEnd rest) := by
  obtain ⟨init, last, rfl, hlast⟩ := h.exists_last
  simpa using Text.trimEnd_append_cons hlast (before ++ '@' :: init) rest

/-! ## The closing delimiter -/

theorem beforeClosing_append_of_none {rest : List Char} (h : beforeClosing? rest = none)
    (hslash : rest.head? ≠ some '/') (cs : List Char) :
    beforeClosing? (cs ++ rest) = beforeClosing? cs := by
  induction cs with
  | nil => exact h
  | cons c cs ih =>
    have hhead : (cs ++ rest).head? = some '/' ↔ cs.head? = some '/' := by
      cases cs with
      | nil => simpa using hslash
      | cons d cs => rfl
    rw [List.cons_append, beforeClosing?, beforeClosing?, ih]
    simp only [hhead]

/-- A delimiter has a star, so it does not start in a text without one. -/
theorem beforeClosing_of_not_mem {cs : List Char} (h : '*' ∉ cs) {rest : List Char}
    (hrest : beforeClosing? rest = none) : beforeClosing? (cs ++ rest) = none := by
  induction cs with
  | nil => exact hrest
  | cons c cs ih =>
    obtain ⟨hc, hcs⟩ := not_or.mp (mt List.mem_cons.mpr h)
    rw [List.cons_append, beforeClosing?, ih hcs, if_neg fun hstar => hc hstar.1.symm]

/-- What is left of a line when the closing delimiter is cut off. -/
def contentOf (isLast : Bool) (line : List Char) : List Char :=
  (if isLast then beforeClosing? line else none).getD line

/-- The closing delimiter stands before the at sign, or behind the word after it. -/
theorem contentOf_word (isLast : Bool) (before rest : List Char) :
    (∃ content, ∀ word, IsTagWord word →
      contentOf isLast (before ++ '@' :: (word ++ rest)) = content) ∨
    ∃ tail, tail <+: rest ∧ ∀ word, IsTagWord word →
      contentOf isLast (before ++ '@' :: (word ++ rest)) = before ++ '@' :: (word ++ tail) := by
  cases isLast with
  | false => exact .inr ⟨rest, List.prefix_rfl, fun _ _ => rfl⟩
  | true =>
    cases hrest : beforeClosing? rest with
    | some tail =>
      refine .inr ⟨tail, beforeClosing_prefix hrest, fun word _ => ?_⟩
      have hcut := beforeClosing_append_of_some hrest (before ++ '@' :: word)
      simp only [List.append_assoc, List.cons_append] at hcut
      simp [contentOf, hcut]
    | none =>
      have hbefore : ∀ word, IsTagWord word →
          beforeClosing? (before ++ '@' :: (word ++ rest)) = beforeClosing? before := by
        intro word h
        have hstar : '*' ∉ '@' :: word := by simp [h.not_mem_star]
        exact beforeClosing_append_of_none (beforeClosing_of_not_mem hstar hrest) (by simp) before
      cases hcut : beforeClosing? before with
      | some cut => exact .inl ⟨cut, fun word h => by simp [contentOf, hbefore word h, hcut]⟩
      | none =>
        exact .inr ⟨rest, List.prefix_rfl, fun word h => by simp [contentOf, hbefore word h, hcut]⟩

/-! ## The start of a line -/

theorem takeWhile_at (before rest : List Char) :
    (before ++ '@' :: rest).takeWhile Text.isBlank = before.takeWhile Text.isBlank := by
  induction before with
  | nil => rfl
  | cons c before ih => rw [List.cons_append, List.takeWhile_cons, List.takeWhile_cons, ih]

theorem dropWhile_at (before rest : List Char) :
    (before ++ '@' :: rest).dropWhile Text.isBlank =
      before.dropWhile Text.isBlank ++ '@' :: rest := by
  induction before with
  | nil => rfl
  | cons c before ih =>
    rw [List.cons_append, List.dropWhile_cons, List.dropWhile_cons, ih]
    split <;> rfl

/-- An opening delimiter does not reach over an at sign. -/
theorem openingLength_at (before rest : List Char) :
    openingLength? (before ++ '@' :: rest) = openingLength? before := by
  simp only [openingLength?, takeWhile_at, dropWhile_at]
  generalize before.dropWhile Text.isBlank = cs
  rcases cs with _ | ⟨c, _ | ⟨d, _ | ⟨e, r⟩⟩⟩
  · rfl
  · simp
  · by_cases h : c = '/' ∧ d = '*'
    · simp [h.1, h.2]
    · simp only [List.cons_append, List.nil_append]
      split <;> simp_all
  · by_cases h : c = '/' ∧ d = '*'
    · by_cases he : e = '*' <;> simp [h.1, h.2, he]
    · simp only [List.cons_append]
      split <;> simp_all

/-- The decoration of a line does not reach over an at sign. -/
theorem decorationLength_at (before rest : List Char) :
    decorationLength (before ++ '@' :: rest) = decorationLength before := by
  simp only [decorationLength, takeWhile_at, dropWhile_at]
  generalize before.dropWhile Text.isBlank = cs
  rcases cs with _ | ⟨c, _ | ⟨d, r⟩⟩
  · rfl
  · by_cases h : c = '*'
    · subst h
      rfl
    · simp only [List.cons_append, List.nil_append]
      split <;> simp_all
  · by_cases h : c = '*'
    · by_cases hd : d = '/' <;> simp [h, hd]
    · simp only [List.cons_append]
      split <;> simp_all

theorem length_le_of_hasLead {isFirst : Bool} {n : Nat} {cs : List Char}
    (h : HasLead isFirst n cs) : n ≤ cs.length := by
  obtain ⟨before, rest, rfl, rfl, -⟩ := h
  simp

/-! ## Whole lines -/

theorem lineOf_eq {isFirst : Bool} {line : List Char} {opening : Option Nat} (isLast : Bool)
    (h : (if isFirst then openingLength? (dropReturns line) else none) = opening) :
    let content := contentOf isLast ((dropReturns line).drop (opening.getD 0))
    lineOf isFirst isLast line = ⟨Text.trimEnd (content.drop (skipped opening content)),
      opening.getD 0 + skipped opening content⟩ := by
  simp only [lineOf, h, contentOf, skipped]
  cases if isLast then beforeClosing? ((dropReturns line).drop (opening.getD 0)) else none <;> rfl

theorem skipped_at (opening : Option Nat) (before rest : List Char) :
    skipped opening (before ++ '@' :: rest) = skipped opening before := by
  rw [skipped, skipped, decorationLength_at]

theorem skipped_le (opening : Option Nat) (content : List Char) :
    skipped opening content ≤ content.length := by
  rw [skipped]
  split
  · exact Nat.zero_le _
  · exact length_le_of_hasLead (hasLead_decorationLength false content)

/-- The text of a line with an at sign in it lies before the at sign, or has the word behind it,
whatever that is; what stands around it is the same for all words. -/
theorem lineOf_word (isFirst isLast : Bool) (before rest : List Char) :
    (∃ line, ∀ word, IsTagWord word →
      lineOf isFirst isLast (before ++ '@' :: (word ++ rest)) = line) ∨
    ∃ lead tail column, tail <+: rest ∧ column + lead.length = before.length ∧
      ∀ word, IsTagWord word →
        lineOf isFirst isLast (before ++ '@' :: (word ++ rest)) =
          ⟨lead ++ '@' :: (word ++ tail), column⟩ := by
  obtain ⟨opening, hopening⟩ : ∃ opening,
      (if isFirst then openingLength? before else none) = opening := ⟨_, rfl⟩
  have hstart : opening.getD 0 ≤ before.length := by
    cases opening with
    | none => exact Nat.zero_le _
    | some n =>
      split at hopening
      · exact length_le_of_hasLead (hasLead_openingLength hopening)
      · cases hopening
  have hline : ∀ word, IsTagWord word →
      let content := contentOf isLast
        (before.drop (opening.getD 0) ++ '@' :: (word ++ dropReturns rest))
      lineOf isFirst isLast (before ++ '@' :: (word ++ rest)) =
        ⟨Text.trimEnd (content.drop (skipped opening content)),
          opening.getD 0 + skipped opening content⟩ := by
    intro word h
    rw [← List.drop_append_of_le_length hstart, ← dropReturns_word h]
    refine lineOf_eq isLast ?_
    rw [dropReturns_word h, openingLength_at, hopening]
  obtain ⟨content, hcontent⟩ | ⟨tail, htail, hcontent⟩ :=
    contentOf_word isLast (before.drop (opening.getD 0)) (dropReturns rest)
  · refine .inl ⟨⟨Text.trimEnd (content.drop (skipped opening content)),
      opening.getD 0 + skipped opening content⟩, fun word h => ?_⟩
    rw [hline word h, hcontent word h]
  · have hskipped := skipped_le opening (before.drop (opening.getD 0))
    have hreturns := dropReturns_prefix rest
    refine .inr ⟨(before.drop (opening.getD 0)).drop
        (skipped opening (before.drop (opening.getD 0))), Text.trimEnd tail,
      opening.getD 0 + skipped opening (before.drop (opening.getD 0)),
      (Text.trimEnd_prefix tail).trans (htail.trans hreturns), ?_,
      fun word h => ?_⟩
    · rw [List.length_drop] at hskipped
      rw [List.length_drop, List.length_drop]
      omega
    · rw [hline word h, hcontent word h, skipped_at, List.drop_append_of_le_length hskipped,
        trimEnd_word h]

end Comment

end DocCheck
