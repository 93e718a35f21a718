import Mathlib.Data.List.Infix
import DocCheck.Comment.Parser

/-!
# Brackets in tags

A tag finds where a bracket closes by counting those that are open, whatever else
stands between them. The count first comes down to nothing behind the shortest part
of the text that holds as many closing brackets as opening ones.

Results:

* `scanned_closingSplit`: the scan finds where all open brackets are closed, if that is anywhere.
* `closingSplit_block`: a text whose brackets nest is found between its own brackets.
* `isBlock_of_closingSplit`, `unclosed_of_closingSplit`: what the scan tells of a text that opens
  with a bracket.
-/
namespace DocCheck.Tag

/-- The brackets of a text nest: nothing is closed before it was opened, and nothing is left
open. -/
structure Nests (opener closer : Char) (cs : List Char) : Prop where
  sane : ∀ p, p <+: cs → p.count closer ≤ p.count opener
  settled : cs.count opener = cs.count closer

instance (opener closer : Char) (cs : List Char) : Decidable (Nests opener closer cs) :=
  decidable_of_iff ((∀ p ∈ cs.inits, p.count closer ≤ p.count opener) ∧
      cs.count opener = cs.count closer)
    ⟨fun h => ⟨fun p hp => h.1 p ((List.mem_inits _ _).mpr hp), h.2⟩,
      fun h => ⟨fun p hp => h.sane p ((List.mem_inits _ _).mp hp), h.settled⟩⟩

/-- A part at the start of a text that opens with a bracket and nests, and the shortest one that is
not empty. -/
structure IsBlock (opener closer : Char) (block cs : List Char) : Prop where
  starts : block <+: cs
  opens : block.head? = some opener
  nests : Nests opener closer block
  shortest : ∀ p, p <+: cs → p ≠ [] → Nests opener closer p → block.length ≤ p.length

/-- A text that opens with a bracket, and no part of which at its start has it closed. -/
structure Unclosed (opener closer : Char) (cs : List Char) : Prop where
  opens : cs.head? = some opener
  never : ∀ p, p <+: cs → p ≠ [] → ¬ Nests opener closer p

/-! ## The scan -/

/-- A text that closes `n` open brackets and those that it opens, the last of them at its end. -/
structure Closes (opener closer : Char) (n : Nat) (block : List Char) : Prop where
  settled : block.count closer = block.count opener + n
  first : ∀ p, p <+: block → p ≠ block → p.count closer < p.count opener + n

section

variable {opener closer : Char} {n : Nat}

theorem count_cons_eq (x c : Char) (cs : List Char) :
    (c :: cs).count x = [c].count x + cs.count x := by
  rw [← List.singleton_append, List.count_append]

/-- One more character in front, with the number of open brackets before and behind it. -/
theorem Closes.cons {m : Nat} {block : List Char} (h : Closes opener closer m block) (hn : 0 < n)
    (c : Char) (hm : m + [c].count closer = n + [c].count opener) :
    Closes opener closer n (c :: block) := by
  refine ⟨?_, fun p hp hne => ?_⟩
  · have := h.settled
    rw [count_cons_eq closer c block, count_cons_eq opener c block]
    omega
  · rcases List.prefix_cons_iff.mp hp with rfl | ⟨q, rfl, hq⟩
    · simpa using hn
    · have := h.first q hq fun he => hne (by rw [he])
      rw [count_cons_eq closer c q, count_cons_eq opener c q]
      omega

/-- Only one text at the start of another closes the open brackets. -/
theorem Closes.eq_of_starts {block block' cs : List Char} (h : Closes opener closer n block)
    (h' : Closes opener closer n block') (hs : block <+: cs) (hs' : block' <+: cs) :
    block = block' := by
  by_contra hne
  rcases List.prefix_or_prefix_of_prefix hs hs' with hp | hp
  · have := h'.first block hp hne
    have := h.settled
    omega
  · have := h.first block' hp (Ne.symm hne)
    have := h'.settled
    omega

/-- What the result of a scan with `n` open brackets tells of the text. -/
def Scanned (opener closer : Char) (n : Nat) (cs : List Char) :
    Option (List Char × List Char) → Prop
  | none => ∀ p, p <+: cs → p.count closer < p.count opener + n
  | some (block, rest) => cs = block ++ rest ∧ Closes opener closer n block

theorem Scanned.cons {m : Nat} {cs : List Char} {result : Option (List Char × List Char)}
    (h : Scanned opener closer m cs result) (hn : 0 < n) (c : Char)
    (hm : m + [c].count closer = n + [c].count opener) :
    Scanned opener closer n (c :: cs) (result.map fun p => (c :: p.1, p.2)) := by
  cases result with
  | none =>
    intro p hp
    rcases List.prefix_cons_iff.mp hp with rfl | ⟨q, rfl, hq⟩
    · simpa using hn
    · have := h q hq
      rw [count_cons_eq closer c q, count_cons_eq opener c q]
      omega
  | some part =>
    obtain ⟨rfl, hcloses⟩ := h
    exact ⟨rfl, hcloses.cons hn c hm⟩

/-- Either some brackets stay open in every part of the text, or the scan ends where they are
closed. -/
theorem scanned_closingSplit (hne : opener ≠ closer) (n : Nat) (cs : List Char) :
    Scanned opener closer (n + 1) cs (closingSplit? opener closer (n + 1) cs) := by
  induction cs generalizing n with
  | nil =>
    intro p hp
    simp [List.prefix_nil.mp hp]
  | cons c cs ih =>
    rw [closingSplit?]
    split
    · rename_i hc
      subst hc
      exact (ih (n + 1)).cons (Nat.succ_pos n) c (by simp [hne])
    · split
      · rename_i hopener hc
        subst hc
        cases n with
        | zero =>
          have hnil : Closes opener c 0 [] := ⟨rfl, by simp⟩
          rw [if_pos (by omega)]
          exact ⟨rfl, hnil.cons (Nat.succ_pos 0) c (by simp [Ne.symm hne])⟩
        | succ n =>
          rw [if_neg (by omega), Nat.add_sub_cancel]
          exact (ih n).cons (Nat.succ_pos _) c (by simp [Ne.symm hne])
      · rename_i hopener hcloser
        exact (ih n).cons (Nat.succ_pos n) c (by simp [hopener, hcloser])

/-- The scan ends behind a text that closes the open brackets. -/
theorem closingSplit_of_closes (hne : opener ≠ closer) {block : List Char}
    (h : Closes opener closer (n + 1) block) (rest : List Char) :
    closingSplit? opener closer (n + 1) (block ++ rest) = some (block, rest) := by
  have hscan := scanned_closingSplit hne n (block ++ rest)
  cases hr : closingSplit? opener closer (n + 1) (block ++ rest) with
  | none =>
    rw [hr] at hscan
    have := hscan block (List.prefix_append _ _)
    have := h.settled
    omega
  | some part =>
    rw [hr] at hscan
    obtain ⟨he, h'⟩ := hscan
    obtain rfl := h.eq_of_starts h' (List.prefix_append block rest) ⟨part.2, he.symm⟩
    rw [List.append_cancel_left he]

/-! ## Texts that open with a bracket -/

theorem closingSplit_opener (cs : List Char) :
    closingSplit? opener closer 0 (opener :: cs) =
      (closingSplit? opener closer 1 cs).map fun p => (opener :: p.1, p.2) := by
  rw [closingSplit?, if_pos rfl]

/-- A text whose brackets nest is found between its own brackets, whatever follows. -/
theorem closingSplit_block (hne : opener ≠ closer) {cs : List Char} (h : Nests opener closer cs)
    (rest : List Char) :
    closingSplit? opener closer 0 (opener :: cs ++ closer :: rest) =
      some (opener :: cs ++ [closer], rest) := by
  have hcloses : Closes opener closer 1 (cs ++ [closer]) := by
    refine ⟨?_, fun p hp hpne => ?_⟩
    · simp [Ne.symm hne, h.settled]
    · have := h.sane p ((List.prefix_concat_iff.mp hp).resolve_left hpne)
      omega
  have hscan := closingSplit_of_closes (n := 0) hne hcloses rest
  rw [List.append_assoc, List.singleton_append] at hscan
  rw [List.cons_append, closingSplit_opener, hscan]
  rfl

/-- Parts of a text that opens with a bracket have that bracket open. -/
theorem starts_opener {p cs : List Char} (h : p <+: opener :: cs) (hp : p ≠ []) :
    ∃ q, p = opener :: q ∧ q <+: cs :=
  (List.prefix_cons_iff.mp h).resolve_left hp

theorem isBlock_of_closes (hne : opener ≠ closer) {block rest : List Char}
    (h : Closes opener closer 1 block) :
    IsBlock opener closer (opener :: block) (opener :: block ++ rest) := by
  have hcloser (q : List Char) : (opener :: q).count closer = q.count closer :=
    List.count_cons_of_ne hne
  have hopener (q : List Char) : (opener :: q).count opener = q.count opener + 1 :=
    List.count_cons_self
  refine ⟨List.prefix_append _ _, rfl, ⟨fun p hp => ?_, ?_⟩, fun p hp hpne hnests => ?_⟩
  · rcases List.prefix_cons_iff.mp hp with rfl | ⟨q, rfl, hq⟩
    · simp
    · rw [hcloser, hopener]
      by_cases he : q = block
      · rw [he, h.settled]
      · exact Nat.le_of_lt (h.first q hq he)
  · rw [hcloser, hopener, h.settled]
  · -- a shorter part is a part of the block, and has its first bracket open
    obtain ⟨q, rfl, hq⟩ := starts_opener hp hpne
    by_contra hlt
    have hlen : q.length < block.length := by simpa using hlt
    have hqb : q <+: block :=
      List.prefix_of_prefix_length_le hq (List.prefix_append _ _) (Nat.le_of_lt hlen)
    have hfirst := h.first q hqb fun he => by simp [he] at hlen
    have hsettled := hnests.settled
    rw [hcloser, hopener] at hsettled
    omega

/-- Where the scan ends, the text has its first bracket closed. -/
theorem isBlock_of_closingSplit (hne : opener ≠ closer) {cs block rest : List Char}
    (h : closingSplit? opener closer 0 (opener :: cs) = some (block, rest)) :
    opener :: cs = block ++ rest ∧ IsBlock opener closer block (opener :: cs) := by
  have hscan := scanned_closingSplit hne 0 cs
  rw [closingSplit_opener, Option.map_eq_some_iff] at h
  obtain ⟨⟨block', rest'⟩, hsome, he⟩ := h
  rw [hsome] at hscan
  obtain ⟨rfl, hcloses⟩ := hscan
  cases he
  exact ⟨rfl, isBlock_of_closes hne hcloses⟩

/-- Where the scan does not end, no part of the text has its brackets closed. -/
theorem unclosed_of_closingSplit (hne : opener ≠ closer) {cs : List Char}
    (h : closingSplit? opener closer 0 (opener :: cs) = none) :
    Unclosed opener closer (opener :: cs) := by
  have hscan := scanned_closingSplit hne 0 cs
  rw [closingSplit_opener, Option.map_eq_none_iff] at h
  rw [h] at hscan
  refine ⟨rfl, fun p hp hpne hnests => ?_⟩
  obtain ⟨q, rfl, hq⟩ := starts_opener hp hpne
  have hsettled := hnests.settled
  rw [List.count_cons_self, List.count_cons_of_ne hne] at hsettled
  have := hscan q hq
  omega

end

end DocCheck.Tag
