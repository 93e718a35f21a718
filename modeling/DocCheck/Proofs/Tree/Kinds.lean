import DocCheck.Tree.Kinds

/-!
# Every expression has a kind

The analysis of returns takes a function for one without a return of a value when
it finds no kinds. So no form of expression may be without a kind.

Results:

* `Node.inductionOn`: induction over a node and the nodes inside it.
* `Node.exists_valueKinds`: each expression has at least one kind.
-/
namespace DocCheck.Node

/-- Induction over trees, with a hypothesis for each child. -/
@[elab_as_elim] theorem inductionOn {P : Node → Prop} (n : Node)
    (h : ∀ m : Node, (∀ c ∈ m.children, P c) → P m) : P n := by
  have key : ∀ k, ∀ m : Node, m.size ≤ k → P m := by
    intro k
    induction k with
    | zero =>
      intro m hm
      have := m.size_pos
      omega
    | succ k ih =>
      intro m hm
      refine h m fun c hc => ih c ?_
      have := size_le_of_mem hc
      have := m.size_eq
      omega
  exact key n.size n (Nat.le_refl _)

theorem exists_of_kindsOfRole {role : String} {cs : List Node} {s : KindSet}
    (h : kindsOfRole role cs = some s) : ∃ c ∈ cs, s = c.valueKinds := by
  induction cs with
  | nil => cases h
  | cons c cs ih =>
    rw [kindsOfRole] at h
    split at h
    · cases h
      exact ⟨c, by simp, rfl⟩
    · obtain ⟨d, hd, he⟩ := ih h
      exact ⟨d, by simp [hd], he⟩

theorem exists_of_kindsOfLast {cs : List Node} {s : KindSet} (h : kindsOfLast cs = some s) :
    ∃ c ∈ cs, s = c.valueKinds := by
  induction cs with
  | nil => cases h
  | cons c cs ih =>
    rw [kindsOfLast] at h
    split at h
    · rename_i t ht
      cases h
      obtain ⟨d, hd, he⟩ := ih ht
      exact ⟨d, by simp [hd], he⟩
    · split at h
      · cases h
        exact ⟨c, by simp, rfl⟩
      · cases h

theorem exists_single (k : ValueKind) : ∃ k', (KindSet.single k).has k' = true :=
  ⟨k, by simp [KindSet.single]⟩

/-- An expression has at least one kind. -/
theorem exists_valueKinds (n : Node) : ∃ k, n.valueKinds.has k = true := by
  induction n using inductionOn with
  | h m ih =>
  obtain ⟨kind, _, _, text, _, _, cs⟩ := m
  rw [valueKinds]
  split
  · exact exists_single _
  · split
    · exact exists_single _
    split
    · -- parentheses
      cases hl : kindsOfLast cs with
      | none => exact exists_single _
      | some s =>
        obtain ⟨c, hc, rfl⟩ := exists_of_kindsOfLast hl
        exact ih c hc
    split
    · split
      · rename_i s t hs ht
        obtain ⟨c, hc, rfl⟩ := exists_of_kindsOfRole hs
        obtain ⟨k, hk⟩ := ih c hc
        exact ⟨k, by simp [hk]⟩
      · exact exists_single _
    -- the other forms have one kind each
    repeat' split
    all_goals exact exists_single _

end DocCheck.Node
