import DocCheck.Proofs.TypeExpr.Grammar
import DocCheck.Proofs.TypeExpr.Routine

/-!
# Every routine advances

One lemma for each routine of the reader, over the branches of its body: the calls
it makes in front of the same tokens go to a lower tier, all others stand behind a
token that it has taken, and so does what it leaves.

Results:

* `Routine.body_advances`: the routines together.
* `Runs.behind`: a call that does not fail leaves fewer tokens than it found.
* `exists_runs`: every call ends, at a depth that is linear in the number of tokens.
-/
namespace DocCheck.TypeExpr

/-! ## The first token -/

theorem startsWith_iff {m : Mark} {ts : List Token} :
    startsWith m ts = true ↔ ∃ r, ts = .mark m :: r := by
  constructor
  · intro h
    unfold startsWith at h
    split at h
    · rename_i m' r
      exact ⟨r, by rw [of_decide_eq_true h]⟩
    · cases h
  · rintro ⟨r, rfl⟩
    exact decide_eq_true rfl

theorem startsFunction_iff {ts : List Token} :
    Body.startsFunction ts = true ↔ ∃ r, ts = .ident "function" :: .mark .openParen :: r := by
  constructor
  · intro h
    unfold Body.startsFunction at h
    split at h
    · exact ⟨_, rfl⟩
    · cases h
  · rintro ⟨r, rfl⟩
    rfl

theorem behind_cons (t : Token) (r : List Token) : Behind (t :: r) r :=
  ⟨List.suffix_cons t r, by simp⟩

theorem behind_tail {m : Mark} {ts : List Token} (h : startsWith m ts = true) :
    Behind ts ts.tail := by
  obtain ⟨r, rfl⟩ := startsWith_iff.mp h
  exact behind_cons _ r

/-! ## One routine after the other -/

section Advance

variable {q : Routine} {ts : List Token} {α : Type} {P : List Token → Prop}

theorem Routine.Descends.suffix {q' : Routine} {ts' : List Token} (h : q.Descends ts q' ts') :
    ts' <:+ ts := by
  rcases h with h | ⟨rfl, -⟩
  · exact h.1
  · exact List.suffix_refl _

theorem Body.expecting_advances {m : Mark} {ts' : List Token} {next : List Token → Body α}
    (h : ∀ r, ts' = .mark m :: r → (next r).Advances q ts P) :
    (Body.expecting m ts' next).Advances q ts P := by
  rw [Body.expecting]
  cases he : expect m ts' with
  | none => trivial
  | some r => exact h r (expect_eq_some he)

/-- Separated items advance when the first one goes down: the others stand behind separators. -/
theorem Body.separated_advances {sep : Mark} {q' : Routine} {ts' : List Token}
    {next : q'.Tree → List q'.Tree → List Token → Body α} (hq : ∀ r, q'.IsEntered r)
    (hd : q.Descends ts q' ts')
    (hnext : ∀ first more r, Behind ts' r → (next first more r).Advances q ts P) :
    (Body.separated sep q' ts' next).Advances q ts P := by
  refine ⟨hq ts', hd, fun first r hr => ⟨hr.1.trans hd.suffix, fun r' hr' hsep => ?_,
    fun more r' hr' => hnext first more r' (hr.trans_suffix hr')⟩⟩
  have htail := behind_tail hsep
  refine ⟨hq _, .inl ?_, fun _ r'' hr'' => hr''.of_suffix htail.1⟩
  exact htail.of_suffix ((hr'.trans hr.1).trans hd.suffix)

end Advance

section Routines

variable (ts : List Token)

theorem Body.typeList_advances : (Body.typeList ts).Advances .typeList ts (Behind ts) :=
  Body.separated_advances (fun _ => trivial) (.inr ⟨rfl, 4, rfl, 5, rfl, by decide⟩)
    fun _ _ _ hr => hr

theorem Body.member_advances : (Body.member ts).Advances .member ts (Behind ts) := by
  rw [Body.member]
  split
  · rename_i h
    exact ⟨h, .inr ⟨rfl, 3, rfl, 4, rfl, by decide⟩, fun _ _ hr => hr⟩
  · refine ⟨trivial, .inr ⟨rfl, 3, rfl, 4, rfl, by decide⟩, fun t r hr => ?_⟩
    dsimp only
    split
    · exact hr.trans_suffix (List.tail_suffix r)
    · exact hr

theorem Body.variadic_advances (h : startsWith .ellipsis ts = true) :
    (Body.variadic ts).Advances .variadic ts (Behind ts) := by
  have htail := behind_tail h
  rw [Body.variadic]
  split
  · exact htail
  · exact ⟨trivial, .inl htail, fun _ _ hr => hr.of_suffix htail.1⟩

theorem Body.unary_advances : (Body.unary ts).Advances .unary ts (Behind ts) := by
  rw [Body.unary]
  split
  · rename_i h
    have htail := behind_tail h
    split
    · exact htail
    · exact ⟨trivial, .inl htail, fun _ _ hr => hr.of_suffix htail.1⟩
  · split
    · rename_i h
      have htail := behind_tail h
      exact ⟨trivial, .inl htail, fun _ _ hr => hr.of_suffix htail.1⟩
    · exact ⟨trivial, .inr ⟨rfl, 2, rfl, 3, rfl, by decide⟩, fun _ _ hr => hr⟩

theorem Body.suffixed_advances : (Body.suffixed ts).Advances .suffixed ts (Behind ts) :=
  ⟨trivial, .inr ⟨rfl, 1, rfl, 2, rfl, by decide⟩, fun _ _ hr =>
    ⟨hr.1, fun _ _ h => behind_tail h, fun _ _ hr' => hr.trans_suffix hr'⟩⟩

theorem Body.primary_advances : (Body.primary ts).Advances .primary ts (Behind ts) := by
  rw [Body.primary]
  split
  · rename_i h
    have htail := behind_tail h
    refine ⟨trivial, .inl htail, fun t r hr => Body.expecting_advances ?_⟩
    rintro r' rfl
    exact (hr.of_suffix htail.1).trans_suffix (List.suffix_cons _ r')
  · split
    · rename_i h
      exact ⟨h, .inr ⟨rfl, 0, rfl, 1, rfl, by decide⟩, fun _ _ hr => hr⟩
    · split
      · rename_i h
        exact behind_tail h
      · split
        · rename_i h
          exact ⟨h, .inr ⟨rfl, 0, rfl, 1, rfl, by decide⟩, fun _ _ hr => hr⟩
        · refine ⟨trivial, .inr ⟨rfl, 0, rfl, 1, rfl, by decide⟩, fun name r hr => ?_⟩
          dsimp only
          split
          · rename_i h
            exact ⟨(Bool.or_eq_true _ _).mp h, .inl hr, fun _ _ hr' => hr'.of_suffix hr.1⟩
          · exact hr

theorem Body.name_advances : (Body.name ts).Advances .name ts (Behind ts) := by
  unfold Body.name
  split
  · rename_i first r
    have hr := behind_cons (.ident first) r
    refine ⟨hr.1, fun r' _ h => ?_, fun _ _ hr' => hr.trans_suffix hr'⟩
    unfold Body.part
    split
    · exact (behind_cons _ _).trans_suffix (List.suffix_cons _ _)
    · trivial
  · trivial

theorem Body.arguments_advances (base : String)
    (h : startsWith .less ts = true ∨ startsWith .dotLess ts = true) :
    (Body.arguments base ts).Advances (.arguments base) ts (Behind ts) := by
  have htail : Behind ts ts.tail := h.elim behind_tail behind_tail
  refine Body.separated_advances (fun _ => trivial) (.inl htail) fun first more r hr => ?_
  refine Body.expecting_advances ?_
  rintro r' rfl
  exact (hr.of_suffix htail.1).trans_suffix (List.suffix_cons _ r')

theorem Body.functionEnd_advances {r : List Token} (hr : Behind ts r)
    (params : List (Option String × TypeExpr)) :
    (Body.functionEnd params r).Advances .function ts (Behind ts) := by
  refine Body.expecting_advances ?_
  rintro r' rfl
  have hr' := hr.trans_suffix (List.suffix_cons _ r')
  split
  · exact ⟨trivial, .inl (hr'.trans_suffix (List.tail_suffix r')),
      fun _ _ h => h.of_suffix (hr'.trans_suffix (List.tail_suffix r')).1⟩
  · exact hr'

theorem Body.functionParams_advances {r : List Token} (hr : Behind ts r) :
    (Body.functionParams r).Advances .function ts (Behind ts) := by
  rw [Body.functionParams]
  split
  · exact Body.functionEnd_advances _ hr []
  · exact Body.separated_advances (fun _ => trivial) (.inl hr) fun first more r' hr' =>
      Body.functionEnd_advances _ (hr'.of_suffix hr.1) (first :: more)

theorem Body.function_advances (h : Body.startsFunction ts = true) :
    (Body.function ts).Advances .function ts (Behind ts) := by
  obtain ⟨r, rfl⟩ := startsFunction_iff.mp h
  refine Body.expecting_advances ?_
  rintro r' ⟨rfl⟩
  have hr := behind_cons (.ident "function") (.mark .openParen :: r)
  exact Body.functionParams_advances _ (hr.trans_suffix (List.suffix_cons _ r))

theorem Body.param_advances : (Body.param ts).Advances .param ts (Behind ts) := by
  unfold Body.param
  split
  · rename_i name r
    have hr := (behind_cons (.ident name) (.mark .colon :: r)).trans_suffix (List.suffix_cons _ r)
    exact ⟨trivial, .inl hr, fun _ _ h => h.of_suffix hr.1⟩
  · exact ⟨trivial, .inr ⟨rfl, 5, rfl, 6, rfl, by decide⟩, fun _ _ h => h⟩

theorem Body.recordEnd_advances {r : List Token} (hr : Behind ts r)
    (fields : List (String × TypeExpr)) :
    (Body.recordEnd fields r).Advances .record ts (Behind ts) := by
  refine Body.expecting_advances ?_
  rintro r' rfl
  exact hr.trans_suffix (List.suffix_cons _ r')

theorem Body.record_advances : (Body.record ts).Advances .record ts (Behind ts) := by
  refine Body.expecting_advances ?_
  rintro r rfl
  have hr := behind_cons (.mark .openBrace) r
  split
  · exact Body.recordEnd_advances _ hr []
  · exact Body.separated_advances (fun _ => trivial) (.inl hr) fun first more r' hr' =>
      Body.recordEnd_advances _ (hr'.of_suffix hr.1) (first :: more)

theorem Body.field_advances : (Body.field ts).Advances .field ts (Behind ts) := by
  unfold Body.field
  split
  · rename_i name r
    refine Body.expecting_advances ?_
    rintro r' rfl
    have hr := (behind_cons (.ident name) (.mark .colon :: r')).trans_suffix
      (List.suffix_cons _ r')
    exact ⟨trivial, .inl hr, fun _ _ h => h.of_suffix hr.1⟩
  · trivial

/-- Every routine advances where others call it. -/
theorem Routine.body_advances {q : Routine} {ts : List Token} (hq : q.IsEntered ts) :
    (q.body ts).Advances q ts (Behind ts) := by
  cases q with
  | typeList => exact Body.typeList_advances ts
  | member => exact Body.member_advances ts
  | variadic => exact Body.variadic_advances ts hq
  | unary => exact Body.unary_advances ts
  | suffixed => exact Body.suffixed_advances ts
  | primary => exact Body.primary_advances ts
  | name => exact Body.name_advances ts
  | arguments base => exact Body.arguments_advances ts base hq
  | function => exact Body.function_advances ts hq
  | param => exact Body.param_advances ts
  | record => exact Body.record_advances ts
  | field => exact Body.field_advances ts

end Routines

/-! ## All calls -/

/-- A call that gives something leaves fewer tokens than it found. -/
theorem Runs.behind {d : Nat} {q : Routine} {ts r : List Token} {t : q.Tree}
    (hq : q.IsEntered ts) (h : Runs d q ts (some (t, r))) : Behind ts r := by
  induction d generalizing q ts r with
  | zero => exact h.elim
  | succ d ih => exact Ends.advances (fun hq h => ih hq h) h (Routine.body_advances hq)

/-- How deep the calls may nest below a call. -/
def Routine.height (q : Routine) (ts : List Token) : Nat := 7 * ts.length + q.tier.getD 0

theorem Routine.tier_getD_le (q : Routine) : q.tier.getD 0 ≤ 6 := by
  cases q <;> simp [Routine.tier]

theorem Routine.Descends.height_lt {q q' : Routine} {ts ts' : List Token}
    (h : q.Descends ts q' ts') : q'.height ts' < q.height ts := by
  rcases h with h | ⟨rfl, i, hi, j, hj, hij⟩
  · have hlen := h.2
    have htier := q'.tier_getD_le
    simp only [Routine.height]
    omega
  · simp only [Routine.height, Option.mem_def.mp hi, Option.mem_def.mp hj, Option.getD_some]
    omega

/-- Every call ends. -/
theorem exists_runs {q : Routine} {ts : List Token} (hq : q.IsEntered ts) :
    ∃ out, Runs (q.height ts + 1) q ts out := by
  -- on the height, since the calls of the body all have less below them
  induction hn : q.height ts using Nat.strongRecOn generalizing q ts with
  | ind n ih =>
    refine exists_ends (fun hq h => Runs.behind hq h) (Routine.body_advances hq)
      fun hq' hd => ?_
    have hlt := hd.height_lt
    obtain ⟨out, h⟩ := ih _ (hn ▸ hlt) hq' rfl
    exact ⟨out, h.mono (by omega)⟩

end DocCheck.TypeExpr
