import DocCheck.Proofs.TypeExpr.Advances
import DocCheck.Proofs.TypeExpr.Reads

/-!
# The reader goes down

A call of a routine ends as the reader does that is written for it, `typeList` to
`field`: whatever their bound on the depth, it is never what makes them fail. So
what the routines do on their way, the readers do.

Results:

* `agrees`, `runs_read`: routines and readers end alike.
* `descent_advances`: calls, rounds and ends by their places among the tokens.
-/
namespace DocCheck.TypeExpr

/-! ## The readers -/

/-- The reader that does the work of the routine. -/
def Routine.read : (q : Routine) → Nat → List Token → Option (q.Tree × List Token)
  | .typeList => TypeExpr.typeList
  | .member => TypeExpr.member
  | .variadic => TypeExpr.member
  | .unary => TypeExpr.unary
  | .suffixed => TypeExpr.read .suffixed
  | .primary => TypeExpr.primary
  | .name => fun _ => dottedName
  | .arguments base => fun n ts => typeArguments n base ts.tail
  | .function => TypeExpr.primary
  | .param => TypeExpr.param
  | .record => TypeExpr.primary
  | .field => TypeExpr.field

/-- The depth is enough for the reader in front of the tokens. -/
def Routine.Enough (q : Routine) (ts : List Token) (n : Nat) : Prop :=
  8 * ts.length + q.tier.getD 0 + 1 ≤ n

theorem Routine.Descends.enough {q q' : Routine} {ts ts' : List Token} {n : Nat}
    (h : q.Descends ts q' ts') (hn : q.Enough ts (n + 1)) : q'.Enough ts' n := by
  rcases h with h | ⟨rfl, i, hi, j, hj, hij⟩
  · have hlen := h.2
    have htier := q'.tier_getD_le
    simp only [Routine.Enough] at *
    omega
  · simp only [Routine.Enough, Option.mem_def.mp hi, Option.mem_def.mp hj, Option.getD_some] at *
    omega

/-- Behind a token the depth is enough for one call more. -/
theorem Behind.enough {q : Routine} {ts ts' : List Token} {n : Nat} (h : Behind ts ts')
    (hn : q.Enough ts (n + 2)) (q' : Routine) : q'.Enough ts' n := by
  have hlen := h.2
  have htier := q'.tier_getD_le
  simp only [Routine.Enough] at *
  omega

/-! ## One step of a body -/

theorem lacks_of_startsWith {m : Mark} {ts : List Token} (h : ¬ startsWith m ts = true) :
    Lacks m ts := by
  rintro r rfl
  exact h (startsWith_iff.mpr ⟨r, rfl⟩)

theorem expect_eq_none {m : Mark} {ts : List Token} (h : ¬ startsWith m ts = true) :
    expect m ts = none := by
  cases he : expect m ts with
  | none => rfl
  | some r => exact absurd (startsWith_iff.mpr ⟨r, expect_eq_some he⟩) h

/-- The reader of the further items that `q` reads, each behind a separator. -/
structure IsMore (sep : Mark) (q : Routine)
    (more : Nat → List Token → Option (List q.Tree × List Token)) : Prop where
  entered : ∀ ts, q.IsEntered ts
  next : ∀ n ts, more (n + 1) (.mark sep :: ts) =
    (q.read n ts).bind fun p => (more n p.2).bind fun s => some (p.1 :: s.1, s.2)
  last : ∀ n ts, Lacks sep ts → more (n + 1) ts = some ([], ts)

theorem isMore_members : IsMore .bar .member moreMembers where
  entered _ := trivial
  next _ _ := rfl
  last n ts h := by
    rw [moreMembers]
    exact h

theorem isMore_arguments : IsMore .comma .typeList moreArguments where
  entered _ := trivial
  next _ _ := rfl
  last n ts h := by
    rw [moreArguments]
    exact h

theorem isMore_params : IsMore .comma .param moreParams where
  entered _ := trivial
  next _ _ := rfl
  last n ts h := by
    rw [moreParams]
    exact h

theorem isMore_fields : IsMore .comma .field moreFields where
  entered _ := trivial
  next _ _ := rfl
  last n ts h := by
    rw [moreFields]
    exact h

/-- Calls that nest no deeper than this end as the readers do. -/
def Agrees (d : Nat) : Prop :=
  ∀ (q : Routine) (ts : List Token) (n : Nat) (out : Option (q.Tree × List Token)),
    q.IsEntered ts → q.Enough ts n → Runs d q ts out → out = q.read n ts

section Parts

variable {α : Type} {out : Option (α × List Token)} {q q' : Routine} {ts ts' : List Token}
  {P : List Token → Prop} {n : Nat}

theorem Ends.eq_done {callee : Callee} {a : α} {rest : List Token}
    (h : Ends callee (.done a rest) out) : out = some (a, rest) := by
  cases h
  rfl

theorem Ends.eq_expecting {callee : Callee} {m : Mark} {next : List Token → Body α}
    {f : List Token → Option (α × List Token)}
    (hb : (Body.expecting m ts' next).Advances q ts P)
    (h : Ends callee (.expecting m ts' next) out)
    (hs : ∀ r, ts' = .mark m :: r → (next r).Advances q ts P → Ends callee (next r) out →
      out = f r) : out = (expect m ts').bind f := by
  rw [Body.expecting] at hb h
  cases he : expect m ts' with
  | none =>
    rw [he] at h
    cases h
    rfl
  | some r =>
    rw [he] at hb h
    exact hs r (expect_eq_some he) hb h

variable {d : Nat} (hd : Agrees d)
include hd

theorem Ends.eq_call {next : q'.Tree → List Token → Body α}
    {f : q'.Tree × List Token → Option (α × List Token)}
    (hb : (Body.call q' ts' next).Advances q ts P) (hn : q'.Enough ts' n)
    (h : Ends (Runs d) (.call q' ts' next) out)
    (hs : ∀ t r, Behind ts' r → (next t r).Advances q ts P → Ends (Runs d) (next t r) out →
      out = f (t, r)) : out = (q'.read n ts').bind f := by
  obtain ⟨hq, -, hnext⟩ := hb
  cases h with
  | callFails h =>
    rw [← hd q' ts' n _ hq hn h]
    rfl
  | call h hrest =>
    have hr := Runs.behind hq h
    rw [← hd q' ts' n _ hq hn h]
    exact hs _ _ hr (hnext _ _ hr) hrest

/-- A call whose end is that of its caller. -/
theorem Ends.eq_read {out : Option (q'.Tree × List Token)} (hq : q'.IsEntered ts')
    (hn : q'.Enough ts' n) (h : Ends (Runs d) (.call q' ts' .done) out) :
    out = q'.read n ts' := by
  cases h with
  | callFails h => exact hd q' ts' n _ hq hn h
  | call h hrest =>
    cases hrest
    exact hd q' ts' n _ hq hn h

/-- The rounds of a loop are the further items. -/
theorem Ends.eq_loop {sep : Mark} {more : Nat → List Token → Option (List q'.Tree × List Token)}
    (hmore : IsMore sep q' more) {next : List q'.Tree → List Token → Body α}
    {f : List q'.Tree → List Token → Option (α × List Token)} (hn : 8 * ts'.length + 1 ≤ n)
    (h : Ends (Runs d) (.loop (startsWith sep) (fun r => .call q' r.tail .done) ts' next) out)
    (hs : ∀ us r, r <:+ ts' → Ends (Runs d) (next us r) out → out = f us r) :
    out = (more n ts').bind fun s => f s.1 s.2 := by
  -- on the depth: the reader of further items uses up a level for each of them
  induction n generalizing ts' next f with
  | zero => omega
  | succ n ih =>
    by_cases hsep : startsWith sep ts' = true
    · obtain ⟨r, rfl⟩ := startsWith_iff.mp hsep
      have htier := q'.tier_getD_le
      simp only [List.length_cons] at hn
      have henough : q'.Enough r n := by
        simp only [Routine.Enough]
        omega
      rw [hmore.next]
      cases h with
      | loopEnds h => rw [hsep] at h; cases h
      | loopFails _ hround =>
        have hread := hround.eq_read hd (hmore.entered r) henough
        rw [← hread]
        rfl
      | @loopAgain _ _ _ _ x r' _ _ _ _ hround hrest =>
        have hread := hround.eq_read hd (hmore.entered r) henough
        have hr' : Behind r r' := by
          cases hround with
          | call h hdone =>
            cases hdone
            exact Runs.behind (hmore.entered r) h
        rw [← hread, Option.bind_some, Option.bind_assoc]
        have hlen := hr'.2
        exact ih (by omega) hrest fun us r'' hr'' h =>
          hs (x :: us) r'' ((hr''.trans hr'.1).trans (List.suffix_cons _ r)) h
    · rw [hmore.last n ts' (lacks_of_startsWith hsep), Option.bind_some]
      cases h with
      | loopEnds _ hrest => exact hs [] ts' (List.suffix_refl _) hrest
      | loopFails h => exact absurd h hsep
      | loopAgain h => exact absurd h hsep

theorem Ends.eq_separated {sep : Mark}
    {more : Nat → List Token → Option (List q'.Tree × List Token)} (hmore : IsMore sep q' more)
    {next : q'.Tree → List q'.Tree → List Token → Body α}
    {f : q'.Tree → List q'.Tree → List Token → Option (α × List Token)}
    (hb : (Body.separated sep q' ts' next).Advances q ts P) (hn : q'.Enough ts' n)
    (h : Ends (Runs d) (.separated sep q' ts' next) out)
    (hs : ∀ first us r, (next first us r).Advances q ts P →
      Ends (Runs d) (next first us r) out → out = f first us r) :
    out = (q'.read n ts').bind fun p => (more n p.2).bind fun s => f p.1 s.1 s.2 := by
  refine Ends.eq_call hd hb hn h fun first r hr hb h => ?_
  have hlen := hr.2
  have hmuch : 8 * r.length + 1 ≤ n := by
    simp only [Routine.Enough] at hn
    omega
  exact Ends.eq_loop hd hmore hmuch h fun us r' hr' h => hs first us r' (hb.2.2 us r' hr') h

end Parts

/-! ## Loops without calls -/

/-- The brackets behind a type, one round each. -/
theorem Ends.eq_arraySuffixes {callee : Callee} {t : TypeExpr} {ts : List Token}
    {out : Option (TypeExpr × List Token)}
    (h : Ends callee (.loop (startsWith .brackets) (fun r => .done () r.tail) ts fun suffixes r =>
      .done (suffixes.foldl (fun t _ => .arrayOf t) t) r) out) :
    out = some (arraySuffixes t ts) := by
  fun_induction arraySuffixes t ts with
  | case1 t ts ih =>
    cases h with
    | loopEnds h => cases h
    | loopFails _ hround => cases hround
    | loopAgain _ hround hrest =>
      cases hround
      exact ih hrest
  | case2 t ts hn =>
    cases h with
    | loopEnds _ hrest => exact hrest.eq_done
    | loopFails h =>
      obtain ⟨r, rfl⟩ := startsWith_iff.mp h
      exact absurd rfl (hn r)
    | loopAgain h =>
      obtain ⟨r, rfl⟩ := startsWith_iff.mp h
      exact absurd rfl (hn r)

/-- The further parts of a dotted name, one round each. -/
theorem Ends.eq_dottedRest {callee : Callee} {f : List String → String} {ts : List Token}
    {out : Option (String × List Token)}
    (h : Ends callee (.loop Body.startsPart Body.part ts fun parts r => .done (f parts) r) out) :
    out = some (f (dottedRest ts).1, (dottedRest ts).2) := by
  fun_induction dottedRest ts generalizing f with
  | case1 part ts parts rest he ih =>
    rw [he] at ih
    cases h with
    | loopEnds h => cases h
    | loopFails _ hround => cases hround
    | loopAgain _ hround hrest =>
      cases hround
      exact ih hrest
  | case2 ts hn =>
    have hstop : Body.startsPart ts = false := by
      unfold Body.startsPart
      split
      · exact absurd rfl (hn _ _)
      · rfl
    cases h with
    | loopEnds _ hrest => exact hrest.eq_done
    | loopFails h => rw [hstop] at h; cases h
    | loopAgain h => rw [hstop] at h; cases h

theorem Ends.eq_name {callee : Callee} {ts : List Token} {out : Option (String × List Token)}
    (h : Ends callee (Body.name ts) out) : out = dottedName ts := by
  rcases ts with _ | ⟨first | m, r⟩
  · cases h
    rfl
  · exact Ends.eq_dottedRest h
  · cases h
    rfl

/-! ## One reader after the other -/

section Readers

variable {d : Nat} (hd : Agrees d) {n : Nat} {ts : List Token}
  {out : Option (TypeExpr × List Token)}
include hd

theorem Ends.eq_typeList (hn : Routine.typeList.Enough ts (n + 1))
    (h : Ends (Runs d) (Body.typeList ts) out) : out = TypeExpr.typeList (n + 1) ts := by
  have hb := Body.typeList_advances ts
  exact Ends.eq_separated hd isMore_members hb (hb.2.1.enough hn) h fun _ _ _ _ h => h.eq_done

theorem Ends.eq_member (hn : Routine.member.Enough ts (n + 1))
    (h : Ends (Runs d) (Body.member ts) out) : out = TypeExpr.member (n + 1) ts := by
  have hb := Body.member_advances ts
  rw [Body.member] at hb h
  by_cases hs : startsWith .ellipsis ts = true
  · rw [if_pos hs] at hb h
    have hq : Routine.variadic.IsEntered ts := hs
    have hn' : Routine.variadic.Enough ts (n + 1) := Nat.le_succ_of_le (hb.2.1.enough hn)
    exact h.eq_read hd hq hn'
  · rw [if_neg hs] at hb h
    rw [TypeExpr.member]
    · refine Ends.eq_call hd hb (hb.2.1.enough hn) h fun t r hr hb h => ?_
      by_cases he : startsWith .equals r = true
      · obtain ⟨r, rfl⟩ := startsWith_iff.mp he
        rw [if_pos he] at h
        exact h.eq_done
      · rw [if_neg he] at h
        split
        · rename_i hr
          cases hr
          exact absurd rfl (lacks_of_startsWith he _)
        · rename_i hr
          cases hr
          exact h.eq_done
    · exact lacks_of_startsWith hs

/-- A mark that may stand alone, with a unary type behind it if it does not. -/
theorem Ends.eq_unlessBare {q : Routine} {r : List Token} {P : List Token → Prop} {u : TypeExpr}
    {f : TypeExpr → TypeExpr}
    (hb : Body.Advances q ts (if mayFollowBare r = true then .done u r
      else .call .unary r fun t r => .done (f t) r) P)
    (hn : q.Enough ts (n + 1))
    (h : Ends (Runs d) (if mayFollowBare r = true then .done u r
      else .call .unary r fun t r => .done (f t) r) out) :
    out = if mayFollowBare r = true then some (u, r)
      else (TypeExpr.unary n r).bind fun p => some (f p.1, p.2) := by
  by_cases hs : mayFollowBare r = true
  · rw [if_pos hs] at h ⊢
    exact h.eq_done
  · rw [if_neg hs] at hb h ⊢
    exact Ends.eq_call hd hb (hb.2.1.enough hn) h fun _ _ _ _ h => h.eq_done

theorem Ends.eq_variadic (hq : Routine.variadic.IsEntered ts)
    (hn : Routine.variadic.Enough ts (n + 1)) (h : Ends (Runs d) (Body.variadic ts) out) :
    out = TypeExpr.member (n + 1) ts := by
  have hb := Body.variadic_advances ts hq
  obtain ⟨r, rfl⟩ := startsWith_iff.mp hq
  rw [TypeExpr.member]
  exact Ends.eq_unlessBare hd hb hn h

theorem Ends.eq_unary (hn : Routine.unary.Enough ts (n + 1))
    (h : Ends (Runs d) (Body.unary ts) out) : out = TypeExpr.unary (n + 1) ts := by
  have hb := Body.unary_advances ts
  rw [Body.unary] at hb h
  by_cases hquestion : startsWith .question ts = true
  · obtain ⟨r, rfl⟩ := startsWith_iff.mp hquestion
    rw [if_pos hquestion] at hb h
    rw [TypeExpr.unary]
    exact Ends.eq_unlessBare hd hb hn h
  · rw [if_neg hquestion] at hb h
    by_cases hbang : startsWith .bang ts = true
    · obtain ⟨r, rfl⟩ := startsWith_iff.mp hbang
      rw [if_pos hbang] at hb h
      rw [TypeExpr.unary]
      exact Ends.eq_call hd hb (hb.2.1.enough hn) h fun _ _ _ _ h => h.eq_done
    · rw [if_neg hbang] at hb h
      have hq : Routine.suffixed.IsEntered ts := trivial
      have hn' : Routine.suffixed.Enough ts (n + 1) := Nat.le_succ_of_le (hb.2.1.enough hn)
      rw [h.eq_read hd hq hn', TypeExpr.unary]
      · simp only [Routine.read, TypeExpr.read]
        cases TypeExpr.primary n ts <;> rfl
      · exact lacks_of_startsWith hquestion
      · exact lacks_of_startsWith hbang

theorem Ends.eq_suffixed (hn : Routine.suffixed.Enough ts (n + 1))
    (h : Ends (Runs d) (Body.suffixed ts) out) : out = TypeExpr.read .suffixed (n + 1) ts := by
  have hb := Body.suffixed_advances ts
  have hout : out = (TypeExpr.primary n ts).bind fun p => some (arraySuffixes p.1 p.2) :=
    Ends.eq_call hd hb (hb.2.1.enough hn) h fun _ _ _ _ h => h.eq_arraySuffixes
  have hread : TypeExpr.read .suffixed (n + 1) ts =
      (TypeExpr.primary n ts).map fun p => arraySuffixes p.1 p.2 := rfl
  rw [hout, hread, Option.map_eq_bind]
  rfl

theorem Ends.eq_arguments {base : String} (hq : (Routine.arguments base).IsEntered ts)
    (hn : (Routine.arguments base).Enough ts (n + 1))
    (h : Ends (Runs d) (Body.arguments base ts) out) :
    out = typeArguments (n + 1) base ts.tail := by
  have hb := Body.arguments_advances ts base hq
  have hout : out = (TypeExpr.typeList n ts.tail).bind fun p =>
      (moreArguments n p.2).bind fun s =>
        (expect .greater s.2).bind fun r => some (ofArguments base p.1 s.1, r) :=
    Ends.eq_separated hd isMore_arguments hb (hb.2.1.enough hn) h fun _ _ _ hb h =>
      Ends.eq_expecting hb h fun _ _ _ h => h.eq_done
  exact hout

theorem Ends.eq_field {out : Option ((String × TypeExpr) × List Token)}
    (hn : Routine.field.Enough ts (n + 1)) (h : Ends (Runs d) (Body.field ts) out) :
    out = TypeExpr.field (n + 1) ts := by
  have hb := Body.field_advances ts
  rcases ts with _ | ⟨name | m, r⟩
  · cases h
    rfl
  · have hout : out = (expect .colon r).bind fun r =>
        (TypeExpr.typeList n r).bind fun p => some ((name, p.1), p.2) :=
      Ends.eq_expecting hb h fun _ _ hb h =>
        Ends.eq_call hd hb (hb.2.1.enough hn) h fun _ _ _ _ h => h.eq_done
    by_cases hc : startsWith .colon r = true
    · obtain ⟨r, rfl⟩ := startsWith_iff.mp hc
      exact hout
    · rw [hout, expect_eq_none hc, Option.bind_none, TypeExpr.field]
      rintro name' r' ⟨⟩
      exact hc rfl
  · cases h
    rfl

theorem Ends.eq_param {out : Option ((Option String × TypeExpr) × List Token)}
    (hn : Routine.param.Enough ts (n + 1)) (h : Ends (Runs d) (Body.param ts) out) :
    out = TypeExpr.param (n + 1) ts := by
  have hb := Body.param_advances ts
  by_cases hs : ∃ name r, ts = .ident name :: .mark .colon :: r
  · obtain ⟨name, r, rfl⟩ := hs
    exact Ends.eq_call hd hb (hb.2.1.enough hn) h fun _ _ _ _ h => h.eq_done
  · have hlabel : ∀ name r, ts = .ident name :: .mark .colon :: r → False :=
      fun name r he => hs ⟨name, r, he⟩
    rw [Body.param] at hb h
    · rw [TypeExpr.param]
      · exact Ends.eq_call hd hb (hb.2.1.enough hn) h fun _ _ _ _ h => h.eq_done
      · exact hlabel
    · exact hlabel
    · exact hlabel

theorem Ends.eq_functionEnd {params : List (Option String × TypeExpr)} {r : List Token}
    {P : List Token → Prop}
    (hb : (Body.functionEnd params r).Advances .function ts P)
    (hn : Routine.function.Enough ts (n + 1))
    (h : Ends (Runs d) (Body.functionEnd params r) out) :
    out = (expect .closeParen r).bind fun r =>
      if startsWith .colon r = true then
        (TypeExpr.member n r.tail).bind fun p => some (.function params (some p.1), p.2)
      else some (.function params none, r) := by
  refine Ends.eq_expecting hb h fun r _ hb h => ?_
  by_cases hc : startsWith .colon r = true
  · rw [if_pos hc] at hb h ⊢
    exact Ends.eq_call hd hb (hb.2.1.enough hn) h fun _ _ _ _ h => h.eq_done
  · rw [if_neg hc] at h ⊢
    exact h.eq_done

/-- The parameters and what follows them; the reader has a level of its own for their list. -/
theorem Ends.eq_functionParams {r : List Token} (hr : Behind ts r)
    (hn : Routine.function.Enough ts (n + 2))
    (h : Ends (Runs d) (Body.functionParams r) out) :
    out = (paramList (n + 1) r).bind fun s =>
      if startsWith .colon s.2 = true then
        (TypeExpr.member (n + 1) s.2.tail).bind fun p => some (.function s.1 (some p.1), p.2)
      else some (.function s.1 none, s.2) := by
  have hb := Body.functionParams_advances ts hr
  rw [Body.functionParams] at hb h
  by_cases hc : startsWith .closeParen r = true
  · rw [if_pos hc] at hb h
    obtain ⟨r, rfl⟩ := startsWith_iff.mp hc
    exact Ends.eq_functionEnd hd hb hn h
  · rw [if_neg hc] at hb h
    have hout := Ends.eq_separated hd isMore_params hb (hr.enough hn _) h
      fun first us r hb h => Ends.eq_functionEnd hd hb hn h
    rw [paramList]
    · simp only [Option.bind_eq_bind, Option.bind_assoc, Option.bind_some]
      exact hout
    · exact lacks_of_startsWith hc

theorem Ends.eq_function (hq : Routine.function.IsEntered ts)
    (hn : Routine.function.Enough ts (n + 1)) (h : Ends (Runs d) (Body.function ts) out) :
    out = TypeExpr.primary (n + 1) ts := by
  obtain ⟨r, rfl⟩ := startsFunction_iff.mp hq
  have hr := behind_cons (.ident "function") (.mark .openParen :: r)
  rw [Body.function, List.tail_cons, Body.expecting_cons] at h
  obtain ⟨k, rfl⟩ : ∃ k, n = k + 1 := by
    refine ⟨n - 1, ?_⟩
    simp only [Routine.Enough, List.length_cons] at hn
    omega
  rw [Ends.eq_functionParams hd (hr.trans_suffix (List.suffix_cons _ r)) hn h,
    TypeExpr.primary]
  cases paramList (k + 1) r with
  | none => rfl
  | some s =>
    simp only [Option.bind_some, Option.bind_eq_bind]
    by_cases hc : startsWith .colon s.2 = true
    · obtain ⟨r', hr'⟩ := startsWith_iff.mp hc
      rw [if_pos hc, hr']
      rfl
    · rw [if_neg hc]
      split
      · rename_i hr'
        exact absurd hr' (lacks_of_startsWith hc _)
      · rfl

theorem Ends.eq_record (hq : Routine.record.IsEntered ts)
    (hn : Routine.record.Enough ts (n + 1)) (h : Ends (Runs d) (Body.record ts) out) :
    out = TypeExpr.primary (n + 1) ts := by
  have hb := Body.record_advances ts
  obtain ⟨r, rfl⟩ := startsWith_iff.mp hq
  rw [Body.record, Body.expecting_cons] at hb h
  by_cases hc : startsWith .closeBrace r = true
  · rw [if_pos hc] at h
    obtain ⟨r, rfl⟩ := startsWith_iff.mp hc
    exact h.eq_done
  · rw [if_neg hc] at hb h
    have hout : out = (TypeExpr.field n r).bind fun p => (moreFields n p.2).bind fun s =>
        (expect .closeBrace s.2).bind fun r => some (.record (p.1 :: s.1), r) :=
      Ends.eq_separated hd isMore_fields hb (hb.2.1.enough hn) h fun _ _ _ hb h =>
        Ends.eq_expecting hb h fun _ _ _ h => h.eq_done
    rw [TypeExpr.primary]
    · exact hout
    · exact lacks_of_startsWith hc

theorem Ends.eq_primary (hn : Routine.primary.Enough ts (n + 1))
    (h : Ends (Runs d) (Body.primary ts) out) : out = TypeExpr.primary (n + 1) ts := by
  have hb := Body.primary_advances ts
  rw [Body.primary] at hb h
  by_cases hparen : startsWith .openParen ts = true
  · obtain ⟨r, rfl⟩ := startsWith_iff.mp hparen
    rw [if_pos hparen] at hb h
    have hout : out = (TypeExpr.typeList n r).bind fun p =>
        (expect .closeParen p.2).bind fun r => some (p.1, r) :=
      Ends.eq_call hd hb (hb.2.1.enough hn) h fun _ _ _ hb h =>
        Ends.eq_expecting hb h fun _ _ _ h => h.eq_done
    exact hout
  · rw [if_neg hparen] at hb h
    by_cases hbrace : startsWith .openBrace ts = true
    · rw [if_pos hbrace] at hb h
      have hq : Routine.record.IsEntered ts := hbrace
      have hn' : Routine.record.Enough ts (n + 1) := Nat.le_succ_of_le (hb.2.1.enough hn)
      exact h.eq_read hd hq hn'
    · rw [if_neg hbrace] at hb h
      by_cases hstar : startsWith .star ts = true
      · obtain ⟨r, rfl⟩ := startsWith_iff.mp hstar
        rw [if_pos hstar] at h
        exact h.eq_done
      · rw [if_neg hstar] at hb h
        by_cases hfunction : Body.startsFunction ts = true
        · rw [if_pos hfunction] at hb h
          have hq : Routine.function.IsEntered ts := hfunction
          have hn' : Routine.function.Enough ts (n + 1) := Nat.le_succ_of_le (hb.2.1.enough hn)
          exact h.eq_read hd hq hn'
        · rw [if_neg hfunction] at hb h
          rw [TypeExpr.primary]
          · refine Ends.eq_call hd hb (hb.2.1.enough hn) h fun name r hr hb h => ?_
            by_cases hangle : (startsWith .less r || startsWith .dotLess r) = true
            · rw [if_pos hangle] at hb h
              have hread : out = typeArguments n name r.tail :=
                h.eq_read hd hb.1 (hb.2.1.enough hn)
              rcases (Bool.or_eq_true _ _).mp hangle with hs | hs
              · obtain ⟨r, rfl⟩ := startsWith_iff.mp hs
                exact hread
              · obtain ⟨r, rfl⟩ := startsWith_iff.mp hs
                exact hread
            · rw [if_neg hangle] at h
              rw [Bool.or_eq_true, not_or] at hangle
              dsimp only
              split
              · rename_i r
                exact absurd rfl (lacks_of_startsWith hangle.1 r)
              · rename_i r
                exact absurd rfl (lacks_of_startsWith hangle.2 r)
              · exact h.eq_done
          · exact lacks_of_startsWith hparen
          · exact fun _ => lacks_of_startsWith hbrace _
          · exact lacks_of_startsWith hbrace
          · exact lacks_of_startsWith hstar
          · exact fun r he => hfunction (startsFunction_iff.mpr ⟨r, he⟩)

end Readers

theorem agrees (d : Nat) : Agrees d := by
  induction d with
  | zero => exact fun _ _ _ _ _ _ h => h.elim
  | succ d hd =>
    intro q ts n out hq hn h
    obtain ⟨n, rfl⟩ : ∃ k, n = k + 1 := ⟨n - 1, by simp only [Routine.Enough] at hn; omega⟩
    cases q with
    | typeList => exact Ends.eq_typeList hd hn h
    | member => exact Ends.eq_member hd hn h
    | variadic => exact Ends.eq_variadic hd hq hn h
    | unary => exact Ends.eq_unary hd hn h
    | suffixed => exact Ends.eq_suffixed hd hn h
    | primary => exact Ends.eq_primary hd hn h
    | name => exact Ends.eq_name h
    | arguments base => exact Ends.eq_arguments hd hq hn h
    | function => exact Ends.eq_function hd hq hn h
    | param => exact Ends.eq_param hd hn h
    | record => exact Ends.eq_record hd hq hn h
    | field => exact Ends.eq_field hd hn h

/-- Every call ends as the reader does, at a depth that grows with the number of tokens at most. -/
theorem runs_read {q : Routine} {ts : List Token} (hq : q.IsEntered ts) {n : Nat}
    (hn : q.Enough ts n) : Runs (q.height ts + 1) q ts (q.read n ts) := by
  obtain ⟨out, h⟩ := exists_runs hq
  rwa [← agrees _ q ts n out hq hn h]

/-! ## Places among the tokens -/

section Places

variable {tokens r : List Token} {pos : Nat}

theorem exists_drop_of_suffix (h : r <:+ tokens.drop pos) (hpos : pos ≤ tokens.length) :
    ∃ pos', pos ≤ pos' ∧ pos' ≤ tokens.length ∧ r = tokens.drop pos' := by
  have hlen := h.length_le
  rw [List.length_drop] at hlen
  refine ⟨tokens.length - r.length, by omega, by omega, ?_⟩
  exact List.suffix_iff_eq_drop.mp (h.trans (List.drop_suffix pos tokens))

theorem Behind.exists_drop (h : Behind (tokens.drop pos) r) :
    ∃ pos', pos < pos' ∧ pos' ≤ tokens.length ∧ r = tokens.drop pos' := by
  have hlen := h.2
  rw [List.length_drop] at hlen
  obtain ⟨pos', hle, hpos', rfl⟩ := exists_drop_of_suffix h.1 (by omega)
  rw [List.length_drop] at hlen
  exact ⟨pos', by omega, hpos', rfl⟩

end Places

/-- A routine at a position of the tokens where others call it: it ends as the reader does, with
calls that nest at most seven deep a token and seven more; where it does not fail it ends at a later
position; the calls that it makes are entered and stand at a later position, or at the same one and
lower in the order; and each round of its loops goes on to a later position. -/
theorem descent_advances (tokens : List Token) (pos : Nat) (q : Routine)
    (hq : q.IsEntered (tokens.drop pos)) :
    (∀ n, depth tokens ≤ n →
      Runs (7 * tokens.length + 7) q (tokens.drop pos) (q.read n (tokens.drop pos)) ∧
        ∀ d out, Runs d q (tokens.drop pos) out → out = q.read n (tokens.drop pos)) ∧
    (∀ d t rest, Runs d q (tokens.drop pos) (some (t, rest)) →
      ∃ pos', pos < pos' ∧ pos' ≤ tokens.length ∧ rest = tokens.drop pos') ∧
    (∀ d q' ts', Does (Runs d) (q.body (tokens.drop pos)) (.call q' ts') →
      q'.IsEntered ts' ∧ ∃ pos', ts' = tokens.drop pos' ∧
        (pos < pos' ∧ pos' ≤ tokens.length ∨ pos' = pos ∧ q'.Lower q)) ∧
    ∀ d ts' rest, Does (Runs d) (q.body (tokens.drop pos)) (.round ts' rest) →
      ∃ i j, pos ≤ i ∧ i < j ∧ j ≤ tokens.length ∧ ts' = tokens.drop i ∧
        rest = tokens.drop j := by
  have htier := q.tier_getD_le
  have hlen : (tokens.drop pos).length ≤ tokens.length := (List.drop_suffix _ _).length_le
  refine ⟨fun n hn => ?ends, fun d t rest h => (Runs.behind hq h).exists_drop,
    fun d q' ts' h => ?calls, fun d ts' rest h => ?rounds⟩
  case ends =>
    have henough : q.Enough (tokens.drop pos) n := by
      simp only [depth] at hn
      simp only [Routine.Enough]
      omega
    refine ⟨(runs_read hq henough).mono ?_, fun d out h => agrees d q _ n out hq henough h⟩
    simp only [Routine.height]
    omega
  case calls =>
    obtain ⟨hq', hd⟩ := h.advances (fun hq h => Runs.behind hq h) (Routine.body_advances hq)
    refine ⟨hq', ?_⟩
    rcases hd with hbehind | ⟨rfl, hlower⟩
    · obtain ⟨pos', hlt, hle, rfl⟩ := hbehind.exists_drop
      exact ⟨pos', rfl, .inl ⟨hlt, hle⟩⟩
    · exact ⟨pos, rfl, .inr ⟨rfl, hlower⟩⟩
  case rounds =>
    obtain ⟨hsuffix, hbehind⟩ :=
      h.advances (fun hq h => Runs.behind hq h) (Routine.body_advances hq)
    have hpos : pos ≤ tokens.length := by
      have hle := hsuffix.length_le
      have hlt := hbehind.2
      rw [List.length_drop] at hle
      omega
    obtain ⟨i, hi, -, rfl⟩ := exists_drop_of_suffix hsuffix hpos
    obtain ⟨j, hij, hj, rfl⟩ := hbehind.exists_drop
    exact ⟨i, j, hi, hij, hj, rfl, rfl⟩

/-- In `Array.<?,*>|` the arguments end in front of the bar, and no type list is read. -/
theorem descent_advances_trailing_bar :
    let tokens : List Token := [.ident "Array", .mark .dotLess, .mark .question, .mark .comma,
      .mark .star, .mark .greater, .mark .bar]
    (Routine.arguments "Array").IsEntered (tokens.drop 1) ∧
      Runs 56 (.arguments "Array") (tokens.drop 1)
        (some (.generic "Array" [.native "?", .native "*"], tokens.drop 6)) ∧
      Runs 56 .typeList (tokens.drop 0) none := by
  intro tokens
  have harguments := descent_advances tokens 1 (.arguments "Array") (.inr rfl)
  have htypeList := descent_advances tokens 0 .typeList trivial
  exact ⟨.inr rfl, (harguments.1 _ (Nat.le_refl _)).1, (htypeList.1 _ (Nat.le_refl _)).1⟩

end DocCheck.TypeExpr
