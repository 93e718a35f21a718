import DocCheck.Proofs.TypeExpr.Written

/-!
# Reading back what is written

The tokens of a written type are read back as the type: each type is written as
a unary type that ends at the mark behind it, and the parentheses around it keep
a reader from going on past its end. What is read from any text is well formed,
so writing it and reading it back changes nothing.

Results:

* `WellFormed.reads`: the tokens of a type are read as the type.
* `wellFormed_of_ofText`: a type that was read has a written form.
* `round_trip`: a written type is read back as it was, in any layout.
-/
namespace DocCheck.TypeExpr

/-! ## Pieces of a written type -/

/-- The marks behind a type list. -/
def listEnds : List Mark := [.comma, .greater, .closeParen, .closeBrace]

def memberEnds : List Mark := .bar :: listEnds

def unaryEnds : List Mark := .equals :: memberEnds

theorem Reads.unary_of_primary {t : TypeExpr} {ts rest : List Token} (h : Reads .primary t ts rest)
    (hr : Follows unaryEnds rest) : Reads .unary t ts rest := by
  have hs : arraySuffixes t rest = (t, rest) := by
    unfold arraySuffixes
    split
    · exact absurd rfl (hr.lacks (by decide) _)
    · rfl
  have h1 := h.suffixed
  rw [hs] at h1
  exact h1.bare

theorem Reads.member_of_unary {t : TypeExpr} {ts rest : List Token} (h : Reads .unary t ts rest)
    (hr : Follows memberEnds rest) : Reads .member t ts rest :=
  h.plain (hr.lacks (by decide))

theorem Reads.list_of_member {t : TypeExpr} {ts rest : List Token} (h : Reads .member t ts rest)
    (hr : Follows listEnds rest) : Reads .typeList t ts rest :=
  h.list (.noMembers (hr.lacks (by decide)))

/-- A member in parentheses. -/
theorem Reads.grouped {t : TypeExpr} {ts rest : List Token}
    (h : Reads .member t ts (.mark .closeParen :: rest)) (hr : Follows unaryEnds rest) :
    Reads .unary t (.mark .openParen :: ts) rest :=
  (Reads.group (h.list_of_member (follows_mark (by decide) rest))).unary_of_primary hr

section Lists

variable {α : Type} {m : Mark} {Item : α → List Token → List Token → Prop}
  {More : List α → List Token → List Token → Prop}
  (nil : ∀ {rest}, Lacks m rest → More [] rest rest)
  (cons : ∀ {x xs ts r rest}, Item x ts r → More xs r rest → More (x :: xs) (.mark m :: ts) rest)
  (ends : List Mark) (hm : m ∈ ends) {g : α → List Token}
include nil cons hm

/-- The further items of a list, each behind a mark. -/
theorem reads_more {xs : List α} (h : ∀ x ∈ xs, ∀ r, Follows ends r → Item x (g x ++ r) r)
    {rest : List Token} (hr : Follows ends rest) (hl : Lacks m rest) :
    More xs ((xs.map g).flatMap (.mark m :: ·) ++ rest) rest := by
  induction xs with
  | nil => exact nil hl
  | cons x xs ih =>
    have hxs := ih fun y hy => h y (by simp [hy])
    have hend : Follows ends ((xs.map g).flatMap (.mark m :: ·) ++ rest) := by
      cases xs with
      | nil => exact hr
      | cons y ys => exact follows_mark hm _
    have hx := cons (h x (by simp) _ hend) hxs
    simpa using hx

/-- A list is its first item and the further ones. -/
theorem reads_separated {x : α} {xs : List α}
    (h : ∀ y ∈ x :: xs, ∀ r, Follows ends r → Item y (g y ++ r) r) {rest : List Token}
    (hr : Follows ends rest) (hl : Lacks m rest) :
    ∃ r, Item x (separated m ((x :: xs).map g) ++ rest) r ∧ More xs r rest := by
  have hmore : ∀ y ∈ xs, ∀ r, Follows ends r → Item y (g y ++ r) r :=
    fun y hy => h y (by simp [hy])
  refine ⟨_, ?_, reads_more nil cons ends hm hmore hr hl⟩
  have hend : Follows ends ((xs.map g).flatMap (.mark m :: ·) ++ rest) := by
    cases xs with
    | nil => exact hr
    | cons y ys => exact follows_mark hm _
  simpa [separated] using h x (by simp) _ hend

end Lists

/-! ## Names -/

theorem dotted_partTokens {parts : List (List Char)} (h : parts ≠ []) (rest : List Token) :
    Dotted (parts.map String.ofList) (partTokens parts ++ rest) rest := by
  fun_induction partTokens parts with
  | case1 => exact absurd rfl h
  | case2 part => exact .last
  | case3 part q parts ih => exact .dot (ih (by simp))

theorem intercalate_splitOn_dot (name : String) :
    ".".intercalate ((name.toList.splitOn '.').map String.ofList) = name := by
  apply String.toList_injective
  rw [String.toList_intercalate]
  simp [Function.comp_def, List.intercalate_splitOn]

theorem dotted_nameTokens (name : String) (rest : List Token) :
    ∃ parts, name = ".".intercalate parts ∧ Dotted parts (nameTokens name ++ rest) rest :=
  ⟨_, (intercalate_splitOn_dot name).symm, dotted_partTokens (List.splitOn_ne_nil _ _) rest⟩

theorem reads_name (name : String) {rest : List Token} (hr : Follows unaryEnds rest) :
    Reads .unary (ofName name) (nameTokens name ++ rest) rest := by
  obtain ⟨parts, he, hd⟩ := dotted_nameTokens name rest
  have h := Reads.name hd fun m hm => hr.lacks (by revert m; decide)
  rw [← he] at h
  exact h.unary_of_primary hr

/-- A name applied to types. -/
theorem reads_applied (name : String) {t : TypeExpr} {us : List TypeExpr} {ts r rest : List Token}
    (ht : Reads .typeList t ts r) (hs : Reads .moreArguments us r (.mark .greater :: rest))
    (hr : Follows unaryEnds rest) :
    Reads .unary (ofArguments name t us) (nameTokens name ++ .mark .less :: ts) rest := by
  obtain ⟨parts, he, hd⟩ := dotted_nameTokens name (.mark .less :: ts)
  have h := Reads.applied hd (.inl rfl) ht hs
  rw [← he] at h
  exact h.unary_of_primary hr

/-! ## Whole types -/

/-- The tokens of a type are a unary type before each mark that ends one. -/
def ReadsBack (t : TypeExpr) : Prop :=
  ∀ rest, Follows unaryEnds rest → Reads .unary t (t.tokens ++ rest) rest

theorem ReadsBack.member {t : TypeExpr} (h : ReadsBack t) {rest : List Token}
    (hr : Follows memberEnds rest) : Reads .member t (t.tokens ++ rest) rest :=
  (h rest (hr.mono (by decide))).member_of_unary hr

theorem ReadsBack.list {t : TypeExpr} (h : ReadsBack t) {rest : List Token}
    (hr : Follows listEnds rest) : Reads .typeList t (t.tokens ++ rest) rest :=
  (h.member (hr.mono (by decide))).list_of_member hr

theorem reads_param {q : Option String × TypeExpr} (h : ReadsBack q.2) {rest : List Token}
    (hr : Follows listEnds rest) :
    Reads .param q (tokensName q.1 ++ q.2.tokens ++ rest) rest := by
  obtain ⟨name, t⟩ := q
  cases name with
  | none => exact (h.list hr).unnamed (hr.lacks (by decide))
  | some name => exact (h.list hr).named

theorem reads_paramList {ps : List (Option String × TypeExpr)}
    (h : ∀ q ∈ ps, ReadsBack q.2) (rest : List Token) :
    Reads .paramList ps (separated .comma (ps.map fun q => tokensName q.1 ++ q.2.tokens) ++
      .mark .closeParen :: rest) rest := by
  cases ps with
  | nil => exact .emptyParams
  | cons q ps =>
    obtain ⟨r, hq, hps⟩ := reads_separated Reads.noParams Reads.nextParam listEnds (by decide)
      (fun q hq r hr => reads_param (h q hq) hr)
      (follows_mark (m := .closeParen) (by decide) rest) (lacks_mark (by decide) rest)
    exact hq.params hps

theorem reads_field {f : String × TypeExpr} (h : ReadsBack f.2) {rest : List Token}
    (hr : Follows listEnds rest) :
    Reads .field f (.ident f.1 :: .mark .colon :: f.2.tokens ++ rest) rest :=
  (h.list hr).field

/-- The tokens of a well-formed type are read as the type. -/
theorem WellFormed.reads {t : TypeExpr} (h : WellFormed t) : ReadsBack t := by
  induction h with
  | @native name h =>
    intro rest hr
    rw [tokens]
    split
    · rename_i hn
      rw [hn]
      exact Reads.all.unary_of_primary hr
    · split
      · rename_i hn
        rw [hn]
        exact .unknown (hr.standsAlone (by decide))
      · rename_i h1 h2
        have hp := (h.resolve_left h1).resolve_left h2
        have hname := reads_name name hr
        rw [ofName, if_pos hp] at hname
        exact hname
  | @reference name h hn =>
    intro rest hr
    have hname := reads_name name hr
    rw [ofName, if_neg hn] at hname
    rw [tokens]
    exact hname
  | @union members hl h ih =>
    intro rest hr
    obtain ⟨t, vs, rfl⟩ := List.exists_cons_of_length_pos (Nat.lt_of_lt_of_le Nat.zero_lt_two hl)
    obtain ⟨u, us, rfl⟩ := List.exists_cons_of_length_pos (Nat.le_of_succ_le_succ hl)
    obtain ⟨r, ht, hs⟩ := reads_separated Reads.noMembers Reads.nextMember memberEnds (by decide)
      (fun v hv r hr => (ih v hv).member hr)
      (follows_mark (m := .closeParen) (by decide) rest) (lacks_mark (by decide) rest)
    rw [tokens]
    simpa [ofMembers] using (ht.list hs).group.unary_of_primary hr
  | @nullable t h ih =>
    intro rest hr
    have hg := (ih (.mark .closeParen :: rest) (follows_mark (by decide) rest)).nullable
    rw [tokens]
    simpa using (hg.member_of_unary (follows_mark (by decide) rest)).grouped hr
  | @nonNullable t h ih =>
    intro rest hr
    have hg := (ih (.mark .closeParen :: rest) (follows_mark (by decide) rest)).nonNullable
    rw [tokens]
    simpa using (hg.member_of_unary (follows_mark (by decide) rest)).grouped hr
  | @optional t h ih =>
    intro rest hr
    have hg := ih (.mark .equals :: .mark .closeParen :: rest) (follows_mark (by decide) _)
    rw [tokens]
    simpa using hg.optional.grouped hr
  | @arrayOf t h ih =>
    intro rest hr
    have ht := ih.list (follows_mark (m := .greater) (by decide) rest)
    have ha : Reads .unary (ofArguments "Array" t []) (nameTokens "Array" ++ .mark .less ::
        (t.tokens ++ .mark .greater :: rest)) rest :=
      reads_applied _ ht (.noArguments (lacks_mark (by decide) rest)) hr
    have harray : nameTokens "Array" = [.ident "Array"] := by decide
    rw [tokens]
    simpa [ofArguments, harray] using ha
  | @generic base params hb hl ha h ih =>
    intro rest hr
    obtain ⟨t, us, rfl⟩ := List.exists_cons_of_length_pos hl
    obtain ⟨r, ht, hs⟩ := reads_separated Reads.noArguments Reads.nextArgument listEnds (by decide)
      (fun v hv r hr => (ih v hv).list hr)
      (follows_mark (m := .greater) (by decide) rest) (lacks_mark (by decide) rest)
    have hg := reads_applied base ht hs hr
    rw [ofArguments, if_neg (by simpa using ha)] at hg
    rw [tokens]
    simpa using hg
  | @function params returns hn h hr ih ihr =>
    intro rest hrest
    have hend : Follows memberEnds (.mark .closeParen :: rest) := follows_mark (by decide) rest
    have hend' : Follows unaryEnds (.mark .closeParen :: rest) := hend.mono (by decide)
    cases returns with
    | none =>
      have hf := (reads_paramList ih (.mark .closeParen :: rest)).procedure
        (lacks_mark (by decide) rest)
      rw [tokens]
      simpa using ((hf.unary_of_primary hend').member_of_unary hend).grouped hrest
    | some t =>
      have ht := (ihr t rfl).member hend
      have hf := (reads_paramList ih _).function ht
      rw [tokens]
      simpa using ((hf.unary_of_primary hend').member_of_unary hend).grouped hrest
  | @record fields hn h ih =>
    intro rest hr
    rw [tokens]
    cases fields with
    | nil => exact Reads.emptyRecord.unary_of_primary hr
    | cons f fs =>
      obtain ⟨r, hf, hfs⟩ := reads_separated Reads.noFields Reads.nextField listEnds (by decide)
        (fun g hg r hr => reads_field (ih g hg) hr)
        (follows_mark (m := .closeBrace) (by decide) rest) (lacks_mark (by decide) rest)
      simpa using (hf.record hfs).unary_of_primary hr

/-! ## What is read is well formed -/

/-- The identifiers among the tokens are well formed. -/
def Named (ts : List Token) : Prop := ∀ name, .ident name ∈ ts → isIdent name.toList = true

theorem Named.tail {x : Token} {ts : List Token} (h : Named (x :: ts)) : Named ts :=
  fun name hn => h name (List.mem_cons_of_mem x hn)

theorem Named.head {name : String} {ts : List Token} (h : Named (.ident name :: ts)) :
    isIdent name.toList = true :=
  h name List.mem_cons_self

theorem dot_not_mem_of_isIdent {cs : List Char} (h : isIdent cs = true) : '.' ∉ cs := by
  intro hd
  cases cs with
  | nil => cases hd
  | cons c r =>
    simp only [isIdent, Bool.and_eq_true, List.all_eq_true] at h
    rcases List.mem_cons.mp hd with rfl | hd
    · exact absurd h.1 (by decide)
    · exact absurd (h.2 _ hd) (by decide)

theorem isDotted_intercalate {parts : List String} (hne : parts ≠ [])
    (h : ∀ part ∈ parts, isIdent part.toList = true) :
    isDotted (".".intercalate parts) = true := by
  have hs : (['.'].intercalate (parts.map String.toList)).splitOn '.' = parts.map String.toList :=
    List.splitOn_intercalate '.' (by simpa using fun part hp => dot_not_mem_of_isIdent (h part hp))
      (by simpa using hne)
  rw [isDotted, String.toList_intercalate]
  simpa [hs] using h

theorem Dotted.named {parts : List String} {ts rest : List Token} (h : Dotted parts ts rest)
    (hts : Named ts) : isDotted (".".intercalate parts) = true ∧ Named rest := by
  have key : parts ≠ [] ∧ (∀ part ∈ parts, isIdent part.toList = true) ∧ Named rest := by
    induction h with
    | last => exact ⟨by simp, by simpa using hts.head, hts.tail⟩
    | dot h ih =>
      obtain ⟨-, hparts, hrest⟩ := ih hts.tail.tail
      exact ⟨by simp, by simpa using ⟨hts.head, hparts⟩, hrest⟩
  exact ⟨isDotted_intercalate key.1 key.2.1, key.2.2⟩

theorem wellFormed_ofName {name : String} (h : isDotted name = true) :
    WellFormed (ofName name) := by
  rw [ofName]
  split
  · rename_i hp
    exact .native (.inr (.inr hp))
  · rename_i hp
    exact .reference h hp

theorem wellFormed_ofArguments {base : String} {t : TypeExpr} {us : List TypeExpr}
    (hb : isDotted base = true) (ht : WellFormed t) (hus : ∀ u ∈ us, WellFormed u) :
    WellFormed (ofArguments base t us) := by
  rw [ofArguments]
  split
  · exact .arrayOf ht
  · rename_i hn
    refine .generic hb (by simp) (by simpa using hn) ?_
    simpa using ⟨ht, hus⟩

/-- The names and types in a part of the grammar are well formed. -/
def Part.AllFormed : (p : Part) → p.Tree → Prop
  | .typeList, t | .member, t | .unary, t | .suffixed, t | .primary, t => WellFormed t
  | .moreMembers, ts | .moreArguments, ts => ∀ t ∈ ts, WellFormed t
  | .param, q => (∀ name ∈ q.1, isIdent name.toList = true) ∧ WellFormed q.2
  | .paramList, ps | .moreParams, ps =>
    ∀ q ∈ ps, (∀ name ∈ q.1, isIdent name.toList = true) ∧ WellFormed q.2
  | .field, f => isIdent f.1.toList = true ∧ WellFormed f.2
  | .moreFields, fs => ∀ f ∈ fs, isIdent f.1.toList = true ∧ WellFormed f.2

/-- What the grammar derives from well-formed identifiers is well formed. -/
theorem Derives.allFormed {p : Part} {t : p.Tree} {ts rest : List Token}
    (h : Derives p t ts rest) (hts : Named ts) : p.AllFormed t ∧ Named rest := by
  induction h
  case single h ih => exact ih hts
  case plain h ih => exact ih hts
  case bare h ih => exact ih hts
  case unsuffixed h ih => exact ih hts
  case union h hs ih ihs =>
    obtain ⟨ht, hr⟩ := ih hts
    obtain ⟨hus, hrest⟩ := ihs hr
    refine ⟨.union (by simp) ?_, hrest⟩
    simpa using ⟨ht, by simpa [Part.AllFormed] using hus⟩
  case optional h ih =>
    obtain ⟨ht, hr⟩ := ih hts
    exact ⟨.optional ht, hr.tail⟩
  case anyNumber => exact ⟨.arrayOf (.native (.inl rfl)), hts.tail⟩
  case anyNumberOf h ih =>
    obtain ⟨ht, hr⟩ := ih hts.tail
    exact ⟨.arrayOf ht, hr⟩
  case unknown => exact ⟨.native (.inr (.inl rfl)), hts.tail⟩
  case nullable h ih =>
    obtain ⟨ht, hr⟩ := ih hts.tail
    exact ⟨.nullable ht, hr⟩
  case nonNullable h ih =>
    obtain ⟨ht, hr⟩ := ih hts.tail
    exact ⟨.nonNullable ht, hr⟩
  case array h ih =>
    obtain ⟨ht, hr⟩ := ih hts
    exact ⟨.arrayOf ht, hr.tail⟩
  case group h ih =>
    obtain ⟨ht, hr⟩ := ih hts.tail
    exact ⟨ht, hr.tail⟩
  case emptyRecord => exact ⟨.record (by simp) (by simp), hts.tail.tail⟩
  case record h hs ih ihs =>
    obtain ⟨hf, hr⟩ := ih hts.tail
    obtain ⟨hfs, hrest⟩ := ihs hr
    refine ⟨.record ?_ ?_, hrest.tail⟩
    · simpa using ⟨hf.1, fun name t hm => (hfs (name, t) hm).1⟩
    · simpa using ⟨hf.2, fun name t hm => (hfs (name, t) hm).2⟩
  case all => exact ⟨.native (.inl rfl), hts.tail⟩
  case procedure h ih =>
    obtain ⟨hps, hr⟩ := ih hts.tail.tail
    exact ⟨.function (fun q hq => (hps q hq).1) (fun q hq => (hps q hq).2) (by simp), hr⟩
  case function h ht ih iht =>
    obtain ⟨hps, hr⟩ := ih hts.tail.tail
    obtain ⟨ht, hrest⟩ := iht hr.tail
    refine ⟨.function (fun q hq => (hps q hq).1) (fun q hq => (hps q hq).2) ?_, hrest⟩
    rintro u ⟨rfl⟩
    exact ht
  case name h =>
    obtain ⟨hn, hrest⟩ := h.named hts
    exact ⟨wellFormed_ofName hn, hrest⟩
  case applied h hm ht hs iht ihs =>
    obtain ⟨hn, hr⟩ := h.named hts
    obtain ⟨ht, hr'⟩ := iht hr.tail
    obtain ⟨hus, hrest⟩ := ihs hr'
    exact ⟨wellFormed_ofArguments hn ht hus, hrest.tail⟩
  case params h hs ih ihs =>
    obtain ⟨hq, hr⟩ := ih hts
    obtain ⟨hqs, hrest⟩ := ihs hr
    exact ⟨List.forall_mem_cons.mpr ⟨hq, hqs⟩, hrest.tail⟩
  case named h ih =>
    obtain ⟨ht, hr⟩ := ih hts.tail.tail
    refine ⟨⟨?_, ht⟩, hr⟩
    rintro name ⟨rfl⟩
    exact hts.head
  case unnamed h ih =>
    obtain ⟨ht, hr⟩ := ih hts
    exact ⟨⟨by simp, ht⟩, hr⟩
  case field h ih =>
    obtain ⟨ht, hr⟩ := ih hts.tail.tail
    exact ⟨⟨hts.head, ht⟩, hr⟩
  case noMembers => exact ⟨List.forall_mem_nil _, hts⟩
  case noArguments => exact ⟨List.forall_mem_nil _, hts⟩
  case emptyParams => exact ⟨List.forall_mem_nil _, hts.tail⟩
  case noParams => exact ⟨List.forall_mem_nil _, hts⟩
  case noFields => exact ⟨List.forall_mem_nil _, hts⟩
  -- the further items of a list
  all_goals
    rename_i h hs ih ihs
    obtain ⟨hx, hr⟩ := ih hts.tail
    obtain ⟨hxs, hrest⟩ := ihs hr
    exact ⟨List.forall_mem_cons.mpr ⟨hx, hxs⟩, hrest⟩

/-! ## Whole texts -/

theorem ofText_trim (cs : List Char) : ofText? (Text.trim cs) = ofText? cs := by
  rw [ofText?, ofText?, tokenize_trim]

theorem parse_of_ofText {text : String} {t : TypeExpr} (h : ofText? text.toList = some t) :
    parse text = t := by
  rw [parse]
  simp only [ofText_trim, h]

theorem parse_of_reads {text : String} {t : TypeExpr} {ts : List Token}
    (hts : tokenize text.toList = some ts) (h : Reads .typeList t ts []) : parse text = t :=
  parse_of_ofText (by rw [ofText?, hts, Option.bind_some, ofTokens_of_reads h])

theorem WellFormed.parse {t : TypeExpr} (h : WellFormed t) {text : String}
    (hts : tokenize text.toList = tokenize t.written) : parse text = t := by
  have hr : Reads .typeList t (t.tokens ++ []) [] := h.reads.list (follows_nil _)
  rw [List.append_nil] at hr
  exact parse_of_reads (hts.trans (tokenize_written h)) hr

theorem wellFormed_of_ofText {cs : List Char} {t : TypeExpr} (h : ofText? cs = some t) :
    WellFormed t := by
  obtain ⟨ts, hts, ht⟩ := Option.bind_eq_some_iff.mp h
  have hd := derives_of_ofTokens ht
  exact (hd.allFormed fun name hn => isIdent_of_mem_tokenize hts hn).1

theorem wellFormed_parse {text : String} (h : (parse text).isUnknown = false) :
    WellFormed (TypeExpr.parse text) := by
  unfold TypeExpr.parse at h ⊢
  simp only at h ⊢
  split
  · rename_i t ht
    exact wellFormed_of_ofText ht
  · rename_i hn
    rw [hn] at h
    simp only at h
    split
    · rename_i t ht
      obtain ⟨cs, -, ht⟩ := Option.bind_eq_some_iff.mp ht
      exact wellFormed_of_ofText ht
    · rename_i hn'
      rw [hn'] at h
      cases h

/-! ## Types in braces -/

/-- A type that starts with an opening brace starts with a record. -/
theorem Derives.opensRecord {p : Part} {t : p.Tree} {ts rest : List Token}
    (h : Derives p t ts rest) (hp : p.isType = true) {r : List Token}
    (hts : ts = .mark .openBrace :: r) :
    (∃ r', r = .mark .closeBrace :: r') ∨ ∃ name r', r = .ident name :: .mark .colon :: r' := by
  induction h
  case single h ih => exact ih rfl hts
  case union h hs ih ihs => exact ih rfl hts
  case plain h ih => exact ih rfl hts
  case optional h ih => exact ih rfl hts
  case bare h ih => exact ih rfl hts
  case unsuffixed h ih => exact ih rfl hts
  case array h ih => exact ih rfl hts
  case emptyRecord =>
    cases hts
    exact .inl ⟨_, rfl⟩
  case record h hs ih ihs =>
    cases hts
    cases h
    exact .inr ⟨_, _, rfl⟩
  case name h =>
    subst hts
    cases h
  case applied h hm ht hs iht ihs =>
    subst hts
    cases h
  all_goals first | exact absurd hp (by decide) | cases hts

/-- A type in braces is not a record. -/
theorem ofTokens_braces {ts : List Token} (h : Opens .typeList ts []) :
    ofTokens? (.mark .openBrace :: (ts ++ [.mark .closeBrace])) = none := by
  cases ho : ofTokens? (.mark .openBrace :: (ts ++ [.mark .closeBrace])) with
  | none => rfl
  | some u =>
    have hrecord := (derives_of_ofTokens ho).opensRecord rfl rfl
    rcases h with ⟨m, r, rfl, hm⟩ | ⟨name, r, rfl, hc⟩
    · rcases hrecord with ⟨r', hr⟩ | ⟨name, r', hr⟩
      · cases hr
        exact absurd hm (by decide)
      · cases hr
    · rcases hrecord with ⟨r', hr⟩ | ⟨name', r', hr⟩
      · cases hr
      · rcases hc with rfl | hc
        · cases hr
        · cases r with
          | nil => cases hr
          | cons x r =>
            cases hr
            exact absurd rfl hc

theorem trim_braces (cs : List Char) :
    Text.trim ('{' :: cs ++ ['}']) = '{' :: cs ++ ['}'] := by
  apply Text.trim_eq_self
  · rintro c r ⟨rfl⟩
    decide
  · intro c r h
    rw [List.reverse_append] at h
    cases h
    decide

theorem tokenize_braces {cs : List Char} {ts : List Token} (h : tokenize cs = some ts) :
    tokenize ('{' :: cs ++ ['}']) =
      some (.mark .openBrace :: (ts ++ [.mark .closeBrace])) := by
  have hclose : tokenize ['}'] = some [.mark .closeBrace] := by
    rw [show ['}'] = Mark.closeBrace.spelling ++ [] from rfl, tokenize_mark rfl, tokenize]
    rfl
  calc tokenize ('{' :: cs ++ ['}'])
      = (tokenize (cs ++ ['}'])).map (.mark .openBrace :: ·) :=
        tokenize_mark (m := .openBrace) rfl _
    _ = some (.mark .openBrace :: (ts ++ [.mark .closeBrace])) := by
        rw [tokenize_append (by decide), h, hclose]
        rfl

/-- A text that is read as a type is no record in braces, -/
theorem ofText_braces {cs : List Char} {t : TypeExpr} (h : ofText? cs = some t) :
    ofText? ('{' :: cs ++ ['}']) = none := by
  obtain ⟨ts, hts, ht⟩ := Option.bind_eq_some_iff.mp h
  rw [ofText?, tokenize_braces hts, Option.bind_some,
    ofTokens_braces ((derives_of_ofTokens ht).opens rfl)]

/-- so the braces are delimiters. -/
theorem parse_braces {cs : List Char} {t : TypeExpr} (h : ofText? cs = some t) :
    TypeExpr.parse (String.ofList ('{' :: cs ++ ['}'])) = t := by
  have hunbraced : unbraced? ('{' :: cs ++ ['}']) = some cs := by
    simp [unbraced?]
  rw [TypeExpr.parse]
  simp only [String.toList_ofList, trim_braces, ofText_braces h, hunbraced, Option.bind_some, h]

theorem WellFormed.ofText_written {t : TypeExpr} (h : WellFormed t) :
    ofText? t.written = some t := by
  have hr : Reads .typeList t (t.tokens ++ []) [] := h.reads.list (follows_nil _)
  rw [List.append_nil] at hr
  rw [ofText?, tokenize_written h, Option.bind_some, ofTokens_of_reads hr]

theorem WellFormed.parse_braces {t : TypeExpr} (h : WellFormed t) :
    TypeExpr.parse (String.ofList ('{' :: t.written ++ ['}'])) = t :=
  TypeExpr.parse_braces h.ofText_written

/-- Every well-formed type is read back from its written form, also in braces, and from every text
with the same tokens; and what is read from any text at all is well formed, so writing it and
reading it again gives the same type. -/
theorem round_trip :
    (∀ t : TypeExpr, WellFormed t → parse (String.ofList t.written) = t) ∧
    (∀ t : TypeExpr, WellFormed t →
      parse (String.ofList ('{' :: t.written ++ ['}'])) = t) ∧
    (∀ t : TypeExpr, WellFormed t → ∀ text : String,
      tokenize text.toList = tokenize t.written → parse text = t) ∧
    ∀ text : String, (parse text).isUnknown = false →
      WellFormed (parse text) ∧ parse (String.ofList (parse text).written) = parse text := by
  refine ⟨fun t h => h.parse (by simp), fun t h => h.parse_braces,
    fun t h text hts => h.parse hts, fun text h => ?_⟩
  have hw := wellFormed_parse h
  exact ⟨hw, hw.parse (by simp)⟩

/-- A nullable function type with a named parameter and a union to return. -/
def callback : TypeExpr :=
  .nullable (.function
    [(some "node", .reference "app.Node"), (none, .generic "Map" [.native "string", .native "*"])]
    (some (.union [.native "boolean", .optional (.record [("id", .native "?")])])))

theorem wellFormed_callback : WellFormed callback := by
  refine .nullable (.function (by decide) ?_ ?_)
  · have hmap : WellFormed (.generic "Map" [.native "string", .native "*"]) :=
      .generic (by decide) (by decide) (by decide)
        (by simpa using ⟨.native (by decide), .native (by decide)⟩)
    simpa using ⟨.reference (by decide) (by decide), hmap⟩
  · rintro t ⟨rfl⟩
    have hrecord : WellFormed (.record [("id", .native "?")]) :=
      .record (by decide) (by simpa using .native (by decide))
    exact .union (by decide) (by simpa using ⟨.native (by decide), .optional hrecord⟩)

theorem round_trip_callback :
    parse (String.ofList callback.written) = callback ∧
    parse (String.ofList ('{' :: callback.written ++ ['}'])) = callback ∧
    parse "(?(function ( node: app . Node, Map<string, *> ): (boolean | ({id: ?}=)) )) " =
      callback ∧
    parse (String.ofList (parse "Array.<string>|null=").written) =
      parse "Array.<string>|null=" := by
  have hwritten : callback.written =
      "(?(function(node:app.Node,Map<string,*>):(boolean|({id:?}=))))".toList := by
    simp [callback, written, writtenName]
  have hlayout : tokenize
      "(?(function ( node: app . Node, Map<string, *> ): (boolean | ({id: ?}=)) )) ".toList =
        tokenize callback.written := by
    rw [hwritten]
    decide +kernel
  have hread : (parse "Array.<string>|null=").isUnknown = false := by decide +kernel
  exact ⟨round_trip.1 _ wellFormed_callback, round_trip.2.1 _ wellFormed_callback,
    round_trip.2.2.1 _ wellFormed_callback _ hlayout, (round_trip.2.2.2 _ hread).2⟩

end DocCheck.TypeExpr
