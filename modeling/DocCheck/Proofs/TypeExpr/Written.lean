import DocCheck.Proofs.TypeExpr.Reads
import DocCheck.Proofs.TypeExpr.Token

/-!
# Type expressions in writing

`written` writes a type expression with parentheses around everything that a
reader could take apart in another way. A type expression is well formed when it
has a written form that means it: its names are names, its unions have members to
tell apart, and an array is not spelled as a generic type.

Results:

* `WellFormed.spells`: what follows a written type does not change its tokens.
* `tokenize_written`: the tokens of a written type.
-/
namespace DocCheck.TypeExpr

/-! ## Well-formed type expressions -/

def isDotted (name : String) : Bool := (name.toList.splitOn '.').all isIdent

/-- The type expression has a written form. -/
inductive WellFormed : TypeExpr → Prop where
  | native {name} (h : name = "*" ∨ name = "?" ∨ name ∈ primitives) : WellFormed (.native name)
  | reference {name} (h : isDotted name = true) (hn : name ∉ primitives) :
      WellFormed (.reference name)
  | union {members} (hl : 2 ≤ members.length) (h : ∀ t ∈ members, WellFormed t) :
      WellFormed (.union members)
  | nullable {inner} (h : WellFormed inner) : WellFormed (.nullable inner)
  | nonNullable {inner} (h : WellFormed inner) : WellFormed (.nonNullable inner)
  | optional {inner} (h : WellFormed inner) : WellFormed (.optional inner)
  | arrayOf {inner} (h : WellFormed inner) : WellFormed (.arrayOf inner)
  | generic {base params} (hb : isDotted base = true) (hl : 1 ≤ params.length)
      (ha : ¬ (base = "Array" ∧ params.length = 1)) (h : ∀ t ∈ params, WellFormed t) :
      WellFormed (.generic base params)
  | function {params returns}
      (hn : ∀ q ∈ params, ∀ name ∈ q.1, isIdent name.toList = true)
      (h : ∀ q ∈ params, WellFormed q.2) (hr : ∀ t, returns = some t → WellFormed t) :
      WellFormed (.function params returns)
  | record {fields} (hn : ∀ f ∈ fields, isIdent f.1.toList = true)
      (h : ∀ f ∈ fields, WellFormed f.2) : WellFormed (.record fields)

/-! ## The written form -/

theorem sizeOf_snd_lt {α : Type} [SizeOf α] {q : α × TypeExpr} {qs : List (α × TypeExpr)}
    (h : q ∈ qs) : sizeOf q.2 < sizeOf qs := by
  obtain ⟨name, t⟩ := q
  have := List.sizeOf_lt_of_mem h
  simp only [Prod.mk.sizeOf_spec] at this
  show sizeOf t < sizeOf qs
  omega

/-- The name of a parameter before a colon. -/
def writtenName : Option String → List Char
  | none => []
  | some name => name.toList ++ [':']

/-- The written form of a type expression. -/
def written : TypeExpr → List Char
  | .native name => name.toList
  | .reference name => name.toList
  | .union members => '(' :: ['|'].intercalate (members.map written) ++ [')']
  | .nullable inner => ['(', '?'] ++ written inner ++ [')']
  | .nonNullable inner => ['(', '!'] ++ written inner ++ [')']
  | .optional inner => '(' :: written inner ++ ['=', ')']
  | .arrayOf inner => ['A', 'r', 'r', 'a', 'y', '<'] ++ written inner ++ ['>']
  | .generic base params => base.toList ++ '<' :: [','].intercalate (params.map written) ++ ['>']
  | .function params returns =>
    ['(', 'f', 'u', 'n', 'c', 't', 'i', 'o', 'n', '('] ++
      [','].intercalate (params.map fun q => writtenName q.1 ++ written q.2) ++ ')' ::
        (match returns with
        | none => []
        | some t => ':' :: written t) ++ [')']
  | .record fields =>
    '{' :: [','].intercalate (fields.map fun f => f.1.toList ++ ':' :: written f.2) ++ ['}']
  | .unknown raw => raw.toList
decreasing_by
  all_goals first
    | decreasing_tactic
    | have := sizeOf_snd_lt ‹_›
      simp only [function.sizeOf_spec, record.sizeOf_spec]
      omega

/-! ## Its tokens -/

/-- The parts of a name with dots between them. -/
def partTokens : List (List Char) → List Token
  | [] => []
  | [part] => [.ident (String.ofList part)]
  | part :: q :: parts => .ident (String.ofList part) :: .mark .dot :: partTokens (q :: parts)

def nameTokens (name : String) : List Token := partTokens (name.toList.splitOn '.')

def tokensName : Option String → List Token
  | none => []
  | some name => [.ident name, .mark .colon]

/-- Lists of tokens with a mark between them. -/
def separated (m : Mark) : List (List Token) → List Token
  | [] => []
  | ts :: tss => ts ++ tss.flatMap (.mark m :: ·)

def tokens : TypeExpr → List Token
  | .native name =>
    if name = "*" then [.mark .star]
    else if name = "?" then [.mark .question]
    else nameTokens name
  | .reference name => nameTokens name
  | .union members =>
    .mark .openParen :: separated .bar (members.map tokens) ++ [.mark .closeParen]
  | .nullable inner => [.mark .openParen, .mark .question] ++ tokens inner ++ [.mark .closeParen]
  | .nonNullable inner => [.mark .openParen, .mark .bang] ++ tokens inner ++ [.mark .closeParen]
  | .optional inner => .mark .openParen :: tokens inner ++ [.mark .equals, .mark .closeParen]
  | .arrayOf inner => [.ident "Array", .mark .less] ++ tokens inner ++ [.mark .greater]
  | .generic base params =>
    nameTokens base ++ .mark .less :: separated .comma (params.map tokens) ++ [.mark .greater]
  | .function params returns =>
    [.mark .openParen, .ident "function", .mark .openParen] ++
      separated .comma (params.map fun q => tokensName q.1 ++ tokens q.2) ++
        .mark .closeParen :: (match returns with
        | none => []
        | some t => .mark .colon :: tokens t) ++ [.mark .closeParen]
  | .record fields =>
    .mark .openBrace :: separated .comma (fields.map fun f =>
      .ident f.1 :: .mark .colon :: tokens f.2) ++ [.mark .closeBrace]
  | .unknown _ => []
decreasing_by
  all_goals first
    | decreasing_tactic
    | have := sizeOf_snd_lt ‹_›
      simp only [function.sizeOf_spec, record.sizeOf_spec]
      omega

/-! ## The written form has those tokens -/

/-- The text has the tokens, whatever stands behind it without going on with an identifier. -/
def Spells (cs : List Char) (ts : List Token) : Prop :=
  ∀ r, EndsIdent r → tokenize (cs ++ r) = (tokenize r).map (ts ++ ·)

theorem Spells.nil : Spells [] [] := by
  intro r _
  simp

theorem Spells.ident {name : List Char} (h : isIdent name = true) :
    Spells name [.ident (String.ofList name)] :=
  fun _ hr => tokenize_ident h hr

theorem Spells.mark {m : Mark} {cs : List Char} {ts : List Token} (hm : m.isPlain = true)
    (h : Spells cs ts) : Spells (m.spelling ++ cs) (.mark m :: ts) := by
  intro r hr
  rw [List.append_assoc, tokenize_mark hm, h r hr, Option.map_map]
  rfl

theorem endsIdent_mark (m : Mark) (cs : List Char) : EndsIdent (m.spelling ++ cs) := by
  have key : (m.spelling.head?.all fun c => !continuesIdent c) = true := by cases m <;> rfl
  have hhead : (m.spelling ++ cs).head? = m.spelling.head? := by cases m <;> rfl
  intro c hc
  rw [hhead, Option.mem_def] at hc
  simpa [hc] using key

/-- A mark between two texts ends the first one. -/
theorem Spells.append {m : Mark} {cs ds : List Char} {ts us : List Token} (h : Spells cs ts)
    (hm : m.isPlain = true) (hd : Spells ds us) :
    Spells (cs ++ (m.spelling ++ ds)) (ts ++ .mark m :: us) := by
  intro r hr
  have h1 := h (m.spelling ++ ds ++ r) (by rw [List.append_assoc]; exact endsIdent_mark m _)
  rw [List.append_assoc, h1, Spells.mark hm hd r hr, Option.map_map]
  congr 1
  funext x
  simp

theorem spells_parts {parts : List (List Char)} (h : parts.all isIdent = true) (hne : parts ≠ []) :
    Spells (['.'].intercalate parts) (partTokens parts) := by
  fun_induction partTokens parts with
  | case1 => exact absurd rfl hne
  | case2 part =>
    simp only [List.all_cons, List.all_nil, Bool.and_true] at h
    rw [List.intercalate_singleton]
    exact .ident h
  | case3 part q parts ih =>
    simp only [List.all_cons, Bool.and_eq_true] at h
    have hq := ih (by simp only [List.all_cons, Bool.and_eq_true]; exact h.2) (by simp)
    intro r hr
    -- the part behind the dot starts with a character that no mark goes on with
    obtain ⟨c, rest, he, hc⟩ : ∃ c rest, ['.'].intercalate (q :: parts) = c :: rest ∧
        startsIdent c = true := by
      cases q with
      | nil => simp [isIdent] at h
      | cons c cs =>
        refine ⟨c, cs ++ ['.'].intercalate ([] :: parts), ?_, ?_⟩
        · cases parts <;> simp [List.intercalate_cons_cons]
        · simp only [isIdent, Bool.and_eq_true] at h
          exact h.2.1.1
    have hend : EndsIdent (['.'] ++ (['.'].intercalate (q :: parts) ++ r)) :=
      endsIdent_mark .dot _
    have h1 := tokenize_ident h.1 hend
    have h2 := hq r hr
    rw [he, List.cons_append] at h2
    rw [List.intercalate_cons_cons, List.append_assoc, List.append_assoc, h1, he,
      List.cons_append, List.nil_append, List.cons_append, tokenize_dot hc, h2]
    simp [Option.map_map, Function.comp_def]

theorem spells_name {name : String} (h : isDotted name = true) :
    Spells name.toList (nameTokens name) := by
  have hs := spells_parts h (List.splitOn_ne_nil '.' name.toList)
  rw [List.intercalate_splitOn] at hs
  exact hs

theorem isDotted_of_primitive {name : String} (h : name ∈ primitives) : isDotted name = true := by
  have hall : primitives.all isDotted = true := by decide
  exact List.all_eq_true.mp hall name h

theorem spells_field {name : String} (hn : isIdent name.toList = true) {cs : List Char}
    {ts : List Token} (h : Spells cs ts) :
    Spells (name.toList ++ ':' :: cs) (.ident name :: .mark .colon :: ts) := by
  have hs := Spells.append (m := .colon) (.ident hn) rfl h
  rw [String.ofList_toList] at hs
  exact hs

theorem spells_param (name : Option String) (hn : ∀ s ∈ name, isIdent s.toList = true)
    {cs : List Char} {ts : List Token} (h : Spells cs ts) :
    Spells (writtenName name ++ cs) (tokensName name ++ ts) := by
  cases name with
  | none => exact h
  | some s =>
    rw [writtenName, List.append_assoc]
    exact spells_field (hn s rfl) h

/-- Texts with a plain mark between them have their tokens with the mark between them. -/
theorem spells_separated {α : Type} {m : Mark} (hm : m.isPlain = true) {f : α → List Char}
    {g : α → List Token} : ∀ xs : List α, (∀ x ∈ xs, Spells (f x) (g x)) →
      Spells (m.spelling.intercalate (xs.map f)) (separated m (xs.map g))
  | [], _ => .nil
  | [x], h => by
    have hx := h x (by simp)
    simpa [separated] using hx
  | x :: y :: xs, h => by
    have hxs := spells_separated hm (y :: xs) fun z hz => h z (by simp [hz])
    have hs := (h x (by simp)).append hm hxs
    simpa [separated, List.intercalate_cons_cons] using hs

/-- The written form of a type has the tokens of the type. -/
theorem WellFormed.spells {t : TypeExpr} (h : WellFormed t) : Spells t.written t.tokens := by
  induction h with
  | @native name h =>
    rw [written, tokens]
    split
    · rename_i hn
      rw [hn]
      exact .mark (m := .star) rfl .nil
    · split
      · rename_i hn
        rw [hn]
        exact .mark (m := .question) rfl .nil
      · rename_i h1 h2
        exact spells_name (isDotted_of_primitive ((h.resolve_left h1).resolve_left h2))
  | reference h =>
    rw [written, tokens]
    exact spells_name h
  | @union members hl h ih =>
    rw [written, tokens]
    exact .mark (m := .openParen) rfl
      (.append (m := .closeParen) (spells_separated (m := .bar) rfl members ih) rfl .nil)
  | nullable h ih =>
    rw [written, tokens]
    exact .mark (m := .openParen) rfl (.mark (m := .question) rfl
      (.append (m := .closeParen) ih rfl .nil))
  | nonNullable h ih =>
    rw [written, tokens]
    exact .mark (m := .openParen) rfl (.mark (m := .bang) rfl
      (.append (m := .closeParen) ih rfl .nil))
  | optional h ih =>
    rw [written, tokens]
    exact .mark (m := .openParen) rfl (.append (m := .equals) ih rfl
      (.mark (m := .closeParen) rfl .nil))
  | arrayOf h ih =>
    rw [written, tokens]
    have harray : Spells ['A', 'r', 'r', 'a', 'y'] [.ident "Array"] := .ident (by decide)
    exact .append (m := .less) harray rfl (.append (m := .greater) ih rfl .nil)
  | @generic base params hb hl ha h ih =>
    rw [written, tokens]
    have hs := Spells.append (m := .less) (spells_name hb) rfl (.append (m := .greater)
      (spells_separated (m := .comma) rfl params ih) rfl .nil)
    simpa [Mark.spelling] using hs
  | @function params returns hn h hr ih ihr =>
    have hfun : Spells ['f', 'u', 'n', 'c', 't', 'i', 'o', 'n'] [.ident "function"] :=
      .ident (by decide)
    have hps := spells_separated (m := .comma) rfl params
      fun q hq => spells_param q.1 (hn q hq) (ih q hq)
    cases returns with
    | none =>
      rw [written, tokens]
      have hs := Spells.mark (m := .openParen) rfl (.append (m := .openParen) hfun rfl
        (.append (m := .closeParen) hps rfl (.mark (m := .closeParen) rfl .nil)))
      simpa [Mark.spelling] using hs
    | some t =>
      rw [written, tokens]
      have hs := Spells.mark (m := .openParen) rfl (.append (m := .openParen) hfun rfl
        (.append (m := .closeParen) hps rfl (.mark (m := .colon) rfl
          (.append (m := .closeParen) (ihr t rfl) rfl .nil))))
      simpa [Mark.spelling] using hs
  | @record fields hn h ih =>
    rw [written, tokens]
    have hfs := spells_separated (m := .comma) rfl fields
      fun f hf => spells_field (hn f hf) (ih f hf)
    exact .mark (m := .openBrace) rfl (.append (m := .closeBrace) hfs rfl .nil)

/-- The tokens of a written type. -/
theorem tokenize_written {t : TypeExpr} (h : WellFormed t) :
    tokenize t.written = some t.tokens := by
  have hs := h.spells [] (by intro c hc; cases hc)
  simpa [tokenize] using hs

end DocCheck.TypeExpr
