import DocCheck.Proofs.Text.Blank
import DocCheck.TypeExpr.Token

/-!
# Tokens of written type expressions

What `tokenize` does at the start of a text: it skips white space, takes an
identifier that the text behind it does not go on with, and takes a punctuation
mark. White space at either end of a text leaves the tokens as they are, and so
does any other text behind it that no token goes on into.

Results:

* `tokenize_ident`, `tokenize_mark`: a written token is read back as that token.
* `tokenize_append`: the tokens of two texts one after the other.
* `tokenize_trim`: a text has the tokens of its trimmed form.
* `isIdent_of_mem_tokenize`: the identifiers among the tokens are well formed.
-/
namespace DocCheck.TypeExpr

def isIdent : List Char → Bool
  | [] => false
  | c :: r => startsIdent c && r.all continuesIdent

/-- An identifier does not go on into the text. -/
def EndsIdent (cs : List Char) : Prop := ∀ c ∈ cs.head?, continuesIdent c = false

theorem continuesIdent_of_isBlank {c : Char} (h : Text.isBlank c = true) :
    continuesIdent c = false := by
  have hne : c ≠ '$' := by
    rintro rfl
    exact absurd h (by decide)
  rw [continuesIdent, Text.isWord_of_isBlank h, beq_false_of_ne hne]
  rfl

theorem continuesIdent_of_startsIdent {c : Char} (h : startsIdent c = true) :
    continuesIdent c = true := by
  simp only [startsIdent, Bool.or_eq_true] at h
  rcases h with (h | h) | h
  · have ha : c.isAlphanum = true := by simp [Char.isAlphanum, h]
    simp [continuesIdent, Text.isWord_of_isAlphanum c ha]
  · rw [eq_of_beq h]; decide
  · rw [eq_of_beq h]; decide

theorem isBlank_of_startsIdent {c : Char} (h : startsIdent c = true) : Text.isBlank c = false := by
  rw [← Bool.not_eq_true]
  intro hb
  have hc := continuesIdent_of_isBlank hb
  rw [continuesIdent_of_startsIdent h] at hc
  cases hc

/-! ## One token -/

theorem tokenize_blank {c : Char} (h : Text.isBlank c = true) (cs : List Char) :
    tokenize (c :: cs) = tokenize cs := by
  rw [tokenize, if_pos h]

theorem tokenize_ident {name cs : List Char} (hn : isIdent name = true) (hcs : EndsIdent cs) :
    tokenize (name ++ cs) = (tokenize cs).map (.ident (String.ofList name) :: ·) := by
  cases name with
  | nil => simp [isIdent] at hn
  | cons c r =>
    simp only [isIdent, Bool.and_eq_true, List.all_eq_true] at hn
    have htake : (r ++ cs).takeWhile continuesIdent = r := by
      rw [List.takeWhile_append_of_pos hn.2]
      cases cs with
      | nil => simp
      | cons d cs => simp [hcs d rfl]
    have hdrop : (r ++ cs).dropWhile continuesIdent = cs := by
      rw [List.dropWhile_append_of_pos hn.2]
      cases cs with
      | nil => simp
      | cons d cs => simp [hcs d rfl]
    rw [List.cons_append, tokenize, if_neg (by simp [isBlank_of_startsIdent hn.1]), if_pos hn.1]
    simp only [htake, hdrop]

theorem tokenize_of_punctuation {c : Char} {cs rest : List Char} {m : Mark}
    (h : punctuation (c :: cs) = some (m, rest)) :
    tokenize (c :: cs) = (tokenize rest).map (.mark m :: ·) := by
  have hc : Text.isBlank c = false ∧ startsIdent c = false := by
    have hs := punctuation_spelling h
    cases m <;> (simp only [Mark.spelling, List.cons_append, List.cons.injEq] at hs; rw [hs.1])
    all_goals decide
  rw [tokenize, if_neg (by simp [hc.1]), if_neg (by simp [hc.2])]
  split
  · rename_i m' rest' h'
    rw [h] at h'
    simp only [Option.some.injEq, Prod.mk.injEq] at h'
    obtain ⟨rfl, rfl⟩ := h'
    rfl
  · rename_i h'
    rw [h] at h'
    cases h'

/-- A mark of one character that no longer mark starts with. -/
def Mark.isPlain (m : Mark) : Bool := !([.ellipsis, .dotLess, .brackets, .dot].contains m)

theorem tokenize_mark {m : Mark} (h : m.isPlain = true) (cs : List Char) :
    tokenize (m.spelling ++ cs) = (tokenize cs).map (.mark m :: ·) := by
  cases m <;> first | exact absurd h (by decide) | exact tokenize_of_punctuation rfl

theorem punctuation_dot {cs : List Char} (h1 : ∀ r, cs ≠ '<' :: r)
    (h2 : ∀ r, cs ≠ '.' :: '.' :: r) : punctuation ('.' :: cs) = some (.dot, cs) := by
  unfold punctuation
  split <;> simp_all

/-- A dot that an identifier follows is a mark of its own. -/
theorem tokenize_dot {c : Char} (h : startsIdent c = true) (cs : List Char) :
    tokenize ('.' :: c :: cs) = (tokenize (c :: cs)).map (.mark .dot :: ·) := by
  apply tokenize_of_punctuation
  apply punctuation_dot
  · rintro r he
    cases he
    exact absurd h (by decide)
  · rintro r he
    cases he
    exact absurd h (by decide)

/-! ## Texts one after the other -/

theorem punctuation_spelling_ne_none (m : Mark) (cs : List Char) :
    punctuation (m.spelling ++ cs) ≠ none := by
  cases m
  case dot =>
    simp only [Mark.spelling, List.cons_append, List.nil_append]
    unfold punctuation
    split <;> simp_all
  all_goals simp [Mark.spelling, punctuation]

/-- No token that starts before the character goes on with it. -/
def endsToken (c : Char) : Bool := !(continuesIdent c || ['.', '<', ']'].contains c)

theorem Mark.endsToken_of_mem_tail {m : Mark} {c : Char} (h : c ∈ m.spelling.tail) :
    endsToken c = false := by
  have key : (m.spelling.tail.all fun x => !endsToken x) = true := by cases m <;> decide
  simpa using List.all_eq_true.mp key c h

/-- A character that ends tokens does not make a mark longer. -/
theorem punctuation_append {cs r : List Char} {m : Mark} (h : punctuation cs = some (m, r))
    {b : Char} (hb : endsToken b = true) (bs : List Char) :
    punctuation (cs ++ b :: bs) = some (m, r ++ b :: bs) := by
  have hs := punctuation_spelling h
  subst hs
  cases m
  case dot =>
    show punctuation ('.' :: (r ++ b :: bs)) = some (.dot, r ++ b :: bs)
    apply punctuation_dot
    · intro r' he
      cases r with
      | nil =>
        simp only [List.nil_append, List.cons.injEq] at he
        exact absurd hb (by rw [he.1]; decide)
      | cons d r =>
        simp only [List.cons_append, List.cons.injEq] at he
        obtain ⟨rfl, _⟩ := he
        simp [Mark.spelling, punctuation] at h
    · intro r' he
      rcases r with _ | ⟨d, _ | ⟨e, r⟩⟩
      · simp only [List.nil_append, List.cons.injEq] at he
        exact absurd hb (by rw [he.1]; decide)
      · simp only [List.cons_append, List.nil_append, List.cons.injEq] at he
        exact absurd hb (by rw [he.2.1]; decide)
      · simp only [List.cons_append, List.cons.injEq] at he
        obtain ⟨rfl, rfl, _⟩ := he
        simp [Mark.spelling, punctuation] at h
  all_goals simp [Mark.spelling, punctuation]

/-- Nor does it make a mark of a character that starts none. -/
theorem punctuation_append_none {c : Char} {cs : List Char} (h : punctuation (c :: cs) = none)
    {b : Char} (hb : endsToken b = true) (bs : List Char) :
    punctuation (c :: cs ++ b :: bs) = none := by
  cases hp : punctuation (c :: cs ++ b :: bs) with
  | none => rfl
  | some p =>
    obtain ⟨m, r⟩ := p
    -- either the text holds the whole spelling, or the spelling goes on behind it
    rcases List.append_eq_append_iff.mp (punctuation_spelling hp) with ⟨u, hu, hr⟩ | ⟨u, hu, _⟩
    · cases u with
      | nil =>
        rw [List.append_nil] at hu
        have := punctuation_spelling_ne_none m []
        rw [List.append_nil, hu] at this
        exact absurd h this
      | cons x u =>
        simp only [List.cons_append, List.cons.injEq] at hr
        have hx := Mark.endsToken_of_mem_tail (m := m) (c := x) (by simp [hu])
        rw [← hr.1, hb] at hx
        cases hx
    · rw [hu] at h
      exact absurd h (punctuation_spelling_ne_none m u)

/-- In front of a character that ends tokens, a text has the tokens that it has alone. -/
theorem tokenize_append {b : Char} (hb : endsToken b = true) (cs bs : List Char) :
    tokenize (cs ++ b :: bs) =
      (tokenize cs).bind fun ts => (tokenize (b :: bs)).map (ts ++ ·) := by
  fun_induction tokenize cs with
  | case1 => simp
  | case2 c r hc ih => rw [List.cons_append, tokenize_blank hc, ih]
  | case3 c r hc hs name ih =>
    -- the identifier ends before the character
    have hword : isIdent (c :: r.takeWhile continuesIdent) = true := by
      simp [isIdent, hs]
    have hend : EndsIdent (r.dropWhile continuesIdent ++ b :: bs) := by
      cases hd : r.dropWhile continuesIdent with
      | nil =>
        simp only [endsToken, Bool.not_eq_true', Bool.or_eq_false_iff] at hb
        simpa [EndsIdent] using hb.1
      | cons d ds =>
        have := List.head?_dropWhile_not continuesIdent r
        rw [hd] at this
        simpa [EndsIdent] using this
    have hcut : c :: r ++ b :: bs =
        c :: r.takeWhile continuesIdent ++ (r.dropWhile continuesIdent ++ b :: bs) := by
      rw [List.cons_append, List.cons_append, ← List.append_assoc,
        List.takeWhile_append_dropWhile]
    rw [hcut, tokenize_ident hword hend, ih]
    cases tokenize (r.dropWhile continuesIdent) <;> cases tokenize (b :: bs) <;> rfl
  | case4 c r hc hs m rest hp ih =>
    have hp' := punctuation_append hp hb bs
    rw [List.cons_append] at hp'
    rw [List.cons_append, tokenize_of_punctuation hp', ih]
    cases tokenize rest <;> cases tokenize (b :: bs) <;> rfl
  | case5 c r hc hs hp =>
    have hp' := punctuation_append_none hp hb bs
    rw [List.cons_append] at hp'
    rw [List.cons_append, tokenize, if_neg hc, if_neg hs]
    split
    · rename_i h'
      rw [hp'] at h'
      cases h'
    · rfl

/-! ## White space at the ends -/

theorem tokenize_blanks {bs : List Char} (h : ∀ c ∈ bs, Text.isBlank c = true) (cs : List Char) :
    tokenize (bs ++ cs) = tokenize cs := by
  induction bs with
  | nil => rfl
  | cons b bs ih =>
    rw [List.cons_append, tokenize_blank (h b (by simp)), ih fun c hc => h c (by simp [hc])]

theorem endsToken_of_isBlank {c : Char} (h : Text.isBlank c = true) : endsToken c = true := by
  have hmark : ['.', '<', ']'].contains c = false := by
    rw [← Bool.not_eq_true]
    intro hm
    simp only [List.contains_cons, List.contains_nil, Bool.or_eq_true, beq_iff_eq,
      Bool.false_eq_true, or_false] at hm
    rcases hm with rfl | rfl | rfl <;> exact absurd h (by decide)
  rw [endsToken, continuesIdent_of_isBlank h, hmark]
  rfl

theorem tokenize_append_blanks (cs : List Char) {bs : List Char}
    (h : ∀ c ∈ bs, Text.isBlank c = true) : tokenize (cs ++ bs) = tokenize cs := by
  cases bs with
  | nil => rw [List.append_nil]
  | cons b bs =>
    have hnone : tokenize (b :: bs) = some [] := by
      simpa [tokenize] using tokenize_blanks h []
    rw [tokenize_append (endsToken_of_isBlank (h b (by simp))), hnone]
    cases tokenize cs <;> simp

/-- White space around a text has no part in its tokens. -/
theorem tokenize_trim (cs : List Char) : tokenize (Text.trim cs) = tokenize cs := by
  obtain ⟨before, after, he, hb, ha⟩ := Text.trim_blanks cs
  calc tokenize (Text.trim cs) = tokenize (before ++ Text.trim cs ++ after) := by
        rw [tokenize_append_blanks _ ha, tokenize_blanks hb]
    _ = tokenize cs := by rw [← he]

/-! ## Identifiers among the tokens -/

theorem isIdent_of_mem_tokenize {cs : List Char} {ts : List Token} (h : tokenize cs = some ts)
    {name : String} (hn : .ident name ∈ ts) : isIdent name.toList = true := by
  fun_induction tokenize cs generalizing ts with
  | case1 => simp only [Option.some.injEq] at h; subst h; cases hn
  | case2 c r hc ih => exact ih h hn
  | case3 c r hc hs word =>
    rename_i ih
    obtain ⟨ts', h', rfl⟩ := Option.map_eq_some_iff.mp h
    rcases List.mem_cons.mp hn with he | hn
    · simp only [Token.ident.injEq] at he
      rw [he]
      simp [word, isIdent, hs]
    · exact ih h' hn
  | case4 c r hc hs m rest hp ih =>
    obtain ⟨ts', h', rfl⟩ := Option.map_eq_some_iff.mp h
    rcases List.mem_cons.mp hn with he | hn
    · cases he
    · exact ih h' hn
  | case5 => cases h

end DocCheck.TypeExpr
