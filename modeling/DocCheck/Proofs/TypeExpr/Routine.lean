import DocCheck.TypeExpr.Parser

/-!
# The routines of the reader

The reader of type expressions taken apart into routines that call each other. A
`Body` is what one call of a routine does: it fails, is done, calls a routine, or
goes round a loop; what it does next depends on what its calls give. `Runs` says
how a call ends, and how deep the calls nest that it takes: to have an end at all
is to terminate.

A routine `Advances` when its own steps do, whatever its calls give: every call is
made in front of fewer tokens or, in front of the same ones, of a routine of a
lower tier, and every round of a loop leaves fewer tokens than it found. From this
alone it follows that all calls end.

Results:

* `Ends.advances`, `Does.advances`: what such a body leaves, and what it does on the way.
* `exists_ends`: such a body ends when the calls below it do.
-/
namespace DocCheck.TypeExpr

/-! ## Routines and their bodies -/

/-- The routines of the reader; `arguments` reads what a name is applied to. -/
inductive Routine where
  | typeList | member | variadic | unary | suffixed | primary | name
  | arguments (base : String)
  | function | param | record | field

/-- What a routine gives. -/
@[reducible] def Routine.Tree : Routine → Type
  | .name => String
  | .param => Option String × TypeExpr
  | .field => String × TypeExpr
  | _ => TypeExpr

/-- What is left to do in a call of a routine. A call and a loop go on with what they give and the
tokens that they leave; a loop goes round as long as the tokens say `again`. -/
inductive Body : Type → Type 1 where
  | fail {α : Type} : Body α
  | done {α : Type} (a : α) (rest : List Token) : Body α
  | call {α : Type} (q : Routine) (ts : List Token) (next : q.Tree → List Token → Body α) : Body α
  | loop {α β : Type} (again : List Token → Bool) (round : List Token → Body β) (ts : List Token)
      (next : List β → List Token → Body α) : Body α

def startsWith (m : Mark) : List Token → Bool
  | .mark m' :: _ => m' = m
  | _ => false

namespace Body

/-- Goes on behind a mark, which has to be there. -/
def expecting {α : Type} (m : Mark) (ts : List Token) (next : List Token → Body α) : Body α :=
  (expect m ts).elim .fail next

theorem expecting_cons {α : Type} (m : Mark) (r : List Token) (next : List Token → Body α) :
    expecting m (.mark m :: r) next = next r := by
  simp [expecting, expect]

/-- One routine called for the first item, and again behind every separator. -/
def separated {α : Type} (sep : Mark) (q : Routine) (ts : List Token)
    (next : q.Tree → List q.Tree → List Token → Body α) : Body α :=
  .call q ts fun first r =>
    .loop (startsWith sep) (fun r => .call q r.tail .done) r fun more r => next first more r

def typeList (ts : List Token) : Body TypeExpr :=
  .separated .bar .member ts fun first more r => .done (ofMembers first more) r

def member (ts : List Token) : Body TypeExpr :=
  if startsWith .ellipsis ts then .call .variadic ts .done
  else
    .call .unary ts fun t r =>
      if startsWith .equals r then .done (.optional t) r.tail else .done t r

def variadic (ts : List Token) : Body TypeExpr :=
  if mayFollowBare ts.tail then .done (.arrayOf (.native "*")) ts.tail
  else .call .unary ts.tail fun t r => .done (.arrayOf t) r

def unary (ts : List Token) : Body TypeExpr :=
  if startsWith .question ts then
    if mayFollowBare ts.tail then .done (.native "?") ts.tail
    else .call .unary ts.tail fun t r => .done (.nullable t) r
  else if startsWith .bang ts then .call .unary ts.tail fun t r => .done (.nonNullable t) r
  else .call .suffixed ts .done

def suffixed (ts : List Token) : Body TypeExpr :=
  .call .primary ts fun t r =>
    .loop (startsWith .brackets) (fun r => .done () r.tail) r fun suffixes r =>
      .done (suffixes.foldl (fun t _ => .arrayOf t) t) r

/-- The tokens start with the head of a function type. -/
def startsFunction : List Token → Bool
  | .ident "function" :: .mark .openParen :: _ => true
  | _ => false

def primary (ts : List Token) : Body TypeExpr :=
  if startsWith .openParen ts then
    .call .typeList ts.tail fun t r => .expecting .closeParen r fun r => .done t r
  else if startsWith .openBrace ts then .call .record ts .done
  else if startsWith .star ts then .done (.native "*") ts.tail
  else if startsFunction ts then .call .function ts .done
  else
    .call .name ts fun name r =>
      if startsWith .less r || startsWith .dotLess r then .call (.arguments name) r .done
      else .done (ofName name) r

/-- The tokens start with a dot and an identifier. -/
def startsPart : List Token → Bool
  | .mark .dot :: .ident _ :: _ => true
  | _ => false

def part : List Token → Body String
  | .mark .dot :: .ident part :: r => .done part r
  | _ => .fail

def name : List Token → Body String
  | .ident first :: r =>
    .loop startsPart part r fun parts r => .done (".".intercalate (first :: parts)) r
  | _ => .fail

def arguments (base : String) (ts : List Token) : Body TypeExpr :=
  .separated .comma .typeList ts.tail fun first more r =>
    .expecting .greater r fun r => .done (ofArguments base first more) r

def functionEnd (params : List (Option String × TypeExpr)) (ts : List Token) : Body TypeExpr :=
  .expecting .closeParen ts fun r =>
    if startsWith .colon r then .call .member r.tail fun t r => .done (.function params (some t)) r
    else .done (.function params none) r

/-- A function type behind its opening parenthesis. -/
def functionParams (ts : List Token) : Body TypeExpr :=
  if startsWith .closeParen ts then functionEnd [] ts
  else .separated .comma .param ts fun first more r => functionEnd (first :: more) r

def function (ts : List Token) : Body TypeExpr :=
  .expecting .openParen ts.tail functionParams

def param : List Token → Body (Option String × TypeExpr)
  | .ident name :: .mark .colon :: ts => .call .typeList ts fun t r => .done (some name, t) r
  | ts => .call .typeList ts fun t r => .done (none, t) r

def recordEnd (fields : List (String × TypeExpr)) (ts : List Token) : Body TypeExpr :=
  .expecting .closeBrace ts fun r => .done (.record fields) r

def record (ts : List Token) : Body TypeExpr :=
  .expecting .openBrace ts fun r =>
    if startsWith .closeBrace r then recordEnd [] r
    else .separated .comma .field r fun first more r => recordEnd (first :: more) r

def field : List Token → Body (String × TypeExpr)
  | .ident name :: ts =>
    .expecting .colon ts fun r => .call .typeList r fun t r => .done (name, t) r
  | _ => .fail

end Body

/-- What a call of the routine in front of the tokens does. -/
def Routine.body : (q : Routine) → List Token → Body q.Tree
  | .typeList => Body.typeList
  | .member => Body.member
  | .variadic => Body.variadic
  | .unary => Body.unary
  | .suffixed => Body.suffixed
  | .primary => Body.primary
  | .name => Body.name
  | .arguments base => Body.arguments base
  | .function => Body.function
  | .param => Body.param
  | .record => Body.record
  | .field => Body.field

/-! ## Runs -/

/-- How the calls of routines end: in failure, or with a tree in front of the rest. -/
abbrev Callee := (q : Routine) → List Token → Option (q.Tree × List Token) → Prop

/-- The end that a body comes to when its calls end like this. -/
inductive Ends (callee : Callee) :
    {α : Type} → Body α → Option (α × List Token) → Prop where
  | fail {α} : Ends callee (.fail : Body α) none
  | done {α} {a : α} {rest} : Ends callee (.done a rest) (some (a, rest))
  | callFails {α q ts} {next : _ → _ → Body α} (h : callee q ts none) :
      Ends callee (.call q ts next) none
  | call {α q ts t r out} {next : _ → _ → Body α} (h : callee q ts (some (t, r)))
      (hs : Ends callee (next t r) out) : Ends callee (.call q ts next) out
  | loopEnds {α β again ts out} {round : _ → Body β} {next : _ → _ → Body α}
      (h : again ts = false) (hs : Ends callee (next [] ts) out) :
      Ends callee (.loop again round ts next) out
  | loopFails {α β again ts} {round : _ → Body β} {next : _ → _ → Body α}
      (h : again ts = true) (hb : Ends callee (round ts) none) :
      Ends callee (.loop again round ts next) none
  | loopAgain {α β again ts b r out} {round : _ → Body β} {next : _ → _ → Body α}
      (h : again ts = true) (hb : Ends callee (round ts) (some (b, r)))
      (hs : Ends callee (.loop again round r fun bs => next (b :: bs)) out) :
      Ends callee (.loop again round ts next) out

/-- A call of the routine in front of the tokens ends like this, with calls that are nested at most
so deep, its own counted. -/
def Runs : Nat → Callee
  | 0 => fun _ _ _ => False
  | d + 1 => fun q ts out => Ends (Runs d) (q.body ts) out

/-- What happens in a call: it calls a routine in front of tokens, or goes round a loop from some
tokens to the rest. -/
inductive Event where
  | call (q : Routine) (ts : List Token)
  | round (ts rest : List Token)

/-- The event happens in the body when its calls end like this. -/
inductive Does (callee : Callee) : {α : Type} → Body α → Event → Prop where
  | call {α q ts} {next : _ → _ → Body α} : Does callee (.call q ts next) (.call q ts)
  | afterCall {α q ts t r e} {next : _ → _ → Body α} (h : callee q ts (some (t, r)))
      (hs : Does callee (next t r) e) : Does callee (.call q ts next) e
  | round {α β again ts b r} {round : _ → Body β} {next : _ → _ → Body α}
      (h : again ts = true) (hb : Ends callee (round ts) (some (b, r))) :
      Does callee (.loop again round ts next) (.round ts r)
  | inRound {α β again ts e} {round : _ → Body β} {next : _ → _ → Body α}
      (h : again ts = true) (hb : Does callee (round ts) e) :
      Does callee (.loop again round ts next) e
  | laterRound {α β again ts b r e} {round : _ → Body β} {next : _ → _ → Body α}
      (h : again ts = true) (hb : Ends callee (round ts) (some (b, r)))
      (hs : Does callee (.loop again round r fun bs => next (b :: bs)) e) :
      Does callee (.loop again round ts next) e
  | afterLoop {α β again ts e} {round : _ → Body β} {next : _ → _ → Body α}
      (h : again ts = false) (hs : Does callee (next [] ts) e) :
      Does callee (.loop again round ts next) e

theorem Ends.mono {callee callee' : Callee} {α : Type} {b : Body α}
    {out : Option (α × List Token)} (hc : ∀ {q ts out}, callee q ts out → callee' q ts out)
    (h : Ends callee b out) : Ends callee' b out := by
  induction h with
  | fail => exact .fail
  | done => exact .done
  | callFails h => exact .callFails (hc h)
  | call h hs ih => exact .call (hc h) ih
  | loopEnds h hs ih => exact .loopEnds h ih
  | loopFails h hb ih => exact .loopFails h ih
  | loopAgain h hb hs ihb ih => exact .loopAgain h ihb ih

theorem Runs.mono {d d' : Nat} {q : Routine} {ts : List Token}
    {out : Option (q.Tree × List Token)} (h : Runs d q ts out) (hd : d ≤ d') :
    Runs d' q ts out := by
  induction d generalizing d' q ts out with
  | zero => exact h.elim
  | succ d ih =>
    obtain ⟨d', rfl⟩ : ∃ k, d' = k + 1 := ⟨d' - 1, by omega⟩
    exact Ends.mono (fun h => ih h (by omega)) h

/-! ## Going down -/

/-- The order of the routines in front of the same tokens. The arguments of a name and the fields of
a record have no part in it: they are read behind other tokens only. -/
def Routine.tier : Routine → Option Nat
  | .param => some 6
  | .typeList => some 5
  | .member => some 4
  | .variadic | .unary => some 3
  | .suffixed => some 2
  | .primary => some 1
  | .name | .function | .record => some 0
  | .arguments _ | .field => none

/-- The routine is lower in the order than the other. -/
def Routine.Lower (q' q : Routine) : Prop := ∃ i ∈ q'.tier, ∃ j ∈ q.tier, i < j

/-- The rest stands behind one of the tokens or more. -/
def Behind (ts rest : List Token) : Prop := rest <:+ ts ∧ rest.length < ts.length

/-- A call that a routine in front of tokens may make. -/
def Routine.Descends (q : Routine) (ts : List Token) (q' : Routine) (ts' : List Token) : Prop :=
  Behind ts ts' ∨ ts' = ts ∧ q'.Lower q

/-- What stands in front of the routine when others call it. -/
def Routine.IsEntered : Routine → List Token → Prop
  | .variadic, ts => startsWith .ellipsis ts = true
  | .arguments _, ts => startsWith .less ts = true ∨ startsWith .dotLess ts = true
  | .function, ts => Body.startsFunction ts = true
  | .record, ts => startsWith .openBrace ts = true
  | _, _ => True

/-- The body of a call, whatever its calls give: its calls are entered and go down, its rounds leave
less than they find, and what it leaves itself has the property. -/
def Body.Advances (q : Routine) (ts : List Token) :
    {α : Type} → Body α → (List Token → Prop) → Prop
  | _, .fail, _ => True
  | _, .done _ rest, P => P rest
  | _, .call q' ts' next, P =>
    q'.IsEntered ts' ∧ q.Descends ts q' ts' ∧ ∀ t r, Behind ts' r → (next t r).Advances q ts P
  | _, .loop again round ts' next, P =>
    ts' <:+ ts ∧ (∀ r, r <:+ ts' → again r = true → (round r).Advances q ts (Behind r)) ∧
      ∀ bs r, r <:+ ts' → (next bs r).Advances q ts P

/-- The event goes down from a call of the routine in front of the tokens. -/
def Event.Advances (q : Routine) (ts : List Token) : Event → Prop
  | .call q' ts' => q'.IsEntered ts' ∧ q.Descends ts q' ts'
  | .round ts' rest => ts' <:+ ts ∧ Behind ts' rest

theorem Behind.trans_suffix {ts r r' : List Token} (h : Behind ts r) (hr : r' <:+ r) :
    Behind ts r' :=
  ⟨hr.trans h.1, Nat.lt_of_le_of_lt hr.length_le h.2⟩

theorem Behind.of_suffix {ts r r' : List Token} (hr : r <:+ ts) (h : Behind r r') :
    Behind ts r' :=
  ⟨h.1.trans hr, Nat.lt_of_lt_of_le h.2 hr.length_le⟩

/-! ## What advances, step by step -/

section Steps

variable {callee : Callee} {q : Routine} {ts : List Token} {α : Type} {b : Body α}
  {P : List Token → Prop}
  (hc : ∀ {q' : Routine} {ts' r : List Token} {t : q'.Tree},
    q'.IsEntered ts' → callee q' ts' (some (t, r)) → Behind ts' r)

/-- What is left of a loop advances after a round. -/
theorem Body.Advances.again {β : Type} {again : List Token → Bool} {round : List Token → Body β}
    {ts' r : List Token} {next : List β → List Token → Body α}
    (h : (Body.loop again round ts' next).Advances q ts P) (hr : r <:+ ts') (x : β) :
    (Body.loop again round r fun bs => next (x :: bs)).Advances q ts P := by
  obtain ⟨hts, hround, hnext⟩ := h
  exact ⟨hr.trans hts, fun r' hr' => hround r' (hr'.trans hr),
    fun bs r' hr' => hnext (x :: bs) r' (hr'.trans hr)⟩

include hc

/-- A body that advances leaves what it is said to leave. -/
theorem Ends.advances {a : α} {rest : List Token} (h : Ends callee b (some (a, rest)))
    (hb : b.Advances q ts P) : P rest := by
  generalize ho : some (a, rest) = out at h
  induction h generalizing P rest with
  | fail => cases ho
  | done =>
    cases ho
    exact hb
  | callFails => cases ho
  | call h hs ih =>
    obtain ⟨hq, -, hnext⟩ := hb
    exact ih (hnext _ _ (hc hq h)) ho
  | loopEnds h hs ih =>
    obtain ⟨-, -, hnext⟩ := hb
    exact ih (hnext _ _ (List.suffix_refl _)) ho
  | loopFails => cases ho
  | loopAgain h hround hs ihround ih =>
    have hr := ihround (hb.2.1 _ (List.suffix_refl _) h) rfl
    exact ih (hb.again hr.1 _) ho

/-- Whatever happens in a body that advances goes down. -/
theorem Does.advances {e : Event} (h : Does callee b e) (hb : b.Advances q ts P) :
    e.Advances q ts := by
  induction h generalizing P with
  | call => exact ⟨hb.1, hb.2.1⟩
  | afterCall h hs ih => exact ih (hb.2.2 _ _ (hc hb.1 h))
  | round h hround => exact ⟨hb.1, hround.advances hc (hb.2.1 _ (List.suffix_refl _) h)⟩
  | inRound h hround ih => exact ih (hb.2.1 _ (List.suffix_refl _) h)
  | laterRound h hround hs ih =>
    have hr := hround.advances hc (hb.2.1 _ (List.suffix_refl _) h)
    exact ih (hb.again hr.1 _)
  | afterLoop h hs ih => exact ih (hb.2.2 _ _ (List.suffix_refl _))

/-- A loop ends when its rounds do and what follows it does. -/
theorem exists_ends_loop {β : Type} {again : List Token → Bool} {round : List Token → Body β}
    {ts' : List Token} {next : List β → List Token → Body α}
    (hb : (Body.loop again round ts' next).Advances q ts P)
    (hround : ∀ r, r <:+ ts' → again r = true → ∃ out, Ends callee (round r) out)
    (hnext : ∀ bs r, r <:+ ts' → ∃ out, Ends callee (next bs r) out) :
    ∃ out, Ends callee (.loop again round ts' next) out := by
  induction hn : ts'.length using Nat.strongRecOn generalizing ts' next with
  | ind n ih =>
    cases hagain : again ts' with
    | false =>
      obtain ⟨out, h⟩ := hnext [] ts' (List.suffix_refl _)
      exact ⟨out, .loopEnds hagain h⟩
    | true =>
      obtain ⟨out, h⟩ := hround ts' (List.suffix_refl _) hagain
      rcases out with _ | ⟨x, r⟩
      · exact ⟨none, .loopFails hagain h⟩
      · have hr := h.advances hc (hb.2.1 _ (List.suffix_refl _) hagain)
        obtain ⟨out, hs⟩ := ih r.length (hn ▸ hr.2) (hb.again hr.1 x)
          (fun r' hr' => hround r' (hr'.trans hr.1))
          (fun bs r' hr' => hnext (x :: bs) r' (hr'.trans hr.1)) rfl
        exact ⟨out, .loopAgain hagain h hs⟩

/-- A body that advances ends when all calls below do. -/
theorem exists_ends (hb : b.Advances q ts P)
    (hcalls : ∀ {q' ts'}, q'.IsEntered ts' → q.Descends ts q' ts' → ∃ out, callee q' ts' out) :
    ∃ out, Ends callee b out := by
  induction b generalizing P with
  | fail => exact ⟨none, .fail⟩
  | done a rest => exact ⟨some (a, rest), .done⟩
  | call q' ts' next ih =>
    obtain ⟨hq, hd, hnext⟩ := hb
    obtain ⟨out, h⟩ := hcalls hq hd
    rcases out with _ | ⟨t, r⟩
    · exact ⟨none, .callFails h⟩
    · obtain ⟨out, hs⟩ := ih t r (hnext t r (hc hq h))
      exact ⟨out, .call h hs⟩
  | loop again round ts' next ihround ih =>
    exact exists_ends_loop hc hb (fun r hr h => ihround r (hb.2.1 r hr h))
      fun bs r hr => ih bs r (hb.2.2 bs r hr)

end Steps

end DocCheck.TypeExpr
