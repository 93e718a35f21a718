import DocCheck.Yaml.Cursor

/-!
# Scalars

The text of a scalar that is written plainly, in quotes, or as a block. Line
ends inside a scalar are folded: a single one counts as a blank, and the first
of several is dropped. The first argument of the loops bounds their steps; the
number of characters is enough.
-/
namespace DocCheck.Yaml

/-- What line ends between two words count as: `first` and the ones of empty lines behind it. -/
def folded (first : Char) (more : List Char) : List Char :=
  if first ≠ '\n' then first :: more else if more.isEmpty then [' '] else more

/-! ## Plain scalars -/

/-- The marks that separate items in brackets. -/
def isFlowMark (c : Char) : Bool := ",?[]{}".toList.contains c

/-- A plain scalar stops at the next character; `flow` if it stands in brackets. -/
def stopsPlain (flow : Bool) : List Char → Bool
  | [] => true
  | c :: r =>
    endsWord [c] || (flow && isFlowMark c) ||
      (c == ':' && (endsWord r || (flow && (r.head?.any fun d => d != '?' && isFlowMark d))))

/-- The length of a word of a plain scalar. -/
def plainLength (flow : Bool) : List Char → Nat
  | [] => 0
  | c :: r => if stopsPlain flow (c :: r) then 0 else 1 + plainLength flow r

/-- The line ends and blanks in front of the next word, and whether a document ends before it. -/
def plainBreaks : Nat → Cursor → List Char × Bool × Cursor
  | 0, c => ([], false, c)
  | n + 1, c =>
    if c.isAt ' ' then plainBreaks n c.next
    else
      match lineBreak? c with
      | none => ([], false, c)
      | some (b, c) =>
        if isSeparator c.rest then ([], true, c)
        else
          let (bs, stopped, c) := plainBreaks n c
          (b :: bs, stopped, c)

/-- What blanks and line ends behind a word count as, and whether there is a line end. -/
def plainSpaces (c : Cursor) : List Char × Bool × Cursor :=
  let (blanks, c) := c.span (· == ' ')
  match lineBreak? c with
  | none => (blanks, false, c)
  | some (b, c) =>
    if isSeparator c.rest then ([], true, c)
    else
      let (bs, stopped, c) := plainBreaks (c.rest.length + 1) c
      (if stopped then [] else folded b bs, true, c)

/-- A scalar with the place behind it. -/
structure Scanned where
  text : List Char
  stop : Cursor
  /-- The scalar stops at the start of a line. -/
  crossed : Bool

/-- The rest of a plain scalar; `spaces` stand between it and what was read before. -/
def plainRest (flow : Bool) (indent : Nat) : Nat → List Char → Bool → Cursor → Scanned
  | 0, _, crossed, c => ⟨[], c, crossed⟩
  | n + 1, spaces, crossed, c =>
    let length := if c.isAt '#' then 0 else plainLength flow c.rest
    if length = 0 then ⟨[], c, crossed⟩
    else
      let word := spaces ++ c.rest.take length
      let (between, newline, c) := plainSpaces (c.skip length)
      if between.isEmpty || c.isAt '#' || (!flow && c.column < indent) then ⟨word, c, newline⟩
      else
        let more := plainRest flow indent n between newline c
        { more with text := word ++ more.text }

/-- A plain scalar. Its further lines stand at `indent` at least, unless it stands in brackets. -/
def plain (flow : Bool) (indent : Nat) (c : Cursor) : Scanned :=
  plainRest flow indent (c.rest.length + 1) [] false c

/-! ## Quoted scalars -/

def hexValue? (c : Char) : Option Nat :=
  if '0' ≤ c && c ≤ '9' then some (c.toNat - 0x30)
  else if 'a' ≤ c && c ≤ 'f' then some (c.toNat - 0x57)
  else if 'A' ≤ c && c ≤ 'F' then some (c.toNat - 0x37)
  else none

def hexNumber? (ds : List Char) : Option Nat :=
  ds.foldl (fun n d => do some (16 * (← n) + (← hexValue? d))) (some 0)

/-- The number of digits of an escape for a character. -/
def escapeDigits? : Char → Option Nat
  | 'x' => some 2
  | 'u' => some 4
  | 'U' => some 8
  | _ => none

/-- The character that a short escape stands for. -/
def shortEscape? : Char → Option Char
  | '0' => some (Char.ofNat 0)
  | 'a' => some (Char.ofNat 0x07)
  | 'b' => some (Char.ofNat 0x08)
  | 't' => some '\t'
  | '\t' => some '\t'
  | 'n' => some '\n'
  | 'v' => some (Char.ofNat 0x0b)
  | 'f' => some (Char.ofNat 0x0c)
  | 'r' => some '\r'
  | 'e' => some (Char.ofNat 0x1b)
  | ' ' => some ' '
  | '"' => some '"'
  | '\\' => some '\\'
  | '/' => some '/'
  | 'N' => some (Char.ofNat 0x85)
  | '_' => some (Char.ofNat 0xa0)
  | 'L' => some (Char.ofNat 0x2028)
  | 'P' => some (Char.ofNat 0x2029)
  | _ => none

/-- The line ends of empty lines inside quotes. No document ends inside quotes. -/
def quotedBreaks? : Nat → Cursor → Option (List Char × Cursor)
  | 0, _ => none
  | n + 1, c =>
    if isSeparator c.rest then none
    else
      let (_, c) := c.span fun d => d == ' ' || d == '\t'
      match lineBreak? c with
      | none => some ([], c)
      | some (b, c) => do
        let (bs, c) ← quotedBreaks? n c
        some (b :: bs, c)

/-- What blanks and line ends inside quotes count as. -/
def quotedSpaces? (c : Cursor) : Option (List Char × Cursor) :=
  let (blanks, c) := c.span fun d => d == ' ' || d == '\t'
  match lineBreak? c with
  | none => some (blanks, c)
  | some (b, c) => do
    let (bs, c) ← quotedBreaks? (c.rest.length + 1) c
    some (folded b bs, c)

/-- What an escape stands for, from behind its backslash. The end of a line is escaped with the
blanks at the start of the next one. -/
def escape? (c : Cursor) : Option (List Char × Cursor) :=
  match c.rest with
  | [] => none
  | d :: r =>
    match shortEscape? d, escapeDigits? d with
    | some e, _ => some ([e], c.next)
    | none, some n =>
      if n ≤ r.length then do
        let code ← hexNumber? (r.take n)
        if code.isValidChar then some ([Char.ofNat code], c.skip (n + 1)) else none
      else none
    | none, none => do
      let (_, c) ← lineBreak? c
      quotedBreaks? (c.rest.length + 1) c

/-- The rest of a scalar in quotes. -/
def quotedRest? (quote : Char) : Nat → Cursor → Option (List Char × Cursor)
  | 0, _ => none
  | n + 1, c =>
    match c.rest with
    | [] => none
    | d :: r =>
      let andThen := fun (cs : List Char) (c : Cursor) => do
        let (more, c) ← quotedRest? quote n c
        some (cs ++ more, c)
      if d = quote then
        if quote = '\'' && r.head? == some quote then andThen [quote] (c.skip 2)
        else some ([], c.next)
      else if quote = '"' && d = '\\' then do
        let (cs, c) ← escape? c.next
        andThen cs c
      else if endsWord [d] then do
        let (cs, c) ← quotedSpaces? c
        andThen cs c
      else andThen [d] c.next

def quoted? (quote : Char) (c : Cursor) : Option (List Char × Cursor) :=
  quotedRest? quote (c.rest.length + 1) c.next

/-! ## Block scalars -/

/-- What happens to the line ends at the end of a block. -/
inductive Chomping where
  /-- All are dropped. -/
  | strip
  /-- The first one is kept. -/
  | clip
  /-- All are kept. -/
  | keep
deriving DecidableEq, Repr

/-- A sign of the header of a block. -/
def chomping? : List Char → Option Chomping
  | '+' :: _ => some .keep
  | '-' :: _ => some .strip
  | _ => none

def indentDigit? : List Char → Option Nat
  | c :: _ => if c.isDigit then some (c.toNat - 0x30) else none
  | [] => none

/-- The header of a block behind its mark: a sign and a digit in any order. The digit is not
zero. -/
def blockHeader? (c : Cursor) : Option (Chomping × Option Nat × Cursor) :=
  let (sign, digit, c) :=
    match chomping? c.rest with
    | some s =>
      let c := c.next
      match indentDigit? c.rest with
      | some d => (s, some d, c.next)
      | none => (s, none, c)
    | none =>
      match indentDigit? c.rest with
      | some d =>
        let c := c.next
        match chomping? c.rest with
        | some s => (s, some d, c.next)
        | none => (.clip, some d, c)
      | none => (.clip, none, c)
  if digit = some 0 || !(c.rest.head? == some ' ' || endsLine c.rest) then none
  else some (sign, digit, c)

/-- The empty lines at the start of a block, and the furthest column that blanks reach there. -/
def blockStart : Nat → Cursor → List Char × Nat × Cursor
  | 0, c => ([], 0, c)
  | n + 1, c =>
    if c.isAt ' ' then
      let (bs, column, stop) := blockStart n c.next
      (bs, max c.next.column column, stop)
    else
      match lineBreak? c with
      | none => ([], 0, c)
      | some (b, c) =>
        let (bs, column, stop) := blockStart n c
        (b :: bs, column, stop)

/-- The place behind blanks, but not behind a given column. -/
def skipIndent (indent : Nat) (c : Cursor) : Cursor :=
  c.skip (min (c.rest.takeWhile (· == ' ')).length (indent - c.column))

/-- The empty lines before the next line of a block. -/
def blockBreaks (indent : Nat) : Nat → Cursor → List Char × Cursor
  | 0, c => ([], c)
  | n + 1, c =>
    let c := skipIndent indent c
    match lineBreak? c with
    | none => ([], c)
    | some (b, c) =>
      let (bs, c) := blockBreaks indent n c
      (b :: bs, c)

def startsBlank (c : Cursor) : Bool := c.isAt ' ' || c.isAt '\t'

/-- The lines of a block; `breaks` are the empty lines before. The end of the last line and the
empty lines behind it are given apart. -/
def blockLines (fold : Bool) (indent : Nat) :
    Nat → List Char → Cursor → List Char × List Char × List Char × Cursor
  | 0, breaks, c => ([], [], breaks, c)
  | n + 1, breaks, c =>
    let (line, stop) := c.span fun d => !isBreak d
    let (lineEnd, c') :=
      match lineBreak? stop with
      | some (b, c') => ([b], c')
      | none => ([], stop)
    let (more, c'') := blockBreaks indent (c'.rest.length + 1) c'
    if c''.column = indent && !c''.rest.isEmpty then
      let between :=
        if fold && lineEnd == ['\n'] && !startsBlank c && !startsBlank c'' then
          if more.isEmpty then [' '] else []
        else lineEnd
      let (text, last, tail, stop) := blockLines fold indent n more c''
      (breaks ++ line ++ between ++ text, last, tail, stop)
    else (breaks ++ line, lineEnd, more, c'')

/-- A block scalar; `fold` if its lines are folded. Its lines stand at `least` or further. -/
def block? (fold : Bool) (least : Nat) (c : Cursor) : Option (List Char × Cursor) := do
  let (chomping, digit, c) ← blockHeader? c.next
  let c ← skipIgnored? c
  let bound := c.rest.length + 1
  let (indent, breaks, c) :=
    match digit with
    | some d =>
      let (breaks, c) := blockBreaks (least + d - 1) bound c
      (least + d - 1, breaks, c)
    | none =>
      let (breaks, column, c) := blockStart bound c
      (max least column, breaks, c)
  let (text, last, tail, c) :=
    if c.column = indent && !c.rest.isEmpty then blockLines fold indent bound breaks c
    else ([], [], breaks, c)
  let kept :=
    match chomping with
    | .strip => []
    | .clip => last
    | .keep => last ++ tail
  some (text ++ kept, c)

end DocCheck.Yaml
