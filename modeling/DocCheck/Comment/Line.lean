import DocCheck.Text.Blank

/-!
# Lines of a documentation comment

The lines of a comment without its delimiters and without the star that decorates
the start of each line (SPEC_FULL 4.2, DocCommentParser).

Results:

* `splitLines_ne_nil`: every text has a line.
* `not_mem_of_mem_splitLines`: a line holds no line feed.
* `intercalate_splitLines`: the lines with line feeds between them are the text.
-/
namespace DocCheck.Comment

/-- A line of a comment: its text, and the column at which the text starts. -/
structure Line where
  text : List Char
  column : Nat
deriving Repr

def splitLines : List Char → List (List Char)
  | [] => [[]]
  | c :: r =>
    if c = '\n' then [] :: splitLines r
    else
      match splitLines r with
      | [] => [[c]]
      | line :: lines => (c :: line) :: lines

theorem splitLines_ne_nil (cs : List Char) : splitLines cs ≠ [] := by
  cases cs with
  | nil => simp [splitLines]
  | cons c r => rw [splitLines]; split <;> try split
                all_goals simp

theorem not_mem_of_mem_splitLines {cs line : List Char} (h : line ∈ splitLines cs) :
    '\n' ∉ line := by
  induction cs generalizing line with
  | nil => simp [splitLines] at h; simp [h]
  | cons c r ih =>
    rw [splitLines] at h
    split at h
    · rcases List.mem_cons.mp h with rfl | h
      · simp
      · exact ih h
    · rename_i hc
      cases e : splitLines r with
      | nil => exact absurd e (splitLines_ne_nil r)
      | cons first rest =>
        rw [e] at h ih
        rcases List.mem_cons.mp h with rfl | h
        · have hf := ih List.mem_cons_self
          simp [hf, Ne.symm hc]
        · exact ih (List.mem_cons_of_mem _ h)

theorem intercalate_splitLines (cs : List Char) : ['\n'].intercalate (splitLines cs) = cs := by
  induction cs with
  | nil => rfl
  | cons c r ih =>
    rw [splitLines]
    split
    · rename_i hc
      subst hc
      cases e : splitLines r with
      | nil => exact absurd e (splitLines_ne_nil r)
      | cons first rest =>
        rw [e] at ih
        simpa [List.intercalate] using ih
    · cases e : splitLines r with
      | nil => exact absurd e (splitLines_ne_nil r)
      | cons first rest =>
        rw [e] at ih
        cases rest <;> simpa [List.intercalate] using ih

def dropReturns (line : List Char) : List Char := (line.reverse.dropWhile (· == '\r')).reverse

/-- The length of the opening delimiter with the white space before it, if the line opens
a comment. -/
def openingLength? (line : List Char) : Option Nat :=
  let blanks := (line.takeWhile Text.isBlank).length
  match line.dropWhile Text.isBlank with
  | '/' :: '*' :: '*' :: _ => some (blanks + 3)
  | '/' :: '*' :: _ => some (blanks + 2)
  | _ => none

/-- The length of the white space and the star that decorate the start of a line. The star
of a closing delimiter is no decoration, and of the white space behind the star only one
character is. -/
def decorationLength (line : List Char) : Nat :=
  let blanks := (line.takeWhile Text.isBlank).length
  match line.dropWhile Text.isBlank with
  | '*' :: '/' :: _ => blanks
  | '*' :: c :: _ => if Text.isBlank c then blanks + 2 else blanks + 1
  | ['*'] => blanks + 1
  | _ => blanks

/-- What stands before the last closing delimiter, if there is one. -/
def beforeClosing? : List Char → Option (List Char)
  | [] => none
  | c :: r =>
    match beforeClosing? r with
    | some before => some (c :: before)
    | none => if c = '*' ∧ r.head? = some '/' then some [] else none

/-- The text of one line. The first line may open the comment; the last may close it, but
not by a delimiter that starts inside the opening one. -/
def lineOf (isFirst isLast : Bool) (line : List Char) : Line :=
  let line := dropReturns line
  let opening := if isFirst then openingLength? line else none
  let start := opening.getD 0
  let content :=
    match if isLast then beforeClosing? (line.drop start) else none with
    | some before => before
    | none => line.drop start
  let skipped := if opening.isSome then 0 else decorationLength content
  ⟨Text.trimEnd (content.drop skipped), start + skipped⟩

def laterLines : List (List Char) → List Line
  | [] => []
  | [line] => [lineOf false true line]
  | line :: lines => lineOf false false line :: laterLines lines

def contentLines (raw : List Char) : List Line :=
  match splitLines raw with
  | [] => []
  | line :: lines => lineOf true lines.isEmpty line :: laterLines lines

end DocCheck.Comment
