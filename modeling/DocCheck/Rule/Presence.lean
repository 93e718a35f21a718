import DocCheck.Rule.Basic

/-!
# Rules on presence and layout

Whether there is a comment at all, how its description is set apart from the tags,
and whether the description is a complete sentence (SPEC_FULL 4.7).
-/
namespace DocCheck.Rule

/-- A function has to have a comment that says something. -/
def enforceExistence (choice : Choice) (s : Subject) : List Finding :=
  if choice = .mode .exceptExports ∧ s.signature.isExport then []
  else if s.comment.all Comment.isEmpty then
    let name := if s.signature.name.isEmpty then "anonymous function" else s.signature.name
    [⟨.enforceExistence, "Missing doc-comment for '" ++ name ++ "'", s.signature.location⟩]
  else []

/-- The first tag of a comment with a description, and the number of empty lines before it. -/
def gapBeforeTags? (s : Subject) : Option (Nat × Tag) :=
  match s.comment with
  | some ⟨_ :: _, t :: _, blanks, _⟩ => some (blanks, t)
  | _ => none

/-- An empty line has to set the description apart from the tags. -/
def requireNewlineAfterDescription (s : Subject) : List Finding :=
  match gapBeforeTags? s with
  | some (0, t) =>
    [⟨.requireNewlineAfterDescription, "Missing blank line after description", t.location⟩]
  | _ => []

/-- No empty line may set the description apart from the tags. -/
def disallowNewlineAfterDescription (s : Subject) : List Finding :=
  match gapBeforeTags? s with
  | some (_ + 1, t) =>
    [⟨.disallowNewlineAfterDescription, "Unexpected blank line after description", t.location⟩]
  | _ => []

/-- The rest of a text is the period that closes a sentence, and nothing else. -/
def isClose : List Char → Bool
  | [c] => c == '.'
  | _ => false

/-- The rest of a text is anything at all, a character that is not white space, and the period
that closes a sentence. The longest way to take the text apart is tried first. -/
def goesOnToClose : List Char → Bool
  | [] => false
  | c :: r => goesOnToClose r || !Text.isBlank c && isClose r

/-- A trimmed text starts with a capital letter from A to Z and ends with a period that
directly follows something. -/
def isSentence : List Char → Bool
  | c :: r => c.isUpper && (goesOnToClose r || isClose r)
  | [] => false

/-- What the description of a tag says, if it says something, and where. -/
def saidBy? (t : Tag) : Option (String × Location) :=
  (t.description.filter fun d => !d.isEmpty).map fun d => (d, t.location)

/-- The text that has to be a complete sentence, and where it stands: the description, or the
first description of a parameter. -/
def sentence? (c : Comment) : Option (String × Location) :=
  if c.descriptionText.isEmpty then (c.tagsNamed "param").findSome? saidBy?
  else some (c.descriptionText, c.location)

/-- The description has to be a complete sentence. -/
def requireDescriptionCompleteSentence (s : Subject) : List Finding :=
  match s.comment.bind sentence? with
  | some (text, location) =>
    if isSentence (Text.trim text.toList) then []
    else
      [⟨.requireDescriptionCompleteSentence,
        "Description must start with an upper case letter and end with a period", location⟩]
  | none => []

end DocCheck.Rule
