/-!
# Line ends

Texts end their lines with line feeds, with carriage returns, or with both. All
are read as line feeds.
-/
namespace DocCheck.Text

/-- The text with line feeds for all line ends. -/
def unifyNewlines : List Char → List Char
  | '\r' :: '\n' :: r => '\n' :: unifyNewlines r
  | '\r' :: r => '\n' :: unifyNewlines r
  | c :: r => c :: unifyNewlines r
  | [] => []

end DocCheck.Text
