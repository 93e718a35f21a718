/-!
# White space

White space is taken in the widest sense: the ASCII blanks with the four
information separators, and every space, line and paragraph separator of
Unicode. A zero-width space and a byte order mark are not white space.

Results:

* `trim_eq_self`: a text without white space at either end is left alone by `trim`.
-/
namespace DocCheck.Text

/-- White space of any script. -/
def isBlank (c : Char) : Bool :=
  let n := c.toNat
  (9 ≤ n && n ≤ 13) || (0x1c ≤ n && n ≤ 0x20) || n == 0x85 || n == 0xa0 || n == 0x1680 ||
  (0x2000 ≤ n && n ≤ 0x200a) || n == 0x2028 || n == 0x2029 || n == 0x202f || n == 0x205f ||
  n == 0x3000

def trimStart (cs : List Char) : List Char := cs.dropWhile isBlank

def trimEnd (cs : List Char) : List Char := (cs.reverse.dropWhile isBlank).reverse

def trim (cs : List Char) : List Char := trimEnd (trimStart cs)

theorem dropWhile_eq_self {p : Char → Bool} {cs : List Char}
    (h : ∀ c r, cs = c :: r → p c = false) : cs.dropWhile p = cs := by
  cases cs with
  | nil => rfl
  | cons c r => simp [h c r rfl]

theorem trim_eq_self {cs : List Char} (first : ∀ c r, cs = c :: r → isBlank c = false)
    (last : ∀ c r, cs.reverse = c :: r → isBlank c = false) : trim cs = cs := by
  rw [trim, trimStart, dropWhile_eq_self first, trimEnd, dropWhile_eq_self last,
    List.reverse_reverse]

/-- The first word of a text and what follows it, for a text that does not start with
white space. -/
def spanWord (cs : List Char) : List Char × List Char :=
  cs.span fun c => !isBlank c

/-- The maximal runs of characters that are not white space; `run` is the run that the
characters before `cs` end with, in reverse. -/
def wordsFrom (run : List Char) : List Char → List (List Char)
  | [] => if run.isEmpty then [] else [run.reverse]
  | c :: r =>
    if isBlank c then
      if run.isEmpty then wordsFrom [] r else run.reverse :: wordsFrom [] r
    else wordsFrom (c :: run) r

/-- The maximal runs of characters that are not white space. -/
def words (cs : List Char) : List (List Char) := wordsFrom [] cs

end DocCheck.Text
