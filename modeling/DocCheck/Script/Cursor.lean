import DocCheck.Text.Cursor

/-!
# Cursors in a source text

Rows are counted from zero and end at a line feed; columns count bytes of UTF-8.
-/
namespace DocCheck.Script

def measure : Text.Measure := ⟨(· == '\n'), Char.utf8Size⟩

abbrev Cursor := Text.Cursor measure

/-! ## Blanks and comments -/

/-- The character separates tokens and has no meaning of its own. -/
def isSpace (c : Char) : Bool :=
  let n := c.toNat
  (9 ≤ n && n ≤ 13) || n == 0x20 || n == 0x85 || n == 0xa0 || n == 0x1680 ||
  (0x2000 ≤ n && n ≤ 0x200b) || n == 0x2028 || n == 0x2029 || n == 0x202f || n == 0x205f ||
  n == 0x2060 || n == 0x3000 || n == 0xfeff

/-- The character ends a line, and a comment that runs to the end of the line. -/
def endsLine (c : Char) : Bool := c == '\n' || c == '\r' || c.toNat == 0x2028 || c.toNat == 0x2029

/-- The number of characters up to the end of a comment in stars. -/
def starCommentRest? : List Char → Option Nat
  | '*' :: '/' :: _ => some 2
  | _ :: r => (starCommentRest? r).map (· + 1)
  | [] => none

def commentLength? : List Char → Option Nat
  | '/' :: '/' :: r => some (2 + (r.takeWhile fun c => !endsLine c).length)
  | '/' :: '*' :: r => (starCommentRest? r).map (· + 2)
  | _ => none

theorem commentLength_pos {cs : List Char} {n : Nat} (h : commentLength? cs = some n) :
    0 < n ∧ 0 < cs.length := by
  unfold commentLength? at h
  split at h
  · simp only [Option.some.injEq] at h; subst h; exact ⟨by omega, by simp⟩
  · obtain ⟨m, _, rfl⟩ := Option.map_eq_some_iff.mp h; simp
  · cases h

/-- The place behind blanks and comments. -/
def skipTrivia (c : Cursor) : Cursor :=
  match _hr : c.rest with
  | [] => c
  | d :: r =>
    if isSpace d then skipTrivia c.next
    else
      match _hn : commentLength? (d :: r) with
      | some n => skipTrivia (c.skip n)
      | none => c
termination_by c.rest.length
decreasing_by
  · rw [Text.Cursor.rest_next, _hr]; simp
  · have := commentLength_pos _hn
    rw [Text.Cursor.rest_skip, _hr, List.length_drop]
    exact Nat.sub_lt this.2 this.1

end DocCheck.Script
