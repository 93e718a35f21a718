import DocCheck.Proofs.Comment.Location

/-!
# A comment that is moved

The same text may start at another place. What is read from it is then the same
but for the places: all lines move as far as the start does, and of the columns
only those on the first line.

Results:

* `Location.moved_start`: the start moves to the other start.
* `parse_moved`: reading a comment at another place moves the places of what is read.
-/
namespace DocCheck

/-- Where a place goes when the text that it lies in is moved from one start to another one. -/
def Location.moved (start start' l : Location) : Location :=
  ⟨l.line + (start'.line - start.line),
    if l.line = start.line then l.column + (start'.column - start.column) else l.column⟩

theorem Location.moved_start (start start' : Location) : start.moved start' start = start' := by
  cases start'
  simp only [moved, if_true, mk.injEq]
  omega

/-! ## Tags and comments at other places -/

/-- The tag at the place that its own one goes to. -/
def Tag.relocate (g : Location → Location) (t : Tag) : Tag := { t with location := g t.location }

/-- The comment with its place and those of its tags changed. -/
def Comment.relocate (g : Location → Location) (c : Comment) : Comment :=
  { c with tags := c.tags.map (Tag.relocate g), location := g c.location }

namespace Comment

theorem tagLocation_moved (start start' : Location) (index : Nat) (l : Line) :
    tagLocation start' index l = start.moved start' (tagLocation start index l) := by
  simp only [tagLocation_eq, Location.moved, Location.mk.injEq]
  by_cases h : index = 0
  · subst h
    simp only [if_true]
    omega
  · rw [if_neg h, if_neg h, if_neg (by omega)]
    omega

/-- Blocks hold the same lines wherever the comment starts. -/
theorem blocks_moved (start start' : Location) (index : Nat) (ls : List Line) :
    (blocks start' index ls).1 = (blocks start index ls).1 ∧
      (blocks start' index ls).2 =
        (blocks start index ls).2.map fun b => ⟨start.moved start' b.location, b.texts⟩ := by
  induction ls generalizing index with
  | nil => exact ⟨rfl, rfl⟩
  | cons l ls ih =>
    obtain ⟨htexts, hblocks⟩ := ih (index + 1)
    simp only [blocks, htexts, hblocks]
    split
    · exact ⟨rfl, by rw [List.map_cons, tagLocation_moved start start']⟩
    · exact ⟨rfl, rfl⟩

theorem toTag_relocate (g : Location → Location) (b : Block) :
    Block.toTag ⟨g b.location, b.texts⟩ = b.toTag.relocate g := by
  rw [Tag.relocate, location_toTag]
  exact Tag.parse_location _ b.location (g b.location)

/-- A comment that is read at another place says the same; the places in it are moved. -/
theorem parse_moved (raw : String) (start start' : Location) :
    parse raw start' = (parse raw start).relocate (start.moved start') := by
  have hblocks := (blocks_moved start start' 0 (contentLines raw.toList)).2
  have htags : (parse raw start').tags =
      (parse raw start).tags.map (Tag.relocate (start.moved start')) := by
    simp only [parse, hblocks, List.map_map]
    exact List.map_congr_left fun b _ => toTag_relocate _ b
  have hplace : (parse raw start').location = start.moved start' (parse raw start).location :=
    (Location.moved_start start start').symm
  rw [relocate, ← htags, ← hplace]
  rfl

end Comment

end DocCheck
