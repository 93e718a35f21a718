import DocCheck.Script.Cursor
import DocCheck.Tree.Basic

/-!
# Pieces of a syntax tree under construction

A piece is a node that knows where it starts and stops, without the comments
that stand between its parts. Comments are put in at the end: each becomes a
child of the smallest node that surrounds it.
-/
namespace DocCheck.Script

/-- A node under construction. -/
inductive Piece where
  | mk (kind : String) (named : Bool) (field : Option String) (start stop : Cursor)
      (children : List Piece)
deriving Inhabited

namespace Piece

def kind : Piece → String
  | mk k _ _ _ _ _ => k

def start : Piece → Cursor
  | mk _ _ _ s _ _ => s

def stop : Piece → Cursor
  | mk _ _ _ _ s _ => s

def inRole (role : String) : Piece → Piece
  | mk k n _ s e cs => mk k n (some role) s e cs

def commentsFrom : Nat → Cursor → List Node
  | 0, _ => []
  | n + 1, c =>
    match _h : commentLength? c.rest with
    | some length =>
      if length ≤ n + 1 then
        let stop := c.skip length
        .mk "comment" true none (c.textTo stop) c.row c.column [] ::
          commentsFrom (n + 1 - length) stop
      else []
    | none => commentsFrom n c.next
termination_by n => n
decreasing_by
  · have := commentLength_pos _h; omega
  · omega

def commentsBetween (start stop : Cursor) : List Node :=
  commentsFrom (stop.offset - start.offset) start

mutual

/-- The node with all comments in it. -/
def toNode : Piece → Node
  | mk kind named field start stop children =>
    let text := start.textTo stop
    match children with
    | [] => .mk kind named field text start.row start.column []
    | c :: cs =>
      .mk kind named field text start.row start.column (toNodes start stop (c :: cs))

/-- The nodes with the comments before, between and behind them. -/
def toNodes (start stop : Cursor) : List Piece → List Node
  | [] => commentsBetween start stop
  | mk kind named field s e children :: cs =>
    commentsBetween start s ++ toNode (mk kind named field s e children) :: toNodes e stop cs

end

/-- The root of a tree, which has the comments before its first part too. -/
def toRoot (kind : String) (start stop : Cursor) (children : List Piece) : Node :=
  .mk kind true none (start.textTo stop) start.row start.column (toNodes start stop children)

end Piece

end DocCheck.Script
