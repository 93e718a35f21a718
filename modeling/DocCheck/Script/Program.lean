import DocCheck.Script.Statement
import DocCheck.Source.Basic

/-!
# Programs

The grammar tied together. A reader that goes deeper than a given bound fails; the
bound is so large that every text is read before it is reached.

This parser is what the program is run with. It takes sources without errors; the
theory of the checks is about every parser, and nothing in it depends on this one.
-/
namespace DocCheck.Script

/-- The reader for a goal, in terms of a grammar for what is inside. -/
def Goal.reader (g : Grammar) : Goal → Parse Pieces
  | .statement => Script.statement g
  | .block => Script.block g
  | .expressions ctx => Script.expressions g ctx
  | .assignment ctx => Script.assignment g ctx
  | .binary strength casts ctx => Script.binary g strength casts ctx
  | .unary ctx => Script.unary g ctx
  | .leftHand => operand g true .any
  | .construct => operand g false .any
  | .binding => Script.binding g
  | .target => Script.target g
  | .type => do passType g; return []
  | .element => Script.element g

/-- The grammar up to a given depth. -/
def grammar : Nat → Grammar
  | 0, _ => failure
  | n + 1, goal => goal.reader (grammar n)

/-- A token that belongs to no statement. -/
def strayToken : Parse Pieces := node "ERROR" take

def program (depth : Nat) : Parse Pieces :=
  whileTrue (return (← current).kind ≠ .stop) (grammar depth .statement <|> strayToken)

/-- The line at the start of a text that tells how to run it. -/
def commandLine (c : Cursor) : Pieces × Cursor :=
  match c.rest with
  | '#' :: '!' :: _ =>
    let stop := c.skipWhile fun d => !endsLine d
    ([.mk "hash_bang_line" true none c stop []], stop)
  | _ => ([], c)

/-- The syntax tree of a text. -/
def tree (dialect : Source.Dialect) (text : String) : Node :=
  let start : Cursor := .ofText text.toList
  let length := text.length + 1
  let (first, c) := commandLine start
  let stop := start.skip text.length
  let statements :=
    match (program (16 * length)).run ⟨Token.after c, c, length, dialect = .tsx⟩ with
    | some (found, _) => found
    | none => []
  Piece.toRoot "program" start stop (first ++ statements)

/-- The parser of the program: both grammars are there. -/
def parser : Source.Parser := fun dialect => some (tree dialect)

end DocCheck.Script
