import DocCheck.Script.Declaration
import DocCheck.Script.Expression

/-!
# Statements
-/
namespace DocCheck.Script

def emptyStatement : Parse Pieces := node "empty_statement" (eat ";")

def expressionStatement (g : Grammar) : Parse Pieces :=
  node "expression_statement" (seq [g (.expressions .any), semicolon])

def block (g : Grammar) : Parse Pieces :=
  node "statement_block"
    (seq [eat "\x7b", untilNext "\x7d" (g .statement), eat "\x7d", looseEnd])

/-! ## Choices -/

/-- A choice between two statements. -/
def ifStatement (g : Grammar) : Parse Pieces :=
  node "if_statement"
    (seq [take, role "condition" (parenthesized g), role "consequence" (g .statement),
      ifNext "else" (role "alternative" (node "else_clause" (seq [take, g .statement])))])

def caseBody (g : Grammar) : Parse Pieces :=
  role "body" (whileTrue (return !(← isNextOf ["case", "default", "\x7d"])) (g .statement))

def switchCase (g : Grammar) : Parse Pieces := do
  if ← isNext "default" then
    node "switch_default" (seq [take, eat ":", caseBody g])
  else
    node "switch_case"
      (seq [eat "case", role "value" (g (.expressions .any)), eat ":", caseBody g])

def switchStatement (g : Grammar) : Parse Pieces :=
  node "switch_statement"
    (seq [take, role "value" (parenthesized g), role "body" (node "switch_body"
      (seq [eat "\x7b", untilNext "\x7d" (switchCase g), eat "\x7d"]))])

/-! ## Loops -/

/-- What a loop over items binds, up to the items. -/
def itemHeader (g : Grammar) : Parse Pieces := do
  let left ←
    if ← isNextOf ["var", "let", "const"] then
      seq [role "kind" take, role "left" (binding g),
        ifNext "=" (initializer g "value" ⟨true, false⟩)]
    else role "left" (g .target)
  require (← isNextOf ["in", "of"])
  return left ++ (← role "operator" take)

/-- A loop over the items or the names of something. -/
def itemLoop (g : Grammar) : Parse Pieces :=
  node "for_in_statement"
    (seq [take, eatIf "await", eat "(", itemHeader g, role "right" (g (.expressions .any)),
      eat ")", role "body" (g .statement)])

/-- What is done once before a loop. -/
def loopInitializer (g : Grammar) : Parse Pieces := do
  if ← isNext ";" then role "initializer" emptyStatement
  else if ← isNextOf ["var", "let", "const"] then role "initializer" (variableList g ⟨true, false⟩)
  else seq [role "initializer" (g (.expressions ⟨true, false⟩)), eat ";"]

def loopCondition (g : Grammar) : Parse Pieces :=
  role "condition" (do
    if ← isNext ";" then emptyStatement else seq [g (.expressions .any), eat ";"])

/-- A loop with an initial step, a condition and an increment. -/
def countingLoop (g : Grammar) : Parse Pieces :=
  node "for_statement"
    (seq [take, eat "(", loopInitializer g, loopCondition g, do
      if ← isNext ")" then return [] else role "increment" (g (.expressions .any)),
      eat ")", role "body" (g .statement)])

/-- A loop that first looks at its condition. -/
def whileStatement (g : Grammar) : Parse Pieces :=
  node "while_statement"
    (seq [take, role "condition" (parenthesized g), role "body" (g .statement)])

/-- A loop that looks at its condition last. -/
def doStatement (g : Grammar) : Parse Pieces :=
  node "do_statement"
    (seq [take, role "body" (g .statement), eat "while", role "condition" (parenthesized g), do
      if ← isNext ";" then take else looseEnd])

/-! ## Jumps and failures -/

/-- A keyword with what may stand behind it on the same line. -/
def jumpStatement (kind : String) (p : Parse Pieces) : Parse Pieces :=
  node kind (do
    let keyword ← take
    if ← isNext ";" then return keyword ++ (← take)
    else if ← tryImpliedEnd then return keyword
    else return keyword ++ (← p) ++ (← semicolon))

def jumpLabel : Parse Pieces := role "label" (identifier "statement_identifier")

/-- What is done when a block fails. -/
def catchClause (g : Grammar) : Parse Pieces :=
  node "catch_clause"
    (seq [take, ifNext "(" (seq [take, role "parameter" (binding g), role "type" (declaredType g),
      eat ")"]), functionBody g])

/-- A block with what is done when it fails, and what is always done. -/
def tryStatement (g : Grammar) : Parse Pieces :=
  node "try_statement"
    (seq [take, functionBody g, ifNext "catch" (role "handler" (catchClause g)),
      ifNext "finally" (role "finalizer"
        (node "finally_clause" (seq [take, functionBody g])))])

/-! ## Modules -/

/-- What an import or export names, up to the text that says where it is. -/
def passNames (g : Grammar) : Parse Unit := do
  let _ ← whileTrue
    (do
      let t ← current
      return (t.kind == .name && !t.newlineBefore) || ["\x7b", "*", ","].any t.isText)
    (do
      if ← isNext "\x7b" then passBrackets else advance
      return [])
  if ← isNext "=" then
    advance
    let _ ← g (.assignment .any)
  else if (← current).kind = .string then
    advance
    if ← isNextOf ["with", "assert"] then
      advance
      passBrackets

def importStatement (g : Grammar) : Parse Pieces :=
  plainNode "import_statement" (do
    pass "import"
    passNames g
    let _ ← semicolon)

/-- A declaration as it may stand behind `export`. -/
def exportedDeclaration (g : Grammar) : Parse Pieces :=
  role "declaration" (do
    if ← isNext "declare" then ambientDeclaration g
    else if (← isNext "import") then importStatement g
    else declaration g)

def defaultExport (g : Grammar) : Parse Pieces :=
  exportedDeclaration g <|> seq [role "value" (g (.assignment .any)), semicolon]

def exportRest (g : Grammar) : Parse Pieces := do
  if ← isNext "default" then seq [take, defaultExport g]
  else if ← isNext "=" then seq [take, g (.assignment .any), semicolon]
  else
    exportedDeclaration g <|> do
      require ((← isNextOf ["*", "\x7b", "type", "as"]))
      seq [plainNode "export_clause" (passNames g), semicolon]

/-- An export; decorators of an exported class may come before. -/
def exportStatement (g : Grammar) : Parse Pieces :=
  node "export_statement" (seq [decorators g, eat "export", exportRest g])

/-! ## All of them -/

def labeledStatement (g : Grammar) : Parse Pieces :=
  node "labeled_statement" (seq [jumpLabel, eat ":", role "body" (g .statement)])

/-- A statement that starts with a word or with a decorator. -/
def wordStatement (g : Grammar) (t : Token) : Parse Pieces := do
  if t.isIdentifier && (← following).isText ":" then labeledStatement g
  else if t.text == "if" then ifStatement g
  else if t.text == "for" then itemLoop g <|> countingLoop g
  else if t.text == "while" then whileStatement g
  else if t.text == "do" then doStatement g
  else if t.text == "switch" then switchStatement g
  else if t.text == "try" then tryStatement g
  else if t.text == "with" then
    node "with_statement"
      (seq [take, role "object" (parenthesized g), role "body" (g .statement)])
  else if t.text == "break" then jumpStatement "break_statement" jumpLabel
  else if t.text == "continue" then jumpStatement "continue_statement" jumpLabel
  else if t.text == "return" then jumpStatement "return_statement" (g (.expressions .any))
  else if t.text == "throw" then
    node "throw_statement" (seq [take, g (.expressions .any), semicolon])
  else if t.text == "debugger" then node "debugger_statement" (seq [take, semicolon])
  else if t.text == "namespace" then
    node "expression_statement" (seq [namespaceDeclaration g, looseEnd]) <|> expressionStatement g
  else if t.text == "export" || t.text == "@" then
    exportStatement g <|> declaration g <|> expressionStatement g
  else if t.text == "import" then importStatement g <|> expressionStatement g
  else if t.text == "declare" then ambientDeclaration g <|> expressionStatement g
  else declaration g <|> expressionStatement g

def statement (g : Grammar) : Parse Pieces := do
  let t ← current
  if t.isText ";" then emptyStatement
  else if t.isText "\x7b" then g .block <|> expressionStatement g
  else if t.kind = .name || t.isText "@" then wordStatement g t
  else expressionStatement g

end DocCheck.Script
