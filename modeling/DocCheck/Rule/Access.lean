import DocCheck.Rule.Basic

/-!
# Rules on access

Access is declared by `@access` with a level, or by one of the short tags
`@private`, `@protected` and `@public` (SPEC_FULL 4.6).
-/
namespace DocCheck.Rule

/-- The short tags, with the level that each declares. -/
def shortAccess (s : Subject) : List (String × Tag) :=
  (s.tags.filter fun t => ["private", "protected", "public"].contains t.name).map fun t =>
    (t.name, t)

/-- The level behind an `@access`, in lower case; empty if none is written. -/
def levelOf (t : Tag) : String :=
  match Text.words t.valueText.toList with
  | w :: _ => Text.lower (String.ofList w)
  | [] => ""

/-- The `@access` tags, with the level that each declares. -/
def explicitAccess (s : Subject) : List (String × Tag) :=
  (s.tagsNamed "access").map fun t => (levelOf t, t)

/-- The underscore convention that a choice enforces. -/
def enforcedConvention? : Choice → Option Underscore
  | .mode .enforceLeadingUnderscore => some .leading
  | .mode .enforceTrailingUnderscore => some .trailing
  | _ => none

/-- What is wrong with a short tag on a name that the convention marks as private. -/
def conventionProblem? (convention : Underscore) (name level : String) : Option String :=
  if level = "private" then
    some ("Redundant @private: the " ++ convention.name ++ " underscore already marks '" ++ name ++
      "' as private")
  else if level = "public" then
    some ("Contradicting @public: the " ++ convention.name ++ " underscore marks '" ++ name ++
      "' as non-public")
  else none

/-- An `@access` must not repeat a short tag. Where a convention is enforced, a short tag must
neither repeat nor contradict what the name says. -/
def checkRedundantAccess (choice : Choice) (s : Subject) : List Finding :=
  let short := shortAccess s
  let repeated := (explicitAccess s).filterMap fun (level, t) =>
    if level ∈ short.map Prod.fst then
      some ⟨.checkRedundantAccess,
        "Redundant @access " ++ level ++ ": already declared with @" ++ level, t.location⟩
    else none
  match enforcedConvention? choice with
  | none => repeated
  | some convention =>
    if s.signature.underscore ≠ convention then repeated
    else
      repeated ++ short.filterMap fun (level, t) =>
        (conventionProblem? convention s.signature.name level).map fun message =>
          ⟨.checkRedundantAccess, message, t.location⟩

def levelProblem? (choice : Choice) (name level : String) : Option String :=
  let mustBe := fun (required : String) =>
    if level = required then none
    else
      some ("Access of '" ++ name ++ "' must be " ++ required ++ ", not " ++
        (if level = "" then "empty" else level))
  match choice with
  | .mode m => mustBe m.name
  | _ => if level = "public" then some ("Access of '" ++ name ++ "' must not be public") else none

/-- A name that is marked as private has to declare an access level that fits. -/
def leadingUnderscoreAccess (choice : Choice) (s : Subject) : List Finding :=
  if s.signature.access ≠ .privately ∧ s.signature.access ≠ .protectedly then []
  else
    match shortAccess s ++ explicitAccess s with
    | [] =>
      [⟨.leadingUnderscoreAccess, "Missing access tag for '" ++ s.signature.name ++ "'",
        s.signature.location⟩]
    | declared =>
      declared.filterMap fun (level, t) =>
        (levelProblem? choice s.signature.name level).map fun message =>
          ⟨.leadingUnderscoreAccess, message, t.location⟩

end DocCheck.Rule
