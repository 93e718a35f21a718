import DocCheck.Comment.Parser
import DocCheck.Proofs.Rule.Reports
import DocCheck.Proofs.Text.LetterCase
import DocCheck.Proofs.TypeExpr.Renamed

/-!
# Advice on the case of types

A name of a native type in the wrong case is reported together with the spelling that it
should have. That spelling differs in case alone and is itself not reported, so whoever
respells all names as told is left with the types that cannot be read; and no other name
has to change. Types that cannot be read are reported in the same way whatever is asked
about case.

Results:

* `of_expectedSpelling`: what is asked for is the same name in a case that is accepted.
* `typeFindings_of_parsed`, `typeFindings_of_unknown`: what is reported at a tag.
* `flatMap_typeFindings_on`: the findings that do not depend on the mode.
* `flatMap_typeFindings_respelled`: what is left when the advice is followed.
* `casing_advice`: all of these, for every mode.
* `casing_unchecked`: types in tags of other keywords are not looked at.
-/
namespace DocCheck

namespace Rule

/-! ## One name -/

theorem lower_capitalized (name : String) : Text.lower (capitalized name) = Text.lower name := by
  unfold capitalized
  split
  · rename_i c r hname
    rw [← String.ofList_toList (s := name), hname]
    refine Text.lower_congr ?_
    rw [List.map_cons, List.map_cons, Text.toLower_toUpper]
  · rename_i hname
    rw [← String.ofList_toList (s := name), hname]

/-- The native types start with ASCII letters that are the lower-case forms of no other
characters. -/
theorem head_capitalizedNatives {native : String} (h : native ∈ capitalizedNatives) :
    ∃ d, native.toList.head? = some d ∧ d.isAlpha = true ∧ d ≠ 'k' ∧ d ≠ 'i' := by
  have hall : (capitalizedNatives.all fun native => native.toList.head?.any fun d =>
      d.isAlpha && d != 'k' && d != 'i') = true := by decide
  obtain ⟨d, hd, hletter⟩ := (Option.any_eq_true _ _).mp (List.all_eq_true.mp hall native h)
  simp only [Bool.and_eq_true, bne_iff_ne] at hletter
  exact ⟨d, hd, hletter.1.1, hletter.1.2, hletter.2⟩

theorem isUpper_capitalized {name : String} (h : Text.lower name ∈ capitalizedNatives) :
    (capitalized name).toList.head?.any Char.isUpper = true := by
  obtain ⟨d, hd, halpha, hk, hi⟩ := head_capitalizedNatives h
  unfold capitalized
  split
  · rename_i c r hname
    obtain ⟨hc, rfl⟩ := Text.toLower_of_head_lower hname hd halpha hk hi
    simpa using Text.isUpper_toUpper hc halpha
  · rename_i hname
    rw [Text.lower, hname] at hd
    cases hd

/-- The spelling that is asked for is the same name in another case, and it is accepted. -/
theorem of_expectedSpelling {choice : Choice} {name expected : String}
    (h : expectedSpelling? choice name = some expected) :
    Text.lower expected = Text.lower name ∧ expectedSpelling? choice expected = none := by
  have hstrict : ∀ p ∈ strictSpelling, Text.lower p.2 = p.1 := by decide +kernel
  unfold expectedSpelling? at h
  split at h
  · split at h
    · rename_i spelling hlookup
      have hlower : Text.lower spelling = Text.lower name :=
        hstrict _ (Assoc.mem_of_lookup hlookup)
      split at h
      · cases h
      · cases h
        refine ⟨hlower, ?_⟩
        simp only [expectedSpelling?, hlower, hlookup, if_true]
    · cases h
  · split at h
    · rename_i hnative
      cases h
      have hlower := lower_capitalized name
      refine ⟨hlower, ?_⟩
      simp only [expectedSpelling?, hlower, isUpper_capitalized hnative.1, not_true, and_false,
        if_false]
    · cases h
  · cases h

/-- The spelling that a name should have; its own, if nothing is wrong with it. -/
def respell (choice : Choice) (name : String) : String := (expectedSpelling? choice name).getD name

theorem respell_of_none {choice : Choice} {name : String}
    (h : expectedSpelling? choice name = none) : respell choice name = name := by
  rw [respell, h, Option.getD_none]

theorem lower_respell (choice : Choice) (name : String) :
    Text.lower (respell choice name) = Text.lower name := by
  unfold respell
  cases h : expectedSpelling? choice name with
  | none => rfl
  | some expected => exact (of_expectedSpelling h).1

theorem expectedSpelling_respell (choice : Choice) (name : String) :
    expectedSpelling? choice (respell choice name) = none := by
  unfold respell
  cases h : expectedSpelling? choice name with
  | none => exact h
  | some expected => exact (of_expectedSpelling h).2

end Rule

/-! ## One type -/

/-- The type with its names respelled as they should be. -/
def TypeExpr.respelled (choice : Choice) (t : TypeExpr) : TypeExpr := t.rename (Rule.respell choice)

namespace TypeExpr

variable (choice : Choice) (t : TypeExpr)

theorem names_respelled : (t.respelled choice).names = t.names.map (Rule.respell choice) :=
  names_rename _ t

theorem expectedSpelling_of_mem_respelled :
    ∀ name ∈ (t.respelled choice).names, Rule.expectedSpelling? choice name = none := by
  rw [names_respelled]
  exact List.forall_mem_map.mpr fun name _ => Rule.expectedSpelling_respell choice name

theorem respelled_respelled : (t.respelled choice).respelled choice = t.respelled choice :=
  rename_eq_self _ fun name hname =>
    Rule.respell_of_none (expectedSpelling_of_mem_respelled choice t name hname)

end TypeExpr

/-- The tag with its type respelled as it should be. -/
def Tag.respelled (choice : Choice) (t : Tag) : Tag :=
  { t with type := t.type.map (TypeExpr.respelled choice) }

namespace Rule

/-! ## One tag -/

/-- What is reported at a tag. -/
def typeFindings (choice : Choice) (t : Tag) : List Finding :=
  match t.type with
  | none => []
  | some type =>
    if typeCheckedTags.contains t.keyword then
      (typeProblems choice t.keyword type).map fun message => ⟨.checkTypes, message, t.location⟩
    else []

theorem checkTypes_eq (choice : Choice) (s : Subject) :
    checkTypes choice s = s.tags.flatMap (typeFindings choice) := rfl

/-- What is said of a name that is not spelled as it should be. -/
def casingFinding (choice : Choice) (t : Tag) (name : String) : Finding :=
  ⟨.checkTypes, "Invalid case of type '" ++ name ++ "', expected '" ++ respell choice name ++ "'",
    t.location⟩

theorem typeProblems_of_parsed {type : TypeExpr} (h : type.isUnknown = false) (choice : Choice)
    (keyword : String) :
    typeProblems choice keyword type =
      (type.names.filter fun name => (expectedSpelling? choice name).isSome).map fun name =>
        "Invalid case of type '" ++ name ++ "', expected '" ++ respell choice name ++ "'" := by
  have hproblems : typeProblems choice keyword type = type.names.filterMap fun name =>
      (expectedSpelling? choice name).map fun expected =>
        "Invalid case of type '" ++ name ++ "', expected '" ++ expected ++ "'" := by
    cases type with
    | unknown raw => cases h
    | _ => rfl
  rw [hproblems]
  refine filterMap_eq_map_filter (fun name => ?_) _
  unfold respell
  cases expectedSpelling? choice name <;> rfl

theorem typeProblems_on {type : TypeExpr} (h : type.isUnknown = false) (keyword : String) :
    typeProblems .on keyword type = [] := by
  rw [typeProblems_of_parsed h]
  simp [expectedSpelling?]

/-- When all names are respelled, what is left to say is what is said whatever the mode. -/
theorem typeProblems_respelled (choice : Choice) (keyword : String) (type : TypeExpr) :
    typeProblems choice keyword (type.respelled choice) = typeProblems .on keyword type := by
  cases h : type.isUnknown with
  | true =>
    cases type with
    | unknown raw => rfl
    | _ => cases h
  | false =>
    have hrespelled : (type.respelled choice).isUnknown = false :=
      (TypeExpr.isUnknown_rename type).trans h
    have hnone : ((type.respelled choice).names.filter fun name =>
        (expectedSpelling? choice name).isSome) = [] :=
      List.filter_eq_nil_iff.mpr fun name hname => by
        simp [TypeExpr.expectedSpelling_of_mem_respelled choice type name hname]
    rw [typeProblems_of_parsed hrespelled, hnone, typeProblems_on h, List.map_nil]

variable {choice : Choice} {t : Tag}

/-- At a tag whose type was read, each name that is not spelled as it should be is reported. -/
theorem typeFindings_of_parsed {type : TypeExpr} (htype : t.type = some type)
    (h : type.isUnknown = false) :
    typeFindings choice t =
      if typeCheckedTags.contains t.keyword then
        (type.names.filter fun name => (expectedSpelling? choice name).isSome).map
          (casingFinding choice t)
      else [] := by
  simp only [typeFindings, htype, typeProblems_of_parsed h, List.map_map]
  rfl

/-- A type that cannot be read is reported in the same way in every mode. -/
theorem typeFindings_of_unknown (h : t.hasUnknownType = true) :
    typeFindings .on t = typeFindings choice t := by
  unfold typeFindings
  cases htype : t.type with
  | none => rfl
  | some type =>
    rw [Tag.hasUnknownType, htype, Option.any_some] at h
    cases type with
    | unknown raw => rfl
    | _ => cases h

theorem typeFindings_on (h : ¬ t.hasUnknownType = true) : typeFindings .on t = [] := by
  unfold typeFindings
  cases htype : t.type with
  | none => rfl
  | some type =>
    rw [Tag.hasUnknownType, htype, Option.any_some, Bool.not_eq_true] at h
    simp only [typeProblems_on h, List.map_nil, ite_self]

theorem typeFindings_respelled : typeFindings choice (t.respelled choice) = typeFindings .on t := by
  have hkeyword : (t.respelled choice).keyword = t.keyword := rfl
  have htype : (t.respelled choice).type = t.type.map (TypeExpr.respelled choice) := rfl
  unfold typeFindings
  rw [hkeyword, htype]
  cases t.type with
  | none => rfl
  | some type =>
    simp only [Option.map_some, typeProblems_respelled]
    rfl

/-! ## All tags -/

theorem flatMap_typeFindings_on (choice : Choice) (ts : List Tag) :
    ts.flatMap (typeFindings .on) =
      (ts.filter Tag.hasUnknownType).flatMap (typeFindings choice) := by
  induction ts with
  | nil => rfl
  | cons t ts ih =>
    by_cases h : t.hasUnknownType = true
    · rw [List.filter_cons_of_pos h, List.flatMap_cons, List.flatMap_cons, ih,
        typeFindings_of_unknown h]
    · rw [List.filter_cons_of_neg h, List.flatMap_cons, ih, typeFindings_on h, List.nil_append]

theorem flatMap_typeFindings_respelled (choice : Choice) (ts : List Tag) :
    (ts.map (Tag.respelled choice)).flatMap (typeFindings choice) =
      ts.flatMap (typeFindings .on) := by
  rw [List.flatMap_map]
  exact congrArg (List.flatMap · ts) (funext fun _ => typeFindings_respelled)

/-- A type whose names are respelled as they should be has no name that is reported; the names
that were not reported are as they were, all names differ from the old ones in case alone and keep
their order, and there is nothing left to respell. The types that cannot be read, and no others,
are reported whatever is asked about case; each tag is looked at by itself, and one whose type was
read gets a finding for each place of a name that is not spelled as it should be if its keyword is
one of those whose types are checked, and none if it is not. So when all names in a comment are
respelled, only the types that cannot be read are left. -/
theorem casing_advice (choice : Choice) :
    (∀ e : TypeExpr,
      (∀ name ∈ (e.respelled choice).names, expectedSpelling? choice name = none) ∧
      (e.respelled choice).names =
        e.names.map (fun name => (expectedSpelling? choice name).getD name) ∧
      (e.respelled choice).names.map Text.lower = e.names.map Text.lower ∧
      (e.respelled choice).respelled choice = e.respelled choice) ∧
    ∀ (c : Comment) (g : Signature),
      checkTypes .on ⟨some c, g⟩ =
        checkTypes choice ⟨some { c with tags := c.tags.filter Tag.hasUnknownType }, g⟩ ∧
      checkTypes choice ⟨some c, g⟩ =
        c.tags.flatMap (fun t => checkTypes choice ⟨some { c with tags := [t] }, g⟩) ∧
      (∀ t type, t.type = some type → type.isUnknown = false →
        checkTypes choice ⟨some { c with tags := [t] }, g⟩ =
          if typeCheckedTags.contains t.keyword then
            (type.names.filter fun name => (expectedSpelling? choice name).isSome).map fun name =>
              ⟨.checkTypes, "Invalid case of type '" ++ name ++ "', expected '" ++
                (expectedSpelling? choice name).getD name ++ "'", t.location⟩
          else []) ∧
      checkTypes choice ⟨some { c with tags := c.tags.map (Tag.respelled choice) }, g⟩ =
        checkTypes .on ⟨some c, g⟩ := by
  have hsingle : ∀ (c : Comment) g t, checkTypes choice ⟨some { c with tags := [t] }, g⟩ =
      typeFindings choice t := fun _ _ t => by
    rw [checkTypes_eq]
    exact List.append_nil _
  refine ⟨fun e => ⟨e.expectedSpelling_of_mem_respelled choice, e.names_respelled choice, ?_,
      e.respelled_respelled choice⟩, fun c g => ⟨flatMap_typeFindings_on choice c.tags, ?_,
      fun t type htype h => ?_, flatMap_typeFindings_respelled choice c.tags⟩⟩
  · rw [e.names_respelled, List.map_map]
    exact List.map_congr_left fun name _ => lower_respell choice name
  · simp only [hsingle]
    rfl
  · rw [hsingle, typeFindings_of_parsed htype h]
    rfl

/-- Three names in the wrong case, one of them inside of another. -/
theorem casing_advice_nested :
    let choice : Choice := .mode .strictNativeCase
    let type : TypeExpr := .union [.native "Number", .generic "object" [.reference "STRING"]]
    let t : Tag := ⟨"param", "@param {Number|object.<STRING>} x", .start, some type,
      some "x", false, none⟩
    let g : Signature := ⟨"f", [], .unknown, .none, .none, false, .start⟩
    t.type = some type ∧ type.isUnknown = false ∧
      (type.respelled choice).names = ["number", "Object", "string"] ∧
      (checkTypes choice ⟨some ⟨[], [t], 0, .start⟩, g⟩).map Finding.message =
        ["Invalid case of type 'Number', expected 'number'",
          "Invalid case of type 'object', expected 'Object'",
          "Invalid case of type 'STRING', expected 'string'"] := by
  intro choice type t g
  obtain ⟨hadvice, hrule⟩ := casing_advice choice
  obtain ⟨-, hnames, -⟩ := hadvice type
  obtain ⟨-, -, hparsed, -⟩ := hrule ⟨[], [], 0, .start⟩ g
  have hreported := hparsed t type rfl rfl
  refine ⟨rfl, rfl, ?_, ?_⟩
  · rw [hnames]
    decide +kernel
  · rw [hreported]
    decide +kernel

/-- The tag of an exception has a type with a name in the wrong case, but its type is none of
those that are checked. -/
theorem casing_unchecked :
    let choice : Choice := .mode .strictNativeCase
    let s : Subject := ⟨some (Comment.parse "/** @throws {Number} */" .start),
      ⟨"f", [], .unknown, .none, .none, false, .start⟩⟩
    (∃ t ∈ s.tags, ∃ type ∈ t.type, type.isUnknown = false ∧
      ∃ name ∈ type.names, (expectedSpelling? choice name).isSome = true) ∧
    checkTypes choice s = [] := by
  decide +kernel

end Rule

end DocCheck
