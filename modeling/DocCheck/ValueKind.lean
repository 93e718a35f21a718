/-!
# Coarse kinds of values

What can be told about a returned value without running the program: one of nine
kinds, or that its kind is unknown. A set of kinds is its membership test
(SPEC_FULL 4.4, coarse kind mapping).

Results:

* `KindSet.union_assoc`: the kinds in any of three sets do not depend on how they are taken
  together.
* `KindSet.mem_toList`: listing a set lists its members, in alphabetical order of their names.
-/
namespace DocCheck

/-- A coarse kind of value, in alphabetical order. -/
inductive ValueKind where
  | array | boolean | function | null | number | object | regexp | string | undefined | unknown
deriving DecidableEq, Repr

namespace ValueKind

/-- All kinds, in alphabetical order. -/
def all : List ValueKind :=
  [array, boolean, function, null, number, object, regexp, string, undefined, unknown]

def name : ValueKind → String
  | array => "array"
  | boolean => "boolean"
  | function => "function"
  | null => "null"
  | number => "number"
  | object => "object"
  | regexp => "regexp"
  | string => "string"
  | undefined => "undefined"
  | unknown => "unknown"

def ofName? (s : String) : Option ValueKind := all.find? fun k => k.name = s

theorem mem_all (k : ValueKind) : k ∈ all := by cases k <;> decide

end ValueKind

@[ext] structure KindSet where
  has : ValueKind → Bool

namespace KindSet

def empty : KindSet := ⟨fun _ => false⟩

def single (k : ValueKind) : KindSet := ⟨fun k' => k' == k⟩

def ofList (ks : List ValueKind) : KindSet := ⟨fun k => ks.contains k⟩

def union (s t : KindSet) : KindSet := ⟨fun k => s.has k || t.has k⟩

/-- The kinds of the first set that are not in the second. -/
def minus (s t : KindSet) : KindSet := ⟨fun k => s.has k && !t.has k⟩

/-- The members, in alphabetical order of their names. -/
def toList (s : KindSet) : List ValueKind := ValueKind.all.filter s.has

def isEmpty (s : KindSet) : Bool := s.toList.isEmpty

/-- The set has this one member and no other. -/
def isSingle (s : KindSet) (k : ValueKind) : Bool := s.toList == [k]

@[simp] theorem has_empty (k : ValueKind) : empty.has k = false := rfl

@[simp] theorem has_union (s t : KindSet) (k : ValueKind) :
    (s.union t).has k = (s.has k || t.has k) := rfl

@[simp] theorem empty_union (s : KindSet) : empty.union s = s := by
  ext k; simp

@[simp] theorem union_empty (s : KindSet) : s.union empty = s := by
  ext k; simp

theorem union_assoc (s t u : KindSet) : (s.union t).union u = s.union (t.union u) := by
  ext k; simp [Bool.or_assoc]

theorem mem_toList {s : KindSet} {k : ValueKind} : k ∈ s.toList ↔ s.has k = true := by
  simp [toList, ValueKind.mem_all]

theorem isEmpty_iff {s : KindSet} : s.isEmpty = true ↔ ∀ k, s.has k = false := by
  simp only [isEmpty, List.isEmpty_iff, List.eq_nil_iff_forall_not_mem, mem_toList,
    Bool.not_eq_true]

end KindSet

end DocCheck
