import Mathlib.Data.List.Basic
import DocCheck.Files.Discovery

/-!
# Trees of files

A path leads through a tree name by name. Where the entries of a directory have
proper names, different ones each, what lies below it is found under the path that
it is listed with, whichever path leads to the directory.

Results:

* `Entry.disk_below`: a path below a directory is followed from the directory on.
* `Entry.follow_append`: following names and then others.
* `Entry.follow_of_mem_descendants`: what lies below an entry is found there.
* `Entry.disk_of_mem_descendants`: what lies below a directory is what the path to it finds.
-/
namespace DocCheck

/-! ## Paths below a directory -/

namespace Path

/-- A name that an entry of a directory can have. -/
def IsName (name : String) : Prop :=
  name ≠ "" ∧ name ≠ "." ∧ name ≠ ".." ∧ '/' ∉ name.toList

instance : DecidablePred IsName := fun _ => inferInstanceAs (Decidable (_ ∧ _))

theorem names_append (s t : String) : names (s ++ "/" ++ t) = names s ++ names t := by
  have hslash : "/".toList = ['/'] := rfl
  rw [names, String.toList_append, String.toList_append, hslash, List.append_assoc,
    List.singleton_append, List.splitOn_append_cons_self, List.map_append]
  rfl

theorem names_intercalate {parts : List String} (hne : parts ≠ [])
    (h : ∀ n ∈ parts, IsName n) : names ("/".intercalate parts) = parts := by
  have hslash : "/".toList = ['/'] := rfl
  have hparts : ∀ l ∈ parts.map String.toList, '/' ∉ l := by
    simpa using fun n hn => (h n hn).2.2.2
  rw [names, String.toList_intercalate, hslash, List.splitOn_intercalate '/' hparts (by simpa),
    List.map_map]
  exact (List.map_congr_left fun n _ => String.ofList_toList).trans (List.map_id _)

theorem head_intercalate {n : String} (ns : List String) (hn : IsName n) :
    "/".intercalate (n :: ns) ≠ "" ∧ ("/".intercalate (n :: ns)).toList.head? ≠ some '/' := by
  have hfull : n.toList ≠ [] := by simpa using hn.1
  have htext : ∃ rest, ("/".intercalate (n :: ns)).toList = n.toList ++ rest := by
    cases ns with
    | nil => exact ⟨[], by simp⟩
    | cons m ns => exact ⟨"/".toList ++ ("/".intercalate (m :: ns)).toList, by simp⟩
  obtain ⟨rest, hrest⟩ := htext
  refine ⟨fun he => hfull ?_, fun hslash => hn.2.2.2 ?_⟩
  · have hnil := he ▸ hrest
    exact (List.append_eq_nil_iff.mp hnil.symm).1
  · rw [hrest, List.head?_append_of_ne_nil _ hfull] at hslash
    exact List.mem_of_mem_head? hslash

theorem head_absolute (parts : List String) :
    (toString (⟨true, parts⟩ : Path)).toList.head? = some '/' := by
  have htext : toString (⟨true, parts⟩ : Path) = "/" ++ "/".intercalate parts := rfl
  have hslash : "/".toList = ['/'] := rfl
  rw [htext, String.toList_append, hslash]
  rfl

theorem toString_below {around parts : List String} (ha : around ≠ []) (hp : parts ≠ []) :
    toString (Path.below ⟨false, around⟩ parts) =
      toString (⟨false, around⟩ : Path) ++ "/" ++ "/".intercalate parts := by
  have htext : ∀ ns : List String, ns ≠ [] →
      toString (⟨false, ns⟩ : Path) = "/".intercalate ns := by
    intro ns hns
    obtain ⟨n, ns, rfl⟩ := List.exists_cons_of_ne_nil hns
    rfl
  rw [below, htext _ ha, htext _ (by simp [ha]), String.intercalate_append_of_ne_nil ha hp]

end Path

namespace Entry

theorem follow_of_disk {root e : Entry} {text : String} (h : root.disk text = .ok e) :
    text ≠ "" ∧ text.toList.head? ≠ some '/' ∧ follow [] root (Path.names text) = .ok e := by
  unfold disk at h
  split at h
  · cases h
  · rename_i hplain
    exact ⟨fun he => hplain (.inl he), fun hs => hplain (.inr hs), h⟩

/-- A path below a directory is followed from the directory on. -/
theorem disk_below {root e : Entry} {path : Path} {parts : List String}
    (h : root.disk (toString path) = .ok e) (hne : parts ≠ [])
    (hparts : ∀ n ∈ parts, Path.IsName n) :
    ∃ before, follow [] root before = .ok e ∧
      root.disk (toString (path.below parts)) = follow [] root (before ++ parts) := by
  obtain ⟨hfull, hrelative, hfollow⟩ := follow_of_disk h
  obtain ⟨absolute, around⟩ := path
  have habsolute : absolute = false := by
    cases absolute with
    | false => rfl
    | true => exact absurd (Path.head_absolute around) hrelative
  subst habsolute
  cases around with
  | nil =>
    obtain ⟨n, ns, rfl⟩ := List.exists_cons_of_ne_nil hne
    have hhead := Path.head_intercalate ns (hparts n List.mem_cons_self)
    have htext : toString (Path.below ⟨false, []⟩ (n :: ns)) = "/".intercalate (n :: ns) := rfl
    refine ⟨[], ?_, ?_⟩
    · cases root with
      | file _ => cases hfollow
      | directory entries => exact hfollow
    · rw [htext, disk, if_neg (by simpa using hhead), Path.names_intercalate hne hparts,
        List.nil_append]
  | cons m ms =>
    refine ⟨_, hfollow, ?_⟩
    rw [Path.toString_below (by simp) hne, disk, if_neg, Path.names_append,
      Path.names_intercalate hne hparts]
    simp only [String.append_eq_empty_iff, String.toList_append, List.append_assoc]
    have hchars : (toString (⟨false, m :: ms⟩ : Path)).toList ≠ [] := by simpa using hfull
    rw [List.head?_append_of_ne_nil _ hchars]
    exact fun hor => hor.elim (fun hand => hfull hand.1.1) hrelative

/-! ## Trees with proper names -/

/-- Below the entry all names are proper, and those in one directory are different. -/
inductive WellNamed : Entry → Prop where
  | file (bytes) : WellNamed (.file bytes)
  | directory {entries} (hdistinct : (entries.map Prod.fst).Nodup)
      (hnames : ∀ p ∈ entries, Path.IsName p.1) (h : ∀ p ∈ entries, WellNamed p.2) :
      WellNamed (.directory entries)

theorem mem_of_child {name : String} {entries : List (String × Entry)} {e : Entry}
    (h : child? name entries = some e) : (name, e) ∈ entries := by
  induction entries with
  | nil => cases h
  | cons p entries ih =>
    obtain ⟨n, e'⟩ := p
    rw [child?] at h
    split at h
    · rename_i hn
      rw [hn, Option.some.inj h]
      exact List.mem_cons_self
    · exact List.mem_cons_of_mem _ (ih h)

theorem child_of_mem {name : String} {entries : List (String × Entry)} {e : Entry}
    (hdistinct : (entries.map Prod.fst).Nodup) (h : (name, e) ∈ entries) :
    child? name entries = some e := by
  induction entries with
  | nil => cases h
  | cons p entries ih =>
    obtain ⟨n, e'⟩ := p
    obtain ⟨hfirst, hdistinct⟩ := List.nodup_cons.mp hdistinct
    rw [child?]
    rcases List.mem_cons.mp h with heq | h
    · cases heq
      exact if_pos rfl
    · have hne : n ≠ name := fun he => hfirst (List.mem_map.mpr ⟨(name, e), h, he.symm⟩)
      rw [if_neg hne, ih hdistinct h]

/-- Where a name leads from a directory, with the directories around. -/
def step? (above : List Entry) (entries : List (String × Entry)) (name : String) :
    Option (List Entry × Entry) :=
  if name = "" ∨ name = "." then some (above, .directory entries)
  else if name = ".." then
    match above with
    | [] => none
    | parent :: above => some (above, parent)
  else (child? name entries).map fun e => (.directory entries :: above, e)

theorem follow_cons (above : List Entry) (entries : List (String × Entry)) (name : String)
    (names : List String) :
    follow above (.directory entries) (name :: names) =
      match step? above entries name with
      | some p => follow p.1 p.2 names
      | none => .error .absent := by
  simp only [follow, step?]
  split
  · rfl
  · split
    · cases above <;> rfl
    · cases child? name entries <;> rfl

theorem step_name {above : List Entry} {entries : List (String × Entry)} {name : String}
    {e : Entry} (hn : Path.IsName name) (he : child? name entries = some e) :
    step? above entries name = some (.directory entries :: above, e) := by
  unfold step?
  rw [if_neg (not_or.mpr ⟨hn.1, hn.2.1⟩), if_neg hn.2.2.1, he]
  rfl

theorem exists_step {above : List Entry} {e e' : Entry} {name : String} {names : List String}
    (h : follow above e (name :: names) = .ok e') :
    ∃ entries p, e = .directory entries ∧ step? above entries name = some p ∧
      follow p.1 p.2 names = .ok e' := by
  cases e with
  | file bytes => cases h
  | directory entries =>
    rw [follow_cons] at h
    split at h
    · exact ⟨entries, _, rfl, ‹_›, h⟩
    · cases h

/-- Following names and then others is following the others from where the names lead. -/
theorem follow_append {above : List Entry} {e e' : Entry} {names : List String}
    (h : follow above e names = .ok e') :
    ∃ above', ∀ rest, follow above e (names ++ rest) = follow above' e' rest := by
  induction names generalizing above e with
  | nil =>
    cases h
    exact ⟨above, fun _ => rfl⟩
  | cons name names ih =>
    obtain ⟨entries, p, rfl, hstep, h⟩ := exists_step h
    obtain ⟨above', hrest⟩ := ih h
    exact ⟨above', fun rest => by rw [List.cons_append, follow_cons, hstep, ← hrest rest]⟩

theorem step_wellNamed {above : List Entry} {entries : List (String × Entry)} {name : String}
    {p : List Entry × Entry} (h : step? above entries name = some p)
    (he : WellNamed (.directory entries)) (habove : ∀ a ∈ above, WellNamed a) :
    (∀ a ∈ p.1, WellNamed a) ∧ WellNamed p.2 := by
  unfold step? at h
  split at h
  · cases h
    exact ⟨habove, he⟩
  · split at h
    · split at h
      · cases h
      · cases h
        obtain ⟨hparent, habove⟩ := List.forall_mem_cons.mp habove
        exact ⟨habove, hparent⟩
    · obtain ⟨child, hchild, rfl⟩ := Option.map_eq_some_iff.mp h
      refine ⟨List.forall_mem_cons.mpr ⟨he, habove⟩, ?_⟩
      cases he with
      | directory _ _ hbelow => exact hbelow _ (mem_of_child hchild)

theorem follow_wellNamed {above : List Entry} {e e' : Entry} {names : List String}
    (h : follow above e names = .ok e') (he : WellNamed e) (habove : ∀ a ∈ above, WellNamed a) :
    WellNamed e' := by
  induction names generalizing above e with
  | nil =>
    cases h
    exact he
  | cons name names ih =>
    obtain ⟨entries, p, rfl, hstep, h⟩ := exists_step h
    obtain ⟨habove, he⟩ := step_wellNamed hstep he habove
    exact ih h he habove

/-! ## What lies below -/

theorem mem_descendantsOf {entries : List (String × Entry)} {parts : List String} {d : Entry} :
    (parts, d) ∈ descendantsOf entries ↔
      ∃ name e, (name, e) ∈ entries ∧
        (parts = [name] ∧ d = e ∨ ∃ rest, parts = name :: rest ∧ (rest, d) ∈ descendants e) := by
  induction entries with
  | nil => simp [descendantsOf]
  | cons p entries ih =>
    obtain ⟨n, e'⟩ := p
    rw [descendantsOf, List.cons_append, List.mem_cons, List.mem_append, ih]
    simp only [Prod.mk.injEq, List.mem_map, List.mem_cons]
    constructor
    · rintro (⟨rfl, rfl⟩ | ⟨⟨rest, d'⟩, hd, rfl, rfl⟩ | ⟨name, e, he, h⟩)
      · exact ⟨n, d, .inl ⟨rfl, rfl⟩, .inl ⟨rfl, rfl⟩⟩
      · exact ⟨n, e', .inl ⟨rfl, rfl⟩, .inr ⟨rest, rfl, hd⟩⟩
      · exact ⟨name, e, .inr he, h⟩
    · rintro ⟨name, e, ⟨rfl, rfl⟩ | he, h⟩
      · obtain h | ⟨rest, rfl, hd⟩ := h
        · exact .inl h
        · exact .inr (.inl ⟨(rest, d), hd, rfl, rfl⟩)
      · exact .inr (.inr ⟨name, e, he, h⟩)

theorem mem_descendantsOf_of_tail {p : String × Entry} {entries : List (String × Entry)}
    {q : List String × Entry} (h : q ∈ descendantsOf entries) :
    q ∈ descendantsOf (p :: entries) := by
  obtain ⟨parts, d⟩ := q
  obtain ⟨name, e, he, hparts⟩ := mem_descendantsOf.mp h
  exact mem_descendantsOf.mpr ⟨name, e, List.mem_cons_of_mem _ he, hparts⟩

theorem mem_descendants {e d : Entry} {parts : List String} (h : (parts, d) ∈ descendants e) :
    ∃ entries name child rest, e = .directory entries ∧ (name, child) ∈ entries ∧
      parts = name :: rest ∧ (rest = [] ∧ d = child ∨ (rest, d) ∈ descendants child) := by
  cases e with
  | file bytes => simp [descendants] at h
  | directory entries =>
    rw [descendants] at h
    obtain ⟨name, child, hchild, ⟨rfl, rfl⟩ | ⟨rest, rfl, hd⟩⟩ := mem_descendantsOf.mp h
    · exact ⟨entries, name, d, [], rfl, hchild, rfl, .inl ⟨rfl, rfl⟩⟩
    · exact ⟨entries, name, child, rest, rfl, hchild, rfl, .inr hd⟩

theorem ne_nil_of_mem_descendants {e d : Entry} {parts : List String}
    (h : (parts, d) ∈ descendants e) : parts ≠ [] := by
  obtain ⟨_, name, _, rest, -, -, hparts, -⟩ := mem_descendants h
  rw [hparts]
  exact List.cons_ne_nil name rest

/-- What lies below an entry is found there, and its path is one of proper names. -/
theorem follow_of_mem_descendants {e d : Entry} {parts : List String} (he : WellNamed e)
    (h : (parts, d) ∈ descendants e) (above : List Entry) :
    follow above e parts = .ok d ∧ ∀ n ∈ parts, Path.IsName n := by
  induction parts generalizing e above with
  | nil =>
    obtain ⟨_, _, _, _, -, -, hparts, -⟩ := mem_descendants h
    cases hparts
  | cons name rest ih =>
    obtain ⟨entries, _, child, _, rfl, hchild, hparts, hd⟩ := mem_descendants h
    cases hparts
    cases he with
    | directory hdistinct hnames hbelow =>
      have hname := hnames _ hchild
      rw [follow_cons, step_name hname (child_of_mem hdistinct hchild), List.forall_mem_cons]
      obtain ⟨rfl, rfl⟩ | hd := hd
      · exact ⟨rfl, hname, by simp⟩
      · obtain ⟨hfollow, hrest⟩ := ih (hbelow _ hchild) hd (.directory entries :: above)
        exact ⟨hfollow, hname, hrest⟩

/-- What lies below a directory is what the path to it finds. -/
theorem disk_of_mem_descendants {root e d : Entry} {path : Path} {parts : List String}
    (hroot : WellNamed root) (h : root.disk (toString path) = .ok e)
    (hd : (parts, d) ∈ descendants e) : root.disk (toString (path.below parts)) = .ok d := by
  have he : WellNamed e := follow_wellNamed (follow_of_disk h).2.2 hroot (by simp)
  have hparts := (follow_of_mem_descendants he hd []).2
  obtain ⟨before, hbefore, hbelow⟩ := disk_below h (ne_nil_of_mem_descendants hd) hparts
  obtain ⟨above, hrest⟩ := follow_append hbefore
  rw [hbelow, hrest, (follow_of_mem_descendants he hd above).1]

end Entry

end DocCheck
