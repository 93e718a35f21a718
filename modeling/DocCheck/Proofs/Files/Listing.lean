import DocCheck.Proofs.Files.Tree

/-!
# The files below a directory

The source files below a directory come in the order of their paths, and there is
only one order of some paths. So a file that is not there is missing from the list,
and that is all: the others are found where they were, and come in the same order.

Results:

* `Discovery.below_perm`, `Discovery.pairwise_below`: which files are listed, and in which order.
* `Entry.Without.found_disk`: without some files, paths find what they found before, but for these.
* `Discovery.filter_below`: without some files, the others are listed as before.
-/
namespace DocCheck

/-! ## The order of the files -/

namespace Entry

/-- The files below an entry, each as its path from there. -/
def filePaths (e : Entry) : List (List String) :=
  ((descendants e).filter fun p => p.2.isFile).map Prod.fst

theorem mem_filePaths {e : Entry} {parts : List String} :
    parts ∈ filePaths e ↔ ∃ bytes, (parts, .file bytes) ∈ descendants e := by
  constructor
  · intro hm
    obtain ⟨⟨_, d⟩, hd, rfl⟩ := List.mem_map.mp hm
    obtain ⟨hd, hfile⟩ := List.mem_filter.mp hd
    cases d with
    | file bytes => exact ⟨bytes, hd⟩
    | directory _ => cases hfile
  · rintro ⟨bytes, hd⟩
    exact List.mem_map.mpr ⟨(parts, .file bytes), List.mem_filter.mpr ⟨hd, rfl⟩, rfl⟩

end Entry

namespace Discovery

/-- One path comes before another one or is the same. -/
def Ordered (a b : List String) : Prop := ¬ b < a

theorem Ordered.trans {a b c : List String} (hab : Ordered a b) (hbc : Ordered b c) : Ordered a c :=
  List.le_trans hab hbc

theorem ordered_total (a b : List String) : Ordered a b ∨ Ordered b a := List.le_total a b

theorem Ordered.antisymm {a b : List String} (hab : Ordered a b) (hba : Ordered b a) : a = b :=
  List.le_antisymm hab hba

theorem notBehind_iff (a b : List String × Entry) : notBehind a b = true ↔ Ordered a.1 b.1 := by
  simp [notBehind, Ordered]

/-- The files come in the order of their paths. -/
theorem pairwise_below (e : Entry) : (below e).Pairwise Ordered := by
  have hsorted : (e.descendants.mergeSort notBehind).Pairwise fun a b => notBehind a b = true :=
    List.pairwise_mergeSort
      (fun a b c hab hbc => by
        rw [notBehind_iff] at hab hbc ⊢
        exact hab.trans hbc)
      (fun a b => by
        rw [Bool.or_eq_true, notBehind_iff, notBehind_iff]
        exact ordered_total a.1 b.1) _
  exact List.pairwise_map.mpr
    ((hsorted.sublist List.filter_sublist).imp fun h => (notBehind_iff _ _).mp h)

/-- What is listed are the files that are taken. -/
theorem below_perm (e : Entry) : (below e).Perm (e.filePaths.filter isTaken) := by
  have hfilter : e.filePaths.filter isTaken =
      (e.descendants.filter fun p => isTaken p.1 && p.2.isFile).map Prod.fst := by
    rw [Entry.filePaths, List.filter_map, List.filter_filter]
    rfl
  rw [hfilter]
  exact ((List.mergeSort_perm _ _).filter _).map _

theorem filter_below_congr {e e' : Entry} {keep : List String → Bool}
    (h : e.filePaths.filter keep = e'.filePaths.filter keep) :
    (below e).filter keep = (below e').filter keep := by
  have hkept : ∀ e : Entry,
      ((below e).filter keep).Perm ((e.filePaths.filter keep).filter isTaken) := by
    intro e
    rw [List.filter_comm]
    exact (below_perm e).filter keep
  have hperm : ((below e).filter keep).Perm ((below e').filter keep) :=
    (hkept e).trans (h ▸ (hkept e').symm)
  exact hperm.eq_of_pairwise (fun _ _ _ _ => Ordered.antisymm)
    ((pairwise_below e).sublist List.filter_sublist)
    ((pairwise_below e').sublist List.filter_sublist)

end Discovery

/-! ## Trees without some files -/

namespace Entry

mutual

/-- The second entry is the first one, but below it some files are missing, and these are all
`lost`. -/
inductive Without (lost : Contents → Prop) : Entry → Entry → Prop where
  | file (bytes) : Without lost (.file bytes) (.file bytes)
  | directory {es es'} (h : WithoutSome lost es es') : Without lost (.directory es) (.directory es')

/-- The second directory is the first one without some files in it or below it. -/
inductive WithoutSome (lost : Contents → Prop) :
    List (String × Entry) → List (String × Entry) → Prop where
  | nil : WithoutSome lost [] []
  | keep (name) {e e' es es'} (he : Without lost e e') (h : WithoutSome lost es es') :
      WithoutSome lost ((name, e) :: es) ((name, e') :: es')
  | lose (name) {bytes es es'} (hb : lost bytes) (h : WithoutSome lost es es') :
      WithoutSome lost ((name, .file bytes) :: es) es'

end

/-- What is looked up is there in both places and is the same, or it is gone from the second one
and was lost before. -/
inductive Found {α : Type} (same : α → α → Prop) (isLost : α → Prop) :
    Option α → Option α → Prop where
  | same {a b} (h : same a b) : Found same isLost (some a) (some b)
  | gone {a} (h : isLost a) : Found same isLost (some a) none
  | never : Found same isLost none none

/-- The entry is a file whose contents are lost. -/
def IsLost (lost : Contents → Prop) (e : Entry) : Prop := ∃ bytes, e = .file bytes ∧ lost bytes

section

variable {lost : Contents → Prop} {es es' : List (String × Entry)}

theorem WithoutSome.names (h : WithoutSome lost es es') :
    (es'.map Prod.fst).Sublist (es.map Prod.fst) := by
  induction es generalizing es' with
  | nil =>
    cases h
    exact .slnil
  | cons p es ih =>
    cases h with
    | keep name _ h => exact (ih h).cons_cons name
    | lose name _ h => exact (ih h).cons name

theorem child_eq_none {name : String} (h : name ∉ es.map Prod.fst) : child? name es = none := by
  cases hc : child? name es with
  | none => rfl
  | some e => exact absurd (List.mem_map_of_mem (mem_of_child hc)) h

theorem WithoutSome.found_child (h : WithoutSome lost es es')
    (hdistinct : (es.map Prod.fst).Nodup) (name : String) :
    Found (Without lost) (IsLost lost) (child? name es) (child? name es') := by
  induction es generalizing es' with
  | nil =>
    cases h
    exact .never
  | cons p es ih =>
    obtain ⟨hfirst, hrest⟩ := List.nodup_cons.mp hdistinct
    cases h with
    | @keep n e e' _ es' he h =>
      by_cases hn : n = name
      · rw [child?, if_pos hn, child?, if_pos hn]
        exact .same he
      · rw [child?, if_neg hn, child?, if_neg hn]
        exact ih h hrest
    | @lose n bytes _ _ hb h =>
      by_cases hn : n = name
      · -- names are different, so the file that is gone leaves none of its name
        have hgone : name ∉ es'.map Prod.fst := fun hm => hfirst (hn ▸ h.names.subset hm)
        rw [child?, if_pos hn, child_eq_none hgone]
        exact .gone ⟨bytes, rfl, hb⟩
      · rw [child?, if_neg hn]
        exact ih h hrest

variable {above above' : List Entry} (habove : List.Forall₂ (Without lost) above above')
include habove

theorem WithoutSome.found_step (h : WithoutSome lost es es') (hdistinct : (es.map Prod.fst).Nodup)
    (name : String) :
    Found (fun p p' => List.Forall₂ (Without lost) p.1 p'.1 ∧ Without lost p.2 p'.2)
      (fun p => IsLost lost p.2) (step? above es name) (step? above' es' name) := by
  unfold step?
  split
  · exact .same ⟨habove, .directory h⟩
  · split
    · cases habove with
      | nil => exact .never
      | cons he habove => exact .same ⟨habove, he⟩
    · have hchild := h.found_child hdistinct name
      generalize child? name es = child, child? name es' = child' at hchild ⊢
      cases hchild with
      | same he => exact .same ⟨.cons (.directory h) habove, he⟩
      | gone he => exact .gone he
      | never => exact .never

/-- Without some files, names lead from an entry to where they led before, but for these files. -/
theorem Without.found_follow {e e' : Entry} (h : Without lost e e') (he : WellNamed e)
    (hnamed : ∀ a ∈ above, WellNamed a) (names : List String) :
    Found (Without lost) (IsLost lost) (follow above e names).toOption
      (follow above' e' names).toOption := by
  induction names generalizing above above' e e' with
  | nil => exact .same h
  | cons name names ih =>
    cases h with
    | file bytes => exact .never
    | @directory es es' h =>
      have hdistinct : (es.map Prod.fst).Nodup := by
        cases he
        assumption
      have hstep := h.found_step habove hdistinct name
      rw [follow_cons, follow_cons]
      have hwell := fun p (hp : step? above es name = some p) => step_wellNamed hp he hnamed
      generalize step? above es name = p, step? above' es' name = p' at hstep hwell ⊢
      cases hstep with
      | same hsame =>
        obtain ⟨hnamed, hbelow⟩ := hwell _ rfl
        exact ih hsame.1 hsame.2 hbelow hnamed
      | @gone p hlost =>
        obtain ⟨bytes, hbytes, hb⟩ := hlost
        simp only [hbytes]
        cases names with
        | nil => exact .gone ⟨bytes, rfl, hb⟩
        | cons _ _ => exact .never
      | never => exact .never

end

/-- Without some files, a path finds what it found before, but for these files. -/
theorem Without.found_disk {lost : Contents → Prop} {root root' : Entry}
    (h : Without lost root root') (hroot : WellNamed root) (text : String) :
    Found (Without lost) (IsLost lost) (root.disk text).toOption (root'.disk text).toOption := by
  unfold disk
  split
  · exact .never
  · exact h.found_follow .nil hroot (by simp) _

/-! ## Their files -/

theorem filePaths_file (contents : Contents) : filePaths (.file contents) = [] := rfl

def filePathsOf (es : List (String × Entry)) : List (List String) :=
  es.flatMap fun p => (if p.2.isFile then [[p.1]] else []) ++ (filePaths p.2).map (p.1 :: ·)

theorem filePaths_directory (es : List (String × Entry)) :
    filePaths (.directory es) = filePathsOf es := by
  rw [filePaths, descendants]
  induction es with
  | nil => rfl
  | cons p es ih =>
    obtain ⟨name, e⟩ := p
    have hbelow : (((descendants e).map fun p => (name :: p.1, p.2)).filter
        fun p => p.2.isFile).map Prod.fst = (filePaths e).map (name :: ·) := by
      rw [List.filter_map, List.map_map, filePaths, List.map_map]
      rfl
    rw [descendantsOf, List.filter_append, List.map_append, ih, List.filter_cons]
    have hcons : filePathsOf ((name, e) :: es) =
        ((if e.isFile then [[name]] else []) ++ (filePaths e).map (name :: ·)) ++
          filePathsOf es := List.flatMap_cons
    rw [hcons, ← hbelow]
    split <;> rfl

theorem filter_filePathsOf_cons (keep : List String → Bool) (name : String) (e : Entry)
    (es : List (String × Entry)) :
    (filePathsOf ((name, e) :: es)).filter keep =
      (if e.isFile then [[name]].filter keep else []) ++
        ((filePaths e).filter fun parts => keep (name :: parts)).map (name :: ·) ++
          (filePathsOf es).filter keep := by
  rw [filePathsOf, List.flatMap_cons, ← filePathsOf, List.filter_append, List.filter_append,
    List.filter_map, apply_ite (List.filter keep)]
  rfl

theorem Without.isFile {lost : Contents → Prop} {e e' : Entry} (h : Without lost e e') :
    e.isFile = e'.isFile := by
  cases h <;> rfl

section

variable {lost : Contents → Prop}

mutual

/-- Without some files, the paths of the other ones are as before. -/
theorem Without.filter_filePaths {e e' : Entry} (h : Without lost e e') (keep : List String → Bool)
    (hkeep : ∀ parts bytes, (parts, .file bytes) ∈ descendants e → lost bytes →
      keep parts = false) : (filePaths e).filter keep = (filePaths e').filter keep := by
  cases h with
  | file bytes => rfl
  | directory h =>
    rw [filePaths_directory, filePaths_directory]
    exact h.filter_filePathsOf keep hkeep

theorem WithoutSome.filter_filePathsOf {es es' : List (String × Entry)}
    (h : WithoutSome lost es es') (keep : List String → Bool)
    (hkeep : ∀ parts bytes, (parts, .file bytes) ∈ descendantsOf es → lost bytes →
      keep parts = false) : (filePathsOf es).filter keep = (filePathsOf es').filter keep := by
  cases h with
  | nil => rfl
  | @keep name e e' es es' he h =>
    have hbelow := he.filter_filePaths (fun parts => keep (name :: parts))
      fun parts bytes hm hb => hkeep _ bytes
        (mem_descendantsOf.mpr ⟨name, e, by simp, .inr ⟨parts, rfl, hm⟩⟩) hb
    have hrest := h.filter_filePathsOf keep fun parts bytes hm hb =>
      hkeep parts bytes (mem_descendantsOf_of_tail hm) hb
    rw [filter_filePathsOf_cons, filter_filePathsOf_cons, he.isFile, hbelow, hrest]
  | @lose name bytes es es' hb h =>
    have hgone := hkeep [name] bytes
      (mem_descendantsOf.mpr ⟨name, .file bytes, by simp, .inl ⟨rfl, rfl⟩⟩) hb
    have hrest := h.filter_filePathsOf keep fun parts bytes hm hb =>
      hkeep parts bytes (mem_descendantsOf_of_tail hm) hb
    rw [filter_filePathsOf_cons, hrest, filePaths_file]
    simp [isFile, hgone]

end

end

end Entry

/-- Without some files, the other ones are listed as before. -/
theorem Discovery.filter_below {lost : Contents → Prop} {e e' : Entry}
    (h : Entry.Without lost e e') (keep : List String → Bool)
    (hkeep : ∀ parts bytes, (parts, .file bytes) ∈ e.descendants → lost bytes →
      keep parts = false) : (below e).filter keep = (below e').filter keep :=
  filter_below_congr (h.filter_filePaths keep hkeep)

end DocCheck
