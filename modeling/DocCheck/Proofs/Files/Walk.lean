import Mathlib.Data.List.Nodup
import Mathlib.Data.List.Perm.Basic
import DocCheck.Proofs.Files.Listing

/-!
# Walking through directories

All that lies below a directory is listed, sorted by the names on the way and then
searched for sources. This comes to the same as a walk that takes the entries of
each directory by their names, leaves out at once what is excluded, with all that is
below it, takes sources as it comes by them and goes into the other directories.

Results:

* `pairwise_walk`, `walk_perm`: the walk takes the files that are taken, each before those with
  paths behind its own.
* `below_eq_walk`: so the files below a directory are those of the walk, in its order.
* `Entry.mem_descendants_of_follow`: what proper names lead to lies below.
* `files_eq_walk`: what paths stand for.
-/
namespace DocCheck

namespace Discovery

def byName (a b : String × Entry) : Bool := !(b.1 < a.1)

/-- What a walk takes at an entry of a directory, if `inside` is what it takes inside the entry. -/
def atEntry (name : String) (e : Entry) (inside : List (List String)) : List (List String) :=
  if excludedNames.contains name then []
  else if e.isFile then
    if (Source.dialect? (Path.suffixOf name)).isSome then [[name]] else []
  else inside.map (name :: ·)

/-- The source files that a walk through a directory takes, each as its path from there. -/
def walk : Entry → List (List String)
  | .file _ => []
  | .directory entries =>
    (entries.mergeSort byName).attach.flatMap fun p => atEntry p.1.1 p.1.2 (walk p.1.2)
termination_by e => sizeOf e
decreasing_by
  have hmem : p.1 ∈ entries := List.mem_mergeSort.mp p.2
  have hlt := List.sizeOf_lt_of_mem hmem
  rw [show sizeOf p.1 = 1 + sizeOf p.1.1 + sizeOf p.1.2 by cases p.1; rfl] at hlt
  simp only [Entry.directory.sizeOf_spec]
  omega

theorem walk_directory (entries : List (String × Entry)) :
    walk (.directory entries) =
      (entries.mergeSort byName).flatMap fun p => atEntry p.1 p.2 (walk p.2) := by
  simp only [walk, List.flatMap_subtype, List.unattach_attach]

/-! ## The order of the walk -/

theorem mem_atEntry {name : String} {e : Entry} {inside : List (List String)} {parts : List String}
    (h : parts ∈ atEntry name e inside) : ∃ rest, parts = name :: rest := by
  unfold atEntry at h
  split at h
  · cases h
  · split at h
    · split at h
      · exact ⟨[], List.mem_singleton.mp h⟩
      · cases h
    · obtain ⟨rest, -, rfl⟩ := List.mem_map.mp h
      exact ⟨rest, rfl⟩

theorem pairwise_atEntry {name : String} {e : Entry} {inside : List (List String)}
    (h : inside.Pairwise (· < ·)) : (atEntry name e inside).Pairwise (· < ·) := by
  unfold atEntry
  split
  · exact .nil
  · split
    · split
      · exact List.pairwise_singleton _ _
      · exact .nil
    · exact List.pairwise_map.mpr (h.imp fun h => List.cons_lt_cons_iff.mpr (.inr ⟨rfl, h⟩))

/-- Entries with different names are sorted strictly. -/
theorem pairwise_byName {entries : List (String × Entry)}
    (hdistinct : (entries.map Prod.fst).Nodup) :
    (entries.mergeSort byName).Pairwise fun a b => a.1 < b.1 := by
  have hsorted : (entries.mergeSort byName).Pairwise fun a b => byName a b = true :=
    List.pairwise_mergeSort
      (fun a b c hab hbc => by
        simp only [byName, Bool.not_eq_true', decide_eq_false_iff_not, String.not_lt] at *
        exact String.le_trans hab hbc)
      (fun a b => by
        simp only [byName, Bool.or_eq_true, Bool.not_eq_true', decide_eq_false_iff_not,
          String.not_lt]
        exact String.le_total a.1 b.1) _
  have hne : ((entries.mergeSort byName).map Prod.fst).Pairwise (· ≠ ·) :=
    ((List.mergeSort_perm _ _).map Prod.fst).nodup_iff.mpr hdistinct
  refine (hsorted.and (List.pairwise_map.mp hne)).imp fun ⟨hle, hne⟩ => ?_
  simp only [byName, Bool.not_eq_true', decide_eq_false_iff_not, String.not_lt] at hle
  exact Std.lt_of_le_of_ne hle hne

/-- The walk comes to the files in the order of their paths, and to each only once. -/
theorem pairwise_walk {e : Entry} (he : e.WellNamed) : (walk e).Pairwise (· < ·) := by
  induction he with
  | file bytes => rw [walk]; exact .nil
  | directory hdistinct _ _ ih =>
    rw [walk_directory, List.pairwise_flatMap]
    refine ⟨fun p hp => pairwise_atEntry (ih p (List.mem_mergeSort.mp hp)),
      (pairwise_byName hdistinct).imp fun hlt => ?_⟩
    intro parts hparts parts' hparts'
    obtain ⟨rest, rfl⟩ := mem_atEntry hparts
    obtain ⟨rest', rfl⟩ := mem_atEntry hparts'
    exact List.cons_lt_cons_iff.mpr (.inl hlt)

/-! ## The files of the walk -/

section

variable {name : String} {parts : List String}

theorem isTaken_of_excluded (h : excludedNames.contains name = true) :
    isTaken (name :: parts) = false := by
  simp only [isTaken, List.any_cons, h, Bool.true_or, Bool.not_true, Bool.false_and]

theorem isTaken_singleton (h : excludedNames.contains name = false) :
    isTaken [name] = (Source.dialect? (Path.suffixOf name)).isSome := by
  simp only [isTaken, List.any_cons, h, List.any_nil, Bool.or_false, Bool.not_false, Bool.true_and,
    List.getLast?_singleton, Option.getD_some]

theorem isTaken_cons (h : excludedNames.contains name = false) (hne : parts ≠ []) :
    isTaken (name :: parts) = isTaken parts := by
  obtain ⟨n, rest, rfl⟩ := List.exists_cons_of_ne_nil hne
  rw [isTaken, List.any_cons, h, Bool.false_or, List.getLast?_cons_cons, isTaken]

end

theorem ne_nil_of_mem_filePaths {e : Entry} {parts : List String} (h : parts ∈ e.filePaths) :
    parts ≠ [] := by
  obtain ⟨_, hd⟩ := Entry.mem_filePaths.mp h
  exact Entry.ne_nil_of_mem_descendants hd

/-- At an entry the walk takes those of its files that are taken. -/
theorem atEntry_perm {name : String} {e : Entry} {inside : List (List String)}
    (h : inside.Perm (e.filePaths.filter isTaken)) :
    (atEntry name e inside).Perm
      (((if e.isFile then [[name]] else []) ++ e.filePaths.map (name :: ·)).filter isTaken) := by
  unfold atEntry
  split
  · rename_i hexcluded
    rw [List.filter_eq_nil_iff.mpr]
    intro parts hparts
    have hname : ∃ rest, parts = name :: rest := by
      rcases List.mem_append.mp hparts with hfile | hbelow
      · split at hfile
        · exact ⟨[], List.mem_singleton.mp hfile⟩
        · cases hfile
      · obtain ⟨rest, -, rfl⟩ := List.mem_map.mp hbelow
        exact ⟨rest, rfl⟩
    obtain ⟨rest, rfl⟩ := hname
    rw [isTaken_of_excluded hexcluded]
    exact Bool.false_ne_true
  · rename_i hname
    rw [Bool.not_eq_true] at hname
    cases e with
    | file bytes =>
      rw [Entry.filePaths_file]
      simp only [Entry.isFile, if_true, List.map_nil, List.append_nil, List.filter_cons,
        List.filter_nil, isTaken_singleton hname]
      exact .refl _
    | directory entries =>
      have hfilter : ((Entry.directory entries).filePaths.filter (isTaken ∘ (name :: ·))) =
          (Entry.directory entries).filePaths.filter isTaken :=
        List.filter_congr fun parts hparts =>
          isTaken_cons hname (ne_nil_of_mem_filePaths hparts)
      simp only [Entry.isFile, Bool.false_eq_true, if_false, List.nil_append, List.filter_map,
        hfilter]
      exact h.map _

/-- The walk takes the files that are taken. -/
theorem walk_perm {e : Entry} (he : e.WellNamed) :
    (walk e).Perm (e.filePaths.filter isTaken) := by
  induction he with
  | file bytes => rw [walk, Entry.filePaths_file]; exact .refl _
  | @directory entries hdistinct _ _ ih =>
    rw [walk_directory, Entry.filePaths_directory, Entry.filePathsOf, List.filter_flatMap]
    exact ((List.mergeSort_perm _ _).flatMap_right _).trans
      (List.Perm.flatMap_left _ fun p hp => atEntry_perm (ih p hp))

/-- The files below a directory are those of the walk, in its order. -/
theorem below_eq_walk {e : Entry} (he : e.WellNamed) : below e = walk e := by
  have hwalk : (walk e).Pairwise Ordered := (pairwise_walk he).imp List.lt_asymm
  exact ((below_perm e).trans (walk_perm he).symm).eq_of_pairwise
    (fun _ _ _ _ => Ordered.antisymm) (pairwise_below e) hwalk

end Discovery

/-! ## What lies below a directory -/

namespace Entry

/-- What proper names lead to lies below. -/
theorem mem_descendants_of_follow {above : List Entry} {e d : Entry} {parts : List String}
    (h : follow above e parts = .ok d) (hne : parts ≠ []) (hparts : ∀ n ∈ parts, Path.IsName n) :
    (parts, d) ∈ descendants e := by
  induction parts generalizing above e with
  | nil => exact absurd rfl hne
  | cons name rest ih =>
    obtain ⟨entries, p, rfl, hstep, h⟩ := exists_step h
    obtain ⟨hname, hrest⟩ := List.forall_mem_cons.mp hparts
    unfold step? at hstep
    rw [if_neg (not_or.mpr ⟨hname.1, hname.2.1⟩), if_neg hname.2.2.1] at hstep
    obtain ⟨child, hchild, rfl⟩ := Option.map_eq_some_iff.mp hstep
    refine mem_descendantsOf.mpr ⟨name, child, mem_of_child hchild, ?_⟩
    cases rest with
    | nil =>
      cases h
      exact .inl ⟨rfl, rfl⟩
    | cons n ns => exact .inr ⟨n :: ns, rfl, ih h (List.cons_ne_nil n ns) hrest⟩

/-- What lies below a directory is what proper names lead to from there. -/
theorem mem_descendants_iff {root e d : Entry} {path : Path} {parts : List String}
    (hroot : WellNamed root) (h : root.disk (toString path) = .ok e) :
    (parts, d) ∈ descendants e ↔
      parts ≠ [] ∧ (∀ n ∈ parts, Path.IsName n) ∧
        root.disk (toString (path.below parts)) = .ok d := by
  constructor
  · intro hd
    have he : WellNamed e := follow_wellNamed (follow_of_disk h).2.2 hroot (by simp)
    exact ⟨ne_nil_of_mem_descendants hd, (follow_of_mem_descendants he hd []).2,
      disk_of_mem_descendants hroot h hd⟩
  · rintro ⟨hne, hparts, hd⟩
    obtain ⟨before, hbefore, hbelow⟩ := disk_below h hne hparts
    obtain ⟨above, hrest⟩ := follow_append hbefore
    rw [hbelow, hrest] at hd
    exact mem_descendants_of_follow hd hne hparts

end Entry

namespace Discovery

theorem isTaken_iff (path : Path) {parts : List String} (hne : parts ≠ []) :
    isTaken parts = true ↔ (∀ n ∈ parts, n ∉ excludedNames) ∧
      (Source.dialect? (path.below parts).suffix).isSome = true := by
  have hlast : (path.below parts).suffix = Path.suffixOf (parts.getLast?.getD "") := by
    rw [Path.suffix, Path.below, List.getLast?_append_of_ne_nil _ hne]
  rw [hlast, isTaken, Bool.and_eq_true, Bool.not_eq_true', List.any_eq_false]
  simp only [List.contains_iff_mem]

/-- The source files below a directory are the files with a supported suffix and no excluded name
on the way from the directory. -/
theorem mem_below_iff {root e : Entry} {path : Path} {parts : List String}
    (hroot : root.WellNamed) (h : root.disk (toString path) = .ok e) :
    parts ∈ below e ↔ parts ≠ [] ∧ (∀ n ∈ parts, Path.IsName n ∧ n ∉ excludedNames) ∧
      (∃ bytes, root.disk (toString (path.below parts)) = .ok (.file bytes)) ∧
      (Source.dialect? (path.below parts).suffix).isSome = true := by
  rw [(below_perm e).mem_iff, List.mem_filter, Entry.mem_filePaths]
  constructor
  · rintro ⟨⟨bytes, hd⟩, htaken⟩
    obtain ⟨hne, hnames, hd⟩ := (Entry.mem_descendants_iff hroot h).mp hd
    obtain ⟨hexcluded, hsuffix⟩ := (isTaken_iff path hne).mp htaken
    exact ⟨hne, fun n hn => ⟨hnames n hn, hexcluded n hn⟩, ⟨bytes, hd⟩, hsuffix⟩
  · rintro ⟨hne, hnames, ⟨bytes, hd⟩, hsuffix⟩
    exact ⟨⟨bytes, (Entry.mem_descendants_iff hroot h).mpr ⟨hne, fun n hn => (hnames n hn).1, hd⟩⟩,
      (isTaken_iff path hne).mpr ⟨fun n hn => (hnames n hn).2, hsuffix⟩⟩

theorem below_injective (path : Path) : Function.Injective path.below := by
  intro parts parts' h
  exact List.append_cancel_left (congrArg Path.parts h)

theorem files_directory {disk : Disk} {path : Path} {entries : List (String × Entry)}
    (h : disk (toString path) = .ok (.directory entries)) :
    files disk [path] = (below (.directory entries)).map path.below := by
  rw [files, List.flatMap_singleton, filesAt, h]

theorem files_file {disk : Disk} {path : Path} {contents : Contents}
    (h : disk (toString path) = .ok (.file contents)) : files disk [path] = [path] := by
  rw [files, List.flatMap_singleton, filesAt, h]

theorem files_eq_flatMap (disk : Disk) (paths : List Path) :
    files disk paths = paths.flatMap fun path => files disk [path] := by
  simp only [files, List.flatMap_singleton]

/-- A path of a directory stands for the files of the walk through it, in its order: each once, and
just those below it with a supported suffix and no excluded name on the way from the directory. A
path of a file stands for the file, whatever its name, and several paths stand for what they stand
for one after another. -/
theorem files_eq_walk (root : Entry) (hroot : root.WellNamed) :
    (∀ path entries, root.disk (toString path) = .ok (.directory entries) →
      files root.disk [path] = (walk (.directory entries)).map path.below ∧
      (files root.disk [path]).Nodup ∧
      ∀ file, file ∈ files root.disk [path] ↔ ∃ parts, file = path.below parts ∧ parts ≠ [] ∧
        (∀ n ∈ parts, Path.IsName n ∧ n ∉ excludedNames) ∧
        (∃ bytes, root.disk (toString file) = .ok (.file bytes)) ∧
        (Source.dialect? file.suffix).isSome = true) ∧
    (∀ path bytes, root.disk (toString path) = .ok (.file bytes) →
      files root.disk [path] = [path]) ∧
    ∀ paths, files root.disk paths = paths.flatMap fun path => files root.disk [path] := by
  refine ⟨fun path entries h => ?_, fun _ _ => files_file, files_eq_flatMap root.disk⟩
  have he : (Entry.directory entries).WellNamed :=
    Entry.follow_wellNamed (Entry.follow_of_disk h).2.2 hroot (by simp)
  have hnodup : (walk (.directory entries)).Nodup := by
    refine (pairwise_walk he).imp ?_
    rintro parts _ hlt rfl
    exact List.lt_irrefl parts hlt
  rw [files_directory h, below_eq_walk he]
  refine ⟨rfl, hnodup.map (below_injective path), fun file => ?_⟩
  rw [← below_eq_walk he, List.mem_map]
  constructor
  · rintro ⟨parts, hparts, rfl⟩
    exact ⟨parts, rfl, (mem_below_iff hroot h).mp hparts⟩
  · rintro ⟨parts, rfl, hparts⟩
    exact ⟨parts, (mem_below_iff hroot h).mpr hparts, rfl⟩

/-- Three sources, of which the last one stands behind those in directories whose names begin as its
own, one source in an excluded directory, and one file that is no source. -/
def built : List (String × Entry) :=
  [("a", .directory [("x.js", .file (some ⟨#[]⟩))]),
    ("a-b", .directory [("y.tsx", .file (some ⟨#[]⟩))]), ("a.js", .file (some ⟨#[]⟩)),
    ("dist", .directory [("z.js", .file (some ⟨#[]⟩))]), ("notes.md", .file (some ⟨#[]⟩))]

/-- A name that is excluded makes no difference where it stands before the directory. -/
theorem files_eq_walk_built :
    let root : Entry := .directory [("build", .directory built)]
    root.WellNamed ∧ root.disk "build" = .ok (.directory built) ∧
      files root.disk [⟨false, ["build"]⟩] =
        [["build", "a", "x.js"], ["build", "a-b", "y.tsx"],
          ["build", "a.js"]].map (⟨false, ·⟩) := by
  intro root
  have hinner : ∀ name, Path.IsName name →
      (Entry.directory [(name, .file (some ⟨#[]⟩))]).WellNamed :=
    fun name hname =>
      .directory (by simp) (by simpa using hname) (by simpa using .file (some ⟨#[]⟩))
  have hbuilt : (Entry.directory built).WellNamed := by
    refine .directory (by decide) (by decide) ?_
    simp only [built, List.forall_mem_cons, List.not_mem_nil, false_imp_iff, implies_true, and_true]
    exact ⟨hinner _ (by decide), hinner _ (by decide), .file _, hinner _ (by decide), .file _⟩
  have hroot : root.WellNamed := .directory (by decide) (by decide) (by simpa using hbuilt)
  have hdisk : root.disk "build" = .ok (.directory built) := rfl
  have hsorted : built.Pairwise fun a b => byName a b = true := by decide +kernel
  have hinside : ∀ name, walk (.directory [(name, .file (some ⟨#[]⟩))]) =
      atEntry name (.file (some ⟨#[]⟩)) [] := by
    intro name
    rw [walk_directory, List.mergeSort_singleton, List.flatMap_singleton, walk]
  have hwalk : walk (.directory built) = [["a", "x.js"], ["a-b", "y.tsx"], ["a.js"]] := by
    rw [walk_directory, List.mergeSort_of_pairwise hsorted]
    simp only [built, List.flatMap_cons, List.flatMap_nil, hinside]
    rfl
  obtain ⟨hfiles, -⟩ := (files_eq_walk root hroot).1 ⟨false, ["build"]⟩ built hdisk
  exact ⟨hroot, hdisk, by rw [hfiles, hwalk]; rfl⟩

end Discovery

end DocCheck
