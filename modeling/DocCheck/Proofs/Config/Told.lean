import Mathlib.Data.List.Basic
import DocCheck.Command.Run

/-!
# Errors of a configuration that are told

Whatever is wrong with a configuration is told, and the program exits with 2,
unless it fails before that can be said. There are three ways to fail: the bytes
of the file are no text, unknown keys cannot be put in order, or a whole number
is too long to be written. Nothing else fails, whatever the keys and values are.

Results:

* `isSome_sorted`: which values can be put in order.
* `Tellable`: what a mapping has to be so that it does not fail.
* `told_of_tellable`: the errors of a mapping of which all can be told.
* `resolve_of_not_sortable`, `resolve_of_not_sortable_annotations`: mappings that fail.
* `lint_told`: how a run with a configuration file goes on or ends.
* `lint_not_told`: keys of two sorts, a number that is too long, and bytes that are no text make the
  program fail.
-/
namespace DocCheck

/-! ## Values in order -/

namespace Value

/-- The values can be put in order: there is one at most, or all are of one family. -/
def Sortable (vs : List Value) : Prop :=
  vs.length ≤ 1 ∨ ∃ s, ∀ v ∈ vs, v.family? = some s

theorem isSome_sorted (vs : List Value) : (sorted? vs).isSome = true ↔ Sortable vs := by
  match vs with
  | [] => simp [sorted?, Sortable]
  | [v] => simp [sorted?, Sortable]
  | v :: w :: ws =>
    simp only [sorted?]
    cases hv : v.family? with
    | none => simp [Sortable, hv]
    | some s =>
      constructor
      · intro h
        dsimp only at h
        split at h
        · rename_i hall
          refine .inr ⟨s, fun u hu => ?_⟩
          rcases List.mem_cons.mp hu with rfl | hu
          · exact hv
          · simpa using List.all_eq_true.mp hall u hu
        · cases h
      · rintro (h | ⟨s', hs'⟩)
        · simp at h
        · have hs : s = s' := by simpa [hv] using hs' v (by simp)
          subst hs
          dsimp only
          rw [if_pos]
          · rfl
          · exact List.all_eq_true.mpr fun u hu => by simp [hs' u (List.mem_cons_of_mem _ hu)]

theorem mem_insertSorted {u v : Value} {vs : List Value} (h : u ∈ insertSorted v vs) :
    u = v ∨ u ∈ vs := by
  induction vs with
  | nil => exact .inl (List.mem_singleton.mp h)
  | cons w ws ih =>
    rw [insertSorted] at h
    split at h
    · exact List.mem_cons.mp h
    · rcases List.mem_cons.mp h with rfl | h
      · exact .inr List.mem_cons_self
      · exact (ih h).imp_right (List.mem_cons_of_mem _)

theorem mem_of_sorted {vs ws : List Value} (h : sorted? vs = some ws) {u : Value} (hu : u ∈ ws) :
    u ∈ vs := by
  have hfold : ∀ vs : List Value, u ∈ vs.foldr insertSorted [] → u ∈ vs := by
    intro vs hu
    induction vs with
    | nil => exact hu
    | cons v vs ih => exact List.mem_cons.mpr ((mem_insertSorted hu).imp_right ih)
  unfold sorted? at h
  split at h
  · cases h
    exact hu
  · cases h
    exact hu
  · split at h
    · cases h
    · split at h
      · cases h
        exact hfold _ hu
      · cases h

/-! ## Values that can be written -/

theorem areWritable_cons (v : Value) (vs : List Value) :
    areWritable (v :: vs) = (v.isWritable && areWritable vs) := rfl

theorem entriesWritable_cons (e : Value × Value) (es : List (Value × Value)) :
    entriesWritable (e :: es) = (e.1.isWritable && e.2.isWritable && entriesWritable es) := rfl

theorem areWritable_iff {vs : List Value} :
    areWritable vs = true ↔ ∀ v ∈ vs, v.isWritable = true := by
  induction vs with
  | nil => exact ⟨fun _ _ hv => absurd hv List.not_mem_nil, fun _ => rfl⟩
  | cons v vs ih => simp [areWritable_cons, ih]

theorem entriesWritable_iff {es : List (Value × Value)} :
    entriesWritable es = true ↔ ∀ e ∈ es, e.1.isWritable = true ∧ e.2.isWritable = true := by
  induction es with
  | nil => exact ⟨fun _ _ he => absurd he List.not_mem_nil, fun _ => rfl⟩
  | cons e es ih => simp [entriesWritable_cons, ih, and_assoc]

end Value

def Command.Plan.code? : Plan → Option Nat
  | .done outcome => some outcome.code
  | _ => none

namespace Config

open Value (Sortable)

/-! ## Errors of one value -/

/-- The error can be told, and the values that it shows can be written. -/
def Error.Tells (e : Error) : Prop := e.isTold = true ∧ ∀ v ∈ e.values, v.isWritable = true

theorem Error.Tells.told_eq {e : Error} (h : e.Tells) : e.told = e :=
  if_pos (Value.areWritable_iff.mpr h.2)

theorem bind_eq_error {α β : Type} {x : Except Error α} {f : α → Except Error β} {e : Error}
    (h : (x >>= f) = .error e) : x = .error e ∨ ∃ a, x = .ok a ∧ f a = .error e := by
  cases x with
  | error e' =>
    have he : e' = e := Except.error.inj h
    exact .inl (by rw [he])
  | ok a => exact .inr ⟨a, rfl, h⟩

/-- The keys of a mapping that are none of the names. -/
def unknown (names : List String) (entries : List (Value × Value)) : List Value :=
  (entries.map Prod.fst).filter fun k => !isNamed names k

theorem unknownKeys_of_not_sortable {names : List String} {entries : List (Value × Value)}
    (h : ¬ Sortable (unknown names entries)) :
    unknownKeys names entries = .error .incomparableKeys := by
  have hnone : Value.sorted? (unknown names entries) = none := by
    rw [← Option.not_isSome_iff_eq_none, Value.isSome_sorted]
    exact h
  rw [unknownKeys, ← unknown, hnone]

theorem exists_unknownKeys {names : List String} {entries : List (Value × Value)}
    (hw : Value.entriesWritable entries = true) (h : Sortable (unknown names entries)) :
    ∃ keys, unknownKeys names entries = .ok keys ∧ ∀ k ∈ keys, k.isWritable = true := by
  obtain ⟨keys, hkeys⟩ := Option.isSome_iff_exists.mp ((Value.isSome_sorted _).mpr h)
  refine ⟨keys, ?_, fun k hk => ?_⟩
  · rw [unknownKeys, ← unknown, hkeys]
  · have hmem : k ∈ entries.map Prod.fst :=
      List.mem_of_mem_filter (Value.mem_of_sorted hkeys hk)
    obtain ⟨entry, hentry, rfl⟩ := List.mem_map.mp hmem
    exact (Value.entriesWritable_iff.mp hw _ hentry).1

theorem exists_of_valueOf {name : String} {entries : List (Value × Value)} {v : Value}
    (h : valueOf? name entries = some v) : ∃ k, (k, v) ∈ entries := by
  induction entries with
  | nil => cases h
  | cons entry entries ih =>
    have hlater : valueOf? name entries = some v → ∃ k, (k, v) ∈ entry :: entries := by
      intro h
      obtain ⟨k, hk⟩ := ih h
      exact ⟨k, List.mem_cons_of_mem _ hk⟩
    unfold valueOf? at h
    split at h
    · cases h
    · rename_i hentry
      obtain ⟨rfl, rfl⟩ := List.cons.inj hentry
      split at h
      · cases h
        exact ⟨_, List.mem_cons_self⟩
      · exact hlater h
    · rename_i hentry
      obtain ⟨rfl, rfl⟩ := List.cons.inj hentry
      exact hlater h

theorem tells_of_resolveChoice {rule : RuleId} {v : Value} {e : Error}
    (hv : v.isWritable = true) (h : resolveChoice rule v = .error e) : e.Tells := by
  have he : e = .invalidChoice rule v := by
    unfold resolveChoice at h
    split at h
    · cases h
    · cases h
    · cases h
    · split at h
      · cases h
      · cases h
        rfl
    · cases h
      rfl
  subst he
  exact ⟨rfl, by simpa [Error.values] using hv⟩

theorem tells_of_resolveTags {entries : List (Value × Value)} {e : Error}
    (hw : Value.entriesWritable entries = true) (h : resolveTags entries = .error e) :
    e.Tells := by
  induction entries with
  | nil => cases h
  | cons entry entries ih =>
    obtain ⟨tag, value⟩ := entry
    rw [Value.entriesWritable_cons, Bool.and_eq_true, Bool.and_eq_true] at hw
    rw [resolveTags] at h
    split at h
    · cases h
      exact ⟨rfl, by simpa [Error.values] using hw.1⟩
    · rw [if_pos hw.1.1] at h
      obtain h | ⟨rest, -, h⟩ := bind_eq_error h
      · exact ih hw.2 h
      · cases h

theorem tells_of_resolveExtra {v : Value} {e : Error} (hv : v.isWritable = true)
    (h : resolveExtra v = .error e) : e.Tells := by
  unfold resolveExtra at h
  split at h
  · cases h
  · obtain h | ⟨tags, -, h⟩ := bind_eq_error h
    · exact tells_of_resolveTags hv h
    · cases h
  · cases h
    exact ⟨rfl, by simp [Error.values]⟩

theorem tells_of_resolvePreset {v : Value} {e : Error} (hv : v.isWritable = true)
    (h : resolvePreset v = .error e) : e.Tells := by
  have he : e = .invalidPreset v := by
    unfold resolvePreset at h
    split at h
    · cases h
    · split at h
      · cases h
      · cases h
        rfl
    · cases h
      rfl
  subst he
  exact ⟨rfl, by simpa [Error.values] using hv⟩

/-! ## Errors of a mapping -/

/-- The value of a named key, or nothing in its place, can be written. -/
theorem isWritable_getD {name : String} {entries : List (Value × Value)}
    (hw : Value.entriesWritable entries = true) :
    ((valueOf? name entries).getD .null).isWritable = true := by
  cases h : valueOf? name entries with
  | none => rfl
  | some v =>
    obtain ⟨k, hk⟩ := exists_of_valueOf h
    exact (Value.entriesWritable_iff.mp hw _ hk).2

/-- The keys that a mapping for the known tags may have. -/
def annotationKeys : List String := ["preset", "extra"]

theorem tells_of_resolveAnnotations {v : Value} {e : Error} (hv : v.isWritable = true)
    (hs : ∀ inner, v = .map inner → Sortable (unknown annotationKeys inner))
    (h : resolveAnnotations v = .error e) : e.Tells := by
  -- a mapping, three values that stand for no error, the name of a preset, and all else
  unfold resolveAnnotations at h
  split at h
  · rename_i inner
    have hinner : Value.entriesWritable inner = true := hv
    obtain ⟨keys, hkeys, hwritable⟩ := exists_unknownKeys hinner (hs inner rfl)
    rw [← annotationKeys, hkeys] at h
    obtain h | ⟨keys', hkeys', h⟩ := bind_eq_error h
    · cases h
    cases hkeys'
    split at h
    · obtain h | ⟨preset, -, h⟩ := bind_eq_error h
      · exact tells_of_resolvePreset (isWritable_getD hinner) h
      · obtain h | ⟨extra, -, h⟩ := bind_eq_error h
        · exact tells_of_resolveExtra (isWritable_getD hinner) h
        · cases h
    · cases h
      exact ⟨rfl, hwritable⟩
  · cases h
  · cases h
  · cases h
  · split at h
    · cases h
    · cases h
      exact ⟨rfl, fun v hv => List.mem_singleton.mp hv ▸ rfl⟩
  · cases h
    exact ⟨rfl, by simpa [Error.values] using hv⟩

def optionNames : List String := RuleId.all.map RuleId.name

/-- What a mapping has to be so that whatever is wrong with it can be told: unknown keys are in
order, on top and under the known tags, and no whole number is too long to be written. -/
structure Tellable (entries : List (Value × Value)) : Prop where
  top : Sortable (unknown optionNames entries)
  annotations : ∀ inner, valueOf? RuleId.checkAnnotations.name entries = some (.map inner) →
    Sortable (unknown annotationKeys inner)
  writable : Value.entriesWritable entries = true

variable {entries : List (Value × Value)} {e : Error}

theorem tells_of_resolveRule (ht : Tellable entries) {rule : RuleId}
    (h : resolveRule entries rule = .error e) : e.Tells := by
  unfold resolveRule at h
  split at h
  · cases h
  · rename_i v hvalue
    obtain ⟨k, hk⟩ := exists_of_valueOf hvalue
    have hv := (Value.entriesWritable_iff.mp ht.writable _ hk).2
    split at h
    · rename_i hrule
      subst hrule
      exact tells_of_resolveAnnotations hv (fun inner he => ht.annotations inner (he ▸ hvalue)) h
    · exact tells_of_resolveChoice hv h

theorem tells_of_resolveRules (ht : Tellable entries) {rules : List RuleId}
    (h : resolveRules entries rules = .error e) : e.Tells := by
  induction rules with
  | nil => cases h
  | cons rule rules ih =>
    rw [resolveRules] at h
    obtain h | ⟨choice, -, h⟩ := bind_eq_error h
    · exact tells_of_resolveRule ht h
    · obtain h | ⟨rest, -, h⟩ := bind_eq_error h
      · exact ih h
      · split at h <;> cases h

theorem tells_of_resolveEntries (ht : Tellable entries)
    (h : resolveEntries entries = .error e) : e.Tells := by
  obtain ⟨keys, hkeys, hwritable⟩ := exists_unknownKeys ht.writable ht.top
  unfold resolveEntries at h
  rw [← optionNames, hkeys] at h
  obtain h | ⟨keys', hkeys', h⟩ := bind_eq_error h
  · cases h
  cases hkeys'
  split at h
  · obtain h | ⟨choices, -, h⟩ := bind_eq_error h
    · exact tells_of_resolveRules ht h
    · dsimp only at h
      split at h
      · cases h
        exact ⟨rfl, by simp [Error.values]⟩
      · cases h
  · cases h
    exact ⟨rfl, hwritable⟩

/-- A mapping of which all can be told gives a configuration or an error that is told. -/
theorem told_of_tellable (ht : Tellable entries) :
    (∃ config, resolve entries = .ok config) ∨
      ∃ e, resolve entries = .error e ∧ e.isTold = true := by
  unfold resolve
  cases h : resolveEntries entries with
  | ok config => exact .inl ⟨config, rfl⟩
  | error e =>
    have he := tells_of_resolveEntries ht h
    refine .inr ⟨e, ?_, he.1⟩
    show Except.error e.told = .error e
    rw [he.told_eq]

/-- Unknown options that cannot be put in order are not told. -/
theorem resolve_of_not_sortable (h : ¬ Sortable (unknown optionNames entries)) :
    resolve entries = .error .incomparableKeys := by
  rw [resolve, resolveEntries, ← optionNames, unknownKeys_of_not_sortable h]
  rfl

/-- Unknown keys under the known tags that cannot be put in order are not told. -/
theorem resolve_of_not_sortable_annotations {inner : List (Value × Value)}
    (htop : unknown optionNames entries = [])
    (hv : valueOf? RuleId.checkAnnotations.name entries = some (.map inner))
    (h : ¬ Sortable (unknown annotationKeys inner)) :
    resolve entries = .error .incomparableKeys := by
  have htopKeys : unknownKeys optionNames entries = .ok [] := by
    rw [unknownKeys, ← unknown, htop, Value.sorted?]
  have hannotations : resolveAnnotations (.map inner) = .error .incomparableKeys := by
    rw [resolveAnnotations, ← annotationKeys, unknownKeys_of_not_sortable h]
    rfl
  have hrule : resolveRule entries .checkAnnotations = .error .incomparableKeys := by
    rw [resolveRule, hv]
    exact hannotations
  have hrules : resolveRules entries RuleId.all = .error .incomparableKeys := by
    rw [RuleId.all, resolveRules, hrule]
    rfl
  rw [resolve, resolveEntries, ← optionNames, htopKeys]
  show (resolveRules entries RuleId.all >>= _).mapError Error.told = _
  rw [hrules]
  rfl

/-! ## Errors of a file -/

/-- The bytes of the file that configures a run, if there is one that can be read. -/
def source? (disk : Disk) (named : Option Path) : Option ByteArray :=
  match disk ((named.map toString).getD defaultName) with
  | .ok (.file contents) => contents
  | _ => none

/-- The reader gives every text a value or rejects it as malformed: it fails at none. -/
def Reader.GivesOrRejects (reader : Reader) : Prop :=
  ∀ text e, reader text = .error e → ∃ detail, e = .malformed detail

/-- What a reader makes of the text of a file. -/
def read (reader : Reader) (text : String) : Except ReadError Value :=
  reader (String.ofList (Text.unifyNewlines text.toList))

theorem isTold_of_section {v : Value} {e : LoadError} (h : section? v = .error e) :
    e.isTold = true := by
  unfold section? at h
  split at h
  · split at h
    · cases h
    · cases h
    · cases h
      rfl
  · cases h
    rfl

/-- A text gives a configuration or an error that is told, unless the mapping in it is not
such that all can be told. -/
theorem ofText_told {reader : Reader} (hreader : reader.GivesOrRejects) (text : String) :
    (∃ config, ofText reader text = .ok config) ∨
      (∃ e, ofText reader text = .error e ∧ e.isTold = true) ∨
        ∃ v options e, read reader text = .ok v ∧ section? v = .ok options ∧
          ¬ Tellable options ∧ e.isTold = false ∧ ofText reader text = .error (.options e) := by
  have hread : reader (String.ofList (Text.unifyNewlines text.toList)) = read reader text := rfl
  unfold ofText
  rw [hread]
  split
  · rename_i e hread
    obtain ⟨detail, rfl⟩ := hreader _ e hread
    exact .inr (.inl ⟨_, rfl, rfl⟩)
  · exact .inl ⟨_, rfl⟩
  · rename_i v _ hread
    cases hsection : section? v with
    | error e => exact .inr (.inl ⟨e, rfl, isTold_of_section hsection⟩)
    | ok options =>
      cases hresolve : resolve options with
      | ok config => exact .inl ⟨config, by simp [hresolve, bind, Except.bind]⟩
      | error e =>
        cases htold : e.isTold with
        | true =>
          exact .inr (.inl ⟨.options e, by simp [hresolve, bind, Except.bind], htold⟩)
        | false =>
          refine .inr (.inr ⟨v, options, e, hread, hsection, fun ht => ?_, htold,
            by simp [hresolve, bind, Except.bind]⟩)
          obtain ⟨config, h⟩ | ⟨e', h, htold'⟩ := told_of_tellable ht
          · rw [hresolve] at h
            cases h
          · rw [hresolve] at h
            cases h
            rw [htold] at htold'
            cases htold'

section

variable (reader : Reader) {disk : Disk} {bytes : ByteArray}

theorem ofFile_of_file {path : String} (h : disk path = .ok (.file (some bytes)))
    (shown : String) :
    (String.fromUTF8? bytes = none → ofFile reader disk path shown = .error .isNoText) ∧
      ∀ text, String.fromUTF8? bytes = some text →
        ofFile reader disk path shown = (ofText reader text).mapError (.load shown) := by
  refine ⟨fun hnone => ?_, fun text htext => ?_⟩
  · rw [ofFile, h]
    dsimp only
    rw [hnone]
  · rw [ofFile, h]
    dsimp only
    rw [htext]
    dsimp only
    cases ofText reader text <;> rfl

/-- The configuration of a run is that of the file, whose errors are shown with some path. -/
theorem exists_find {named : Option Path} (hfile : source? disk named = some bytes)
    (directory : Path) : ∃ shown,
    (String.fromUTF8? bytes = none → find reader disk named directory = .error .isNoText) ∧
      ∀ text, String.fromUTF8? bytes = some text →
        find reader disk named directory = (ofText reader text).mapError (.load shown) := by
  unfold source? at hfile
  split at hfile
  · rename_i hdisk
    rw [hfile] at hdisk
    cases named with
    | some path => exact ⟨_, ofFile_of_file reader hdisk _⟩
    | none =>
      have hdefault : disk defaultName = .ok (.file (some bytes)) := hdisk
      refine ⟨toString (directory.below [defaultName]), ?_⟩
      rw [find, hdefault]
      exact ofFile_of_file reader hdefault _
  · cases hfile

end

/-! ## Runs -/

section

variable (parser : Source.Parser) {reader : Reader} {disk : Disk} {named : Option Path}
  {directory : Path} {format : Option Command.Format} {strict : Bool} {paths : List Path}

theorem plan_of_find_ok {config : Config} (h : find reader disk named directory = .ok config) :
    (Command.Request.lint named format strict paths).plan parser reader disk directory =
      .report (Lint.run parser disk config paths) config format strict := by
  rw [Command.Request.plan, h]

theorem plan_of_find_error {e : FileError} (h : find reader disk named directory = .error e) :
    (Command.Request.lint named format strict paths).plan parser reader disk directory =
      (e.message?.map Command.error).getD (.failure e) := by
  rw [Command.Request.plan, h]
  dsimp only
  cases e.message? <;> rfl

end

theorem message_of_isTold {e : LoadError} (h : e.isTold = true) (shown : String) :
    (FileError.load shown e).message? = some ("Invalid configuration: " ++ e.message shown) :=
  if_pos h

theorem message_of_not_isTold {e : LoadError} (h : e.isTold = false) (shown : String) :
    (FileError.load shown e).message? = none := if_neg (by simp [h])

/-- Every mapping gives a configuration or an error that is told if all can be told of it; unknown
keys that cannot be put in order fail it, on top or under the known tags. When the reader gives
every text a value or rejects it, a run with a file goes on with its configuration, or tells the
error and exits with 2, unless the bytes are no text or the mapping in it fails. -/
theorem lint_told (parser : Source.Parser) :
    (∀ entries : List (Value × Value),
      (Tellable entries → (∃ config, resolve entries = .ok config) ∨
          ∃ e, resolve entries = .error e ∧ e.isTold = true) ∧
      (¬ Sortable (unknown optionNames entries) → resolve entries = .error .incomparableKeys) ∧
      ∀ inner, unknown optionNames entries = [] →
        valueOf? RuleId.checkAnnotations.name entries = some (.map inner) →
        ¬ Sortable (unknown annotationKeys inner) →
        resolve entries = .error .incomparableKeys) ∧
    ∀ reader : Reader, reader.GivesOrRejects → ∀ disk named bytes,
      source? disk named = some bytes → ∀ directory format strict paths,
      let plan := (Command.Request.lint named format strict paths).plan parser reader disk directory
      (∃ config, find reader disk named directory = .ok config ∧
          plan = .report (Lint.run parser disk config paths) config format strict) ∨
        (∃ message,
          plan = .done ⟨2, "", "Error: " ++ ("Invalid configuration: " ++ message) ++ "\n"⟩) ∨
        (String.fromUTF8? bytes = none ∧ plan = .failure .isNoText) ∨
        ∃ text v options e shown, String.fromUTF8? bytes = some text ∧
          read reader text = .ok v ∧ section? v = .ok options ∧ ¬ Tellable options ∧
          plan = .failure (.load shown (.options e)) := by
  refine ⟨fun _ => ⟨told_of_tellable, resolve_of_not_sortable,
    fun _ => resolve_of_not_sortable_annotations⟩, ?_⟩
  intro reader hreader disk named bytes hfile directory format strict paths plan
  obtain ⟨shown, hnone, hsome⟩ := exists_find reader hfile directory
  cases htext : String.fromUTF8? bytes with
  | none => exact .inr (.inr (.inl ⟨rfl, plan_of_find_error parser (hnone htext)⟩))
  | some text =>
    have hfind := hsome text htext
    obtain ⟨config, h⟩ | ⟨e, h, htold⟩ | ⟨v, options, e, hread, hsection, ht, htold, h⟩ :=
      ofText_told hreader text
    · rw [h] at hfind
      exact .inl ⟨config, hfind, plan_of_find_ok parser hfind⟩
    · rw [h] at hfind
      refine .inr (.inl ⟨e.message shown, (plan_of_find_error parser hfind).trans ?_⟩)
      rw [message_of_isTold htold]
      rfl
    · rw [h] at hfind
      have htold : (LoadError.options e).isTold = false := htold
      refine .inr (.inr (.inr ⟨text, v, options, e, shown, rfl, hread, hsection, ht,
        (plan_of_find_error parser hfind).trans ?_⟩))
      rw [message_of_not_isTold htold]
      rfl

/-- The disk of a directory that holds a configuration file of some bytes. -/
def diskOfBytes (bytes : ByteArray) : Disk :=
  (Entry.directory [(defaultName, .file (some bytes))]).disk

theorem source_diskOfBytes (bytes : ByteArray) : source? (diskOfBytes bytes) none = some bytes :=
  rfl

/-- The reader that knows one text only. -/
def readerOf (known : String) (v : Value) : Reader := fun text =>
  if text = known then .ok v else .error (.malformed "")

theorem givesOrRejects_readerOf (known : String) (v : Value) :
    (readerOf known v).GivesOrRejects := by
  intro text e h
  unfold readerOf at h
  split at h
  · cases h
  · cases h
    exact ⟨_, rfl⟩

/-- The law holds of a file with an unknown option: the run exits with 2. -/
theorem lint_told_unknownOption :
    let reader := readerOf "foo: 1\n" (.map [(.str "foo", .int 1)])
    reader.GivesOrRejects ∧ (∃ e, resolve [(.str "foo", .int 1)] = .error e ∧ e.isTold = true) ∧
      ∃ message,
        (Command.Request.lint none none false []).plan (fun _ => none) reader
            (diskOfBytes "foo: 1\n".toUTF8) ⟨false, []⟩ =
          .done ⟨2, "", "Error: " ++ ("Invalid configuration: " ++ message) ++ "\n"⟩ := by
  intro reader
  have hreader : reader.GivesOrRejects := givesOrRejects_readerOf _ _
  have htellable : Tellable [(.str "foo", .int 1)] := by
    refine ⟨.inl (by decide +kernel), fun inner h => ?_, by decide +kernel⟩
    cases h
  have hplan : ((Command.Request.lint none none false []).plan (fun _ => none) reader
      (diskOfBytes "foo: 1\n".toUTF8) ⟨false, []⟩).code? = some 2 := by decide +kernel
  obtain ⟨hmapping, hrun⟩ := lint_told fun _ => none
  refine ⟨hreader, ?_, ?_⟩
  · obtain ⟨config, h⟩ | h := (hmapping _).1 htellable
    · cases h
    · exact h
  · obtain ⟨config, -, h⟩ | h | ⟨-, h⟩ | ⟨_, _, _, _, _, -, -, -, -, h⟩ :=
      hrun reader hreader _ none _ (source_diskOfBytes "foo: 1\n".toUTF8) ⟨false, []⟩ none false []
    · rw [h] at hplan
      cases hplan
    · exact h
    · rw [h] at hplan
      cases hplan
    · rw [h] at hplan
      cases hplan

/-- Keys of two sorts, a whole number of 4301 digits, and bytes that are no text: the configuration
is not told of, and the run does not exit with 2. -/
theorem lint_not_told :
    let entries : List (Value × Value) := [(.int 1, .str "a"), (.str "foo", .str "b")]
    let reader := readerOf "1: a\nfoo: b\n" (.map entries)
    let plan := (Command.Request.lint none none false []).plan (fun _ => none) reader
    reader.GivesOrRejects ∧ resolve entries = .error .incomparableKeys ∧
      resolve [(.str "checkTypes", .int (.ofNat (Nat.pow 10 4300)))] = .error .tooManyDigits ∧
      (plan (diskOfBytes "1: a\nfoo: b\n".toUTF8) ⟨false, []⟩).code? = none ∧
      plan (diskOfBytes ⟨#[0xff]⟩) ⟨false, []⟩ = .failure .isNoText := by
  have hlong : Value.isWritable (.int (.ofNat (Nat.pow 10 4300))) = false := by decide +kernel
  have hentries : ∀ n, resolveEntries [(.str "checkTypes", .int n)] =
      .error (.invalidChoice .checkTypes (.int n)) := fun _ => rfl
  refine ⟨givesOrRejects_readerOf _ _, rfl, ?_, by decide +kernel, ?_⟩
  · rw [resolve, hentries]
    show Except.error (Error.told _) = _
    have hvalues : Value.areWritable [.int (.ofNat (Nat.pow 10 4300))] = false := by
      rw [Value.areWritable_cons, hlong, Bool.false_and]
    rw [Error.told, Error.values, hvalues, if_neg Bool.false_ne_true]
  · obtain ⟨_, hnone, -⟩ := exists_find _ (source_diskOfBytes ⟨#[0xff]⟩) ⟨false, []⟩
    exact plan_of_find_error _ (hnone (by decide +kernel))

end Config

end DocCheck
