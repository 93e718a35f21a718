import Mathlib.Data.List.Basic
import DocCheck.Proofs.Comment.TagParts
import DocCheck.Rule.Params

/-!
# Tags that take a position

Tags of parameters go with the declared parameters by position, except those that describe
a property of a parameter. The walk over the tags tells these by the names that it keeps of
the tags that took a position. Only a name without a dot can stand before the first dot of
another one, and a tag of such a name always takes a position. So the kept names tell of
all tags before: a tag takes a position unless some tag before it, whether that takes one
or not, has the name of its owner. Tags that take no position can then be left out or put
in, and the others keep theirs.

Results:

* `ownerOf_eq_some`: the owner of a dotted name stands before its first dot.
* `describes_step`: what a tag does to the kept names, and whether it takes a position.
* `positionalIn_eq`: the tags that take a position, by the tags before each.
* `positionalIn_kept`: tags that take no position may be left out.
* `positions_taken`: which tags take a position, and which do not matter.
-/
namespace DocCheck

/-! ## Owners -/

namespace Rule

theorem ownerOf_of_split {name : String} {before after : List Char}
    (h : name.toList = before ++ '.' :: after) (hbefore : '.' ∉ before) :
    ownerOf? name = some (String.ofList before) := by
  have hne : ∀ c ∈ before, decide (c ≠ '.') = true := fun c hc =>
    decide_eq_true fun he => hbefore (he ▸ hc)
  rw [ownerOf?, if_pos (by simp [h]), h, List.takeWhile_append_of_pos hne,
    List.takeWhile_cons_of_neg (by simp), List.append_nil]

/-- The owner of a dotted name stands before its first dot. -/
theorem ownerOf_eq_some {name owner : String} :
    ownerOf? name = some owner ↔
      '.' ∉ owner.toList ∧ ∃ property, name = owner ++ "." ++ property := by
  constructor
  · intro h
    have hdot : '.' ∈ name.toList := by
      by_contra hdot
      rw [ownerOf?, if_neg (by simpa using hdot)] at h
      cases h
    obtain ⟨before, after, hname, hbefore⟩ := List.eq_append_cons_of_mem hdot
    rw [ownerOf_of_split hname hbefore] at h
    cases h
    refine ⟨by rwa [String.toList_ofList], String.ofList after, String.toList_inj.mp ?_⟩
    simp [hname]
  · rintro ⟨howner, property, rfl⟩
    have hname : (owner ++ "." ++ property).toList = owner.toList ++ '.' :: property.toList := by
      simp
    rw [ownerOf_of_split hname howner, String.ofList_toList]

end Rule

namespace Tag

variable {t : Tag} {earlier : List Tag}

/-- The tag describes a property of what an earlier tag of a parameter names: the name of that tag
stands before the first dot of its own. -/
def IsProperty (earlier : List Tag) (t : Tag) : Prop :=
  ∃ owner property, t.paramName = some (owner ++ "." ++ property) ∧ '.' ∉ owner.toList ∧
    ∃ e ∈ earlier, e.name = "param" ∧ e.paramName = some owner

theorem isProperty_iff : t.IsProperty earlier ↔
    ∃ owner ∈ t.paramName.bind Rule.ownerOf?,
      ∃ e ∈ earlier, e.name = "param" ∧ e.paramName = some owner := by
  constructor
  · rintro ⟨owner, property, hname, howner, he⟩
    refine ⟨owner, ?_, he⟩
    rw [hname, Option.bind_some]
    exact Rule.ownerOf_eq_some.mpr ⟨howner, property, rfl⟩
  · rintro ⟨owner, howner, he⟩
    obtain ⟨name, hname, howner⟩ := Option.bind_eq_some_iff.mp howner
    obtain ⟨hdot, property, rfl⟩ := Rule.ownerOf_eq_some.mp howner
    exact ⟨owner, property, hname, hdot, he⟩

instance : Decidable (t.IsProperty earlier) := decidable_of_iff _ isProperty_iff.symm

/-- The tag is one of a parameter, and describes no property of what an earlier one names. -/
def TakesPosition (earlier : List Tag) (t : Tag) : Prop :=
  t.name = "param" ∧ ¬ t.IsProperty earlier

instance : Decidable (t.TakesPosition earlier) := inferInstanceAs (Decidable (_ ∧ ¬ _))

end Tag

/-- The name of a parameter is not empty in a comment that was read. -/
theorem Comment.paramName_ne_of_mem {raw : String} {start : Location} :
    ∀ t ∈ (parse raw start).tags, t.paramName ≠ some "" := by
  intro t ht
  obtain ⟨_, _, _, _, _, hparts⟩ := ((isRead_parse raw start).tags t ht).exists_parts
  exact hparts.paramName_ne

namespace Rule

/-! ## One tag -/

variable {described described' : List String} {earlier : List Tag} {t : Tag}

/-- The kept names are those of earlier tags of parameters, as far as names without a dot go. -/
def Describes (described : List String) (earlier : List Tag) : Prop :=
  ∀ owner : String, '.' ∉ owner.toList →
    (owner ∈ described ↔ ∃ e ∈ earlier, e.name = "param" ∧ e.paramName = some owner)

/-- The tags that take a position among the tags of a comment. -/
def positionalIn (described : List String) (ts : List Tag) : List Tag :=
  positionalFrom described (ts.filter fun t => t.name = "param")

theorem describes_nil : Describes [] [] := fun _ _ => by simp

/-- A tag that no dotless name belongs to leaves no name that counts. -/
theorem Describes.pass (h : Describes described earlier)
    (ht : ∀ owner : String, '.' ∉ owner.toList → t.name = "param" → t.paramName ≠ some owner) :
    Describes described (earlier ++ [t]) := by
  intro owner howner
  rw [h owner howner]
  constructor
  · rintro ⟨e, he, hparam⟩
    exact ⟨e, List.mem_append_left _ he, hparam⟩
  · rintro ⟨e, he, hparam, hname⟩
    rcases List.mem_append.mp he with he | he
    · exact ⟨e, he, hparam, hname⟩
    · obtain rfl : e = t := List.mem_singleton.mp he
      exact absurd hname (ht owner howner hparam)

theorem Describes.add {name : String} (h : Describes described earlier) (ht : t.name = "param")
    (hname : t.paramName = some name) : Describes (name :: described) (earlier ++ [t]) := by
  intro owner howner
  rw [List.mem_cons, h owner howner]
  constructor
  · rintro (rfl | ⟨e, he, hparam⟩)
    · exact ⟨t, by simp, ht, hname⟩
    · exact ⟨e, List.mem_append_left _ he, hparam⟩
  · rintro ⟨e, he, hparam⟩
    rcases List.mem_append.mp he with he | he
    · exact .inr ⟨e, he, hparam⟩
    · obtain rfl : e = t := List.mem_singleton.mp he
      exact .inl (Option.some.inj (hparam.2.symm.trans hname))

/-- A tag that takes no position leaves no name that counts. -/
theorem Describes.pass_of_not_takesPosition (h : Describes described earlier)
    (ht : ¬ t.TakesPosition earlier) : Describes described (earlier ++ [t]) := by
  refine h.pass fun owner howner hparam hname => ht ⟨hparam, ?_⟩
  rintro ⟨owner', property, hname', -, -⟩
  rw [hname, Option.some_inj] at hname'
  exact howner (by simp [hname'])

/-- A tag of a parameter takes a position as the tags before it say, and its name is kept if it
may count. -/
theorem describes_param (h : Describes described earlier) (hparam : t.name = "param")
    (hne : t.paramName ≠ some "") :
    ∃ described', Describes described' (earlier ++ [t]) ∧ ∀ ts,
      positionalFrom described (t :: ts) =
        (if t.TakesPosition earlier then [t] else []) ++ positionalFrom described' ts := by
  cases hname : t.paramName with
  | none =>
    have htakes : t.TakesPosition earlier := ⟨hparam, by simp [Tag.isProperty_iff, hname]⟩
    refine ⟨described, h.pass fun _ _ _ => by simp [hname], fun ts => ?_⟩
    rw [if_pos htakes, positionalFrom, hname]
    rfl
  | some name =>
    cases howner : ownerOf? name with
    | none =>
      have htakes : t.TakesPosition earlier :=
        ⟨hparam, by simp [Tag.isProperty_iff, hname, howner]⟩
      have hempty : name ≠ "" := fun he => hne (he ▸ hname)
      refine ⟨name :: described, h.add hparam hname, fun ts => ?_⟩
      simp only [if_pos htakes, positionalFrom, hname, howner, if_neg hempty]
      rfl
    | some owner =>
      have hproperty : t.IsProperty earlier ↔ owner ∈ described := by
        rw [h owner (ownerOf_eq_some.mp howner).1]
        simp [Tag.isProperty_iff, hname, howner]
      by_cases hmem : owner ∈ described
      · have htakes : ¬ t.TakesPosition earlier := fun ht => ht.2 (hproperty.mpr hmem)
        refine ⟨described, h.pass_of_not_takesPosition htakes, fun ts => ?_⟩
        simp only [if_neg htakes, positionalFrom, hname, howner,
          List.contains_iff_mem.mpr hmem, if_true]
        rfl
      · have htakes : t.TakesPosition earlier := ⟨hparam, fun hp => hmem (hproperty.mp hp)⟩
        have hcontains : ¬ described.contains owner = true := fun hc =>
          hmem (List.contains_iff_mem.mp hc)
        refine ⟨name :: described, h.add hparam hname, fun ts => ?_⟩
        simp only [if_pos htakes, positionalFrom, hname, howner, if_neg hcontains]
        rfl

/-- What a tag does to the kept names, and whether it takes a position. -/
theorem describes_step (h : Describes described earlier) (hne : t.paramName ≠ some "") :
    ∃ described', Describes described' (earlier ++ [t]) ∧ ∀ ts,
      positionalIn described (t :: ts) =
        (if t.TakesPosition earlier then [t] else []) ++ positionalIn described' ts := by
  by_cases hparam : t.name = "param"
  · obtain ⟨described', h', hstep⟩ := describes_param h hparam hne
    refine ⟨described', h', fun ts => ?_⟩
    rw [positionalIn, List.filter_cons_of_pos (by simpa using hparam), hstep]
    rfl
  · have htakes : ¬ t.TakesPosition earlier := fun ht => hparam ht.1
    refine ⟨described, h.pass_of_not_takesPosition htakes, fun ts => ?_⟩
    rw [positionalIn, List.filter_cons_of_neg (by simpa using hparam), if_neg htakes]
    rfl

/-! ## All tags -/

/-- The tags that take a position, by the tags before each. -/
theorem positionalIn_eq {ts : List Tag} (h : Describes described earlier)
    (hts : ∀ t ∈ ts, t.paramName ≠ some "") :
    positionalIn described ts =
      ((ts.zipIdx earlier.length).filter fun p =>
        p.1.TakesPosition ((earlier ++ ts).take p.2)).map Prod.fst := by
  induction ts generalizing described earlier with
  | nil => rfl
  | cons t ts ih =>
    obtain ⟨described', h', hstep⟩ := describes_step h (hts t (by simp))
    have hrest := ih h' fun u hu => hts u (by simp [hu])
    rw [List.length_append, List.append_assoc] at hrest
    rw [hstep, hrest, List.zipIdx_cons, List.filter_cons, List.take_left]
    by_cases htakes : t.TakesPosition earlier <;> simp [htakes]

/-- Tags that take no position may be left out: the others take theirs. -/
theorem positionalIn_kept {ts : List Tag} (keep : Nat → Bool) (h : Describes described earlier)
    (h' : Describes described' earlier) (hts : ∀ t ∈ ts, t.paramName ≠ some "")
    (hkeep : ∀ p ∈ ts.zipIdx earlier.length,
      p.1.TakesPosition ((earlier ++ ts).take p.2) → keep p.2 = true) :
    positionalIn described' (((ts.zipIdx earlier.length).filter fun p => keep p.2).map Prod.fst) =
      positionalIn described ts := by
  induction ts generalizing described described' earlier with
  | nil => rfl
  | cons t ts ih =>
    obtain ⟨after, hafter, hstep⟩ := describes_step h (hts t (by simp))
    -- the names kept without the tags that are left out tell of all tags before as well
    have hrest : ∀ {kept}, Describes kept (earlier ++ [t]) →
        positionalIn kept
          (((ts.zipIdx (earlier.length + 1)).filter fun p => keep p.2).map Prod.fst) =
            positionalIn after ts := fun hkept => by
      have hrest := ih hafter hkept (fun u hu => hts u (by simp [hu])) fun p hp htakes => by
        rw [List.length_append] at hp
        rw [List.append_assoc] at htakes
        exact hkeep p (List.mem_cons_of_mem _ hp) htakes
      rwa [List.length_append] at hrest
    rw [List.zipIdx_cons, List.filter_cons, hstep]
    by_cases hk : keep earlier.length = true
    · obtain ⟨after', hafter', hstep'⟩ := describes_step h' (hts t (by simp))
      rw [if_pos hk, List.map_cons, hstep', hrest hafter']
    · have htakes : ¬ t.TakesPosition earlier := fun htakes =>
        hk (hkeep (t, earlier.length) (by simp [List.zipIdx_cons]) (by simpa using htakes))
      rw [if_neg hk, if_neg htakes, hrest (h'.pass_of_not_takesPosition htakes), List.nil_append]

theorem filter_zipIdx_ne {α : Type} (before after : List α) (x : α) :
    ((before ++ x :: after).zipIdx.filter fun p => p.2 ≠ before.length).map Prod.fst =
      before ++ after := by
  have hbefore : ∀ p ∈ before.zipIdx, decide (p.2 ≠ before.length) = true := fun p hp => by
    have hlt := List.snd_lt_of_mem_zipIdx hp
    exact decide_eq_true (by omega)
  have hafter : ∀ p ∈ after.zipIdx (before.length + 1), decide (p.2 ≠ before.length) = true :=
    fun p hp => by
      have hle := List.le_snd_of_mem_zipIdx hp
      exact decide_eq_true (by omega)
  rw [List.zipIdx_append, List.filter_append, List.filter_eq_self.mpr hbefore, Nat.zero_add,
    List.zipIdx_cons, List.filter_cons_of_neg (by simp), List.filter_eq_self.mpr hafter,
    List.map_append, List.zipIdx_map_fst, List.zipIdx_map_fst]

/-- A property of what an earlier tag names may be put in. -/
theorem positionalIn_inserted {before after : List Tag}
    (hts : ∀ u ∈ before ++ after, u.paramName ≠ some "") (ht : t.IsProperty before) :
    positionalIn [] (before ++ t :: after) = positionalIn [] (before ++ after) := by
  have hne : t.paramName ≠ some "" := by
    obtain ⟨owner, property, hname, -, -⟩ := ht
    intro he
    have hempty := congrArg String.toList (Option.some.inj (hname.symm.trans he))
    simp at hempty
  have hall : ∀ u ∈ before ++ t :: after, u.paramName ≠ some "" := by
    intro u hu
    rcases List.mem_append.mp hu with hu | hu
    · exact hts u (List.mem_append_left _ hu)
    · rcases List.mem_cons.mp hu with rfl | hu
      · exact hne
      · exact hts u (List.mem_append_right _ hu)
  -- it is what is left out of the longer list
  have hkept := positionalIn_kept (fun i => i ≠ before.length) describes_nil describes_nil
    hall fun p hp htakes => decide_eq_true fun he => by
      have hget := List.mem_zipIdx_iff_getElem?.mp hp
      simp only [List.nil_append, he, List.take_left,
        List.getElem?_append_right (Nat.le_refl _), Nat.sub_self, List.getElem?_cons_zero,
        Option.some.injEq] at hget htakes
      exact htakes.2 (hget ▸ ht)
  rw [List.length_nil, filter_zipIdx_ne] at hkept
  exact hkept.symm

/-- The tags that take a position are those of parameters, each once and in their order, but for
those whose name has a dot and, before its first dot, the name of an earlier tag of a parameter,
whether or not that takes a position. So it does not matter whether tags that take none are left
out, some or all, nor whether a property of a parameter is described after it. -/
theorem positions_taken {c : Comment} (h : ∀ t ∈ c.tags, t.paramName ≠ some "") (g : Signature) :
    positional ⟨some c, g⟩ =
        (c.tags.zipIdx.filter fun p => p.1.TakesPosition (c.tags.take p.2)).map Prod.fst ∧
      (∀ keep : Nat → Bool,
        (∀ p ∈ c.tags.zipIdx, p.1.TakesPosition (c.tags.take p.2) → keep p.2 = true) →
        positional
            ⟨some { c with tags := (c.tags.zipIdx.filter fun p => keep p.2).map Prod.fst }, g⟩ =
          positional ⟨some c, g⟩) ∧
      ∀ before t after, c.tags = before ++ after → t.IsProperty before →
        positional ⟨some { c with tags := before ++ t :: after }, g⟩ =
          positional ⟨some c, g⟩ := by
  refine ⟨positionalIn_eq describes_nil h,
    fun keep hkeep => positionalIn_kept keep describes_nil describes_nil h hkeep,
    fun before t after htags ht => ?_⟩
  have hpositional : positional ⟨some c, g⟩ = positionalIn [] (before ++ after) := by
    rw [← htags]
    rfl
  rw [hpositional, ← positionalIn_inserted (htags ▸ h) ht]
  rfl

/-- Properties before and after their owner, of a property and of nothing, and a tag without a
name; all tags but those that take a position are left out, or one more property is put in. -/
theorem positions_taken_mixed :
    let c := Comment.parse
      "/** @param o.x\n@param o\n@returns it\n@arg o.y\n@param - more\n@param o.y.z\n@param q.r */"
      .start
    let g : Signature := ⟨"f", [], .unknown, .none, .none, false, .start⟩
    let t : Tag := ⟨"param", "@param o.w", .start, none, some "o.w", false, none⟩
    (∀ t ∈ c.tags, t.paramName ≠ some "") ∧
      (positional ⟨some c, g⟩).map Tag.paramName = [some "o.x", some "o", none, some "q.r"] ∧
      positional ⟨some { c with tags :=
          (c.tags.zipIdx.filter fun p => [0, 1, 4, 6].contains p.2).map Prod.fst }, g⟩ =
        positional ⟨some c, g⟩ ∧
      t.IsProperty (c.tags.take 2) ∧
      positional ⟨some { c with tags := c.tags.take 2 ++ t :: c.tags.drop 2 }, g⟩ =
        positional ⟨some c, g⟩ := by
  intro c g t
  have hne : ∀ t ∈ c.tags, t.paramName ≠ some "" := Comment.paramName_ne_of_mem
  have hkeep : ∀ p ∈ c.tags.zipIdx, p.1.TakesPosition (c.tags.take p.2) →
      [0, 1, 4, 6].contains p.2 = true := by decide +kernel
  have ht : t.IsProperty (c.tags.take 2) := by decide +kernel
  obtain ⟨-, hkept, hinserted⟩ := positions_taken hne g
  exact ⟨hne, by decide +kernel, hkept (fun i => [0, 1, 4, 6].contains i) hkeep, ht,
    hinserted _ t _ (List.take_append_drop 2 c.tags).symm ht⟩

end Rule

end DocCheck
