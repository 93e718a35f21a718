/-!
# Tables in order of insertion

A table is a list of keys with their values. Writing a key that the table has
keeps its place and changes its value; a new key goes to the end.

Results:

* `mem_of_lookup`: what is found is in the table.
* `keys_put`, `lookup_put_self`, `lookup_put_of_ne`: what writing a key does.
* `keys_ofList_nodup`: a table built by writing has each key once.
* `lookup_foldl_put`: a table written over another one goes before it.
-/
namespace DocCheck.Assoc

variable {α β : Type} [DecidableEq α]

def put (key : α) (value : β) : List (α × β) → List (α × β)
  | [] => [(key, value)]
  | (k, v) :: rest => if k = key then (k, value) :: rest else (k, v) :: put key value rest

def lookup (key : α) : List (α × β) → Option β
  | [] => none
  | (k, v) :: rest => if k = key then some v else lookup key rest

/-- The table that results from writing the pairs in order. -/
def ofList (pairs : List (α × β)) : List (α × β) :=
  pairs.foldl (fun table (k, v) => put k v table) []

theorem mem_of_lookup {key : α} {value : β} {table : List (α × β)}
    (h : lookup key table = some value) : (key, value) ∈ table := by
  induction table with
  | nil => cases h
  | cons p rest ih =>
    rw [lookup] at h
    split at h
    · rename_i he
      cases h
      rw [← he]
      exact List.mem_cons_self
    · exact List.mem_cons_of_mem _ (ih h)

theorem keys_put (key : α) (value : β) (table : List (α × β)) :
    (put key value table).map Prod.fst =
      if key ∈ table.map Prod.fst then table.map Prod.fst else table.map Prod.fst ++ [key] := by
  induction table with
  | nil => simp [put]
  | cons p rest ih =>
    obtain ⟨k, v⟩ := p
    by_cases h : k = key
    · simp [put, h]
    · have h' : ¬ key = k := fun e => h e.symm
      simp only [put, h, if_false, List.map_cons, ih, List.mem_cons, h', false_or]
      split <;> simp

theorem lookup_put_self (key : α) (value : β) (table : List (α × β)) :
    lookup key (put key value table) = some value := by
  induction table with
  | nil => simp [put, lookup]
  | cons p rest ih =>
    obtain ⟨k, v⟩ := p
    by_cases h : k = key <;> simp [put, lookup, h, ih]

theorem lookup_put_of_ne {key other : α} (h : other ≠ key) (value : β) (table : List (α × β)) :
    lookup other (put key value table) = lookup other table := by
  induction table with
  | nil => simp [put, lookup, h.symm]
  | cons p rest ih =>
    obtain ⟨k, v⟩ := p
    by_cases hk : k = key
    · subst hk; simp [put, lookup, h.symm]
    · simp [put, lookup, hk, ih]

theorem keys_put_nodup {key : α} {value : β} {table : List (α × β)}
    (h : (table.map Prod.fst).Nodup) : ((put key value table).map Prod.fst).Nodup := by
  rw [keys_put]
  split
  · exact h
  · rename_i hk
    exact List.nodup_append.mpr ⟨h, by simp, fun a ha b hb => by
      rw [List.mem_singleton.mp hb]; rintro rfl; exact hk ha⟩

theorem keys_ofList_nodup (pairs : List (α × β)) : ((ofList pairs).map Prod.fst).Nodup := by
  have step : ∀ (ps table : List (α × β)), (table.map Prod.fst).Nodup →
      ((ps.foldl (fun t (k, v) => put k v t) table).map Prod.fst).Nodup := by
    intro ps
    induction ps with
    | nil => exact fun _ h => h
    | cons p rest ih => exact fun table h => ih _ (keys_put_nodup h)
  exact step pairs [] (by simp)

theorem lookup_eq_none_of_not_mem {key : α} {table : List (α × β)}
    (h : key ∉ table.map Prod.fst) : lookup key table = none := by
  cases hl : lookup key table with
  | none => rfl
  | some value => exact absurd (List.mem_map_of_mem (mem_of_lookup hl)) h

theorem lookup_foldl_put {pairs : List (α × β)} (h : (pairs.map Prod.fst).Nodup) (key : α)
    (table : List (α × β)) :
    lookup key (pairs.foldl (fun t p => put p.1 p.2 t) table) =
      (lookup key pairs).or (lookup key table) := by
  induction pairs generalizing table with
  | nil => rfl
  | cons p rest ih =>
    obtain ⟨k, v⟩ := p
    obtain ⟨hk, hrest⟩ := List.nodup_cons.mp h
    rw [List.foldl_cons, ih hrest, lookup]
    by_cases he : k = key
    · subst he
      rw [if_pos rfl, lookup_eq_none_of_not_mem hk, lookup_put_self]
      rfl
    · rw [if_neg he, lookup_put_of_ne (Ne.symm he)]

end DocCheck.Assoc
