/-!
# Bindings

Tables from names to values that keep the order in which their names first came.

* `Bindings.get?`, `Bindings.set`: reading and writing one name; a name that is already there
  keeps its place;
* `Bindings.setAll`: many writes, one after the other;
* `Bindings.names`: the names in order.
-/

namespace Stencil

/-- Named values in the order in which their names first came. -/
abbrev Bindings (α : Type) := List (String × α)

namespace Bindings
variable {α : Type}

/-- The value of a name. -/
def get? (b : Bindings α) (name : String) : Option α := b.lookup name

/-- Gives a name a value: in its place if it is there, at the end if it is new. -/
def set : Bindings α → String → α → Bindings α
  | [], name, value => [(name, value)]
  | (k, v) :: rest, name, value =>
    if k = name then (k, value) :: rest else (k, v) :: set rest name value

/-- Gives names their values, one after the other. -/
def setAll (b : Bindings α) (pairs : List (String × α)) : Bindings α :=
  pairs.foldl (fun b p => set b p.1 p.2) b

/-- The table that arises from writing the pairs in order. -/
def ofPairs (pairs : List (String × α)) : Bindings α := setAll [] pairs

/-- Takes a name out. -/
def erase (b : Bindings α) (name : String) : Bindings α := b.filter fun p => p.1 != name

/-- The names in order. -/
def names (b : Bindings α) : List String := b.map Prod.fst

/-- Is there a value for the name? -/
def has (b : Bindings α) (name : String) : Bool := (get? b name).isSome

theorem get?_cons (k : String) (v : α) (rest : Bindings α) (name : String) :
    get? ((k, v) :: rest) name = if name = k then some v else get? rest name := by
  by_cases h : name = k
  · simp [get?, h]
  · simp [get?, List.lookup_cons, h, beq_eq_false_iff_ne.2 h]

@[simp] theorem get?_set_self (b : Bindings α) (name : String) (value : α) :
    get? (set b name value) name = some value := by
  induction b with
  | nil => simp [set, get?_cons]
  | cons p rest ih =>
    obtain ⟨k, v⟩ := p
    by_cases h : k = name
    · simp [set, h, get?_cons]
    · simp [set, h, get?_cons, ih, Ne.symm h]

theorem get?_set_of_ne (b : Bindings α) {name other : String} (value : α) (h : other ≠ name) :
    get? (set b name value) other = get? b other := by
  induction b with
  | nil => simp [set, get?_cons, h]
  | cons p rest ih =>
    obtain ⟨k, v⟩ := p
    by_cases hk : k = name
    · subst hk; simp [set, get?_cons, h]
    · simp [set, hk, get?_cons, ih]

/-- Writing a name that is there moves no name, and a new name goes to the end. -/
theorem names_set (b : Bindings α) (name : String) (value : α) :
    names (set b name value) = if name ∈ names b then names b else names b ++ [name] := by
  induction b with
  | nil => simp [set, names]
  | cons p rest ih =>
    obtain ⟨k, v⟩ := p
    by_cases hk : k = name
    · simp [set, hk, names]
    · have hn : names (set ((k, v) :: rest) name value) = k :: names (set rest name value) := by
        simp [set, hk, names]
      have hc : names ((k, v) :: rest) = k :: names rest := rfl
      rw [hn, ih, hc]
      by_cases hm : name ∈ names rest <;> simp [hm, Ne.symm hk]

/-! ### Names that are taken out -/

@[simp] theorem get?_erase_self (b : Bindings α) (name : String) :
    get? (erase b name) name = none := by
  induction b with
  | nil => rfl
  | cons p rest ih =>
    obtain ⟨k, v⟩ := p
    by_cases hk : k = name
    · simpa [erase, hk] using ih
    · rw [erase, List.filter_cons_of_pos (by simp [hk]), get?_cons, if_neg (Ne.symm hk)]
      exact ih

theorem get?_erase_of_ne (b : Bindings α) {name other : String} (h : other ≠ name) :
    get? (erase b name) other = get? b other := by
  induction b with
  | nil => rfl
  | cons p rest ih =>
    obtain ⟨k, v⟩ := p
    by_cases hk : k = name
    · subst hk
      rw [erase, List.filter_cons_of_neg (by simp), get?_cons, if_neg h]
      exact ih
    · rw [erase, List.filter_cons_of_pos (by simp [hk]), get?_cons, get?_cons]
      exact congrArg (ite _ _) ih

/-! ### The names of a table -/

theorem mem_names_iff {b : Bindings α} {name : String} :
    name ∈ names b ↔ ∃ value, get? b name = some value := by
  induction b with
  | nil => simp [names, get?]
  | cons p rest ih =>
    obtain ⟨k, v⟩ := p
    rw [get?_cons]
    by_cases hk : name = k
    · simp [names, hk]
    · rw [if_neg hk, ← ih]
      simp [names, hk]

theorem nodup_names_set {b : Bindings α} (h : (names b).Nodup) (name : String) (value : α) :
    (names (set b name value)).Nodup := by
  rw [names_set]
  split
  · exact h
  · next hn =>
    refine List.nodup_append.2 ⟨h, by simp, ?_⟩
    rintro k hk _ hmem rfl
    exact hn (List.mem_singleton.1 hmem ▸ hk)

theorem nodup_names_erase {b : Bindings α} (h : (names b).Nodup) (name : String) :
    (names (erase b name)).Nodup :=
  h.sublist (List.filter_sublist.map _)

end Bindings

end Stencil
