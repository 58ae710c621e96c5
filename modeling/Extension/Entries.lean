namespace Extension

/-! Tables that keep the order in which keys were first given. -/

/-- A table from keys, which are texts unless the table says otherwise, to values. -/
abbrev Entries (α : Type u) (κ : Type := String) := List (κ × α)

namespace Entries

variable {α : Type u} {κ : Type} [DecidableEq κ]

/-- Gives a key a value: in its place if the table has it, at the end otherwise. -/
def put (entries : Entries α κ) (key : κ) (value : α) : Entries α κ :=
  match entries with
  | [] => [(key, value)]
  | (held, old) :: rest => if held = key then (key, value) :: rest else (held, old) :: put rest key value

def putAll (entries more : Entries α κ) : Entries α κ :=
  more.foldl (fun held (key, value) => held.put key value) entries

def keys (entries : Entries α κ) : List κ :=
  entries.map Prod.fst

theorem lookup_put_self (entries : Entries α κ) (key : κ) (value : α) :
    (entries.put key value).lookup key = some value := by
  induction entries with
  | nil => simp [put]
  | cons entry rest ih =>
      obtain ⟨held, old⟩ := entry
      by_cases same : held = key
      · simp [put, same]
      · have differ : (key == held) = false := by simpa using fun equal => same equal.symm
        simp [put, same, List.lookup_cons, differ, ih]

theorem lookup_put_other {entries : Entries α κ} {key other : κ} (value : α) (differ : other ≠ key) :
    (entries.put key value).lookup other = entries.lookup other := by
  have differ : (other == key) = false := by simpa using differ
  induction entries with
  | nil => simp [put, List.lookup_cons, differ]
  | cons entry rest ih =>
      obtain ⟨held, old⟩ := entry
      by_cases same : held = key
      · subst held
        simp [put, List.lookup_cons, differ]
      · simp [put, same, List.lookup_cons, ih]

theorem keys_put {entries : Entries α κ} {key : κ} {old : α} (found : entries.lookup key = some old) (value : α) :
    (entries.put key value).keys = entries.keys := by
  induction entries with
  | nil => cases found
  | cons entry rest ih =>
      obtain ⟨held, first⟩ := entry
      by_cases same : held = key
      · simp [put, keys, same]
      · have differ : (key == held) = false := by simpa using fun equal => same equal.symm
        rw [List.lookup_cons, differ] at found
        simp only [put, if_neg same, keys, List.map_cons]
        exact congrArg (held :: ·) (ih found)

theorem put_of_lookup {entries : Entries α κ} {key : κ} {value : α} (found : entries.lookup key = some value) :
    entries.put key value = entries := by
  induction entries with
  | nil => cases found
  | cons entry rest ih =>
      obtain ⟨held, old⟩ := entry
      by_cases same : held = key
      · subst held
        simp only [List.lookup_cons, BEq.rfl, Option.some.injEq] at found
        simp [put, found]
      · have differ : (key == held) = false := by simpa using fun equal => same equal.symm
        rw [List.lookup_cons, differ] at found
        simp only [put, if_neg same]
        rw [ih found]

theorem mem_keys_of_lookup {entries : Entries α κ} {key : κ} {value : α} (found : entries.lookup key = some value) :
    key ∈ entries.keys := by
  obtain ⟨before, after, split, _⟩ := List.lookup_eq_some_iff.mp found
  rw [split, keys]
  simp

theorem mem_keys_put {entries : Entries α κ} {key other : κ} {value : α} :
    other ∈ (entries.put key value).keys ↔ other = key ∨ other ∈ entries.keys := by
  induction entries with
  | nil => simp [put, keys]
  | cons entry rest ih =>
      obtain ⟨held, old⟩ := entry
      by_cases same : held = key
      · subst held
        simp [put, keys]
      · simp only [keys] at ih
        simp only [put, if_neg same, keys, List.map_cons, List.mem_cons, ih]
        exact or_left_comm

theorem put_put_self (entries : Entries α κ) (key : κ) (first second : α) :
    (entries.put key first).put key second = entries.put key second := by
  induction entries with
  | nil => simp [put]
  | cons entry rest ih =>
      obtain ⟨held, old⟩ := entry
      by_cases same : held = key
      · simp [put, same]
      · simp [put, same, ih]

/-- A key that is there keeps its place, so that another one may be given its value before. -/
theorem put_comm {entries : Entries α κ} {key other : κ} (differ : other ≠ key) (known : key ∈ entries.keys)
    (first second : α) :
    (entries.put key first).put other second = (entries.put other second).put key first := by
  induction entries with
  | nil => cases known
  | cons entry rest ih =>
      obtain ⟨held, old⟩ := entry
      by_cases same : held = key
      · subst held
        simp [put, differ.symm]
      · have inside : key ∈ keys rest := (List.mem_cons.mp known).resolve_left (Ne.symm same)
        by_cases alike : held = other
        · subst held
          simp [put, differ]
        · simp [put, same, alike, ih inside]

section PutAll

variable {entries more : Entries α κ} {key : κ} {value : α}

theorem mem_keys_putAll : key ∈ (entries.putAll more).keys ↔ key ∈ entries.keys ∨ key ∈ more.keys := by
  induction more generalizing entries with
  | nil => simp [putAll, keys]
  | cons entry rest ih =>
      obtain ⟨held, new⟩ := entry
      change key ∈ ((entries.put held new).putAll rest).keys ↔ key ∈ entries.keys ∨ key ∈ held :: keys rest
      rw [ih, mem_keys_put, List.mem_cons, or_comm (a := key = held), or_assoc]

theorem lookup_putAll_other (absent : key ∉ more.keys) : (entries.putAll more).lookup key = entries.lookup key := by
  induction more generalizing entries with
  | nil => rfl
  | cons entry rest ih =>
      obtain ⟨held, new⟩ := entry
      obtain ⟨differ, outside⟩ := not_or.mp (mt List.mem_cons.mpr absent)
      change ((entries.put held new).putAll rest).lookup key = entries.lookup key
      rw [ih outside, lookup_put_other _ differ]

/-- A value that is replaced later on need not be given first. -/
theorem put_putAll (known : key ∈ entries.keys) (later : key ∈ more.keys) :
    (entries.put key value).putAll more = entries.putAll more := by
  induction more generalizing entries with
  | nil => cases later
  | cons entry rest ih =>
      obtain ⟨held, new⟩ := entry
      change ((entries.put key value).put held new).putAll rest = (entries.put held new).putAll rest
      by_cases same : held = key
      · rw [same, put_put_self]
      · have inside : key ∈ keys rest := (List.mem_cons.mp later).resolve_left (Ne.symm same)
        rw [put_comm same known, ih (mem_keys_put.mpr (.inr known)) inside]

/-- Laying entries over a table a second time changes nothing. -/
theorem putAll_putAll (entries more : Entries α κ) : (entries.putAll more).putAll more = entries.putAll more := by
  induction more generalizing entries with
  | nil => rfl
  | cons entry rest ih =>
      obtain ⟨held, new⟩ := entry
      change (((entries.put held new).putAll rest).put held new).putAll rest = (entries.put held new).putAll rest
      by_cases again : held ∈ keys rest
      · rw [put_putAll (mem_keys_putAll.mpr (.inr again)) again, ih]
      · have found : ((entries.put held new).putAll rest).lookup held = some new := by
          rw [lookup_putAll_other again, lookup_put_self]
        rw [put_of_lookup found, ih]

end PutAll

end Entries

end Extension
