import Extension.Entries
import Mathlib.Data.List.Nodup
import Mathlib.Data.List.Perm.Basic

namespace Extension.Entries

/-! Tables without repeated keys, and tables laid over one another.

What is laid over a table gives its keys their values and leaves all other entries alone, and two layers can be put
together before they are laid down.
-/

variable {α : Type u} {κ : Type} [DecidableEq κ] {entries more : Entries α κ} {key : κ} {value : α}

theorem put_of_not_mem (absent : key ∉ entries.keys) : entries.put key value = entries ++ [(key, value)] := by
  induction entries with
  | nil => rfl
  | cons entry rest ih =>
      obtain ⟨differ, outside⟩ := not_or.mp (mt List.mem_cons.mpr absent)
      rw [put, if_neg (Ne.symm differ), ih outside, List.cons_append]

omit [DecidableEq κ] in
theorem not_mem_keys (distinct : (entries ++ (key, value) :: more).keys.Nodup) : key ∉ entries.keys := by
  rw [keys, List.map_append, List.map_cons, List.nodup_middle] at distinct
  exact fun member => (List.nodup_cons.mp distinct).1 (List.mem_append_left _ member)

theorem lookup_of_mem (distinct : entries.keys.Nodup) (member : (key, value) ∈ entries) :
    entries.lookup key = some value := by
  obtain ⟨before, after, rfl⟩ := List.append_of_mem member
  refine List.lookup_eq_some_iff.mpr ⟨before, after, rfl, fun other inside => ?_⟩
  have known : other.1 ∈ keys before := List.mem_map_of_mem inside
  have differ : key ≠ other.1 := fun same => not_mem_keys distinct (same ▸ known)
  simpa using differ

theorem putAll_cons (entries : Entries α κ) (entry : κ × α) (more : Entries α κ) :
    entries.putAll (entry :: more) = (entries.put entry.1 entry.2).putAll more := rfl

/-- The entries of the given keys. -/
def only (entries : Entries α κ) (keys : List κ) : Entries α κ :=
  entries.filter fun entry => decide (entry.1 ∈ keys)

/-- The entries of all other keys. -/
def without (entries : Entries α κ) (keys : List κ) : Entries α κ :=
  entries.filter fun entry => decide (entry.1 ∉ keys)

/-! What is left alone -/

section Without

variable {keys : List κ}

theorem without_put (known : key ∈ keys) (entries : Entries α κ) (value : α) :
    (entries.put key value).without keys = entries.without keys := by
  induction entries with
  | nil => simp [put, without, known]
  | cons entry rest ih =>
      obtain ⟨held, old⟩ := entry
      by_cases same : held = key
      · subst held
        simp [put, without, known]
      · simp only [without] at ih
        simp only [put, if_neg same, without, List.filter_cons, ih]

theorem without_putAll (known : ∀ key ∈ more.keys, key ∈ keys) (entries : Entries α κ) :
    (entries.putAll more).without keys = entries.without keys := by
  induction more generalizing entries with
  | nil => rfl
  | cons entry rest ih =>
      obtain ⟨here, later⟩ := List.forall_mem_cons.mp known
      rw [putAll_cons, ih later, without_put here]

end Without

/-! What is found -/

theorem nodup_put (distinct : entries.keys.Nodup) (key : κ) (value : α) : (entries.put key value).keys.Nodup := by
  induction entries with
  | nil => simp [put, keys]
  | cons entry rest ih =>
      obtain ⟨held, old⟩ := entry
      obtain ⟨absent, others⟩ := List.nodup_cons.mp distinct
      by_cases same : held = key
      · subst held
        rw [put, if_pos rfl]
        exact distinct
      · rw [put, if_neg same]
        refine List.nodup_cons.mpr ⟨fun member => ?_, ih others⟩
        rcases mem_keys_put.mp member with equal | inside
        · exact same equal
        · exact absent inside

theorem nodup_putAll (distinct : entries.keys.Nodup) (more : Entries α κ) : (entries.putAll more).keys.Nodup := by
  induction more generalizing entries with
  | nil => exact distinct
  | cons entry rest ih => exact ih (nodup_put distinct entry.1 entry.2)

theorem lookup_eq_some_iff_mem (distinct : entries.keys.Nodup) :
    entries.lookup key = some value ↔ (key, value) ∈ entries := by
  refine ⟨fun found => ?_, lookup_of_mem distinct⟩
  obtain ⟨before, after, split, _⟩ := List.lookup_eq_some_iff.mp found
  simp [split]

theorem lookup_putAll_self (entries : Entries α κ) (distinct : more.keys.Nodup) (member : (key, value) ∈ more) :
    (entries.putAll more).lookup key = some value := by
  induction more generalizing entries with
  | nil => cases member
  | cons entry rest ih =>
      obtain ⟨absent, others⟩ := List.nodup_cons.mp distinct
      rw [putAll_cons]
      rcases List.mem_cons.mp member with rfl | inside
      · rw [lookup_putAll_other absent, lookup_put_self]
      · exact ih _ others inside

/-- The keys of the layer have its values, and no other ones. -/
theorem only_putAll_perm (distinct : entries.keys.Nodup) (moreDistinct : more.keys.Nodup) :
    ((entries.putAll more).only more.keys).Perm more := by
  -- Neither side repeats an entry, so that it is enough to compare which ones they have.
  have whole := nodup_putAll distinct more
  rw [only]
  refine (List.perm_ext_iff_of_nodup (whole.of_map.filter _) moreDistinct.of_map).mpr fun entry => ?_
  obtain ⟨key, value⟩ := entry
  rw [List.mem_filter, decide_eq_true_iff, ← lookup_eq_some_iff_mem whole]
  constructor
  · rintro ⟨found, inside⟩
    obtain ⟨⟨_, other⟩, member, rfl⟩ := List.mem_map.mp inside
    rw [lookup_putAll_self entries moreDistinct member, Option.some.injEq] at found
    exact found ▸ member
  · intro member
    exact ⟨lookup_putAll_self entries moreDistinct member, List.mem_map_of_mem member⟩

theorem putAll_eq_nil_iff : entries.putAll more = [] ↔ entries = [] ∧ more = [] := by
  have empty (table : Entries α κ) : table = [] ↔ ∀ key, key ∉ table.keys := by
    rw [← List.eq_nil_iff_forall_not_mem, keys, List.map_eq_nil_iff]
  simp only [empty, mem_keys_putAll, not_or, forall_and]

/-! Two layers -/

/-- A key that is there and in no later layer may be given its value last. -/
theorem putAll_put_outside (known : key ∈ entries.keys) (outside : key ∉ more.keys) :
    (entries.put key value).putAll more = (entries.putAll more).put key value := by
  induction more generalizing entries with
  | nil => rfl
  | cons entry rest ih =>
      obtain ⟨held, new⟩ := entry
      obtain ⟨differ, later⟩ := not_or.mp (mt List.mem_cons.mpr outside)
      rw [putAll_cons, putAll_cons, put_comm (Ne.symm differ) known, ih (mem_keys_put.mpr (.inr known)) later]

theorem putAll_put (entries : Entries α κ) (distinct : more.keys.Nodup) (key : κ) (value : α) :
    entries.putAll (more.put key value) = (entries.putAll more).put key value := by
  induction more generalizing entries with
  | nil => rfl
  | cons entry rest ih =>
      obtain ⟨held, old⟩ := entry
      obtain ⟨absent, others⟩ := List.nodup_cons.mp distinct
      by_cases same : held = key
      · subst held
        rw [put, if_pos rfl, putAll_cons, putAll_cons,
          ← putAll_put_outside (mem_keys_put.mpr (.inl rfl)) absent, put_put_self]
      · rw [put, if_neg same, putAll_cons, putAll_cons, ih _ others]

/-- Layers may be put together first. -/
theorem putAll_assoc (entries : Entries α κ) (distinct : more.keys.Nodup) (last : Entries α κ) :
    entries.putAll (more.putAll last) = (entries.putAll more).putAll last := by
  induction last generalizing more with
  | nil => rfl
  | cons entry rest ih => rw [putAll_cons, putAll_cons, ih (nodup_put distinct _ _), putAll_put entries distinct]

/-- Giving another key a value in between makes no difference to a key that is there. -/
theorem put_put_between {other : κ} (differ : other ≠ key) (entries : Entries α κ) (first second third : α) :
    ((entries.put key first).put other second).put key third = (entries.put key third).put other second := by
  rw [← put_comm differ (mem_keys_put.mpr (.inl rfl)), put_put_self]

theorem put_perm_comm {other : κ} (differ : other ≠ key) (entries : Entries α κ) (first second : α) :
    ((entries.put key first).put other second).Perm ((entries.put other second).put key first) := by
  induction entries with
  | nil =>
      simp only [put, if_neg differ, if_neg differ.symm]
      exact .swap ..
  | cons entry rest ih =>
      obtain ⟨held, old⟩ := entry
      by_cases same : held = key
      · subst held
        simp [put, differ.symm]
      · by_cases alike : held = other
        · subst held
          simp [put, differ]
        · simp only [put, if_neg same, if_neg alike]
          exact .cons _ ih

/-- Gives a key a value, if there is one to give. -/
def putSome (entries : Entries α κ) (key : κ) : Option α → Entries α κ
  | none => entries
  | some value => entries.put key value

theorem lookup_putSome_self (entries : Entries α κ) (key : κ) (value? : Option α) :
    (entries.putSome key value?).lookup key = value?.or (entries.lookup key) := by
  cases value? with
  | none => rfl
  | some value => exact lookup_put_self entries key value

theorem lookup_putSome_other {other : κ} (differ : other ≠ key) (entries : Entries α κ) (value? : Option α) :
    (entries.putSome key value?).lookup other = entries.lookup other := by
  cases value? with
  | none => rfl
  | some value => exact lookup_put_other value differ

theorem without_putSome {keys : List κ} (known : key ∈ keys) (entries : Entries α κ) (value? : Option α) :
    (entries.putSome key value?).without keys = entries.without keys := by
  cases value? with
  | none => rfl
  | some value => exact without_put known entries value

/-- Two keys that are given values twice: the later values count, and only the order of the keys may be another one. -/
theorem putSome_twice_perm {other : κ} (differ : other ≠ key) (entries : Entries α κ)
    (first second third fourth : Option α) :
    ((((entries.putSome key first).putSome other second).putSome key third).putSome other fourth).Perm
      ((entries.putSome key (third.or first)).putSome other (fourth.or second)) := by
  have merged : (entries.putSome key first).putSome key third = entries.putSome key (third.or first) := by
    cases first <;> cases third <;> simp [putSome, put_put_self]
  rw [← merged]
  generalize entries.putSome key first = begun
  -- The order differs when the other key comes in before this one gets its last value.
  cases second with
  | none => rw [Option.or_none]; exact .refl _
  | some second =>
      cases third with
      | none => cases fourth <;> simp [putSome, put_put_self]
      | some third =>
          cases fourth with
          | none => exact put_perm_comm differ.symm begun second third
          | some fourth =>
              change (((begun.put other second).put key third).put other fourth).Perm
                ((begun.put key third).put other fourth)
              rw [put_put_between differ.symm]
              exact put_perm_comm differ.symm begun fourth third

end Extension.Entries
