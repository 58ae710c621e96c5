import Extension.Proofs.Entries
import Extension.Value.Basic

namespace Extension

open Number

/-! Equality of values.

Equality looks through types: a truth value equals its number wherever it stands.  So it says less than that two
values are one, except for values without parts that are no doubles.
-/

theorem Number.Binary64.same_refl {x : Binary64} (number : x ≠ .nan) : x.same x = true := by
  cases x with
  | nan => contradiction
  | infinite negative => exact beq_self_eq_true negative
  | finite negative significand exponent => exact beq_self_eq_true (α := Int) _

namespace Value

mutual

/-- A value that a host can hold: no context key, and nothing in it that differs from itself. -/
def Plain : Value → Prop
  | .float x => x ≠ .nan
  | .list items => AllPlain items
  | .dict entries => (entries.map Prod.fst).Nodup ∧ EntriesPlain entries
  | .contextKey _ => False
  | .null | .bool _ | .int _ | .text _ => True

def AllPlain : List Value → Prop
  | [] => True
  | item :: rest => item.Plain ∧ AllPlain rest

def EntriesPlain : List (String × Value) → Prop
  | [] => True
  | (_, value) :: rest => value.Plain ∧ EntriesPlain rest

end

mutual

theorem same_refl (value : Value) (plain : value.Plain) : value.same value = true := by
  cases value with
  | null => rfl
  | bool b => simp [same, number?, Numeric.same, Numeric.ofBool]
  | int n => simp [same, number?, Numeric.same]
  | float x => simpa [same, number?, Numeric.same] using Binary64.same_refl plain
  | text s => simp [same]
  | list items => simpa [same] using sameItems_refl items plain
  | dict entries => simpa [same] using within_refl entries entries plain.1 (fun _ member => member) plain.2
  | contextKey name => exact plain.elim

theorem sameItems_refl (items : List Value) (plain : AllPlain items) : sameItems items items = true := by
  cases items with
  | nil => rfl
  | cons item rest => simp [sameItems, same_refl item plain.1, sameItems_refl rest plain.2]

theorem within_refl (entries all : List (String × Value)) (distinct : (all.map Prod.fst).Nodup)
    (part : ∀ entry ∈ entries, entry ∈ all) (plain : EntriesPlain entries) : within entries all = true := by
  cases entries with
  | nil => rfl
  | cons entry rest =>
      obtain ⟨key, value⟩ := entry
      have found := Entries.lookup_of_mem distinct (part (key, value) List.mem_cons_self)
      have inside : ∀ other ∈ rest, other ∈ all := fun other member => part other (List.mem_cons_of_mem _ member)
      have later := within_refl rest all distinct inside plain.2
      simp [within, found, same_refl value plain.1, later]

end

/-- A value without parts that is no double. -/
def IsAtom : Value → Prop
  | .null | .bool _ | .int _ | .text _ => True
  | .float _ | .list _ | .dict _ | .contextKey _ => False

theorem IsAtom.plain {value : Value} (atom : value.IsAtom) : value.Plain := by
  cases value with
  | null | bool _ | int _ | text _ => exact trivial
  | float _ | list _ | dict _ | contextKey _ => exact atom.elim

theorem IsAtom.eq_of_same {value held : Value} (atom : value.IsAtom) (typed : held.typeName = value.typeName)
    (same : value.same held = true) : held = value := by
  cases value with
  | null => cases held <;> simp_all [typeName]
  | bool b => cases held <;> cases b <;> simp_all [typeName, Value.same, number?, Numeric.same, Numeric.ofBool]
  | int n => cases held <;> simp_all [typeName, Value.same, number?, Numeric.same]
  | text s => cases held <;> simp_all [typeName, Value.same]
  | float x => exact atom.elim
  | list items => exact atom.elim
  | dict entries => exact atom.elim
  | contextKey name => exact atom.elim

end Value

end Extension
