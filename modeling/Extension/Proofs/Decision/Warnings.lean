import Mathlib.Data.Finset.Card
import Extension.Proofs.Decision.Inventory
import Extension.Proofs.Text.Quoted

namespace Extension.Decision

/-! Which tests a report warns of.

A warning that a test stands at several depths names the test by its quoted text, and no other warning begins as such
a one does.
-/

def depthWarning (text : String) (depths : List Int) : String :=
  s!"Predicate {Text.quoted text} is read at several depths: " ++ (Value.list (depths.map Value.int)).quoted

/-- The warning says that the test stands at several depths. -/
def Warns (warning text : String) : Prop :=
  ∃ depths, warning = depthWarning text depths

def SeveralDepths (atoms : List Atom) (text : String) : Prop :=
  ∃ first ∈ atoms, ∃ second ∈ atoms, first.text = text ∧ second.text = text ∧ first.depth ≠ second.depth

theorem depthWarning_eq (text : String) (depths : List Int) : depthWarning text depths =
    "Predicate " ++ (Text.quoted text ++
      (" is read at several depths: " ++ (Value.list (depths.map Value.int)).quoted)) := by
  simp only [depthWarning, toString, String.append_assoc]

theorem depthWarning_inj {first second : String} {depths others : List Int}
    (same : depthWarning first depths = depthWarning second others) : first = second := by
  rw [depthWarning_eq, depthWarning_eq] at same
  exact (Text.quoted_append_inj ((String.append_right_inj _).mp same)).1

theorem Warns.head {warning text : String} (warns : Warns warning text) : warning.toList.head? = some 'P' := by
  obtain ⟨depths, rfl⟩ := warns
  rw [depthWarning_eq, String.toList_append]
  generalize (Text.quoted text ++ _).toList = rest
  rfl

variable {atoms : List Atom} {text warning : String}

theorem mem_depthsOf {depth : Int} :
    depth ∈ depthsOf atoms text ↔ ∃ atom ∈ atoms, atom.text = text ∧ atom.depth = depth := by
  simp [depthsOf, List.mem_mergeSort, and_assoc]

theorem one_lt_depthsOf : 1 < (depthsOf atoms text).length ↔ SeveralDepths atoms text := by
  have distinct : (depthsOf atoms text).Nodup := by
    rw [depthsOf, (List.mergeSort_perm _ _).nodup_iff]
    exact nodup_eraseDups _
  rw [← List.toFinset_card_of_nodup distinct, Finset.one_lt_card]
  simp only [List.mem_toFinset, mem_depthsOf, SeveralDepths]
  constructor
  · rintro ⟨_, ⟨first, firstIn, firstText, rfl⟩, _, ⟨second, secondIn, secondText, rfl⟩, differ⟩
    exact ⟨first, firstIn, second, secondIn, firstText, secondText, differ⟩
  · rintro ⟨first, firstIn, second, secondIn, firstText, secondText, differ⟩
    exact ⟨_, ⟨first, firstIn, firstText, rfl⟩, _, ⟨second, secondIn, secondText, rfl⟩, differ⟩

theorem SeveralDepths.repeated (several : SeveralDepths atoms text) : 1 < (atoms.map Atom.text).count text := by
  obtain ⟨first, firstIn, second, secondIn, rfl, same, differ⟩ := several
  rw [List.count, List.countP_map, List.countP_eq_length_filter]
  have firstMet : first ∈ atoms.filter ((· == first.text) ∘ Atom.text) := List.mem_filter.mpr ⟨firstIn, by simp⟩
  have secondMet : second ∈ atoms.filter ((· == first.text) ∘ Atom.text) :=
    List.mem_filter.mpr ⟨secondIn, by simp [same]⟩
  generalize atoms.filter ((· == first.text) ∘ Atom.text) = met at firstMet secondMet
  match met with
  | [] => cases firstMet
  | [one] =>
      obtain rfl := List.mem_singleton.mp firstMet
      obtain rfl := List.mem_singleton.mp secondMet
      exact absurd rfl differ
  | _ :: _ :: _ => simp

theorem mem_depthWarnings : warning ∈ depthWarnings atoms ↔
    ∃ text, SeveralDepths atoms text ∧ warning = depthWarning text (depthsOf atoms text) := by
  rw [depthWarnings, List.mem_filterMap]
  constructor
  · rintro ⟨text, _, warned⟩
    change (if 1 < (depthsOf atoms text).length then some (depthWarning text (depthsOf atoms text)) else none) = _
      at warned
    split at warned
    · next several => exact ⟨text, one_lt_depthsOf.mp several, (Option.some.inj warned).symm⟩
    · cases warned
  · rintro ⟨text, several, rfl⟩
    refine ⟨text, ?_, if_pos (one_lt_depthsOf.mpr several)⟩
    have repeated := several.repeated
    have member : text ∈ (atoms.map Atom.text).eraseDups :=
      List.mem_eraseDups.mpr (List.count_pos_iff.mp (Nat.zero_lt_of_lt repeated))
    rw [List.mem_mergeSort, List.mem_map]
    exact ⟨(text, _), List.mem_filter.mpr ⟨List.mem_map_of_mem member, decide_eq_true repeated⟩, rfl⟩

/-- The warnings of a report: some that are about the whole tree, and those about the depths of its tests. -/
theorem Tree.report?_warnings {tree : Tree} {maxAtoms passes : Nat} {report : Report}
    (made : tree.report? maxAtoms passes = some report) :
    ∃ others, (∀ warning ∈ others, ∀ text, ¬ Warns warning text) ∧
      report.warnings = (others ++ depthWarnings tree.atoms).eraseDups := by
  simp only [report?, Option.bind_eq_bind, Option.bind_eq_some_iff] at made
  obtain ⟨mark, _, made⟩ := made
  cases made
  refine ⟨_, ?_, rfl⟩
  intro warning member text warns
  -- the others begin with another letter already
  have head := warns.head
  simp only [List.mem_append] at member
  rcases member with (never | always) | deep
  · split at never
    · obtain rfl := List.mem_singleton.mp never
      cases head
    · cases never
  · split at always
    · obtain rfl := List.mem_singleton.mp always
      cases head
    · cases always
  · split at deep
    · cases deep
    · obtain rfl := List.mem_singleton.mp deep
      simp only [toString, String.toList_append, List.append_assoc] at head
      cases head

theorem Tree.report?_warns {tree : Tree} {maxAtoms passes : Nat} {report : Report}
    (made : tree.report? maxAtoms passes = some report) (text : String) :
    (∃ warning ∈ report.warnings, Warns warning text) ↔ SeveralDepths tree.atoms text := by
  obtain ⟨others, apart, warnings⟩ := report?_warnings made
  simp only [warnings, List.mem_eraseDups, List.mem_append, mem_depthWarnings]
  constructor
  · rintro ⟨warning, other | ⟨found, several, rfl⟩, warns⟩
    · exact absurd warns (apart warning other text)
    · obtain ⟨depths, same⟩ := warns
      rwa [← depthWarning_inj same]
  · intro several
    exact ⟨_, .inr ⟨text, several, rfl⟩, _, rfl⟩

theorem Tree.report?_warns_once {tree : Tree} {maxAtoms passes : Nat} {report : Report}
    (made : tree.report? maxAtoms passes = some report) {first second text : String} (firstIn : first ∈ report.warnings)
    (secondIn : second ∈ report.warnings) (firstWarns : Warns first text) (secondWarns : Warns second text) :
    first = second := by
  obtain ⟨others, apart, warnings⟩ := report?_warnings made
  have spelled {warning : String} (member : warning ∈ report.warnings) (warns : Warns warning text) :
      warning = depthWarning text (depthsOf tree.atoms text) := by
    rw [warnings, List.mem_eraseDups, List.mem_append, mem_depthWarnings] at member
    rcases member with other | ⟨found, several, rfl⟩
    · exact absurd warns (apart warning other text)
    · obtain ⟨depths, same⟩ := warns
      rw [depthWarning_inj same]
  rw [spelled firstIn firstWarns, spelled secondIn secondWarns]

end Extension.Decision
