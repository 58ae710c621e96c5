import Extension.Proofs.Manifest.Fragment
import Extension.Registry.Basic

namespace Extension

open Manifest

/-! Assembling a package from everything that is declared.

Each command is added once, and so is each event, however many commands it stands for.  The menus of one id become
one, which stands where the first of them was declared.
-/

namespace DeclaredCommand

variable (package : Package String) (commands : List DeclaredCommand)

theorem contribute_commands : (commands.foldl contribute package).commands =
    package.commands ++ commands.map DeclaredCommand.descriptor := by
  induction commands generalizing package with
  | nil => simp
  | cons command rest ih =>
      have first : (contribute package command).commands = package.commands ++ [command.descriptor] := by
        rw [contribute, Package.addCommand, Package.addEvent]
        split
        · split <;> rfl
        · rfl
      rw [List.foldl_cons, ih, first, List.append_assoc]
      rfl

theorem contribute_menus : (commands.foldl contribute package).menus = package.menus := by
  induction commands generalizing package with
  | nil => rfl
  | cons command rest ih =>
      rw [List.foldl_cons, ih, contribute, Package.addCommand, Package.addEvent]
      split
      · split <;> rfl
      · rfl

theorem events_contribute (command : DeclaredCommand) (event : String) :
    event ∈ (contribute package command).events ↔
      event ∈ package.events ∨ command.activates = true ∧ event = command.activationEvent := by
  rw [contribute, Package.addCommand, Package.addEvent]
  cases command.activates with
  | false => simp
  | true =>
      simp only [if_true, true_and]
      split
      · next known =>
          have member : command.activationEvent ∈ package.events := List.contains_iff_mem.mp known
          exact ⟨.inl, fun either => either.elim id fun same => same ▸ member⟩
      · rw [List.mem_append, List.mem_singleton]

theorem nodup_events_contribute {package : Package String} (distinct : package.events.Nodup)
    (command : DeclaredCommand) : (contribute package command).events.Nodup := by
  rw [contribute, Package.addCommand, Package.addEvent]
  split
  · split
    · exact distinct
    · next new =>
        have outside : command.activationEvent ∉ package.events := fun member => new (List.contains_iff_mem.mpr member)
        refine List.nodup_append.mpr ⟨distinct, by simp, fun event inside other last => ?_⟩
        rw [List.mem_singleton.mp last]
        exact fun same => outside (same ▸ inside)
  · exact distinct

theorem contribute_events {package : Package String} (distinct : package.events.Nodup) :
    (commands.foldl contribute package).events.Nodup ∧
      ∀ event, event ∈ (commands.foldl contribute package).events ↔ event ∈ package.events ∨
        ∃ command ∈ commands, command.activates = true ∧ event = command.activationEvent := by
  induction commands generalizing package with
  | nil => exact ⟨distinct, by simp⟩
  | cons command rest ih =>
      obtain ⟨nodup, members⟩ := ih (nodup_events_contribute distinct command)
      refine ⟨nodup, fun event => ?_⟩
      rw [List.foldl_cons, members, events_contribute, or_assoc]
      simp only [List.mem_cons, exists_eq_or_imp]

end DeclaredCommand

namespace Menu

/-- One table for the menus of each id, in the order in which the ids came first, and with all their items. -/
def grouped (menus : List Menu) : List (String × List (MenuItem String)) :=
  (menus.map Menu.id).eraseDups.map fun id => (id, (menus.filter (·.id == id)).flatMap Menu.items)

variable (menus : List Menu) (menu : Menu)

theorem known_iff (id : String) : (grouped menus).any (·.1 == id) = true ↔ id ∈ menus.map Menu.id := by
  simp [grouped]

/-- A menu whose id is known adds to the items that the id has. -/
theorem grouped_known (known : menu.id ∈ menus.map Menu.id) :
    grouped (menus ++ [menu]) =
      (grouped menus).map fun (held, old) => if held == menu.id then (held, old ++ menu.items) else (held, old) := by
  have none : [menu.id].removeAll (menus.map Menu.id) = [] := by
    simpa [List.removeAll] using known
  rw [grouped, grouped, List.map_append, List.map_cons, List.map_nil, List.eraseDups_append, none, List.eraseDups_nil,
    List.append_nil, List.map_map]
  refine List.map_congr_left fun id _ => ?_
  by_cases same : id = menu.id
  · subst same
    simp
  · have differ : menu.id ≠ id := Ne.symm same
    simp [same, differ]

theorem grouped_new (new : menu.id ∉ menus.map Menu.id) :
    grouped (menus ++ [menu]) = grouped menus ++ [(menu.id, menu.items)] := by
  have all : [menu.id].removeAll (menus.map Menu.id) = [menu.id] := by
    simpa [List.removeAll] using new
  have absent : menus.filter (·.id == menu.id) = [] :=
    List.filter_eq_nil_iff.mpr fun other member same => new (by
      rw [← eq_of_beq same]
      exact List.mem_map_of_mem member)
  rw [grouped, grouped, List.map_append, List.map_cons, List.map_nil, List.eraseDups_append, all, List.map_append]
  congr 1
  · refine List.map_congr_left fun id member => ?_
    have differ : (menu.id == id) = false :=
      beq_false_of_ne fun same => new (same ▸ List.mem_eraseDups.mp member)
    rw [List.filter_append, List.filter_cons, differ]
    simp
  · simp [List.filter_append, absent, List.eraseDups_cons]

theorem contribute_grouped (package : Package String) :
    contribute { package with menus := grouped menus } menu = { package with menus := grouped (menus ++ [menu]) } := by
  rw [contribute, Package.extendMenu]
  by_cases known : menu.id ∈ menus.map Menu.id
  · rw [grouped_known menus menu known]
    simp only [(known_iff menus menu.id).mpr known, if_true]
  · rw [grouped_new menus menu known]
    have unknown : (grouped menus).any (·.1 == menu.id) = false :=
      Bool.eq_false_iff.mpr (mt (known_iff menus menu.id).mp known)
    simp only [unknown, Bool.false_eq_true, if_false]

theorem contribute_all (package : Package String) (earlier : List Menu) :
    menus.foldl contribute { package with menus := grouped earlier } =
      { package with menus := grouped (earlier ++ menus) } := by
  induction menus generalizing earlier with
  | nil => rw [List.append_nil, List.foldl_nil]
  | cons menu rest ih => rw [List.foldl_cons, contribute_grouped, ih, List.append_assoc, List.singleton_append]

end Menu

namespace Registry

variable {η σ : Type} (registry : Registry η σ)

theorem package_eq : registry.package =
    { registry.commands.foldl DeclaredCommand.contribute {} with menus := Menu.grouped registry.menus } := by
  have start : registry.commands.foldl DeclaredCommand.contribute {} =
      { registry.commands.foldl DeclaredCommand.contribute {} with menus := Menu.grouped [] } := by
    have none := DeclaredCommand.contribute_menus {} registry.commands
    generalize registry.commands.foldl DeclaredCommand.contribute {} = package at none ⊢
    cases package
    cases none
    rfl
  rw [package, start, Menu.contribute_all, List.nil_append]

theorem package_commands : registry.package.commands = registry.commands.map DeclaredCommand.descriptor := by
  rw [package_eq, DeclaredCommand.contribute_commands, List.nil_append]

theorem package_menus : registry.package.menus = Menu.grouped registry.menus := by
  rw [package_eq]

theorem package_events : registry.package.events.Nodup ∧ ∀ event, event ∈ registry.package.events ↔
    ∃ command ∈ registry.commands, command.activates = true ∧ event = command.activationEvent := by
  rw [package_eq]
  simpa using @DeclaredCommand.contribute_events registry.commands {} List.nodup_nil

end Registry

end Extension
