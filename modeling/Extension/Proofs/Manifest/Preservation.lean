import Extension.Proofs.Manifest.Regeneration
import Extension.Proofs.Manifest.Sections
import Extension.Proofs.Manifest.Texts

namespace Extension

/-! Merging loses nothing, and nothing is there twice.

The sections of a merged manifest are made of what was there under other ids and of what the package adds, and the
package can be read out of them again.
-/

namespace Document

variable {document : Document} {items : List Document} {entries : List (Document × Document)} {json : Json}

theorem ofItems_of_written {members : List Json} (written : itemsToJson items = .ok members)
    (each : ∀ item ∈ items, ∀ json, item.toJson = .ok json → ofJson json = item) : ofItems members = items := by
  rw [itemsToJson_iff] at written
  induction written with
  | nil => rfl
  | cons one _ ih =>
      obtain ⟨first, others⟩ := List.forall_mem_cons.mp each
      rw [ofItems, first _ one, ih others]

theorem entriesToJson_iff {fields : Entries Json WideText} : entriesToJson entries = .ok fields ↔
    List.Forall₂ (fun entry field => entry.1.keyText = .ok field.1 ∧ entry.2.toJson = .ok field.2) entries fields := by
  induction entries generalizing fields with
  | nil => simp [entriesToJson, eq_comm]
  | cons entry rest ih =>
      rw [entriesToJson, List.forall₂_cons_left_iff]
      simp only [← ih]
      cases key : entry.1.keyText with
      | error fault => simp
      | ok name =>
          cases value : entry.2.toJson with
          | error fault => simp
          | ok first =>
              cases others : entriesToJson rest with
              | error fault => simp
              | ok more => simp [eq_comm]

theorem ofEntries_of_written {fields : Entries Json WideText} (written : entriesToJson entries = .ok fields)
    (keys : ∀ entry ∈ entries, ∃ key, entry.1 = .text key)
    (each : ∀ entry ∈ entries, ∀ json, entry.2.toJson = .ok json → ofJson json = entry.2) :
    ofEntries fields = entries := by
  rw [entriesToJson_iff] at written
  induction written with
  | nil => rfl
  | @cons entry field _ _ one _ ih =>
      obtain ⟨⟨key, same⟩, following⟩ := List.forall_mem_cons.mp keys
      obtain ⟨first, others⟩ := List.forall_mem_cons.mp each
      obtain ⟨held, value⟩ := entry
      obtain ⟨name, json⟩ := field
      cases same
      obtain ⟨⟨⟩, value⟩ := one
      rw [ofEntries, first _ value, ih following others]

/-- A document of texts, lists and tables that have texts for keys. -/
inductive IsPlain : Document → Prop where
  | text (text : WideText) : IsPlain (.text text)
  | list {items : List Document} (each : ∀ item ∈ items, IsPlain item) : IsPlain (.list items)
  | dict {entries : List (Document × Document)} (keys : ∀ entry ∈ entries, ∃ key, entry.1 = .text key)
      (values : ∀ entry ∈ entries, IsPlain entry.2) : IsPlain (.dict entries)

/-- Nothing gets lost when a plain document is written. -/
theorem IsPlain.ofJson_eq (plain : document.IsPlain) (written : document.toJson = .ok json) :
    ofJson json = document := by
  induction plain generalizing json with
  | text text =>
      cases written
      rfl
  | list each ih =>
      obtain ⟨members, made, rfl⟩ := toJson_list written
      rw [ofJson, ofItems_of_written made fun item member _ => ih item member]
  | dict keys values ih =>
      obtain ⟨fields, made, rfl⟩ := toJson_dict written
      rw [ofJson, ofEntries_of_written made keys fun entry member _ => ih entry member]

end Document

namespace Manifest

open Document

theorem isInherited_isPlain : IsInherited IsPlain where
  list _ := .list
  table entries _ values := by
    refine .dict (fun entry member => ?_) fun entry member => ?_
    · obtain ⟨field, _, rfl⟩ := List.mem_map.mp member
      exact ⟨_, rfl⟩
    · obtain ⟨field, inside, rfl⟩ := List.mem_map.mp member
      exact values field inside

theorem ofEntries_menus {menus : List (WideText × List (MenuItem WideText))} {fields : Entries Json WideText}
    (written : entriesToJson (menuTable menus) = .ok fields) : ofEntries fields = menuTable menus := by
  refine ofEntries_of_written written (fun entry member => ?_) fun entry member json => ?_
  · obtain ⟨menu, _, rfl⟩ := List.mem_map.mp member
    exact ⟨_, rfl⟩
  · obtain ⟨menu, _, rfl⟩ := List.mem_map.mp member
    refine IsPlain.ofJson_eq (.list fun document inside => ?_)
    obtain ⟨item, _, rfl⟩ := List.mem_map.mp inside
    exact isInherited_isPlain.item .text item

/-- Menus may be read in another order than they are written in. -/
theorem entriesToJson_perm {menus : List (WideText × List (MenuItem WideText))} {fields others : Entries Json WideText}
    (written : entriesToJson (menuTable menus) = .ok fields) (same : others.Perm fields) :
    ∃ ordered, entriesToJson (menuTable ordered) = .ok others ∧ ordered.Perm menus := by
  rw [entriesToJson_iff, menuTable, List.forall₂_map_left_iff] at written
  obtain ⟨ordered, related, perm⟩ := List.perm_comp_forall₂ same written.flip
  exact ⟨ordered, entriesToJson_iff.mpr (List.forall₂_map_left_iff.mpr related.flip), perm⟩

/-! The parts of a merged manifest -/

/-- What a manifest contributes under some ids, as a manifest of its own. -/
def selection (manifest : Entries Json WideText) (commandIds menuIds : List WideText) : Json :=
  .dict [("activationEvents", .list []), ("contributes", .dict [
    ("commands", .list ((commandsIn manifest).filter (hasIdIn commandIds))),
    ("menus", .dict ((menusIn manifest).only menuIds))])]

def Package.commandIds (package : Package WideText) : List WideText :=
  package.commands.map Command.id

def Package.menuIds (package : Package WideText) : List WideText :=
  package.menus.map Prod.fst

/-- `merged` is the manifest `entries` with everything in it that the package does not replace, and with the package,
which is written as `generated`. -/
structure Keeps (package : Package WideText) (entries generated merged : Entries Json WideText) : Prop where
  generatedSections : IsManifest generated
  sections : IsManifest merged
  /-- The commands of other ids stand in front, as they were, and no other ones are there. -/
  commands : commandsIn merged =
    (commandsIn entries).filter (fun command => !hasIdIn package.commandIds command) ++ commandsIn generated
  ownCommands : (commandsIn merged).filter (hasIdIn package.commandIds) = commandsIn generated
  /-- The menus of other ids are what they were. -/
  menus : (menusIn merged).without package.menuIds = (menusIn entries).without package.menuIds
  ownMenus : ((menusIn merged).only package.menuIds).Perm (menusIn generated)
  /-- The package is read back from what is there under its ids, the menus in some order. -/
  read : ∃ read : Package WideText,
    Package.ofDocument (.ofJson (selection merged package.commandIds package.menuIds)) = .ok (read.map .text) ∧
      read.commands = package.commands ∧ read.menus.Perm package.menus
  /-- The events that are missing are added, each one once. -/
  events : eventsIn merged =
    eventsIn entries ++ (eventsIn generated).filter fun event => !(eventsIn entries).any (event.same ·)
  once : (eventsIn generated).Nodup
  /-- Everything else is what it was. -/
  remaining : merged.without ["activationEvents", "contributes"] = entries.without ["activationEvents", "contributes"]
  contributed : (tableAt merged "contributes").without ["commands", "menus"] =
    (tableAt entries "contributes").without ["commands", "menus"]
  noCommands : package.commands = [] → List.lookup (.ofString "commands") (tableAt merged "contributes") =
    List.lookup (.ofString "commands") (tableAt entries "contributes")
  noMenus : package.menus = [] → List.lookup (.ofString "menus") (tableAt merged "contributes") =
    List.lookup (.ofString "menus") (tableAt entries "contributes")

section Parts

variable {package : Package WideText} {entries : Entries Json WideText} {fragment : Fragment}

theorem Fragment.Writes.menuIds (writes : fragment.Writes package) : fragment.menus.keys = package.menuIds := by
  have related := writes.menus
  rw [entriesToJson_iff, menuTable, List.forall₂_map_left_iff] at related
  rw [Entries.keys, Package.menuIds, ← List.forall₂_eq_eq_eq, List.forall₂_map_left_iff, List.forall₂_map_right_iff]
  refine related.flip.imp fun field menu one => ?_
  simpa [keyText] using one.1.symm

theorem Fragment.Writes.events_nodup (writes : fragment.Writes package) (proper : package.IsProper) :
    fragment.events.Nodup := by
  rw [writes.events]
  exact (List.mergeSort_perm ..).nodup_iff.mpr proper.events

theorem Fragment.ownCommands_laidOver (fragment : Fragment) (manifest : Entries Json WideText) :
    (commandsIn (fragment.laidOver manifest)).filter (hasIdIn fragment.ids) = fragment.commands := by
  have none : (fragment.others (commandsIn manifest)).filter (hasIdIn fragment.ids) = [] :=
    List.filter_eq_nil_iff.mpr fun command member => by simpa using (List.mem_filter.mp member).2
  have all : fragment.commands.filter (hasIdIn fragment.ids) = fragment.commands :=
    List.filter_eq_self.mpr fun _ => fragment.hasIdIn_command
  rw [commandsIn_laidOver, List.filter_append, none, all, List.nil_append]

theorem Fragment.ownMenus_laidOver {manifest : Entries Json WideText} (distinct : (menusIn manifest).keys.Nodup)
    (own : fragment.menus.keys.Nodup) :
    ((menusIn (fragment.laidOver manifest)).only fragment.menus.keys).Perm fragment.menus := by
  rw [menusIn_laidOver]
  exact Entries.only_putAll_perm distinct own

/-- The package is read back from its commands and menus. -/
theorem reads_selection {manifest : Entries Json WideText} (writes : fragment.Writes package)
    (commands : (commandsIn manifest).filter (hasIdIn package.commandIds) = fragment.commands)
    (menus : ((menusIn manifest).only package.menuIds).Perm fragment.menus) :
    ∃ read : Package WideText,
      Package.ofDocument (.ofJson (selection manifest package.commandIds package.menuIds)) = .ok (read.map .text) ∧
        read.commands = package.commands ∧ read.menus.Perm package.menus := by
  obtain ⟨documents, made, written⟩ := writes.commands
  -- The menus stand where the manifest had them, and are the document of a package that has them in that order.
  obtain ⟨ordered, table, perm⟩ := entriesToJson_perm writes.menus menus
  rw [List.mapM_map] at made
  have listed : ofItems fragment.commands = documents := ofItems_of_written written fun document member _ => by
    obtain ⟨command, _, one⟩ := mem_mapM_ok made member
    exact (isInherited_isPlain.command .text one).ofJson_eq
  have commandsRead : documents.mapM readCommand = .ok (package.commands.map (Command.map .text)) :=
    mapM_reads (fun _ _ => readCommand_document) made
  have document : ofJson (selection manifest package.commandIds package.menuIds) = .ofTexts [
      ("activationEvents", .list []), ("contributes", .ofTexts [("commands", .list documents),
        ("menus", .dict (menuTable ordered))])] := by
    rw [selection, commands, ← listed, ← ofEntries_menus table]
    rfl
  refine ⟨{ commands := package.commands, menus := ordered }, ?_, rfl, perm⟩
  rw [document, ofDocument_ofTexts]
  change (do
    let commands ← documents.mapM readCommand
    let menus ← readMenus (.dict (menuTable ordered))
    return Package.mk [] commands menus) = _
  rw [commandsRead, readMenus_menuTable]
  rfl

theorem keeps_laidOver (manifest : IsManifest entries) (distinct : (menusIn entries).keys.Nodup)
    (proper : package.IsProper) (writes : fragment.Writes package) :
    Keeps package entries fragment.fields (fragment.laidOver entries) := by
  have ids : package.commandIds = fragment.ids := writes.ids.symm
  have menuIds : package.menuIds = fragment.menus.keys := writes.menuIds.symm
  have once := writes.events_nodup proper
  have ownCommands : (commandsIn (fragment.laidOver entries)).filter (hasIdIn package.commandIds) = fragment.commands :=
    ids ▸ fragment.ownCommands_laidOver entries
  have ownMenus : ((menusIn (fragment.laidOver entries)).only package.menuIds).Perm fragment.menus :=
    menuIds ▸ Fragment.ownMenus_laidOver distinct (writes.menuIds ▸ proper.menus)
  exact {
    generatedSections := fragment.isManifest_fields
    sections := fragment.isManifest_overlay manifest _
    commands := by rw [fragment.commandsIn_laidOver, fragment.commandsIn_fields, ids, Fragment.others]
    ownCommands := by rw [ownCommands, fragment.commandsIn_fields]
    menus := by rw [fragment.menusIn_laidOver, menuIds, Entries.without_putAll fun _ => id]
    ownMenus := by rwa [fragment.menusIn_fields]
    read := reads_selection writes ownCommands ownMenus
    events := by
      rw [fragment.eventsIn_laidOver, fragment.eventsIn_fields, joinEvents_texts once, List.filter_map]
      rfl
    once := by
      rw [fragment.eventsIn_fields]
      exact once.map fun _ _ => Json.text.inj
    remaining := by rw [fragment.laidOver_eq, Entries.without_put (by simp), Entries.without_put (by simp)]
    contributed := by
      rw [fragment.contributes_laidOver, Entries.without_putSome (by simp), Entries.without_putSome (by simp)]
    noCommands := fun none => by
      have empty : fragment.commands = [] := by
        have same := fragment.textIds
        rwa [writes.ids, none, List.map_nil, List.map_nil, List.map_eq_nil_iff] at same
      rw [fragment.lookup_commands_laidOver, Fragment.commandSection, empty]
      rfl
    noMenus := fun none => by
      have empty : fragment.menus = [] := by
        rwa [Package.menuIds, none, List.map_nil, eq_comm, Entries.keys, List.map_eq_nil_iff] at menuIds
      rw [fragment.lookup_menus_laidOver, Fragment.menuSection, empty]
      rfl }

end Parts

variable {package : Package WideText} {entries : Entries Json WideText} {merged : Json}

/-- Merging a package into a manifest keeps all that is there under other ids, and the package is there as it is
generated. -/
theorem merging_loses_nothing (manifest : IsManifest entries) (distinct : (menusIn entries).keys.Nodup)
    (proper : package.IsProper) {generated : Json} (written : (package.map .text).toJson = .ok generated)
    (done : merge (.dict entries) generated = .ok merged) :
    ∃ sections result, generated = .dict sections ∧ merged = .dict result ∧ Keeps package entries sections result := by
  obtain ⟨fragment, rfl, writes⟩ := fragment_written written
  obtain ⟨_, rfl⟩ := (merge_ok_iff manifest fragment).mp done
  exact ⟨fragment.fields, fragment.laidOver entries, rfl, rfl, keeps_laidOver manifest distinct proper writes⟩

/-- A manifest with what a package replaces, a command without an id, an event twice, and a section of its own. -/
def crowded : Entries Json WideText :=
  [("name", .text "x"), ("activationEvents", .list [.text "*", .int 1, .text "*"]),
    ("contributes", .dict [("menus", .dict [("m", .list []), ("n", .list [])]), ("views", .null),
      ("commands", .list [.dict [("command", .text "a")], .dict [], .dict [("command", .text "b")], .dict []])])]

/-- A package with a command twice. -/
def doubled : Package WideText where
  events := ["onCommand:a", "*"]
  commands := [{ id := "a", title := some "A" }, { id := "a" }]
  menus := [("m", [{ command := "a" }])]

def doubledJson : Json :=
  .dict [("activationEvents", .list [.text "*", .text "onCommand:a"]), ("contributes", .dict [
    ("commands", .list [.dict [("command", .text "a"), ("title", .text "A")], .dict [("command", .text "a")]]),
    ("menus", .dict [("m", .list [.dict [("command", .text "a")]])])])]

def filled : Json :=
  .dict [("name", .text "x"), ("activationEvents", .list [.text "*", .int 1, .text "*", .text "onCommand:a"]),
    ("contributes", .dict [
      ("menus", .dict [("m", .list [.dict [("command", .text "a")]]), ("n", .list [])]), ("views", .null),
      ("commands", .list [.dict [], .dict [("command", .text "b")], .dict [],
        .dict [("command", .text "a"), ("title", .text "A")], .dict [("command", .text "a")]])])]

theorem isManifest_crowded : IsManifest crowded where
  events found there := by
    cases there
    exact ⟨_, rfl⟩
  contributes found there := by
    cases there
    exact ⟨_, rfl⟩
  commands found there := by
    cases there
    exact ⟨_, rfl⟩
  menus found there := by
    cases there
    exact ⟨_, rfl⟩

theorem filled_from_crowded : (doubled.map Document.text).toJson = .ok doubledJson ∧
    merge (.dict crowded) doubledJson = .ok filled ∧
    ∃ sections result, doubledJson = .dict sections ∧ filled = .dict result ∧
      Keeps doubled crowded sections result := by
  have written : (doubled.map Document.text).toJson = .ok doubledJson := by
    rw [package_toJson_eq (show doubled.events.Perm ["*", "onCommand:a"] by decide) (by decide)]
    rfl
  have done : merge (.dict crowded) doubledJson = .ok filled := by rfl
  have distinct : (menusIn crowded).keys.Nodup := by decide
  exact ⟨written, done, merging_loses_nothing isManifest_crowded distinct ⟨by decide, by decide⟩ written done⟩

end Manifest

end Extension
