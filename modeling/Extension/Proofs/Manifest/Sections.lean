import Extension.Proofs.Entries
import Extension.Proofs.Manifest.Overlay

namespace Extension.Manifest

/-! What a merge makes of the sections of a manifest.

The fragment leaves room for its commands, is laid over the menus, and adds the events that are missing.  It takes its
part in a merge by its sections alone.
-/

section Contents

variable (manifest : Entries Json WideText)

def eventsIn : List Json :=
  itemsAt manifest "activationEvents"

def commandsIn : List Json :=
  itemsAt (tableAt manifest "contributes") "commands"

def menusIn : Entries Json WideText :=
  tableAt (tableAt manifest "contributes") "menus"

end Contents

/-! Commands and their ids -/

/-- The id of a command, if it has one that is a text. -/
def textId? (command : Json) : Option WideText :=
  match get? command "command" with
  | .ok (some (.text id)) => some id
  | _ => none

def hasIdIn (ids : List WideText) (command : Json) : Bool :=
  (textId? command).any ids.contains

/-- A command that can be asked for its id: an object, of which the id is missing or neither a list nor an object. -/
def IsComparable (command : Json) : Prop :=
  ∃ id?, get? command "command" = .ok id? ∧ isScalar (id?.getD .null) = true

section Commands

variable {command id : Json} {commands : List Json} {ids more : List WideText} {text : WideText}

theorem same_text_iff : (Json.text text).same id = true ↔ id = .text text := by
  cases id with
  | text other => rw [Pairs.same_text, beq_iff_eq, Json.text.injEq, eq_comm]
  | _ => simp [Json.same, Json.isNaN, Json.number?]

theorem any_same_iff {held : List Json} : held.any ((Json.text text).same ·) = true ↔ .text text ∈ held := by
  simp [List.any_eq_true, same_text_iff]

theorem any_same_texts : ((ids.map Json.text).any (·.same id)) = true ↔ ∃ text ∈ ids, id = .text text := by
  simp [List.any_eq_true, same_text_iff]

theorem hasIdIn_iff : hasIdIn ids command = true ↔ ∃ id ∈ ids, textId? command = some id := by
  simp [hasIdIn, Option.any_eq_true, and_comm]

theorem textId?_eq (found : get? command "command" = .ok (some id)) :
    textId? command = some text ↔ id = .text text := by
  rw [textId?, found]
  cases id <;> simp

theorem isKept_of_get? {id? : Option Json} (found : get? command "command" = .ok id?)
    (scalar : isScalar (id?.getD .null) = true) :
    isKept (ids.map .text) command = .ok (!hasIdIn ids command) := by
  have met : (ids.map Json.text).any (·.same (id?.getD .null)) = hasIdIn ids command := by
    rw [Bool.eq_iff_iff, any_same_texts, hasIdIn_iff]
    cases id? with
    | none => simp [textId?, found]
    | some id => simp only [textId?_eq found, Option.getD_some]
  rw [isKept, found]
  change (if isScalar (id?.getD .null) then Except.ok (!(ids.map Json.text).any (·.same (id?.getD .null)))
    else .error ShapeFault.wrongType) = _
  rw [if_pos scalar, met]

theorem isKept_ok_iff {answer : Bool} :
    isKept (ids.map .text) command = .ok answer ↔ IsComparable command ∧ answer = !hasIdIn ids command := by
  constructor
  · intro tested
    have comparable : IsComparable command := by
      rw [isKept] at tested
      cases found : get? command "command" with
      | error fault => simp [found] at tested
      | ok id? =>
          rw [found] at tested
          cases scalar : isScalar (id?.getD .null) with
          | true => exact ⟨id?, found, scalar⟩
          | false => simp [scalar] at tested
    obtain ⟨id?, found, scalar⟩ := comparable
    rw [isKept_of_get? found scalar, Except.ok.injEq] at tested
    exact ⟨⟨id?, found, scalar⟩, tested.symm⟩
  · rintro ⟨⟨id?, found, scalar⟩, rfl⟩
    exact isKept_of_get? found scalar

/-- Keeping the commands of other ids is filtering, if all of them can be asked for their ids. -/
theorem filterM_isKept_iff {kept : List Json} : commands.filterM (isKept (ids.map .text)) = .ok kept ↔
    (∀ command ∈ commands, IsComparable command) ∧ kept = commands.filter fun command => !hasIdIn ids command := by
  have comparable : (∀ command ∈ commands, ∃ answer, isKept (ids.map .text) command = .ok answer) ↔
      ∀ command ∈ commands, IsComparable command := by
    simp only [isKept_ok_iff, exists_and_left, exists_eq, and_true]
  rw [filterM_ok_iff, comparable]
  refine and_congr_right fun all => ?_
  have tests : ∀ command ∈ commands, accepts (isKept (ids.map .text) command) = !hasIdIn ids command :=
    fun command member => by rw [isKept_ok_iff.mpr ⟨all command member, rfl⟩, accepts]
  rw [List.filter_congr tests]

theorem commandId_eq_text : commandId command = .ok (.text text) ↔ textId? command = some text := by
  cases command with
  | dict fields =>
      rw [commandId, getSection, textId?, get?]
      cases List.lookup (WideText.ofString "command") fields with
      | none => simp
      | some id => cases id <;> simp [isScalar]
  | _ => simp [commandId, getSection, textId?, get?]

theorem identified_iff : commands.mapM commandId = .ok (ids.map .text) ↔ commands.map textId? = ids.map some := by
  rw [mapM_ok_iff, List.forall₂_map_right_iff, ← List.forall₂_eq_eq_eq, List.forall₂_map_left_iff,
    List.forall₂_map_right_iff]
  simp only [commandId_eq_text]

theorem isComparable_of_textId? (identified : textId? command = some text) : IsComparable command := by
  rw [textId?] at identified
  split at identified
  · exact ⟨_, by assumption, rfl⟩
  · cases identified

theorem hasIdIn_append : hasIdIn (ids ++ more) command = (hasIdIn ids command || hasIdIn more command) := by
  rw [hasIdIn, hasIdIn, hasIdIn]
  cases textId? command <;> simp

end Commands

/-! Events -/

/-- Every text that is not there yet is added, where none is given twice. -/
theorem joinEvents_texts {texts : List WideText} (distinct : texts.Nodup) (held : List Json) :
    joinEvents held (texts.map .text) =
      held ++ (texts.filter fun text => !held.any ((Json.text text).same ·)).map .text := by
  induction texts generalizing held with
  | nil => simp [joinEvents]
  | cons first rest ih =>
      obtain ⟨absent, others⟩ := List.nodup_cons.mp distinct
      rw [List.map_cons, joinEvents, List.foldl_cons, ← joinEvents.eq_def, ih others, List.filter_cons]
      cases met : held.any ((Json.text first).same ·) with
      | true => simp
      | false =>
          have unmet : ∀ text ∈ rest, (!(held ++ [Json.text first]).any ((Json.text text).same ·)) =
              !held.any ((Json.text text).same ·) := by
            intro text member
            have differ : (text == first) = false := beq_false_of_ne fun same => absent (same ▸ member)
            simp [Pairs.same_text, differ]
          simp only [Bool.false_eq_true, if_false, List.filter_congr unmet, Bool.not_false, if_true, List.map_cons,
            List.append_assoc, List.singleton_append]

theorem mem_joinEvents {texts : List WideText} (distinct : texts.Nodup) {held : List Json} {text : WideText} :
    .text text ∈ joinEvents held (texts.map .text) ↔ .text text ∈ held ∨ text ∈ texts := by
  rw [joinEvents_texts distinct, List.mem_append, List.mem_map_of_injective fun _ _ => Json.text.inj, List.mem_filter,
    Bool.not_eq_true', ← Bool.not_eq_true, any_same_iff]
  by_cases met : .text text ∈ held <;> simp [met]

namespace Fragment

variable (fragment : Fragment) (manifest : Entries Json WideText)

def fields : Entries Json WideText :=
  [("activationEvents", .list (fragment.events.map .text)), ("contributes", .dict fragment.contributes)]

theorem json_eq : fragment.json = .dict fragment.fields := rfl

/-- The commands of a manifest that are not the fragment's. -/
def others (commands : List Json) : List Json :=
  commands.filter fun command => !hasIdIn fragment.ids command

/-- The manifest with the fragment laid over it. -/
def laidOver : Entries Json WideText :=
  fragment.overlay (fragment.others (commandsIn manifest)) manifest

/-- The section of the commands, if the fragment has a part in it. -/
def commandSection (commands : List Json) : Option Json :=
  if fragment.commands.isEmpty then none else some (.list (fragment.others commands ++ fragment.commands))

def menuSection (menus : Entries Json WideText) : Option Json :=
  if List.isEmpty fragment.menus then none else some (.dict (menus.putAll fragment.menus))

/-- Can the commands of a manifest be told from those of the fragment, if it has any? -/
def Fits : Prop :=
  fragment.commands = [] ∨ ∀ command ∈ commandsIn manifest, IsComparable command

theorem textIds : fragment.commands.map textId? = fragment.ids.map some :=
  identified_iff.mp fragment.identified

theorem hasIdIn_command {command : Json} (member : command ∈ fragment.commands) :
    hasIdIn fragment.ids command = true := by
  have inside : textId? command ∈ fragment.ids.map some := fragment.textIds ▸ List.mem_map_of_mem member
  obtain ⟨id, known, same⟩ := List.mem_map.mp inside
  exact hasIdIn_iff.mpr ⟨id, known, same.symm⟩

theorem isComparable_command {command : Json} (member : command ∈ fragment.commands) : IsComparable command := by
  obtain ⟨id, _, same⟩ := hasIdIn_iff.mp (fragment.hasIdIn_command member)
  exact isComparable_of_textId? same

variable {fragment}

theorem ids_eq_nil (none : fragment.commands = []) : fragment.ids = [] := by
  have ids := fragment.textIds
  rwa [none, List.map_nil, eq_comm, List.map_eq_nil_iff] at ids

theorem others_of_none (none : fragment.commands = []) (commands : List Json) :
    fragment.others commands = commands := by
  rw [others, ids_eq_nil none, List.filter_eq_self]
  intro command _
  rw [hasIdIn]
  cases textId? command <;> rfl

variable (fragment)

theorem withCommands_others (contributes : Entries Json WideText) :
    fragment.withCommands (fragment.others (itemsAt contributes "commands")) contributes =
      contributes.putSome (.ofString "commands") (fragment.commandSection (itemsAt contributes "commands")) := by
  rw [withCommands, commandSection]
  split <;> rfl

theorem withMenus_eq (contributes : Entries Json WideText) : fragment.withMenus contributes =
    contributes.putSome (.ofString "menus") (fragment.menuSection (tableAt contributes "menus")) := by
  rw [withMenus, menuSection]
  split <;> rfl

theorem contributes_laidOver : tableAt (fragment.laidOver manifest) "contributes" =
    ((tableAt manifest "contributes").putSome (.ofString "commands")
      (fragment.commandSection (commandsIn manifest))).putSome (.ofString "menus")
        (fragment.menuSection (menusIn manifest)) := by
  have menus : tableAt (fragment.withCommands (fragment.others (commandsIn manifest)) (tableAt manifest "contributes"))
      "menus" = menusIn manifest := by
    rw [tableAt, lookup_menus_withCommands]
    rfl
  rw [laidOver, tableAt_overlay, withMenus_eq, menus]
  exact congrArg (Entries.putSome · _ _) (fragment.withCommands_others _)

theorem laidOver_eq : fragment.laidOver manifest = (manifest.put (.ofString "activationEvents")
    (.list (joinEvents (eventsIn manifest) (fragment.events.map .text)))).put (.ofString "contributes")
      (.dict (tableAt (fragment.laidOver manifest) "contributes")) := by
  rw [laidOver, tableAt_overlay]
  rfl

/-! What is found in the sections -/

theorem lookup_contributes_laidOver : List.lookup (.ofString "contributes") (fragment.laidOver manifest) =
    some (.dict (tableAt (fragment.laidOver manifest) "contributes")) := by
  rw [laidOver, lookup_contributes_overlay, tableAt_overlay]

theorem eventsIn_laidOver :
    eventsIn (fragment.laidOver manifest) = joinEvents (eventsIn manifest) (fragment.events.map .text) :=
  itemsAt_overlay ..

theorem lookup_commands_laidOver :
    List.lookup (.ofString "commands") (tableAt (fragment.laidOver manifest) "contributes") =
      (fragment.commandSection (commandsIn manifest)).or
        (List.lookup (.ofString "commands") (tableAt manifest "contributes")) := by
  rw [contributes_laidOver, Entries.lookup_putSome_other sections_differ.2, Entries.lookup_putSome_self]

theorem lookup_menus_laidOver :
    List.lookup (.ofString "menus") (tableAt (fragment.laidOver manifest) "contributes") =
      (fragment.menuSection (menusIn manifest)).or
        (List.lookup (.ofString "menus") (tableAt manifest "contributes")) := by
  rw [contributes_laidOver, Entries.lookup_putSome_self, Entries.lookup_putSome_other sections_differ.2.symm]

theorem commandsIn_laidOver :
    commandsIn (fragment.laidOver manifest) = fragment.others (commandsIn manifest) ++ fragment.commands := by
  rw [commandsIn, itemsAt, lookup_commands_laidOver, commandSection]
  cases commands : fragment.commands with
  | nil => rw [others_of_none commands, List.append_nil]; rfl
  | cons first rest => rfl

theorem menusIn_laidOver : menusIn (fragment.laidOver manifest) = (menusIn manifest).putAll fragment.menus := by
  rw [menusIn, tableAt, lookup_menus_laidOver, menuSection]
  cases menus : fragment.menus with
  | nil => rfl
  | cons first rest => rfl

/-! The fragment itself is a manifest. -/

theorem lookup_events_fields :
    List.lookup (.ofString "activationEvents") fragment.fields = some (.list (fragment.events.map .text)) :=
  List.lookup_cons_self

theorem lookup_contributes_fields :
    List.lookup (.ofString "contributes") fragment.fields = some (.dict fragment.contributes) := by
  have differ : (WideText.ofString "contributes" == WideText.ofString "activationEvents") = false :=
    beq_false_of_ne sections_differ.1.symm
  simp [fields, List.lookup_cons, differ]

theorem contributes_fields : tableAt fragment.fields "contributes" = fragment.contributes := by
  rw [tableAt, lookup_contributes_fields]

theorem isManifest_fields : IsManifest fragment.fields where
  events found there := by
    cases there
    exact ⟨_, rfl⟩
  contributes found there := by
    cases there
    exact ⟨_, rfl⟩
  commands found there := by
    rw [contributes_fields, lookup_commands] at there
    split at there <;> cases there
    exact ⟨_, rfl⟩
  menus found there := by
    rw [contributes_fields, lookup_menus] at there
    split at there <;> cases there
    exact ⟨_, rfl⟩

theorem eventsIn_fields : eventsIn fragment.fields = fragment.events.map .text := by
  rw [eventsIn, itemsAt, lookup_events_fields]

theorem commandsIn_fields : commandsIn fragment.fields = fragment.commands := by
  rw [commandsIn, contributes_fields, itemsAt, lookup_commands]
  cases fragment.commands <;> rfl

theorem menusIn_fields : menusIn fragment.fields = fragment.menus := by
  rw [menusIn, contributes_fields, tableAt, lookup_menus]
  cases fragment.menus <;> rfl

end Fragment

variable {entries : Entries Json WideText} {merged : Json}

/-- When a merge has a result, and which one. -/
theorem merge_ok_iff (manifest : IsManifest entries) (fragment : Fragment) :
    merge (.dict entries) fragment.json = .ok merged ↔
      fragment.Fits entries ∧ merged = .dict (fragment.laidOver entries) := by
  rw [merge_fragment manifest, Fragment.kept, Fragment.Fits]
  cases commands : fragment.commands with
  | nil =>
      have unused : fragment.overlay [] entries = fragment.laidOver entries := by
        simp [Fragment.laidOver, Fragment.overlay, Fragment.withCommands, commands]
      change Except.ok (Json.dict (fragment.overlay [] entries)) = .ok merged ↔ _
      rw [unused, Except.ok.injEq, eq_comm]
      simp
  | cons first rest =>
      change ((commandsIn entries).filterM (isKept (fragment.ids.map .text))).map _ = _ ↔ _
      constructor
      · intro done
        cases tested : (commandsIn entries).filterM (isKept (fragment.ids.map .text)) with
        | error fault =>
            rw [tested] at done
            cases done
        | ok kept =>
            rw [tested] at done
            cases done
            obtain ⟨comparable, rfl⟩ := filterM_isKept_iff.mp tested
            exact ⟨.inr comparable, rfl⟩
      · rintro ⟨fits, rfl⟩
        rw [filterM_isKept_iff.mpr ⟨fits.resolve_left (List.cons_ne_nil _ _), rfl⟩]
        rfl

end Extension.Manifest
