import Extension.Manifest.Codec
import Extension.Manifest.Merge
import Mathlib.Data.List.Forall2

namespace Extension

/-! Packages as fragments of a manifest.

Whatever package has been written, the document has two sections: the activation events, which are texts, and what is
contributed, which has commands with their ids and menus as far as there are any.
-/

section Written

variable {α β ε : Type} {f : α → Except ε β} {elements : List α}

theorem mapM_ok_iff {results : List β} :
    elements.mapM f = .ok results ↔ List.Forall₂ (fun item result => f item = .ok result) elements results := by
  constructor
  · intro done
    induction elements generalizing results with
    | nil =>
        cases done
        exact .nil
    | cons first rest ih =>
        rw [List.mapM_cons] at done
        cases one : f first with
        | error fault =>
            rw [one] at done
            cases done
        | ok result =>
            cases others : rest.mapM f with
            | error fault =>
                rw [one, others] at done
                cases done
            | ok more =>
                rw [one, others] at done
                cases done
                exact .cons one (ih others)
  · intro all
    induction all with
    | nil => rfl
    | cons one _ ih =>
        rw [List.mapM_cons, one, ih]
        rfl

/-- The first element that fails decides what the whole fails with. -/
theorem mapM_error {fault : ε} (failed : elements.mapM f = .error fault) :
    ∃ before item after, elements = before ++ item :: after ∧ (∀ earlier ∈ before, ∃ result, f earlier = .ok result) ∧
      f item = .error fault := by
  induction elements with
  | nil => cases failed
  | cons first rest ih =>
      rw [List.mapM_cons] at failed
      cases one : f first with
      | error other =>
          rw [one] at failed
          cases failed
          exact ⟨[], first, rest, rfl, nofun, one⟩
      | ok result =>
          cases others : rest.mapM f with
          | ok more =>
              rw [one, others] at failed
              cases failed
          | error other =>
              rw [one, others] at failed
              cases failed
              obtain ⟨before, item, after, rfl, passed, fails⟩ := ih others
              exact ⟨first :: before, item, after, rfl, List.forall_mem_cons.mpr ⟨⟨result, one⟩, passed⟩, fails⟩

theorem mapM_exists (each : ∀ item ∈ elements, ∃ result, f item = .ok result) :
    ∃ results, elements.mapM f = .ok results := by
  cases done : elements.mapM f with
  | ok results => exact ⟨results, rfl⟩
  | error fault =>
      obtain ⟨_, item, _, split, _, fails⟩ := mapM_error done
      obtain ⟨result, passes⟩ := each item (by simp [split])
      rw [fails] at passes
      cases passes

theorem exists_of_forall₂ {R : α → β → Prop} {items : List α} {results : List β} (all : List.Forall₂ R items results)
    {item : α} (member : item ∈ items) : ∃ result ∈ results, R item result := by
  induction all with
  | nil => cases member
  | cons one _ ih =>
      rcases List.mem_cons.mp member with rfl | inside
      · exact ⟨_, List.mem_cons_self .., one⟩
      · obtain ⟨found, there, related⟩ := ih inside
        exact ⟨found, List.mem_cons_of_mem _ there, related⟩

theorem mapM_ok_mem {results : List β} (done : elements.mapM f = .ok results) {item : α} (member : item ∈ elements) :
    ∃ result ∈ results, f item = .ok result :=
  exists_of_forall₂ (mapM_ok_iff.mp done) member

theorem mem_mapM_ok {results : List β} (done : elements.mapM f = .ok results) {result : β} (member : result ∈ results) :
    ∃ item ∈ elements, f item = .ok result :=
  exists_of_forall₂ (mapM_ok_iff.mp done).flip member

end Written

namespace Document

variable {items : List Document} {entries : List (Document × Document)} {json : Json}

theorem toJson_list (written : (Document.list items).toJson = .ok json) :
    ∃ members, itemsToJson items = .ok members ∧ json = .list members := by
  rw [toJson] at written
  cases made : itemsToJson items with
  | error fault => simp [made] at written
  | ok members =>
      simp only [made, Except.ok.injEq] at written
      exact ⟨members, rfl, written.symm⟩

theorem toJson_dict (written : (Document.dict entries).toJson = .ok json) :
    ∃ fields, entriesToJson entries = .ok fields ∧ json = .dict fields := by
  rw [toJson] at written
  cases made : entriesToJson entries with
  | error fault => simp [made] at written
  | ok fields =>
      simp only [made, Except.ok.injEq] at written
      exact ⟨fields, rfl, written.symm⟩

theorem itemsToJson_eq (items : List Document) : itemsToJson items = items.mapM toJson := by
  induction items with
  | nil => rfl
  | cons item rest ih =>
      rw [itemsToJson, List.mapM_cons, ih]
      cases item.toJson with
      | error fault => rfl
      | ok first => cases rest.mapM toJson <;> rfl

theorem itemsToJson_iff {members : List Json} :
    itemsToJson items = .ok members ↔ List.Forall₂ (fun item json => item.toJson = .ok json) items members := by
  rw [itemsToJson_eq, mapM_ok_iff]

theorem entriesToJson_cons {key : WideText} {value : Document} {fields : Entries Json WideText}
    (written : entriesToJson ((.text key, value) :: entries) = .ok fields) :
    ∃ first rest, value.toJson = .ok first ∧ entriesToJson entries = .ok rest ∧ fields = (key, first) :: rest := by
  rw [entriesToJson, keyText] at written
  cases one : value.toJson with
  | error fault => simp [one] at written
  | ok first =>
      cases others : entriesToJson entries with
      | error fault => simp [one, others] at written
      | ok rest =>
          simp only [one, others, Except.ok.injEq] at written
          exact ⟨first, rest, rfl, rfl, written.symm⟩

theorem entriesToJson_isEmpty {fields : Entries Json WideText} (written : entriesToJson entries = .ok fields) :
    fields.isEmpty = entries.isEmpty := by
  cases entries with
  | nil =>
      cases written
      rfl
  | cons entry rest =>
      rw [entriesToJson] at written
      split at written <;> cases written
      rfl

@[simp] theorem itemsToJson_texts (texts : List WideText) :
    itemsToJson (texts.map .text) = .ok (texts.map .text) := by
  induction texts with
  | nil => rfl
  | cons text rest ih => simp only [List.map_cons, itemsToJson, toJson, ih]

theorem before?_texts (left right : WideText) : (text left).before? (text right) = some (left.before right) := by
  rw [before?]

/-- Sorting texts puts them into the order of their code points. -/
theorem sort_texts (texts : List WideText) :
    sort (texts.map .text) = .ok ((texts.mergeSort fun left right => !right.before left).map .text) := by
  have comparable : comparable (texts.map .text) = true := by
    cases texts with
    | nil => rfl
    | cons first rest => simp [Document.comparable, before?_texts]
  rw [sort, if_pos comparable, List.map_mergeSort]
  intro left _ right _
  cases later : right.before left <;> simp [notAfter, before?_texts, later]

theorem pairwise_mergeSort_texts (texts : List WideText) :
    (texts.mergeSort fun left right => !right.before left).Pairwise fun left right => (!right.before left) = true := by
  refine List.pairwise_mergeSort (fun first second third left right => ?_) (fun first second => ?_) texts
  · rw [Bool.not_eq_true'] at left right ⊢
    exact WideText.not_before_trans left right
  · rcases WideText.not_before_total first second with after | after <;> simp [after]

/-- Sorting texts of which none occurs twice leaves each one before those that follow. -/
theorem pairwise_before_mergeSort {texts : List WideText} (distinct : texts.Nodup) :
    (texts.mergeSort fun left right => !right.before left).Pairwise fun left right => left.before right = true := by
  have differ : (texts.mergeSort fun left right => !right.before left).Pairwise (· ≠ ·) :=
    (List.mergeSort_perm texts _).nodup_iff.mpr distinct
  refine (pairwise_mergeSort_texts texts).imp₂ (fun left right after other => ?_) differ
  rw [Bool.not_eq_true'] at after
  exact WideText.before_of_not_before other after

/-- Sorting texts gives the list of them that is in order. -/
theorem mergeSort_eq_of_perm {texts ordered : List WideText} (same : texts.Perm ordered)
    (order : ordered.Pairwise fun left right => (!right.before left) = true) :
    texts.mergeSort (fun left right => !right.before left) = ordered := by
  refine ((List.mergeSort_perm texts _).trans same).eq_of_pairwise (fun left right _ _ after before => ?_)
    (pairwise_mergeSort_texts texts) order
  by_contra differ
  have first := WideText.before_of_not_before differ (Bool.not_eq_true' _ ▸ after)
  rw [first] at before
  cases before

end Document

namespace Manifest

/-- What a written package consists of. -/
structure Fragment where
  events : List WideText
  commands : List Json
  /-- The ids of the commands. -/
  ids : List WideText
  menus : Entries Json WideText
  identified : commands.mapM commandId = .ok (ids.map .text)

namespace Fragment

/-- The sections of what is contributed, as far as they have content. -/
def contributes (fragment : Fragment) : Entries Json WideText :=
  (if fragment.commands.isEmpty then [] else [(.ofString "commands", .list fragment.commands)]) ++
    (if List.isEmpty fragment.menus then [] else [(.ofString "menus", .dict fragment.menus)])

def json (fragment : Fragment) : Json :=
  .dict [("activationEvents", .list (fragment.events.map .text)), ("contributes", .dict fragment.contributes)]

end Fragment

open Document

/-- A command is written with its id in front. -/
theorem command_written {command : Command WideText} {document : Document} {json : Json}
    (made : (command.map .text).document = .ok document) (written : document.toJson = .ok json) :
    commandId json = .ok (.text command.id) := by
  rw [Command.document] at made
  cases icon : iconDocument (command.map Document.text).icon with
  | error fault => simp [icon] at made
  | ok icon =>
      simp only [icon, Except.ok.injEq] at made
      subst made
      obtain ⟨fields, inside, rfl⟩ := toJson_dict written
      obtain ⟨first, rest, id, _, rfl⟩ := entriesToJson_cons inside
      rw [Command.map, toJson, Except.ok.injEq] at id
      subst id
      rfl

theorem commands_written {commands : List (Command WideText)} {documents : List Document} {members : List Json}
    (made : (commands.map (Command.map Document.text)).mapM Command.document = .ok documents)
    (written : itemsToJson documents = .ok members) :
    members.mapM commandId = .ok ((commands.map Command.id).map .text) := by
  rw [List.mapM_map, mapM_ok_iff] at made
  rw [itemsToJson_iff] at written
  rw [List.map_map, mapM_ok_iff, List.forall₂_map_right_iff]
  induction made generalizing members with
  | nil =>
      cases written
      exact .nil
  | cons one _ ih =>
      cases written with
      | cons first following => exact .cons (command_written one first) (ih following)

def menuTable (menus : List (WideText × List (MenuItem WideText))) : List (Document × Document) :=
  menus.map fun menu => (.text menu.1, .list (menu.2.map fun item => (item.map Document.text).document))

/-- A package is written with its events in order. -/
theorem package_document_eq (package : Package WideText) :
    (package.map Document.text).document =
      ((package.commands.map (Command.map Document.text)).mapM Command.document).map fun commands => .ofTexts [
        ("activationEvents", .list ((package.events.mergeSort fun left right => !right.before left).map .text)),
        ("contributes", .ofTexts ((if commands.isEmpty then [] else [("commands", .list commands)]) ++
          (if (menuTable package.menus).isEmpty then [] else [("menus", .dict (menuTable package.menus))])))] := by
  rw [Package.document]
  change (((package.commands.map (Command.map Document.text)).mapM Command.document) >>= _) = _
  cases (package.commands.map (Command.map Document.text)).mapM Command.document with
  | error fault => rfl
  | ok commands =>
      change ((sort (package.events.map .text)).mapError CodecFault.shape >>= _) = _
      rw [sort_texts]
      simp [Except.mapError, Except.map, Package.map, Function.comp_def, menuTable, bind, Except.bind, pure, Except.pure]

/-- What a package is written as, if the order of its events is known. -/
theorem package_toJson_eq {package : Package WideText} {ordered : List WideText} (same : package.events.Perm ordered)
    (order : ordered.Pairwise fun left right => (!right.before left) = true) :
    (package.map Document.text).toJson =
      ((package.commands.map (Command.map Document.text)).mapM Command.document).bind fun commands =>
        (Document.ofTexts [("activationEvents", .list (ordered.map .text)),
          ("contributes", .ofTexts ((if commands.isEmpty then [] else [("commands", .list commands)]) ++
            (if (menuTable package.menus).isEmpty then [] else [("menus", .dict (menuTable package.menus))])))]).toJson
          |>.mapError .shape := by
  rw [Package.toJson, package_document_eq, mergeSort_eq_of_perm same order]
  cases (package.commands.map (Command.map Document.text)).mapM Command.document <;> rfl

/-- The document of a package, with its texts, if all its icons can be written. -/
theorem package_document {package : Package WideText} {document : Document}
    (made : (package.map .text).document = .ok document) :
    ∃ commands, (package.commands.map (Command.map Document.text)).mapM Command.document = .ok commands ∧
      document = .ofTexts [
        ("activationEvents", .list ((package.events.mergeSort fun left right => !right.before left).map .text)),
        ("contributes", .ofTexts ((if commands.isEmpty then [] else [("commands", .list commands)]) ++
          (if (menuTable package.menus).isEmpty then [] else [("menus", .dict (menuTable package.menus))])))] := by
  rw [package_document_eq] at made
  cases commands : (package.commands.map (Command.map Document.text)).mapM Command.document with
  | error fault =>
      rw [commands] at made
      cases made
  | ok documents =>
      rw [commands] at made
      exact ⟨documents, rfl, (Except.ok.inj made).symm⟩

/-- The sections that have content are written, and no other ones. -/
theorem sections_written {commands : List Document} {menus : List (Document × Document)}
    {sections : Entries Json WideText}
    (written : entriesToJson (((if commands.isEmpty then [] else [("commands", Document.list commands)]) ++
      (if menus.isEmpty then [] else [("menus", Document.dict menus)])).map fun (key, value) => (.text key, value)) =
        .ok sections) :
    ∃ members fields, itemsToJson commands = .ok members ∧ entriesToJson menus = .ok fields ∧
      sections = (if members.isEmpty then [] else [(.ofString "commands", .list members)]) ++
        (if fields.isEmpty then [] else [(.ofString "menus", .dict fields)]) := by
  cases commands with
  | nil =>
      cases menus with
      | nil =>
          cases written
          exact ⟨[], [], rfl, rfl, rfl⟩
      | cons menu others =>
          obtain ⟨table, rest, dict, none, rfl⟩ := entriesToJson_cons written
          obtain ⟨fields, made, rfl⟩ := toJson_dict dict
          cases none
          have some := entriesToJson_isEmpty made
          exact ⟨[], fields, rfl, made, by simp [some]⟩
  | cons command more =>
      obtain ⟨listed, rest, list, after, rfl⟩ := entriesToJson_cons written
      obtain ⟨members, made, rfl⟩ := toJson_list list
      obtain _ | ⟨_, _⟩ := itemsToJson_iff.mp made
      cases menus with
      | nil =>
          cases after
          exact ⟨_, [], made, rfl, rfl⟩
      | cons menu others =>
          obtain ⟨table, rest, dict, none, rfl⟩ := entriesToJson_cons after
          obtain ⟨fields, filled, rfl⟩ := toJson_dict dict
          cases none
          have some := entriesToJson_isEmpty filled
          exact ⟨_, fields, made, filled, by simp [some]⟩

theorem toJson_document {package : Package Document} {json : Json} (written : package.toJson = .ok json) :
    ∃ document, package.document = .ok document ∧ document.toJson = .ok json := by
  rw [Package.toJson] at written
  cases made : package.document with
  | error fault =>
      rw [made] at written
      cases written
  | ok document =>
      rw [made] at written
      change document.toJson.mapError CodecFault.shape = .ok json at written
      refine ⟨document, rfl, ?_⟩
      cases whole : document.toJson with
      | error fault =>
          rw [whole] at written
          cases written
      | ok same =>
          rw [whole] at written
          cases written
          rfl

/-- The fragment consists of the parts of a package, as they are written. -/
structure Fragment.Writes (fragment : Fragment) (package : Package WideText) : Prop where
  ids : fragment.ids = package.commands.map Command.id
  events : fragment.events = package.events.mergeSort fun left right => !right.before left
  commands : ∃ documents, (package.commands.map (Command.map Document.text)).mapM Command.document = .ok documents ∧
    itemsToJson documents = .ok fragment.commands
  menus : entriesToJson (menuTable package.menus) = .ok fragment.menus

/-- What a package is written as, if it is written, is a fragment. -/
theorem fragment_written {package : Package WideText} {json : Json}
    (written : (package.map .text).toJson = .ok json) :
    ∃ fragment : Fragment, json = fragment.json ∧ fragment.Writes package := by
  obtain ⟨document, made, written⟩ := toJson_document written
  obtain ⟨commands, documents, rfl⟩ := package_document made
  obtain ⟨fields, inside, rfl⟩ := toJson_dict written
  obtain ⟨events, rest, listed, second, rfl⟩ := entriesToJson_cons inside
  obtain ⟨contributed, rest, table, none, rfl⟩ := entriesToJson_cons second
  cases none
  obtain ⟨texts, same, rfl⟩ := toJson_list listed
  rw [itemsToJson_texts, Except.ok.injEq] at same
  obtain ⟨sections, filled, rfl⟩ := toJson_dict table
  obtain ⟨members, menus, commandsWritten, menusWritten, rfl⟩ := sections_written filled
  refine ⟨⟨_, members, _, menus, commands_written documents commandsWritten⟩, ?_, rfl, rfl,
    ⟨commands, documents, commandsWritten⟩, menusWritten⟩
  rw [← same]
  rfl

/-! Every package can be written whose icons can. -/

theorem entriesToJson_exists {entries : List (Document × Document)}
    (each : ∀ entry ∈ entries, (∃ key, entry.1 = .text key) ∧ ∃ json, entry.2.toJson = .ok json) :
    ∃ fields, entriesToJson entries = .ok fields := by
  induction entries with
  | nil => exact ⟨[], rfl⟩
  | cons entry rest ih =>
      obtain ⟨⟨⟨key, same⟩, value, one⟩, others⟩ := List.forall_mem_cons.mp each
      obtain ⟨fields, more⟩ := ih others
      obtain ⟨held, document⟩ := entry
      cases same
      exact ⟨(key, value) :: fields, by simp only [entriesToJson, keyText, one, more]⟩

theorem toJson_ofTexts_exists {fields : List (String × Document)}
    (each : ∀ field ∈ fields, ∃ json, field.2.toJson = .ok json) :
    ∃ json, (Document.ofTexts fields).toJson = .ok json := by
  have entries : ∀ entry ∈ fields.map fun (key, value) => (Document.text key, value),
      (∃ key, entry.1 = .text key) ∧ ∃ json, entry.2.toJson = .ok json := by
    intro entry member
    obtain ⟨field, inside, rfl⟩ := List.mem_map.mp member
    exact ⟨⟨_, rfl⟩, each field inside⟩
  obtain ⟨written, made⟩ := entriesToJson_exists entries
  exact ⟨.dict written, by rw [Document.ofTexts, toJson, made]⟩

theorem toJson_compact_exists {fields : List (String × Option Document)}
    (each : ∀ field ∈ fields, ∀ value ∈ field.2, ∃ json, value.toJson = .ok json) :
    ∃ json, (compact fields).toJson = .ok json := by
  refine toJson_ofTexts_exists fun field member => ?_
  obtain ⟨⟨name, value⟩, inside, kept⟩ := List.mem_filterMap.mp member
  cases value with
  | none => cases kept
  | some value =>
      have written := each _ inside value rfl
      cases value <;> cases kept <;> exact written

theorem toJson_text_exists {text? : Option WideText} :
    ∀ value ∈ text?.map Document.text, ∃ json, value.toJson = .ok json := by
  intro value member
  obtain ⟨text, _, rfl⟩ := Option.map_eq_some_iff.mp member
  exact ⟨.text text, by rw [toJson]⟩

theorem icon_written {icon : Icon WideText} (supported : ∀ type, icon ≠ .unsupported type) :
    ∃ document json, (icon.map Document.text).document = .ok document ∧ document.toJson = .ok json := by
  cases icon with
  | path text => exact ⟨.text text, .text text, rfl, by rw [toJson]⟩
  | themes table =>
      have written : ∃ json, (table.map Document.text).document.toJson = .ok json := by
        refine toJson_compact_exists fun field member => ?_
        simp only [ThemeMap.map, List.mem_cons, List.not_mem_nil, or_false] at member
        rcases member with rfl | rfl | rfl | rfl <;> exact toJson_text_exists
      obtain ⟨json, same⟩ := written
      exact ⟨_, json, rfl, same⟩
  | unsupported type => exact absurd rfl (supported type)

theorem iconDocument_written {icon? : Option (Icon WideText)} (supported : ∀ type, icon? ≠ some (.unsupported type)) :
    ∃ document?, iconDocument (icon?.map (Icon.map Document.text)) = .ok document? ∧
      ∀ document ∈ document?, ∃ json, document.toJson = .ok json := by
  cases icon? with
  | none => exact ⟨none, rfl, fun _ member => absurd member (by simp)⟩
  | some icon =>
      obtain ⟨document, json, made, written⟩ := icon_written fun type same => supported type (congrArg some same)
      refine ⟨some document, by rw [Option.map_some, iconDocument, made]; rfl, fun held member => ?_⟩
      cases member
      exact ⟨json, written⟩

theorem command_document_written {command : Command WideText}
    (supported : ∀ type, command.icon ≠ some (.unsupported type)) :
    ∃ document, (command.map Document.text).document = .ok document ∧ ∃ json, document.toJson = .ok json := by
  obtain ⟨icon, made, written⟩ := iconDocument_written supported
  refine ⟨_, by rw [Command.document, Command.map, made], toJson_compact_exists fun field member => ?_⟩
  simp only [List.mem_cons, List.not_mem_nil, or_false] at member
  rcases member with rfl | rfl | rfl | rfl
  · exact @toJson_text_exists (some command.id)
  · exact toJson_text_exists
  · exact toJson_text_exists
  · exact written

theorem command_document_iff {command : Command WideText} :
    (∃ document, (command.map Document.text).document = .ok document) ↔
      ∀ type, command.icon ≠ some (.unsupported type) := by
  constructor
  · rintro ⟨document, made⟩ type unsupported
    simp [Command.document, Command.map, unsupported, iconDocument, Icon.map, Icon.document, Except.map] at made
  · intro supported
    obtain ⟨document, made, _⟩ := command_document_written supported
    exact ⟨document, made⟩

theorem commands_document_written {commands : List (Command WideText)}
    (supported : ∀ command ∈ commands, ∀ type, command.icon ≠ some (.unsupported type)) :
    ∃ documents, (commands.map (Command.map Document.text)).mapM Command.document = .ok documents ∧
      ∀ document ∈ documents, ∃ json, document.toJson = .ok json := by
  rw [List.mapM_map]
  obtain ⟨documents, made⟩ := mapM_exists fun command member => command_document_iff.mpr (supported command member)
  refine ⟨documents, made, fun document member => ?_⟩
  obtain ⟨command, inside, one⟩ := mem_mapM_ok made member
  obtain ⟨_, same, written⟩ := command_document_written (supported command inside)
  cases one.symm.trans same
  exact written

theorem item_written (item : MenuItem WideText) : ∃ json, (item.map Document.text).document.toJson = .ok json := by
  refine toJson_compact_exists fun field member => ?_
  simp only [MenuItem.map, List.mem_cons, List.not_mem_nil, or_false] at member
  rcases member with rfl | rfl | rfl | rfl
  · exact @toJson_text_exists (some item.command)
  all_goals exact toJson_text_exists

theorem toJson_list_exists {items : List Document} (each : ∀ item ∈ items, ∃ json, item.toJson = .ok json) :
    ∃ json, (Document.list items).toJson = .ok json := by
  obtain ⟨members, made⟩ := mapM_exists each
  exact ⟨.list members, by rw [toJson, itemsToJson_eq, made]⟩

theorem menuTable_written (menus : List (WideText × List (MenuItem WideText))) :
    ∃ json, (Document.dict (menuTable menus)).toJson = .ok json := by
  have entries : ∀ entry ∈ menuTable menus, (∃ key, entry.1 = .text key) ∧ ∃ json, entry.2.toJson = .ok json := by
    intro entry member
    obtain ⟨menu, _, rfl⟩ := List.mem_map.mp member
    refine ⟨⟨_, rfl⟩, toJson_list_exists fun document inside => ?_⟩
    obtain ⟨item, _, rfl⟩ := List.mem_map.mp inside
    exact item_written item
  obtain ⟨fields, made⟩ := entriesToJson_exists entries
  exact ⟨.dict fields, by rw [toJson, made]⟩

theorem document_written {package : Package WideText} {document : Document}
    (made : (package.map .text).document = .ok document)
    (supported : ∀ command ∈ package.commands, ∀ type, command.icon ≠ some (.unsupported type)) :
    ∃ json, document.toJson = .ok json := by
  obtain ⟨commands, documents, rfl⟩ := package_document made
  obtain ⟨_, same, written⟩ := commands_document_written supported
  cases documents.symm.trans same
  refine toJson_ofTexts_exists fun field member => ?_
  simp only [List.mem_cons, List.not_mem_nil, or_false] at member
  rcases member with rfl | rfl
  · exact ⟨_, by rw [toJson, itemsToJson_texts]⟩
  · refine toJson_ofTexts_exists fun field inside => ?_
    rcases List.mem_append.mp inside with first | second
    · split at first
      · cases first
      · cases List.mem_singleton.mp first
        exact toJson_list_exists written
    · split at second
      · cases second
      · cases List.mem_singleton.mp second
        exact menuTable_written package.menus

/-- A package can be written just when all its icons can. -/
theorem package_written_iff {package : Package WideText} : (∃ json, (package.map .text).toJson = .ok json) ↔
    ∀ command ∈ package.commands, ∀ type, command.icon ≠ some (.unsupported type) := by
  constructor
  · rintro ⟨json, written⟩ command member type unsupported
    obtain ⟨document, made, _⟩ := toJson_document written
    obtain ⟨commands, documents, _⟩ := package_document made
    obtain ⟨_, _, one⟩ := mapM_ok_mem documents (List.mem_map_of_mem member)
    exact command_document_iff.mp ⟨_, one⟩ type unsupported
  · intro supported
    obtain ⟨commands, documents, _⟩ := commands_document_written supported
    have made : ∃ document, (package.map .text).document = .ok document := by
      rw [Package.document,
        show (package.map Document.text).commands.mapM Command.document = .ok commands from documents, Package.map,
        sort_texts]
      exact ⟨_, rfl⟩
    obtain ⟨document, made⟩ := made
    obtain ⟨json, written⟩ := document_written made supported
    refine ⟨json, ?_⟩
    rw [Package.toJson, made]
    change document.toJson.mapError CodecFault.shape = .ok json
    rw [written, Except.mapError]

end Manifest

end Extension
