import Extension.Manifest.Text
import Extension.Proofs.Json.Reading
import Extension.Proofs.Manifest.Roundtrip
import Mathlib.Data.Prod.Basic

namespace Extension

/-! Packages read back from their texts.

What a package is written as consists of texts, lists and tables without repeated keys, and such documents are read back
from their JSON in every layout.
-/

namespace Document

/-- A document that is read back from its JSON. -/
def IsTextual (document : Document) : Prop :=
  ∃ json : Json, json.IsTextual ∧ ofJson json = document

theorem itemsToJson_ofItems {items : List Json} (each : ∀ item ∈ items, (ofJson item).toJson = .ok item) :
    itemsToJson (ofItems items) = .ok items := by
  induction items with
  | nil => rfl
  | cons item rest ih =>
      obtain ⟨first, others⟩ := List.forall_mem_cons.mp each
      simp only [ofItems, itemsToJson, first, ih others]

theorem entriesToJson_ofEntries {entries : Entries Json WideText}
    (each : ∀ entry ∈ entries, (ofJson entry.2).toJson = .ok entry.2) :
    entriesToJson (ofEntries entries) = .ok entries := by
  induction entries with
  | nil => rfl
  | cons entry rest ih =>
      obtain ⟨first, others⟩ := List.forall_mem_cons.mp each
      obtain ⟨key, value⟩ := entry
      simp only [ofEntries, entriesToJson, keyText, first, ih others]

theorem toJson_ofJson {json : Json} (textual : json.IsTextual) : (ofJson json).toJson = .ok json := by
  induction textual with
  | text chars => rfl
  | list _ ih => rw [ofJson, toJson, itemsToJson_ofItems ih]
  | dict _ _ _ ih => rw [ofJson, toJson, entriesToJson_ofEntries ih]

theorem IsTextual.ofJson_eq {document : Document} {json : Json} (textual : document.IsTextual)
    (written : document.toJson = .ok json) : json.IsTextual ∧ ofJson json = document := by
  obtain ⟨found, textual, rfl⟩ := textual
  rw [toJson_ofJson textual, Except.ok.injEq] at written
  subst written
  exact ⟨textual, rfl⟩

theorem isTextual_text (text : String) : (Document.text text).IsTextual :=
  ⟨.text text, .text text.toList, rfl⟩

theorem isTextual_list {items : List Document} (each : ∀ item ∈ items, item.IsTextual) :
    (Document.list items).IsTextual := by
  have members : ∃ jsons : List Json, (∀ json ∈ jsons, json.IsTextual) ∧ ofItems jsons = items := by
    induction items with
    | nil => exact ⟨[], nofun, rfl⟩
    | cons item rest ih =>
        obtain ⟨⟨json, textual, rfl⟩, others⟩ := List.forall_mem_cons.mp each
        obtain ⟨jsons, all, rfl⟩ := ih others
        exact ⟨json :: jsons, List.forall_mem_cons.mpr ⟨textual, all⟩, rfl⟩
  obtain ⟨jsons, all, rfl⟩ := members
  exact ⟨.list jsons, .list all, rfl⟩

theorem fields_textual {entries : Entries Document} (values : ∀ entry ∈ entries, entry.2.IsTextual) :
    ∃ fields : Entries Json WideText, fields.keys = entries.keys.map .ofString ∧
      (∀ field ∈ fields, field.2.IsTextual) ∧ ofJson (.dict fields) = .ofTexts entries := by
  induction entries with
  | nil => exact ⟨[], rfl, nofun, rfl⟩
  | cons entry rest ih =>
      obtain ⟨⟨json, textual, same⟩, others⟩ := List.forall_mem_cons.mp values
      obtain ⟨fields, keys, all, written⟩ := ih others
      rw [ofJson, ofTexts, dict.injEq] at written
      refine ⟨(.ofString entry.1, json) :: fields, ?_, List.forall_mem_cons.mpr ⟨textual, all⟩, ?_⟩
      · exact congrArg (WideText.ofString entry.1 :: ·) keys
      · rw [ofJson, ofEntries, same, written]
        rfl

theorem isTextual_ofTexts {entries : Entries Document} (distinct : entries.keys.Nodup)
    (values : ∀ entry ∈ entries, entry.2.IsTextual) : (Document.ofTexts entries).IsTextual := by
  obtain ⟨fields, keys, all, written⟩ := fields_textual values
  have distinctFields : fields.keys.Nodup := by
    rw [keys]
    exact distinct.map fun _ _ same => WideText.ofString_inj.mp same
  have spelled : ∀ field ∈ fields, ∃ chars, field.1 = .ofChars chars := by
    intro field member
    have key : field.1 ∈ entries.keys.map .ofString := by
      rw [← keys]
      exact List.mem_map_of_mem member
    obtain ⟨text, _, same⟩ := List.mem_map.mp key
    exact ⟨text.toList, same.symm⟩
  exact ⟨.dict fields, .dict distinctFields spelled all, written⟩

end Document

namespace Manifest

open Document

theorem keys_held_sublist (fields : List (String × Option Document)) :
    (Entries.keys (fields.filterMap held)).Sublist (fields.map Prod.fst) := by
  induction fields with
  | nil => exact .slnil
  | cons field rest ih =>
      cases written : held field with
      | none =>
          rw [List.filterMap_cons_none written]
          exact ih.cons _
      | some entry =>
          rw [List.filterMap_cons_some written, List.map_cons, ← held_name written]
          exact ih.cons_cons entry.1

/-- A property that lists and tables have of which all members have it. -/
structure IsInherited (property : Document → Prop) : Prop where
  list : ∀ items : List Document, (∀ item ∈ items, property item) → property (.list items)
  table : ∀ entries : Entries Document, entries.keys.Nodup → (∀ entry ∈ entries, property entry.2) →
    property (.ofTexts entries)

theorem isInherited_isTextual : IsInherited IsTextual :=
  ⟨fun _ => isTextual_list, fun _ => isTextual_ofTexts⟩

/-! The records of a package have a property that their texts have. -/

section Inherited

variable {property : Document → Prop} (inherited : IsInherited property)
include inherited

theorem IsInherited.compact {fields : List (String × Option Document)} (distinct : (fields.map Prod.fst).Nodup)
    (values : ∀ field ∈ fields, ∀ value ∈ field.2, property value) : property (compact fields) := by
  rw [compact_eq]
  refine inherited.table _ (distinct.sublist (keys_held_sublist fields)) fun entry member => ?_
  obtain ⟨⟨name, value?⟩, inside, kept⟩ := List.mem_filterMap.mp member
  rcases value? with _ | value
  · cases kept
  · have holds := values _ inside value rfl
    cases value <;> cases kept <;> exact holds

variable {α : Type} {f : α → Document} (texts : ∀ text, property (f text))
include texts

omit inherited in
theorem holds_text? (text? : Option α) : ∀ value ∈ text?.map f, property value := by
  intro value member
  obtain ⟨text, _, rfl⟩ := Option.map_eq_some_iff.mp member
  exact texts text

theorem IsInherited.icon {icon? : Option (Icon α)} {written : Option Document}
    (made : iconDocument (icon?.map (Icon.map f)) = .ok written) : ∀ value ∈ written, property value := by
  rcases icon? with _ | icon
  · cases made
    nofun
  · cases icon with
    | path text =>
        cases made
        rintro value ⟨⟩
        exact texts text
    | themes table =>
        cases made
        rintro value ⟨⟩
        refine inherited.compact (by simp) ?_
        simp only [List.forall_mem_cons]
        exact ⟨holds_text? texts _, holds_text? texts _, holds_text? texts _, holds_text? texts _,
          List.forall_mem_nil _⟩
    | unsupported type => cases made

theorem IsInherited.command {command : Command α} {document : Document}
    (made : (command.map f).document = .ok document) : property document := by
  obtain ⟨icon?, drawn, rfl⟩ := command_document made
  refine inherited.compact (by simp) ?_
  simp only [List.forall_mem_cons]
  exact ⟨holds_text? texts (some command.id), holds_text? texts _, holds_text? texts _, inherited.icon texts drawn,
    List.forall_mem_nil _⟩

theorem IsInherited.item (item : MenuItem α) : property (item.map f).document := by
  refine inherited.compact (by simp) ?_
  simp only [MenuItem.map, List.forall_mem_cons]
  exact ⟨holds_text? texts (some item.command), holds_text? texts _, holds_text? texts _, holds_text? texts _,
    List.forall_mem_nil _⟩

end Inherited

/-- The events of a package are a set, and its menus a table. -/
structure Package.IsProper {α : Type} (package : Package α) : Prop where
  events : package.events.Nodup
  menus : (package.menus.map Prod.fst).Nodup

theorem isTextual_menus {menus : List (String × List (MenuItem String))} (distinct : (menus.map Prod.fst).Nodup) :
    (Document.dict (menuTable (menus.map fun (id, items) =>
      (WideText.ofString id, items.map (MenuItem.map .ofString))))).IsTextual := by
  have table : Document.dict (menuTable (menus.map fun (id, items) =>
      (WideText.ofString id, items.map (MenuItem.map .ofString)))) =
        .ofTexts (menus.map fun (id, items) => (id, .list (items.map fun item =>
          ((item.map WideText.ofString).map Document.text).document))) := by
    simp [menuTable, ofTexts]
  rw [table]
  refine isTextual_ofTexts ?_ fun entry member => ?_
  · rwa [Entries.keys, List.map_map]
  · obtain ⟨menu, _, rfl⟩ := List.mem_map.mp member
    refine isTextual_list fun document inside => ?_
    obtain ⟨item, _, rfl⟩ := List.mem_map.mp inside
    rw [MenuItem.map_map]
    exact isInherited_isTextual.item isTextual_text item

theorem isTextual_package {package : Package String} (proper : package.IsProper) {document : Document}
    (made : ((package.map WideText.ofString).map Document.text).document = .ok document) : document.IsTextual := by
  obtain ⟨commands, documents, rfl⟩ := package_document made
  have events : (Document.list (((package.map WideText.ofString).events.mergeSort fun left right =>
      !right.before left).map .text)).IsTextual := by
    refine isTextual_list fun document member => ?_
    obtain ⟨event, inside, rfl⟩ := List.mem_map.mp member
    obtain ⟨text, _, rfl⟩ := List.mem_map.mp (List.mem_mergeSort.mp inside)
    exact isTextual_text text
  have listed : (Document.list commands).IsTextual := by
    refine isTextual_list fun document member => ?_
    obtain ⟨_, inside, written⟩ := mem_mapM_ok documents member
    obtain ⟨_, among, rfl⟩ := List.mem_map.mp inside
    obtain ⟨command, _, rfl⟩ := List.mem_map.mp among
    rw [Command.map_map] at written
    exact isInherited_isTextual.command isTextual_text written
  have table : (Document.dict (menuTable (package.map WideText.ofString).menus)).IsTextual := isTextual_menus proper.menus
  generalize menuTable (package.map WideText.ofString).menus = menus at table ⊢
  have first : (if commands.isEmpty then [] else [("commands", Document.list commands)]).Sublist
      [("commands", .list commands)] := by
    split <;> simp
  have second : (if menus.isEmpty then [] else [("menus", Document.dict menus)]).Sublist [("menus", .dict menus)] := by
    split <;> simp
  have part := first.append second
  have sections := isTextual_ofTexts ((part.map Prod.fst).nodup (by simp)) fun entry member => by
    rcases List.mem_cons.mp (part.subset member) with rfl | last
    · exact listed
    · rw [List.mem_singleton.mp last]
      exact table
  exact isTextual_ofTexts (by simp [Entries.keys])
    (List.forall_mem_cons.mpr ⟨events, List.forall_mem_cons.mpr ⟨sections, nofun⟩⟩)

/-! Losing nothing -/

section Injectivity

variable {α β : Type} {f : α → β} (injective : f.Injective)
include injective

theorem ThemeMap.map_injective : (ThemeMap.map f).Injective := by
  rintro ⟨⟩ ⟨⟩ same
  simpa [map, (Option.map_injective injective).eq_iff] using same

theorem Icon.map_injective : (Icon.map f).Injective := by
  rintro (first | first | first) (second | second | second) same
  all_goals simp_all [map, injective.eq_iff, (ThemeMap.map_injective injective).eq_iff]

theorem Command.map_injective : (Command.map f).Injective := by
  rintro ⟨⟩ ⟨⟩ same
  simpa [map, injective.eq_iff, (Option.map_injective injective).eq_iff,
    (Option.map_injective (Icon.map_injective injective)).eq_iff] using same

theorem MenuItem.map_injective : (MenuItem.map f).Injective := by
  rintro ⟨⟩ ⟨⟩ same
  simpa [map, injective.eq_iff, (Option.map_injective injective).eq_iff] using same

theorem Package.map_injective : (Package.map f).Injective := by
  have menus : (List.map fun menu : α × List (MenuItem α) => (f menu.1, menu.2.map (MenuItem.map f))).Injective :=
    List.map_injective_iff.mpr (.prodMap injective (List.map_injective_iff.mpr (MenuItem.map_injective injective)))
  rintro ⟨⟩ ⟨⟩ same
  simpa [map, (List.map_injective_iff.mpr injective).eq_iff,
    (List.map_injective_iff.mpr (Command.map_injective injective)).eq_iff, menus.eq_iff] using same

end Injectivity

/-- The package with its texts as documents. -/
def Package.spelled (package : Package String) : Package Document :=
  (package.map WideText.ofString).map .text

theorem Package.spelled_injective : Package.spelled.Injective := by
  have texts : (Package.map Document.text).Injective := Package.map_injective fun _ _ same => Document.text.inj same
  have wide : (Package.map WideText.ofString).Injective := Package.map_injective fun _ _ => WideText.ofString_inj.mp
  exact texts.comp wide

/-- The same package: the events are a set. -/
structure Package.Same {α : Type} (left right : Package α) : Prop where
  events : left.events.Perm right.events
  commands : left.commands = right.commands
  menus : left.menus = right.menus

theorem Package.Same.symm {α : Type} {left right : Package α} (same : left.Same right) : right.Same left :=
  ⟨same.events.symm, same.commands.symm, same.menus.symm⟩

theorem Package.Same.trans {α : Type} {left middle right : Package α} (first : left.Same middle)
    (second : middle.Same right) : left.Same right :=
  ⟨first.events.trans second.events, first.commands.trans second.commands, first.menus.trans second.menus⟩

theorem Package.inOrder_same (package : Package WideText) : package.inOrder.Same package where
  events := List.mergeSort_perm ..
  commands := rfl
  menus := rfl

theorem Package.inOrder_spelled (package : Package String) :
    ∃ read : Package String, (package.map WideText.ofString).inOrder.map .text = read.spelled ∧ read.Same package := by
  refine ⟨{ package with
    events := package.events.mergeSort fun left right => !(WideText.ofString right).before (.ofString left) }, ?_,
    ⟨List.mergeSort_perm .., rfl, rfl⟩⟩
  have events := List.map_mergeSort (f := WideText.ofString) (l := package.events)
    (r := fun left right => !(WideText.ofString right).before (.ofString left))
    (s := fun left right => !right.before left) (fun _ _ _ _ => rfl)
  rw [spelled]
  congr 1
  simp [inOrder, map, events]

/-- All icons can be written. -/
def Package.IsSupported {α : Type} (package : Package α) : Prop :=
  ∀ command ∈ package.commands, ∀ type, command.icon ≠ some (.unsupported type)

theorem Package.IsSupported.spelled {package : Package String} (supported : package.IsSupported) :
    (package.map WideText.ofString).IsSupported := by
  intro wide member type unsupported
  obtain ⟨command, inside, rfl⟩ := List.mem_map.mp member
  obtain ⟨icon, drawn, same⟩ := Option.map_eq_some_iff.mp unsupported
  cases icon <;> cases same
  exact supported command inside type drawn

theorem Package.IsSupported.written {package : Package String} (supported : package.IsSupported) :
    ∃ json, package.spelled.toJson = .ok json :=
  package_written_iff.mpr supported.spelled

theorem Package.IsProper.spelled {package : Package String} (proper : package.IsProper) :
    (package.map WideText.ofString).events.Nodup :=
  proper.events.map fun _ _ => WideText.ofString_inj.mp

/-- What a package is written as is a textual document, from which it is read back. -/
theorem spelled_reads {package : Package String} (proper : package.IsProper) {json : Json}
    (written : package.spelled.toJson = .ok json) : json.IsTextual ∧ (Document.ofJson json).truthy = true ∧
      ∃ read : Package String, Package.ofDocument (.ofJson json) = .ok read.spelled ∧ read.Same package := by
  obtain ⟨document, made, inner⟩ := toJson_document written
  obtain ⟨textual, same⟩ := (isTextual_package proper made).ofJson_eq inner
  obtain ⟨read, ordered, equal⟩ := package.inOrder_spelled
  refine ⟨textual, ?_, read, ?_, equal⟩
  · obtain ⟨_, _, rfl⟩ := package_document made
    rw [same]
    rfl
  · rw [same, ofDocument_document proper.spelled made, ordered]

/-! What cannot be written -/

theorem command_document_fault {command : Command WideText} {fault : CodecFault}
    (failed : (command.map .text).document = .error fault) :
    ∃ type, command.icon = some (.unsupported type) ∧ fault = .unsupportedIcon type := by
  obtain ⟨id, title, category, icon?⟩ := command
  rcases icon? with _ | icon
  · cases failed
  · cases icon with
    | unsupported type =>
        cases failed
        exact ⟨type, rfl, rfl⟩
    | _ => cases failed

/-- The first icon that cannot be written is the one that is reported. -/
theorem package_document_fault {package : Package WideText} {fault : CodecFault}
    (failed : (package.map .text).document = .error fault) :
    ∃ before command after type, package.commands = before ++ command :: after ∧
      (∀ earlier ∈ before, ∀ type, earlier.icon ≠ some (.unsupported type)) ∧
      command.icon = some (.unsupported type) ∧ fault = .unsupportedIcon type := by
  rw [Package.document] at failed
  cases commands : (package.map Document.text).commands.mapM Command.document with
  | ok documents =>
      rw [commands, Package.map, sort_texts] at failed
      cases failed
  | error other =>
      rw [commands] at failed
      cases failed
      change (package.commands.map (Command.map Document.text)).mapM Command.document = .error fault at commands
      rw [List.mapM_map] at commands
      obtain ⟨before, command, after, split, passed, fails⟩ := mapM_error commands
      obtain ⟨type, unsupported, named⟩ := command_document_fault fails
      exact ⟨before, command, after, type, split, fun earlier member => command_document_iff.mp (passed earlier member),
        unsupported, named⟩

theorem package_document_iff {package : Package WideText} :
    (∃ document, (package.map Document.text).document = .ok document) ↔ package.IsSupported := by
  constructor
  · rintro ⟨document, made⟩ command member
    obtain ⟨documents, written, _⟩ := package_document made
    obtain ⟨_, _, one⟩ := mapM_ok_mem written (List.mem_map_of_mem member)
    exact command_document_iff.mp ⟨_, one⟩
  · intro supported
    obtain ⟨json, written⟩ := package_written_iff.mpr supported
    obtain ⟨document, made, _⟩ := toJson_document written
    exact ⟨document, made⟩

theorem document_reads {package : Package WideText} (proper : package.IsProper) (supported : package.IsSupported) :
    ∃ (document : Document) (read : Package WideText), (package.map .text).document = .ok document ∧
      Package.ofDocument document = .ok (read.map .text) ∧ read.Same package := by
  obtain ⟨document, made⟩ := package_document_iff.mpr supported
  exact ⟨document, package.inOrder, made, ofDocument_document proper.events made, package.inOrder_same⟩

section Texts

variable {package : Package String} {json : Json} (proper : package.IsProper) (written : package.spelled.toJson = .ok json)
include proper written

theorem ofJsonText_write (layout : Json.Layout) : ∃ read : Package String,
    Package.ofJsonText (json.write layout 0) = .ok read.spelled ∧ read.Same package := by
  obtain ⟨textual, _, read, reads, same⟩ := spelled_reads proper written
  refine ⟨read, ?_, same⟩
  rw [Package.ofJsonText, Json.parse_write textual]
  change (Package.ofDocument (.ofJson json)).mapError TextFault.shape = _
  rw [reads]
  rfl

theorem loadedBy_dump {dump : Json → String} {load : String → Except TextFault Document}
    (back : load (dump json) = .ok (.ofJson json)) : ∃ read : Package String,
    Package.loadedBy load (dump json) = .ok read.spelled ∧ read.Same package := by
  obtain ⟨_, some, read, reads, same⟩ := spelled_reads proper written
  refine ⟨read, ?_, same⟩
  rw [Package.loadedBy, back]
  change (Package.ofDocument (if (Document.ofJson json).truthy then .ofJson json else .dict [])).mapError
    TextFault.shape = _
  rw [if_pos some, reads]
  rfl

end Texts

theorem toJsonText_eq {package : Package Document} {layout : Json.Layout} {text : String}
    (written : package.toJsonText layout = .ok text) : ∃ json, package.toJson = .ok json ∧ text = json.write layout 0 := by
  rw [Package.toJsonText] at written
  cases made : package.toJson with
  | error fault =>
      rw [made] at written
      cases written
  | ok json =>
      rw [made] at written
      cases written
      exact ⟨json, rfl, rfl⟩

/-- Packages with the same text are the same. -/
theorem same_of_jsonText {left right : Package String} (leftProper : left.IsProper) (rightProper : right.IsProper)
    {layout other : Json.Layout} {text : String} (first : left.spelled.toJsonText layout = .ok text)
    (second : right.spelled.toJsonText other = .ok text) : left.Same right := by
  obtain ⟨firstJson, firstWritten, rfl⟩ := toJsonText_eq first
  obtain ⟨secondJson, secondWritten, text⟩ := toJsonText_eq second
  obtain ⟨_, reads, leftSame⟩ := ofJsonText_write leftProper firstWritten layout
  obtain ⟨read, again, rightSame⟩ := ofJsonText_write rightProper secondWritten other
  rw [text, again, Except.ok.injEq] at reads
  obtain rfl := Package.spelled_injective reads
  exact leftSame.symm.trans rightSame

/-- A package that can be written is read back, as a document and as a text, except for the order of its events; and what
cannot be written is an icon that is neither a text nor a table of themes.  Texts are those in JSON, and those of any two
functions of which the second reads what the first has written for the package. -/
theorem codecs_lossless :
    (∀ package : Package WideText, package.IsProper → package.IsSupported →
      ∃ (document : Document) (read : Package WideText), (package.map .text).document = .ok document ∧
        Package.ofDocument document = .ok (read.map .text) ∧ read.Same package) ∧
    (∀ package : Package WideText, (∃ fault, (package.map .text).document = .error fault) ↔
      ∃ command ∈ package.commands, ∃ type, command.icon = some (.unsupported type)) ∧
    (∀ (package : Package WideText) fault, (package.map .text).document = .error fault →
      ∃ before command after type, package.commands = before ++ command :: after ∧
        (∀ earlier ∈ before, ∀ type, earlier.icon ≠ some (.unsupported type)) ∧
        command.icon = some (.unsupported type) ∧ fault = .unsupportedIcon type) ∧
    (∀ package : Package String, package.IsProper → package.IsSupported → ∀ layout,
      ∃ (text : String) (read : Package String), package.spelled.toJsonText layout = .ok text ∧
        Package.ofJsonText text = .ok read.spelled ∧ read.Same package) ∧
    (∀ left right : Package String, left.IsProper → right.IsProper → ∀ layout other text,
      left.spelled.toJsonText layout = .ok text → right.spelled.toJsonText other = .ok text → left.Same right) ∧
    ∀ (dump : Json → String) (load : String → Except TextFault Document) (package : Package String),
      package.IsProper → package.IsSupported →
      (∀ json, package.spelled.toJson = .ok json → load (dump json) = .ok (.ofJson json)) →
      ∃ (text : String) (read : Package String), package.spelled.dumpedBy dump = .ok text ∧
        Package.loadedBy load text = .ok read.spelled ∧ read.Same package := by
  refine ⟨fun _ => document_reads, fun package => ?_, fun _ _ => package_document_fault,
    fun package proper supported layout => ?_, fun _ _ first second _ _ _ => same_of_jsonText first second,
    fun dump load package proper supported back => ?_⟩
  · have failed : (∃ fault, (package.map Document.text).document = .error fault) ↔ ¬ package.IsSupported := by
      rw [← package_document_iff]
      cases (package.map Document.text).document <;> simp
    simp [failed, Package.IsSupported]
  · obtain ⟨json, written⟩ := supported.written
    obtain ⟨read, reads, same⟩ := ofJsonText_write proper written layout
    exact ⟨_, read, by rw [Package.toJsonText, written]; rfl, reads, same⟩
  · obtain ⟨json, written⟩ := supported.written
    obtain ⟨read, reads, same⟩ := loadedBy_dump proper written (back json written)
    exact ⟨_, read, by rw [Package.dumpedBy, written]; rfl, reads, same⟩

/-- A package with a command of which the icon is a table of no themes, and with a menu of no items. -/
def mixed : Package String where
  events := ["b", "a"]
  commands := [{ id := "a", title := some "", icon := some (.themes {}) }]
  menus := [("m", [])]

def swapped : Package String :=
  { mixed with events := ["a", "b"] }

def undrawn : Package WideText where
  commands := [{ id := "a" }, { id := "b", icon := some (.unsupported "<class 'int'>") }]

def mixedJson : Json :=
  .dict [("activationEvents", .list [.text "a", .text "b"]), ("contributes", .dict [
    ("commands", .list [.dict [("command", .text "a"), ("title", .text ""), ("icon", .dict [])]]),
    ("menus", .dict [("m", .list [])])])]

def mixedYaml : String := "activationEvents:
- a
- b
contributes:
  commands:
  - command: a
    title: ''
    icon: \x7b\x7d
  menus:
    m: []
"

/-- Has this been read from the text? -/
def isMixed : Except Yaml.Fault Document → Bool
  | .ok (.dict [(.text events, .list [.text first, .text second]), (.text contributes, .dict [
      (.text commands, .list [.dict [(.text command, .text id), (.text title, .text empty), (.text icon, .dict [])]]),
      (.text menus, .dict [(.text menu, .list [])])])]) =>
      [events, first, second, contributes, commands, command, id, title, empty, icon, menus, menu] ==
        ["activationEvents", "a", "b", "contributes", "commands", "command", "a", "title", "", "icon", "menus", "m"].map
          WideText.ofString
  | _ => false

theorem eq_of_isMixed {read : Except Yaml.Fault Document} (mixed : isMixed read = true) :
    read = .ok (.ofJson mixedJson) := by
  unfold isMixed at mixed
  split at mixed
  · simp only [beq_iff_eq, List.map_cons, List.map_nil, List.cons.injEq, and_true] at mixed
    obtain ⟨rfl, rfl, rfl, rfl, rfl, rfl, rfl, rfl, rfl, rfl, rfl, rfl⟩ := mixed
    rfl
  · cases mixed

theorem mixed_lossless :
    mixed.IsProper ∧ mixed.IsSupported ∧
    (∃ (document : Document) (read : Package WideText), ((mixed.map WideText.ofString).map .text).document = .ok document ∧
      Package.ofDocument document = .ok (read.map .text) ∧ read.Same (mixed.map .ofString)) ∧
    (∀ layout, ∃ (text : String) (read : Package String), mixed.spelled.toJsonText layout = .ok text ∧
      Package.ofJsonText text = .ok read.spelled ∧ read.Same mixed) ∧
    swapped.Same mixed ∧
    (∃ (text : String) (read : Package String), mixed.spelled.toYamlText = .ok text ∧
      Package.ofYamlText text = .ok read.spelled ∧ read.Same mixed) ∧
    (undrawn.map .text).document = .error (.unsupportedIcon "<class 'int'>") ∧
    ∃ before command after type, undrawn.commands = before ++ command :: after ∧
      (∀ earlier ∈ before, ∀ type, earlier.icon ≠ some (.unsupported type)) ∧
      command.icon = some (.unsupported type) ∧ CodecFault.unsupportedIcon "<class 'int'>" = .unsupportedIcon type := by
  have proper : mixed.IsProper := ⟨by decide, by decide⟩
  have supported : mixed.IsSupported := by
    intro command member type
    rw [List.mem_singleton.mp member]
    nofun
  obtain ⟨documents, _, faults, texts, sameTexts, yamls⟩ := codecs_lossless
  have written : mixed.spelled.toJson = .ok mixedJson := by
    rw [Package.spelled, package_toJson_eq (show (mixed.map WideText.ofString).events.Perm ["a", "b"] by decide) (by decide)]
    rfl
  have rewritten : swapped.spelled.toJson = .ok mixedJson := by
    rw [Package.spelled, package_toJson_eq (show (swapped.map WideText.ofString).events.Perm ["a", "b"] by decide) (by decide)]
    rfl
  have text {package : Package String} (made : package.spelled.toJson = .ok mixedJson) :
      package.spelled.toJsonText .line = .ok (mixedJson.write .line 0) := by
    rw [Package.toJsonText, made]
    rfl
  have yaml : ∀ json, mixed.spelled.toJson = .ok json →
      Package.loadYaml (Yaml.ofJson json) = .ok (.ofJson json) := by
    intro json made
    obtain rfl := Except.ok.inj (written.symm.trans made)
    have back : Yaml.parse mixedYaml = .ok (.ofJson mixedJson) := eq_of_isMixed (by decide +kernel)
    rw [Package.loadYaml, show Yaml.ofJson mixedJson = mixedYaml by decide +kernel, back]
    rfl
  exact ⟨proper, supported, documents _ ⟨by decide, by decide⟩ supported.spelled, texts mixed proper supported,
    sameTexts swapped mixed ⟨by decide, by decide⟩ proper .line .line _ (text rewritten) (text written),
    yamls Yaml.ofJson Package.loadYaml mixed proper supported yaml, rfl, faults undrawn _ rfl⟩

end Manifest

end Extension
