import Extension.Proofs.Manifest.Fragment
import Mathlib.Data.List.Nodup

namespace Extension

/-! Packages read back from what they are written as.

A field that is left out is read as missing, so each record is read back field by field.  Only the order of the events is
not kept, and they are a set.
-/

namespace Document

variable {fields : List (String × Document)} {name : String} {value : Document}

theorem lookup_texts (fields : List (String × Document)) (name : String) :
    lookup (fields.map fun (key, value) => (.text key, value)) name = fields.lookup name := by
  induction fields with
  | nil => rfl
  | cons field rest ih =>
      obtain ⟨key, value⟩ := field
      have same : (Document.text key).same (.text name) = (name == key) := by
        rw [Document.same, Bool.eq_iff_iff, beq_iff_eq, beq_iff_eq, WideText.ofString_inj, eq_comm]
      rw [List.map_cons, lookup, List.find?_cons, same, List.lookup_cons]
      cases name == key with
      | true => rfl
      | false => exact ih

theorem get?_ofTexts (fields : List (String × Document)) (name : String) :
    (ofTexts fields).get? name = .ok (fields.lookup name) :=
  congrArg Except.ok (lookup_texts fields name)

theorem getKey_ofTexts (found : fields.lookup name = some value) : (ofTexts fields).getKey name = .ok value := by
  rw [ofTexts, getKey, lookup_texts, found]

end Document

namespace Manifest

open Document

section Fields

variable {fields : List (String × Option Document)} {name : String} {value : Document}

/-- A field as it is written, if it is. -/
def held (field : String × Option Document) : Option (String × Document) :=
  match field.2 with
  | none | some .null => none
  | some value => some (field.1, value)

theorem compact_eq (fields : List (String × Option Document)) : compact fields = .ofTexts (fields.filterMap held) :=
  rfl

theorem held_name {field : String × Option Document} {written : String × Document} (kept : held field = some written) :
    written.1 = field.1 := by
  obtain ⟨name, value?⟩ := field
  rcases value? with _ | value
  · cases kept
  · cases value <;> cases kept <;> rfl

theorem lookup_held_absent (absent : name ∉ fields.map Prod.fst) : (fields.filterMap held).lookup name = none := by
  refine List.lookup_eq_none_iff.mpr fun written member => ?_
  obtain ⟨field, inside, kept⟩ := List.mem_filterMap.mp member
  rw [bne_iff_ne, held_name kept]
  exact fun same => absent (same ▸ List.mem_map_of_mem inside)

/-- A field is found in what is written, and a missing one is not. -/
theorem lookup_held (distinct : (fields.map Prod.fst).Nodup) {value? : Option Document}
    (member : (name, value?) ∈ fields) (kept : value? ≠ some .null) : (fields.filterMap held).lookup name = value? := by
  induction fields with
  | nil => cases member
  | cons field rest ih =>
      rw [List.map_cons, List.nodup_cons] at distinct
      rcases List.mem_cons.mp member with rfl | inside
      · rcases value? with _ | value
        · -- no other field has the name, so that none is found in place of the one that is left out
          rw [List.filterMap_cons_none rfl, lookup_held_absent distinct.1]
        · have written : held (name, some value) = some (name, value) := by
            cases value with
            | null => exact absurd rfl kept
            | _ => rfl
          rw [List.filterMap_cons_some written, List.lookup_cons_self]
      · have differ : name ≠ field.1 := fun same => distinct.1 (same ▸ List.mem_map_of_mem inside)
        cases written : held field with
        | none => rw [List.filterMap_cons_none written, ih distinct.2 inside]
        | some entry =>
            have other : (name == entry.1) = false := by simpa [held_name written] using differ
            rw [List.filterMap_cons_some written, List.lookup_cons, other, ih distinct.2 inside]

theorem field?_compact (distinct : (fields.map Prod.fst).Nodup) {value? : Option Document}
    (member : (name, value?) ∈ fields) (kept : value? ≠ some .null) : field? (compact fields) name = .ok value? := by
  rw [field?, compact_eq, get?_ofTexts, lookup_held distinct member kept]
  rcases value? with _ | value
  · rfl
  · cases value with
    | null => exact absurd rfl kept
    | _ => rfl

theorem getKey_compact (name : String) (text : WideText) (fields : List (String × Option Document)) :
    (compact ((name, some (.text text)) :: fields)).getKey name = .ok (.text text) :=
  getKey_ofTexts List.lookup_cons_self

theorem text?_kept (text? : Option WideText) : text?.map Document.text ≠ some .null := by
  cases text? <;> simp

end Fields

section Records

variable {icon? : Option (Icon WideText)} {written : Option Document}

theorem readIcon_themes (table : ThemeMap WideText) :
    readIcon (some (table.map Document.text).document) = .ok (some (.themes (table.map Document.text))) := by
  have read {name : String} {text? : Option WideText}
      (member : (name, text?.map Document.text) ∈ [("light", table.light.map Document.text), ("dark", table.dark.map .text),
        ("highContrast", table.highContrast.map .text), ("highContrastDark", table.highContrastDark.map .text)]) :
      field? (table.map Document.text).document name = .ok (text?.map .text) :=
    field?_compact (by simp) member (text?_kept text?)
  have light : field? (table.map Document.text).document "light" = .ok (table.light.map .text) := read (by simp)
  have dark : field? (table.map Document.text).document "dark" = .ok (table.dark.map .text) := read (by simp)
  have highContrast : field? (table.map Document.text).document "highContrast" = .ok (table.highContrast.map .text) :=
    read (by simp)
  have highContrastDark :
      field? (table.map Document.text).document "highContrastDark" = .ok (table.highContrastDark.map .text) :=
    read (by simp)
  rw [readIcon, light, dark, highContrast, highContrastDark]
  · rfl
  · rw [ThemeMap.document, compact, ofTexts]
    rintro place ⟨⟩

/-- An icon is written as something that is not null, and is read back from it. -/
theorem readIcon_iconDocument (made : iconDocument (icon?.map (Icon.map Document.text)) = .ok written) :
    written ≠ some .null ∧ readIcon written = .ok (icon?.map (Icon.map Document.text)) := by
  rcases icon? with _ | icon
  · cases made
    exact ⟨(Option.some_ne_none _).symm, rfl⟩
  · cases icon with
    | path text =>
        cases made
        exact ⟨by rintro ⟨⟩, rfl⟩
    | themes table =>
        cases made
        refine ⟨?_, readIcon_themes table⟩
        change some (compact _) ≠ some .null
        rw [compact, ofTexts]
        rintro ⟨⟩
    | unsupported type => cases made

theorem command_document {α : Type} {f : α → Document} {command : Command α} {document : Document}
    (made : (command.map f).document = .ok document) :
    ∃ icon?, iconDocument (command.icon.map (Icon.map f)) = .ok icon? ∧
      document = compact [("command", some (f command.id)), ("title", command.title.map f),
        ("category", command.category.map f), ("icon", icon?)] := by
  rw [Command.document] at made
  cases drawn : iconDocument (command.map f).icon with
  | error fault => simp [drawn] at made
  | ok icon? =>
      simp only [drawn, Except.ok.injEq] at made
      exact ⟨icon?, drawn, made.symm⟩

theorem readCommand_document {command : Command WideText} {document : Document}
    (made : (command.map .text).document = .ok document) : readCommand document = .ok (command.map .text) := by
  obtain ⟨icon?, drawn, rfl⟩ := command_document made
  obtain ⟨iconKept, iconRead⟩ := readIcon_iconDocument drawn
  have read {name : String} {value? : Option Document} (kept : value? ≠ some .null)
      (member : (name, value?) ∈ [("command", some (Document.text command.id)), ("title", command.title.map .text),
        ("category", command.category.map .text), ("icon", icon?)]) :=
    field?_compact (by simp) member kept
  have title := read (text?_kept command.title) (.tail _ (.head _))
  have category := read (text?_kept command.category) (.tail _ (.tail _ (.head _)))
  have icon := read iconKept (.tail _ (.tail _ (.tail _ (.head _))))
  rw [readCommand, getKey_compact, title, category, icon]
  change (do
    let icon ← readIcon icon?
    return Command.mk (Document.text command.id) (command.title.map .text) (command.category.map .text) icon) = _
  rw [iconRead]
  rfl

theorem readMenuItem_document (item : MenuItem WideText) :
    readMenuItem (item.map Document.text).document = .ok (item.map .text) := by
  have read {name : String} {text? : Option WideText} (member : (name, text?.map Document.text) ∈
      [("command", some (Document.text item.command)), ("alt", item.alt.map .text), ("when", item.when.map .text),
        ("group", item.group.map .text)]) :=
    field?_compact (by simp) member (text?_kept text?)
  have alt := read (.tail _ (.head _))
  have when := read (.tail _ (.tail _ (.head _)))
  have group := read (.tail _ (.tail _ (.tail _ (.head _))))
  change readMenuItem (compact [("command", some (Document.text item.command)), ("alt", item.alt.map .text),
    ("when", item.when.map .text), ("group", item.group.map .text)]) = _
  rw [readMenuItem, getKey_compact, alt, when, group]
  rfl

end Records

section Lists

variable {α β γ ε : Type} {sources : List α}

theorem mapM_reads {encode : α → Except CodecFault β} {decode : β → Except ε γ} {view : α → γ}
    (each : ∀ source made, encode source = .ok made → decode made = .ok (view source)) {results : List β}
    (done : sources.mapM encode = .ok results) : results.mapM decode = .ok (sources.map view) :=
  mapM_ok_iff.mpr (List.forall₂_map_right_iff.mpr ((mapM_ok_iff.mp done).imp each).flip)

theorem mapM_map_reads {encode : α → β} {decode : β → Except ε γ} {view : α → γ}
    (each : ∀ source, decode (encode source) = .ok (view source)) :
    (sources.map encode).mapM decode = .ok (sources.map view) :=
  mapM_ok_iff.mpr (List.forall₂_map_left_iff.mpr (List.forall₂_map_right_iff.mpr
    (List.forall₂_same.mpr fun source _ => each source)))

end Lists

/-! Whole packages -/

theorem addElement_texts {held : List WideText} {text : WideText} (absent : text ∉ held) :
    addElement (held.map .text) (.text text) = (held ++ [text]).map .text := by
  have unequal : (held.map Document.text).any ((Document.text text).same ·) = false := by
    simp only [List.any_map, List.any_eq_false, Function.comp_apply, Document.same, beq_iff_eq]
    rintro other member rfl
    exact absent member
  rw [addElement, unequal]
  simp

theorem foldl_addElement {held texts : List WideText} (distinct : (held ++ texts).Nodup) :
    (texts.map Document.text).foldl addElement (held.map .text) = (held ++ texts).map .text := by
  induction texts generalizing held with
  | nil => simp
  | cons text rest ih =>
      have absent : text ∉ held := by
        rw [List.nodup_middle, List.nodup_cons] at distinct
        exact fun member => distinct.1 (List.mem_append_left _ member)
      rw [List.map_cons, List.foldl_cons, addElement_texts absent, ih (by rwa [List.append_assoc])]
      simp

theorem readEvents_texts {texts : List WideText} (distinct : texts.Nodup) :
    readEvents (.list (texts.map .text)) = .ok (texts.map .text) := by
  have hashable : (texts.map Document.text).all isHashable = true := by simp [isHashable]
  have folded : (texts.map Document.text).foldl addElement [] = texts.map .text :=
    @foldl_addElement [] texts distinct
  change (if (texts.map Document.text).all isHashable = true then _ else _) = _
  rw [if_pos hashable]
  exact congrArg Except.ok folded

theorem readMenus_menuTable (menus : List (WideText × List (MenuItem WideText))) :
    readMenus (.dict (menuTable menus)) =
      .ok (menus.map fun menu => (Document.text menu.1, menu.2.map (MenuItem.map .text))) := by
  rw [readMenus, menuTable]
  refine mapM_map_reads fun menu => ?_
  have items : (menu.2.map fun item => (item.map Document.text).document).mapM readMenuItem =
      .ok (menu.2.map (MenuItem.map .text)) := mapM_map_reads readMenuItem_document
  change (do
    let items ← (menu.2.map fun item : MenuItem WideText => (item.map Document.text).document).mapM readMenuItem
    return (Document.text menu.1, items)) = _
  rw [items]
  rfl

/-- The package with its events in order. -/
def Package.inOrder (package : Package WideText) : Package WideText :=
  { package with events := package.events.mergeSort fun left right => !right.before left }

/-- What is missing in the sections is read as nothing. -/
theorem lookup_sections (commands : List Document) (menus : List (Document × Document)) :
    let sections := (if commands.isEmpty then [] else [("commands", Document.list commands)]) ++
      (if menus.isEmpty then [] else [("menus", Document.dict menus)])
    (sections.lookup "commands").getD (.list []) = .list commands ∧
      (sections.lookup "menus").getD (.dict []) = .dict menus := by
  cases commands <;> cases menus <;> exact ⟨rfl, rfl⟩

theorem ofDocument_ofTexts (events : Document) (sections : List (String × Document)) :
    Package.ofDocument (.ofTexts [("activationEvents", events), ("contributes", .ofTexts sections)]) = (do
      let events ← readEvents events
      let commands ← (← ((sections.lookup "commands").getD (.list [])).elements).mapM readCommand
      let menus ← readMenus ((sections.lookup "menus").getD (.dict []))
      return Package.mk events commands menus) := by
  rw [Package.ofDocument, get?_ofTexts, get?_ofTexts]
  change (do
    let events ← readEvents events
    let commands ← (← ((← (Document.ofTexts sections).get? "commands").getD (.list [])).elements).mapM readCommand
    let menus ← readMenus ((← (Document.ofTexts sections).get? "menus").getD (.dict []))
    return Package.mk events commands menus) = _
  rw [get?_ofTexts, get?_ofTexts]
  rfl

theorem ofDocument_document {package : Package WideText} {document : Document} (distinct : package.events.Nodup)
    (made : (package.map .text).document = .ok document) : Package.ofDocument document = .ok (package.inOrder.map .text) := by
  obtain ⟨commands, documents, rfl⟩ := package_document made
  obtain ⟨commandSection, menuSection⟩ := lookup_sections commands (menuTable package.menus)
  have ordered := (package.events.mergeSort_perm fun left right => !right.before left).nodup_iff.mpr distinct
  have commandsRead : commands.mapM readCommand = .ok (package.commands.map (Command.map .text)) := by
    rw [List.mapM_map] at documents
    exact mapM_reads (fun command document => readCommand_document) documents
  rw [ofDocument_ofTexts, readEvents_texts ordered, commandSection, menuSection, readMenus_menuTable]
  change (do
    let commands ← commands.mapM readCommand
    return Package.mk _ commands _) = _
  rw [commandsRead]
  rfl

end Manifest

end Extension
