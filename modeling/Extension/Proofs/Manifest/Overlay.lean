import Extension.Proofs.Manifest.Fragment

namespace Extension.Manifest

/-! Laying a fragment over a manifest, section by section.

The merge can work with documents of many shapes.  On a manifest whose sections are what they should be it keeps to
three tables, and its only faults come from commands that have no id to compare.
-/

namespace Pairs

theorem same_text (left right : WideText) : (Json.text left).same (.text right) = (left == right) := by
  rw [Json.same]

theorem put_ofEntries (entries : Entries Json WideText) (key : WideText) (value : Json) :
    (ofEntries entries).put (.text key) value = ofEntries (entries.put key value) := by
  induction entries with
  | nil => rfl
  | cons entry rest ih =>
      obtain ⟨held, old⟩ := entry
      change Pairs.put ((.text held, old) :: ofEntries rest) (.text key) value = _
      by_cases same : held = key
      · subst held
        simp [Pairs.put, Entries.put, same_text, ofEntries]
      · simp only [Pairs.put, same_text, beq_false_of_ne same, Bool.false_eq_true, if_false, Entries.put,
          if_neg same, ih]
        rfl

theorem putAll_ofEntries (entries more : Entries Json WideText) :
    (ofEntries entries).putAll (ofEntries more) = ofEntries (entries.putAll more) := by
  induction more generalizing entries with
  | nil => rfl
  | cons entry rest ih =>
      obtain ⟨key, value⟩ := entry
      change ((ofEntries entries).put (.text key) value).putAll (ofEntries rest) =
        ofEntries ((entries.put key value).putAll rest)
      rw [put_ofEntries, ih]

theorem lookup_ofEntries (entries : Entries Json WideText) (key : String) :
    (ofEntries entries).lookup key = List.lookup (.ofString key) entries := by
  induction entries with
  | nil => rfl
  | cons entry rest ih =>
      obtain ⟨held, old⟩ := entry
      rw [List.lookup_cons, ← ih]
      change (((.text held, old) :: ofEntries rest).find? _).map Prod.snd = _
      rw [List.find?_cons, same_text, Bool.beq_comm]
      cases WideText.ofString key == held <;> rfl

theorem toJson_ofEntries (entries : Entries Json WideText) : (ofEntries entries).toJson = .dict entries := by
  rw [toJson, ofEntries, List.map_map]
  exact congrArg Json.dict (List.map_id entries)

end Pairs

section Filtering

variable {α ε : Type} {test : α → Except ε Bool} {items kept : List α}

/-- The answer of a test that did not fail, and was yes. -/
def accepts : Except ε Bool → Bool
  | .ok answer => answer
  | .error _ => false

theorem filterAuxM_ok {found : List α} (done : items.filterAuxM test found = .ok kept) :
    (∀ item ∈ items, ∃ answer, test item = .ok answer) ∧
      kept = (items.filter fun item => accepts (test item)).reverse ++ found := by
  induction items generalizing found with
  | nil =>
      cases done
      exact ⟨fun _ member => absurd member List.not_mem_nil, rfl⟩
  | cons item rest ih =>
      rw [List.filterAuxM] at done
      cases tested : test item with
      | error fault =>
          rw [tested] at done
          cases done
      | ok answer =>
          rw [tested] at done
          obtain ⟨tests, same⟩ := ih done
          refine ⟨List.forall_mem_cons.mpr ⟨⟨answer, tested⟩, tests⟩, ?_⟩
          rw [same, List.filter_cons, tested]
          cases answer <;> simp [accepts]

theorem filterAuxM_of_tests (tests : ∀ item ∈ items, ∃ answer, test item = .ok answer) (found : List α) :
    items.filterAuxM test found = .ok ((items.filter fun item => accepts (test item)).reverse ++ found) := by
  induction items generalizing found with
  | nil => rfl
  | cons item rest ih =>
      obtain ⟨⟨answer, tested⟩, others⟩ := List.forall_mem_cons.mp tests
      rw [List.filterAuxM, tested, List.filter_cons, tested]
      refine (ih others _).trans ?_
      cases answer <;> simp [accepts]

/-- Filtering with a test that may fail is filtering, if the test fails nowhere. -/
theorem filterM_ok_iff : items.filterM test = .ok kept ↔
    (∀ item ∈ items, ∃ answer, test item = .ok answer) ∧ kept = items.filter fun item => accepts (test item) := by
  constructor
  · intro done
    rw [List.filterM] at done
    cases reversed : items.filterAuxM test [] with
    | error fault =>
        rw [reversed] at done
        cases done
    | ok found =>
        rw [reversed] at done
        cases done
        obtain ⟨tests, rfl⟩ := filterAuxM_ok reversed
        exact ⟨tests, by simp⟩
  · rintro ⟨tests, rfl⟩
    rw [List.filterM, filterAuxM_of_tests tests]
    simp [bind, Except.bind, pure, Except.pure]

end Filtering

/-- The items of a section, if it is a list. -/
def itemsAt (entries : Entries Json WideText) (name : String) : List Json :=
  match List.lookup (.ofString name) entries with
  | some (.list items) => items
  | _ => []

/-- The entries of a section, if it is an object. -/
def tableAt (entries : Entries Json WideText) (name : String) : Entries Json WideText :=
  match List.lookup (.ofString name) entries with
  | some (.dict table) => table
  | _ => []

/-- The entries of a manifest whose sections are lists and objects where they should be. -/
structure IsManifest (entries : Entries Json WideText) : Prop where
  events : ∀ found, List.lookup (.ofString "activationEvents") entries = some found → ∃ items, found = .list items
  contributes : ∀ found, List.lookup (.ofString "contributes") entries = some found → ∃ table, found = .dict table
  commands : ∀ found, List.lookup (.ofString "commands") (tableAt entries "contributes") = some found →
    ∃ items, found = .list items
  menus : ∀ found, List.lookup (.ofString "menus") (tableAt entries "contributes") = some found →
    ∃ table, found = .dict table

section Sections

variable {entries : Entries Json WideText} {name : String}

theorem elements_section
    (list : ∀ found, List.lookup (.ofString name) entries = some found → ∃ items, found = .list items) :
    elements ((List.lookup (.ofString name) entries).getD (.list [])) = .ok (itemsAt entries name) := by
  rw [itemsAt]
  cases found : List.lookup (.ofString name) entries with
  | none => rfl
  | some value =>
      obtain ⟨items, rfl⟩ := list value found
      rfl

theorem entriesOf_section
    (table : ∀ found, List.lookup (.ofString name) entries = some found → ∃ table, found = .dict table) :
    entriesOf ((List.lookup (.ofString name) entries).getD (.dict [])) = .ok (.ofEntries (tableAt entries name)) := by
  rw [tableAt]
  cases found : List.lookup (.ofString name) entries with
  | none => rfl
  | some value =>
      obtain ⟨table, rfl⟩ := table value found
      rfl

end Sections

namespace Fragment

variable (fragment : Fragment)

/-- The commands that are kept beside those of the fragment. -/
def kept (contributes : Entries Json WideText) : Except ShapeFault (List Json) :=
  if fragment.commands.isEmpty then .ok []
  else (itemsAt contributes "commands").filterM (isKept (fragment.ids.map .text))

def withCommands (kept : List Json) (contributes : Entries Json WideText) : Entries Json WideText :=
  if fragment.commands.isEmpty then contributes
  else contributes.put (.ofString "commands") (.list (kept ++ fragment.commands))

def withMenus (contributes : Entries Json WideText) : Entries Json WideText :=
  if List.isEmpty fragment.menus then contributes
  else contributes.put (.ofString "menus") (.dict ((tableAt contributes "menus").putAll fragment.menus))

/-- The manifest with the fragment laid over it, beside whose commands some are kept. -/
def overlay (kept : List Json) (entries : Entries Json WideText) : Entries Json WideText :=
  (entries.put (.ofString "activationEvents")
    (.list (joinEvents (itemsAt entries "activationEvents") (fragment.events.map .text)))).put (.ofString "contributes")
      (.dict (fragment.withMenus (fragment.withCommands kept (tableAt entries "contributes"))))

@[simp] theorem lookup_commands : List.lookup (.ofString "commands") fragment.contributes =
    if fragment.commands.isEmpty then none else some (.list fragment.commands) := by
  have differ : (WideText.ofString "commands" == WideText.ofString "menus") = false := by
    simp [WideText.ofString_inj]
  rw [contributes]
  cases fragment.commands.isEmpty <;> cases List.isEmpty fragment.menus <;> simp [List.lookup_cons, differ]

@[simp] theorem lookup_menus : List.lookup (.ofString "menus") fragment.contributes =
    if List.isEmpty fragment.menus then none else some (.dict fragment.menus) := by
  have differ : (WideText.ofString "menus" == WideText.ofString "commands") = false := by
    simp [WideText.ofString_inj]
  rw [contributes]
  cases fragment.commands.isEmpty <;> cases List.isEmpty fragment.menus <;> simp [List.lookup_cons, differ]

variable {fragment} {entries : Entries Json WideText}

theorem mergeCommands_eq (commands : ∀ found, List.lookup (.ofString "commands") entries = some found →
      ∃ items, found = .list items) :
    mergeCommands (.ofEntries entries) (.dict fragment.contributes) =
      (fragment.kept entries).map fun kept => .ofEntries (fragment.withCommands kept entries) := by
  simp only [mergeCommands, hasSection, getSection, lookup_commands, kept, withCommands]
  cases empty : fragment.commands.isEmpty with
  | true => rfl
  | false =>
      simp only [Bool.false_eq_true, if_false, Option.isSome_some, Pairs.lookup_ofEntries, elements_section commands]
      change (do
        let ids ← fragment.commands.mapM commandId
        let kept ← (itemsAt entries "commands").filterM (isKept ids)
        pure ((Pairs.ofEntries entries).put (.text "commands") (.list (kept ++ fragment.commands)))) = _
      rw [fragment.identified]
      change (do
        let kept ← (itemsAt entries "commands").filterM (isKept (fragment.ids.map .text))
        pure ((Pairs.ofEntries entries).put (.text "commands") (.list (kept ++ fragment.commands)))) = _
      cases (itemsAt entries "commands").filterM (isKept (fragment.ids.map .text)) with
      | error fault => rfl
      | ok kept => exact congrArg Except.ok (Pairs.put_ofEntries ..)

theorem mergeMenus_eq (menus : ∀ found, List.lookup (.ofString "menus") entries = some found →
      ∃ table, found = .dict table) :
    mergeMenus (.ofEntries entries) (.dict fragment.contributes) = .ok (.ofEntries (fragment.withMenus entries)) := by
  simp only [mergeMenus, hasSection, getSection, lookup_menus, withMenus]
  cases empty : List.isEmpty fragment.menus with
  | true => rfl
  | false =>
      simp only [Bool.false_eq_true, if_false, Option.isSome_some, Pairs.lookup_ofEntries, entriesOf_section menus]
      change Except.ok ((Pairs.ofEntries entries).put (.text "menus")
        ((Pairs.ofEntries (tableAt entries "menus")).putAll (.ofEntries fragment.menus)).toJson) = _
      rw [Pairs.putAll_ofEntries, Pairs.toJson_ofEntries]
      exact congrArg Except.ok (Pairs.put_ofEntries ..)

theorem sections_differ : WideText.ofString "activationEvents" ≠ .ofString "contributes" ∧
    WideText.ofString "commands" ≠ .ofString "menus" := by
  simp [WideText.ofString_inj]

theorem lookup_menus_withCommands (kept : List Json) (contributes : Entries Json WideText) :
    List.lookup (.ofString "menus") (fragment.withCommands kept contributes) =
      List.lookup (.ofString "menus") contributes := by
  rw [withCommands]
  split
  · rfl
  · exact Entries.lookup_put_other _ sections_differ.2.symm

theorem lookup_commands_withMenus (contributes : Entries Json WideText) :
    List.lookup (.ofString "commands") (fragment.withMenus contributes) =
      List.lookup (.ofString "commands") contributes := by
  rw [withMenus]
  split
  · rfl
  · exact Entries.lookup_put_other _ sections_differ.2

theorem lookup_events_overlay (kept : List Json) (entries : Entries Json WideText) :
    List.lookup (.ofString "activationEvents") (fragment.overlay kept entries) =
      some (.list (joinEvents (itemsAt entries "activationEvents") (fragment.events.map .text))) := by
  rw [overlay, Entries.lookup_put_other _ sections_differ.1, Entries.lookup_put_self]

theorem lookup_contributes_overlay (kept : List Json) (entries : Entries Json WideText) :
    List.lookup (.ofString "contributes") (fragment.overlay kept entries) =
      some (.dict (fragment.withMenus (fragment.withCommands kept (tableAt entries "contributes")))) := by
  rw [overlay, Entries.lookup_put_self]

theorem itemsAt_overlay (kept : List Json) (entries : Entries Json WideText) :
    itemsAt (fragment.overlay kept entries) "activationEvents" =
      joinEvents (itemsAt entries "activationEvents") (fragment.events.map .text) := by
  rw [itemsAt, lookup_events_overlay]

theorem tableAt_overlay (kept : List Json) (entries : Entries Json WideText) :
    tableAt (fragment.overlay kept entries) "contributes" =
      fragment.withMenus (fragment.withCommands kept (tableAt entries "contributes")) := by
  rw [tableAt, lookup_contributes_overlay]

end Fragment

variable {entries : Entries Json WideText} {fragment : Fragment}

/-- Merging lays the fragment over the manifest, unless a command cannot be compared. -/
theorem merge_fragment (manifest : IsManifest entries) (fragment : Fragment) :
    merge (.dict entries) fragment.json =
      (fragment.kept (tableAt entries "contributes")).map fun kept => .dict (fragment.overlay kept entries) := by
  have present (name : String) : get? (.dict entries) name = .ok (List.lookup (.ofString name) entries) := rfl
  have events : get? fragment.json "activationEvents" = .ok (some (.list (fragment.events.map .text))) := by
    simp [get?, Fragment.json]
  have contributes : get? fragment.json "contributes" = .ok (some (.dict fragment.contributes)) := by
    have differ : (WideText.ofString "contributes" == WideText.ofString "activationEvents") = false :=
      beq_false_of_ne Fragment.sections_differ.1.symm
    simp [get?, Fragment.json, List.lookup_cons, differ]
  have whole : entriesOf (.dict entries) = .ok (.ofEntries entries) := rfl
  have new : elements (.list (fragment.events.map .text)) = .ok (fragment.events.map .text) := rfl
  simp only [merge, bind, Except.bind, whole, present, events, contributes, Option.getD_some, new,
    elements_section manifest.events, entriesOf_section manifest.contributes,
    Fragment.mergeCommands_eq manifest.commands]
  cases fragment.kept (tableAt entries "contributes") with
  | error fault => rfl
  | ok kept =>
      have menus : ∀ found, List.lookup (.ofString "menus")
          (fragment.withCommands kept (tableAt entries "contributes")) = some found → ∃ table, found = .dict table := by
        rw [Fragment.lookup_menus_withCommands]
        exact manifest.menus
      simp only [Except.map, Fragment.mergeMenus_eq menus, Pairs.toJson_ofEntries, Pairs.put_ofEntries, pure,
        Except.pure, Fragment.overlay]

/-! A second time nothing changes. -/

theorem any_same_joinEvents {held new : List Json} {event : Json} (met : held.any (event.same ·) = true) :
    (joinEvents held new).any (event.same ·) = true := by
  induction new generalizing held with
  | nil => exact met
  | cons first rest ih =>
      rw [joinEvents, List.foldl_cons]
      apply ih
      split
      · exact met
      · rw [List.any_append, met, Bool.true_or]

theorem joinEvents_met {held new : List Json} (met : ∀ event ∈ new, held.any (event.same ·) = true) :
    joinEvents held new = held := by
  induction new with
  | nil => rfl
  | cons first rest ih =>
      obtain ⟨one, others⟩ := List.forall_mem_cons.mp met
      rw [joinEvents, List.foldl_cons, if_pos one]
      exact ih others

/-- Events that are the same as themselves are there once they have been joined. -/
theorem met_joinEvents (held : List Json) {new : List Json} (reflexive : ∀ event ∈ new, event.same event = true) :
    ∀ event ∈ new, (joinEvents held new).any (event.same ·) = true := by
  induction new generalizing held with
  | nil => exact fun _ member => absurd member List.not_mem_nil
  | cons first rest ih =>
      obtain ⟨one, others⟩ := List.forall_mem_cons.mp reflexive
      rw [joinEvents, List.foldl_cons]
      refine List.forall_mem_cons.mpr ⟨any_same_joinEvents ?_, ih _ others⟩
      split
      · assumption
      · simp [one]

theorem joinEvents_joinEvents (held : List Json) (texts : List WideText) :
    joinEvents (joinEvents held (texts.map .text)) (texts.map .text) = joinEvents held (texts.map .text) := by
  refine joinEvents_met (met_joinEvents held fun event member => ?_)
  obtain ⟨text, _, rfl⟩ := List.mem_map.mp member
  rw [Pairs.same_text, beq_self_eq_true]

/-- What has an id can be compared by it. -/
theorem isKept_of_commandId {command : Json} {id : WideText} (identified : commandId command = .ok (.text id))
    (ids : List Json) : isKept ids command = .ok (!ids.any (·.same (.text id))) := by
  rw [commandId] at identified
  cases command with
  | dict fields =>
      rw [getSection] at identified
      cases found : List.lookup (.ofString "command") fields with
      | none => simp [found] at identified
      | some held =>
          simp only [found] at identified
          split at identified
          · cases identified
            simp [isKept, get?, found, isScalar]
          · cases identified
  | _ => cases identified

/-- No command of a fragment is kept beside itself. -/
theorem Fragment.isKept_command (fragment : Fragment) {command : Json} (member : command ∈ fragment.commands) :
    isKept (fragment.ids.map .text) command = .ok false := by
  obtain ⟨found, there, identified⟩ := mapM_ok_mem fragment.identified member
  obtain ⟨id, known, rfl⟩ := List.mem_map.mp there
  rw [isKept_of_commandId identified]
  have met : (fragment.ids.map Json.text).any (·.same (.text id)) = true :=
    List.any_eq_true.mpr ⟨_, there, by rw [Pairs.same_text, beq_self_eq_true]⟩
  rw [met]
  rfl

end Extension.Manifest
