import Extension.Manifest.Files
import Extension.Proofs.Manifest.Overlay

namespace Extension.Manifest

/-! Generating a manifest again.

What a merge leaves is a manifest over which the same fragment can be laid, and every section is already as the
fragment makes it.
-/

namespace Fragment

variable {fragment : Fragment} {entries contributes : Entries Json WideText} {kept : List Json}

theorem withMenus_withMenus (contributes : Entries Json WideText) :
    fragment.withMenus (fragment.withMenus contributes) = fragment.withMenus contributes := by
  rw [withMenus, withMenus]
  split
  · rfl
  · have found : tableAt (contributes.put (.ofString "menus")
        (.dict ((tableAt contributes "menus").putAll fragment.menus))) "menus" =
          (tableAt contributes "menus").putAll fragment.menus := by
      rw [tableAt, Entries.lookup_put_self]
    rw [found, Entries.putAll_putAll, Entries.put_put_self]

/-- The commands of a manifest over which the fragment has been laid. -/
theorem lookup_commands_overlay (filled : fragment.commands.isEmpty = false) (kept : List Json)
    (contributes : Entries Json WideText) :
    List.lookup (.ofString "commands") (fragment.withMenus (fragment.withCommands kept contributes)) =
      some (.list (kept ++ fragment.commands)) := by
  rw [lookup_commands_withMenus, withCommands, filled, if_neg Bool.false_ne_true, Entries.lookup_put_self]

theorem withCommands_overlay (kept : List Json) (contributes : Entries Json WideText) :
    fragment.withCommands kept (fragment.withMenus (fragment.withCommands kept contributes)) =
      fragment.withMenus (fragment.withCommands kept contributes) := by
  rw [withCommands.eq_def _ _ (fragment.withMenus _)]
  cases empty : fragment.commands.isEmpty with
  | true => rfl
  | false => exact Entries.put_of_lookup (lookup_commands_overlay empty kept contributes)

/-- The same commands are kept again: the ones of the fragment make room for themselves. -/
theorem kept_overlay (done : fragment.kept contributes = .ok kept) :
    fragment.kept (fragment.withMenus (fragment.withCommands kept contributes)) = .ok kept := by
  cases empty : fragment.commands.isEmpty with
  | true =>
      rw [Fragment.kept, empty] at done ⊢
      exact done
  | false =>
      rw [Fragment.kept, empty] at done ⊢
      obtain ⟨tests, same⟩ := filterM_ok_iff.mp done
      have listed : itemsAt (fragment.withMenus (fragment.withCommands kept contributes)) "commands" =
          kept ++ fragment.commands := by
        rw [itemsAt, lookup_commands_overlay empty]
      have inside {command : Json} (member : command ∈ kept) : command ∈ itemsAt contributes "commands" ∧
          accepts (isKept (fragment.ids.map .text) command) = true := by
        rw [same] at member
        exact List.mem_filter.mp member
      have none : fragment.commands.filter (fun command => accepts (isKept (fragment.ids.map .text) command)) = [] :=
        List.filter_eq_nil_iff.mpr fun command member => by simp [isKept_command _ member, accepts]
      rw [if_neg Bool.false_ne_true, listed]
      refine filterM_ok_iff.mpr ⟨fun command member => ?_, ?_⟩
      · rcases List.mem_append.mp member with old | new
        · exact tests command (inside old).1
        · exact ⟨false, isKept_command _ new⟩
      · rw [List.filter_append, none, List.append_nil]
        exact (List.filter_eq_self.mpr fun command member => (inside member).2).symm

theorem overlay_overlay (kept : List Json) (entries : Entries Json WideText) :
    fragment.overlay kept (fragment.overlay kept entries) = fragment.overlay kept entries := by
  rw [overlay.eq_def _ _ (fragment.overlay kept entries), itemsAt_overlay, joinEvents_joinEvents, tableAt_overlay,
    withCommands_overlay, withMenus_withMenus, Entries.put_of_lookup (lookup_events_overlay kept entries),
    Entries.put_of_lookup (lookup_contributes_overlay kept entries)]

theorem isManifest_overlay (manifest : IsManifest entries) (kept : List Json) :
    IsManifest (fragment.overlay kept entries) where
  events found there := by
    rw [lookup_events_overlay, Option.some.injEq] at there
    exact ⟨_, there.symm⟩
  contributes found there := by
    rw [lookup_contributes_overlay, Option.some.injEq] at there
    exact ⟨_, there.symm⟩
  commands found there := by
    rw [tableAt_overlay] at there
    cases empty : fragment.commands.isEmpty with
    | true =>
        rw [lookup_commands_withMenus, withCommands, empty] at there
        exact manifest.commands found there
    | false =>
        rw [lookup_commands_overlay empty, Option.some.injEq] at there
        exact ⟨_, there.symm⟩
  menus found there := by
    rw [tableAt_overlay, withMenus] at there
    split at there
    · rw [lookup_menus_withCommands] at there
      exact manifest.menus found there
    · rw [Entries.lookup_put_self, Option.some.injEq] at there
      exact ⟨_, there.symm⟩

end Fragment

variable {entries : Entries Json WideText} {fragment : Fragment} {merged : Json}

theorem merge_merged (manifest : IsManifest entries) (done : merge (.dict entries) fragment.json = .ok merged) :
    merge merged fragment.json = .ok merged := by
  rw [merge_fragment manifest] at done
  cases kept : fragment.kept (tableAt entries "contributes") with
  | error fault =>
      rw [kept] at done
      cases done
  | ok commands =>
      rw [kept] at done
      cases done
      rw [merge_fragment (fragment.isManifest_overlay manifest commands), Fragment.tableAt_overlay,
        Fragment.kept_overlay kept]
      exact congrArg (fun entries => Except.ok (Json.dict entries)) (Fragment.overlay_overlay commands entries)

/-- The text of the manifest is read as the manifest. -/
def ReadsBack (manifest : Json) : Prop :=
  Json.parse (String.ofList (lineFeeds (fileText manifest).toList)) = .ok manifest

theorem readFile_of_lookup {files : Files} {name content : String} (found : List.lookup name files = some content) :
    readFile files name = (Json.parse (String.ofList (lineFeeds content.toList))).mapError .unreadable := by
  rw [readFile, found]

/-- A manifest into which a package has been merged does not change when the package is merged into it again, and
neither does the file that holds it. -/
theorem regenerating_changes_nothing (manifest : IsManifest entries) {package : Package WideText} {generated : Json}
    (written : (package.map .text).toJson = .ok generated) (done : merge (.dict entries) generated = .ok merged) :
    merge merged generated = .ok merged ∧
      ∀ files name, readFile files name = .ok (.dict entries) → ReadsBack merged →
        updateFile files name generated = (.ok merged, files.put name (fileText merged)) ∧
          updateFile (files.put name (fileText merged)) name generated =
            (.ok merged, files.put name (fileText merged)) := by
  obtain ⟨_, rfl, _⟩ := fragment_written written
  have again := merge_merged manifest done
  refine ⟨again, fun files name present reads => ⟨by simp only [updateFile, present, done], ?_⟩⟩
  have found : List.lookup name (files.put name (fileText merged)) = some (fileText merged) :=
    Entries.lookup_put_self ..
  have readAgain : readFile (files.put name (fileText merged)) name = .ok merged := by
    rw [readFile_of_lookup found, reads, Except.mapError]
  simp only [updateFile, readAgain, again, Entries.put_of_lookup found]

/-- A manifest that has an event twice, a command without an id, and a command that is generated, too. -/
def handwritten : Entries Json WideText :=
  [("activationEvents", .list [.text "*", .text "*"]),
    ("contributes", .dict [("commands", .list [.dict [("command", .text "a")], .dict []])])]

def handwrittenText : String :=
  "\x7b\"activationEvents\":[\"*\",\"*\"],\r
\"contributes\":\x7b\"commands\":[\x7b\"command\":\"a\"\x7d,\x7b\x7d]\x7d\x7d"

def samplePackage : Package WideText where
  commands := [{ id := "a" }]

def sampleJson : Json :=
  .dict [("activationEvents", .list []), ("contributes",
    .dict [("commands", .list [.dict [("command", .text "a")]])])]

def together : Json :=
  .dict [("activationEvents", .list [.text "*", .text "*"]), ("contributes",
    .dict [("commands", .list [.dict [], .dict [("command", .text "a")]])])]

theorem isManifest_handwritten : IsManifest handwritten where
  events found there := by
    cases there
    exact ⟨_, rfl⟩
  contributes found there := by
    cases there
    exact ⟨_, rfl⟩
  commands found there := by
    cases there
    exact ⟨_, rfl⟩
  menus found there := by
    cases there

set_option maxRecDepth 4000 in
theorem regenerating_handwritten : (samplePackage.map Document.text).toJson = .ok sampleJson ∧
    ∃ after, updateFile [("package.json", handwrittenText)] "package.json" sampleJson = (.ok together, after) ∧
      updateFile after "package.json" sampleJson = (.ok together, after) := by
  have written : (samplePackage.map Document.text).toJson = .ok sampleJson := by
    rw [package_toJson_eq (show samplePackage.events.Perm [] from .nil) .nil]
    rfl
  have done : merge (.dict handwritten) sampleJson = .ok together := by rfl
  have text : fileText together = "\x7b
  \"activationEvents\": [\n    \"*\",\n    \"*\"\n  ],
  \"contributes\": \x7b
    \"commands\": [\n      \x7b\x7d,\n      \x7b\n        \"command\": \"a\"\n      \x7d\n    ]
  \x7d\n\x7d\n" := by
    decide +kernel
  -- Characters are read much faster than a text that is taken apart again and again.
  have spelled : handwrittenText.toList = _ := String.toList_ofList
  have respelled : (fileText together).toList = _ := (congrArg String.toList text).trans String.toList_ofList
  have present : readFile [("package.json", handwrittenText)] "package.json" = .ok (.dict handwritten) := by
    rw [readFile_of_lookup rfl, spelled, Json.parse, String.toList_ofList]
    rfl
  have reads : ReadsBack together := by
    rw [ReadsBack, respelled, Json.parse, String.toList_ofList]
    rfl
  have again := (regenerating_changes_nothing isManifest_handwritten written done).2 _ _ present reads
  exact ⟨written, _, again.1, again.2⟩

end Extension.Manifest
