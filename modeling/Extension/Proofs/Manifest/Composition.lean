import Extension.Proofs.Manifest.Preservation

namespace Extension.Manifest

/-! Fragments laid over a manifest one after the other.

Two fragments make one, section by section: their merge has the sections of that fragment, and laying it over a manifest
is laying both over it.
-/

/-! A fragment takes part in a merge by its sections alone. -/

section Congruence

variable {left right leftTable rightTable : Entries Json WideText}

theorem mergeCommands_congr
    (same : List.lookup (.ofString "commands") leftTable = List.lookup (.ofString "commands") rightTable)
    (contributes : Pairs) :
    mergeCommands contributes (.dict leftTable) = mergeCommands contributes (.dict rightTable) := by
  simp only [mergeCommands, hasSection, getSection, same]

theorem mergeMenus_congr
    (same : List.lookup (.ofString "menus") leftTable = List.lookup (.ofString "menus") rightTable)
    (contributes : Pairs) :
    mergeMenus contributes (.dict leftTable) = mergeMenus contributes (.dict rightTable) := by
  simp only [mergeMenus, hasSection, getSection, same]

theorem merge_congr
    (events : List.lookup (.ofString "activationEvents") left = List.lookup (.ofString "activationEvents") right)
    (leftFound : List.lookup (.ofString "contributes") left = some (.dict leftTable))
    (rightFound : List.lookup (.ofString "contributes") right = some (.dict rightTable))
    (commands : List.lookup (.ofString "commands") leftTable = List.lookup (.ofString "commands") rightTable)
    (menus : List.lookup (.ofString "menus") leftTable = List.lookup (.ofString "menus") rightTable) (existing : Json) :
    merge existing (.dict left) = merge existing (.dict right) := by
  have sameEvents : get? (.dict left) "activationEvents" = get? (.dict right) "activationEvents" :=
    congrArg Except.ok events
  have leftContributes : get? (.dict left) "contributes" = .ok (some (.dict leftTable)) := congrArg Except.ok leftFound
  have rightContributes : get? (.dict right) "contributes" = .ok (some (.dict rightTable)) :=
    congrArg Except.ok rightFound
  simp only [merge, sameEvents, leftContributes, rightContributes, bind, Except.bind, Option.getD_some,
    mergeCommands_congr commands, mergeMenus_congr menus]

end Congruence

/-! Events -/

/-- Texts, and those of other texts that are not among them. -/
def joinTexts (first second : List WideText) : List WideText :=
  first ++ second.filter fun text => decide (text ∉ first)

theorem nodup_joinTexts {first second : List WideText} (firstDistinct : first.Nodup) (secondDistinct : second.Nodup) :
    (joinTexts first second).Nodup := by
  refine firstDistinct.append (secondDistinct.filter _) fun text member other => ?_
  simpa [member] using (List.mem_filter.mp other).2

/-- What is joined to a list in two steps may be joined to each other first. -/
theorem joinEvents_joinTexts {first second : List WideText} (firstDistinct : first.Nodup)
    (secondDistinct : second.Nodup) (held : List Json) :
    joinEvents (joinEvents held (first.map .text)) (second.map .text) =
      joinEvents held ((joinTexts first second).map .text) := by
  -- A text is new to the list that has the first ones just when it was new to it before and is none of them.
  have unmet : ∀ text ∈ second, (!(joinEvents held (first.map .text)).any ((Json.text text).same ·)) =
      (!held.any ((Json.text text).same ·) && decide (text ∉ first)) := by
    intro text _
    rw [Bool.eq_iff_iff, Bool.and_eq_true, Bool.not_eq_true', Bool.not_eq_true', ← Bool.not_eq_true, ← Bool.not_eq_true,
      any_same_iff, any_same_iff, decide_eq_true_iff, mem_joinEvents firstDistinct, not_or]
  rw [joinEvents_texts secondDistinct, List.filter_congr unmet, joinEvents_texts firstDistinct,
    joinEvents_texts (nodup_joinTexts firstDistinct secondDistinct), joinTexts, List.filter_append, List.filter_filter,
    List.map_append, List.append_assoc]

theorem joinEvents_nil {texts : List WideText} (distinct : texts.Nodup) :
    joinEvents [] (texts.map .text) = texts.map .text := by
  rw [joinEvents_texts distinct]
  simp

/-- The same manifest, but for the order of what it contributes. -/
def SameContent (left right : Json) : Prop :=
  ∃ top leftTable rightTable : Entries Json WideText, left = .dict (top.put "contributes" (.dict leftTable)) ∧
    right = .dict (top.put "contributes" (.dict rightTable)) ∧ leftTable.Perm rightTable

namespace Fragment

variable (first second : Fragment)

/-- The fragment that two fragments make, one after the other. -/
def followedBy : Fragment where
  events := joinTexts first.events second.events
  commands := second.others first.commands ++ second.commands
  ids := (first.ids.filter fun id => decide (id ∉ second.ids)) ++ second.ids
  menus := first.menus.putAll second.menus
  identified := by
    have kept : (second.others first.commands).map textId? =
        (first.ids.filter fun id => decide (id ∉ second.ids)).map some := by
      have test : (fun command => !hasIdIn second.ids command) =
          (fun id? : Option WideText => !id?.any second.ids.contains) ∘ textId? := rfl
      rw [others, test, ← List.filter_map, first.textIds, List.filter_map]
      simp [Function.comp_def]
    rw [identified_iff, List.map_append, List.map_append, kept, second.textIds]

/-! Commands -/

theorem others_append (commands more : List Json) :
    first.others (commands ++ more) = first.others commands ++ first.others more :=
  List.filter_append ..

theorem others_followedBy (commands : List Json) :
    (first.followedBy second).others commands = second.others (first.others commands) := by
  rw [others, others, others, List.filter_filter]
  refine List.filter_congr fun command _ => ?_
  rw [followedBy, hasIdIn_append, hasIdIn, hasIdIn, hasIdIn]
  cases textId? command with
  | none => rfl
  | some id =>
      by_cases known : id ∈ second.ids <;> simp [known]

variable {first second}

theorem commands_followedBy_eq_nil :
    (first.followedBy second).commands = [] ↔ first.commands = [] ∧ second.commands = [] := by
  rw [followedBy, List.append_eq_nil_iff]
  refine and_congr_left fun none => ?_
  rw [others_of_none none]

theorem commandSection_followedBy (commands : List Json) : (first.followedBy second).commandSection commands =
    (second.commandSection (first.others commands ++ first.commands)).or (first.commandSection commands) := by
  have joined : (first.followedBy second).others commands ++ (first.followedBy second).commands =
      second.others (first.others commands ++ first.commands) ++ second.commands := by
    rw [others_followedBy, others_append, List.append_assoc]
    rfl
  rw [commandSection, joined, commandSection, commandSection]
  simp only [List.isEmpty_iff, commands_followedBy_eq_nil]
  by_cases none : second.commands = []
  · simp [none, others_of_none none]
  · simp [none]

/-! Menus -/

theorem menus_followedBy_eq_nil :
    (first.followedBy second).menus = [] ↔ first.menus = [] ∧ second.menus = [] :=
  Entries.putAll_eq_nil_iff

theorem menuSection_followedBy (own : first.menus.keys.Nodup) (menus : Entries Json WideText) :
    (first.followedBy second).menuSection menus =
      (second.menuSection (menus.putAll first.menus)).or (first.menuSection menus) := by
  have joined : menus.putAll (first.followedBy second).menus = (menus.putAll first.menus).putAll second.menus :=
    Entries.putAll_assoc menus own second.menus
  rw [menuSection, joined, menuSection, menuSection]
  simp only [List.isEmpty_iff, menus_followedBy_eq_nil]
  by_cases none : second.menus = []
  · simp [none, Entries.putAll]
  · simp [none]

/-! Whole fragments -/

theorem fits_followedBy {manifest : Entries Json WideText} : (first.followedBy second).Fits manifest ↔
    first.Fits manifest ∧ second.Fits (first.laidOver manifest) := by
  rw [Fits, Fits, Fits, commands_followedBy_eq_nil, commandsIn_laidOver]
  constructor
  · rintro (⟨none, alsoNone⟩ | all)
    · exact ⟨.inl none, .inl alsoNone⟩
    · refine ⟨.inr all, .inr fun command member => ?_⟩
      rcases List.mem_append.mp member with old | new
      · exact all command (List.mem_of_mem_filter old)
      · exact first.isComparable_command new
  · rintro ⟨none | all, fits⟩
    · rw [others_of_none none, none, List.append_nil] at fits
      exact fits.imp_left fun alsoNone => ⟨none, alsoNone⟩
    · exact .inr all

/-- The merge of two fragments has the sections of the one that they make. -/
theorem merge_laidOver_fields (firstDistinct : first.events.Nodup) (secondDistinct : second.events.Nodup)
    (existing : Json) :
    merge existing (.dict (second.laidOver first.fields)) = merge existing (first.followedBy second).json := by
  have events : joinEvents (first.events.map .text) (second.events.map .text) =
      (first.followedBy second).events.map .text := by
    rw [← joinEvents_nil firstDistinct, joinEvents_joinTexts firstDistinct secondDistinct,
      joinEvents_nil (nodup_joinTexts firstDistinct secondDistinct)]
    rfl
  have commands : (first.followedBy second).commandSection [] =
      (second.commandSection first.commands).or (first.commandSection []) := commandSection_followedBy []
  rw [json_eq]
  refine merge_congr ?_ (lookup_contributes_laidOver ..) (lookup_contributes_fields _) ?_ ?_ existing
  · rw [laidOver, lookup_events_overlay, lookup_events_fields, ← events, ← eventsIn_fields]
    rfl
  · rw [lookup_commands_laidOver, commandsIn_fields, contributes_fields, lookup_commands, lookup_commands]
    exact commands.symm
  · rw [lookup_menus_laidOver, menusIn_fields, contributes_fields, lookup_menus, lookup_menus, menuSection]
    simp only [List.isEmpty_iff, menus_followedBy_eq_nil]
    by_cases none : second.menus = []
    · simp [none, followedBy, Entries.putAll]
    · simp [none, followedBy]

/-- Laying two fragments over a manifest gives what laying the one that they make over it gives, up to the order of what
is contributed. -/
theorem sameContent_laidOver (firstDistinct : first.events.Nodup) (secondDistinct : second.events.Nodup)
    (own : first.menus.keys.Nodup) (manifest : Entries Json WideText) :
    SameContent (.dict (second.laidOver (first.laidOver manifest)))
      (.dict ((first.followedBy second).laidOver manifest)) := by
  have events : joinEvents (eventsIn (first.laidOver manifest)) (second.events.map .text) =
      joinEvents (eventsIn manifest) ((first.followedBy second).events.map .text) := by
    rw [eventsIn_laidOver, joinEvents_joinTexts firstDistinct secondDistinct]
    rfl
  have tables : (tableAt (second.laidOver (first.laidOver manifest)) "contributes").Perm
      (tableAt ((first.followedBy second).laidOver manifest) "contributes") := by
    rw [contributes_laidOver, contributes_laidOver, commandsIn_laidOver, menusIn_laidOver, contributes_laidOver,
      commandSection_followedBy, menuSection_followedBy own]
    exact Entries.putSome_twice_perm sections_differ.2.symm ..
  have inTurn : second.laidOver (first.laidOver manifest) = (manifest.put (.ofString "activationEvents")
      (.list (joinEvents (eventsIn manifest) ((first.followedBy second).events.map .text)))).put
        (.ofString "contributes") (.dict (tableAt (second.laidOver (first.laidOver manifest)) "contributes")) := by
    have parts := second.laidOver_eq (first.laidOver manifest)
    generalize tableAt (second.laidOver (first.laidOver manifest)) "contributes" = table at parts ⊢
    rw [parts, events, first.laidOver_eq, Entries.put_put_between sections_differ.1.symm, Entries.put_put_self]
  have atOnce := (first.followedBy second).laidOver_eq manifest
  exact ⟨_, _, _, congrArg Json.dict inTurn, congrArg Json.dict atOnce, tables⟩

end Fragment

section Merging

variable {entries : Entries Json WideText} {first second : Fragment} {merged : Json}

theorem merge_twice_iff (manifest : IsManifest entries) :
    (do merge (← merge (.dict entries) first.json) second.json) = .ok merged ↔
      (first.followedBy second).Fits entries ∧ merged = .dict (second.laidOver (first.laidOver entries)) := by
  rw [Fragment.fits_followedBy]
  cases laid : merge (.dict entries) first.json with
  | error fault =>
      have unfit : ¬ first.Fits entries := fun fits => by
        rw [(merge_ok_iff manifest first).mpr ⟨fits, rfl⟩] at laid
        cases laid
      simp [unfit, bind, Except.bind]
  | ok between =>
      obtain ⟨fits, rfl⟩ := (merge_ok_iff manifest first).mp laid
      rw [and_iff_right fits]
      exact merge_ok_iff (first.isManifest_overlay manifest _) second

theorem merge_merge_iff (manifest : IsManifest entries) (firstDistinct : first.events.Nodup)
    (secondDistinct : second.events.Nodup) :
    (do merge (.dict entries) (← merge first.json second.json)) = .ok merged ↔
      (first.followedBy second).Fits entries ∧ merged = .dict ((first.followedBy second).laidOver entries) := by
  have joined : merge first.json second.json = .ok (.dict (second.laidOver first.fields)) :=
    (merge_ok_iff first.isManifest_fields second).mpr ⟨.inr fun command member =>
      first.isComparable_command (first.commandsIn_fields ▸ member), rfl⟩
  rw [joined]
  change merge (.dict entries) (.dict (second.laidOver first.fields)) = .ok merged ↔ _
  rw [Fragment.merge_laidOver_fields firstDistinct secondDistinct, merge_ok_iff manifest]

end Merging

/-- Merging two packages into a manifest one after the other has a result just when merging their merge has one, and it
is the same one but for the order of what is contributed. -/
theorem merging_in_turn {entries : Entries Json WideText} (manifest : IsManifest entries)
    {former latter : Package WideText} (formerProper : former.IsProper) (latterProper : latter.IsProper)
    {first second : Json} (firstWritten : (former.map .text).toJson = .ok first)
    (secondWritten : (latter.map .text).toJson = .ok second) :
    ((∃ merged, (do merge (← merge (.dict entries) first) second) = .ok merged) ↔
      ∃ merged, (do merge (.dict entries) (← merge first second)) = .ok merged) ∧
    ∀ left right, (do merge (← merge (.dict entries) first) second) = .ok left →
      (do merge (.dict entries) (← merge first second)) = .ok right → SameContent left right := by
  obtain ⟨first, rfl, firstWrites⟩ := fragment_written firstWritten
  obtain ⟨second, rfl, secondWrites⟩ := fragment_written secondWritten
  have firstDistinct := firstWrites.events_nodup formerProper
  have secondDistinct := secondWrites.events_nodup latterProper
  constructor
  · simp only [merge_twice_iff manifest, merge_merge_iff manifest firstDistinct secondDistinct, exists_and_left,
      exists_eq]
  · intro left right inTurn atOnce
    obtain ⟨_, rfl⟩ := (merge_twice_iff manifest).mp inTurn
    obtain ⟨_, rfl⟩ := (merge_merge_iff manifest firstDistinct secondDistinct).mp atOnce
    exact Fragment.sameContent_laidOver firstDistinct secondDistinct (firstWrites.menuIds ▸ formerProper.menus) entries

/-- A manifest that contributes nothing. -/
def bare : Entries Json WideText :=
  [("activationEvents", .list [.text "onCommand:a"]), ("name", .text "x")]

def toolbar : Package WideText where
  events := ["*"]
  menus := [("m", [{ command := "a" }]), ("n", [])]

def button : Package WideText where
  events := ["onCommand:a", "*"]
  commands := [{ id := "a" }]
  menus := [("n", [{ command := "a" }])]

def toolbarJson : Json :=
  .dict [("activationEvents", .list [.text "*"]), ("contributes", .dict [
    ("menus", .dict [("m", .list [.dict [("command", .text "a")]]), ("n", .list [])])])]

def buttonJson : Json :=
  .dict [("activationEvents", .list [.text "*", .text "onCommand:a"]), ("contributes", .dict [
    ("commands", .list [.dict [("command", .text "a")]]),
    ("menus", .dict [("n", .list [.dict [("command", .text "a")]])])])]

/-- A manifest that has the toolbar and the button. -/
def equipped (contributes : Entries Json WideText) : Json :=
  .dict [("activationEvents", .list [.text "onCommand:a", .text "*"]), ("name", .text "x"),
    ("contributes", .dict contributes)]

def equippedCommands : WideText × Json :=
  ("commands", .list [.dict [("command", .text "a")]])

def equippedMenus : WideText × Json :=
  ("menus", .dict [("m", .list [.dict [("command", .text "a")]]), ("n", .list [.dict [("command", .text "a")]])])

theorem isManifest_bare : IsManifest bare where
  events found there := by
    cases there
    exact ⟨_, rfl⟩
  contributes found there := by cases there
  commands found there := by cases there
  menus found there := by cases there

theorem equipped_in_turn :
    (do merge (← merge (.dict bare) toolbarJson) buttonJson) = .ok (equipped [equippedMenus, equippedCommands]) ∧
    (do merge (.dict bare) (← merge toolbarJson buttonJson)) = .ok (equipped [equippedCommands, equippedMenus]) ∧
    SameContent (equipped [equippedMenus, equippedCommands]) (equipped [equippedCommands, equippedMenus]) := by
  have toolbarWritten : (toolbar.map Document.text).toJson = .ok toolbarJson := by
    rw [package_toJson_eq .rfl (by decide)]
    rfl
  have buttonWritten : (button.map Document.text).toJson = .ok buttonJson := by
    rw [package_toJson_eq (show button.events.Perm ["*", "onCommand:a"] by decide) (by decide)]
    rfl
  have inTurn : (do merge (← merge (.dict bare) toolbarJson) buttonJson) =
      .ok (equipped [equippedMenus, equippedCommands]) := by rfl
  have atOnce : (do merge (.dict bare) (← merge toolbarJson buttonJson)) =
      .ok (equipped [equippedCommands, equippedMenus]) := by rfl
  have toolbarProper : toolbar.IsProper := ⟨by decide, by decide⟩
  have buttonProper : button.IsProper := ⟨by decide, by decide⟩
  have same := (merging_in_turn isManifest_bare toolbarProper buttonProper toolbarWritten buttonWritten).2
  exact ⟨inTurn, atOnce, same _ _ inTurn atOnce⟩

end Extension.Manifest
