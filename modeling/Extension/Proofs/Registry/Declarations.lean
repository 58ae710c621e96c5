import Extension.Manifest.Merge
import Extension.Proofs.Registry.Assembly
import Extension.Registry.Menu

namespace Extension.Registry

open Decision Manifest

/-! Declaring everything, in any order.

What the registry holds in the end can be read off the declarations: the commands, the ids of the menus, and for each
menu what has been added to it.  Asking for the package in between leaves no trace.
-/

inductive Declaration (ρ : Type) where
  | command (descriptor : Manifest.Command String) (activates : Bool)
  | external (id : String)
  | contextKey (name : Value)
  | menu (id : String)
  | add (environment : Environment) (menu : Reference) (item : Item ρ)
  | group (environment : Environment) (menu : Reference) (name : String) (items : List (Item ρ))
  | package
  | toJson

/-- What a declaration gives back. -/
inductive Declared where
  | nothing
  | reference (made : Reference)
  | package (made : Package String)
  | json (made : Json)

/-- An item that is added, with the environment and the group in which it is. -/
structure Addition (ρ : Type) where
  environment : Environment
  group : Option String
  item : Item ρ

variable {η σ ρ : Type}

namespace Declaration

def asks : Declaration ρ → Bool
  | .package | .toJson => true
  | _ => false

def command? : Declaration ρ → Option DeclaredCommand
  | .command descriptor activates => some { descriptor, activates }
  | _ => none

def menuId? : Declaration ρ → Option String
  | .menu id => some id
  | _ => none

def additionsTo (index : Nat) : Declaration ρ → List (Addition ρ)
  | .add environment target item => if target = .menu index then [{ environment, group := none, item }] else []
  | .group environment target name items =>
      if target = .menu index then items.map fun item => { environment, group := some name, item } else []
  | _ => []

end Declaration

def commandsOf (declarations : List (Declaration ρ)) : List DeclaredCommand :=
  declarations.filterMap Declaration.command?

def menuIdsOf (declarations : List (Declaration ρ)) : List String :=
  declarations.filterMap Declaration.menuId?

/-- What is added to a menu, by its place among the menus. -/
def additionsTo (index : Nat) (declarations : List (Declaration ρ)) : List (Addition ρ) :=
  declarations.flatMap (Declaration.additionsTo index)

/-- The id of a command, by its place among the commands. -/
def idIn (commands : List DeclaredCommand) : Reference → Option String
  | .command index => (commands[index]?).map fun command => command.descriptor.id
  | _ => none

/-- What an item stands for in the manifest. -/
def Addition.resolved? (step : ρ → Move ρ) (commands : List DeclaredCommand) (addition : Addition ρ) :
    Option (MenuItem String) :=
  match idIn commands addition.item.command, addition.item.alt.map (idIn commands),
      (resolveOptional step addition.environment addition.item.condition).1 with
  | some command, none, .ok when => some { command, when, group := addition.group }
  | some command, some (some alt), .ok when => some { command, alt := some alt, when, group := addition.group }
  | _, _, _ => none

variable (step : ρ → Move ρ)

def declare (registry : Registry η σ) : Declaration ρ → Attempt η σ Declared
  | .command descriptor activates =>
      let (reference, registry) := registry.addCommand descriptor activates
      (.ok (.reference reference), registry)
  | .external id => (.ok (.reference (.external id)), registry)
  | .contextKey name =>
      let (reference, registry) := registry.addContextKey name
      (reference.map .reference, registry)
  | .menu id =>
      let (reference, registry) := registry.addMenu id
      (.ok (.reference reference), registry)
  | .add environment menu item =>
      let (added, registry) := registry.add step environment menu item
      (added.map fun () => .nothing, registry)
  | .group environment menu name items =>
      let (added, registry) := registry.addGroup step environment menu name items
      (added.map fun () => .nothing, registry)
  | .package => (.ok (.package registry.package), registry)
  | .toJson => ((registry.document.toJson.map .json).mapError .codec, registry)

/-- Makes all the declarations, unless one fails. -/
def declareAll (registry : Registry η σ) : List (Declaration ρ) → Except Failure (List Declared × Registry η σ)
  | [] => .ok ([], registry)
  | declaration :: declarations =>
      match registry.declare step declaration with
      | (.error failure, _) => .error failure
      | (.ok answer, registry) =>
          (declareAll registry declarations).map fun (answers, registry) => (answer :: answers, registry)

/-- Declarations that are all made without a failure, with what they give back. -/
inductive Declares : Registry η σ → List (Declaration ρ) → List Declared → Registry η σ → Prop
  | nil {registry : Registry η σ} : Declares registry [] [] registry
  | cons {registry middle after : Registry η σ} {declaration : Declaration ρ} {declarations : List (Declaration ρ)}
      {answer : Declared} {answers : List Declared} (made : registry.declare step declaration = (.ok answer, middle))
      (rest : Declares middle declarations answers after) :
      Declares registry (declaration :: declarations) (answer :: answers) after

theorem declareAll_cons {step : ρ → Move ρ} {registry middle : Registry η σ} {declaration : Declaration ρ}
    {answer : Declared} (made : registry.declare step declaration = (.ok answer, middle))
    (declarations : List (Declaration ρ)) : registry.declareAll step (declaration :: declarations) =
      (middle.declareAll step declarations).map fun (answers, registry) => (answer :: answers, registry) := by
  simp only [declareAll, made]

theorem declares_iff {step : ρ → Move ρ} {registry after : Registry η σ} {declarations : List (Declaration ρ)}
    {answers : List Declared} : Declares step registry declarations answers after ↔
      registry.declareAll step declarations = .ok (answers, after) := by
  constructor
  · intro declares
    induction declares with
    | nil => rfl
    | cons made _ ih => rw [declareAll_cons made, ih, Except.map]
  · intro made
    induction declarations generalizing registry answers with
    | nil =>
        cases made
        exact .nil
    | cons declaration rest ih =>
        rcases one : registry.declare step declaration with ⟨failure | answer, middle⟩
        · simp [declareAll, one] at made
        · rw [declareAll_cons one] at made
          cases others : middle.declareAll step rest with
          | error failure =>
              rw [others] at made
              cases made
          | ok both =>
              rw [others] at made
              cases made
              exact .cons one (ih others)

section Commands

variable {step} {commands : List DeclaredCommand}

theorem idIn_append {reference : Reference} {id : String} (found : idIn commands reference = some id)
    (more : List DeclaredCommand) : idIn (commands ++ more) reference = some id := by
  cases reference with
  | command index =>
      obtain ⟨command, there, same⟩ := Option.map_eq_some_iff.mp found
      have inside : index < commands.length := (List.getElem?_eq_some_iff.mp there).1
      rw [idIn, List.getElem?_append_left inside, there, Option.map_some, same]
  | external id => cases found
  | contextKey index => cases found
  | menu index => cases found

/-- An item stands for the same thing whatever is declared later. -/
theorem Addition.resolved?_append {addition : Addition ρ} {entry : MenuItem String}
    (made : addition.resolved? step commands = some entry) (more : List DeclaredCommand) :
    addition.resolved? step (commands ++ more) = some entry := by
  rw [resolved?] at made ⊢
  cases command : idIn commands addition.item.command with
  | none => simp [command] at made
  | some id =>
      rw [idIn_append command more]
      cases alt : addition.item.alt with
      | none => simpa [command, alt] using made
      | some reference =>
          cases other : idIn commands reference with
          | none => simp [command, alt, other] at made
          | some second => simpa [command, alt, other, idIn_append other more] using made

theorem command?_eq_idIn (registry : Registry η σ) {reference : Reference} {member : String} {index : Nat}
    {command : DeclaredCommand} (found : registry.command? reference member = .ok (index, command)) :
    idIn registry.commands reference = some command.descriptor.id := by
  cases reference with
  | command place =>
      rw [command?] at found
      cases there : registry.commands[place]? with
      | none => simp [there] at found
      | some held =>
          simp only [there, Except.ok.injEq, Prod.mk.injEq] at found
          rw [idIn, there, Option.map_some, found.2]
  | external id => cases found
  | contextKey index => cases found
  | menu index => cases found

theorem resolved?_of_itemIds {registry : Registry η σ} {environment : Environment} {group : Option String}
    {item : Item ρ} {command : String} {alt : Option String} {when : Option String}
    (ids : registry.itemIds item = .ok (command, alt))
    (clause : (resolveOptional step environment item.condition).1 = .ok when) :
    Addition.resolved? step registry.commands { environment, group, item } = some { command, alt, when, group } := by
  rw [itemIds] at ids
  cases first : registry.command? item.command "descriptor" with
  | error failure =>
      rw [first] at ids
      cases ids
  | ok found =>
      rw [first] at ids
      cases other : item.alt with
      | none =>
          rw [other] at ids
          cases ids
          simp [Addition.resolved?, command?_eq_idIn registry first, other, clause]
      | some reference =>
          rw [other] at ids
          cases second : registry.command? reference "descriptor" with
          | error failure =>
              simp only [second] at ids
              cases ids
          | ok beside =>
              simp only [second] at ids
              cases ids
              simp [Addition.resolved?, command?_eq_idIn registry first, command?_eq_idIn registry second, other,
                clause]

end Commands

/-- The items that have been added through one menu. -/
def itemsAt (registry : Registry η σ) (index : Nat) : List (MenuItem String) :=
  ((registry.menus[index]?).map Menu.items).getD []

/-- One menu gets more items, and nothing else is declared. -/
structure Gains (index : Nat) (entries : List (MenuItem String)) (before after : Registry η σ) : Prop where
  commands : after.commands = before.commands
  ids : after.menus.map Menu.id = before.menus.map Menu.id
  items : ∀ other, after.itemsAt other = before.itemsAt other ++ if other = index then entries else []

namespace Gains

variable {index : Nat} {entries more : List (MenuItem String)} {before middle after : Registry η σ}

theorem refl (index : Nat) (registry : Registry η σ) : Gains index [] registry registry :=
  ⟨rfl, rfl, fun other => by rw [ite_self, List.append_nil]⟩

theorem trans (first : Gains index entries before middle) (second : Gains index more middle after) :
    Gains index (entries ++ more) before after where
  commands := second.commands.trans first.commands
  ids := second.ids.trans first.ids
  items other := by
    rw [second.items, first.items, List.append_assoc]
    split <;> rfl

theorem appendItem {registry : Registry η σ} {menu : Menu} (found : registry.menus[index]? = some menu)
    (notices : List Notice) (entry : MenuItem String) :
    Gains index [entry] registry ((registry.noteAll notices).appendItem index menu entry) where
  commands := rfl
  ids := by
    refine List.ext_getElem? fun other => ?_
    change ((registry.menus.set index _).map Menu.id)[other]? = _
    rw [List.getElem?_map, List.getElem?_map]
    by_cases same : index = other
    · subst same
      have inside : index < registry.menus.length := (List.getElem?_eq_some_iff.mp found).1
      rw [List.getElem?_set_self inside, found]
      rfl
    · rw [List.getElem?_set_ne same]
  items other := by
    change (((registry.menus.set index _)[other]?).map Menu.items).getD [] = _
    by_cases same : other = index
    · subst same
      have inside : other < registry.menus.length := (List.getElem?_eq_some_iff.mp found).1
      rw [List.getElem?_set_self inside, itemsAt, found, if_pos rfl]
      rfl
    · rw [List.getElem?_set_ne (Ne.symm same), if_neg same, List.append_nil, itemsAt]

end Gains

variable {step} {environment : Environment} {registry after : Registry η σ}

theorem addItem_gains {target : Reference} {group : Option String} {item : Item ρ}
    (added : registry.addItem step environment target group item = (.ok (), after)) :
    ∃ index entry, target = .menu index ∧
      Addition.resolved? step registry.commands { environment, group, item } = some entry ∧
        Gains index [entry] registry after := by
  rw [addItem] at added
  cases target with
  | menu index =>
      cases found : registry.menus[index]? with
      | none => simp [menu?, found] at added
      | some menu =>
          cases ids : registry.itemIds item with
          | error failure => simp [menu?, found, ids] at added
          | ok named =>
              cases clause : (resolveOptional step environment item.condition).1 with
              | error failure => simp [menu?, found, ids, clause] at added
              | ok when =>
                  simp only [menu?, found, ids, clause, Prod.mk.injEq, true_and] at added
                  subst added
                  exact ⟨index, _, rfl, resolved?_of_itemIds ids clause, .appendItem found _ _⟩
  | command index => cases added
  | external id => cases added
  | contextKey index => cases added

theorem addAll_gains {index : Nat} {group : String} {items : List (Item ρ)}
    (added : registry.addAll step environment (.menu index) group items = (.ok (), after)) :
    ∃ entries, (items.map fun item => Addition.resolved? step registry.commands { environment, group := some group, item }) =
      entries.map some ∧ Gains index entries registry after := by
  induction items generalizing registry with
  | nil =>
      cases added
      exact ⟨[], rfl, .refl index _⟩
  | cons item rest ih =>
      rw [addAll] at added
      rcases one : registry.addItem step environment (.menu index) (some group) item with ⟨failure | ⟨⟩, middle⟩
      · rw [one] at added
        cases added
      · rw [one] at added
        obtain ⟨place, entry, same, made, first⟩ := addItem_gains one
        cases same
        obtain ⟨entries, others, second⟩ := ih added
        rw [first.commands] at others
        exact ⟨entry :: entries, by rw [List.map_cons, made, others, List.map_cons], first.trans second⟩

/-- The registry holds what has been declared. -/
structure Reflects (step : ρ → Move ρ) (declarations : List (Declaration ρ)) (registry : Registry η σ) : Prop where
  commands : registry.commands = commandsOf declarations
  ids : registry.menus.map Menu.id = menuIdsOf declarations
  items : ∀ index, (additionsTo index declarations).map (Addition.resolved? step registry.commands) =
    (registry.itemsAt index).map some

namespace Reflects

variable {declarations : List (Declaration ρ)}

theorem empty (state : σ) : Reflects step [] ({ hostState := state } : Registry η σ) :=
  ⟨rfl, rfl, fun _ => rfl⟩

/-- Entries that have been made do not change when a command is declared. -/
theorem entries_append {additions : List (Addition ρ)} {entries : List (MenuItem String)}
    {commands : List DeclaredCommand} (made : additions.map (Addition.resolved? step commands) = entries.map some)
    (more : List DeclaredCommand) : additions.map (Addition.resolved? step (commands ++ more)) = entries.map some := by
  rw [← made]
  refine List.map_congr_left fun addition member => ?_
  have there : addition.resolved? step commands ∈ additions.map (Addition.resolved? step commands) :=
    List.mem_map_of_mem member
  rw [made] at there
  obtain ⟨entry, _, same⟩ := List.mem_map.mp there
  rw [← same]
  exact Addition.resolved?_append same.symm more

theorem command (reflects : Reflects step declarations registry) (descriptor : Manifest.Command String)
    (activates : Bool) : Reflects step (declarations ++ [.command descriptor activates])
      (registry.addCommand descriptor activates).2 where
  commands := by
    rw [commandsOf, List.filterMap_append, ← commandsOf, ← reflects.commands]
    rfl
  ids := by
    rw [menuIdsOf, List.filterMap_append, ← menuIdsOf, ← reflects.ids]
    exact (List.append_nil _).symm
  items index := by
    rw [additionsTo, List.flatMap_append, ← additionsTo]
    change (additionsTo index declarations ++ []).map _ = _
    rw [List.append_nil]
    exact entries_append (reflects.items index) _

theorem menu (reflects : Reflects step declarations registry) (id : String) :
    Reflects step (declarations ++ [.menu id]) (registry.addMenu id).2 where
  commands := by
    rw [commandsOf, List.filterMap_append, ← commandsOf, ← reflects.commands]
    exact (List.append_nil _).symm
  ids := by
    rw [menuIdsOf, List.filterMap_append, ← menuIdsOf, ← reflects.ids]
    exact List.map_append
  items index := by
    have same : (registry.addMenu id).2.itemsAt index = registry.itemsAt index := by
      change (((registry.menus ++ [{ id := id }])[index]?).map Menu.items).getD [] = _
      rw [itemsAt]
      rcases Nat.lt_trichotomy index registry.menus.length with inside | last | beyond
      · rw [List.getElem?_append_left inside]
      · subst last
        simp
      · have past : (registry.menus ++ [({ id := id } : Menu)]).length ≤ index := by
          rw [List.length_append]
          exact beyond
        rw [List.getElem?_eq_none past, List.getElem?_eq_none (Nat.le_of_lt beyond)]
    rw [additionsTo, List.flatMap_append, ← additionsTo, same]
    change (additionsTo index declarations ++ []).map _ = _
    rw [List.append_nil]
    exact reflects.items index

/-- Whatever declares no command and no menu adds to one menu at most. -/
theorem gains (reflects : Reflects step declarations registry) {declaration : Declaration ρ} {index : Nat}
    {entries : List (MenuItem String)} (gains : Gains index entries registry after)
    (command : declaration.command? = none) (menu : declaration.menuId? = none)
    (added : ∀ other, (declaration.additionsTo other).map (Addition.resolved? step registry.commands) =
      if other = index then entries.map some else []) :
    Reflects step (declarations ++ [declaration]) after where
  commands := by
    rw [commandsOf, List.filterMap_append, ← commandsOf, ← reflects.commands, gains.commands]
    simp [command]
  ids := by
    rw [menuIdsOf, List.filterMap_append, ← menuIdsOf, ← reflects.ids, gains.ids]
    simp [menu]
  items other := by
    rw [additionsTo, List.flatMap_append, ← additionsTo, List.map_append, gains.commands, reflects.items, gains.items,
      List.map_append, List.flatMap_singleton, added]
    split <;> rfl

theorem declare (reflects : Reflects step declarations registry) {declaration : Declaration ρ} {answer : Declared}
    (made : registry.declare step declaration = (.ok answer, after)) :
    Reflects step (declarations ++ [declaration]) after := by
  have nothing {same : Registry η σ} (commands : same.commands = registry.commands)
      (menus : same.menus = registry.menus) : Gains 0 [] registry same :=
    ⟨commands, congrArg _ menus, fun other => by rw [itemsAt, menus, ite_self, List.append_nil, itemsAt]⟩
  cases declaration with
  | command descriptor activates =>
      cases made
      exact reflects.command descriptor activates
  | menu id =>
      cases made
      exact reflects.menu id
  | external id =>
      cases made
      exact reflects.gains (nothing rfl rfl) rfl rfl fun other => (ite_self _).symm
  | package =>
      cases made
      exact reflects.gains (nothing rfl rfl) rfl rfl fun other => (ite_self _).symm
  | toJson =>
      have same : registry = after := congrArg Prod.snd made
      subst same
      exact reflects.gains (nothing rfl rfl) rfl rfl fun other => (ite_self _).symm
  | contextKey name =>
      have same : (registry.addContextKey name).2 = after := congrArg Prod.snd made
      subst same
      refine reflects.gains (nothing ?_ ?_) rfl rfl fun other => (ite_self _).symm
      all_goals
        rw [addContextKey]
        split <;> rfl
  | add environment target item =>
      rcases one : registry.add step environment target item with ⟨failure | ⟨⟩, middle⟩
      · simp [Registry.declare, one, Except.map] at made
      · simp only [Registry.declare, one, Prod.mk.injEq] at made
        obtain ⟨_, rfl⟩ := made
        obtain ⟨index, entry, rfl, entered, gains⟩ := addItem_gains one
        refine reflects.gains gains rfl rfl fun other => ?_
        simp only [Declaration.additionsTo, Reference.menu.injEq, @eq_comm _ index]
        split
        · rw [List.map_cons, entered]
          rfl
        · rfl
  | group environment target name items =>
      rcases one : registry.addGroup step environment target name items with ⟨failure | ⟨⟩, middle⟩
      · simp [Registry.declare, one, Except.map] at made
      · simp only [Registry.declare, one, Prod.mk.injEq] at made
        obtain ⟨_, rfl⟩ := made
        rw [addGroup] at one
        cases target with
        | menu index =>
            cases found : registry.menu? (.menu index) "group" with
            | error failure => simp [found] at one
            | ok _ =>
                rw [found] at one
                obtain ⟨entries, entered, gains⟩ := addAll_gains one
                refine reflects.gains gains rfl rfl fun other => ?_
                simp only [Declaration.additionsTo, Reference.menu.injEq, @eq_comm _ index]
                split
                · rw [List.map_map]
                  exact entered
                · rfl
        | command index => cases one
        | external id => cases one
        | contextKey index => cases one

end Reflects

theorem Declares.reflects {declarations earlier : List (Declaration ρ)} {answers : List Declared}
    (declares : Declares step registry declarations answers after) (reflects : Reflects step earlier registry) :
    Reflects step (earlier ++ declarations) after := by
  induction declares generalizing earlier with
  | nil => rwa [List.append_nil]
  | cons made _ ih =>
      rw [List.append_cons]
      exact ih (reflects.declare made)

section Parts

variable {earlier later : List (Declaration ρ)} {answers : List Declared}

theorem Declares.split (declares : Declares step registry (earlier ++ later) answers after) :
    ∃ first rest middle, answers = first ++ rest ∧ first.length = earlier.length ∧
      Declares step registry earlier first middle ∧ Declares step middle later rest after := by
  induction earlier generalizing registry answers with
  | nil => exact ⟨[], answers, registry, rfl, rfl, .nil, declares⟩
  | cons declaration earlier ih =>
      cases declares with
      | cons made others =>
          obtain ⟨first, rest, middle, rfl, same, before, following⟩ := ih others
          exact ⟨_ :: first, rest, middle, rfl, congrArg (· + 1) same, .cons made before, following⟩

theorem Declares.append {middle : Registry η σ} {more : List Declared}
    (before : Declares step registry earlier answers middle) (following : Declares step middle later more after) :
    Declares step registry (earlier ++ later) (answers ++ more) after := by
  induction before with
  | nil => exact following
  | cons made _ ih => exact .cons made (ih following)

theorem declare_asks {asked : Declaration ρ} (asks : asked.asks = true) (registry : Registry η σ) :
    (registry.declare step asked).2 = registry := by
  cases asked <;> first | rfl | cases asks

end Parts

section Assembled

variable {declarations : List (Declaration ρ)} (reflects : Reflects step declarations registry)
include reflects

theorem Reflects.menus_eq : registry.menus.map (fun menu => (menu.id, menu.items)) =
    (menuIdsOf declarations).zipIdx.map fun menu => (menu.1, registry.itemsAt menu.2) := by
  refine List.ext_getElem? fun index => ?_
  rw [List.getElem?_map, List.getElem?_map, List.getElem?_zipIdx, ← reflects.ids, List.getElem?_map, Nat.zero_add]
  cases found : registry.menus[index]? with
  | none => rfl
  | some menu => simp [itemsAt, found]

theorem Reflects.items_of (id : String) : (registry.menus.filter (·.id == id)).flatMap Menu.items =
    ((menuIdsOf declarations).zipIdx.filter (·.1 == id)).flatMap fun menu => registry.itemsAt menu.2 := by
  have paired : (registry.menus.filter (·.id == id)).flatMap Menu.items =
      ((registry.menus.map fun menu => (menu.id, menu.items)).filter (·.1 == id)).flatMap Prod.snd := by
    rw [List.filter_map, List.flatMap_map]
    rfl
  rw [paired, reflects.menus_eq, List.filter_map, List.flatMap_map]
  rfl

theorem Reflects.package_menus : registry.package.menus = (menuIdsOf declarations).eraseDups.map fun id =>
    (id, ((menuIdsOf declarations).zipIdx.filter (·.1 == id)).flatMap fun menu => registry.itemsAt menu.2) := by
  rw [Registry.package_menus, Menu.grouped, reflects.ids]
  exact List.map_congr_left fun id _ => by rw [reflects.items_of]

end Assembled

/-- The package with wide texts, as documents hold them. -/
theorem document_eq (registry : Registry η σ) :
    registry.document = (registry.package.map WideText.ofString).map Document.text := by
  rw [Package.map_map]
  rfl

theorem Reflects.written_iff {declarations : List (Declaration ρ)} (reflects : Reflects step declarations registry) :
    (∃ json, registry.document.toJson = .ok json) ↔
      ∀ command ∈ commandsOf declarations, ∀ type, command.descriptor.icon ≠ some (.unsupported type) := by
  have icon (command : Manifest.Command String) (type : String) :
      (command.map WideText.ofString).icon = some (.unsupported type) ↔ command.icon = some (.unsupported type) := by
    cases icon : command.icon with
    | none => simp [Command.map, icon]
    | some held => cases held <;> simp [Command.map, icon, Icon.map]
  rw [document_eq, package_written_iff, ← reflects.commands, Package.map, Registry.package_commands]
  simp only [List.forall_mem_map, ne_eq, icon]

/-- The events of a document are those of the commands that activate, each once and in order. -/
theorem Reflects.events_written {declarations : List (Declaration ρ)} (reflects : Reflects step declarations registry)
    {json : Json} (written : registry.document.toJson = .ok json) : ∃ events : List WideText,
    Manifest.get? json "activationEvents" = .ok (some (.list (events.map .text))) ∧
      (events.Pairwise fun left right => left.before right = true) ∧
        ∀ event, event ∈ events ↔ ∃ command ∈ commandsOf declarations, command.activates = true ∧
          event = WideText.ofString ("onCommand:" ++ command.descriptor.id) := by
  rw [document_eq] at written
  obtain ⟨fragment, rfl, _, events⟩ := fragment_written written
  obtain ⟨distinct, members⟩ := registry.package_events
  have nodup : (registry.package.map WideText.ofString).events.Nodup :=
    List.Pairwise.map _ (fun _ _ differ => mt WideText.ofString_inj.mp differ) distinct
  refine ⟨fragment.events, rfl, events ▸ Document.pairwise_before_mergeSort nodup, fun event => ?_⟩
  rw [events, List.mem_mergeSort, Package.map, List.mem_map, ← reflects.commands]
  constructor
  · rintro ⟨text, member, rfl⟩
    obtain ⟨command, there, activates, rfl⟩ := (members text).mp member
    exact ⟨command, there, activates, rfl⟩
  · rintro ⟨command, there, activates, rfl⟩
    exact ⟨_, (members _).mpr ⟨command, there, activates, rfl⟩, rfl⟩

/-- The package is exactly what has been declared, in its order, and asking for it in between changes nothing.  The
references that declarations give back are places among the commands and among the menus. -/
theorem package_exactly_declared {state : σ} {declarations : List (Declaration ρ)} {answers : List Declared}
    (declared : ({ hostState := state } : Registry η σ).declareAll step declarations = .ok (answers, registry)) :
    registry.package.commands = (commandsOf declarations).map DeclaredCommand.descriptor ∧
    (∃ items : Nat → List (MenuItem String),
      (∀ index, (additionsTo index declarations).map (Addition.resolved? step (commandsOf declarations)) =
        (items index).map some) ∧
      registry.package.menus = (menuIdsOf declarations).eraseDups.map fun id =>
        (id, ((menuIdsOf declarations).zipIdx.filter (·.1 == id)).flatMap fun menu => items menu.2)) ∧
    ((∃ json, registry.document.toJson = .ok json) ↔
      ∀ command ∈ commandsOf declarations, ∀ type, command.descriptor.icon ≠ some (.unsupported type)) ∧
    (∀ json, registry.document.toJson = .ok json → ∃ events : List WideText,
      Manifest.get? json "activationEvents" = .ok (some (.list (events.map .text))) ∧
      (events.Pairwise fun left right => left.before right = true) ∧
      ∀ event, event ∈ events ↔ ∃ command ∈ commandsOf declarations, command.activates = true ∧
        event = WideText.ofString ("onCommand:" ++ command.descriptor.id)) ∧
    ∀ earlier declaration later, declarations = earlier ++ declaration :: later →
      ∃ first answer rest, answers = first ++ answer :: rest ∧ first.length = earlier.length ∧
        (∀ descriptor activates, declaration = .command descriptor activates →
          answer = .reference (.command (commandsOf earlier).length)) ∧
        (∀ id, declaration = .menu id → answer = .reference (.menu (menuIdsOf earlier).length)) ∧
        (declaration.asks = true → ({ hostState := state } : Registry η σ).declareAll step (earlier ++ later) =
          .ok (first ++ rest, registry)) := by
  have declares := declares_iff.mpr declared
  have reflects : Reflects step declarations registry := declares.reflects (.empty state)
  refine ⟨?_, ⟨registry.itemsAt, ?_, reflects.package_menus⟩, reflects.written_iff,
    fun json written => reflects.events_written written, ?_⟩
  · rw [Registry.package_commands, reflects.commands]
  · rw [← reflects.commands]
    exact reflects.items
  · rintro earlier declaration later rfl
    obtain ⟨first, answered, middle, rfl, same, before, following⟩ := declares.split
    have held : Reflects step earlier middle := before.reflects (.empty state)
    cases following with
    | cons made rest =>
        refine ⟨first, _, _, rfl, same, ?_, ?_, fun asks => ?_⟩
        · rintro descriptor activates rfl
          cases made
          rw [← held.commands]
        · rintro id rfl
          cases made
          rw [← held.ids, List.length_map]
        · have unchanged : middle = _ := (declare_asks asks middle).symm.trans (congrArg Prod.snd made)
          subst unchanged
          exact declares_iff.mp (before.append rest)

/-- Two menus of one id with another between them, filled in another order than they were declared in. -/
def sampleDeclarations : List (Declaration Script) :=
  [.command { id := "b" } true, .command { id := "a" } true, .command { id := "a" } false, .menu "v", .menu "w",
    .menu "v", .add [] (.menu 2) { command := .command 1 }, .package,
    .group [] (.menu 0) "g" [{ command := .command 0, alt := some (.command 1), condition := some (.clause "x") }]]

theorem sample_exactly_declared : ∃ answers, ∃ registry : Registry Unit Unit,
    declareAll Script.move { hostState := () } sampleDeclarations = .ok (answers, registry) ∧
      registry.package.commands = [{ id := "b" }, { id := "a" }, { id := "a" }] ∧
      registry.package.menus =
        [("v", [{ command := "b", alt := some "a", when := some "x", group := some "g" }, { command := "a" }]),
          ("w", [])] ∧
      ∃ json, registry.document.toJson = .ok json := by
  have made : declareAll Script.move ({ hostState := () } : Registry Unit Unit) sampleDeclarations = .ok (_, _) := rfl
  obtain ⟨commands, _, written, _⟩ := package_exactly_declared made
  refine ⟨_, _, made, commands, ?_, written.mpr ?_⟩
  · cbv
  · simp [commandsOf, sampleDeclarations, Declaration.command?]

end Extension.Registry
