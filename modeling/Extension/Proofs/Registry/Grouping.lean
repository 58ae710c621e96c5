import Extension.Proofs.Registry.Assembly
import Extension.Registry.Menu

namespace Extension

open Decision Manifest

/-! Adding items in a group.

Each item is added as soon as its own condition has been compiled.  So a group that fails has added what stands
before the item that it failed for: all of a group is added or nothing of it only if it succeeds, or fails for its
first item.
-/

def Menu.extended (menu : Menu) (entries : List (MenuItem String)) : Menu :=
  { menu with items := menu.items ++ entries }

theorem Menu.extended_nil (menu : Menu) : menu.extended [] = menu := by
  rw [extended, List.append_nil]

namespace Registry

variable {η σ ρ : Type} (step : ρ → Move ρ) (environment : Environment)

/-- The entry that an item becomes in a menu, or what fails. -/
def entryOf (registry : Registry η σ) (group : Option String) (item : Item ρ) : Except Failure (MenuItem String) :=
  match registry.itemIds item with
  | .error failure => .error failure
  | .ok (command, alt) =>
      (resolveOptional step environment item.condition).1.map fun when => { command, alt, when, group }

/-- The registry with more entries in one menu, and more notices. -/
def extended (registry : Registry η σ) (index : Nat) (entries : List (MenuItem String)) (notices : List Notice) :
    Registry η σ :=
  { registry with
    menus := registry.menus.modify index (·.extended entries)
    notices := registry.notices ++ notices }

section Extended

variable {registry : Registry η σ} {index : Nat} {menu : Menu}

theorem extended_nil (registry : Registry η σ) (index : Nat) (notices : List Notice) :
    registry.extended index [] notices = registry.noteAll notices := by
  have same : (·.extended [] : Menu → Menu) = id := funext Menu.extended_nil
  rw [extended, same, List.modify_id, noteAll]

theorem extended_extended (registry : Registry η σ) (index : Nat) (entries more : List (MenuItem String))
    (notices others : List Notice) : (registry.extended index entries notices).extended index more others =
      registry.extended index (entries ++ more) (notices ++ others) := by
  simp only [extended, List.modify_modify_eq, Function.comp_def, Menu.extended, List.append_assoc]

theorem extended_menu (declared : registry.menus[index]? = some menu) (entries : List (MenuItem String))
    (notices : List Notice) :
    (registry.extended index entries notices).menus[index]? = some (menu.extended entries) := by
  simp [extended, declared]

theorem extended_ids (registry : Registry η σ) (index : Nat) (entries : List (MenuItem String))
    (notices : List Notice) :
    (registry.extended index entries notices).menus.map Menu.id = registry.menus.map Menu.id := by
  refine List.ext_getElem? fun place => ?_
  rw [extended, List.getElem?_map, List.getElem?_map, List.getElem?_modify]
  cases registry.menus[place]? with
  | none => rfl
  | some menu =>
      by_cases same : index = place
      · simp [same, Menu.extended]
      · simp [same]

/-- What an item becomes does not depend on the menus. -/
theorem entryOf_extended (entries : List (MenuItem String)) (notices : List Notice) (group : Option String) :
    (registry.extended index entries notices).entryOf step environment group =
      registry.entryOf step environment group := rfl

/-- The items of the menus of one id get more by what one of these menus gets. -/
theorem length_items_extended (declared : registry.menus[index]? = some menu) (entries : List (MenuItem String))
    (notices : List Notice) :
    (((registry.extended index entries notices).menus.filter (·.id == menu.id)).flatMap Menu.items).length =
      ((registry.menus.filter (·.id == menu.id)).flatMap Menu.items).length + entries.length := by
  obtain ⟨inside, there⟩ := List.getElem?_eq_some_iff.mp declared
  have split : registry.menus = registry.menus.take index ++ menu :: registry.menus.drop (index + 1) := by
    rw [← there, List.getElem_cons_drop, List.take_append_drop]
  have grown : (registry.extended index entries notices).menus =
      registry.menus.take index ++ menu.extended entries :: registry.menus.drop (index + 1) := by
    rw [extended, List.modify_eq_take_cons_drop inside, there]
  rw [grown]
  generalize registry.menus.take index = before at split ⊢
  generalize registry.menus.drop (index + 1) = after at split ⊢
  rw [split]
  simp only [Menu.extended, List.filter_append, List.filter_cons, beq_self_eq_true, if_true, List.flatMap_append,
    List.flatMap_cons, List.length_append]
  omega

theorem menus_extended_iff (declared : registry.menus[index]? = some menu) (entries : List (MenuItem String))
    (notices : List Notice) : (registry.extended index entries notices).menus = registry.menus ↔ entries = [] := by
  constructor
  · intro same
    have menus := extended_menu declared entries notices
    rw [same, declared, Option.some.injEq] at menus
    exact List.append_right_eq_self.mp (congrArg Menu.items menus).symm
  · rintro rfl
    rw [extended_nil]
    rfl

theorem package_extended_iff (declared : registry.menus[index]? = some menu) (entries : List (MenuItem String))
    (notices : List Notice) : (registry.extended index entries notices).package = registry.package ↔ entries = [] := by
  constructor
  · intro same
    have menus := congrArg Package.menus same
    rw [package_menus, package_menus, Menu.grouped, Menu.grouped, extended_ids, List.map_inj_left] at menus
    have known : menu.id ∈ (registry.menus.map Menu.id).eraseDups :=
      List.mem_eraseDups.mpr (List.mem_map_of_mem (List.mem_of_getElem? declared))
    have items := congrArg List.length (Prod.mk.inj (menus menu.id known)).2
    rw [length_items_extended declared] at items
    exact List.eq_nil_of_length_eq_zero (Nat.add_eq_left.mp items)
  · rintro rfl
    rw [extended_nil]
    rfl

end Extended

variable {step environment} {registry : Registry η σ} {index : Nat} {menu : Menu}

theorem addItem_eq (declared : registry.menus[index]? = some menu) (group : Option String) (item : Item ρ) :
    ∃ notices, registry.addItem step environment (.menu index) group item =
      match registry.entryOf step environment group item with
      | .error failure => (.error failure, registry.extended index [] notices)
      | .ok entry => (.ok (), registry.extended index [entry] notices) := by
  rw [entryOf]
  cases ids : registry.itemIds item with
  | error failure =>
      exact ⟨[], by simp only [addItem, menu?, declared, ids, extended_nil, noteAll, List.append_nil]⟩
  | ok named =>
      refine ⟨(resolveOptional step environment item.condition).2, ?_⟩
      cases clause : (resolveOptional step environment item.condition).1 with
      | error failure => simp only [addItem, menu?, declared, ids, clause, Except.map, extended_nil]
      | ok when =>
          have placed (entry : MenuItem String) :
              registry.menus.modify index (·.extended [entry]) = registry.menus.set index (menu.extended [entry]) := by
            rw [List.modify_eq_set_getElem?, declared]
            rfl
          simp only [addItem, menu?, declared, ids, clause, Except.map, extended, placed]
          rfl

/-- The items are added up to the first that fails. -/
theorem addAll_cases (declared : registry.menus[index]? = some menu) (group : String) (items : List (Item ρ)) :
    ∃ entries notices,
      (registry.addAll step environment (.menu index) group items).2 = registry.extended index entries notices ∧
      ((items.mapM (registry.entryOf step environment (some group)) = .ok entries ∧
          (registry.addAll step environment (.menu index) group items).1 = .ok ()) ∨
        ∃ before item after failure, items = before ++ item :: after ∧
          before.mapM (registry.entryOf step environment (some group)) = .ok entries ∧
          registry.entryOf step environment (some group) item = .error failure ∧
          (registry.addAll step environment (.menu index) group items).1 = .error failure) := by
  induction items generalizing registry menu with
  | nil =>
      refine ⟨[], [], ?_, .inl ⟨rfl, rfl⟩⟩
      rw [extended_nil, noteAll, List.append_nil]
      rfl
  | cons item rest ih =>
      obtain ⟨notices, added⟩ := addItem_eq declared (some group) item
      cases made : registry.entryOf step environment (some group) item with
      | error failure =>
          rw [made] at added
          simp only [addAll, added]
          exact ⟨[], notices, rfl, .inr ⟨[], item, rest, failure, rfl, rfl, made, rfl⟩⟩
      | ok entry =>
          rw [made] at added
          obtain ⟨entries, others, after, outcome⟩ := ih (extended_menu declared [entry] notices)
          simp only [entryOf_extended] at outcome
          refine ⟨entry :: entries, notices ++ others, ?_, ?_⟩
          · simp only [addAll, added, after, extended_extended, List.singleton_append]
          · simp only [addAll, added]
            rcases outcome with ⟨all, done⟩ | ⟨before, failing, behind, failure, rfl, good, failed, stopped⟩
            · exact .inl ⟨by rw [List.mapM_cons, made, all]; rfl, done⟩
            · have entered : (item :: before).mapM (registry.entryOf step environment (some group)) =
                  .ok (entry :: entries) := by
                rw [List.mapM_cons, made, good]
                rfl
              exact .inr ⟨item :: before, failing, behind, failure, rfl, entered, failed, stopped⟩

theorem addGroup_eq (declared : registry.menus[index]? = some menu) (group : String) (items : List (Item ρ)) :
    registry.addGroup step environment (.menu index) group items =
      registry.addAll step environment (.menu index) group items := by
  simp only [addGroup, menu?, declared]

/-- The entry of an item whose condition is an expression comes from compiling the expression. -/
theorem entryOf_expression {group : Option String} {item : Item ρ} {command : String} {alt : Option String}
    {expression : Expression ρ} (ids : registry.itemIds item = .ok (command, alt))
    (condition : item.condition = some (.expression expression)) :
    registry.entryOf step environment group item =
      match expression.compile step environment with
      | .error fault => .error (.fault fault)
      | .ok clause => .ok { command, alt, when := some clause, group } := by
  rw [entryOf, ids, condition, resolveOptional, resolve, Expression.compile]
  cases (expression.explore step environment).outcome with
  | error fault => rfl
  | ok tree => rfl

theorem entryOf_group {group : Option String} {item : Item ρ} {entry : MenuItem String}
    (made : registry.entryOf step environment group item = .ok entry) : entry.group = group := by
  rw [entryOf] at made
  split at made
  · cases made
  · next named =>
      cases clause : (resolveOptional step environment item.condition).1 with
      | error failure => simp [clause, Except.map] at made
      | ok when =>
          simp only [clause, Except.map, Except.ok.injEq] at made
          rw [← made]

/-- A group adds the entries of all its items, each once and in order, or, when it fails, those of the items before the
one that it fails for; so what is declared is as it was before just when that is the first one.  An item whose
condition is an expression fails with what compiling the expression fails with. -/
theorem addGroup_adds_before_failure (declared : registry.menus[index]? = some menu) (group : String)
    (items : List (Item ρ)) :
    (∃ entries notices,
      (registry.addGroup step environment (.menu index) group items).2 = registry.extended index entries notices ∧
      (∀ entry ∈ entries, entry.group = some group) ∧
      ((items.mapM (registry.entryOf step environment (some group)) = .ok entries ∧
          (registry.addGroup step environment (.menu index) group items).1 = .ok ()) ∨
        ∃ before item after failure, items = before ++ item :: after ∧
          before.mapM (registry.entryOf step environment (some group)) = .ok entries ∧
          registry.entryOf step environment (some group) item = .error failure ∧
          (registry.addGroup step environment (.menu index) group items).1 = .error failure ∧
          ((registry.addGroup step environment (.menu index) group items).2.menus = registry.menus ↔ before = []) ∧
          ((registry.addGroup step environment (.menu index) group items).2.package = registry.package ↔
            before = []))) ∧
    ∀ item ∈ items, ∀ command alt expression, registry.itemIds item = .ok (command, alt) →
      item.condition = some (.expression expression) →
        registry.entryOf step environment (some group) item =
          match expression.compile step environment with
          | .error fault => .error (.fault fault)
          | .ok clause => .ok { command, alt, when := some clause, group := some group } := by
  refine ⟨?_, fun item _ command alt expression ids condition => entryOf_expression ids condition⟩
  have grouped {added : List (Item ρ)} {entries : List (MenuItem String)}
      (made : added.mapM (registry.entryOf step environment (some group)) = .ok entries) :
      ∀ entry ∈ entries, entry.group = some group := by
    intro entry member
    obtain ⟨item, _, one⟩ := mem_mapM_ok made member
    exact entryOf_group one
  rw [addGroup_eq declared]
  obtain ⟨entries, notices, after, outcome⟩ := @addAll_cases _ _ _ step environment _ _ _ declared group items
  refine ⟨entries, notices, after, ?_⟩
  rcases outcome with ⟨all, done⟩ | ⟨before, item, behind, failure, split, good, failed, stopped⟩
  · exact ⟨grouped all, .inl ⟨all, done⟩⟩
  · have none : entries = [] ↔ before = [] := by
      rw [← List.length_eq_zero_iff, ← List.length_eq_zero_iff, (mapM_ok_iff.mp good).length_eq]
    refine ⟨grouped good, .inr ⟨before, item, behind, failure, split, good, failed, stopped, ?_, ?_⟩⟩
    · rw [after, ← none]
      exact menus_extended_iff declared entries notices
    · rw [after, ← none]
      exact package_extended_iff declared entries notices

/-- A command, a menu, and a group of two items of which the condition of the second cannot be compiled. -/
def halfBroken : Registry Unit Unit where
  hostState := ()
  commands := [{ descriptor := { id := "ext.a" } }]
  menus := [{ id := "v" }]

def halfBrokenItems : List (Item Script) :=
  [{ command := .command 0 }, { command := .command 0, condition := some (.expression
    (.ofRule "registry" (.raise ⟨.value, "x"⟩) (some { maxAtoms := 1, positive := Nat.one_pos }))) }]

/-- The group fails, and yet there is another item in the menu and in the manifest. -/
theorem half_broken_group_added :
    (halfBroken.addGroup Script.move [] (.menu 0) "g" halfBrokenItems).1 = .error (.fault (.raised ⟨.value, "x"⟩)) ∧
    (halfBroken.addGroup Script.move [] (.menu 0) "g" halfBrokenItems).2.menus ≠ halfBroken.menus ∧
    (halfBroken.addGroup Script.move [] (.menu 0) "g" halfBrokenItems).2.package ≠ halfBroken.package := by
  have failed : (halfBroken.addGroup Script.move [] (.menu 0) "g" halfBrokenItems).1 =
      .error (.fault (.raised ⟨.value, "x"⟩)) := rfl
  have declared : halfBroken.menus[0]? = some { id := "v" } := rfl
  obtain ⟨entries, _, _, _, outcome⟩ :=
    (@addGroup_adds_before_failure _ _ _ Script.move [] _ _ _ declared "g" halfBrokenItems).1
  rcases outcome with ⟨_, done⟩ | ⟨before, item, after, failure, split, _, fails, _, menus, package⟩
  · rw [failed] at done
    cases done
  · have some : before ≠ [] := by
      rintro rfl
      cases split
      cases fails
    exact ⟨failed, mt menus.mp some, mt package.mp some⟩

end Registry

end Extension
