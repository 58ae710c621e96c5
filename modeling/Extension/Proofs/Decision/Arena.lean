import Extension.Decision.Shared
import Extension.Rule.Basic

namespace Extension.Decision

/-! A shared tree as numbered cells.

Passes point into the tree instead of remembering the way, and every operation reads and writes the cells one
after the other, so that a failing operation could leave some of its writes behind.
-/

/-- What stands on one side of a cell. -/
inductive Link where
  | unresolved
  | result (value : Bool)
  | node (number : Nat)
deriving DecidableEq, Repr

structure Cell where
  atom : Atom
  onTrue : Link := .unresolved
  onFalse : Link := .unresolved

namespace Cell

def root : Cell := { atom := Tree.rootAtom }

def side (cell : Cell) (answer : Bool) : Link :=
  if answer then cell.onTrue else cell.onFalse

def setSide (cell : Cell) (answer : Bool) (link : Link) : Cell :=
  if answer then { cell with onTrue := link } else { cell with onFalse := link }

end Cell

/-- A pass: the cell that it points at and the side on which it goes on. -/
structure Cursor where
  assignment : Int
  capacity : Int
  node : Nat := 0
  answer : Bool := true
  active : Bool := true
  discovered : List Nat := []

structure Arena where
  cells : List Cell := [.root]
  cursors : List Cursor := []

inductive Operation where
  | start (assignment capacity : Int)
  | test (number : Nat) (key : Value) (probe : Probe)
  | resolve (number : Nat) (result : Bool)
  | close (number : Nat)

/-- An action ends with an answer or a fault, and with the arena as it is then. -/
abbrev Arena.Action (α : Type) := ExceptT Fault (StateM Arena) α

namespace Arena

def cell (arena : Arena) (number : Nat) : Cell :=
  arena.cells.getD number .root

def atom (arena : Arena) (number : Nat) : Atom :=
  (arena.cell number).atom

def link (arena : Arena) (number : Nat) (answer : Bool) : Link :=
  (arena.cell number).side answer

def allocate (arena : Arena) (atom : Atom) : Arena :=
  { arena with cells := arena.cells ++ [{ atom }] }

def setLink (arena : Arena) (number : Nat) (answer : Bool) (link : Link) : Arena :=
  { arena with cells := arena.cells.modify number (·.setSide answer link) }

def modifyCursor (arena : Arena) (number : Nat) (change : Cursor → Cursor) : Arena :=
  { arena with cursors := arena.cursors.modify number change }

/-- Moves a cursor to a cell, and answers the test there by the bit of the assignment. -/
def descend (number : Nat) (cursor : Cursor) (following : Nat) : Action Bool := do
  let answer := bit cursor.assignment ((← get).atom following).depth.toNat
  modify (·.modifyCursor number fun cursor => { cursor with node := following, answer })
  return answer

def evaluate (number : Nat) (cursor : Cursor) (test : Test) : Action Bool := do
  unless cursor.active do throw (.passOver test.text)
  let arena ← get
  match arena.link cursor.node cursor.answer with
  | .unresolved =>
      let depth := (arena.atom cursor.node).depth + 1
      if cursor.capacity < depth then throw (.tooDeep test.text depth.toNat cursor.capacity)
      let following := arena.cells.length
      modify (·.allocate { text := test.text, depth, key := test.key })
      modify (·.setLink cursor.node cursor.answer (.node following))
      modify (·.modifyCursor number fun cursor => { cursor with discovered := cursor.discovered ++ [following] })
      descend number cursor following
  | .result value => throw (.readAfterResult test.text value ((arena.atom cursor.node).depth + 1).toNat)
  | .node following =>
      let atom := arena.atom following
      if atom.text ≠ test.text then throw (.readOther test.text atom.text atom.depth)
      descend number cursor following

def store (cursor : Cursor) (result : Bool) : Action Unit := do
  let arena ← get
  match arena.link cursor.node cursor.answer with
  | .unresolved => modify (·.setLink cursor.node cursor.answer (.result result))
  | .node following => throw (.returnedEarly (arena.atom following).text (arena.atom following).depth)
  | .result existing =>
      let last := arena.atom cursor.node
      if existing ≠ result then throw (.returnedOther result existing last.text last.depth)

/-- One operation.  Nothing happens to a pass that has not been opened. -/
def operate : Operation → Action (Option Bool)
  | .start assignment capacity => do
      modify fun arena => { arena with cursors := arena.cursors ++ [{ assignment, capacity }] }
      return none
  | .test number key probe => do
      let some cursor := (← get).cursors[number]? | return none
      let test ← liftExcept (Rule.makeTest (.ok key) (.ok probe))
      return some (← evaluate number cursor test)
  | .resolve number result => do
      let some cursor := (← get).cursors[number]? | return none
      store cursor result
      return none
  | .close number => do
      modify (·.modifyCursor number fun cursor => { cursor with active := false })
      return none

def Action.runFrom {α : Type} (action : Action α) (arena : Arena) : Except Fault α × Arena :=
  action.run.run arena

def perform (arena : Arena) (operation : Operation) : Except Fault (Option Bool) × Arena :=
  (operate operation).runFrom arena

/-- The arena after the operations, those that fail included. -/
def after (arena : Arena) (operations : List Operation) : Arena :=
  operations.foldl (fun arena operation => (arena.perform operation).2) arena

variable {arena : Arena} {number : Nat} {cursor : Cursor} {test : Test} {link : Link} {answer : Bool}

theorem cell_allocate (atom : Atom) (bound : number < arena.cells.length) :
    (arena.allocate atom).cell number = arena.cell number := by
  simp only [cell, allocate, List.getD_eq_getElem?_getD, List.getElem?_append_left bound]

theorem cell_allocate_self (atom : Atom) : (arena.allocate atom).cell arena.cells.length = { atom } := by
  simp [cell, allocate, List.getD_eq_getElem?_getD]

theorem cell_beyond (beyond : arena.cells.length ≤ number) : arena.cell number = .root := by
  simp [cell, List.getD_eq_getElem?_getD, beyond]

theorem link_beyond (beyond : arena.cells.length ≤ number) (answer : Bool) :
    arena.link number answer = .unresolved := by
  rw [link, cell_beyond beyond]
  cases answer <;> rfl

/-- A new cell has nothing on its sides, like a number that is not in use. -/
theorem link_allocate (atom : Atom) : (arena.allocate atom).link number answer = arena.link number answer := by
  rcases Nat.lt_trichotomy number arena.cells.length with inside | rfl | beyond
  · rw [link, cell_allocate atom inside, link]
  · rw [link, cell_allocate_self, link_beyond (Nat.le_refl _)]
    cases answer <;> rfl
  · have wide : (arena.allocate atom).cells.length ≤ number := by
      rw [allocate, List.length_append]
      exact beyond
    rw [link_beyond wide, link_beyond (Nat.le_of_lt beyond)]

theorem cell_setLink (link : Link) (bound : number < arena.cells.length) (other : Nat) :
    (arena.setLink number answer link).cell other =
      if other = number then (arena.cell number).setSide answer link else arena.cell other := by
  by_cases same : other = number
  · subst same
    simp [cell, setLink, List.getD_eq_getElem?_getD, bound]
  · simp [cell, setLink, List.getD_eq_getElem?_getD, same, Ne.symm same]

theorem Cell.side_setSide (cell : Cell) (answer other : Bool) (link : Link) :
    (cell.setSide answer link).side other = if other = answer then link else cell.side other := by
  cases answer <;> cases other <;> rfl

theorem Cell.atom_setSide (cell : Cell) (answer : Bool) (link : Link) :
    (cell.setSide answer link).atom = cell.atom := by
  cases answer <;> rfl

theorem link_setLink (link : Link) (bound : number < arena.cells.length) (other : Nat) (side : Bool) :
    (arena.setLink number answer link).link other side =
      if other = number ∧ side = answer then link else arena.link other side := by
  rw [Arena.link, cell_setLink link bound]
  by_cases same : other = number
  · simp only [same, if_true, true_and, Cell.side_setSide]
    rfl
  · simp only [same, if_false, false_and]
    rfl

theorem atom_setLink (link : Link) (bound : number < arena.cells.length) (other : Nat) :
    (arena.setLink number answer link).atom other = arena.atom other := by
  rw [atom, cell_setLink link bound]
  split
  · next same => rw [Cell.atom_setSide, same, atom]
  · rfl

namespace Action

variable {α β : Type}

theorem get_bind (next : Arena → Action α) (arena : Arena) :
    (get >>= next : Action α).runFrom arena = (next arena).runFrom arena := rfl

theorem modify_bind (change : Arena → Arena) (next : PUnit → Action α) (arena : Arena) :
    (modify change >>= next : Action α).runFrom arena = (next ⟨⟩).runFrom (change arena) := rfl

theorem bind_ok {action : Action α} {value : α} {arena after : Arena}
    (done : action.runFrom arena = (.ok value, after)) (next : α → Action β) :
    (action >>= next).runFrom arena = (next value).runFrom after := by
  simp only [runFrom, ExceptT.run_bind, StateT.run_bind] at done ⊢
  rw [done]
  rfl

theorem bind_error {action : Action α} {fault : Fault} {arena after : Arena}
    (failed : action.runFrom arena = (.error fault, after)) (next : α → Action β) :
    (action >>= next).runFrom arena = (.error fault, after) := by
  simp only [runFrom, ExceptT.run_bind, StateT.run_bind] at failed ⊢
  rw [failed]
  rfl

end Action

/-- The arena with one more cell, on an open side of another. -/
def extend (arena : Arena) (number : Nat) (answer : Bool) (atom : Atom) : Arena :=
  (arena.allocate atom).setLink number answer (.node arena.cells.length)

theorem extend_length (atom : Atom) : (arena.extend number answer atom).cells.length = arena.cells.length + 1 := by
  simp [extend, setLink, allocate]

theorem atom_extend (atom : Atom) (bound : number < arena.cells.length) (other : Nat) :
    (arena.extend number answer atom).atom other = (arena.allocate atom).atom other := by
  refine atom_setLink _ ?_ other
  rw [allocate, List.length_append]
  exact Nat.lt_succ_of_lt bound

theorem link_extend (atom : Atom) (bound : number < arena.cells.length) (other : Nat) (side : Bool) :
    (arena.extend number answer atom).link other side =
      if other = number ∧ side = answer then .node arena.cells.length else arena.link other side := by
  have wider : number < (arena.allocate atom).cells.length := by
    rw [allocate, List.length_append]
    exact Nat.lt_succ_of_lt bound
  rw [extend, link_setLink _ wider, link_allocate]

/-- The answer of a test that leads to a cell, and the arena in which the cursor points there. -/
def moved (arena : Arena) (number : Nat) (cursor : Cursor) (following : Nat) (found : List Nat) :
    Except Fault Bool × Arena :=
  let answer := bit cursor.assignment (arena.atom following).depth.toNat
  (.ok answer, arena.modifyCursor number fun cursor =>
    { cursor with node := following, answer, discovered := cursor.discovered ++ found })

theorem modifyCursor_modifyCursor (arena : Arena) (number : Nat) (first second : Cursor → Cursor) :
    (arena.modifyCursor number first).modifyCursor number second = arena.modifyCursor number (second ∘ first) := by
  simp only [modifyCursor, List.modify_modify_eq]

theorem descend_eq (number : Nat) (cursor : Cursor) (following : Nat) (arena : Arena) :
    (descend number cursor following).runFrom arena = arena.moved number cursor following [] := by
  simp only [moved, List.append_nil]
  rfl

theorem evaluate_over (closed : cursor.active = false) :
    (evaluate number cursor test).runFrom arena = (.error (.passOver test.text), arena) := by
  rw [evaluate, closed]
  rfl

theorem evaluate_eq (active : cursor.active = true) :
    (evaluate number cursor test).runFrom arena =
      match arena.link cursor.node cursor.answer with
      | .unresolved =>
          let depth := (arena.atom cursor.node).depth + 1
          if cursor.capacity < depth then (.error (.tooDeep test.text depth.toNat cursor.capacity), arena)
          else (arena.extend cursor.node cursor.answer { text := test.text, depth, key := test.key }).moved
            number cursor arena.cells.length [arena.cells.length]
      | .result value => (.error (.readAfterResult test.text value ((arena.atom cursor.node).depth + 1).toNat), arena)
      | .node following =>
          if (arena.atom following).text = test.text then arena.moved number cursor following []
          else (.error (.readOther test.text (arena.atom following).text (arena.atom following).depth), arena) := by
  rw [evaluate, active, if_pos rfl, Action.get_bind]
  cases arena.link cursor.node cursor.answer with
  | unresolved =>
      by_cases deep : cursor.capacity < (arena.atom cursor.node).depth + 1
      · simp only [deep, if_true]
        rfl
      · simp only [deep, if_false, Action.modify_bind, descend_eq, moved, modifyCursor_modifyCursor, List.append_nil]
        rfl
  | result value => rfl
  | node following =>
      by_cases same : (arena.atom following).text = test.text
      · simp only [same, ne_eq, not_true, if_false, if_true, descend_eq]
      · simp only [same, ne_eq, not_false_eq_true, if_false, if_true]
        rfl

theorem store_eq (result : Bool) :
    (store cursor result).runFrom arena =
      match arena.link cursor.node cursor.answer with
      | .unresolved => (.ok ⟨⟩, arena.setLink cursor.node cursor.answer (.result result))
      | .node following => (.error (.returnedEarly (arena.atom following).text (arena.atom following).depth), arena)
      | .result existing =>
          if existing = result then (.ok ⟨⟩, arena)
          else (.error (.returnedOther result existing (arena.atom cursor.node).text (arena.atom cursor.node).depth),
            arena) := by
  rw [store, Action.get_bind]
  cases arena.link cursor.node cursor.answer with
  | unresolved => rfl
  | node following => rfl
  | result existing =>
      by_cases same : existing = result
      · simp only [same, ne_eq, not_true, if_false, if_true]
        rfl
      · simp only [same, ne_eq, not_false_eq_true, if_false, if_true]
        rfl

theorem perform_close (number : Nat) :
    arena.perform (.close number) =
      (.ok none, arena.modifyCursor number fun cursor => { cursor with active := false }) := rfl

theorem perform_test (standing : arena.cursors[number]? = some cursor) (key : Value) (probe : Probe) :
    arena.perform (.test number key probe) =
      match Rule.makeTest (.ok key) (.ok probe) with
      | .error fault => (.error fault, arena)
      | .ok test => (((evaluate number cursor test).runFrom arena).1.map some,
          ((evaluate number cursor test).runFrom arena).2) := by
  rw [perform, operate, Action.get_bind, standing]
  cases Rule.makeTest (.ok key) (.ok probe) with
  | error fault => rfl
  | ok test =>
      show (evaluate number cursor test >>= fun answer => return some answer).runFrom arena = _
      rcases ran : (evaluate number cursor test).runFrom arena with ⟨fault | answer, after⟩
      · rw [Action.bind_error ran]
        simp only [ran, Except.map]
      · rw [Action.bind_ok ran]
        simp only [ran, Except.map]
        rfl

theorem perform_resolve (standing : arena.cursors[number]? = some cursor) (result : Bool) :
    arena.perform (.resolve number result) =
      (((store cursor result).runFrom arena).1.map fun _ => none, ((store cursor result).runFrom arena).2) := by
  rw [perform, operate, Action.get_bind, standing]
  show (store cursor result >>= fun _ => return none).runFrom arena = _
  rcases ran : (store cursor result).runFrom arena with ⟨fault | ⟨⟩, after⟩
  · rw [Action.bind_error ran]
    rfl
  · rw [Action.bind_ok ran]
    rfl

theorem perform_test_absent (absent : arena.cursors[number]? = none) (key : Value) (probe : Probe) :
    arena.perform (.test number key probe) = (.ok none, arena) := by
  rw [perform, operate, Action.get_bind, absent]
  rfl

theorem perform_resolve_absent (absent : arena.cursors[number]? = none) (result : Bool) :
    arena.perform (.resolve number result) = (.ok none, arena) := by
  rw [perform, operate, Action.get_bind, absent]
  rfl

theorem evaluate_failed {fault : Fault} (failed : ((evaluate number cursor test).runFrom arena).1 = .error fault) :
    ((evaluate number cursor test).runFrom arena).2 = arena := by
  cases active : cursor.active with
  | false => rw [evaluate_over active]
  | true =>
      rw [evaluate_eq active] at failed ⊢
      cases here : arena.link cursor.node cursor.answer with
      | unresolved =>
          simp only [here] at failed ⊢
          split at failed
          · next deep => rw [if_pos deep]
          · cases failed
      | result value => rfl
      | node following =>
          simp only [here] at failed ⊢
          split at failed
          · cases failed
          · next other => rw [if_neg other]

theorem store_failed {result : Bool} {fault : Fault} (failed : ((store cursor result).runFrom arena).1 = .error fault) :
    ((store cursor result).runFrom arena).2 = arena := by
  rw [store_eq] at failed ⊢
  cases here : arena.link cursor.node cursor.answer with
  | unresolved =>
      rw [here] at failed
      cases failed
  | node following => rfl
  | result existing =>
      simp only [here] at failed ⊢
      split <;> rfl

/-- All checks come before the first write: an operation that fails leaves the arena as it was. -/
theorem perform_failed {operation : Operation} {fault : Fault}
    (failed : (arena.perform operation).1 = .error fault) : (arena.perform operation).2 = arena := by
  cases operation with
  | start assignment capacity => cases failed
  | close number => cases failed
  | test number key probe =>
      cases standing : arena.cursors[number]? with
      | none => rw [perform_test_absent standing]
      | some cursor =>
          rw [perform_test standing] at failed ⊢
          cases made : Rule.makeTest (.ok key) (.ok probe) with
          | error reason => rfl
          | ok test =>
              simp only [made] at failed ⊢
              cases ended : ((evaluate number cursor test).runFrom arena).1 with
              | error reason => exact evaluate_failed ended
              | ok answer =>
                  rw [ended] at failed
                  cases failed
  | resolve number result =>
      cases standing : arena.cursors[number]? with
      | none => rw [perform_resolve_absent standing]
      | some cursor =>
          rw [perform_resolve standing] at failed ⊢
          cases ended : ((store cursor result).runFrom arena).1 with
          | error reason => exact store_failed ended
          | ok done =>
              rw [ended] at failed
              cases failed

end Arena

end Extension.Decision
