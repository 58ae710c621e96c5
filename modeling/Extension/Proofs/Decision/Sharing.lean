import Extension.Proofs.Decision.Cursors

namespace Extension.Decision

/-! Any operations on passes that share a tree.

The arena and the tree are driven by the same operations.  They give the same answers, and what holds of the
cells after every operation holds after every sequence of them.
-/

namespace Shared

/-- The operation, if its pass has been opened. -/
def perform (shared : Shared) : Operation → Except Fault (Option Bool) × Shared
  | .start assignment capacity => (.ok none, (shared.openPass assignment capacity).2)
  | .test number key probe =>
      if number < shared.passes.length then
        match Rule.makeTest (.ok key) (.ok probe) with
        | .error fault => (.error fault, shared)
        | .ok test =>
            match shared.read number test with
            | .error fault => (.error fault, shared)
            | .ok (answer, after) => (.ok (some answer), after)
      else (.ok none, shared)
  | .resolve number result =>
      if number < shared.passes.length then
        match shared.resolve number result with
        | .error fault => (.error fault, shared)
        | .ok after => (.ok none, after)
      else (.ok none, shared)
  | .close number => (.ok none, shared.closePass number)

def after (shared : Shared) (operations : List Operation) : Shared :=
  operations.foldl (fun shared operation => (shared.perform operation).2) shared

end Shared

namespace Arena

/-- What holds of an arena and the tree that it represents, whatever is done to both. -/
structure Carries (arena : Arena) (shared : Shared) : Prop where
  rooted : arena.Rooted
  represents : arena.Represents shared
  accounted : arena.Accounted

/-- An operation has the same answer on the arena and on the tree, and keeps what holds of both. -/
structure Tracks (arena : Arena) (ended : Except Fault (Option Bool) × Arena)
    (shared : Except Fault (Option Bool) × Shared) : Prop where
  answers : ended.1 = shared.1
  carries : ended.2.Carries shared.2
  persists : arena.Persists ended.2

variable {arena : Arena} {shared : Shared} {number : Nat} {cursor : Cursor} {pass : Pass}

namespace Carries

/-- A test leads to a cell that was there, or to one that was attached for it. -/
theorem moved {grown : Arena} {tree : Tree} {found : List Nat} {following : Nat}
    (carries : arena.Carries shared) (grownRooted : grown.Rooted)
    (grownRepresents : grown.Represents { shared with tree }) (persists : arena.Persists grown) (same : grown.cursors = arena.cursors)
    (standing : arena.cursors[number]? = some cursor) (stands : arena.Stands cursor pass)
    (linked : grown.link cursor.node cursor.answer = .node following)
    (fresh : List.range' 1 (grown.cells.length - 1) = List.range' 1 (arena.cells.length - 1) ++ found)
    (room : ∀ number ∈ found, (grown.atom number).depth ≤ cursor.capacity) (text : String) :
    Tracks arena ((grown.moved number cursor following found).1.map some, (grown.moved number cursor following found).2)
      (.ok (some (bit pass.assignment pass.nextDepth)),
        { tree, passes := shared.passes.set number (pass.past text (found.map grown.atom)) }) := by
  have bound : ∀ number ∈ cursor.discovered, number < arena.cells.length :=
    fun number => carries.accounted.bound (List.mem_of_getElem? standing)
  have stays := stands.persists persists bound
  have standingNow : grown.cursors[number]? = some cursor := by rw [same, standing]
  exact {
    answers := by
      rw [Arena.moved, stays.depth_following grownRooted linked, stands.assignment]
      rfl
    carries := {
      rooted := grownRooted.of_cells rfl
      represents := grownRepresents.turn standingNow (stays.descend grownRooted linked text found)
      accounted := carries.accounted.turn (persists.trans (.of_cells rfl)) standing
        (by rw [Arena.moved, modifyCursor, same]) rfl rfl fresh room }
    persists := persists.trans (.of_cells rfl) }

theorem unchanged (carries : arena.Carries shared) (answer : Except Fault (Option Bool)) :
    Tracks arena (answer, arena) (answer, shared) where
  answers := rfl
  carries := carries
  persists := .refl arena

theorem start (carries : arena.Carries shared) (assignment capacity : Int) :
    Tracks arena (arena.perform (.start assignment capacity)) (shared.perform (.start assignment capacity)) where
  answers := rfl
  carries := {
    rooted := carries.rooted.of_cells rfl
    represents := carries.represents.start assignment capacity
    accounted := carries.accounted.start assignment capacity }
  persists := .of_cells rfl

theorem close (carries : arena.Carries shared) (number : Nat) :
    Tracks arena (arena.perform (.close number)) (shared.perform (.close number)) := by
  rw [perform_close, Shared.perform]
  cases standing : arena.cursors[number]? with
  | none =>
      have beyond := List.getElem?_eq_none_iff.mp standing
      have unknown : shared.closePass number = shared := by
        rw [Shared.closePass, List.modify_eq_self (carries.represents.aligned ▸ beyond)]
      rw [modifyCursor, List.modify_eq_self beyond, unknown]
      exact carries.unchanged _
  | some cursor =>
      obtain ⟨pass, stands, _, current⟩ := carries.represents.opened standing
      have closed : shared.closePass number = { shared with passes := shared.passes.set number pass.close } := by
        rw [Shared.closePass, List.modify_eq_set, ← List.getD_eq_getElem?_getD, current]
      have ended : arena.Stands { cursor with active := false } pass.close := { stands with active := rfl }
      rw [closed]
      exact {
        answers := rfl
        carries := {
          rooted := carries.rooted.of_cells rfl
          represents := carries.represents.turn standing ended
          accounted := carries.accounted.turn (.of_cells rfl) standing rfl (List.append_nil _).symm rfl
            (List.append_nil _).symm (fun _ found => by cases found) }
        persists := .of_cells rfl }

theorem resolve (carries : arena.Carries shared) (number : Nat) (result : Bool) :
    Tracks arena (arena.perform (.resolve number result)) (shared.perform (.resolve number result)) := by
  cases standing : arena.cursors[number]? with
  | none =>
      rw [perform_resolve_absent standing, Shared.perform, if_neg (carries.represents.closed standing)]
      exact carries.unchanged _
  | some cursor =>
      obtain ⟨pass, stands, opened, current⟩ := carries.represents.opened standing
      rw [perform_resolve standing, store_eq]
      simp only [Shared.perform, if_pos opened, Shared.resolve, current, Pass.resolve_eq,
        carries.represents.marked stands.place]
      cases here : arena.link cursor.node cursor.answer with
      | unresolved =>
          have attaches := Attaches.result (stands.place.inside carries.rooted) here result
          have unmarked : shared.tree.marked pass.answers = none := by
            rw [carries.represents.marked stands.place, here, mark?]
          exact {
            answers := rfl
            carries := {
              rooted := attaches.rooted carries.rooted (stands.place.side carries.rooted)
              represents := carries.represents.attach carries.rooted carries.accounted stands.place attaches rfl rfl
                (.put (carries.represents.at? stands.place) unmarked _)
              accounted := carries.accounted.same attaches.persists (by simp [setLink]) rfl }
            persists := attaches.persists }
      | result existing =>
          by_cases same : existing = result
          · simp only [same, mark?, if_true]
            exact carries.unchanged _
          · simp only [same, mark?, if_false, carries.represents.atomBefore carries.rooted stands.place]
            exact carries.unchanged _
      | node following =>
          exact carries.unchanged _

theorem found (carries : arena.Carries shared) (standing : arena.cursors[number]? = some cursor)
    (stands : arena.Stands cursor pass) (opened : arena.link cursor.node cursor.answer = .unresolved) (test : Test)
    (room : ¬ cursor.capacity < (pass.nextDepth : Int)) :
    Tracks arena
      ((((arena.extend cursor.node cursor.answer (pass.newAtom test)).moved number cursor
          arena.cells.length [arena.cells.length]).1).map some,
        ((arena.extend cursor.node cursor.answer (pass.newAtom test)).moved number cursor
          arena.cells.length [arena.cells.length]).2)
      (.ok (some (bit pass.assignment pass.nextDepth)),
        { tree := shared.tree.put pass.answers (Mark.test (pass.newAtom test)).branch
          passes := shared.passes.set number (pass.past test.text [pass.newAtom test]) }) := by
  have deeper : (pass.newAtom test).depth = (arena.atom cursor.node).depth + 1 := (stands.nextDepth carries.rooted).symm
  have inside := stands.place.inside carries.rooted
  have attaches := Attaches.node inside opened deeper
  have made : (arena.extend cursor.node cursor.answer (pass.newAtom test)).atom arena.cells.length =
      pass.newAtom test := by
    rw [atom_extend _ inside, Arena.atom, cell_allocate_self]
  have unmarked : shared.tree.marked pass.answers = none := by
    rw [carries.represents.marked stands.place, opened, mark?]
  have grown := carries.represents.attach carries.rooted carries.accounted stands.place attaches rfl
    (by rw [mark?, made]) (.put (carries.represents.at? stands.place) unmarked (.test (pass.newAtom test)))
  have fresh : List.range' 1 ((arena.extend cursor.node cursor.answer (pass.newAtom test)).cells.length - 1) =
      List.range' 1 (arena.cells.length - 1) ++ [arena.cells.length] := by
    have counted : arena.cells.length + 1 - 1 = arena.cells.length - 1 + 1 := by omega
    have last : 1 + (arena.cells.length - 1) = arena.cells.length := by omega
    rw [extend_length, counted, List.range'_1_concat, last]
  have linked : (arena.extend cursor.node cursor.answer (pass.newAtom test)).link cursor.node cursor.answer =
      .node arena.cells.length := by
    rw [attaches.links, if_pos ⟨rfl, rfl⟩]
  have fits : ∀ number ∈ [arena.cells.length],
      ((arena.extend cursor.node cursor.answer (pass.newAtom test)).atom number).depth ≤ cursor.capacity := by
    intro number found
    rw [List.mem_singleton.mp found, made]
    exact Int.not_lt.mp room
  have moved := carries.moved (attaches.rooted carries.rooted (stands.place.side carries.rooted)) grown
    attaches.persists rfl standing stands linked fresh fits test.text
  rwa [List.map_singleton, made] at moved

theorem test (carries : arena.Carries shared) (number : Nat) (key : Value) (probe : Probe) :
    Tracks arena (arena.perform (.test number key probe)) (shared.perform (.test number key probe)) := by
  cases standing : arena.cursors[number]? with
  | none =>
      rw [perform_test_absent standing, Shared.perform, if_neg (carries.represents.closed standing)]
      exact carries.unchanged _
  | some cursor =>
      obtain ⟨pass, stands, opened, current⟩ := carries.represents.opened standing
      rw [perform_test standing]
      simp only [Shared.perform, if_pos opened, Shared.read, current]
      cases Rule.makeTest (.ok key) (.ok probe) with
      | error fault => exact carries.unchanged _
      | ok test =>
          cases active : cursor.active with
          | false =>
              simp only [evaluate_over active, Pass.read_over (stands.active.trans active)]
              exact carries.unchanged _
          | true =>
              simp only [evaluate_eq active, Pass.read_eq (stands.active.trans active),
                carries.represents.marked stands.place]
              cases here : arena.link cursor.node cursor.answer with
              | unresolved =>
                  simp only [mark?, stands.nextDepth carries.rooted, Int.toNat_natCast, stands.capacity]
                  by_cases deep : cursor.capacity < (pass.nextDepth : Int)
                  · simp only [deep, if_true]
                    exact carries.unchanged _
                  · simp only [deep, if_false]
                    exact carries.found standing stands here test deep
              | result value =>
                  simp only [mark?, stands.nextDepth carries.rooted, Int.toNat_natCast]
                  exact carries.unchanged _
              | node following =>
                  by_cases same : (arena.atom following).text = test.text
                  · simp only [mark?, same, if_true]
                    exact carries.moved carries.rooted carries.represents (.refl arena) rfl standing stands here
                      (List.append_nil _).symm (fun _ found => by cases found) test.text
                  · simp only [mark?, same, if_false]
                    exact carries.unchanged _

theorem tracks (carries : arena.Carries shared) (operation : Operation) :
    Tracks arena (arena.perform operation) (shared.perform operation) := by
  cases operation with
  | start assignment capacity => exact carries.start assignment capacity
  | test number key probe => exact carries.test number key probe
  | resolve number result => exact carries.resolve number result
  | close number => exact carries.close number

theorem after (carries : arena.Carries shared) (operations : List Operation) :
    (arena.after operations).Carries (shared.after operations) ∧ arena.Persists (arena.after operations) := by
  induction operations generalizing arena shared with
  | nil => exact ⟨carries, .refl arena⟩
  | cons operation operations ih =>
      have step := carries.tracks operation
      obtain ⟨now, persists⟩ := ih step.carries
      exact ⟨now, step.persists.trans persists⟩

end Carries

theorem link_empty (number : Nat) (answer : Bool) : ({} : Arena).link number answer = .unresolved := by
  cases number with
  | zero => cases answer <;> rfl
  | succ number => exact link_beyond (Nat.succ_le_succ (Nat.zero_le number)) answer

theorem carries_empty : ({} : Arena).Carries {} where
  rooted := {
    inhabited := Nat.one_pos
    root := rfl
    untouched := rfl
    child := fun linked => by
      rw [link_empty] at linked
      cases linked
    parent := fun _ positive bound => absurd (Nat.lt_one_iff.mp bound) (Nat.ne_of_gt positive)
    single := fun linked => by
      rw [link_empty] at linked
      cases linked }
  represents := {
    untouched := rfl
    marked := fun _ => by
      rw [link_empty]
      exact Branch.marked_unresolved _
    aligned := rfl
    stands := fun standing => by simp at standing }
  accounted := {
    each := .nil
    within := fun _ member => by cases member }

theorem Carries.wellFormed (carries : arena.Carries shared) : arena.WellFormed where
  rooted := carries.rooted
  accounted := carries.accounted
  cursors cursor member := by
    obtain ⟨number, standing⟩ := List.mem_iff_getElem?.mp member
    obtain ⟨pass, _, stands⟩ := carries.represents.stands standing
    refine Leads.of_place carries.rooted stands.place ?_
    rw [← stands.assignment]
    exact stands.forced

end Arena

/-- Whatever is done to passes that share a tree, in whatever order: the cells form a tree, what is set stays, an
operation that fails changes nothing, and the arena is at all times the tree that the passes run on. -/
theorem operations_keep_shared_tree (earlier later : List Operation) :
    (Arena.after {} earlier).WellFormed ∧
    (Arena.after {} earlier).Persists (Arena.after {} (earlier ++ later)) ∧
    (∀ operation fault, ((Arena.after {} earlier).perform operation).1 = .error fault →
      ((Arena.after {} earlier).perform operation).2 = Arena.after {} earlier) ∧
    (∀ operation, ((Arena.after {} earlier).perform operation).1 = ((Shared.after {} earlier).perform operation).1) ∧
    (Arena.after {} earlier).Represents (Shared.after {} earlier) ∧
    ∀ path mark, (Shared.after {} earlier).tree.marked path = some mark ↔
      ∃ number answer, (Arena.after {} earlier).Place path number answer ∧
        (Arena.after {} earlier).mark? ((Arena.after {} earlier).link number answer) = some mark := by
  obtain ⟨carries, _⟩ := Arena.carries_empty.after earlier
  refine ⟨carries.wellFormed, ?_, fun _ _ => Arena.perform_failed, fun operation => (carries.tracks operation).answers,
    carries.represents, carries.represents.marked_iff⟩
  have split : Arena.after {} (earlier ++ later) = (Arena.after {} earlier).after later := List.foldl_append
  rw [split]
  exact (carries.after later).2

/-- Two passes on one tree, the first with room for one test and the second with a result behind it. -/
def crossingOperations : List Operation :=
  [.start 0 1, .start (-1) 3, .test 1 (.text "a") .truthy, .test 0 (.text "a") .truthy, .resolve 1 true]

theorem deep_test_changes_nothing :
    ((Arena.after {} crossingOperations).perform (.test 0 (.text "b") .truthy)).1 = .error (.tooDeep "b" 2 1) ∧
    ((Arena.after {} crossingOperations).perform (.test 0 (.text "b") .truthy)).2 =
      Arena.after {} crossingOperations := by
  have deep : ((Arena.after {} crossingOperations).perform (.test 0 (.text "b") .truthy)).1 =
      .error (.tooDeep "b" 2 1) := rfl
  exact ⟨deep, (operations_keep_shared_tree crossingOperations []).2.2.1 _ _ deep⟩

end Extension.Decision
