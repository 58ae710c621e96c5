import Extension.Proofs.Decision.Assignment
import Extension.Proofs.Decision.Places

namespace Extension.Decision.Arena

/-! The cursors of an arena and the passes that they stand for.

A pass remembers the way to its position, and its cursor points at the side of a cell that this position is.
An arena represents a shared tree when the two agree at every position and for every pass.
-/

def mark? (arena : Arena) : Link → Option Mark
  | .unresolved => none
  | .result value => some (.result value)
  | .node number => some (.test (arena.atom number))

/-- The way from the root's true side on which the bits of the assignment answer every test. -/
inductive Leads (arena : Arena) (assignment : Int) : Nat → Prop
  | start {number : Nat} (link : arena.link 0 true = .node number) : Leads arena assignment number
  | next {number following : Nat} (leads : Leads arena assignment number)
      (link : arena.link number (bit assignment (arena.atom number).depth.toNat) = .node following) :
      Leads arena assignment following

/-- Every cell but the root was discovered once, by a pass with room for it. -/
structure Accounted (arena : Arena) : Prop where
  each : (arena.cursors.flatMap Cursor.discovered).Perm (List.range' 1 (arena.cells.length - 1))
  within : ∀ cursor ∈ arena.cursors, ∀ number ∈ cursor.discovered, (arena.atom number).depth ≤ cursor.capacity

structure WellFormed (arena : Arena) : Prop where
  rooted : arena.Rooted
  accounted : arena.Accounted
  cursors : ∀ cursor ∈ arena.cursors, (cursor.node = 0 ∧ cursor.answer = true) ∨
    (arena.Leads cursor.assignment cursor.node ∧
      cursor.answer = bit cursor.assignment (arena.atom cursor.node).depth.toNat)

/-- The cursor points at the position of the pass. -/
structure Stands (arena : Arena) (cursor : Cursor) (pass : Pass) : Prop where
  assignment : pass.assignment = cursor.assignment
  capacity : pass.capacity = cursor.capacity
  active : pass.active = cursor.active
  discovered : pass.discovered = cursor.discovered.map arena.atom
  place : arena.Place pass.answers cursor.node cursor.answer
  forced : pass.answers = forced pass.assignment 0 pass.answers.length

/-- The arena holds the same tree and the same passes. -/
structure Represents (arena : Arena) (shared : Shared) : Prop where
  untouched : shared.tree.onFalse = .unresolved
  marked : ∀ {path number answer}, arena.Place path number answer →
    shared.tree.marked path = arena.mark? (arena.link number answer)
  aligned : arena.cursors.length = shared.passes.length
  stands : ∀ {number : Nat} {cursor : Cursor}, arena.cursors[number]? = some cursor →
    ∃ pass, shared.passes[number]? = some pass ∧ arena.Stands cursor pass

variable {arena later : Arena} {shared : Shared} {path : List Bool} {number : Nat} {answer : Bool} {link : Link}
  {cursor : Cursor} {pass : Pass}

theorem Persists.mark? (persists : arena.Persists later) (rooted : arena.Rooted) :
    later.mark? (arena.link number answer) = arena.mark? (arena.link number answer) := by
  cases here : arena.link number answer with
  | unresolved | result => rfl
  | node following => rw [Arena.mark?, Arena.mark?, persists.atoms _ (rooted.child here).2.1]

theorem Leads.of_place {assignment : Int} (rooted : arena.Rooted) (place : arena.Place path number answer)
    (answered : path = Decision.forced assignment 0 path.length) :
    (number = 0 ∧ answer = true) ∨
      (arena.Leads assignment number ∧ answer = bit assignment (arena.atom number).depth.toNat) := by
  induction place with
  | start => exact .inl ⟨rfl, rfl⟩
  | @behind path number following answer place linked next ih =>
      rw [List.length_append, List.length_singleton, forced_succ] at answered
      obtain ⟨before, last⟩ := List.append_inj' answered rfl
      have deep : (arena.atom following).depth = (path.length + 1 : Nat) := by
        rw [(Place.behind place linked next).depth rooted, List.length_append, List.length_singleton]
      refine .inr ⟨?_, ?_⟩
      · rcases ih before with ⟨rfl, rfl⟩ | ⟨leads, rfl⟩
        · exact .start linked
        · exact .next leads linked
      · rw [deep, Int.toNat_natCast, Nat.add_comm]
        simpa [Nat.add_comm] using last

theorem mem_modify {cursors : List Cursor} {change : Cursor → Cursor} {found : Cursor}
    (member : found ∈ cursors.modify number change) :
    found ∈ cursors ∨ ∃ cursor, cursors[number]? = some cursor ∧ found = change cursor := by
  obtain ⟨index, here⟩ := List.mem_iff_getElem?.mp member
  rw [List.getElem?_modify] at here
  by_cases same : number = index
  · subst same
    cases standing : cursors[number]? with
    | none => simp [standing] at here
    | some cursor => exact .inr ⟨cursor, rfl, by simpa [standing, eq_comm] using here⟩
  · simp only [same, if_false, id_map'] at here
    exact .inl (List.mem_of_getElem? here)

theorem discovered_modify {cursors : List Cursor} {change : Cursor → Cursor} {found : List Nat}
    (standing : cursors[number]? = some cursor)
    (claims : (change cursor).discovered = cursor.discovered ++ found) :
    ((cursors.modify number change).flatMap Cursor.discovered).Perm
      (cursors.flatMap Cursor.discovered ++ found) := by
  induction cursors generalizing number with
  | nil => simp at standing
  | cons first cursors ih =>
      cases number with
      | zero =>
          cases standing
          simp only [List.modify_zero_cons, List.flatMap_cons, claims, List.append_assoc]
          exact List.perm_append_comm.append_left _
      | succ number =>
          simp only [List.modify_succ_cons, List.flatMap_cons, List.append_assoc]
          exact (ih standing).append_left _

namespace Accounted

theorem bound (accounted : arena.Accounted) (member : cursor ∈ arena.cursors) {number : Nat}
    (found : number ∈ cursor.discovered) : number < arena.cells.length := by
  have counted := accounted.each.mem_iff.mp (List.mem_flatMap.mpr ⟨cursor, member, found⟩)
  rw [List.mem_range'_1] at counted
  omega

/-- A pass may discover the cells that are new, if it has room for them. -/
theorem turn (accounted : arena.Accounted) (persists : arena.Persists later)
    (standing : arena.cursors[number]? = some cursor) {change : Cursor → Cursor} {found : List Nat}
    (turned : later.cursors = arena.cursors.modify number change)
    (claims : (change cursor).discovered = cursor.discovered ++ found)
    (capacity : (change cursor).capacity = cursor.capacity)
    (grown : List.range' 1 (later.cells.length - 1) = List.range' 1 (arena.cells.length - 1) ++ found)
    (room : ∀ number ∈ found, (later.atom number).depth ≤ cursor.capacity) : later.Accounted where
  each := by
    rw [turned, grown]
    exact (discovered_modify standing claims).trans (accounted.each.append_right found)
  within := by
    intro other member index listed
    have old {holder : Cursor} (holds : holder ∈ arena.cursors) (listed : index ∈ holder.discovered) :
        (later.atom index).depth ≤ holder.capacity := by
      rw [persists.atoms index (accounted.bound holds listed)]
      exact accounted.within holder holds index listed
    rw [turned] at member
    rcases mem_modify member with before | ⟨holder, stands, rfl⟩
    · exact old before listed
    · obtain rfl : cursor = holder := Option.some.inj (standing.symm.trans stands)
      rw [claims, List.mem_append] at listed
      rw [capacity]
      exact listed.elim (old (List.mem_of_getElem? standing)) (room index)

theorem same (accounted : arena.Accounted) (persists : arena.Persists later)
    (cells : later.cells.length = arena.cells.length) (cursors : later.cursors = arena.cursors) : later.Accounted where
  each := by
    rw [cells, cursors]
    exact accounted.each
  within := by
    intro cursor member index listed
    rw [cursors] at member
    rw [persists.atoms index (accounted.bound member listed)]
    exact accounted.within cursor member index listed

theorem start (accounted : arena.Accounted) (assignment capacity : Int) :
    Accounted { arena with cursors := arena.cursors ++ [{ assignment, capacity }] } where
  each := by simpa using accounted.each
  within := by
    intro cursor member number listed
    rcases List.mem_append.mp member with before | new
    · exact accounted.within cursor before number listed
    · rw [List.mem_singleton.mp new] at listed
      cases listed

end Accounted

theorem Stands.persists (stands : arena.Stands cursor pass) (persists : arena.Persists later)
    (bound : ∀ number ∈ cursor.discovered, number < arena.cells.length) : later.Stands cursor pass :=
  { stands with
    discovered := by
      rw [stands.discovered]
      exact List.map_congr_left fun number found => (persists.atoms number (bound number found)).symm
    place := stands.place.persists persists }

theorem Stands.nextDepth (stands : arena.Stands cursor pass) (rooted : arena.Rooted) :
    (arena.atom cursor.node).depth + 1 = (pass.nextDepth : Int) := by
  rw [stands.place.depth rooted, Pass.answers, List.length_map, Pass.nextDepth]
  rfl

theorem Stands.depth_following (stands : arena.Stands cursor pass) (rooted : arena.Rooted) {following : Nat}
    (linked : arena.link cursor.node cursor.answer = .node following) :
    (arena.atom following).depth.toNat = pass.nextDepth := by
  rw [(rooted.child linked).2.2, stands.nextDepth rooted, Int.toNat_natCast]

theorem Stands.descend (stands : arena.Stands cursor pass) (rooted : arena.Rooted) {following : Nat}
    (linked : arena.link cursor.node cursor.answer = .node following) (text : String) (found : List Nat) :
    arena.Stands { cursor with
        node := following
        answer := bit cursor.assignment (arena.atom following).depth.toNat
        discovered := cursor.discovered ++ found }
      (pass.past text (found.map arena.atom)) where
  assignment := stands.assignment
  capacity := stands.capacity
  active := stands.active
  discovered := by
    rw [List.map_append, ← stands.discovered]
    rfl
  place := by
    rw [Pass.past_answers, stands.depth_following rooted linked, ← stands.assignment]
    exact .behind stands.place linked _
  forced := by
    have depth : pass.nextDepth = 0 + pass.answers.length + 1 := by
      rw [Pass.nextDepth, Pass.answers, List.length_map, Nat.zero_add]
    rw [Pass.past_answers, List.length_append, List.length_singleton, forced_succ, depth]
    exact congrArg (· ++ _) stands.forced

namespace Represents

theorem at? (represents : arena.Represents shared) (place : arena.Place path number answer) :
    (shared.tree.at? path).isSome = true := by
  cases place with
  | start => rfl
  | behind place link =>
      rw [Tree.at?, Branch.follow_concat_isSome]
      exact ⟨_, (represents.marked place).trans (by rw [link]; rfl)⟩

/-- Every position of the tree is a side of a cell. -/
theorem place_beyond (represents : arena.Represents shared) (place : arena.Place path number answer)
    {rest : List Bool} (inside : (shared.tree.at? (path ++ rest)).isSome = true) :
    ∃ other side, arena.Place (path ++ rest) other side := by
  induction rest generalizing path number answer with
  | nil => exact ⟨number, answer, by rwa [List.append_nil]⟩
  | cons next rest ih =>
      rw [List.append_cons] at inside ⊢
      -- The next position is in the tree as well, so that a test stands at this one.
      have here : (shared.tree.at? (path ++ [next])).isSome = true := by
        rw [Tree.at?, Branch.follow_append] at inside
        exact Option.isSome_of_isSome_bind inside
      obtain ⟨atom, test⟩ := Branch.follow_concat_isSome.mp here
      have shown : some (Mark.test atom) = arena.mark? (arena.link number answer) :=
        test.symm.trans (represents.marked place)
      cases linked : arena.link number answer with
      | unresolved | result =>
          rw [linked] at shown
          cases shown
      | node following => exact ih (.behind place linked next) inside

theorem marked_iff (represents : arena.Represents shared) (path : List Bool) (mark : Mark) :
    shared.tree.marked path = some mark ↔
      ∃ number answer, arena.Place path number answer ∧ arena.mark? (arena.link number answer) = some mark := by
  constructor
  · intro here
    have inside : (shared.tree.at? path).isSome = true :=
      Option.isSome_of_isSome_bind (Option.isSome_iff_exists.mpr ⟨mark, here⟩)
    obtain ⟨number, answer, place⟩ := represents.place_beyond .start inside
    exact ⟨number, answer, place, (represents.marked place).symm.trans here⟩
  · rintro ⟨number, answer, place, here⟩
    rw [represents.marked place, here]

theorem opened (represents : arena.Represents shared) (standing : arena.cursors[number]? = some cursor) :
    ∃ pass, arena.Stands cursor pass ∧ number < shared.passes.length ∧ shared.passes.getD number default = pass := by
  obtain ⟨pass, listed, stands⟩ := represents.stands standing
  obtain ⟨bound, _⟩ := List.getElem?_eq_some_iff.mp listed
  exact ⟨pass, stands, bound, by rw [List.getD_eq_getElem?_getD, listed]; rfl⟩

theorem closed (represents : arena.Represents shared) (absent : arena.cursors[number]? = none) :
    ¬ number < shared.passes.length := by
  rw [← represents.aligned]
  exact Nat.not_lt_of_le (List.getElem?_eq_none_iff.mp absent)

/-- Behind a test, the test before a position is the cell that the position is a side of. -/
theorem atomBefore (represents : arena.Represents shared) (rooted : arena.Rooted)
    (place : arena.Place path number answer) : shared.tree.atomBefore path = arena.atom number := by
  cases place with
  | start => exact rooted.root.symm
  | behind place link =>
      have here := represents.marked place
      rw [link, mark?] at here
      obtain ⟨onTrue, onFalse, found⟩ := Tree.node_of_marked here
      rw [Tree.atomBefore, if_neg (by simp), List.dropLast_concat, found]

/-- A link that is attached appears in the tree at its one position. -/
theorem attach (represents : arena.Represents shared) (rooted : arena.Rooted) (accounted : arena.Accounted)
    (place : arena.Place path number answer) (attaches : arena.Attaches number answer link later)
    (same : later.cursors = arena.cursors) {mark : Mark} (shown : later.mark? link = some mark) {grown : Tree}
    (gains : shared.tree.Gains path mark grown) : later.Represents { shared with tree := grown } where
  untouched := gains.onFalse.trans represents.untouched
  marked := by
    intro other reached side after
    rw [gains.marked, attaches.links]
    rcases attaches.place_cases rooted place after with before | ⟨rfl, made⟩
    · by_cases here : reached = number ∧ side = answer
      · obtain ⟨rfl, rfl⟩ := here
        rw [if_pos (before.injective rooted place), if_pos ⟨rfl, rfl⟩, shown]
      · have elsewhere : other ≠ path := by
          rintro rfl
          exact here (before.functional place)
        rw [if_neg elsewhere, if_neg here, represents.marked before, attaches.persists.mark? rooted]
    · have new := ((attaches.fresh reached).mp made).1
      have unmarked : shared.tree.marked path = none := by
        rw [represents.marked place, attaches.opened]
        rfl
      have elsewhere : ¬ (reached = number ∧ side = answer) := by
        rintro ⟨rfl, _⟩
        exact absurd attaches.inside (by omega)
      rw [if_neg (by simp), if_neg elsewhere, link_beyond new]
      exact Branch.marked_concat unmarked side
  aligned := by rw [same, represents.aligned]
  stands := by
    intro index cursor standing
    rw [same] at standing
    obtain ⟨pass, listed, stands⟩ := represents.stands standing
    exact ⟨pass, listed, stands.persists attaches.persists fun found member =>
      accounted.bound (List.mem_of_getElem? standing) member⟩

/-- A pass and its cursor may change together. -/
theorem turn (represents : arena.Represents shared) (standing : arena.cursors[number]? = some cursor)
    {change : Cursor → Cursor} {turned : Pass} (stands : arena.Stands (change cursor) turned) :
    (arena.modifyCursor number change).Represents
      { shared with passes := shared.passes.set number turned } where
  untouched := represents.untouched
  marked := by
    intro path other side place
    have persists : (arena.modifyCursor number change).Persists arena := .of_cells rfl
    exact represents.marked (place.persists persists)
  aligned := by simpa [modifyCursor] using represents.aligned
  stands := by
    intro index found standingNow
    have persists : arena.Persists (arena.modifyCursor number change) := .of_cells rfl
    rw [modifyCursor, List.getElem?_modify] at standingNow
    by_cases same : number = index
    · subst same
      simp only [if_true, standing, Option.map_eq_map, Option.map_some, Option.some.injEq] at standingNow
      subst standingNow
      obtain ⟨pass, listed, _⟩ := represents.stands standing
      obtain ⟨bound, _⟩ := List.getElem?_eq_some_iff.mp listed
      exact ⟨turned, List.getElem?_set_self bound, { stands with place := stands.place.persists persists }⟩
    · simp only [same, if_false, id_map'] at standingNow
      obtain ⟨pass, listed, others⟩ := represents.stands standingNow
      exact ⟨pass, (List.getElem?_set_ne same).trans listed,
        { others with place := others.place.persists persists }⟩

theorem start (represents : arena.Represents shared) (assignment capacity : Int) :
    Represents { arena with cursors := arena.cursors ++ [{ assignment, capacity }] }
      (shared.openPass assignment capacity).2 where
  untouched := represents.untouched
  marked := by
    intro path number side place
    exact represents.marked (place.persists (.of_cells rfl))
  aligned := by simp [Shared.openPass, represents.aligned]
  stands := by
    intro number cursor standing
    rw [List.getElem?_append] at standing
    rw [Shared.openPass]
    split at standing
    · next inside =>
        obtain ⟨pass, listed, stands⟩ := represents.stands standing
        refine ⟨pass, ?_, { stands with place := stands.place.persists (.of_cells rfl) }⟩
        rw [List.getElem?_append_left (represents.aligned ▸ inside), listed]
    · next outside =>
        cases gap : number - arena.cursors.length with
        | succ more => simp [gap] at standing
        | zero =>
            rw [gap] at standing
            cases standing
            have last : number = shared.passes.length := by
              rw [← represents.aligned]
              omega
            rw [last, List.getElem?_concat_length]
            exact ⟨_, rfl, { assignment := rfl, capacity := rfl, active := rfl, discovered := rfl
                             place := .start, forced := rfl }⟩

end Represents

end Extension.Decision.Arena
