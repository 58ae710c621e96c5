import Extension.Proofs.Decision.Arena
import Extension.Proofs.Decision.Marks

namespace Extension.Decision.Arena

/-! The tree that the cells of an arena form.

Every cell but the root hangs on one side of one earlier cell.  So each position of the tree is one side of one
cell, and something that is attached to an open side appears at one position only.
-/

/-- The cells form a tree: every cell but the first hangs on exactly one side, one level further down. -/
structure Rooted (arena : Arena) : Prop where
  inhabited : 0 < arena.cells.length
  root : arena.atom 0 = Tree.rootAtom
  untouched : arena.link 0 false = .unresolved
  child : ∀ {number answer following}, arena.link number answer = .node following →
    number < following ∧ following < arena.cells.length ∧
      (arena.atom following).depth = (arena.atom number).depth + 1
  parent : ∀ number, 0 < number → number < arena.cells.length →
    ∃ above answer, arena.link above answer = .node number
  single : ∀ {number answer other otherAnswer following}, arena.link number answer = .node following →
    arena.link other otherAnswer = .node following → number = other ∧ answer = otherAnswer

/-- What has been set stays: no atom and no set side of a cell differs in the later arena. -/
structure Persists (arena later : Arena) : Prop where
  cells : arena.cells.length ≤ later.cells.length
  atoms : ∀ number, number < arena.cells.length → later.atom number = arena.atom number
  links : ∀ number answer, arena.link number answer ≠ .unresolved → later.link number answer = arena.link number answer

/-- The position behind these answers is this side of this cell. -/
inductive Place (arena : Arena) : List Bool → Nat → Bool → Prop
  | start : Place arena [] 0 true
  | behind {path : List Bool} {number following : Nat} {answer : Bool} (place : Place arena path number answer)
      (link : arena.link number answer = .node following) (next : Bool) : Place arena (path ++ [next]) following next

/-- An open side gets a link.  A link to a cell goes to the only new one, which lies one level further down. -/
structure Attaches (arena : Arena) (number : Nat) (answer : Bool) (link : Link) (later : Arena) : Prop where
  inside : number < arena.cells.length
  opened : arena.link number answer = .unresolved
  cells : arena.cells.length ≤ later.cells.length
  links : ∀ other side, later.link other side = if other = number ∧ side = answer then link else arena.link other side
  atoms : ∀ other, other < arena.cells.length → later.atom other = arena.atom other
  fresh : ∀ other, link = .node other ↔ arena.cells.length ≤ other ∧ other < later.cells.length
  depth : ∀ other, link = .node other → (later.atom other).depth = (arena.atom number).depth + 1

variable {arena later : Arena} {number : Nat} {answer : Bool} {link : Link} {path : List Bool}

namespace Persists

theorem of_cells (same : later.cells = arena.cells) : arena.Persists later where
  cells := Nat.le_of_eq (by rw [same])
  atoms number _ := by rw [atom, cell, same, atom, cell]
  links number answer _ := by rw [Arena.link, cell, same, Arena.link, cell]

theorem refl (arena : Arena) : arena.Persists arena :=
  ⟨Nat.le_refl _, fun _ _ => rfl, fun _ _ _ => rfl⟩

theorem trans {latest : Arena} (first : arena.Persists later) (second : later.Persists latest) :
    arena.Persists latest where
  cells := Nat.le_trans first.cells second.cells
  atoms number inside := by
    rw [second.atoms number (Nat.lt_of_lt_of_le inside first.cells), first.atoms number inside]
  links number answer set := by
    have kept := first.links number answer set
    rw [second.links number answer (by rwa [kept]), kept]

end Persists

theorem Rooted.of_cells (rooted : arena.Rooted) (same : later.cells = arena.cells) : later.Rooted := by
  obtain ⟨cells, cursors⟩ := later
  subst same
  exact {
    inhabited := rooted.inhabited
    root := rooted.root
    untouched := rooted.untouched
    child := rooted.child
    parent := rooted.parent
    single := rooted.single }

namespace Place

/-- The false side of the root is at no position. -/
theorem side (rooted : arena.Rooted) (place : arena.Place path number answer) (root : number = 0) : answer = true := by
  cases place with
  | start => rfl
  | behind _ link => exact absurd (rooted.child link).1 (by omega)

theorem functional {other : Nat} {side : Bool} (place : arena.Place path number answer)
    (again : arena.Place path other side) : number = other ∧ answer = side := by
  induction place generalizing other side with
  | start =>
      generalize empty : ([] : List Bool) = path at again
      cases again with
      | start => exact ⟨rfl, rfl⟩
      | behind => simp at empty
  | @behind path number following answer place linked next ih =>
      generalize whole : path ++ [next] = longer at again
      cases again with
      | start => simp at whole
      | behind otherPlace otherLink otherNext =>
          obtain ⟨rfl, sameNext⟩ := List.append_inj' whole rfl
          cases sameNext
          obtain ⟨rfl, rfl⟩ := ih otherPlace
          exact ⟨Link.node.inj (linked.symm.trans otherLink), rfl⟩

/-- A side of a cell is at one position only. -/
theorem injective {other : List Bool} (rooted : arena.Rooted) (place : arena.Place path number answer)
    (again : arena.Place other number answer) : path = other := by
  induction place generalizing other with
  | start =>
      generalize first : 0 = number at again
      generalize true = side at again
      cases again with
      | start => rfl
      | behind _ link => exact absurd (rooted.child link).1 (by omega)
  | @behind path number following answer place linked next ih =>
      cases again with
      | start => exact absurd (rooted.child linked).1 (by omega)
      | behind otherPlace otherLink =>
          obtain ⟨rfl, rfl⟩ := rooted.single linked otherLink
          rw [ih otherPlace]

theorem inside (rooted : arena.Rooted) (place : arena.Place path number answer) : number < arena.cells.length := by
  cases place with
  | start => exact rooted.inhabited
  | behind _ link => exact (rooted.child link).2.1

theorem depth (rooted : arena.Rooted) (place : arena.Place path number answer) :
    (arena.atom number).depth = path.length := by
  induction place with
  | start =>
      rw [rooted.root]
      rfl
  | behind _ link _ ih =>
      rw [(rooted.child link).2.2, ih, List.length_append]
      rfl

theorem persists (place : arena.Place path number answer) (persists : arena.Persists later) :
    later.Place path number answer := by
  induction place with
  | start => exact .start
  | behind _ link next ih =>
      refine .behind ih ?_ next
      rw [persists.links _ _ (by simp [link]), link]

end Place

namespace Attaches

theorem result (inside : number < arena.cells.length) (opened : arena.link number answer = .unresolved)
    (value : Bool) : arena.Attaches number answer (.result value) (arena.setLink number answer (.result value)) where
  inside := inside
  opened := opened
  cells := by simp [setLink]
  links := link_setLink _ inside
  atoms other _ := atom_setLink _ inside other
  fresh other := by
    simp only [setLink, List.length_modify]
    constructor
    · intro linked
      cases linked
    · omega
  depth other linked := by cases linked

theorem node (inside : number < arena.cells.length) (opened : arena.link number answer = .unresolved)
    {atom : Atom} (deeper : atom.depth = (arena.atom number).depth + 1) :
    arena.Attaches number answer (.node arena.cells.length) (arena.extend number answer atom) := by
  have length : (arena.extend number answer atom).cells.length = _ := extend_length atom
  exact {
    inside := inside
    opened := opened
    cells := by omega
    links := link_extend atom inside
    atoms := fun other bound => by rw [atom_extend atom inside, Arena.atom, cell_allocate atom bound, Arena.atom]
    fresh := fun other => by
      rw [Link.node.injEq]
      omega
    depth := fun other linked => by
      obtain rfl := Link.node.inj linked
      rw [atom_extend atom inside, Arena.atom, cell_allocate_self, deeper] }

theorem persists (attaches : arena.Attaches number answer link later) : arena.Persists later where
  cells := attaches.cells
  atoms := attaches.atoms
  links other side set := by
    rw [attaches.links, if_neg]
    rintro ⟨rfl, rfl⟩
    exact set attaches.opened

theorem linked (attaches : arena.Attaches number answer link later) {other following : Nat} {side : Bool}
    (linked : later.link other side = .node following) :
    (other = number ∧ side = answer ∧ link = .node following) ∨ arena.link other side = .node following := by
  rw [attaches.links] at linked
  split at linked
  · next here => exact .inl ⟨here.1, here.2, linked⟩
  · exact .inr linked

theorem rooted (attaches : arena.Attaches number answer link later) (rooted : arena.Rooted)
    (side : number = 0 → answer = true) : later.Rooted where
  inhabited := Nat.lt_of_lt_of_le rooted.inhabited attaches.cells
  root := by rw [attaches.atoms 0 rooted.inhabited, rooted.root]
  untouched := by
    rw [attaches.links, if_neg, rooted.untouched]
    rintro ⟨first, other⟩
    rw [side first.symm] at other
    cases other
  child := by
    intro other otherSide following linked
    rcases attaches.linked linked with ⟨rfl, rfl, made⟩ | before
    · obtain ⟨new, bound⟩ := (attaches.fresh following).mp made
      refine ⟨Nat.lt_of_lt_of_le attaches.inside new, bound, ?_⟩
      rw [attaches.depth following made, attaches.atoms other attaches.inside]
    · obtain ⟨earlier, bound, deeper⟩ := rooted.child before
      refine ⟨earlier, Nat.lt_of_lt_of_le bound attaches.cells, ?_⟩
      rw [attaches.atoms following bound, attaches.atoms other (Nat.lt_trans earlier bound), deeper]
  parent := by
    intro other positive bound
    rcases Nat.lt_or_ge other arena.cells.length with old | new
    · obtain ⟨above, otherSide, linked⟩ := rooted.parent other positive old
      exact ⟨above, otherSide, by rw [attaches.persists.links _ _ (by simp [linked]), linked]⟩
    · exact ⟨number, answer, by rw [attaches.links, if_pos ⟨rfl, rfl⟩, (attaches.fresh other).mpr ⟨new, bound⟩]⟩
  single := by
    intro first firstSide second secondSide following linked again
    -- What hung on some side before is not the new cell.
    have old {other : Nat} {otherSide : Bool} (before : arena.link other otherSide = .node following)
        (made : link = .node following) : False := by
      have new := ((attaches.fresh following).mp made).1
      have bound := (rooted.child before).2.1
      omega
    rcases attaches.linked linked with ⟨rfl, rfl, made⟩ | before
    · rcases attaches.linked again with ⟨rfl, rfl, _⟩ | also
      · exact ⟨rfl, rfl⟩
      · exact (old also made).elim
    · rcases attaches.linked again with ⟨rfl, rfl, made⟩ | also
      · exact (old before made).elim
      · exact rooted.single before also

/-- The only new positions are those behind the cell that was attached. -/
theorem place_cases (attaches : arena.Attaches number answer link later) (rooted : arena.Rooted)
    (place : arena.Place path number answer) {other : List Bool} {reached : Nat} {side : Bool}
    (after : later.Place other reached side) :
    arena.Place other reached side ∨ other = path ++ [side] ∧ link = .node reached := by
  induction after with
  | start => exact .inl .start
  | behind _ linked next ih =>
      rcases ih with before | ⟨_, made⟩
      · rcases attaches.linked linked with ⟨rfl, rfl, made⟩ | old
        · rw [place.injective rooted before]
          exact .inr ⟨rfl, made⟩
        · exact .inl (.behind before old next)
      · -- Behind the new cell itself nothing is linked yet.
        have new := ((attaches.fresh _).mp made).1
        rcases attaches.linked linked with ⟨rfl, _, _⟩ | old
        · exact absurd attaches.inside (by omega)
        · rw [link_beyond new] at old
          cases old

end Attaches

end Extension.Decision.Arena
