import Extension.Proofs.Session.Support

namespace Extension.Session

open Decision Relation

/-! Scripts with compiles that have been put in front of what they do, at any of its points. -/

/-- The first script is the second one, but for compiles of these expressions whose answers are not looked at. -/
inductive Inserted (names : List String) : Script → Script → Prop
  | finish (value : Value) : Inserted names (.finish value) (.finish value)
  | raise (fault : Fault) : Inserted names (.raise fault) (.raise fault)
  | read {test : Test} {next plain : Bool → Script} (sides : ∀ answer, Inserted names (next answer) (plain answer)) :
      Inserted names (.read .own test next) (.read .own test plain)
  | compile {name : String} {next : String → Script} {plain : Script} (member : name ∈ names)
      (rest : ∀ clause, Inserted names (next clause) plain) : Inserted names (.compile name next) plain

namespace Inserted

variable {names : List String} {clauses : String → String} {script last plain : Script} {trail : Trail}

theorem confined (inserted : Inserted names script plain) : script.stretch.Confined clauses := by
  induction inserted with
  | finish | raise | read => exact trivial
  | compile _ _ ih => exact ih _

theorem compiled (inserted : Inserted names script plain) {name : String}
    (compiles : name ∈ script.stretch.compiled clauses) : name ∈ names := by
  induction inserted with
  | finish | raise | read => cases compiles
  | compile member _ ih =>
      rcases List.mem_cons.mp compiles with rfl | later
      · exact member
      · exact ih _ later

theorem move_cases (inserted : Inserted names script plain) (clauses : String → String) :
    (∃ test next rest, stripped Script.stretch clauses script = .read test next ∧ plain.move = .read test rest ∧
      ∀ answer, Inserted names (next answer) (rest answer)) ∨
    (∃ value, stripped Script.stretch clauses script = .finish value ∧ plain.move = .finish value) ∨
    (∃ fault, stripped Script.stretch clauses script = .raise fault ∧ plain.move = .raise fault) := by
  induction inserted with
  | finish value => exact .inr (.inl ⟨value, rfl, rfl⟩)
  | raise fault => exact .inr (.inr ⟨fault, rfl, rfl⟩)
  | read sides => exact .inl ⟨_, _, _, rfl, rfl, sides⟩
  | compile _ _ ih => exact ih _

theorem deed?_eq (inserted : Inserted names script plain) (answers : List Bool) :
    deed? (stripped Script.stretch clauses) script answers = deed? Script.move plain answers := by
  induction answers generalizing script plain with
  | nil =>
      rcases inserted.move_cases clauses with ⟨_, _, _, left, right, _⟩ | ⟨_, left, right⟩ | ⟨_, left, right⟩
      all_goals simp only [deed?, left, right, Move.deed]
  | cons answer answers ih =>
      rcases inserted.move_cases clauses with ⟨_, _, _, left, right, next⟩ | ⟨_, left, right⟩ | ⟨_, left, right⟩
      · rw [deed?_read left, deed?_read right, ih (next answer)]
      · rw [deed?, deed?, left, right]
      · rw [deed?, deed?, left, right]

theorem reads (inserted : Inserted names script plain)
    (reads : Reads (stripped Script.stretch clauses) script trail last) : ∃ rest, Inserted names last rest := by
  induction reads generalizing plain with
  | nil => exact ⟨plain, inserted⟩
  | cons asks _ ih =>
      rcases inserted.move_cases clauses with ⟨_, _, _, move, _, next⟩ | ⟨_, move, _⟩ | ⟨_, move, _⟩
      · obtain ⟨_, rfl⟩ := Move.read.inj (move.symm.trans asks)
        exact ih (next _)
      · cases move.symm.trans asks
      · cases move.symm.trans asks

variable {expressions : Entries (Expression Script)} {expression : Expression Script} {name other : String}

theorem isConfined (inserted : ∀ earlier, Inserted names (expression.start (earlier + 1)) plain) :
    IsConfined Script.stretch clauses expression := by
  intro earlier trail last reads
  obtain ⟨rest, further⟩ := (inserted earlier).reads reads
  exact further.confined

theorem isPure (inserted : ∀ earlier, Inserted names (expression.start (earlier + 1)) plain) :
    IsPure (stripped Script.stretch clauses) fun earlier => expression.start (earlier + 1) :=
  fun first second answers => ((inserted first).deed?_eq answers).trans ((inserted second).deed?_eq answers).symm

theorem mem_of_inserts (inserted : ∀ earlier, Inserted names (expression.start (earlier + 1)) plain)
    (listed : expressions.lookup name = some expression)
    (inserts : Inserts Script.stretch clauses expressions name other) : other ∈ names := by
  obtain ⟨found, earlier, trail, last, known, reads, compiles⟩ := inserts
  obtain rfl := Option.some.inj (listed.symm.trans known)
  obtain ⟨rest, further⟩ := (inserted earlier).reads reads
  exact further.compiled compiles

end Inserted

/-- Layers of scripts, of which each compiles expressions further down only. -/
structure Layered (expressions : Entries (Expression Script)) (names : List String) (height : String → Nat) : Prop where
  inserted : ∀ name ∈ names, ∃ expression below plain, expressions.lookup name = some expression ∧
    (∀ other ∈ below, other ∈ names ∧ height other < height name) ∧
    ∀ earlier, Inserted below (expression.start (earlier + 1)) plain

namespace Layered

variable {expressions : Entries (Expression Script)} {names calls : List String} {height : String → Nat}
variable {clauses : String → String} {environment : Environment} {name other : String}

theorem below (layered : Layered expressions names height) (member : name ∈ names)
    (reached : TransGen (Inserts Script.stretch clauses expressions) name other) :
    other ∈ names ∧ height other < height name := by
  have next {name other : String} (member : name ∈ names)
      (inserts : Inserts Script.stretch clauses expressions name other) :
      other ∈ names ∧ height other < height name := by
    obtain ⟨expression, below, plain, listed, lower, inserted⟩ := layered.inserted name member
    exact lower other (Inserted.mem_of_inserts inserted listed inserts)
  induction reached with
  | single inserts => exact next member inserts
  | tail _ inserts ih =>
      obtain ⟨further, lower⟩ := next ih.1 inserts
      exact ⟨further, lower.trans ih.2⟩

theorem insertion (layered : Layered expressions names height) (member : name ∈ names)
    (apart : ∀ other ∈ names, other ∉ calls)
    (alone : ∀ other ∈ names, height other < height name →
      ((opened environment expressions).compile Script.stretch other).1 = .ok (clauses other)) :
    Insertion Script.stretch clauses expressions environment calls name := by
  have known {other : String} (reached : ReflTransGen (Inserts Script.stretch clauses expressions) name other) :
      other ∈ names := by
    rcases reflTransGen_iff_eq_or_transGen.mp reached with rfl | later
    · exact member
    · exact (layered.below member later).1
  have plain {other : String} {expression : Expression Script}
      (reached : ReflTransGen (Inserts Script.stretch clauses expressions) name other)
      (listed : expressions.lookup other = some expression) :
      ∃ below plain, ∀ earlier, Inserted below (expression.start (earlier + 1)) plain := by
    obtain ⟨found, below, plain, there, _, inserted⟩ := layered.inserted other (known reached)
    obtain rfl := Option.some.inj (there.symm.trans listed)
    exact ⟨below, plain, inserted⟩
  exact {
    confined := fun other expression reached listed => by
      obtain ⟨_, _, inserted⟩ := plain reached listed
      exact Inserted.isConfined inserted
    pure := fun other expression reached listed => by
      obtain ⟨_, _, inserted⟩ := plain reached.to_reflTransGen listed
      exact Inserted.isPure inserted
    apart := fun other reached => apart other (known reached)
    acyclic := fun other reached again => Nat.lt_irrefl _ (layered.below (known reached) again).2
    alone := fun other reached => alone other (layered.below member reached).1 (layered.below member reached).2 }

end Layered

end Extension.Session
