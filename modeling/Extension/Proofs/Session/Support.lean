import Mathlib.Data.Set.Finite.List
import Mathlib.Order.WellFounded
import Extension.Proofs.Session.Insertion
import Extension.Proofs.Session.Recovery

namespace Extension.Session

open Decision Relation

/-! What is compiled for an expression, by its own rule and by the rules of what it compiles.

None of it may be in progress, and nothing may come back to itself.  The clauses are known from compiling each
expression alone, and from the bottom up they are the clauses of the rules without the compiles.
-/

variable {σ : Type}

/-- The compile that is made by the rule of an expression, with room for so many explorations further in. -/
def compileNested (step : σ → Stretch σ) (depth : Nat) (name : String) (session : Session σ) : Reached σ String :=
  let (tree, session) := session.exploreNested step depth name
  (tree.map Tree.clause, session)

/-- Somewhere on its way the rule of an expression compiles another one. -/
def Inserts (step : σ → Stretch σ) (clauses : String → String) (expressions : Entries (Expression σ))
    (name other : String) : Prop :=
  ∃ expression earlier trail last, expressions.lookup name = some expression ∧
    Reads (stripped step clauses) (expression.start (earlier + 1)) trail last ∧ other ∈ (step last).compiled clauses

/-- The rule of an expression uses no accessor but its own. -/
def IsConfined (step : σ → Stretch σ) (clauses : String → String) (expression : Expression σ) : Prop :=
  ∀ earlier trail last, Reads (stripped step clauses) (expression.start (earlier + 1)) trail last →
    (step last).Confined clauses

/-- Explored by itself, without the compiles, an expression has its clause. -/
def Answered (step : σ → Stretch σ) (clauses : String → String) (expressions : Entries (Expression σ))
    (environment : Environment) (name : String) : Prop :=
  ∃ expression tree, expressions.lookup name = some expression ∧
    (expression.explore (stripped step clauses) environment).outcome = .ok tree ∧ tree.clause = clauses name

/-- The rules are pure, and all that they compile has these clauses. -/
structure Supports (step : σ → Stretch σ) (clauses : String → String) (expressions : Entries (Expression σ))
    (environment : Environment) (name : String) : Prop where
  confined : ∀ other expression, ReflTransGen (Inserts step clauses expressions) name other →
    expressions.lookup other = some expression → IsConfined step clauses expression
  pure : ∀ other expression, ReflTransGen (Inserts step clauses expressions) name other →
    expressions.lookup other = some expression →
      IsPure (stripped step clauses) fun earlier => expression.start (earlier + 1)
  acyclic : ∀ other, ReflTransGen (Inserts step clauses expressions) name other →
    ¬ TransGen (Inserts step clauses expressions) other other
  answered : ∀ other, TransGen (Inserts step clauses expressions) name other →
    Answered step clauses expressions environment other

section Support

variable {step : σ → Stretch σ} {clauses : String → String} {expressions : Entries (Expression σ)}
variable {environment : Environment} {name other : String} {session : Session σ} {calls : List String}

theorem Supports.below (supports : Supports step clauses expressions environment name)
    (inserts : TransGen (Inserts step clauses expressions) name other) :
    Supports step clauses expressions environment other where
  confined further expression reached := supports.confined further expression (inserts.to_reflTransGen.trans reached)
  pure further expression reached := supports.pure further expression (inserts.to_reflTransGen.trans reached)
  acyclic further reached := supports.acyclic further (inserts.to_reflTransGen.trans reached)
  answered further reached := supports.answered further (inserts.trans reached)

/-- Nothing of what is compiled for it is in progress. -/
def Apart (step : σ → Stretch σ) (clauses : String → String) (expressions : Entries (Expression σ))
    (calls : List String) (name : String) : Prop :=
  ∀ other, ReflTransGen (Inserts step clauses expressions) name other → other ∉ calls

theorem Supports.apart (supports : Supports step clauses expressions environment name)
    (apart : Apart step clauses expressions calls name) (inserts : Inserts step clauses expressions name other) :
    Apart step clauses expressions (name :: calls) other := by
  intro further reached inside
  have below : TransGen (Inserts step clauses expressions) name further := .head' inserts reached
  rcases List.mem_cons.mp inside with rfl | inside
  · exact supports.acyclic further .refl below
  · exact apart further below.to_reflTransGen inside

theorem exploreWith_supported {nested other : String → Session σ → Reached σ String} {expression : Expression σ}
    (ready : Ready expressions session calls) (listed : expressions.lookup name = some expression)
    (supports : Supports step clauses expressions session.environment name)
    (apart : Apart step clauses expressions calls name)
    (answers : ∀ asked inner, Inserts step clauses expressions name asked → Ready expressions inner (name :: calls) →
      inner.environment = session.environment → inner.members.length = session.members.length →
        Gives inner (.ok (clauses asked)) (nested asked inner) (other asked inner)) :
    Gives session (expression.explore (stripped step clauses) session.environment).outcome
      (exploreWith step nested name session) (exploreWith step other name session) := by
  obtain ⟨member, found, unlocked, same⟩ := ready.found listed (apart name .refl)
  have starts : member.expression.start = expression.start := congrArg (fun fixed => fixed.start) same
  have settings : member.expression.settings = expression.settings := congrArg (fun fixed => fixed.settings) same
  have pure := supports.pure name expression .refl listed
  have outcome : (expression.explore (stripped step clauses) session.environment).outcome =
      (member.expression.explore (stripped step clauses) session.environment).outcome := by
    refine Expression.explore_congr settings fun earlier later answers => ?_
    rw [starts]
    exact pure earlier later answers
  rw [outcome]
  rw [← starts] at pure
  refine exploreWith_given found unlocked ready.fresh pure fun earlier => ⟨fun reads => ?_, ?_⟩
  · rw [starts] at reads
    exact supports.confined name expression .refl listed earlier _ _ reads
  · intro trail last asked inner frame reads compiled spares frames numbered
    rw [starts] at reads
    have within := ready.inside found unlocked spares frames numbered
    refine answers asked inner ⟨expression, earlier, trail, last, listed, reads, compiled⟩ within ?_ ?_
    · exact spares.environment.trans (updateMember_environment ..)
    · exact spares.count.trans (updateMember_length ..)

theorem Gives.compile {depth : Nat} {tree : Tree}
    (gives : Gives session (.ok tree) (exploreNested step depth name session) (exploreNested step depth name session)) :
    Gives session (.ok tree.clause) (compileNested step depth name session)
      (compileNested step depth name session) := by
  obtain ⟨after, explored, _, spares, frames⟩ := gives.eq
  have compiled : compileNested step depth name session = (.ok tree.clause, after) := by
    rw [compileNested, explored]
    rfl
  rw [compiled]
  exact .of_spares spares frames _

theorem exploreNested_supported (depth : Nat) {expression : Expression σ}
    (ready : Ready expressions session calls) (listed : expressions.lookup name = some expression)
    (supports : Supports step clauses expressions session.environment name)
    (apart : Apart step clauses expressions calls name) (room : session.members.length ≤ depth + calls.length) :
    Gives session (expression.explore (stripped step clauses) session.environment).outcome
      (exploreNested step depth name session) (exploreNested step depth name session) := by
  induction depth generalizing name session calls expression with
  | zero =>
      -- The expression is not locked, so that there are more expressions than calls in progress.
      obtain ⟨member, found, unlocked, _⟩ := ready.found listed (apart name .refl)
      have more := calls_length_lt ready.locked_iff ready.distinct found unlocked
      omega
  | succ depth ih =>
      refine exploreWith_supported ready listed supports apart fun asked inner inserts within environment length => ?_
      obtain ⟨other, tree, known, explored, clause⟩ := supports.answered asked (.single inserts)
      have below := supports.below (.single inserts)
      rw [← environment] at below explored
      have given := ih within known below (supports.apart apart inserts) (by rw [length, List.length_cons]; omega)
      rw [explored] at given
      rw [← clause]
      exact given.compile

/-- Where what is below a node does not come back to it, everything that goes on from below goes on everywhere. -/
theorem induction_below {relation : String → String → Prop} {root : String} {nodes : List String}
    (known : ∀ node, TransGen relation root node → node ∈ nodes)
    (acyclic : ∀ node, TransGen relation root node → ¬ TransGen relation node node) {motive : String → Prop}
    (next : ∀ node, TransGen relation root node → (∀ below, TransGen relation node below → motive below) → motive node)
    (node : String) (reached : TransGen relation root node) : motive node := by
  have finite : Finite { node // TransGen relation root node } :=
    ((List.finite_toSet nodes).subset known).to_subtype
  let under (first second : { node // TransGen relation root node }) : Prop := TransGen relation second.1 first.1
  have irreflexive : Std.Irrefl under := ⟨fun node => acyclic node.1 node.2⟩
  have transitive : IsTrans _ under := ⟨fun _ _ _ left right => right.trans left⟩
  have founded := Finite.wellFounded_of_trans_of_irrefl under
  refine founded.induction (C := fun node => motive node.1) ⟨node, reached⟩ fun node ih => ?_
  exact next node.1 node.2 fun below later => ih ⟨below, node.2.trans later⟩ later

/-- Compiles that are inserted into the rule of an expression, and into the rules of these expressions. -/
structure Insertion (step : σ → Stretch σ) (clauses : String → String) (expressions : Entries (Expression σ))
    (environment : Environment) (calls : List String) (name : String) : Prop where
  confined : ∀ other expression, ReflTransGen (Inserts step clauses expressions) name other →
    expressions.lookup other = some expression → IsConfined step clauses expression
  pure : ∀ other expression, TransGen (Inserts step clauses expressions) name other →
    expressions.lookup other = some expression →
      IsPure (stripped step clauses) fun earlier => expression.start (earlier + 1)
  apart : Apart step clauses expressions calls name
  acyclic : ∀ other, ReflTransGen (Inserts step clauses expressions) name other →
    ¬ TransGen (Inserts step clauses expressions) other other
  /-- By itself, in a session of its own, each of these expressions compiles to its clause. -/
  alone : ∀ other, TransGen (Inserts step clauses expressions) name other →
    ((opened environment expressions).compile step other).1 = .ok (clauses other)

theorem Insertion.listed (insertion : Insertion step clauses expressions environment calls name)
    (inserts : TransGen (Inserts step clauses expressions) name other) :
    ∃ expression, expressions.lookup other = some expression := by
  have serves := explore_serves step (sane_opened environment expressions) other
  have alone := insertion.alone other inserts
  rw [Session.compile] at alone
  have known := opened_expression? environment expressions other
  generalize (opened environment expressions).explore step other = explored at serves alone
  have present {member : Member σ} (found : (opened environment expressions).member? other = some member) :
      ∃ expression, expressions.lookup other = some expression := by
    rw [expression?, found] at known
    obtain ⟨expression, listed, _⟩ := Option.map_eq_some_iff.mp known.symm
    exact ⟨expression, listed⟩
  cases serves with
  | unknown absent => cases alone
  | refused found locked => exact present found
  | explored found unlocked leads => exact present found

theorem Insertion.answered (insertion : Insertion step clauses expressions environment calls name)
    (inserts : TransGen (Inserts step clauses expressions) name other) :
    Answered step clauses expressions environment other := by
  have known (node : String) (reached : TransGen (Inserts step clauses expressions) name node) :
      node ∈ expressions.keys := by
    obtain ⟨expression, listed⟩ := insertion.listed reached
    exact Entries.mem_keys_of_lookup listed
  refine induction_below known (fun node reached => insertion.acyclic node reached.to_reflTransGen) ?_ other inserts
  intro node reached below
  obtain ⟨expression, listed⟩ := insertion.listed reached
  have supports : Supports step clauses expressions environment node := {
    confined := fun further _ later => insertion.confined further _ (reached.to_reflTransGen.trans later)
    pure := fun further _ later => insertion.pure further _ (reached.trans_left later)
    acyclic := fun further later => insertion.acyclic further (reached.to_reflTransGen.trans later)
    answered := below }
  have ready : Ready expressions (opened environment expressions) [] := .of_steps .refl
  have nothing : Apart step clauses expressions [] node := fun _ _ => List.not_mem_nil
  have gives := exploreNested_supported _ ready listed supports nothing (Nat.le_refl _)
  have alone : (exploreNested step (opened environment expressions).members.length node
      (opened environment expressions)).1.map Tree.clause = .ok (clauses node) := insertion.alone node reached
  rw [gives.outcome] at alone
  cases explored : (expression.explore (stripped step clauses) environment).outcome with
  | error fault =>
      change ((expression.explore (stripped step clauses) environment).outcome).map Tree.clause = _ at alone
      rw [explored] at alone
      cases alone
  | ok tree =>
      change ((expression.explore (stripped step clauses) environment).outcome).map Tree.clause = _ at alone
      rw [explored] at alone
      exact ⟨expression, tree, listed, explored, Except.ok.inj alone⟩

theorem Insertion.supports {expression : Expression σ}
    (insertion : Insertion step clauses expressions environment calls name)
    (listed : expressions.lookup name = some expression)
    (pure : IsPure (stripped step clauses) fun earlier => expression.start (earlier + 1)) :
    Supports step clauses expressions environment name where
  confined := insertion.confined
  pure other found reached known := by
    rcases reflTransGen_iff_eq_or_transGen.mp reached with rfl | below
    · obtain rfl := Option.some.inj (listed.symm.trans known)
      exact pure
    · exact insertion.pure other found below known
  acyclic := insertion.acyclic
  answered _ reached := insertion.answered reached

theorem Answered.compiles {inner : Session σ} {within : List String} {depth : Nat}
    (answered : Answered step clauses expressions inner.environment name)
    (supports : Supports step clauses expressions inner.environment name) (ready : Ready expressions inner within)
    (apart : Apart step clauses expressions within name) (room : inner.members.length ≤ depth + within.length) :
    Gives inner (.ok (clauses name)) (compileNested step depth name inner) (compileNested step depth name inner) := by
  obtain ⟨expression, tree, listed, explored, clause⟩ := answered
  have gives := exploreNested_supported depth ready listed supports apart room
  rw [explored] at gives
  rw [← clause]
  exact gives.compile

end Support

end Extension.Session
