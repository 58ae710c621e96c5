import Extension.Proofs.Session.Inserted

namespace Extension.Session

open Decision Relation

/-! Compiles inside a rule make no difference to it.

Whatever has been compiled before, and whatever is in progress, an expression is explored as it would be by itself if
its rule did not compile anything.
-/

variable {σ : Type}

/-- Apart from its compiles, the rule of the expression cannot be told from the pure rule of the plain one. -/
structure Restores {τ : Type} (step : σ → Stretch σ) (clauses : String → String) (plainStep : τ → Move τ)
    (expression : Expression σ) (plain : Expression τ) : Prop where
  settings : plain.settings = expression.settings
  pure : IsPure plainStep fun earlier => plain.start (earlier + 1)
  same : ∀ earlier answers,
    deed? (stripped step clauses) (expression.start (earlier + 1)) answers = deed? plainStep (plain.start 1) answers

/-- What exploring and compiling an expression comes to in a session, compared to the plain one by itself. -/
structure Transparent {τ : Type} (step : σ → Stretch σ) (clauses : String → String) (plainStep : τ → Move τ)
    (plain : Expression τ) (session : Session σ) (depth : Nat) (name : String) : Prop where
  tree : (exploreNested step (depth + 1) name session).1 = (plain.explore plainStep session.environment).outcome
  clause : (compileNested step (depth + 1) name session).1 = plain.compile plainStep session.environment
  passes : ∀ tree, (plain.explore plainStep session.environment).outcome = .ok tree →
    (exploreNested step (depth + 1) name session).2.passes? name =
      some (plain.explore plainStep session.environment).expression.passes
  kept : ∀ fault, (plain.explore plainStep session.environment).outcome = .error fault →
    (exploreNested step (depth + 1) name session).2.passes? name = session.passes? name
  /-- Only compiles that give these clauses are made on the way: what others would give makes no difference. -/
  answers : ∀ other : String → Session σ → Reached σ String,
    (∀ asked inner, (compileNested step depth asked inner).1 = .ok (clauses asked) →
      other asked inner = compileNested step depth asked inner) →
    exploreWith step other name session = exploreNested step (depth + 1) name session
  spares : Spares session (exploreNested step (depth + 1) name session).2
  frames : (exploreNested step (depth + 1) name session).2.frames = session.frames

section Transparency

variable {step : σ → Stretch σ} {clauses : String → String} {expressions : Entries (Expression σ)}
variable {name : String} {session : Session σ} {calls : List String}

theorem Restores.outcome {τ : Type} {plainStep : τ → Move τ} {expression : Expression σ} {plain : Expression τ}
    (restores : Restores step clauses plainStep expression plain) (environment : Environment) :
    (expression.explore (stripped step clauses) environment).outcome = (plain.explore plainStep environment).outcome :=
  Expression.explore_congr restores.settings fun earlier later answers =>
    (restores.same earlier answers).trans (restores.pure 0 later answers)

/-- At every moment of a session, an expression into whose rule compiles have been inserted is compiled as it would be
without them, and each of these compiles gives the clause that its expression has alone.  Explorations are nested no
deeper than there are expressions. -/
theorem inserted_compiles_transparent {τ : Type} {plainStep : τ → Move τ} {plain : Expression τ} {start : Environment}
    {depth : Nat} {expression : Expression σ}
    (steps : Steps (idle (opened start expressions)) ⟨session, calls, .call name⟩)
    (listed : expressions.lookup name = some expression)
    (insertion : Insertion step clauses expressions session.environment calls name)
    (restores : Restores step clauses plainStep expression plain)
    (room : expressions.length ≤ depth + 1 + calls.length) :
    Transparent step clauses plainStep plain session depth name ∧
    ∀ asked inner within deep, TransGen (Inserts step clauses expressions) name asked →
      Steps (idle (opened start expressions)) ⟨inner, within, .call asked⟩ → inner.environment = session.environment →
      Apart step clauses expressions within asked → expressions.length ≤ deep + within.length →
        (compileNested step deep asked inner).1 = .ok (clauses asked) := by
  have ready : Ready expressions session calls := .of_steps steps
  have length {inner : Session σ} {within : List String} {control : Control}
      (steps : Steps (idle (opened start expressions)) ⟨inner, within, control⟩) :
      inner.members.length = expressions.length := by
    rw [steps.members_length]
    exact List.length_map _
  have pure : IsPure (stripped step clauses) fun earlier => expression.start (earlier + 1) :=
    fun first second answers => (restores.same first answers).trans (restores.same second answers).symm
  have supports := insertion.supports listed pure
  have gives (other : String → Session σ → Reached σ String)
      (agrees : ∀ asked inner, (compileNested step depth asked inner).1 = .ok (clauses asked) →
        other asked inner = compileNested step depth asked inner) :
      Gives session (plain.explore plainStep session.environment).outcome (exploreNested step (depth + 1) name session)
        (exploreWith step other name session) := by
    rw [← restores.outcome]
    refine exploreWith_supported ready listed supports insertion.apart fun asked inner inserts within same count => ?_
    have answered := insertion.answered (.single inserts)
    have below := supports.below (.single inserts)
    rw [← same] at answered below
    have deeper : inner.members.length ≤ depth + (name :: calls).length := by
      rw [count, length steps, List.length_cons]
      omega
    have compiled := answered.compiles below within (supports.apart insertion.apart inserts) deeper
    rw [agrees asked inner compiled.outcome]
    exact compiled
  have itself := gives (compileNested step depth) fun _ _ _ => rfl
  refine ⟨?_, fun asked inner within deep inserts reached same apart enough => ?_⟩
  · have counted : (exploreNested step (depth + 1) name session).2.passes? name =
        countAfter (session.passes? name) (plain.explore plainStep session.environment).outcome := by
      have sane := steps.sane (sane_opened start expressions)
      rw [← itself.outcome]
      exact (exploreNested_serves step (depth + 1) name sane (by rw [length steps]; exact room)).counted sane
    exact {
      tree := itself.outcome
      clause := by rw [compileNested, Expression.compile_eq, ← itself.outcome]
      passes := fun tree ok => by
        rw [counted, ok, Expression.passes_eq_leaves plainStep ok]
        rfl
      kept := fun fault error => by rw [counted, error]; rfl
      answers := fun other agrees => (gives other agrees).same
      spares := itself.spares
      frames := itself.frames }
  · have answered := insertion.answered inserts
    have below := supports.below inserts
    rw [← same] at answered below
    exact (answered.compiles below (.of_steps reached) apart (by rw [length reached]; exact enough)).outcome

end Transparency

/-- Expressions of which the first compiles the second before its first test, and the second the third. -/
def nestingRule : String → Rule
  | "f" => .any [.inOrder [.compile "g", keyRule "a"], keyRule "b"]
  | "g" => .all [keyRule "c", .inOrder [.compile "h", keyRule "d"]]
  | "h" => keyRule "e"
  | "outer" => .compile "f"
  | _ => .inOrder [.compile "g", .raise ⟨.value, "broken"⟩]

def nesting : Entries (Expression Script) :=
  ["f", "g", "h", "outer", "broken"].map fun name => (name, .ofRule name (nestingRule name) (some twoAtoms))

def nestingClause (name : String) : String :=
  let tree : Tree := match name with
    | "g" => { onTrue := .node ⟨"c", 1, "c"⟩ (.node ⟨"d", 2, "d"⟩ (.result true) (.result false)) (.result false) }
    | _ => { onTrue := .node ⟨"e", 1, "e"⟩ (.result true) (.result false) }
  tree.clause

/-- One of the expressions has failed, and another one is in progress. -/
def waiting : Session Script :=
  ((((opened [] nesting).performAll Script.stretch [.compile "broken"]).lock "outer").push "outer" 2).openPass 0

theorem waiting_steps (name : String) : Steps (idle (opened [] nesting)) ⟨waiting, ["outer"], .call name⟩ := by
  have failed := performAll_steps Script.stretch (sane_opened [] nesting) [.compile "broken"]
  have asked := failed.tail (.ask "outer")
  have entered := asked.tail (.enter rfl rfl)
  have loaded := entered.tail (.load rfl rfl)
  have begun := loaded.tail (.begin rfl rfl)
  exact begun.tail (.ask name)

theorem first_inserted (earlier : Nat) :
    Inserted ["g"] ((nestingRule "f").start (earlier + 1)) ((Rule.any [keyRule "a", keyRule "b"]).start 1) := by
  refine .compile (List.mem_singleton_self _) fun clause => .read fun answer => ?_
  cases answer with
  | true => exact .finish _
  | false =>
      refine .read fun answer => ?_
      cases answer <;> exact .finish _

theorem second_inserted (earlier : Nat) :
    Inserted ["h"] ((nestingRule "g").start (earlier + 1)) ((Rule.all [keyRule "c", keyRule "d"]).start 1) := by
  refine .read fun answer => ?_
  cases answer with
  | false => exact .finish _
  | true =>
      refine .compile (List.mem_singleton_self _) fun clause => .read fun answer => ?_
      cases answer <;> exact .finish _

theorem nesting_layered :
    Layered nesting ["f", "g", "h"] fun name => if name = "f" then 2 else if name = "g" then 1 else 0 := by
  refine ⟨fun name member => ?_⟩
  simp only [List.mem_cons, List.not_mem_nil, or_false] at member
  rcases member with rfl | rfl | rfl
  · exact ⟨_, ["g"], _, rfl, by decide, first_inserted⟩
  · exact ⟨_, ["h"], _, rfl, by decide, second_inserted⟩
  · exact ⟨_, [], (keyRule "e").start 1, rfl, by decide, fun earlier => .read fun answer => .finish _⟩

theorem nesting_insertion : Insertion Script.stretch nestingClause nesting waiting.environment ["outer"] "f" := by
  refine nesting_layered.insertion (List.mem_cons_self ..) (by decide) fun other member lower => ?_
  simp only [List.mem_cons, List.not_mem_nil, or_false] at member
  rcases member with rfl | rfl | rfl
  · exact absurd lower (Nat.lt_irrefl _)
  · rfl
  · rfl

theorem nesting_transparent :
    Transparent Script.stretch nestingClause Script.move (Expression.disjunction 2 (by decide)) waiting 3 "f" ∧
    (exploreNested Script.stretch 4 "f" waiting).2.passes? "f" = some 3 ∧
    (compileNested Script.stretch 4 "h" waiting).1 = .ok (nestingClause "h") := by
  have restores : Restores Script.stretch nestingClause Script.move (.ofRule "f" (nestingRule "f") (some twoAtoms))
      (Expression.disjunction 2 (by decide)) :=
    ⟨rfl, fun _ _ _ => rfl, fun earlier answers => (first_inserted earlier).deed?_eq answers⟩
  have room : nesting.length ≤ 3 + 1 + ["outer"].length := by decide
  have transparent := inserted_compiles_transparent (waiting_steps "f") rfl nesting_insertion restores room
  have second : Inserts Script.stretch nestingClause nesting "f" "g" :=
    ⟨_, 0, [], _, rfl, .nil, List.mem_cons_self ..⟩
  have third : Inserts Script.stretch nestingClause nesting "g" "h" :=
    ⟨_, 0, _, _, rfl, @Reads.cons _ _ _ _ _ _ true _ rfl .nil, List.mem_cons_self ..⟩
  have below : TransGen (Inserts Script.stretch nestingClause nesting) "f" "h" := .tail (.single second) third
  have apart : Apart Script.stretch nestingClause nesting ["outer"] "h" := fun other reached =>
    nesting_insertion.apart other (below.to_reflTransGen.trans reached)
  refine ⟨transparent.1, transparent.1.passes _ rfl, ?_⟩
  exact transparent.2 "h" waiting ["outer"] 4 below (waiting_steps "h") rfl apart (by decide)

end Extension.Session
