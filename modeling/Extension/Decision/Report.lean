import Extension.Decision.Clauses
import Extension.Decision.Walk
import Extension.Number.Numeric
import Extension.Text.Quoted
import Extension.Value.Text

namespace Extension.Decision

open Number

/-! What there is to say about an explored tree. -/

structure Report where
  clause : String
  passes : Nat
  atomCount : Nat
  distinctAtoms : List String
  contextKeys : List String
  keyUsage : List (String × Nat)
  maxDepth : Int
  maxAtoms : Nat
  trueLeaves : Nat
  falseLeaves : Nat
  clauseCount : Nat
  longestClause : Nat
  alwaysTrue : Bool
  alwaysFalse : Bool
  warnings : List String
deriving DecidableEq, Repr, Inhabited

/-- How often each text occurs, in the order of first occurrences. -/
def tally (texts : List String) : List (String × Nat) :=
  texts.eraseDups.map fun text => (text, texts.count text)

def textBefore (left right : String) : Bool :=
  !(right < left)

/-- Three quarters of the capacity as a double, from which on a path counts as close to it.  A capacity
beyond the range of doubles has none. -/
def capacityMark? (maxAtoms : Nat) : Option Binary64 :=
  match (Binary64.ofInt maxAtoms).quotient? with
  | some (num, den) => some (.ofQuotient false (3 * num.toNat) (4 * den))
  | none => none

def depthsOf (atoms : List Atom) (text : String) : List Int :=
  ((atoms.filter (·.text = text)).map Atom.depth).eraseDups.mergeSort

/-- One warning for each test that stands at several depths, in the order of the texts. -/
def depthWarnings (atoms : List Atom) : List String :=
  let repeated := (tally (atoms.map Atom.text)).filter fun (_, count) => 1 < count
  ((repeated.map Prod.fst).mergeSort textBefore).filterMap fun text =>
    let depths := depthsOf atoms text
    if 1 < depths.length then
      some (s!"Predicate {Text.quoted text} is read at several depths: " ++
        (Value.list (depths.map Value.int)).quoted)
    else none

/-- The report on a tree; there is none if the capacity is too large for its mark to be computed. -/
def Tree.report? (tree : Tree) (maxAtoms passes : Nat) : Option Report := do
  let mark ← capacityMark? maxAtoms
  let atoms := tree.atoms
  let leaves := tree.leaves
  let trueLeaves := leaves.count true
  let falseLeaves := leaves.length - trueLeaves
  let alwaysFalse := trueLeaves == 0
  let alwaysTrue := falseLeaves == 0 && 0 < trueLeaves
  let maxDepth := tree.maxDepth
  let warnings :=
    (if alwaysFalse then ["Expression is never true; the compiled clause is empty"] else []) ++
    (if alwaysTrue then ["Expression is always true; the compiled clause is 'true'"] else []) ++
    (if (Numeric.int maxDepth).less (.double mark) then []
      else [s!"Deepest path reads {maxDepth} of {maxAtoms} allowed predicates"]) ++
    depthWarnings atoms
  return {
    clause := tree.clause
    passes
    atomCount := atoms.length
    distinctAtoms := tree.atomTexts
    contextKeys := tree.contextKeys
    keyUsage := tally (atoms.map Atom.key)
    maxDepth
    maxAtoms
    trueLeaves
    falseLeaves
    clauseCount := tree.clauses.length
    longestClause := (tree.clauses.map String.length).max?.getD 0
    alwaysTrue
    alwaysFalse
    warnings := warnings.eraseDups }

end Extension.Decision
