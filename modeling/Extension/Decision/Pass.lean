import Extension.Decision.Test
import Extension.Decision.Tree

namespace Extension.Decision

/-! One pass: one run of a rule with forced answers.

A pass stands at a position of a tree.  Its tests move it on: the test that is `n`-th on its path is
answered by bit `n` of the assignment.  A test at an unresolved position becomes a node of the tree; at
a node the test has to be the one that is recorded there.  Several passes may share a tree.
-/

structure Pass where
  assignment : Int
  capacity : Int
  transcript : List (String × Bool) := []
  active : Bool := true
  /-- The tests that this pass added to the tree. -/
  discovered : List Atom := []
deriving DecidableEq, Repr, Inhabited

structure Answered where
  tree : Tree
  pass : Pass
  answer : Bool
deriving DecidableEq, Repr, Inhabited

/-- The bit of an assignment.  Negative numbers have infinitely many leading ones. -/
def bit (assignment : Int) (depth : Nat) : Bool :=
  (assignment >>> depth) % 2 = 1

namespace Pass

def answers (pass : Pass) : List Bool :=
  pass.transcript.map Prod.snd

def nextDepth (pass : Pass) : Nat :=
  pass.transcript.length + 1

def advance (pass : Pass) (text : String) : Pass × Bool :=
  let answer := bit pass.assignment pass.nextDepth
  ({ pass with transcript := pass.transcript ++ [(text, answer)] }, answer)

def read (pass : Pass) (tree : Tree) (test : Test) : Except Fault Answered :=
  if pass.active then
    let depth := pass.nextDepth
    match tree.at? pass.answers with
    | some (.node atom _ _) =>
        if atom.text = test.text then
          let (pass, answer) := pass.advance test.text
          .ok { tree, pass, answer }
        else .error (.readOther test.text atom.text atom.depth)
    | some (.result value) => .error (.readAfterResult test.text value depth)
    | some .unresolved | none =>
        if pass.capacity < depth then .error (.tooDeep test.text depth pass.capacity)
        else
          let atom := { text := test.text, depth, key := test.key }
          let grown := tree.put pass.answers (.node atom .unresolved .unresolved)
          let (moved, answer) := pass.advance test.text
          .ok { tree := grown, pass := { moved with discovered := moved.discovered ++ [atom] }, answer }
  else .error (.passOver test.text)

/-- Stores the result of the rule where the pass stands. -/
def resolve (pass : Pass) (tree : Tree) (result : Bool) : Except Fault Tree :=
  match tree.at? pass.answers with
  | some (.node atom _ _) => .error (.returnedEarly atom.text atom.depth)
  | some (.result existing) =>
      if existing = result then .ok tree
      else
        let last := tree.atomBefore pass.answers
        .error (.returnedOther result existing last.text last.depth)
  | some .unresolved | none => .ok (tree.put pass.answers (.result result))

def close (pass : Pass) : Pass :=
  { pass with active := false }

end Pass

end Extension.Decision
