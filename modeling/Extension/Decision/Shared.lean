import Extension.Decision.Pass

namespace Extension.Decision

/-! Several passes over one tree.

Passes are numbered in the order in which they are opened.  Each operation concerns one of them, and an
operation that fails leaves the tree and all passes as they were.
-/

structure Shared where
  tree : Tree := .empty
  passes : List Pass := []
deriving DecidableEq, Repr, Inhabited

namespace Shared

def openPass (shared : Shared) (assignment capacity : Int) : Nat × Shared :=
  (shared.passes.length, { shared with passes := shared.passes ++ [{ assignment, capacity }] })

def read (shared : Shared) (number : Nat) (test : Test) : Except Fault (Bool × Shared) :=
  match (shared.passes.getD number default).read shared.tree test with
  | .error fault => .error fault
  | .ok answered =>
      .ok (answered.answer, { tree := answered.tree, passes := shared.passes.set number answered.pass })

/-- Ends the rule of a pass with a result.  The pass stays where it is. -/
def resolve (shared : Shared) (number : Nat) (result : Bool) : Except Fault Shared :=
  match (shared.passes.getD number default).resolve shared.tree result with
  | .error fault => .error fault
  | .ok tree => .ok { shared with tree }

def closePass (shared : Shared) (number : Nat) : Shared :=
  { shared with passes := shared.passes.modify number Pass.close }

end Shared

end Extension.Decision
