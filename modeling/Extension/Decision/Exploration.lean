import Extension.Decision.Pass
import Extension.Decision.Repetition

namespace Extension.Decision

/-! Running a rule until its tree is resolved.

The first pass answers every test with false.  Each test that a pass discovers queues the assignment that
also answers this test with true, so that every combination of answers that the rule can tell apart is
run once.

A rule is given by its states and by what it does in each of them.  It may behave differently from call
to call, and may remember what it was answered before: it starts in a state that depends on the passes that
have ended.
-/

inductive Move (σ : Type) where
  | read (test : Test) (next : Bool → σ)
  | finish (value : Value)
  | raise (fault : Fault)

structure PassRecord where
  assignment : Nat
  transcript : List (String × Bool)
  result : Bool
  discovered : List Atom
deriving DecidableEq, Repr, Inhabited

structure Exploration where
  tree : Tree := .empty
  queue : List Nat := [0]
  records : List PassRecord := []
  fault : Option Fault := none

instance : Inhabited Exploration := ⟨{}⟩

def branchingAssignments (assignment : Nat) (discovered : List Atom) : List Nat :=
  discovered.map fun atom => assignment ||| (1 <<< atom.depth.toNat)

namespace Exploration

def isBusy (exploration : Exploration) : Bool :=
  exploration.fault.isNone && !exploration.queue.isEmpty

def begun (exploration : Exploration) : Nat :=
  exploration.records.length + if exploration.fault.isSome then 1 else 0

def record (exploration : Exploration) (queue : List Nat) (assignment : Nat) (tree : Tree) (pass : Pass)
    (result : Bool) : Exploration :=
  { exploration with
    tree
    queue := queue ++ branchingAssignments assignment pass.discovered
    records := exploration.records ++
      [{ assignment, transcript := pass.transcript, result, discovered := pass.discovered }] }

def outcome (exploration : Exploration) : Except Fault Tree :=
  match exploration.fault with
  | some fault => .error fault
  | none => .ok exploration.tree

end Exploration

variable {σ : Type} (step : σ → Move σ)

/-- Runs a rule from one of its states to its end.  No more than `budget` tests succeed, since each of them
lies deeper than the one before. -/
def runPass (budget : Nat) (state : σ) (tree : Tree) (pass : Pass) : Except Fault (Tree × Pass × Bool) :=
  match step state with
  | .raise fault => .error fault
  | .finish value =>
      match pass.resolve tree value.truthy with
      | .error fault => .error fault
      | .ok tree => .ok (tree, pass, value.truthy)
  | .read test next =>
      match pass.read tree test with
      | .error fault => .error fault
      | .ok answered =>
          match budget with
          | 0 => .error (.tooDeep test.text pass.nextDepth pass.capacity)
          | budget + 1 => runPass budget (next answered.answer) answered.tree answered.pass

/-- Runs the pass for the first assignment in the queue. -/
def advance (start : List PassRecord → σ) (capacity : Nat) (exploration : Exploration) : Exploration :=
  match exploration.queue with
  | [] => exploration
  | assignment :: queue =>
      let pass : Pass := { assignment, capacity }
      match runPass step capacity (start exploration.records) exploration.tree pass with
      | .error fault => { exploration with fault := some fault }
      | .ok (tree, pass, result) => exploration.record queue assignment tree pass result

/-- Explores a rule whose calls start in a state that depends on the passes before. -/
def exploreFrom (start : List PassRecord → σ) (capacity : Nat) : Exploration :=
  settle Exploration.isBusy (advance step start capacity) (capacity + 1) 0 {}

/-- Explores a rule that has been called `calls` times before, and remembers no more than that. -/
def explore (start : Nat → σ) (capacity calls : Nat) : Exploration :=
  exploreFrom step (fun records => start (calls + records.length + 1)) capacity

end Extension.Decision
