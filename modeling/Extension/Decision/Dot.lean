import Extension.Decision.Clauses
import Extension.Decision.Graph

namespace Extension.Decision

/-! Trees as diagrams in the DOT language.

A diagram has a line for each node and one for each resolved side of a node.  The detailed kind also shows
the depth of each node, and the clauses of the tree as its caption.
-/

inductive DotMode where
  | simple
  | detailed
deriving DecidableEq, Repr

namespace Dot

def escapeChar (c : Char) : List Char :=
  if c = '\\' then ['\\', '\\']
  else if c = '"' then ['\\', '"']
  else if c = '\n' then ['\\', 'n']
  else [c]

/-- A label: backslashes, quotes and line ends are escaped. -/
def label (text : String) : String :=
  String.ofList ('"' :: text.toList.flatMap escapeChar ++ ['"'])

def header : List String :=
  ["digraph when \x7b",
    "  rankdir=TB;",
    "  node [shape=box, style=filled, fillcolor=lightblue];",
    "  ROOT [shape=ellipse, fillcolor=lightgrey, label=\"when\"];",
    "  TRUE [shape=ellipse, fillcolor=lightgreen, label=\"true\"];",
    "  FALSE [shape=ellipse, fillcolor=salmon, label=\"false\"];"]

def nodeName (place : Nat) : String :=
  s!"n{place + 1}"

def nodeLine (mode : DotMode) (place : Nat) (atom : Atom) : String :=
  let text := match mode with
    | .simple => atom.text
    | .detailed => s!"{atom.text}\ndepth {atom.depth}"
  s!"  {nodeName place} [label={label text}];"

def targetName? (name : Nat → String) : Target → Option String
  | .unresolved => none
  | .result value => some (if value then "TRUE" else "FALSE")
  | .row index => some (name index)

/-- The edge to one side.  Below a node of depth zero an edge carries no label. -/
def edgeLine (source : String) (depth : Int) (outcome : Bool) (target : String) : String :=
  if depth = 0 then s!"  {source} -> {target};"
  else
    let (word, style) := if outcome then ("true", "solid") else ("false", "dashed")
    s!"  {source} -> {target} [label=\"{word}\", style={style}];"

def edgeLines (name : Nat → String) (source : String) (depth : Int) (onTrue onFalse : Target) : List String :=
  [(true, onTrue), (false, onFalse)].filterMap fun (outcome, target) =>
    (targetName? name target).map (edgeLine source depth outcome)

def captionLine (clauses : List String) : String :=
  let caption := if clauses.isEmpty then "(never true)" else "\n".intercalate clauses
  s!"  label={label caption};"

/-- Draws the rows that a walk meets.  A row that is met more than once goes by its last name. -/
def draw (mode : DotMode) (graph : Graph) (walked : List Nat) (clauses : List String) : String :=
  let met := walked.filterMap fun index => (graph.rows[index]?).map (index, ·)
  let places := (met.zipIdx.map fun ((index, _), place) => (index, place)).reverse
  let name := fun index => nodeName ((places.lookup index).getD 0)
  let nodeLines := met.zipIdx.map fun ((_, row), place) => nodeLine mode place row.atom
  let edges := met.flatMap fun (index, row) =>
    edgeLines name (name index) row.atom.depth row.onTrue row.onFalse
  let caption := match mode with
    | .simple => []
    | .detailed => [captionLine clauses]
  "\n".intercalate
    (header ++ nodeLines ++ edgeLines name "ROOT" 0 graph.onTrue graph.onFalse ++ edges ++ caption ++ ["\x7d"])

end Dot

def Tree.dot (mode : DotMode) (tree : Tree) : String :=
  let graph := tree.graph
  Dot.draw mode graph (List.range graph.rows.length) tree.clauses

/-- The diagram of a table, in which a shared node is drawn once for each path to it. -/
def Graph.dot (mode : DotMode) (graph : Graph) : String :=
  Dot.draw mode graph graph.occurrences graph.tree.clauses

end Extension.Decision
