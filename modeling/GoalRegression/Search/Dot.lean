/-
The record of a search as a directed graph in the DOT language. Labels are quoted; backslashes and quotes
that come from names, keys and values are escaped, and the lines of a label are parted by an escaped line
break.
-/
import GoalRegression.Search.Tree
import GoalRegression.Sink.Basic

namespace GoalRegression

namespace Dot

/-- A character as it stands in a quoted label. -/
def escapedChar (c : Char) : List Char :=
  match c with
  | '\\' => ['\\', '\\']
  | '"' => ['\\', '"']
  | c => [c]

def escape (text : String) : String := String.ofList (text.toList.flatMap escapedChar)

def lineBreak : String := "\\n"

def stateLabel (s : State) : String :=
  lineBreak.intercalate (s.toList.map fun e => escape s!"{e.1}: {e.2.display}")

def header : List String :=
  ["digraph SearchTree \x7b\n",
   "    rankdir=LR;\n",
   "    node [shape=box, style=filled, fillcolor=lightblue];\n",
   "    edge [fontsize=10];\n"]

/-- The label of a node: its level, its costs, and what is owed. -/
def nodeLabel (n : Node) : String :=
  s!"Level: {n.level}" ++ lineBreak ++
    s!"Cost: {n.runningCost.display} + {n.estimate.display}" ++ lineBreak ++ stateLabel n.state

/-- The line of the node at a position; the first node stands out. -/
def nodeLine (index : Nat) (n : Node) : String :=
  let fill := if index = 0 then ", fillcolor=lightpink" else ""
  s!"    n{index} [label=\"" ++ nodeLabel n ++ s!"\"{fill}];\n"

def edgeLine (edge : TreeEdge) : String :=
  s!"    n{edge.source.index} -> n{edge.target.index} [label=\"" ++ escape edge.action.name ++ "\"];\n"

end Dot

namespace SearchTree

/-- The lines of the graph: the header, the nodes, the transitions, and the end. -/
def dotLines (tree : SearchTree) : List String :=
  Dot.header ++ tree.nodes.toList.mapIdx Dot.nodeLine ++ tree.edges.toList.map Dot.edgeLine ++ ["\x7d\n"]

def toDot (tree : SearchTree) : String := String.join tree.dotLines

/-- Writes the graph into a sink, a line at a time. -/
def writeDot (tree : SearchTree) (sink : Sink) : Sink × Except PlanningError Unit :=
  let (sink, result) := sink.writeAll (tree.dotLines.map fun line => line.toUTF8.toList)
  (sink, result.mapError .io)

end SearchTree

end GoalRegression
