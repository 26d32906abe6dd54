/-
The graph of a search, read as DOT. Every label shows what it was made from, whatever quotes, backslashes and line
breaks occur in names, keys and values, and so the text falls into the statements that it was meant to have: the
header, a statement a node, a statement a transition, and the end (`lex_toDot`).
-/
import GoalRegression.Proofs.Decimal.Digits
import GoalRegression.Proofs.Dot.Lexer

namespace GoalRegression

namespace Dot

/-! ## Labels -/

theorem Plain.append {a b : List Char} (ha : Plain a) (hb : Plain b) : Plain (a ++ b) :=
  List.forall_mem_append.2 ⟨ha, hb⟩

theorem plain_of_allDigits {chars : List Char} (h : AllDigits chars) : Plain chars := by
  intro c hc
  have hdigit := h c hc
  constructor <;> rintro rfl <;> exact absurd hdigit (by decide)

theorem plain_nat (n : Nat) : Plain (toString n).toList := by
  show Plain n.repr.toList
  rw [Nat.toList_repr]
  exact plain_of_allDigits (allDigits_toDigits n)

/-- Positional text of digits has only those, zeros and a point. -/
theorem plain_layout {layout : Layout} {digits : List Char} (h : AllDigits digits) (last : Int) :
    Plain (layout.plain digits last) := by
  have hzeros (n : Nat) : Plain (List.replicate n '0') := plain_of_allDigits (allDigits_replicate_zero n)
  have hpoint : Plain ['.'] := by decide
  unfold Layout.plain
  dsimp only
  split
  · refine ((plain_of_allDigits h).append (hzeros _)).append ?_
    split <;> decide
  · split
    · exact (plain_of_allDigits (h.take _)).append (hpoint.append (plain_of_allDigits (h.drop _)))
    · exact (show Plain ['0', '.'] by decide).append ((hzeros _).append (plain_of_allDigits h))

theorem plain_display {f : Format} (x : Binary f) : Plain x.display.toList := by
  unfold Binary.display Layout.render
  split
  · decide
  · split <;> decide
  · next negative units _ =>
    have hmagnitude : Plain (if units = 0 then Layout.display.plain ['0'] 0
        else Layout.display.decimal (f.shortest Layout.display.tie units)) := by
      split
      · decide
      · exact plain_layout (Decimal.allDigits_significant _) _
    rw [String.toList_ofList]
    unfold Layout.finite
    dsimp only
    split
    · exact (show Plain ['-'] by decide).append hmagnitude
    · exact hmagnitude

/-- What the label of a node shows. -/
def nodeText (n : Node) : String :=
  s!"Level: {n.level}" ++ "\n" ++ s!"Cost: {n.runningCost.display} + {n.estimate.display}" ++ "\n" ++
    "\n".intercalate (n.state.toList.map fun e => s!"{e.1}: {e.2.display}")

theorem shows_intercalate {a x : String} (hsep : Shows a x) {α : Type} {label text : α → String}
    (h : ∀ item, Shows (label item) (text item)) (items : List α) :
    Shows (a.intercalate (items.map label)) (x.intercalate (items.map text)) := by
  induction items with
  | nil => rfl
  | cons item items ih =>
    cases items with
    | nil => simpa using h item
    | cons next items =>
      simp only [List.map_cons, String.intercalate_cons_cons] at ih ⊢
      exact ((h item).append hsep).append ih

theorem shows_nodeLabel (n : Node) : Shows (nodeLabel n) (nodeText n) := by
  have hlevel : Shows s!"Level: {n.level}" s!"Level: {n.level}" :=
    (shows_plain (by decide)).append (shows_plain (plain_nat _))
  have hcost : Shows s!"Cost: {n.runningCost.display} + {n.estimate.display}"
      s!"Cost: {n.runningCost.display} + {n.estimate.display}" :=
    (((shows_plain (by decide)).append (shows_plain (plain_display _))).append (shows_plain (by decide))).append
      (shows_plain (plain_display _))
  have hstate := shows_intercalate shows_lineBreak
    (fun e : String × Value => shows_escape s!"{e.1}: {e.2.display}") n.state.toList
  exact (((hlevel.append shows_lineBreak).append hcost).append shows_lineBreak).append hstate

/-! ## Statements -/

/-- A statement: what it is about, and the attributes it gives to that. -/
structure Statement where
  subject : List Token
  attributes : List (String × Token)

namespace Statement

def settingTokens (setting : String × Token) : List Token := [.word setting.1, .mark '=', setting.2]

/-- The attributes stand in brackets, if there are any, and commas between them. -/
def bracketed : List (String × Token) → List Token
  | [] => []
  | first :: rest =>
    .mark '[' :: settingTokens first ++ rest.flatMap (fun next => .mark ',' :: settingTokens next) ++ [.mark ']']

def tokens (s : Statement) : List Token := s.subject ++ bracketed s.attributes ++ [.mark ';']

/-- The word of a node. -/
def nodeWord (index : Nat) : Token := .word s!"n{index}"

/-- The graph is laid out from left to right. -/
def layout : Statement := ⟨settingTokens ("rankdir", .word "LR"), []⟩

def nodeDefaults : Statement :=
  ⟨[.word "node"], [("shape", .word "box"), ("style", .word "filled"), ("fillcolor", .word "lightblue")]⟩

def edgeDefaults : Statement := ⟨[.word "edge"], [("fontsize", .word "10")]⟩

/-- What holds of the whole graph. -/
def defaults : List Statement := [layout, nodeDefaults, edgeDefaults]

def ofNode (index : Nat) (n : Node) : Statement :=
  ⟨[nodeWord index],
   ("label", .quoted (nodeLabel n)) :: if index = 0 then [("fillcolor", .word "lightpink")] else []⟩

def ofEdge (edge : TreeEdge) : Statement :=
  ⟨[nodeWord edge.source.index, .arrow, nodeWord edge.target.index], [("label", .quoted (escape edge.action.name))]⟩

end Statement

theorem leads_header :
    Leads .between (String.join header) .between
      ([.word "digraph", .word "SearchTree", .mark '\x7b'] ++ Statement.defaults.flatMap Statement.tokens) := by
  have hopen : Leads .between "digraph SearchTree \x7b\n" .between
      [.word "digraph", .word "SearchTree", .mark '\x7b'] := by decide +kernel
  have hlayout : Leads .between "    rankdir=LR;\n" .between Statement.layout.tokens := by decide +kernel
  have hnodes : Leads .between "    node [shape=box, style=filled, fillcolor=lightblue];\n" .between
      Statement.nodeDefaults.tokens := by decide +kernel
  have hedges : Leads .between "    edge [fontsize=10];\n" .between Statement.edgeDefaults.tokens := by decide +kernel
  simp only [header, String.join_cons]
  exact hopen.append (hlayout.append (hnodes.append (hedges.append (leads_empty _))))

/-- The number of a node goes on with the word that its letter began. -/
theorem leads_index (index : Nat) : Leads (.word ['n']) (toString index) (.word (s!"n{index}").toList) [] := by
  have hword : ∀ c ∈ (toString index).toList, isWordChar c = true := by
    intro c hc
    have hdigit : c.isDigit = true := allDigits_toDigits index c (Nat.toList_repr ▸ hc)
    simp [isWordChar, Char.isAlphanum, hdigit]
  rw [String.toList_append]
  exact leads_word hword

/-- A word ends where the label of what it names begins. -/
theorem leads_open (name : String) :
    Leads (.word name.toList) " [label=\"" (.quoted []) [.word name, .mark '[', .word "label", .mark '='] :=
  leads_of_word (fun _ => by rfl) name

/-- A word ends where a transition from what it names begins. -/
theorem leads_arrow (name : String) : Leads (.word name.toList) " -> n" (.word ['n']) [.word name, .arrow] :=
  leads_of_word (fun _ => by rfl) name

/-- A line with a label in it that shows a text. -/
theorem leads_labelled {front label text close : String} {before after : List Token}
    (hfront : Leads .between front (.quoted []) before) (h : Shows label text)
    (hclose : ∀ read, Leads (.quoted read) close .between (.quoted (String.ofList read) :: after)) :
    Leads .between (front ++ label ++ close) .between (before ++ .quoted label :: after) := by
  have hline := (hfront.append (h.leads [])).append (leads_of_quoted hclose label)
  rwa [List.append_nil] at hline

theorem leads_nodeLine (index : Nat) (n : Node) :
    Leads .between (nodeLine index n) .between (Statement.ofNode index n).tokens := by
  have hindent : Leads .between "    n" (.word ['n']) [] := by decide +kernel
  have hfront := (hindent.append (leads_index index)).append (leads_open _)
  unfold nodeLine Statement.ofNode
  dsimp only
  by_cases hindex : index = 0
  · rw [if_pos hindex, if_pos hindex]
    exact leads_labelled hfront (shows_nodeLabel n) fun _ => rfl
  · rw [if_neg hindex, if_neg hindex]
    exact leads_labelled hfront (shows_nodeLabel n) fun _ => rfl

theorem leads_edgeLine (edge : TreeEdge) : Leads .between (edgeLine edge) .between (Statement.ofEdge edge).tokens := by
  have hindent : Leads .between "    n" (.word ['n']) [] := by decide +kernel
  have hsource := (hindent.append (leads_index edge.source.index)).append (leads_arrow _)
  have hfront := (hsource.append (leads_index edge.target.index)).append (leads_open _)
  exact leads_labelled hfront (shows_escape edge.action.name) fun _ => rfl

end Dot

namespace SearchTree

/-- The statements of the graph, the nodes and the transitions in their order. -/
def dotStatements (tree : SearchTree) : List Dot.Statement :=
  Dot.Statement.defaults ++ tree.nodes.toList.mapIdx Dot.Statement.ofNode ++ tree.edges.toList.map Dot.Statement.ofEdge

/-- A text is escaped by replacing its backslashes and then its quotes. Escaped it shows the text, and from inside a
quoted label it is read to its end: no quote in it ends the label, and it does not end inside an escape. So the text of
a graph is read as a graph, in which the header, the nodes and the transitions have their statements in this order, and
nothing else has one. The label of a node shows its level, its costs and what is owed, and the label of a transition the
name of its action. -/
theorem lex_toDot (tree : SearchTree) :
    (∀ text : String,
      (Dot.escape text).toList = Dot.substitute '"' ['\\', '"'] (Dot.substitute '\\' ['\\', '\\'] text.toList) ∧
      Dot.unescape (Dot.escape text).toList = some text.toList ∧
      ∀ read, (Dot.Mode.quoted read).run (Dot.escape text).toList =
        some (.quoted (read ++ (Dot.escape text).toList), [])) ∧
    Dot.lex tree.toDot = some ([.word "digraph", .word "SearchTree", .mark '\x7b'] ++
      tree.dotStatements.flatMap Dot.Statement.tokens ++ [.mark '\x7d']) ∧
    (∀ n ∈ tree.nodes.toList, Dot.unescape (Dot.nodeLabel n).toList = some (Dot.nodeText n).toList) ∧
    ∀ edge ∈ tree.edges.toList, Dot.unescape (Dot.escape edge.action.name).toList = some edge.action.name.toList := by
  refine ⟨fun text => ⟨Dot.toList_escape_eq_substitute text, Dot.shows_escape text, (Dot.shows_escape text).leads⟩, ?_,
    fun n _ => Dot.shows_nodeLabel n, fun edge _ => Dot.shows_escape _⟩
  have hnodes := Dot.leads_join (fun node : Node × Nat => Dot.leads_nodeLine node.2 node.1) tree.nodes.toList.zipIdx
  have hedges := Dot.leads_join Dot.leads_edgeLine tree.edges.toList
  have hend : Dot.Leads .between "\x7d\n" .between [.mark '\x7d'] := by decide +kernel
  have htext : tree.toDot = String.join Dot.header ++
      String.join (tree.nodes.toList.zipIdx.map fun node => Dot.nodeLine node.2 node.1) ++
      String.join (tree.edges.toList.map Dot.edgeLine) ++ "\x7d\n" := by
    rw [toDot, dotLines, List.mapIdx_eq_zipIdx_map, String.join_append, String.join_append, String.join_append]
    rfl
  have hlex := Dot.lex_eq (((Dot.leads_header.append hnodes).append hedges).append hend)
  rw [htext, hlex, dotStatements, List.mapIdx_eq_zipIdx_map]
  simp only [List.flatMap_append, List.flatMap_map, List.append_assoc]

end SearchTree

end GoalRegression
