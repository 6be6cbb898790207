import PixelBrush.Proofs.ParserSoundness
import PixelBrush.Proofs.TokenPlaces

namespace PixelBrush

/-!
# Nodes in source order

The nodes of a program can be listed in the order in which their tokens stand:
an instruction or a call before what it is made of, and an operator between its
operands.  Each node has the place of one token and the tokens follow one
another, so the places in this list increase strictly.
-/

namespace Node

mutual

/-- All nodes inside a node and the node itself, in source order. -/
def inOrder (node : Node) : List Node :=
  match node with
  | .draw _ arguments _ | .call _ arguments _ => node :: allInOrder arguments
  | .assign _ value _ => node :: value.inOrder
  | .goTo _ condition _ => node :: condition.inOrder
  | .arithmetic _ left right _ | .boolean _ left right _ =>
      left.inOrder ++ node :: right.inOrder
  | .spawn .. | .setColor .. | .setSize .. | .fill .. | .label .. | .read ..
  | .number .. | .text .. => [node]

/-- All nodes inside several nodes and these themselves, in source order. -/
def allInOrder : List Node → List Node
  | [] => []
  | node :: rest => node.inOrder ++ allInOrder rest

end

/-- An operation stands between its operands. -/
theorem inOrder_operation
    (operator : Operator)
    (left right : Node)
    (location : Location) :
    (operation operator left right location).inOrder =
      left.inOrder ++ operation operator left right location ::
        right.inOrder := by
  cases operator <;> rfl

/-- An operation is placed at its operator. -/
theorem location_operation
    (operator : Operator)
    (left right : Node)
    (location : Location) :
    (operation operator left right location).location = location := by
  cases operator <;> rfl

/-- Each node stands before those that are listed after it. -/
def Increasing (nodes : List Node) : Prop :=
  nodes.Pairwise fun first second => first.location.Before second.location

/-- A node is among the nodes inside it. -/
theorem self_mem_inOrder
    (node : Node) :
    node ∈ node.inOrder := by
  cases node <;> simp [inOrder]

/-- The nodes inside several nodes are listed one node after the other. -/
theorem allInOrder_eq_flatMap
    (nodes : List Node) :
    allInOrder nodes = nodes.flatMap inOrder := by
  induction nodes with
  | nil =>
      rfl
  | cons node rest inductionHypothesis =>
      rw [allInOrder, List.flatMap_cons, inductionHypothesis]

/-- The nodes inside one instruction increase with all others. -/
theorem Increasing.inside
    {program : Program}
    {node : Node}
    (increasing : Increasing (allInOrder program))
    (member : node ∈ program) :
    Increasing node.inOrder := by
  rw [Increasing, allInOrder_eq_flatMap, List.pairwise_flatMap] at increasing
  exact increasing.1 node member

end Node

/-- The tokens have the places of the nodes, in this order. -/
def Carries (tokens : List Token) (nodes : List Node) : Prop :=
  (nodes.map Node.location).Sublist (tokens.map Token.location)

namespace Carries

variable
  {tokens others : List Token}
  {nodes more : List Node}
  {token : Token}
  {node : Node}

/-- Tokens carry nodes one list after the other. -/
theorem append
    (first : Carries tokens nodes)
    (second : Carries others more) :
    Carries (tokens ++ others) (nodes ++ more) := by
  unfold Carries
  rw [List.map_append, List.map_append]
  exact List.Sublist.append first second

/-- A token that gives its place to a node. -/
theorem own
    (placed : node.location = token.location)
    (rest : Carries tokens nodes) :
    Carries (token :: tokens) (node :: nodes) := by
  unfold Carries
  rw [List.map_cons, List.map_cons, placed]
  exact List.Sublist.cons_cons _ rest

/-- A token that only separates or encloses. -/
theorem skip
    (rest : Carries tokens nodes) :
    Carries (token :: tokens) nodes :=
  List.Sublist.cons _ rest

/-- All tokens carry no nodes. -/
theorem nothing (tokens : List Token) :
    Carries tokens [] :=
  List.nil_sublist _

/-- Tokens carry a node at the place of the first of them. -/
theorem alone
    (tokens : List Token)
    (placed : node.location = token.location) :
    Carries (token :: tokens) [node] :=
  own placed (nothing tokens)

/-- One more token at the end carries nothing more. -/
theorem close
    (rest : Carries tokens nodes) :
    Carries (tokens ++ [token]) nodes := by
  have closed := rest.append (nothing [token])
  rwa [List.append_nil] at closed

/--
An operation is carried by its operator, between the tokens of its operands.
-/
theorem operation
    {operator : Operator}
    {left right : Node}
    (first : Carries tokens left.inOrder)
    (second : Carries others right.inOrder) :
    Carries (tokens ++ token :: others)
      (Node.operation operator left right token.location).inOrder := by
  rw [Node.inOrder_operation]
  exact first.append (.own (Node.location_operation ..) second)

/-- Places of nodes increase with those of the tokens. -/
theorem increasing
    (carries : Carries tokens nodes)
    (ordered :
      tokens.Pairwise fun first second =>
        first.location.Before second.location) :
    Node.Increasing nodes :=
  List.pairwise_map.mp ((List.pairwise_map.mpr ordered).sublist carries)

end Carries

namespace Grammar

mutual

/-- A primary takes its places from its tokens, in order. -/
theorem Primary.carries
    {tokens : List Token}
    {node : Node} :
    Primary tokens node → Carries tokens node.inOrder
  | .number _ => .alone [] rfl
  | .text _ => .alone [] rfl
  | .read _ => .alone [] rfl
  | .label _ => .alone [] rfl
  | .call _ arguments => .own rfl arguments.carries
  | .parenthesised _ inner _ => inner.carries.close.skip

/-- Arguments are carried by the tokens that spell them. -/
theorem Arguments.carries
    {tokens : List Token}
    {nodes : List Node} :
    Arguments tokens nodes → Carries tokens (Node.allInOrder nodes)
  | .none _ _ => .nothing _
  | .some _ inner _ => inner.carries.close.skip

/-- Primaries are carried by the tokens that spell them. -/
theorem Primaries.carries
    {tokens : List Token}
    {nodes : List Node} :
    Primaries tokens nodes → Carries tokens (Node.allInOrder nodes)
  | .one only => by
      rw [Node.allInOrder, Node.allInOrder, List.append_nil]
      exact only.carries
  | .more first _ others => first.carries.append others.carries.skip

/-- So does what operators join. -/
theorem Expression.carries
    {level : Nat}
    {tokens : List Token}
    {node : Node} :
    Expression level tokens node → Carries tokens node.inOrder
  | .primary whole => whole.carries
  | .tighter inner => inner.carries
  | .groupsLeft _ _ _ first second => first.carries.operation second.carries
  | .groupsRight _ _ _ first second => first.carries.operation second.carries

end

/-- An instruction is carried by the tokens that spell it. -/
theorem Instruction.carries
    {tokens : List Token}
    {node : Node}
    (whole : Instruction tokens node) :
    Carries tokens node.inOrder := by
  cases whole with
  | spawn | setColor | setSize | fill | label =>
      exact .alone _ rfl
  | draw _ arguments | call _ arguments =>
      exact .own rfl arguments.carries
  | goTo _ _ _ _ _ inner =>
      exact .own rfl inner.carries.close.skip.skip.skip.skip
  | assign _ _ inner =>
      exact .own rfl inner.carries.skip

/-- The tokens of a program carry its nodes in source order. -/
theorem Spells.carries
    {tokens : List Token}
    {program : Program}
    (spells : Spells tokens program) :
    Carries tokens (Node.allInOrder program) := by
  induction spells with
  | nil =>
      exact .nothing []
  | cons first _ _ inductionHypothesis =>
      exact first.carries.append inductionHypothesis

end Grammar

/-- The nodes of a program that a source spells stand in source order. -/
theorem increasing_of_parse
    {source : String}
    {tokens : List Token}
    {program : Program}
    (scanned : tokenize source = .ok tokens)
    (parsed : Program.parse tokens = .ok program) :
    Node.Increasing (Node.allInOrder program) :=
  (spells_of_parse scanned parsed).carries.increasing
    (lays_of_tokenize scanned).increasing

end PixelBrush
