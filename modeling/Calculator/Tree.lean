import Calculator.Token

/-!
# Expression trees

A tree is a number, a call with one argument, or a pair of operands under a name: either an
arithmetic operator or a function called with two arguments. Brackets leave no trace in it.

The same tree can be written as the list of its nodes with every operand before its operator
(`Tree.postorder`, `Tree.ofPostorder?`).
-/

namespace Calculator

/-- An expression. A leaf that is no number may stand in a tree that was not read from text. -/
inductive Tree where
  | number (value : Value)
  | call (name : String) (argument : Tree)
  | pair (left : Tree) (name : String) (right : Tree)
  | foreign
deriving DecidableEq

/-- What a node of a tree says apart from its operands. -/
inductive Node where
  | number (value : Value)
  | call (name : String)
  | pair (name : String)
  | foreign
deriving DecidableEq

namespace Tree

/-! ## Postorder -/

/-- The nodes of a tree in postorder, in front of a given list. -/
def postorderOnto : Tree → List Node → List Node
  | number value, rest => .number value :: rest
  | call name argument, rest => argument.postorderOnto (.call name :: rest)
  | pair left name right, rest => left.postorderOnto (right.postorderOnto (.pair name :: rest))
  | foreign, rest => .foreign :: rest

/-- The nodes of a tree: operands before their operator, the left one first. -/
def postorder (t : Tree) : List Node := t.postorderOnto []

/-- Puts a node on a stack of finished trees, taking its operands from there. -/
def build : List Tree → Node → Option (List Tree)
  | stack, .number value => some (number value :: stack)
  | argument :: stack, .call name => some (call name argument :: stack)
  | right :: left :: stack, .pair name => some (pair left name right :: stack)
  | stack, .foreign => some (foreign :: stack)
  | _, _ => none

/-- The tree with the given nodes in postorder. -/
def ofPostorder? (nodes : List Node) : Option Tree :=
  match nodes.foldlM build [] with
  | some [t] => some t
  | _ => none

/-! ## Display -/

/-- A tree as shown for inspection: every node by its kind, names quoted. Every tree has a text here,
however deep it is. A display that calls itself for the operands on a bounded call stack gives out on
trees of more than about five hundred levels. -/
def render : Tree → String
  | number value => "NumberNode(" ++ value.text ++ ")"
  | call name argument => "UnaryOpNode(" ++ quoted name ++ ", " ++ argument.render ++ ")"
  | pair left name right =>
      "BinaryOpNode(" ++ left.render ++ ", " ++ quoted name ++ ", " ++ right.render ++ ")"
  | foreign => "?"

end Tree

end Calculator
