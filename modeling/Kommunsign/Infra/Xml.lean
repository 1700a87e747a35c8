import Mathlib.Tactic.Common

/-!
# XML documents as trees

A node is a text or an element with its namespace, its attributes by their qualified names, and its
children. Comments and processing instructions are left out: they carry no text.

* `textContent` — the texts under a node, one after the other
* `childElement` — the first child element of a name
* `descendantsNamed` — the elements of a name below a node, in document order
* `byId` — the element that an identifier stands for
-/

namespace Infra

inductive Xml where
  | text (content : String)
  | element (space name : String) (attributes : List (String × String)) (children : List Xml)

namespace Xml

def children : Xml → List Xml
  | .text _ => []
  | .element _ _ _ children => children

def named (space name : String) : Xml → Bool
  | .text _ => false
  | .element space' name' _ _ => space' == space && name' == name

def findAttribute (key : String) : Xml → Option String
  | .text _ => none
  | .element _ _ attributes _ => attributes.lookup key

/-- An attribute that is missing has the empty value. -/
def getAttribute (key : String) (node : Xml) : String := (node.findAttribute key).getD ""

def childElement (space name : String) (parent : Xml) : Option Xml :=
  parent.children.find? (·.named space name)

mutual

def textContent : Xml → String
  | .text content => content
  | .element _ _ _ children => textContents children

def textContents : List Xml → String
  | [] => ""
  | node :: nodes => textContent node ++ textContents nodes

end

mutual

/-- The nodes below a node. -/
def descendants : Xml → List Xml
  | .text _ => []
  | .element _ _ _ children => descendantsOf children

/-- The nodes of a list with the nodes below them. -/
def descendantsOf : List Xml → List Xml
  | [] => []
  | node :: nodes => node :: (descendants node ++ descendantsOf nodes)

end

def descendantsNamed (space name : String) (node : Xml) : List Xml :=
  node.descendants.filter (·.named space name)

/-- The nodes of a document. -/
def nodes (root : Xml) : List Xml := root :: root.descendants

/-- The values of the attributes `keys`, with the element that each stands for. -/
def identifiers (keys : List String) (root : Xml) : List (String × Xml) :=
  root.nodes.flatMap fun node =>
    keys.filterMap fun key => (node.findAttribute key).map fun value => (value, node)

/-- An identifier that was given twice stands for the last element. -/
def byId (keys : List String) (root : Xml) (id : String) : Option Xml :=
  (root.identifiers keys).reverse.lookup id

end Xml

end Infra
