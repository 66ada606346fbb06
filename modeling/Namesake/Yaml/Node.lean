import Namesake.Yaml.Resolve
import Namesake.Yaml.Token

/-
  This file defines the nodes of a YAML document.

  Key definitions include:
    * `Yaml.Node`
    * `Yaml.Document`
    * `Yaml.Document.target?`
-/

namespace Namesake

namespace Yaml

/-
  A node and the line where it starts.  A reference has the
  number of the node that its name stood for, and a place of
  its own that tells it from other references.
-/
inductive Node where
  | scalar (tag value : Bytes) (line : Nat)
  | sequence (tag : Bytes) (items : List Node) (line : Nat)
  | mapping (tag : Bytes) (pairs : List (Node × Node)) (line : Nat)
  | reference (name : Bytes) (target place : Nat) (line : Nat)
deriving Inhabited

namespace Node

/- The line where a node starts. -/
def line : Node → Nat
  | .scalar _ _ line => line
  | .sequence _ _ line => line
  | .mapping _ _ line => line
  | .reference _ _ _ line => line

/- The tag of a node; a reference has none. -/
def tag : Node → Bytes
  | .scalar tag _ _ => tag
  | .sequence tag _ _ => tag
  | .mapping tag _ _ => tag
  | .reference _ _ _ _ => []

/- The text of a node; collections have none. -/
def value : Node → Bytes
  | .scalar _ value _ => value
  | .reference name _ _ _ => name
  | _ => []

/- Are two nodes of the same kind? -/
def sameKind : Node → Node → Bool
  | .scalar _ _ _, .scalar _ _ _ => true
  | .sequence _ _ _, .sequence _ _ _ => true
  | .mapping _ _ _, .mapping _ _ _ => true
  | .reference _ _ _ _, .reference _ _ _ _ => true
  | _, _ => false

/- Is this a mapping? -/
def isMapping : Node → Bool
  | .mapping _ _ _ => true
  | _ => false

end Node

/-
  The root of a document, its nodes that have anchors, and the
  number of characters of its text.
-/
structure Document where
  root : Node
  anchored : List (Nat × Node)
  size : Nat

/- The node with a number. -/
def Document.target?
    (d : Document)
    (number : Nat) : Option Node :=
  (d.anchored.find? fun p => p.1 == number).map Prod.snd

end Yaml

end Namesake
