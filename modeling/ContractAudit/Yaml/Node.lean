import ContractAudit.Yaml.Token

/-!
# YAML nodes

A document is a tree of nodes, each with its place. An anchored node carries a number, and an alias
the number it stands for, so a tree may refer to itself without being infinite. A tree that was cut
off where reading failed ends in `cut`.
-/

namespace ContractAudit.Yaml

/-- What a node carries besides its content. -/
structure Props where
  mark : Mark
  anchor : Option Nat := none
  tag : Option String := none
  deriving DecidableEq, Repr, Inhabited

inductive Node where
  | scalar (props : Props) (style : ScalarStyle) (text : String)
  | sequence (props : Props) (items : List Node)
  | mapping (props : Props) (entries : List (Node × Node))
  | alias (mark : Mark) (target : Nat)
  | cut
  deriving Repr, Inhabited

namespace Node

/-- A plain scalar without text. -/
def absent (mark : Mark) : Node := .scalar { mark } .plain ""

def mark : Node → Mark
  | .scalar p .. => p.mark
  | .sequence p _ => p.mark
  | .mapping p _ => p.mark
  | .alias m _ => m
  | .cut => {}

mutual

/-- The anchored nodes of a tree with their numbers, each in front of what it contains. -/
def anchored : Node → List (Nat × Node)
  | .scalar p style text => p.anchor.toList.map fun n => (n, .scalar p style text)
  | .sequence p items =>
    (p.anchor.toList.map fun n => (n, .sequence p items)) ++ anchoredItems items
  | .mapping p entries =>
    (p.anchor.toList.map fun n => (n, .mapping p entries)) ++ anchoredEntries entries
  | .alias .. => []
  | .cut => []

def anchoredItems : List Node → List (Nat × Node)
  | [] => []
  | n :: ns => anchored n ++ anchoredItems ns

def anchoredEntries : List (Node × Node) → List (Nat × Node)
  | [] => []
  | (k, v) :: es => anchored k ++ anchored v ++ anchoredEntries es

end

mutual

/-- Whether a tree was cut off. -/
def isCut : Node → Bool
  | .scalar .. => false
  | .sequence _ items => isCutItems items
  | .mapping _ entries => isCutEntries entries
  | .alias .. => false
  | .cut => true

def isCutItems : List Node → Bool
  | [] => false
  | n :: ns => isCut n || isCutItems ns

def isCutEntries : List (Node × Node) → Bool
  | [] => false
  | (k, v) :: es => isCut k || isCut v || isCutEntries es

end

end Node

end ContractAudit.Yaml
