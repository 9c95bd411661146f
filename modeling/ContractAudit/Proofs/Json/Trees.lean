import ContractAudit.Json.Printer
import ContractAudit.Yaml.Node
import Mathlib.Data.List.Forall2

/-!
# JSON values as trees

A JSON text is also a YAML text. Its tree has the shape of the value: strings and names are quoted
scalars, other scalars are plain, and there are neither anchors nor tags; the marks are those of the
text and may be any (`WrittenAs`). Every value has such a tree (`writtenAs_toNode`).
-/

namespace ContractAudit.Json

open Yaml (Node)

/-- The node is a quoted text. -/
def TextWrittenAs (s : String) (node : Node) : Prop := ∃ mark, node = .scalar { mark } .quoted s

/-- The node is a plain word. -/
def WordWrittenAs (s : String) (node : Node) : Prop := ∃ mark, node = .scalar { mark } .plain s

mutual

/-- The node is a tree of the value's text. -/
def WrittenAs : Json → Node → Prop
  | .null, node => WordWrittenAs "null" node
  | .bool b, node => WordWrittenAs (if b then "true" else "false") node
  | .number n, node => WordWrittenAs (numberText n) node
  | .string s, node => TextWrittenAs s node
  | .array items, node => ∃ mark nodes, node = .sequence { mark } nodes ∧ ItemsWrittenAs items nodes
  | .object fields, node =>
    ∃ mark entries, node = .mapping { mark } entries ∧ FieldsWrittenAs fields entries

def ItemsWrittenAs : List Json → List Node → Prop
  | [], nodes => nodes = []
  | v :: vs, nodes => ∃ n ns, nodes = n :: ns ∧ WrittenAs v n ∧ ItemsWrittenAs vs ns

def FieldsWrittenAs : List (String × Json) → List (Node × Node) → Prop
  | [], entries => entries = []
  | (k, v) :: fs, entries =>
    ∃ key n es, entries = (key, n) :: es ∧ TextWrittenAs k key ∧ WrittenAs v n ∧ FieldsWrittenAs fs es

end

mutual

/-- How many collections stand inside each other. -/
def depth : Json → Nat
  | .array items => itemsDepth items + 1
  | .object fields => fieldsDepth fields + 1
  | _ => 0

def itemsDepth : List Json → Nat
  | [] => 0
  | v :: vs => max (depth v) (itemsDepth vs)

def fieldsDepth : List (String × Json) → Nat
  | [] => 0
  | (_, v) :: fs => max (depth v) (fieldsDepth fs)

end

theorem itemsWrittenAs_map {α : Type} {write : α → Json} {l : List α} {nodes : List Node} :
    ItemsWrittenAs (l.map write) nodes ↔ List.Forall₂ (fun a n => (write a).WrittenAs n) l nodes := by
  induction l generalizing nodes with
  | nil => rw [List.map_nil, ItemsWrittenAs, List.forall₂_nil_left_iff]
  | cons a l ih =>
      rw [List.map_cons, ItemsWrittenAs, List.forall₂_cons_left_iff]
      constructor
      · rintro ⟨n, ns, rfl, hn, hns⟩
        exact ⟨n, ns, hn, ih.mp hns, rfl⟩
      · rintro ⟨n, ns, hn, hns, rfl⟩
        exact ⟨n, ns, rfl, hn, ih.mpr hns⟩

theorem fieldsWrittenAs_map {α : Type} {write : α → Json} {l : List (String × α)}
    {entries : List (Node × Node)} :
    FieldsWrittenAs (l.map fun e => (e.1, write e.2)) entries ↔
      List.Forall₂ (fun e n => TextWrittenAs e.1 n.1 ∧ (write e.2).WrittenAs n.2) l entries := by
  induction l generalizing entries with
  | nil => rw [List.map_nil, FieldsWrittenAs, List.forall₂_nil_left_iff]
  | cons e l ih =>
      rw [List.map_cons, FieldsWrittenAs, List.forall₂_cons_left_iff]
      constructor
      · rintro ⟨key, n, es, rfl, hkey, hn, hes⟩
        exact ⟨(key, n), es, ⟨hkey, hn⟩, ih.mp hes, rfl⟩
      · rintro ⟨⟨key, n⟩, es, ⟨hkey, hn⟩, hes, rfl⟩
        exact ⟨key, n, es, rfl, hkey, hn, ih.mpr hes⟩

theorem depth_le_itemsDepth {v : Json} {items : List Json} (h : v ∈ items) :
    v.depth ≤ itemsDepth items := by
  induction items with
  | nil => cases h
  | cons w ws ih =>
      rw [itemsDepth]
      rcases List.mem_cons.mp h with rfl | h
      · exact Nat.le_max_left _ _
      · exact Nat.le_trans (ih h) (Nat.le_max_right _ _)

theorem depth_le_fieldsDepth {f : String × Json} {fields : List (String × Json)} (h : f ∈ fields) :
    f.2.depth ≤ fieldsDepth fields := by
  induction fields with
  | nil => cases h
  | cons g fs ih =>
      rw [fieldsDepth]
      rcases List.mem_cons.mp h with rfl | h
      · exact Nat.le_max_left _ _
      · exact Nat.le_trans (ih h) (Nat.le_max_right _ _)

/-! ## A tree for every value -/

mutual

/-- The tree of a value's text, every mark at the start. -/
def toNode : Json → Node
  | .null => .scalar { mark := {} } .plain "null"
  | .bool b => .scalar { mark := {} } .plain (if b then "true" else "false")
  | .number n => .scalar { mark := {} } .plain (numberText n)
  | .string s => .scalar { mark := {} } .quoted s
  | .array items => .sequence { mark := {} } (toNodes items)
  | .object fields => .mapping { mark := {} } (toEntries fields)

def toNodes : List Json → List Node
  | [] => []
  | v :: vs => toNode v :: toNodes vs

def toEntries : List (String × Json) → List (Node × Node)
  | [] => []
  | (k, v) :: fs => (.scalar { mark := {} } .quoted k, toNode v) :: toEntries fs

end

mutual

theorem writtenAs_toNode : ∀ v : Json, v.WrittenAs v.toNode
  | .null | .bool _ | .number _ | .string _ => ⟨_, rfl⟩
  | .array items => ⟨_, _, rfl, itemsWrittenAs_toNodes items⟩
  | .object fields => ⟨_, _, rfl, fieldsWrittenAs_toEntries fields⟩

theorem itemsWrittenAs_toNodes : ∀ items : List Json, ItemsWrittenAs items (toNodes items)
  | [] => rfl
  | v :: vs => ⟨_, _, rfl, writtenAs_toNode v, itemsWrittenAs_toNodes vs⟩

theorem fieldsWrittenAs_toEntries : ∀ fields : List (String × Json),
    FieldsWrittenAs fields (toEntries fields)
  | [] => rfl
  | (_, v) :: fs => ⟨_, _, _, rfl, ⟨_, rfl⟩, writtenAs_toNode v, fieldsWrittenAs_toEntries fs⟩

end

end ContractAudit.Json
