import Mathlib.Data.Set.Basic
import Mathlib.Logic.Relation

/-! Nodes that own others through their fields, and what is recorded below a node. -/

namespace Ownership
variable {Node Name : Type*} (fields : Node → List Node) (own : Node → Set Name)

def Owns (parent child : Node) : Prop :=
  child ∈ fields parent

def Reaches : Node → Node → Prop :=
  Relation.ReflTransGen (Owns fields)

/-- Some node below a root, itself included, records the name. -/
def Recorded (root : Node) (name : Name) : Prop :=
  ∃ node, Reaches fields root node ∧ name ∈ own node

variable {fields own} {root : Node} {name : Name}

theorem recorded_iff :
    Recorded fields own root name ↔
      name ∈ own root ∨ ∃ child ∈ fields root, Recorded fields own child name := by
  constructor
  · rintro ⟨node, path, records⟩
    rcases Relation.ReflTransGen.cases_head path with rfl | ⟨child, owned, rest⟩
    · exact .inl records
    · exact .inr ⟨child, owned, node, rest, records⟩
  · rintro (records | ⟨child, owned, node, rest, records⟩)
    · exact ⟨root, .refl, records⟩
    · exact ⟨node, .head owned rest, records⟩

end Ownership
