/-!
# CellVisor.Text.Column

Text set in a column of a fixed width. Longer text is never cut.
-/

namespace CellVisor
namespace Column

/-- Blanks on the left: `text` ends where the column ends. -/
def right (width : Nat) (text : String) : String := String.ofList (text.toList.leftpad width ' ')

/-- Blanks on the right: `text` starts where the column starts. -/
def left (width : Nat) (text : String) : String := String.ofList (text.toList.rightpad width ' ')

end Column
end CellVisor
