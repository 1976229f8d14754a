import Script.Number.Layout
import Script.Text.Quoted
import Script.Value.Heap

/-!
Values as text. `display` joins an array's items with commas, `inspect` brackets them. An array that
stands inside itself is cut there, so the path from the outermost array bounds the recursion. Nothing
else does: arrays may stand in one another deeper than the stack of any host would let them.
-/

namespace Script

structure Style where
  leaf : Value → String
  around : List String → String
  /-- An array inside itself. -/
  cut : String

namespace Style

mutual

def write (style : Style) (h : Heap) (path : List Ref) (v : Value) : String :=
  match v with
  | .array ref =>
    if ref ∈ path then style.cut
    else if ref < h.size then
      style.around (style.writeAll h (ref :: path) (h.items ref).toList)
    else style.around []
  | v => style.leaf v
termination_by ((h.unvisited path).length, 0)
decreasing_by
  exact .left _ _ (Heap.unvisited_lt (by assumption) (by assumption))

def writeAll (style : Style) (h : Heap) (path : List Ref) (vs : List Value) : List String :=
  match vs with
  | [] => []
  | v :: rest => style.write h path v :: style.writeAll h path rest
termination_by ((h.unvisited path).length, vs.length + 1)
decreasing_by
  · exact .right _ (by simp)
  · exact .right _ (by simp)

end

end Style

namespace Value

def displayLeaf : Value → String
  | .number x => x.display
  | .string s => s
  | .boolean b => if b then "true" else "false"
  | .undefined => "undefined"
  | .null => "null"
  | .array _ => ""
  | .function f => "function " ++ f.name ++ "() \x7b [native code] \x7d"
  | .library l => "<" ++ l.name ++ ">"

def inspectLeaf : Value → String
  | .function f => "[Function: " ++ f.name ++ "]"
  | .library l => "Object [" ++ l.name ++ "]"
  | v => v.displayLeaf

def displayStyle : Style where
  leaf v := if v.isNullish then "" else v.displayLeaf
  around := ",".intercalate
  cut := ""

def inspectStyle : Style where
  leaf
    | .string s => Text.quote s
    | v => v.inspectLeaf
  around
    | [] => "[]"
    | items => "[ " ++ ", ".intercalate items ++ " ]"
  cut := "[Circular]"

def display (h : Heap) (v : Value) : String :=
  if v.isArray then displayStyle.write h [] v else v.displayLeaf

/-- The text a value has inside an array that is shown. -/
def inspectItem (h : Heap) (v : Value) : String := inspectStyle.write h [] v

def inspect (h : Heap) (v : Value) : String :=
  if v.isArray then inspectItem h v else v.inspectLeaf

end Value

end Script
