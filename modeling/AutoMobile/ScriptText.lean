import Mathlib.Data.List.Basic

/- What the scripts' texts offer: white space, as `trim` removes it. -/
namespace ScriptText

/-- White space and line ends as `trim` removes them. -/
def isTrimmed (char : Char) : Bool :=
  let point := char.toNat
  (0x09 ≤ point && point ≤ 0x0D) || point == 0x20 || point == 0xA0 || point == 0x1680 ||
    (0x2000 ≤ point && point ≤ 0x200A) || point == 0x2028 || point == 0x2029 || point == 0x202F ||
    point == 0x205F || point == 0x3000 || point == 0xFEFF

/-- Nothing is left of the text after `trim`. -/
def isBlank (text : String) : Bool := text.toList.all isTrimmed

/-- The text without white space at its ends. -/
def trim (text : String) : String :=
  String.ofList (((text.toList.dropWhile isTrimmed).reverse.dropWhile isTrimmed).reverse)

example : trim " s1\n" = "s1" := by decide +kernel

end ScriptText
