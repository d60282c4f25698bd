import OpGraph.Text.Unicode

namespace OpGraph

namespace Text

/-- Lower-case hexadecimal digits of a number, without leading zeros. -/
def hex (n : Nat) : String :=
  String.ofList (Nat.toDigits 16 n)

/-- Whether a character is printed as a braced code point. -/
def isHidden (c : Char) : Bool := !isPrintable c || isGraphemeExtend c

/-- One character inside a literal. -/
def escapeChar (c : Char) : String :=
  if c = '"' then "\\\""
  else if c = '\\' then "\\\\"
  else if c = '\t' then "\\t"
  else if c = '\r' then "\\r"
  else if c = '\n' then "\\n"
  else if c.toNat = 0 then "\\0"
  else if isHidden c then "\\u" ++ String.singleton (Char.ofNat 123) ++ hex c.toNat ++
    String.singleton (Char.ofNat 125)
  else String.singleton c

/-- The quoted literal of a string. -/
def literal (s : String) : String :=
  "\"" ++ String.join (s.toList.map escapeChar) ++ "\""

/-- A list printed between brackets, items separated by a comma and a blank. -/
def bracketed (items : List String) : String :=
  "[" ++ ", ".intercalate items ++ "]"

end Text

end OpGraph
