import OpGraph.Json.Value
import OpGraph.Number.Shortest

namespace OpGraph

namespace Json

/-- Lower-case hexadecimal digit. -/
def hexDigit (n : Nat) : Char :=
  if n < 10 then Char.ofNat (48 + n) else Char.ofNat (87 + n)

/-- One character of a string's contents, escaped as needed. -/
def escapeChar (c : Char) : List Char :=
  if c = '"' then ['\\', '"']
  else if c = '\\' then ['\\', '\\']
  else if c = '\n' then ['\\', 'n']
  else if c = '\r' then ['\\', 'r']
  else if c = '\t' then ['\\', 't']
  else if c.toNat = 8 then ['\\', 'b']
  else if c.toNat = 12 then ['\\', 'f']
  else if c.toNat < 32 then ['\\', 'u', '0', '0', hexDigit (c.toNat / 16), hexDigit (c.toNat % 16)]
  else [c]

/-- A string literal with its quotes. -/
def quote (s : String) : String :=
  String.ofList ('"' :: (s.toList.flatMap escapeChar ++ ['"']))

/-- The text of a finite binary64 value. -/
def renderFloat (bits : Nat) : String :=
  match BinaryFormat.binary64.decode bits with
  | .finite negative m e =>
    let sign := if negative then "-" else ""
    if m = 0 then sign ++ "0.0"
    else
      let d := Decimal.shortest BinaryFormat.binary64 .even m e
      let p := d.pointPosition
      sign ++ (if -5 < p ∧ p ≤ 16 then d.positional else d.scientificSigned)
  | _ => "null"

def renderNumber : JsonNumber → String
  | .nat n => toString n
  | .negInt i => toString i
  | .float b => renderFloat b

mutual
/-- Compact text of a value. -/
def render : Json → String
  | null => "null"
  | bool b => if b then "true" else "false"
  | number n => renderNumber n
  | string s => quote s
  | array xs => "[" ++ renderItems xs ++ "]"
  | object fs => "\x7b" ++ renderFields fs ++ "\x7d"

def renderItems : List Json → String
  | [] => ""
  | [x] => render x
  | x :: rest => render x ++ "," ++ renderItems rest

def renderFields : List (String × Json) → String
  | [] => ""
  | [(k, v)] => quote k ++ ":" ++ render v
  | (k, v) :: rest => quote k ++ ":" ++ render v ++ "," ++ renderFields rest
end

end Json

end OpGraph
