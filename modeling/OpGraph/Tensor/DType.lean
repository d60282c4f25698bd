namespace OpGraph

/-- The element type of a tensor. -/
inductive DType where
  | undefined
  | float
  | uint8
  | int8
  | uint16
  | int16
  | int32
  | int64
  | string
  | bool
  | float16
  | double
  | uint32
  | uint64
  | bfloat16
  | qint8
  | quint8
  | qint32
  deriving DecidableEq, Repr, Inhabited

namespace DType

/-- Every element type, in code order. -/
def all : List DType :=
  [undefined, float, uint8, int8, uint16, int16, int32, int64, string, bool, float16, double,
    uint32, uint64, bfloat16, qint8, quint8, qint32]

/-- The number that stands for the type in snapshots. -/
def code : DType → Int
  | undefined => 0
  | float => 1
  | uint8 => 2
  | int8 => 3
  | uint16 => 4
  | int16 => 5
  | int32 => 6
  | int64 => 7
  | string => 8
  | bool => 9
  | float16 => 10
  | double => 11
  | uint32 => 12
  | uint64 => 13
  | bfloat16 => 16
  | qint8 => 20
  | quint8 => 21
  | qint32 => 22

/-- The capitalised name of the type, as reports and debug texts print it. -/
def name : DType → String
  | undefined => "Undefined"
  | float => "Float"
  | uint8 => "Uint8"
  | int8 => "Int8"
  | uint16 => "Uint16"
  | int16 => "Int16"
  | int32 => "Int32"
  | int64 => "Int64"
  | string => "String"
  | bool => "Bool"
  | float16 => "Float16"
  | double => "Double"
  | uint32 => "Uint32"
  | uint64 => "Uint64"
  | bfloat16 => "Bfloat16"
  | qint8 => "Qint8"
  | quint8 => "Quint8"
  | qint32 => "Qint32"

/-- The type with a given code, if the code is one of the enumeration's. -/
def ofCode? (c : Int) : Option DType :=
  all.find? (·.code == c)

/-- The type with a given name. -/
def ofName? (s : String) : Option DType :=
  all.find? (·.name == s)

/-- Bytes per element; text and the undefined type have no fixed width. -/
def size? : DType → Option Nat
  | float => some 4
  | uint8 | int8 | bool | qint8 | quint8 => some 1
  | uint16 | int16 | float16 | bfloat16 => some 2
  | int32 | uint32 | qint32 => some 4
  | int64 | uint64 | double => some 8
  | string | undefined => none

/-- The four floating-point types. -/
def isFloat : DType → Bool
  | float | double | float16 | bfloat16 => true
  | _ => false

/-- The three quantized integer types. -/
def isQuantized : DType → Bool
  | qint8 | quint8 | qint32 => true
  | _ => false

theorem ofCode?_code (d : DType) : ofCode? d.code = some d := by
  cases d <;> rfl

theorem ofName?_name (d : DType) : ofName? d.name = some d := by
  cases d <;> rfl

end DType

end OpGraph
