import OpGraph.Snapshot.Wire
import OpGraph.Tensor.DType
import OpGraph.Number.Shortest
import OpGraph.Text.Literal

namespace OpGraph

namespace Snapshot

open Wire

/-- A shape: `known` tells whether the rank is known; negative dims are dynamic. -/
structure ShapeRecord where
  known : Bool
  dims : List Int
  deriving DecidableEq, Repr

def ShapeRecord.empty : ShapeRecord := ⟨false, []⟩

/-- A tensor: its name, its data type number and maybe its shape. -/
structure TensorRecord where
  name : String
  dtype : Int
  shape : Option ShapeRecord
  deriving DecidableEq, Repr

def TensorRecord.empty : TensorRecord := ⟨"", 0, none⟩

/-- The value of an attribute. -/
inductive AttrPayload where
  | bool (value : Bool)
  | int (value : Int)
  | float (bits : Nat)
  | str (value : String)
  | ints (values : List Int)
  | floats (bits : List Nat)
  | strs (values : List String)
  | dtype (code : Int)
  | shape (value : ShapeRecord)
  deriving DecidableEq, Repr

/-- A named attribute, its value maybe unset. -/
structure AttrRecord where
  name : String
  value : Option AttrPayload
  deriving DecidableEq, Repr

def AttrRecord.empty : AttrRecord := ⟨"", none⟩

/-- An op. -/
structure OpRecord where
  name : String
  opType : String
  inputs : List String
  outputs : List TensorRecord
  attrs : List AttrRecord
  deriving DecidableEq, Repr

def OpRecord.empty : OpRecord := ⟨"", "", [], [], []⟩

/-- The value of a metadata entry. -/
inductive MetaPayload where
  | flag (value : Bool)
  | count (value : Nat)
  | counts (values : List Nat)
  | int (value : Int)
  | text (value : String)
  deriving DecidableEq, Repr

/-- A metadata entry of an op, its value maybe unset. -/
structure MetadataRecord where
  op : String
  ns : String
  kind : String
  value : Option MetaPayload
  deriving DecidableEq, Repr

def MetadataRecord.empty : MetadataRecord := ⟨"", "", "", none⟩

/-- A whole graph. -/
structure GraphRecord where
  ops : List OpRecord
  outputNodes : List String
  topoOrder : List String
  metadata : List MetadataRecord
  deriving DecidableEq, Repr

def GraphRecord.empty : GraphRecord := ⟨[], [], [], []⟩

/-- Float lists compare as numbers: not-a-number equals nothing, and the two zeros are equal. -/
def floatsSame (a b : List Nat) : Bool :=
  a.length == b.length && (a.zip b).all fun (x, y) => BinaryFormat.binary32.numEq x y

def AttrPayload.same : AttrPayload → AttrPayload → Bool
  | .float a, .float b => BinaryFormat.binary32.numEq a b
  | .floats a, .floats b => floatsSame a b
  | a, b => a == b

def AttrRecord.same (a b : AttrRecord) : Bool :=
  a.name == b.name && match a.value, b.value with
    | some x, some y => x.same y
    | none, none => true
    | _, _ => false

def OpRecord.same (a b : OpRecord) : Bool :=
  a.name == b.name && a.opType == b.opType && a.inputs == b.inputs && a.outputs == b.outputs &&
    a.attrs.length == b.attrs.length && (a.attrs.zip b.attrs).all fun (x, y) => x.same y

def GraphRecord.same (a b : GraphRecord) : Bool :=
  a.ops.length == b.ops.length && (a.ops.zip b.ops).all (fun (x, y) => x.same y) &&
    a.outputNodes == b.outputNodes && a.topoOrder == b.topoOrder && a.metadata == b.metadata

def textBytes (s : String) : Bytes := s.toUTF8.toList

/-- Every string of a repeated field, empty ones included. -/
def repeatedStrings (tag : Nat) (ss : List String) : Bytes :=
  ss.flatMap fun s => delimited tag (textBytes s)

def boolField (tag : Nat) (b : Bool) : Bytes :=
  if b then key tag .varint ++ varint 1 else []

def ShapeRecord.encode (s : ShapeRecord) : Bytes :=
  boolField 1 s.known ++ packedVarints 2 (s.dims.map word64)

def TensorRecord.encode (t : TensorRecord) : Bytes :=
  stringField 1 t.name ++ varintField 2 (word64 t.dtype) ++
    match t.shape with
    | some s => delimited 3 s.encode
    | none => []

/-- A set choice: written whatever its value. -/
def AttrPayload.encode : AttrPayload → Bytes
  | .bool b => key 2 .varint ++ varint (if b then 1 else 0)
  | .int i => key 3 .varint ++ varint (word64 i)
  | .float bits => key 4 .thirtyTwoBit ++ fixed32 bits
  | .str s => delimited 5 (textBytes s)
  | .ints vs => delimited 6 (packedVarints 1 (vs.map word64))
  | .floats bs => delimited 7 (packedFixed32 1 bs)
  | .strs ss => delimited 8 (repeatedStrings 1 ss)
  | .dtype c => key 9 .varint ++ varint (word64 c)
  | .shape s => delimited 10 s.encode

def AttrRecord.encode (a : AttrRecord) : Bytes :=
  stringField 1 a.name ++ (a.value.map AttrPayload.encode).getD []

def OpRecord.encode (o : OpRecord) : Bytes :=
  stringField 1 o.name ++ stringField 2 o.opType ++ repeatedStrings 3 o.inputs ++
    o.outputs.flatMap (fun t => delimited 4 t.encode) ++
    o.attrs.flatMap (fun a => delimited 5 a.encode)

def MetaPayload.encode : MetaPayload → Bytes
  | .flag b => key 4 .varint ++ varint (if b then 1 else 0)
  | .count n => key 5 .varint ++ varint n
  | .counts ns => delimited 6 (packedVarints 1 ns)
  | .int i => key 7 .varint ++ varint (word64 i)
  | .text s => delimited 8 (textBytes s)

def MetadataRecord.encode (m : MetadataRecord) : Bytes :=
  stringField 1 m.op ++ stringField 2 m.ns ++ stringField 3 m.kind ++
    (m.value.map MetaPayload.encode).getD []

/-- The bytes of a graph record. -/
def GraphRecord.encode (g : GraphRecord) : Bytes :=
  g.ops.flatMap (fun o => delimited 1 o.encode) ++ repeatedStrings 2 g.outputNodes ++
    repeatedStrings 3 g.topoOrder ++ g.metadata.flatMap (fun m => delimited 4 m.encode)

def readBool (w : WireType) (bytes : Bytes) : Except DecodeError (Bool × Bytes) := do
  let (v, rest) ← readVarintField w bytes
  pure (v != 0, rest)

def readInt64 (w : WireType) (bytes : Bytes) : Except DecodeError (Int × Bytes) := do
  let (v, rest) ← readVarintField w bytes
  pure (signed64 v, rest)

def readInt32 (w : WireType) (bytes : Bytes) : Except DecodeError (Int × Bytes) := do
  let (v, rest) ← readVarintField w bytes
  pure (signed32 v, rest)

def ShapeRecord.field (depth : Nat) (s : ShapeRecord) (tag : Nat) (w : WireType) (bytes : Bytes) :
    Except DecodeError (ShapeRecord × Bytes) :=
  match tag with
  | 1 => within "ShapeRecord" "known" do
    let (b, rest) ← readBool w bytes
    pure ({ s with known := b }, rest)
  | 2 => within "ShapeRecord" "dims" do
    let (vs, rest) ← readPackedVarints w [] bytes
    pure ({ s with dims := s.dims ++ vs.map signed64 }, rest)
  | _ => skipUnknown depth tag w s bytes

def TensorRecord.field (depth : Nat) (t : TensorRecord) (tag : Nat) (w : WireType) (bytes : Bytes) :
    Except DecodeError (TensorRecord × Bytes) :=
  match tag with
  | 1 => within "TensorRecord" "name" do
    let (s, rest) ← readString w bytes
    pure ({ t with name := s }, rest)
  | 2 => within "TensorRecord" "dtype" do
    let (c, rest) ← readInt32 w bytes
    pure ({ t with dtype := c }, rest)
  | 3 => within "TensorRecord" "shape" do
    let (s, rest) ← readNested depth w ShapeRecord.field (t.shape.getD .empty) bytes
    pure ({ t with shape := some s }, rest)
  | _ => skipUnknown depth tag w t bytes

/-- The fields of a list of 64-bit integers. -/
def intListField (depth : Nat) (vs : List Int) (tag : Nat) (w : WireType) (bytes : Bytes) :
    Except DecodeError ((List Int) × Bytes) :=
  match tag with
  | 1 => within "IntList" "values" do
    let (ns, rest) ← readPackedVarints w [] bytes
    pure (vs ++ ns.map signed64, rest)
  | _ => skipUnknown depth tag w vs bytes

/-- The fields of a list of binary32 patterns. -/
def floatListField (depth : Nat) (bs : List Nat) (tag : Nat) (w : WireType) (bytes : Bytes) :
    Except DecodeError ((List Nat) × Bytes) :=
  match tag with
  | 1 => within "FloatList" "values" (readPackedFixed32 w bs bytes)
  | _ => skipUnknown depth tag w bs bytes

/-- The fields of a list of strings. -/
def strListField (depth : Nat) (ss : List String) (tag : Nat) (w : WireType) (bytes : Bytes) :
    Except DecodeError ((List String) × Bytes) :=
  match tag with
  | 1 => within "StrList" "values" do
    let (s, rest) ← readString w bytes
    pure (ss ++ [s], rest)
  | _ => skipUnknown depth tag w ss bytes

/-- The fields of a list of counts. -/
def countListField (depth : Nat) (ns : List Nat) (tag : Nat) (w : WireType) (bytes : Bytes) :
    Except DecodeError ((List Nat) × Bytes) :=
  match tag with
  | 1 => within "CountList" "values" (readPackedVarints w ns bytes)
  | _ => skipUnknown depth tag w ns bytes

/-- One choice of an attribute value, read into the current one when it is a message of the same
kind. -/
def AttrPayload.field (depth : Nat) (current : Option AttrPayload) (tag : Nat) (w : WireType)
    (bytes : Bytes) : Except DecodeError ((Option AttrPayload) × Bytes) :=
  let set := fun (p : AttrPayload) (rest : Bytes) => Except.ok (some p, rest)
  match tag with
  | 2 => do
    let (b, rest) ← readBool w bytes
    set (.bool b) rest
  | 3 => do
    let (i, rest) ← readInt64 w bytes
    set (.int i) rest
  | 4 => do
    let (bits, rest) ← readFixed32Field w bytes
    set (.float bits) rest
  | 5 => do
    let (s, rest) ← readString w bytes
    set (.str s) rest
  | 6 => do
    let start := match current with
      | some (.ints vs) => vs
      | _ => []
    let (vs, rest) ← readNested depth w intListField start bytes
    set (.ints vs) rest
  | 7 => do
    let start := match current with
      | some (.floats bs) => bs
      | _ => []
    let (bs, rest) ← readNested depth w floatListField start bytes
    set (.floats bs) rest
  | 8 => do
    let start := match current with
      | some (.strs ss) => ss
      | _ => []
    let (ss, rest) ← readNested depth w strListField start bytes
    set (.strs ss) rest
  | 9 => do
    let (c, rest) ← readInt32 w bytes
    set (.dtype c) rest
  | _ => do
    let start := match current with
      | some (.shape s) => s
      | _ => .empty
    let (s, rest) ← readNested depth w ShapeRecord.field start bytes
    set (.shape s) rest

def AttrRecord.field (depth : Nat) (a : AttrRecord) (tag : Nat) (w : WireType) (bytes : Bytes) :
    Except DecodeError (AttrRecord × Bytes) :=
  if tag = 1 then within "AttrRecord" "name" do
    let (s, rest) ← readString w bytes
    pure ({ a with name := s }, rest)
  else if 2 ≤ tag ∧ tag ≤ 10 then within "AttrRecord" "value" do
    let (v, rest) ← AttrPayload.field depth a.value tag w bytes
    pure ({ a with value := v }, rest)
  else skipUnknown depth tag w a bytes

def OpRecord.field (depth : Nat) (o : OpRecord) (tag : Nat) (w : WireType) (bytes : Bytes) :
    Except DecodeError (OpRecord × Bytes) :=
  match tag with
  | 1 => within "OpRecord" "name" do
    let (s, rest) ← readString w bytes
    pure ({ o with name := s }, rest)
  | 2 => within "OpRecord" "op_type" do
    let (s, rest) ← readString w bytes
    pure ({ o with opType := s }, rest)
  | 3 => within "OpRecord" "inputs" do
    let (s, rest) ← readString w bytes
    pure ({ o with inputs := o.inputs ++ [s] }, rest)
  | 4 => within "OpRecord" "outputs" do
    let (t, rest) ← readNested depth w TensorRecord.field .empty bytes
    pure ({ o with outputs := o.outputs ++ [t] }, rest)
  | 5 => within "OpRecord" "attrs" do
    let (a, rest) ← readNested depth w AttrRecord.field .empty bytes
    pure ({ o with attrs := o.attrs ++ [a] }, rest)
  | _ => skipUnknown depth tag w o bytes

/-- One choice of a metadata value, read into the current one when it is a message of the same
kind. -/
def MetaPayload.field (depth : Nat) (current : Option MetaPayload) (tag : Nat) (w : WireType)
    (bytes : Bytes) : Except DecodeError ((Option MetaPayload) × Bytes) :=
  let set := fun (p : MetaPayload) (rest : Bytes) => Except.ok (some p, rest)
  match tag with
  | 4 => do
    let (b, rest) ← readBool w bytes
    set (.flag b) rest
  | 5 => do
    let (n, rest) ← readVarintField w bytes
    set (.count n) rest
  | 6 => do
    let start := match current with
      | some (.counts ns) => ns
      | _ => []
    let (ns, rest) ← readNested depth w countListField start bytes
    set (.counts ns) rest
  | 7 => do
    let (i, rest) ← readInt64 w bytes
    set (.int i) rest
  | _ => do
    let (s, rest) ← readString w bytes
    set (.text s) rest

def MetadataRecord.field (depth : Nat) (m : MetadataRecord) (tag : Nat) (w : WireType)
    (bytes : Bytes) : Except DecodeError (MetadataRecord × Bytes) :=
  match tag with
  | 1 => within "MetadataRecord" "op" do
    let (s, rest) ← readString w bytes
    pure ({ m with op := s }, rest)
  | 2 => within "MetadataRecord" "namespace" do
    let (s, rest) ← readString w bytes
    pure ({ m with ns := s }, rest)
  | 3 => within "MetadataRecord" "kind" do
    let (s, rest) ← readString w bytes
    pure ({ m with kind := s }, rest)
  | 4 | 5 | 6 | 7 | 8 => within "MetadataRecord" "value" do
    let (v, rest) ← MetaPayload.field depth m.value tag w bytes
    pure ({ m with value := v }, rest)
  | _ => skipUnknown depth tag w m bytes

def GraphRecord.field (depth : Nat) (g : GraphRecord) (tag : Nat) (w : WireType) (bytes : Bytes) :
    Except DecodeError (GraphRecord × Bytes) :=
  match tag with
  | 1 => within "GraphRecord" "ops" do
    let (o, rest) ← readNested depth w OpRecord.field .empty bytes
    pure ({ g with ops := g.ops ++ [o] }, rest)
  | 2 => within "GraphRecord" "output_nodes" do
    let (s, rest) ← readString w bytes
    pure ({ g with outputNodes := g.outputNodes ++ [s] }, rest)
  | 3 => within "GraphRecord" "topo_order" do
    let (s, rest) ← readString w bytes
    pure ({ g with topoOrder := g.topoOrder ++ [s] }, rest)
  | 4 => within "GraphRecord" "metadata" do
    let (m, rest) ← readNested depth w MetadataRecord.field .empty bytes
    pure ({ g with metadata := g.metadata ++ [m] }, rest)
  | _ => skipUnknown depth tag w g bytes

/-- The nesting budget of a whole message. -/
def nestingLimit : Nat := 100

/-- Read a graph record from all of `bytes`. -/
def GraphRecord.decode (bytes : Bytes) : Except DecodeError GraphRecord := do
  let (g, _) ← fieldsUntil 0 (GraphRecord.field nestingLimit) (bytes.length + 1) .empty bytes
  pure g

/-- A data type number prints as its type's name when it has one. -/
def dtypeText (code : Int) : String :=
  match DType.ofCode? code with
  | some d => d.name
  | none => toString code

def messageText (name : String) (fields : List (String × String)) : String :=
  name ++ " \x7b " ++ ", ".intercalate (fields.map fun (k, v) => k ++ ": " ++ v) ++ " \x7d"

def optionText : Option String → String
  | some s => "Some(" ++ s ++ ")"
  | none => "None"

def stringsText (ss : List String) : String := Text.bracketed (ss.map Text.literal)

def ShapeRecord.debug (s : ShapeRecord) : String :=
  messageText "ShapeRecord" [("known", toString s.known), ("dims", Text.bracketed (s.dims.map toString))]

def TensorRecord.debug (t : TensorRecord) : String :=
  messageText "TensorRecord"
    [("name", Text.literal t.name), ("dtype", dtypeText t.dtype), ("shape", optionText (t.shape.map ShapeRecord.debug))]

def listMessage (name : String) (items : List String) : String :=
  messageText name [("values", Text.bracketed items)]

def AttrPayload.debug : AttrPayload → String
  | .bool b => "Bool(" ++ toString b ++ ")"
  | .int i => "Int(" ++ toString i ++ ")"
  | .float bits => "Float(" ++ BinaryFormat.binary32.debugText bits ++ ")"
  | .str s => "Str(" ++ Text.literal s ++ ")"
  | .ints vs => "Ints(" ++ listMessage "IntList" (vs.map toString) ++ ")"
  | .floats bs => "Floats(" ++ listMessage "FloatList" (bs.map BinaryFormat.binary32.debugText) ++ ")"
  | .strs ss => "Strs(" ++ listMessage "StrList" (ss.map Text.literal) ++ ")"
  | .dtype c => "DType(" ++ dtypeText c ++ ")"
  | .shape s => "Shape(" ++ s.debug ++ ")"

def AttrRecord.debug (a : AttrRecord) : String :=
  messageText "AttrRecord" [("name", Text.literal a.name), ("value", optionText (a.value.map AttrPayload.debug))]

def OpRecord.debug (o : OpRecord) : String :=
  messageText "OpRecord" [("name", Text.literal o.name), ("op_type", Text.literal o.opType),
    ("inputs", stringsText o.inputs), ("outputs", Text.bracketed (o.outputs.map TensorRecord.debug)),
    ("attrs", Text.bracketed (o.attrs.map AttrRecord.debug))]

def MetaPayload.debug : MetaPayload → String
  | .flag b => "Flag(" ++ toString b ++ ")"
  | .count n => "Count(" ++ toString n ++ ")"
  | .counts ns => "Counts(" ++ listMessage "CountList" (ns.map toString) ++ ")"
  | .int i => "Int(" ++ toString i ++ ")"
  | .text s => "Text(" ++ Text.literal s ++ ")"

def MetadataRecord.debug (m : MetadataRecord) : String :=
  messageText "MetadataRecord" [("op", Text.literal m.op), ("namespace", Text.literal m.ns),
    ("kind", Text.literal m.kind), ("value", optionText (m.value.map MetaPayload.debug))]

/-- The debugging text of a graph record. -/
def GraphRecord.debug (g : GraphRecord) : String :=
  messageText "GraphRecord" [("ops", Text.bracketed (g.ops.map OpRecord.debug)),
    ("output_nodes", stringsText g.outputNodes), ("topo_order", stringsText g.topoOrder),
    ("metadata", Text.bracketed (g.metadata.map MetadataRecord.debug))]

end Snapshot

end OpGraph
