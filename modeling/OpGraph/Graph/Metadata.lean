import OpGraph.Graph.Error

namespace OpGraph

/-- Whether two underscores stand next to each other. -/
def hasDoubleUnderscore : List Char → Bool
  | '_' :: '_' :: _ => true
  | _ :: rest => hasDoubleUnderscore rest
  | [] => false

/-- Whether a text may name a namespace: non-empty, ASCII letters, digits and underscores, and no
two underscores in a row. -/
def Namespace.isValidName (s : String) : Bool :=
  !s.isEmpty && s.toList.all (fun c => c.isAlphanum || c == '_') && !hasDoubleUnderscore s.toList

/-- A metadata namespace. -/
structure Namespace where
  name : String
  valid : Namespace.isValidName name = true
  deriving DecidableEq

namespace Namespace

/-- Check a namespace name. -/
def make (s : String) : Except ValidationError Namespace :=
  if h : isValidName s = true then .ok ⟨s, h⟩ else .error (.invalidNamespace s)

/-- The rendered key of a kind in this namespace. -/
def key (ns : Namespace) (kind : String) : String := ns.name ++ "__" ++ kind

end Namespace

/-- A metadata value. -/
inductive MetaValue where
  | flag (b : Bool)
  | count (n : Nat)
  | counts (ns : List Nat)
  | int (i : Int)
  | text (s : String)
  deriving DecidableEq, Repr, Inhabited

namespace MetaValue

def asFlag? : MetaValue → Option Bool
  | flag b => some b
  | _ => none

def asCounts? : MetaValue → Option (List Nat)
  | counts ns => some ns
  | _ => none

end MetaValue

/-- One metadata entry. -/
structure MetaEntry where
  op : Nat
  ns : Namespace
  kind : String
  value : MetaValue
  deriving DecidableEq

namespace MetaEntry

/-- Whether the key of `a` comes before the key `(op, ns, kind)`. -/
def keyBefore (a : MetaEntry) (op : Nat) (ns : Namespace) (kind : String) : Bool :=
  a.op < op || (a.op == op && (a.ns.name < ns.name || (a.ns.name == ns.name && a.kind < kind)))

def hasKey (a : MetaEntry) (op : Nat) (ns : Namespace) (kind : String) : Bool :=
  a.op == op && a.ns.name == ns.name && a.kind == kind

end MetaEntry

/-- The metadata table, sorted by key. -/
structure Metadata where
  entries : List MetaEntry
  deriving DecidableEq

namespace Metadata

def empty : Metadata := ⟨[]⟩

instance : Inhabited Metadata := ⟨empty⟩

/-- Put an entry in key order, replacing an entry with the same key; also the replaced value. -/
def insertEntry (e : MetaEntry) : List MetaEntry → List MetaEntry × Option MetaValue
  | [] => ([e], none)
  | a :: rest =>
    if a.hasKey e.op e.ns e.kind then (e :: rest, some a.value)
    else if a.keyBefore e.op e.ns e.kind then
      let (r, prev) := insertEntry e rest
      (a :: r, prev)
    else (e :: a :: rest, none)

/-- Set a value; the previous value under the key, if any, comes back. -/
def insert (m : Metadata) (op : Nat) (ns : Namespace) (kind : String) (v : MetaValue) :
    Metadata × Option MetaValue :=
  let (entries, prev) := insertEntry ⟨op, ns, kind, v⟩ m.entries
  (⟨entries⟩, prev)

def get? (m : Metadata) (op : Nat) (ns : Namespace) (kind : String) : Option MetaValue :=
  (m.entries.find? (·.hasKey op ns kind)).map (·.value)

/-- The entries of one op, in key order. -/
def forOp (m : Metadata) (op : Nat) : List MetaEntry :=
  m.entries.filter (·.op == op)

/-- Drop every entry of an op. -/
def removeOp (m : Metadata) (op : Nat) : Metadata :=
  ⟨m.entries.filter (·.op != op)⟩

/-- The number of entries. -/
def size (m : Metadata) : Nat := m.entries.length

/-- Move every entry to a new op id; entries whose op maps to nothing are dropped. -/
def remap (m : Metadata) (f : Nat → Option Nat) : Metadata :=
  m.entries.foldl (fun acc e =>
    match f e.op with
    | some op => (acc.insert op e.ns e.kind e.value).1
    | none => acc) empty

end Metadata

end OpGraph
