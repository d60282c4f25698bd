namespace OpGraph

/-- A failure reported by the operating system. -/
inductive OsError where
  | notFound
  | alreadyExists
  | notDirectory
  | isDirectory
  | nameTooLong
  | nulInPath
  | incompleteTree
  deriving DecidableEq, Repr

def OsError.message : OsError → String
  | .notFound => "No such file or directory (os error 2)"
  | .alreadyExists => "File exists (os error 17)"
  | .notDirectory => "Not a directory (os error 20)"
  | .isDirectory => "Is a directory (os error 21)"
  | .nameTooLong => "File name too long (os error 36)"
  | .nulInPath => "file name contained an unexpected NUL byte"
  | .incompleteTree => "failed to create whole tree"

/-- A failed input or output, as file operations report it. -/
inductive IoError where
  | openFailed (path : String) (cause : OsError)
  | createFailed (path : String) (cause : OsError)
  | os (cause : OsError)
  | invalidUtf8
  deriving DecidableEq, Repr

def IoError.message : IoError → String
  | .openFailed path cause => "Failed to open file '" ++ path ++ "': " ++ cause.message
  | .createFailed path cause => "Failed to create file '" ++ path ++ "': " ++ cause.message
  | .os cause => cause.message
  | .invalidUtf8 => "stream did not contain valid UTF-8"

/-- The most bytes a path may have. -/
def pathLimit : Nat := 4095

/-- The most bytes a part of a path may have. -/
def nameLimit : Nat := 255

/-- What a place holds: a file's bytes, a device that reads as empty and discards what is written,
or a directory with its entries by name. -/
inductive Node where
  | file (bytes : List UInt8)
  | sink
  | directory (entries : List (String × Node))
  deriving Repr

namespace Node

def isDirectory : Node → Bool
  | .directory _ => true
  | _ => false

/-- The entry of a directory by name. -/
def entry? : Node → String → Option Node
  | .directory es, name => (es.find? (·.1 == name)).map (·.2)
  | _, _ => none

/-- Set the entry of a name: in place if present, else added last. -/
def setEntry (es : List (String × Node)) (name : String) (n : Node) : List (String × Node) :=
  if es.any (·.1 == name) then es.map fun (k, m) => if k == name then (k, n) else (k, m)
  else es ++ [(name, n)]

/-- Put a node at a path of names below this directory; nothing changes when a directory on the
way is missing. -/
def place : Node → List String → Node → Node
  | _, [], n => n
  | .directory es, name :: rest, n =>
    match (es.find? (·.1 == name)).map (·.2) with
    | some m => .directory (setEntry es name (place m rest n))
    | none => if rest.isEmpty then .directory (setEntry es name n) else .directory es
  | m, _ :: _, _ => m

end Node

/-- Where a walk starts: the working directory or the host's root; `..` from the working
directory leads to the directory that holds it. -/
inductive Root where
  | work
  | above
  | host
  deriving DecidableEq, Repr

/-- A place in the file system: a root and the names leading down from it. -/
structure Location where
  root : Root
  names : List String
  deriving DecidableEq, Repr

namespace Location

def child (l : Location) (name : String) : Location := { l with names := l.names ++ [name] }

/-- The directory above: the working directory's is the one that holds it, and any other root
is its own parent. -/
def up (l : Location) : Location :=
  match l.names, l.root with
  | [], .work => ⟨.above, []⟩
  | _, _ => { l with names := l.names.dropLast }

end Location

/-- What the last part of a walked path names. -/
inductive Target where
  /-- A directory reached through `.`, `..` or a root. -/
  | directory
  /-- An entry by its directory, what that directory holds under the name, the name, and whether
  a slash follows it. -/
  | named (parent : Location) (held : Option Node) (name : String) (slash : Bool)

/-- The three roots' contents. -/
structure FileStore where
  work : Node
  above : Node
  host : Node
  deriving Repr

/-- The parent of a path, computed on its text as the standard library does: trailing slashes
and `.` parts are dropped, then the last part goes; a root has no parent, and a path starting with
`.` alone has the empty path above it. -/
def parentPath (path : String) : Option String :=
  let cs := path.toList
  let rooted := cs.head? == some '/'
  let current := !rooted && cs.head? == some '.' && (cs.length == 1 || cs[1]? == some '/')
  let start := (if rooted then 1 else 0) + (if current then 1 else 0)
  let lead := String.ofList (cs.take start)
  let body := String.ofList (cs.drop start)
  let pieces := if body.isEmpty then [] else body.splitOn "/"
  let droppable := fun (p : String) => p.isEmpty || p == "."
  match (pieces.reverse.dropWhile droppable) with
  | [] => if rooted then none else if current then some "" else none
  | _ :: before =>
    let kept := (before.dropWhile droppable).reverse
    some (lead ++ "/".intercalate kept)

namespace FileStore

/-- An empty working directory beside the host's `/dev/null`. -/
def empty : FileStore :=
  ⟨.directory [], .directory [], .directory [("dev", .directory [("null", .sink)])]⟩

def rootNode (s : FileStore) : Root → Node
  | .work => s.work
  | .above => s.above
  | .host => s.host

/-- Put a node at a place whose directory exists. -/
def put (s : FileStore) (l : Location) (n : Node) : FileStore :=
  let r := (s.rootNode l.root).place l.names n
  match l.root with
  | .work => { s with work := r }
  | .above => { s with above := r }
  | .host => { s with host := r }

/-- Walk parts that must all be directories, from the directory `n` under `root`; `names` are
the names leading down to it and `trail` the directories above it, both nearest first. -/
def walk (s : FileStore) : Root → List String → List Node → Node → List String →
    Except OsError (Location × Node)
  | root, names, _, n, [] => .ok (⟨root, names.reverse⟩, n)
  | root, names, trail, n, part :: rest =>
    if part = "." then walk s root names trail n rest
    else if part = ".." then
      match names, trail with
      | _ :: higherNames, above :: higher => walk s root higherNames higher above rest
      | _, _ =>
        let up := (Location.up ⟨root, []⟩).root
        walk s up [] [] (s.rootNode up) rest
    else if part.utf8ByteSize > nameLimit then .error .nameTooLong
    else
      match n.entry? part with
      | some m =>
        if m.isDirectory then walk s root (part :: names) (n :: trail) m rest
        else .error .notDirectory
      | none => .error .notFound

/-- Walk a path up to its last part. -/
def target (s : FileStore) (path : String) : Except OsError Target := do
  if path.contains (Char.ofNat 0) then throw .nulInPath
  if path.utf8ByteSize > pathLimit then throw .nameTooLong
  if path.isEmpty then throw .notFound
  let root : Root := if path.startsWith "/" then .host else .work
  let parts := (path.splitOn "/").filter (!·.isEmpty)
  match parts.getLast? with
  | none => pure .directory
  | some last =>
    let (parent, dir) ← s.walk root [] [] (s.rootNode root) parts.dropLast
    if last = "." || last = ".." then pure .directory
    else pure (.named parent (dir.entry? last) last (path.endsWith "/"))

/-- What a path names, found as opening it for reading finds it. -/
def lookup (s : FileStore) (path : String) : Except OsError Node := do
  match ← s.target path with
  | .directory => pure (.directory [])
  | .named _ held name slash =>
    if name.utf8ByteSize > nameLimit then throw .nameTooLong
    match held with
    | none => throw .notFound
    | some n => if slash && !n.isDirectory then throw .notDirectory else pure n

/-- Open then read a file: the failure says which of the two failed. -/
def read (s : FileStore) (path : String) : Except IoError (List UInt8) :=
  match s.lookup path with
  | .error cause => .error (.openFailed path cause)
  | .ok (.directory _) => .error (.os .isDirectory)
  | .ok .sink => .ok []
  | .ok (.file bytes) => .ok bytes

/-- The bytes of a file, a failure reported with its cause only. -/
def readAll (s : FileStore) (path : String) : Except IoError (List UInt8) :=
  match s.read path with
  | .error (.openFailed _ cause) => .error (.os cause)
  | other => other

/-- The text of a file, which must be UTF-8. -/
def readText (s : FileStore) (path : String) : Except IoError String := do
  let bytes ← s.readAll path
  match String.fromUTF8? (ByteArray.mk bytes.toArray) with
  | some t => pure t
  | none => throw .invalidUtf8

/-- Create or truncate a file and write it. -/
def write (s : FileStore) (path : String) (bytes : List UInt8) : Except OsError FileStore := do
  match ← s.target path with
  | .directory => throw .isDirectory
  | .named parent held name slash =>
    if slash then throw .isDirectory
    if name.utf8ByteSize > nameLimit then throw .nameTooLong
    match held with
    | some (.directory _) => throw .isDirectory
    | some .sink => pure s
    | _ => pure (s.put (parent.child name) (.file bytes))

/-- Create one directory; its parent must exist. -/
def makeDir (s : FileStore) (path : String) : Except OsError FileStore := do
  match ← s.target path with
  | .directory => throw .alreadyExists
  | .named parent held name _ =>
    if name.utf8ByteSize > nameLimit then throw .nameTooLong
    match held with
    | some _ => throw .alreadyExists
    | none => pure (s.put (parent.child name) (.directory []))

def isDirectory (s : FileStore) (path : String) : Bool :=
  match s.lookup path with
  | .ok n => n.isDirectory
  | .error _ => false

/-- Create a directory and its missing parents. Each step up shortens the path, so its length
bounds the depth. -/
def makeDirs (s : FileStore) (path : String) : Except OsError FileStore :=
  go (path.length + 1) s path
where
  go : Nat → FileStore → String → Except OsError FileStore
    | 0, s, _ => .ok s
    | fuel + 1, s, path =>
      if path.isEmpty then .ok s
      else
        match s.makeDir path with
        | .ok s' => .ok s'
        | .error .notFound =>
          match parentPath path with
          | none => .error .incompleteTree
          | some above => do
            let s' ← go fuel s above
            match s'.makeDir path with
            | .ok s'' => .ok s''
            | .error e => if s'.isDirectory path then .ok s' else .error e
        | .error e => if s.isDirectory path then .ok s else .error e

def exists? (s : FileStore) (path : String) : Bool :=
  match s.lookup path with
  | .ok _ => true
  | .error _ => false

end FileStore

end OpGraph
