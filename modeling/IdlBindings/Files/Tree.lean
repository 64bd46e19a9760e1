import IdlBindings.Text.Utf8

/-!
Files and directories by their paths. A path is the list of the names on the
way from the root, which is a directory.
-/

namespace IdlBindings.Files

inductive IoFault
  | notFound
  | invalidData
  | isDirectory
  | notDirectory
  | alreadyExists
deriving DecidableEq

abbrev Path := List String

/-- The path as text. -/
def Path.text (path : Path) : String :=
  String.intercalate "/" path

inductive Node
  | file (content : List UInt8)
  | directory
deriving DecidableEq

/-- What there is at each path; of two entries for a path the first counts. -/
structure Tree where
  entries : List (Path × Node)

namespace Tree

def empty : Tree := ⟨[]⟩

def node? (tree : Tree) (path : Path) : Option Node :=
  if path.isEmpty then some .directory else tree.entries.lookup path

def put (tree : Tree) (path : Path) (node : Node) : Tree :=
  ⟨(path, node) :: tree.entries⟩

def isFile (tree : Tree) (path : Path) : Bool :=
  match tree.node? path with
  | some (.file _) => true
  | some .directory | none => false

def isDirectory (tree : Tree) (path : Path) : Bool :=
  tree.node? path == some .directory

/-- The text of a file. -/
def readText (tree : Tree) (path : Path) : Except IoFault String :=
  match tree.node? path with
  | none => .error .notFound
  | some .directory => .error .isDirectory
  | some (.file content) =>
    match Text.ofUtf8 content with
    | .ok text => .ok text
    | .error _ => .error .invalidData

/-- Makes the directories below `above` that lead along `names`. -/
def makeDirectoriesBelow (tree : Tree) (above : Path) : List String → Except IoFault Tree
  | [] => .ok tree
  | name :: rest =>
    let path := above ++ [name]
    match tree.node? path with
    | some .directory => tree.makeDirectoriesBelow path rest
    | some (.file _) => .error (if rest.isEmpty then .alreadyExists else .notDirectory)
    | none => (tree.put path .directory).makeDirectoriesBelow path rest

/-- Makes a directory with those above it, where they are missing. -/
def makeDirectories (tree : Tree) (path : Path) : Except IoFault Tree :=
  tree.makeDirectoriesBelow [] path

end Tree

/-- The parts of a text between its slashes, the first of which continues
`current`, given last character first. -/
def splitFrom (current : List Char) : List Char → List String
  | [] => [String.ofList current.reverse]
  | c :: rest =>
    if c = '/' then String.ofList current.reverse :: splitFrom [] rest
    else splitFrom (c :: current) rest

/-- The names on the way that a text with slashes describes. -/
def splitName (text : String) : Path :=
  splitFrom [] text.toList

/-- The parts of a name with slashes; empty ones mean nothing. -/
def nameParts (name : String) : List String :=
  (splitName name).filter (· != "")

/-- The path of a name with slashes below a directory, as it is written. -/
def Path.below (directory : Path) (name : String) : Path :=
  directory ++ nameParts name

/-- Where a part of a path leads: one dot stays, and two dots go up. -/
def Path.step (path : Path) (part : String) : Path :=
  if part = "." then path
  else if part = ".." then path.dropLast
  else path ++ [part]

/-- Where a name with slashes leads from a directory. -/
def Path.follow (directory : Path) (name : String) : Path :=
  (nameParts name).foldl Path.step directory

def Tree.requireDirectory (tree : Tree) (path : Path) : Except IoFault Unit :=
  match tree.node? path with
  | none => .error .notFound
  | some (.file _) => .error .notDirectory
  | some .directory => .ok ()

/-- All that the parts lead through must be directories. -/
def Tree.requireWay (tree : Tree) (path : Path) : List String → Except IoFault Unit
  | [] => tree.requireDirectory path
  | part :: rest => do
    tree.requireDirectory path
    tree.requireWay (path.step part) rest

/-- A name that ends in a slash stands for a directory. -/
def namesDirectory (name : String) : Bool :=
  name.toList.getLast? == some '/'

/-- Writes a file below a directory. What leads to the file must be there. -/
def Tree.writeBelow (tree : Tree) (directory : Path) (name : String) (content : List UInt8) :
    Except IoFault Tree := do
  tree.requireWay directory (nameParts name).dropLast
  let path := directory.follow name
  if namesDirectory name || tree.isDirectory path then .error .isDirectory
  else .ok (tree.put path (.file content))

/-- A file name without its last extension; a name that only starts with a dot
is kept. -/
def stemOfName (name : String) : String :=
  let reversed := name.toList.reverse
  let before := (reversed.dropWhile (· != '.')).drop 1
  if before.isEmpty then name else String.ofList before.reverse

/-- The stem of the file at a path, if the path names one. -/
def Path.stem? (path : Path) : Option String :=
  match path.getLast? with
  | none => none
  | some name => if name = ".." then none else some (stemOfName name)

end IdlBindings.Files
