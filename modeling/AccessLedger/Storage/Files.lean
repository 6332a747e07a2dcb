import AccessLedger.Text.Raw

/-!
A tree of directories and files, as far as a program looks at it. Paths are followed name by name,
and every directory on the way has to exist.
-/

namespace AccessLedger

/--
A place in the tree: the names on the way down from the working directory. The root of all
directories is named by a slash, the directories above the working directory by two dots each.
-/
abbrev Place := List String

inductive Item where
  | directory
  | file (content : RawText)
deriving DecidableEq, Inhabited, Repr

structure Files where
  items : List (Place × Item) := []
deriving DecidableEq, Inhabited, Repr

inductive AccessFault where
  | missing
  | exists
  | notDirectory
  | isDirectory
  | nameTooLong
  | nulInName
  | notText
deriving DecidableEq, Inhabited, Repr

def AccessFault.message : AccessFault → String
  | missing => "No such file or directory (os error 2)"
  | «exists» => "File exists (os error 17)"
  | notDirectory => "Not a directory (os error 20)"
  | isDirectory => "Is a directory (os error 21)"
  | nameTooLong => "File name too long (os error 36)"
  | nulInName => "file name contained an unexpected NUL byte"
  | notText => "stream did not contain valid UTF-8"

namespace Place

/--
Places that are directories in every tree: the working directory, those above it and the root.
-/
def isGiven (p : Place) : Bool :=
  p == ["/"] || p.all (· == "..")

def enter (p : Place) (name : String) : Place :=
  if name = "" ∨ name = "." then p
  else if name = ".." then
    if p == ["/"] then p
    else if p.isGiven then p ++ [".."]
    else p.dropLast
  else p ++ [name]

def path (p : Place) : String :=
  match p with
  | "/" :: names => "/" ++ String.intercalate "/" names
  | names => String.intercalate "/" names

end Place

structure Path where
  start : Place
  /-- Two slashes in a row, or one at the end, leave an empty name. -/
  names : List String
deriving DecidableEq, Inhabited, Repr

namespace Path

def pieces : List Char → List (List Char)
  | [] => [[]]
  | c :: cs =>
    match pieces cs with
    | [] => [[c]]
    | p :: ps => if c = '/' then [] :: p :: ps else (c :: p) :: ps

def ofString (s : String) : Path :=
  let names := (pieces s.toList).map String.ofList
  ⟨if s.toList.head? = some '/' then ["/"] else [], names⟩

/-- Whether a name leads anywhere and does not stay in place. -/
def isStep (name : String) : Bool :=
  name != "" && name != "."

/-- The names before the last step, which is left out together with what follows it. -/
def parents (p : Path) : List String :=
  ((p.names.reverse.dropWhile (!isStep ·)).drop 1).reverse

/-- The path that names spell; a path from the root begins with an empty name. -/
def spell (names : List String) : String :=
  String.intercalate "/" names

def byteLimit : Nat := 4096

def nameLimit : Nat := 255

def check (path : String) : Except AccessFault Unit :=
  if path.toList.contains '\x00' then .error .nulInName
  else if byteLimit ≤ path.utf8ByteSize then .error .nameTooLong
  else if path.isEmpty then .error .missing
  else .ok ()

/-- Goes on from a path; an empty path adds nothing, not even a slash. -/
def join (base name : String) : String :=
  if base.isEmpty || base.toList.getLast? = some '/' then base ++ name else base ++ "/" ++ name

end Path

namespace Files

def item? (f : Files) (p : Place) : Option Item :=
  match f.items.lookup p with
  | some item => some item
  | none => if p.isGiven then some .directory else none

def put (f : Files) (p : Place) (item : Item) : Files :=
  if (f.items.lookup p).isSome then
    ⟨f.items.map fun entry => if entry.1 == p then (p, item) else entry⟩
  else ⟨f.items ++ [(p, item)]⟩

def withItem (f : Files) (p : Place) (item : Item) : Files :=
  let parents := (List.range p.length).map fun n => p.take n
  let f := parents.foldl (fun f parent =>
    if (f.item? parent).isSome then f else f.put parent .directory) f
  f.put p item

def isDirectory (f : Files) (p : Place) : Bool :=
  f.item? p == some .directory

def directory (f : Files) (p : Place) : Except AccessFault Unit :=
  match f.item? p with
  | none => .error .missing
  | some (.file _) => .error .notDirectory
  | some .directory => .ok ()

/--
The place that a name leads to from the place of a directory, whether there is anything or not.
-/
def step (f : Files) (p : Place) (name : String) : Except AccessFault Place := do
  f.directory p
  if Path.nameLimit < name.utf8ByteSize then throw .nameTooLong
  pure (p.enter name)

def walk (f : Files) (p : Place) (names : List String) : Except AccessFault Place :=
  names.foldlM f.step p

def read (f : Files) (path : String) : Except AccessFault RawText := do
  Path.check path
  let path := Path.ofString path
  let p ← f.walk path.start path.names
  match f.item? p with
  | none => throw .missing
  | some .directory => throw .isDirectory
  | some (.file content) => pure content

/-- The place of a new directory, which must not exist. -/
def newDirectory (f : Files) (start : Place) (names : List String) : Except AccessFault Place := do
  Path.check (Path.spell names)
  let p ← f.walk start names
  if (f.item? p).isSome then throw .exists
  pure p

def directoryThere (f : Files) (start : Place) (names : List String) : Bool :=
  match f.walk start names with
  | .ok p => f.isDirectory p
  | .error _ => false

def makeDirectory (f : Files) (start : Place) (names : List String) : Files × Option AccessFault :=
  match f.newDirectory start names with
  | .ok p => (f.put p .directory, none)
  | .error fault =>
      (f, if fault = .exists && f.directoryThere start names then none else some fault)

/--
Makes a directory and those that it is in, where they do not exist; the names are given innermost
first. Directories that were made stay when a later one cannot be made.
-/
def makeDirectories (f : Files) (start : Place) : List String → Files × Option AccessFault
  | [] => (f, none)
  | name :: outer =>
    if !Path.isStep name then f.makeDirectories start outer
    else
      match f.makeDirectory start (outer.reverse ++ [name]) with
      | (_, some .missing) =>
        match f.makeDirectories start outer with
        | (f, some fault) => (f, some fault)
        | (f, none) => f.makeDirectory start (outer.reverse ++ [name])
      | made => made

/--
The place of a file to be written, which may exist already; a slash at the end is for directories.
-/
def writable (f : Files) (path : Path) : Except AccessFault Place := do
  let names := path.names.reverse.dropWhile (· == "")
  let name := names.headD "."
  let p ← f.walk path.start names.tail.reverse
  f.directory p
  if name = "." || name = ".." || names.length < path.names.length then throw .isDirectory
  let p ← f.step p name
  if f.isDirectory p then throw .isDirectory
  pure p

def write (f : Files) (path content : String) : Except AccessFault Files := do
  Path.check path
  let p ← f.writable (Path.ofString path)
  pure (f.put p (.file (RawText.ofString content)))

/-- Writes a file; the directories that it is in are made first. -/
def save (f : Files) (path content : String) : Files × Option AccessFault :=
  let parts := Path.ofString path
  match f.makeDirectories parts.start parts.parents.reverse with
  | (f, some fault) => (f, some fault)
  | (f, none) =>
    match f.write path content with
    | .ok f => (f, none)
    | .error fault => (f, some fault)

def newDirectories (before after : Files) : List Place :=
  after.items.filterMap fun (p, item) =>
    if item == .directory && !before.isDirectory p then some p else none

def changes (before after : Files) : List (Place × RawText) :=
  after.items.filterMap fun (p, item) =>
    match item with
    | .file content => if before.item? p = some item then none else some (p, content)
    | .directory => none

end Files
end AccessLedger
