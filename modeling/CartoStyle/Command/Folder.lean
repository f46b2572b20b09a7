import CartoStyle.Command.Run

set_option autoImplicit false

/-! # Files

Reading a file as text, and folders as values: the files below a folder, and where the parts of a path
lead among them. Of what lies outside the folder nothing is known but that there are folders above
it. -/

namespace CartoStyle

/-! ## Reading text -/

/-- What a path leads to. -/
inductive Entry where
  | file (content : ByteArray)
  | folder

namespace Entry

/-- The size of an entry. A folder takes one block. -/
def size : Entry → Nat
  | .file content => content.size
  | .folder => 4096

/-- The text of a file. -/
def text : Entry → Except FileFault String
  | .folder => .error .isAFolder
  | .file content =>
    match String.fromUTF8? content with
    | some text => .ok text
    | none => .error .notText

/-- The text of the entry at a path, unless it is larger than allowed. -/
def textWithin (limit : Nat) (path : String) (found : Except FileFault Entry) :
    Except CommandFailure String := do
  let entry ← found.mapError (.file path)
  if limit < entry.size then throw (.tooLarge path entry.size limit)
  entry.text.mapError (.file path)

end Entry

/-! ## The size limit -/

namespace SizeLimit

/-- The greatest size of a file in bytes, where no other is set. -/
def standard : Nat := 100 * 1024 * 1024

/-- The number of a setting: digits with or without a plus sign, below `2 ^ 64`. -/
def number? (setting : String) : Option Nat :=
  let digits :=
    match setting.toList with
    | '+' :: rest => rest
    | all => all
  if digits.isEmpty || !digits.all Char.isDigit then none
  else
    let n := digits.foldl (fun n c => 10 * n + (c.toNat - '0'.toNat)) 0
    if n < 2 ^ 64 then some n else none

/-- The limit of a setting. One that is no number counts as none. -/
def ofSetting (setting : Option String) : Nat := (setting.bind number?).getD standard

end SizeLimit

/-! ## Folders -/

/-- The files below a folder, each with the parts of its path. -/
structure Folder where
  files : List (List String × ByteArray) := []

/-- A place at a folder or below it, or a number of steps above it. -/
structure Spot where
  above : Nat := 0
  parts : List String := []
  deriving DecidableEq, Repr

namespace Folder

/-- The greatest number of bytes of a part of a path. -/
def longestPart : Nat := 255

/-- The least number of bytes that is too many for a path. -/
def pathBound : Nat := 4096

/-- The content of the file at a place. -/
def content? (f : Folder) (spot : Spot) : Option ByteArray :=
  if spot.above = 0 then f.files.lookup spot.parts else none

/-- Whether there is a folder at a place. -/
def isFolder (f : Folder) (spot : Spot) : Bool :=
  spot.parts.isEmpty ||
    (spot.above == 0 && f.files.any fun file =>
      spot.parts.length < file.1.length && file.1.take spot.parts.length == spot.parts)

/-- The place one part further. It need not hold anything yet. -/
def step (f : Folder) (spot : Spot) (part : String) : Except FileFault Spot :=
  if !f.isFolder spot then .error (if (f.content? spot).isSome then .notAFolder else .notFound)
  else if part = "" ∨ part = "." then .ok spot
  else if part = ".." then
    .ok (if spot.parts.isEmpty then { spot with above := spot.above + 1 }
      else { spot with parts := spot.parts.dropLast })
  else if longestPart < part.utf8ByteSize then .error .longName
  else .ok { spot with parts := spot.parts ++ [part] }

/-- The parts of a path and the place where it starts. -/
def startOf (path : String) : Except FileFault (Spot × List String) :=
  if path.contains '\x00' then .error .nameWithNul
  else if path.isEmpty then .error .notFound
  else if pathBound ≤ path.utf8ByteSize then .error .longName
  else .ok ({ above := if path.startsWith "/" then 1 else 0 }, path.splitOn "/")

/-- What a path leads to. -/
def find (f : Folder) (path : String) : Except FileFault Entry := do
  let (start, parts) ← startOf path
  let spot ← parts.foldlM f.step start
  match f.content? spot with
  | some content => return .file content
  | none => if f.isFolder spot then return .folder else throw .notFound

/-- The place of a file to be written. -/
def place (f : Folder) (path : String) : Except FileFault Spot := do
  let (start, parts) ← startOf path
  let named := (parts.reverse.dropWhile (·.isEmpty)).reverse
  let parent ← named.dropLast.foldlM f.step start
  let spot ← f.step parent (named.getLast?.getD "")
  if named.length < parts.length || f.isFolder spot then throw .isAFolder
  return spot

/-- Write a file. What is written outside the folder is lost. -/
def write (f : Folder) (path text : String) : Except FileFault Folder := do
  let spot ← f.place path
  if 0 < spot.above then return f
  let kept := f.files.filter (·.1 != spot.parts)
  return { files := kept ++ [(spot.parts, text.toUTF8)] }

/-- The folder of files given by path. -/
def ofFiles (files : List (String × ByteArray)) : Folder :=
  { files := files.map fun (path, content) =>
      ((path.splitOn "/").filter (fun part => part != "" && part != "."), content) }

/-- The files right in the folder that are not as they were before, by name. -/
def changed (before after : Folder) : List (String × String) :=
  let fresh := after.files.filterMap fun (parts, content) =>
    match parts with
    | [name] =>
      if (before.files.lookup parts).any (·.data == content.data) then none
      else some (name, (String.fromUTF8? content).getD "")
    | _ => none
  fresh.mergeSort fun a b => a.1 ≤ b.1

end Folder

/-! ## Commands in a folder -/

namespace Invocation

/-- Run a command in a folder: how it ends, and the folder after it. -/
def runIn (colours : Bool) (limit : Nat) (f : Folder) (invocation : Invocation) :
    Finish × Folder :=
  let outcome := invocation.run colours fun path => Entry.textWithin limit path (f.find path)
  match outcome.write with
  | none => (outcome.finish none, f)
  | some (path, text) =>
    match f.write path text with
    | .ok after => (outcome.finish none, after)
    | .error fault => (outcome.finish (some (.file path fault)), f)

end Invocation

end CartoStyle
