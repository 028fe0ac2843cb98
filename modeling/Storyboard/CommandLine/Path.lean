import Storyboard.Source.Stretch

/-!
# Paths

A path is a row of names with slashes between them. Where a path is shortened, empty names and
single dots stand for nothing, except that a slash in front starts at the root and a dot in front is
a name of its own. Where a path is followed, a single dot is a step that stays in a directory, so
there has to be one.
-/

namespace Storyboard.CommandLine.Path

/-- The bytes that a name in a directory may have. -/
def nameLimit : Nat := 255

/-- The bytes that a path may have. -/
def lengthLimit : Nat := 4095

def pieces (path : String) : List (List Char) :=
  stretches '/' path.toList

/-- The steps to follow, from left to right. -/
def steps (path : String) : List String :=
  ((pieces path).filter (· ≠ [])).map String.ofList

/-- A step to the directory itself or to the one it lies in. -/
def isDots (step : String) : Bool :=
  step = "." || step = ".."

def isAbsolute (path : String) : Bool :=
  path.toList.head? = some '/'

/-- The path ends in a slash, so what it names must be a directory. -/
def endsInSlash (path : String) : Bool :=
  path.toList.getLast? = some '/'

/-- The piece stands for nothing. -/
def isIdle (piece : List Char) : Bool :=
  piece = [] || piece = ['.']

def ofPieces (ps : List (List Char)) : String :=
  String.ofList (['/'].intercalate ps)

theorem ofPieces_pieces (path : String) : ofPieces (pieces path) = path := by
  rw [ofPieces, pieces, intercalate_stretches, String.ofList_toList]

/-- The beginnings of a path that end in a name, the longest first. The first one is the path itself
without what stands for nothing at its end. -/
def beginnings (path : String) : List String :=
  let ps := pieces path
  let named := (List.range ps.length).filterMap fun i =>
    if isIdle (ps.getD i []) then none else some (ofPieces (ps.take (i + 1)))
  let start :=
    if isAbsolute path then ["/"]
    else if ps.head? = some ['.'] then ["."]
    else []
  (start ++ named).reverse

/-- The path without its last name. The root has no parent; the parent of a single name is empty. -/
def parent? (path : String) : Option String :=
  match beginnings path with
  | [] => none
  | [_] => if isAbsolute path then none else some ""
  | _ :: parent :: _ => some parent

end Storyboard.CommandLine.Path
