import Mathlib.Logic.Basic

/-!
# Path names

A path is a string whose separator is `/`. The functions split a path at its last separator and
join a directory with a file name.
-/

namespace WfcCore.Foundation.Path

/-- What follows the last separator. -/
def filename (path : String) : String :=
  String.ofList (path.toList.reverse.takeWhile (· != '/')).reverse

/-- What precedes the last separator, without further separators at its end. The parent of a name
in the root directory is the root, and a name without a separator has the empty parent. -/
def parentPath (path : String) : String :=
  match path.toList.reverse.dropWhile (· != '/') with
  | [] => ""
  | stem =>
    match stem.dropWhile (· == '/'), filename path with
    | [], "" => ""
    | [], _ => "/"
    | rest, _ => String.ofList rest.reverse

def append (directory name : String) : String :=
  if directory.toList.getLast? == some '/' then directory ++ name else directory ++ "/" ++ name

end WfcCore.Foundation.Path
