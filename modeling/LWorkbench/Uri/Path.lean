import LWorkbench.Text.Split
import LWorkbench.Uri.Percent

/-!
# Paths of uris

A path is made of segments with slashes between them. A segment of one point stands for the
directory it is in and one of two points for the directory above, where a point may also be
written as a byte; both are done away with. A letter with a colon or a bar names a drive, which
has nothing above it.

## Main definitions

* `UriPath.isDrive`, `UriPath.isHere`, `UriPath.isAbove` — segments with a meaning
* `UriPath.resolve` — the segments of a path without those that stand for directories
* `UriPath.resolveFile`, `UriPath.hasDrive` — the same for the path of a file, and its drive
* `UriPath.render` — the text of a path
-/

namespace LWorkbench.UriPath

/-- Whether a segment names a drive. -/
def isDrive : List Char → Bool
  | [letter, colon] => letter.isAlpha && (colon = ':' || colon = '|')
  | _ => false

/-- A segment with its written points put in. -/
def dots : List Char → List Char
  | '%' :: '2' :: 'e' :: rest => '.' :: dots rest
  | '%' :: '2' :: 'E' :: rest => '.' :: dots rest
  | c :: rest => c :: dots rest
  | [] => []

/-- Whether a segment stands for the directory it is in. -/
def isHere (segment : List Char) : Bool := dots segment = ['.']

/-- Whether a segment stands for the directory above. -/
def isAbove (segment : List Char) : Bool := dots segment = ['.', '.']

/-- The segments, last first, without the last one, unless that is a drive. -/
def goUp : List (List Char) → List (List Char)
  | [] => []
  | last :: before => if isDrive last then last :: before else before

/-- The segments, last first, with a further one; a segment for a directory that is the last one of
its path leaves an empty one. -/
def push (done : List (List Char)) (segment : List Char) (isLast : Bool) : List (List Char) :=
  let ending := if isLast then [[]] else []
  if isAbove segment then ending ++ goUp done
  else if isHere segment then ending ++ done
  else segment :: done

/-- Pushes segments one after the other, each as `change` makes it from what is there already. -/
def pushAll (change : List (List Char) → List Char → List Char) (done : List (List Char)) :
    List (List Char) → List (List Char)
  | [] => done
  | segment :: rest => pushAll change (push done (change done segment) rest.isEmpty) rest

/-- The segments of a path without those that stand for directories. -/
def resolve (segments : List (List Char)) : List (List Char) :=
  (pushAll (fun _ segment => segment) [] segments).reverse

/-- A drive that comes first is written with a colon. -/
def writeDrive (done : List (List Char)) (segment : List Char) : List Char :=
  if done.isEmpty && isDrive segment then segment.take 1 ++ [':'] else segment

/-- The segments of the path of a file without those that stand for directories. -/
def resolveFile (segments : List (List Char)) : List (List Char) :=
  (pushAll writeDrive [] segments).reverse

/-- Whether a path begins with a drive. -/
def hasDrive (segments : List (List Char)) : Bool :=
  (segments.head?.map isDrive).getD false

/-- The segments without empty ones at the beginning; an empty one stays if there is no other. -/
def dropEmpty (segments : List (List Char)) : List (List Char) :=
  match segments.dropWhile List.isEmpty with
  | [] => [[]]
  | rest => rest

/-- The text of a path. -/
def render (segments : List (List Char)) : String :=
  String.join (segments.map fun segment => "/" ++ Percent.encode Percent.inPath segment)

end LWorkbench.UriPath
