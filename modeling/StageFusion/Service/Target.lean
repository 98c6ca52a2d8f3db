import StageFusion.Text.Cut
import StageFusion.Text.Hex

/-! The path that the target of a request names.

A target may name a host before the path, and have a query and a fragment after it. Within the path
a segment `.` stands for nothing and `..` takes back the segment before it. Percent escapes are
resolved twice, once by the client that sends the target and once by the service. Slashes at the
end of a path do not count. -/

namespace StageFusion.Service

/-- A target without host, query and fragment, with one slash at its start. -/
def plainPath (target : List Char) : List Char :=
  let beforeQuery := target.takeWhile fun c => c != '?' && c != '#'
  let afterHost :=
    match beforeQuery with
    | '/' :: '/' :: rest => rest.dropWhile (· != '/')
    | path => path
  '/' :: afterHost.dropWhile (· == '/')

/-- Adds a segment to those of a path, of which `..` takes back one. The first segment, before the
slash at the start, stays. -/
def addSegment (path : List (List Char)) (segment : List Char) : List (List Char) :=
  if segment = ['.'] then path
  else if segment = ['.', '.'] then
    if path = [[]] then path else path.dropLast
  else path ++ [segment]

/-- A path without the segments `.` and `..`. -/
def withoutDots (path : List Char) : List Char :=
  ['/'].intercalate ((Text.cutAt '/' path).foldl addSegment [])

/-- A path with the characters of its percent escapes. An escaped byte beyond ASCII becomes the
replacement character, which no path of the service holds. -/
def resolveEscapes : List Char → List Char
  | '%' :: a :: b :: rest =>
    match Text.hexValue? a, Text.hexValue? b with
    | some high, some low =>
      (if high < 8 then Char.ofNat (16 * high + low) else '\uFFFD') :: resolveEscapes rest
    | _, _ => '%' :: resolveEscapes (a :: b :: rest)
  | c :: rest => c :: resolveEscapes rest
  | [] => []

def withoutSlashes (path : List Char) : List Char :=
  (path.reverse.dropWhile (· == '/')).reverse

def pathOf (target : String) : String :=
  String.ofList (withoutSlashes
    (resolveEscapes (resolveEscapes (withoutDots (plainPath target.toList)))))

end StageFusion.Service
