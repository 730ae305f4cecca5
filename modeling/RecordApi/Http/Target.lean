import RecordApi.Text.Percent

/-!
# Request targets

The target of a request is a path and the items of a query behind a question mark.
Segments of one or two dots are resolved first; then the path is decoded twice, once on its
way and once on its arrival, so that `%2F` and even `%252F` become slashes before a route is
looked for.
-/

namespace RecordApi
namespace Http

structure Target where
  path : List Char
  items : List (String × String)

namespace Target

/-- Removes segments of dots: one dot stands for nothing and two dots take the segment
before them away. -/
def resolveDots (segments : List (List Char)) : List (List Char) :=
  segments.foldl (fun kept segment =>
    if segment = ['.'] then kept
    else if segment = ['.', '.'] then if kept = [[]] then kept else kept.dropLast
    else kept ++ [segment]) []

/-- The path of a target as it is sent: it starts with one slash. -/
def sentPath (cs : List Char) : List Char :=
  let path := '/' :: cs.dropWhile (· = '/')
  match resolveDots (Text.piecesOf '/' path) with
  | [] | [[]] => ['/']
  | first :: rest => rest.foldl (fun joined segment => joined ++ '/' :: segment) first

/-- The text behind a host that two slashes announce. -/
def withoutHost : List Char → List Char
  | '/' :: '/' :: rest => rest.dropWhile fun c => c ≠ '/' && c ≠ '?'
  | cs => cs

/-- Reads a target; what stands behind a number sign does not count. -/
def parse (s : String) : Target :=
  let cs := withoutHost (s.toList.takeWhile (· ≠ '#'))
  let path := cs.takeWhile (· ≠ '?')
  { path := Text.percentDecoded (Text.percentDecoded (sentPath path))
    items := Text.queryItems (cs.drop (path.length + 1)) }

end Target
end Http
end RecordApi
