/-
Paths. A path is a text whose parts stand between slashes. Empty parts and single dots lead
nowhere; two dots lead up.
-/

namespace VerifiedBoot
namespace Path

def splitSlashes : List Char → List (List Char)
  | [] => [[]]
  | c :: cs =>
    if c = '/' then [] :: splitSlashes cs
    else
      match splitSlashes cs with
      | part :: parts => (c :: part) :: parts
      | [] => [[c]]

/-- The parts of a path, without the empty ones. -/
def parts (path : String) : List String :=
  ((splitSlashes path.toList).filter (!·.isEmpty)).map String.ofList

def isAbsolute (path : String) : Bool := path.toList.head? == some '/'

def endsWithSlash (path : String) : Bool := path.toList.getLast? == some '/'

/-- Whether a part of a path leads to where it starts. -/
def leadsNowhere (part : List Char) : Bool := part == [] || part == ['.']

/-- Parts without those at their end that lead nowhere. -/
def trimEnd (parts : List (List Char)) : List (List Char) :=
  (parts.reverse.dropWhile leadsNowhere).reverse

/-- The path of the directory that holds what a path names: the text before its last part, as it is
written, without the slashes and single dots at its end. It is empty for what lies in the root or in
the working directory. -/
def parent (path : String) : String :=
  String.ofList (List.intercalate ['/'] (trimEnd (trimEnd (splitSlashes path.toList)).dropLast))

/-- The path to follow from a directory; an absolute path starts anew. -/
def join (directory path : String) : String :=
  if isAbsolute path || directory.isEmpty then path
  else if endsWithSlash directory then directory ++ path
  else directory ++ "/" ++ path

end Path
end VerifiedBoot
