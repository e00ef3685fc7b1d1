import ContentTypes.Text.Cluster
import ContentTypes.Text.Letter

namespace ContentTypes.Text.Words

def isSeparator (cluster : List Char) : Bool :=
  cluster = ['_'] || cluster = ['-'] || cluster = [' ']

def isDigits (cluster : List Char) : Bool := cluster.all fun c => '0' ≤ c && c ≤ '9'

def hasCase (cluster : List Char) : Bool := Letter.upper cluster != Letter.lower cluster

def isUpper (cluster : List Char) : Bool := hasCase cluster && cluster == Letter.upper cluster

def isLower (cluster : List Char) : Bool := hasCase cluster && cluster == Letter.lower cluster

-- Whether a word ends after a cluster, by what follows it.
def endsBefore (cluster : List Char) : List (List Char) → Bool
  | [] => false
  | next :: rest =>
      (isLower cluster && (isUpper next || isDigits next)) ||
      (isUpper cluster && isDigits next) ||
      (isDigits cluster && (isLower next || isUpper next)) ||
      (isUpper cluster && isUpper next && rest.head?.any isLower)

-- The first word and the words after it. Words may be empty.
def part : List (List Char) → List Char × List (List Char)
  | [] => ([], [])
  | cluster :: rest =>
      let (own, others) := part rest
      if isSeparator cluster then ([], own :: others)
      else if endsBefore cluster rest then (cluster, own :: others)
      else (cluster ++ own, others)

-- Underscores, hyphens and spaces part words and vanish. Words also part between letters of
-- different case, between letters and digits, and before the last capital of a row that a small
-- letter follows.
def split (chars : List Char) : List (List Char) :=
  let (first, others) := part (Cluster.split chars)
  first :: others

-- The first character in upper case and the rest in lower case, as a text of its own.
def capitalize : List Char → List Char
  | [] => []
  | c :: rest => Letter.upperForm c ++ Letter.lower rest

def pascal (text : String) : String := String.ofList ((split text.toList).flatMap capitalize)

end ContentTypes.Text.Words
