import ContentTypes.Text.Letter.Context
import ContentTypes.Text.Letter.Forms

namespace ContentTypes.Text.Letter

def Run.form? (run : Run) (n : Nat) : Option Nat :=
  if run.first ≤ n && n ≤ run.last && (n - run.first) % run.step = 0 then
    some (Int.ofNat n + run.distance).toNat
  else none

-- A character without another form is its own form.
def formIn (runs : List Run) (sequences : List (Nat × List Nat)) (c : Char) : List Char :=
  match sequences.lookup c.toNat with
  | some sequence => sequence.map Char.ofNat
  | none =>
      match runs.findSome? (·.form? c.toNat) with
      | some n => [Char.ofNat n]
      | none => [c]

def upperForm (c : Char) : List Char :=
  if c.toNat < 128 then [c.toUpper] else formIn upperRuns upperSequences c

def lowerForm (c : Char) : List Char :=
  if c.toNat < 128 then [c.toLower] else formIn lowerRuns lowerSequences c

def isCased (c : Char) : Bool :=
  if c.toNat < 128 then c.isAlpha else cased.has c

def isIgnorable (c : Char) : Bool :=
  if c.toNat < 128 then ['\x27', '.', ':', '^', '\x60'].contains c else ignorable.has c

-- Whether a letter with case comes first, apart from what does not count.
def meetsCased (chars : List Char) : Bool :=
  ((chars.dropWhile isIgnorable).head?).any isCased

def upper (chars : List Char) : List Char := chars.flatMap upperForm

-- `before` holds what stands before the text, the nearest first.
def lowerAfter (before : List Char) : List Char → List Char
  | [] => []
  | 'Σ' :: rest =>
      (if meetsCased before && !meetsCased rest then 'ς' else 'σ') :: lowerAfter ('Σ' :: before) rest
  | c :: rest => lowerForm c ++ lowerAfter (c :: before) rest

def lower (chars : List Char) : List Char := lowerAfter [] chars

end ContentTypes.Text.Letter
