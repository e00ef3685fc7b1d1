import ContentTypes.Text.Cluster.Parts

namespace ContentTypes.Text.Cluster

-- The part that a character plays in the rules.
inductive Part where
  | other
  | carriageReturn
  | lineFeed
  | control
  | extending
  | linker
  -- It extends what stands before it, but no conjunct goes through it.
  | nonJoiner
  | joiner
  | regional
  | leader
  | spacing
  | consonant
  | pictograph
  | initial
  | vowel
  | final
  -- Syllables of Hangul without and with a final consonant.
  | openSyllable
  | closedSyllable
  deriving DecidableEq, Repr

-- The syllables of Hangul are not listed, for their part follows from their number.
def partBeyondAscii (c : Char) : Part :=
  let n := c.toNat
  if n = 0x200c then .nonJoiner
  else if n = 0x200d then .joiner
  else if 0x1f1e6 ≤ n && n ≤ 0x1f1ff then .regional
  else if 0xac00 ≤ n && n ≤ 0xd7a3 then
    if (n - 0xac00) % 28 = 0 then .openSyllable else .closedSyllable
  else if linkers.has c then .linker
  else if extending.has c then .extending
  else if spacing.has c then .spacing
  else if consonants.has c then .consonant
  else if pictographs.has c then .pictograph
  else if leaders.has c then .leader
  else if initials.has c then .initial
  else if vowels.has c then .vowel
  else if finals.has c then .final
  else if controls.has c then .control
  else .other

def part (c : Char) : Part :=
  if c.toNat < 128 then
    if c = '\r' then .carriageReturn
    else if c = '\n' then .lineFeed
    else if c.toNat < 32 || c.toNat = 127 then .control
    else .other
  else partBeyondAscii c

-- How far a sequence that can join a pictograph has come.
inductive Picture where
  | absent
  | shown
  | joined
  deriving DecidableEq, Repr

-- How far a conjunct of consonants has come.
inductive Conjunct where
  | absent
  | begun
  | linked
  deriving DecidableEq, Repr

-- What the rules know of the cluster so far.
structure Context where
  last : Part
  picture : Picture
  conjunct : Conjunct
  -- Whether an odd number of regional letters ends the cluster.
  halfFlag : Bool
  deriving DecidableEq, Repr

-- How far a pictograph and a conjunct have come when this part is the first of them.
def Part.picture (p : Part) : Picture := if p = .pictograph then .shown else .absent

def Part.conjunct (p : Part) : Conjunct := if p = .consonant then .begun else .absent

def Context.start (p : Part) : Context :=
  ⟨p, p.picture, p.conjunct, p = .regional⟩

-- The context after one more character of the same cluster.
def Context.advance (context : Context) (p : Part) : Context where
  last := p
  picture := match p with
    | .extending | .linker | .nonJoiner => if context.picture = .shown then .shown else .absent
    | .joiner => if context.picture = .shown then .joined else .absent
    | p => p.picture
  conjunct := match p with
    | .linker => if context.conjunct = .absent then .absent else .linked
    | .extending | .joiner => context.conjunct
    | p => p.conjunct
  halfFlag := p = .regional && !context.halfFlag

def Part.isEdge : Part → Bool
  | .control | .carriageReturn | .lineFeed => true
  | _ => false

-- Whether a character stays in the cluster.
def Context.keeps (context : Context) (p : Part) : Bool :=
  if context.last.isEdge || p.isEdge then context.last = .carriageReturn && p = .lineFeed
  else match context.last, p with
    | .initial, .initial | .initial, .vowel | .initial, .openSyllable
    | .initial, .closedSyllable => true
    | .openSyllable, .vowel | .openSyllable, .final | .vowel, .vowel | .vowel, .final => true
    | .closedSyllable, .final | .final, .final => true
    | _, .extending | _, .linker | _, .nonJoiner | _, .joiner | _, .spacing => true
    | .leader, _ => true
    | _, .consonant => context.conjunct = .linked
    | _, .pictograph => context.picture = .joined
    | _, .regional => context.halfFlag
    | _, _ => false

-- The rest of the cluster in hand, and the clusters after it.
def splitAfter : Context → List Char → List Char × List (List Char)
  | _, [] => ([], [])
  | context, c :: rest =>
      if context.keeps (part c) then
        let (own, others) := splitAfter (context.advance (part c)) rest
        (c :: own, others)
      else
        let (own, others) := splitAfter (.start (part c)) rest
        ([], (c :: own) :: others)

def split : List Char → List (List Char)
  | [] => []
  | c :: rest =>
      let (own, others) := splitAfter (.start (part c)) rest
      (c :: own) :: others

end ContentTypes.Text.Cluster
