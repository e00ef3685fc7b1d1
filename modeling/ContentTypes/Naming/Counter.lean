import ContentTypes.Naming

namespace ContentTypes.Naming

-- A build may check its additions or not. Past the greatest number it panics or goes on with the
-- least one.
inductive Overflow where
  | panics
  | wraps
  deriving DecidableEq, Repr

-- All numbers of the counter, which has 32 bits and a sign, lie before this one.
def limit : Nat := 2147483648

-- The number that is tried after another one.
def Overflow.next? : Overflow → Int32 → Option Int32
  | .panics, n => if n = Int32.maxValue then none else some (n + 1)
  | .wraps, n => some (n + 1)

def counted (name : String) (n : Int32) : String := name ++ toString n

-- How a claim ends: with a name, a table and what is reported, or with a panic.
inductive Ending where
  | done (outcome : Logged (String × NameTable))
  | panicked

-- So many rounds of a search for a free number, from `n` on. If the search goes on after them there
-- is no ending yet.
def search (overflow : Overflow) (name : String) (table : NameTable) :
    Nat → Int32 → Option Ending
  | 0, _ => none
  | rounds + 1, n =>
      if counted name n ∈ table.taken then
        match overflow.next? n with
        | none => some .panicked
        | some later => search overflow name table rounds later
      else
        let claimed := counted name n
        some (.done ⟨(claimed, ⟨claimed :: table.taken⟩), [.renamed name claimed]⟩)

-- A claim that counts with such numbers. It comes to what `claim` does as long as the counter does
-- not get to its limit.
def claimWithin (overflow : Overflow) (name : String) (rounds : Nat) (table : NameTable) :
    Option Ending :=
  if name ∈ table.taken then search overflow name table rounds 2
  else some (.done ⟨(name, ⟨name :: table.taken⟩), []⟩)

def Ends (overflow : Overflow) (name : String) (table : NameTable) (ending : Ending) : Prop :=
  ∃ rounds, claimWithin overflow name rounds table = some ending

end ContentTypes.Naming
