import ContentTypes.Path

namespace ContentTypes.Path

-- The step that lies so many places before the end of the path. There is none before its start.
def fromEnd? (path : Path) (places : Nat) : Option Step :=
  if places ≤ path.length then path[path.length - places]? else none

-- Writes the phrases of the steps that are left, the innermost first. What joins a phrase to the
-- one before it is the connective of the step there, which is looked up from the end of the path.
def writeOutward (path : Path) : Nat → String → List Step → Option String
  | _, written, [] => some written
  | 0, written, step :: outer => path.writeOutward 1 (written ++ step.phrase) outer
  | places + 1, written, step :: outer => do
      let inner ← path.fromEnd? (places + 1)
      path.writeOutward (places + 2) (written ++ " " ++ inner.connective ++ " " ++ step.phrase) outer

def describe? (path : Path) : Option String := path.writeOutward 0 "" path.reverse

theorem fromEnd?_eq (outer : Path) (step : Step) (inner : Path) :
    fromEnd? (outer ++ step :: inner) (inner.length + 1) = some step := by
  have hlength : (outer ++ step :: inner).length = outer.length + (inner.length + 1) := by simp
  have hplace : (outer ++ step :: inner).length - (inner.length + 1) = outer.length := by omega
  rw [fromEnd?, if_pos (by omega), hplace, List.getElem?_append_right (Nat.le_refl _)]
  simp

-- Once a step is written, the walk goes on with the description from that step outward. What lies
-- inside of the step tells how far from the end it is.
theorem writeOutward_eq (outer : List Step) (step : Step) (inner : Path) (text : String) :
    writeOutward (outer.reverse ++ step :: inner) (inner.length + 1) (text ++ step.phrase) outer =
      some (text ++ describeOutward (step :: outer)) := by
  induction outer generalizing step inner text with
  | nil => rfl
  | cons next outer ih =>
      have hpath : (next :: outer).reverse ++ step :: inner =
          outer.reverse ++ next :: step :: inner := by simp
      have hstep : fromEnd? ((next :: outer).reverse ++ step :: inner) (inner.length + 1) =
          some step := fromEnd?_eq _ step inner
      have hnext := ih next (step :: inner) (text ++ step.phrase ++ " " ++ step.connective ++ " ")
      rw [writeOutward, hstep, Option.bind_eq_bind, Option.bind_some, hpath]
      rw [List.length_cons] at hnext
      rw [hnext, describeOutward_cons_cons]
      simp only [String.append_assoc]

theorem describe?_eq (path : Path) : path.describe? = some path.describe := by
  rw [describe?, describe]
  cases hpath : path.reverse with
  | nil => rfl
  | cons step outer =>
      have hsplit : path = outer.reverse ++ step :: [] := by
        rw [← List.reverse_reverse path, hpath, List.reverse_cons]
      have hwalk := writeOutward_eq outer step [] ""
      rw [← hsplit, String.empty_append, String.empty_append] at hwalk
      rw [writeOutward, String.empty_append]
      exact hwalk

-- The steps of a path, read from the last one. The walk never looks beyond the path, and a step at
-- the end of a path puts its own phrase and its own connective before the description so far.
theorem described_from_last (path : Path) :
    path.describe? = some path.describe ∧
      ∀ step : Step, describe (path ++ [step]) =
        if path.isEmpty then step.phrase
        else step.phrase ++ " " ++ step.connective ++ " " ++ path.describe := by
  refine ⟨describe?_eq path, fun step => ?_⟩
  have hreverse : (path ++ [step]).reverse = step :: path.reverse := List.reverse_concat
  rw [describe, hreverse, describe, ← List.isEmpty_reverse]
  cases path.reverse with
  | nil => rfl
  | cons next outer => exact describeOutward_cons_cons step next outer

end ContentTypes.Path
