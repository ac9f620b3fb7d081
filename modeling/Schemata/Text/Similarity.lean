/-!
# Similar texts

Two texts are compared by what they have in common: the longest text that occurs in
both, and in the same way what lies before and after it.  The similarity is the share
of common characters, so it is one for equal texts.
-/

namespace Schemata.Text

/-- The number of characters that two texts begin with together. -/
def commonStart : List Char → List Char → Nat
  | a :: as, b :: bs => if a = b then commonStart as bs + 1 else 0
  | _, _ => 0

/-- A text that occurs in two others: where it begins in each, and its length. -/
structure CommonPart where
  first : Nat := 0
  second : Nat := 0
  length : Nat := 0

/-- The longest common part, and of several the first in the first text and then in the
second. -/
def longestCommon (a b : List Char) : CommonPart :=
  let places := (List.range a.length).flatMap fun i => (List.range b.length).map fun j => (i, j)
  places.foldl (fun best (i, j) =>
    let length := commonStart (a.drop i) (b.drop j)
    if length > best.length then { first := i, second := j, length } else best) {}

/-- The number of characters that two texts have in common, with a budget of parts. -/
def commonCount : Nat → List Char → List Char → Nat
  | 0, _, _ => 0
  | budget + 1, a, b =>
    let part := longestCommon a b
    if part.length = 0 then 0
    else
      part.length + commonCount budget (a.take part.first) (b.take part.second) +
        commonCount budget (a.drop (part.first + part.length)) (b.drop (part.second + part.length))

/-- The common characters of two texts and the number of all, whose ratio is the
similarity. -/
structure Similarity where
  common : Nat
  total : Nat

namespace Similarity

/-- How similar two texts are. -/
def of (a b : String) : Similarity :=
  { common := 2 * commonCount (a.length + 1) a.toList b.toList, total := a.length + b.length }

/-- Whether a similarity is at least three fifths. -/
def isClose (s : Similarity) : Bool :=
  s.total * 3 ≤ s.common * 5

/-- Whether a similarity is greater than another. -/
def exceeds (s t : Similarity) : Bool :=
  t.common * s.total < s.common * t.total

end Similarity

/-- The three texts that are closest to a given one, the closest first; of equally close
ones the later in order. -/
def closest (text : String) (candidates : List String) : List String :=
  let scored := candidates.map fun candidate => (Similarity.of candidate text, candidate)
  let close := scored.filter (·.1.isClose)
  let sorted := close.mergeSort fun a b =>
    a.1.exceeds b.1 || (!b.1.exceeds a.1 && decide (b.2 ≤ a.2))
  (sorted.take 3).map (·.2)

end Schemata.Text
