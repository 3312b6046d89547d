import TreeLang.Binary64

/-!
# Similar words

The likeness of two words counts the letters that they share at about the same place and how many
of these stand in another order. It is a double between zero and one; words on the border of being
similar are told apart by how it is rounded.
-/

namespace TreeLang

namespace Similar

/-- Whether position `j` is at most `range` away from position `i`. -/
def near (range i j : Nat) : Bool := i ≤ j + range && j ≤ i + range

/-- Finds the first letter of a word, whose letters carry their positions, that is near position
`i` and equals `c`; the other letters stay. -/
def take (range i : Nat) (c : Char) : List (Nat × Char) → Option (Nat × List (Nat × Char))
  | [] => none
  | (j, d) :: rest =>
    if near range i j && c = d then some (j, rest)
    else (take range i c rest).map fun (k, left) => (k, (j, d) :: left)

/-- Pairs letters of the first word with letters of the second one, from the left. The result
holds the shared letters of the first word, and the positions of their partners. -/
def share (range : Nat) : List (Nat × Char) → List (Nat × Char) → List (Char × Nat)
  | [], _ => []
  | (i, c) :: rest, word =>
    match take range i c word with
    | some (j, left) => (c, j) :: share range rest left
    | none => share range rest word

/-- The letters of a word with their positions. -/
def letters (word : String) : List (Nat × Char) :=
  word.toList.zipIdx.map fun (c, i) => (i, c)

/-- The mean of three fractions with denominators above zero, rounded after every step. -/
def mean (x y z : Nat × Nat) : Option Binary64 := do
  let sum ← (← Binary64.ofRatio x.1 x.2).add (← Binary64.ofRatio y.1 y.2)
  let sum ← sum.add (← Binary64.ofRatio z.1 z.2)
  sum.div (← Binary64.ofNat 3)

/-- The likeness of two words: the mean of the shares of their letters that they have in common,
and of the share of these that stand in the same order. -/
def likeness (a b : String) : Binary64 :=
  let shared := share (max a.length b.length / 2 - 1) (letters a) (letters b)
  let partners := (letters b).filter fun (j, _) => shared.any (·.2 = j)
  let moved := (shared.zip partners).countP fun ((c, _), (_, d)) => c ≠ d
  let k := shared.length
  if k = 0 then .zero
  else (mean (k, a.length) (k, b.length) (k - moved / 2, k)).getD .zero

/-- The likeness that similar words exceed, seven tenths. -/
def threshold : Binary64 := (Binary64.ofRatio 7 10).getD .zero

/-- The last of the words that are most like a given one, among those that are similar to it. -/
def closest? (word : String) (words : List String) : Option String :=
  (words.foldl (fun (best : Binary64 × Option String) candidate =>
    let like := likeness word candidate
    if threshold.absLess like && !like.absLess best.1 then (like, some candidate) else best)
    (.zero, none)).2

end Similar

end TreeLang
