import Bindings.Text.Part

/-!
# Similarity of texts

How alike two texts are: the longest block that occurs in both is matched, then what lies
before it and after it in the same way, and the matched characters are counted. In a long
text the characters that occur too often do not start a block.
-/

namespace Bindings.Text.Similarity

/-! ## Blocks -/

/-- A block shared by two rows: where it begins in each, and how long it is. -/
structure Block where
  left : Nat
  right : Nat
  size : Nat

/-- The lengths of the common runs that end at `c` in one row and at each position of the
    other; `diagonal` is the length for the positions before both, `previous` the lengths for
    the character before `c`. -/
def runLengths (popular : List Char) (c : Char) : Nat → List Nat → List Char → List Nat
  | diagonal, above :: previous, d :: rest =>
    (if c = d && !popular.contains d then diagonal + 1 else 0)
      :: runLengths popular c above previous rest
  | _, _, _ => []

/-- The better of `best` and the runs that end at position `i` and at `j` and after. -/
def betterBlock (i : Nat) : Nat → Block → List Nat → Block
  | _, best, [] => best
  | j, best, length :: lengths =>
    betterBlock i (j + 1)
      (if best.size < length then ⟨i + 1 - length, j + 1 - length, length⟩ else best) lengths

/-- The first longest common run, from position `i` of the first row on. -/
def longestRun (popular right : List Char) : Nat → List Nat → Block → List Char → Block
  | _, _, best, [] => best
  | i, previous, best, c :: rest =>
    let lengths := runLengths popular c 0 previous right
    longestRun popular right (i + 1) lengths (betterBlock i 0 best lengths) rest

/-- The length of the common beginning of two rows. -/
def commonLength : List Char → List Char → Nat
  | c :: left, d :: right => if c = d then commonLength left right + 1 else 0
  | _, _ => 0

/-- The longest common block of two rows, grown at both ends by equal characters. -/
def longestBlock (popular left right : List Char) : Block :=
  let run := longestRun popular right 0 (right.map fun _ => 0) ⟨0, 0, 0⟩ left
  let before := commonLength (left.take run.left).reverse (right.take run.right).reverse
  let after := commonLength (left.drop (run.left + run.size)) (right.drop (run.right + run.size))
  ⟨run.left - before, run.right - before, before + run.size + after⟩

/-- The number of characters matched between two rows. -/
def matchedCount (popular left right : List Char) : Nat :=
  let block := longestBlock popular left right
  if _inside : 0 < block.size ∧ block.left + block.size ≤ left.length then
    block.size
      + matchedCount popular (left.take block.left) (right.take block.right)
      + matchedCount popular (left.drop (block.left + block.size))
          (right.drop (block.right + block.size))
  else 0
termination_by left.length
decreasing_by
  · simp only [block] at _inside; simp only [List.length_take]; omega
  · simp only [block] at _inside; simp only [List.length_drop]; omega

/-- The characters of a row of 200 or more that make up over one hundredth of it. -/
def popularChars (cs : List Char) : List Char :=
  if cs.length < 200 then []
  else cs.eraseDups.filter fun c => cs.length / 100 + 1 < cs.count c

/-! ## Scores -/

/-- A score: matched characters of both texts over all their characters. -/
structure Score where
  matched : Nat
  total : Nat

/-- How alike two texts are; two empty texts are equal. -/
def score (candidate word : List Char) : Score :=
  let total := candidate.length + word.length
  if total = 0 then ⟨1, 1⟩ else ⟨2 * matchedCount (popularChars word) candidate word, total⟩

/-- A score of three quarters or more. -/
def Score.isClose (s : Score) : Bool := 3 * s.total ≤ 4 * s.matched

/-- Order of scores by their quotients. -/
def Score.less (s t : Score) : Bool := s.matched * t.total < t.matched * s.total

/-- The `limit` texts of `pool` closest to `word`, closest first; of two that are equally
    close the greater text comes first. -/
def closest (word : String) (pool : List String) (limit : Nat) : List String :=
  let scored := pool.map fun candidate => (score candidate.toList word.toList, candidate)
  let close := scored.filter (·.1.isClose)
  let ranked := close.mergeSort fun (s, a) (t, b) => t.less s || (!(s.less t) && !(a < b))
  (ranked.take limit).map (·.2)

end Bindings.Text.Similarity
