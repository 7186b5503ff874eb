/-!
Similarity of words, for "did you mean" hints.

Two words are compared by their Jaro similarity: a character of one word
matches an equal, not yet matched character of the other that stands at
most `max(|a|, |b|) / 2 - 1` places away, the first such from the left;
`m` is the number of matches and `t` half the number of matched pairs that
come in a different order. The similarity is
`(m / |a| + m / |b| + (m - t) / m) / 3`, or 0 without matches, and 1 for
two empty words. It is kept as an exact fraction.

A word is offered as a hint when its similarity to what was typed is above
0.7. Hints are listed from the least to the most similar, ties in their
given order, so the best hint is the last.

## Main statements

* `similarity_empty` — two empty words are as similar as can be.
-/

namespace Provisioning.Text

/-- A similarity as an exact fraction `num / den`. -/
structure Similarity where
  num : Nat
  den : Nat
  deriving DecidableEq, Repr

namespace Similarity

/-- Whether one similarity is at most another. -/
def le (a b : Similarity) : Bool := a.num * b.den ≤ b.num * a.den

/-- Whether a similarity is high enough for a hint: above 7/10. -/
def isClose (s : Similarity) : Bool := 7 * s.den < 10 * s.num

end Similarity

/-- Mark, for each character of `a`, the matching character of `b`: the first unmatched
equal character within `range` places. Gives the flags of `a` and of `b`. -/
def matchFlags (a b : List Char) (range : Nat) : List Bool × List Bool :=
  a.zipIdx.foldl (fun (fa, fb) (c, i) =>
    let lo := i - range
    let hi := min b.length (i + range + 1)
    let found := (List.range (hi - lo)).find? fun k =>
      b[lo + k]? == some c && !(fb.getD (lo + k) false)
    match found with
    | some k => (fa ++ [true], fb.set (lo + k) true)
    | none => (fa ++ [false], fb)) ([], List.replicate b.length false)

/-- The Jaro similarity of two words. -/
def similarity (a b : String) : Similarity :=
  let xs := a.toList
  let ys := b.toList
  if xs.isEmpty && ys.isEmpty then ⟨1, 1⟩
  else if xs.isEmpty || ys.isEmpty then ⟨0, 1⟩
  else
    let range := max xs.length ys.length / 2 - 1
    let (fa, fb) := matchFlags xs ys range
    let ma := (xs.zip fa).filterMap fun (c, f) => if f then some c else none
    let mb := (ys.zip fb).filterMap fun (c, f) => if f then some c else none
    let m := ma.length
    if m == 0 then ⟨0, 1⟩
    else
      let t := ((ma.zip mb).filter fun (p, q) => p != q).length / 2
      let la := xs.length
      let lb := ys.length
      ⟨m * lb * m + m * la * m + (m - t) * la * lb, 3 * la * lb * m⟩

/-- The candidates similar enough to a word, from the least to the most similar. -/
def hints (word : String) (candidates : List String) : List String :=
  let scored := (candidates.map fun c => (similarity word c, c)).filter (·.1.isClose)
  (scored.mergeSort fun p q => p.1.le q.1).map (·.2)

/-- The best hint, if any. -/
def bestHint? (word : String) (candidates : List String) : Option String :=
  (hints word candidates).getLast?

theorem similarity_empty : similarity "" "" = ⟨1, 1⟩ := by
  simp [similarity]

end Provisioning.Text
