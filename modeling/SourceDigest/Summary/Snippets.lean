/-
Snippets: excerpts from evenly spaced places of a text.

The lines are cut into equal segments and each snippet is taken from the
middle of its segment. When a snippet would have fewer than three lines
there are none at all.
-/
import SourceDigest.Text.Basic

namespace SourceDigest

namespace Snippet

/-- The fewest lines a snippet may have. -/
def minLines : Nat := 3

/-- The line at which the `i`-th snippet of `length` lines starts, of
`total` lines in segments of `segment`. -/
def start (total segment length i : Nat) : Nat :=
  min ((i * segment + segment / 2) - length / 2) (total - length)

/-- A snippet under a heading that gives its lines, counted from one. -/
def excerpt (lines : List Text) (start length : Nat) : Text :=
  "--- lines " ++ Text.ofNat (start + 1) ++ "-" ++ Text.ofNat (start + length) ++ " ---\n" ++
    Text.join "\n" ((lines.drop start).take length)

/-- `count` snippets of at most `length` lines each. -/
def extract (content : Text) (count length : Nat) : Option (List Text) :=
  if count = 0 then none
  else
    let lines := Text.lines content
    let total := lines.length
    let segment := total / count
    let length := min length segment
    if length < minLines then none
    else some ((List.range count).map fun i => excerpt lines (start total segment length i) length)

end Snippet

end SourceDigest
