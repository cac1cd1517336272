import PackageInstaller.Manifest.Literal
import PackageInstaller.Manifest.Span

/-!
All comments and string literals of a text, in order, and the question whether an offset lies in one.
-/

namespace PackageInstaller.Manifest

def literalSpansFrom : Nat → Nat → Text → Scan (List Span)
  | _, _, [] => .ok []
  | skip + 1, pos, _ :: t => literalSpansFrom skip (pos + 1) t
  | 0, pos, c :: t =>
    match literalLength? (c :: t) with
    | .error e => .error (e.shift pos)
    | .ok none => literalSpansFrom 0 (pos + 1) t
    | .ok (some n) => (literalSpansFrom (n - 1) (pos + 1) t).map (⟨pos, pos + n⟩ :: ·)

structure LiteralIndex where
  spans : Array Span

namespace LiteralIndex

def ofText (t : Text) : Scan LiteralIndex := (literalSpansFrom 0 0 t).map fun spans => ⟨spans.toArray⟩

/-- How many of the spans from `low` up to `high` and before start at or before `offset`, found by
halving; the spans stand in the order of their starts. -/
def countStarted (spans : Array Span) (offset : Int) (low high : Nat) : Nat :=
  if low < high then
    let middle := (low + high) / 2
    match spans[middle]? with
    | none => low
    | some span =>
      if offset < span.start then countStarted spans offset low middle
      else countStarted spans offset (middle + 1) high
  else low
termination_by high - low

def holds (index : LiteralIndex) (offset : Int) : Bool :=
  match countStarted index.spans offset 0 index.spans.size with
  | 0 => false
  | n + 1 => (index.spans[n]?.map fun span => decide (offset < span.stop)).getD false

end LiteralIndex

end PackageInstaller.Manifest
