import Catwalk.Host.Query

/-!
# Surveys of a host

Everything below a directory with its path: an object first, and then what is below it, in the order
of the catalogues.
-/

namespace Catwalk.Host

/-- A text without the solidi at its end. -/
def withoutTrailingSolidi (t : Text) : Text :=
  (t.reverse.dropWhile (· = CodePoint.solidus)).reverse

/-- Everything down to `depth` levels below a path. -/
def surveyTo (host : Host) : Nat → Text → Except Fault (List (Text × Entry))
  | 0, _ => .ok []
  | depth + 1, path => do
    let entries ← host.catalogue path
    let rows ← entries.mapM fun entry => do
      let below := withoutTrailingSolidi path ++ CodePoint.solidus :: entry.name
      if host.isFolder below then
        return (below, entry) :: (← surveyTo host depth below)
      else return [(below, entry)]
    return rows.flatten

/-- Everything below a path. No object is deeper than there are nodes. -/
def survey (host : Host) (path : Text) : Except Fault (List (Text × Entry)) :=
  host.surveyTo (host.nodes.length + 1) path

end Catwalk.Host
