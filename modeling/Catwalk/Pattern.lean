import Catwalk.Text.Basic

/-!
# Patterns

A pattern is read from left to right, without going back. `#` takes any one code point of the name.
`*` takes a run of the name up to the first occurrence of the pattern's next code point, which
stands for itself there whatever it is; at the end of the pattern it takes the rest of the name.
Anything else takes itself. A pattern matches the names that it uses up.
-/

namespace Catwalk.Pattern

/-- Takes any one code point. -/
def anyOne : CodePoint := 0x23

/-- Takes a run of code points. -/
def anyRun : CodePoint := 0x2A

/-- Whether a pattern uses up a name. -/
def accepts : Text → Text → Bool
  | [], name => name.isEmpty
  | c :: pattern, name =>
    if c = anyOne then
      match name with
      | [] => false
      | _ :: name => accepts pattern name
    else if c = anyRun then
      accepts pattern (name.dropWhile fun d => pattern.head? ≠ some d)
    else
      match name with
      | [] => false
      | d :: name => d = c && accepts pattern name

/-- A lone `*` takes whatever there is. -/
private theorem accepts_anyRun (name : Text) : accepts [anyRun] name = true := by
  have all : name.dropWhile (fun _ => true) = [] := by
    induction name with
    | nil => rfl
    | cons c name ih => exact ih
  simp [accepts, anyRun, anyOne, all]

/-- Whether a pattern matches every name: none at all, or a lone `*`. -/
def isMatchAll : Option Text → Bool
  | none => true
  | some pattern => pattern = [anyRun]

/-- Whether a name matches a pattern, if there is one. -/
def matchesName (pattern : Option Text) (name : Text) : Bool :=
  match pattern with
  | none => true
  | some pattern => accepts pattern name

theorem matchesName_of_isMatchAll {pattern : Option Text} (all : isMatchAll pattern = true)
    (name : Text) : matchesName pattern name = true := by
  cases pattern with
  | none => rfl
  | some pattern =>
    simp only [isMatchAll, decide_eq_true_eq] at all
    rw [all]
    exact accepts_anyRun name

end Catwalk.Pattern
