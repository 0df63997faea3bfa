import Workflow.Text.Search

/-!
Texts with expressions between delimiters, cut into the expressions and the gaps before them.
-/

namespace Workflow

structure Delimiters where
  opening : List Char
  closing : List Char
  deriving DecidableEq, Repr

/-- An expression in a text, with the gap between it and the expression before. -/
structure Segment where
  gap : List Char
  body : List Char
  deriving DecidableEq, Repr

def Segment.source (d : Delimiters) (s : Segment) : List Char :=
  d.opening ++ s.body ++ d.closing

set_option linter.unusedVariables false in
/-- Cuts a text into its segments and what stands behind the last one. An opening delimiter that is
never closed is an error, with the text from there on. Delimiters that are both empty surround
nothing. -/
def Delimiters.segments (d : Delimiters) (cs : List Char) :
    Except (List Char) (List Segment × List Char) :=
  match hOpen : Text.splitAtFirst d.opening cs with
  | none => .ok ([], cs)
  | some (gap, behind) =>
    match hClose : Text.splitAtFirst d.closing behind with
    | none => .error (d.opening ++ behind)
    | some (body, rest) =>
      if hProgress : d.opening.length + d.closing.length = 0 then .ok ([], cs)
      else
        match d.segments rest with
        | .error unclosed => .error unclosed
        | .ok (segments, tail) => .ok (⟨gap, body⟩ :: segments, tail)
termination_by cs.length
decreasing_by
  have h₁ := Text.splitAtFirst_length_le hOpen
  have h₂ := Text.splitAtFirst_length_le hClose
  omega

end Workflow
