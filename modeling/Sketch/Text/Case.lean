/-!
# Upper case

Some words are compared without regard to case. Case is that of the letters `a` to `z` and `A` to
`Z`; no other character has a second form.
-/

namespace Sketch.Text

/-- The text with its letters `a` to `z` in upper case. -/
def upper (s : String) : String :=
  String.ofList (s.toList.map Char.toUpper)

end Sketch.Text
