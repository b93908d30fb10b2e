/-!
Text between quotation marks in which the mark itself is written twice, as in
quoted identifiers and string labels.
-/

namespace RelationalAccess.Quoted

/-- The text with every mark doubled. -/
def doubled (mark : Char) : List Char → List Char
  | [] => []
  | char :: rest =>
    if char = mark then mark :: mark :: doubled mark rest else char :: doubled mark rest

/-- The text between two marks, with the marks inside doubled. -/
def enclose (mark : Char) (text : List Char) : List Char := mark :: doubled mark text ++ [mark]

/-- The text between two marks, with the marks inside doubled. -/
def encloseText (mark : Char) (text : String) : String :=
  String.ofList (enclose mark text.toList)

@[simp] theorem doubled_nil (mark : Char) : doubled mark [] = [] := rfl

@[simp] theorem doubled_mark (mark : Char) (rest : List Char) :
    doubled mark (mark :: rest) = mark :: mark :: doubled mark rest := by
  simp [doubled]

end RelationalAccess.Quoted
