import LWorkbench.Editor.Binding
import LWorkbench.Editor.Diagnostic
import LWorkbench.Program.Parser

/-!
# Checked texts

A text together with everything that can be said about it: its analyzed program, if it parses, and
its diagnostics. Every question of an editor is answered from a checked text, so that places in the
program and places in the text always belong together.

## Main definitions

* `CheckedText` — a text, its program and its diagnostics
* `CheckedText.ofText` — checking a text
-/

namespace LWorkbench

/-- A text with its analyzed program, if it parses, and its diagnostics. -/
structure CheckedText where
  text : String
  program : Option Annotated
  diagnostics : List Diagnostic

/-- Parses and analyzes a text. -/
def CheckedText.ofText (text : String) : CheckedText :=
  match Program.parse text with
  | .ok p =>
    let a := p.annotate
    { text, program := some a, diagnostics := Diagnostic.ofAnnotated text a }
  | .error e => { text, program := none, diagnostics := [Diagnostic.ofParseError text e] }

@[simp] theorem CheckedText.text_ofText (text : String) : (ofText text).text = text := by
  unfold ofText
  split <;> rfl

end LWorkbench
