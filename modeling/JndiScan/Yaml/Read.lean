/-
Reading documents: the value that a stream writes.
-/
import JndiScan.Yaml.Document
import JndiScan.Yaml.Meaning
import JndiScan.Yaml.Source

namespace JndiScan.Yaml

/-- A reader of documents. -/
abbrev Reader := Text.Stream → Except Fault Value

/-- The value of the document in a stream; an empty document is nothing. -/
def read : Reader := fun stream => do
  match ← Document.ofSource (Source.ofStream stream) with
  | some d => Meaning.value d.graph d.root
  | none => pure .null

end JndiScan.Yaml
