import Extension.Json.Reader
import Extension.Json.Text
import Extension.Manifest.Codec
import Extension.Yaml.Reader
import Extension.Yaml.Writer

namespace Extension.Manifest

/-! Packages as texts, in JSON and in YAML. -/

inductive TextFault where
  | json (fault : Json.ReadFault)
  | yaml (fault : Yaml.Fault)
  | shape (fault : ShapeFault)
deriving DecidableEq, Repr

namespace Package

def toJsonText (package : Package Document) (layout : Json.Layout) : Except CodecFault String := do
  return (← package.toJson).write layout 0

def ofJsonText (text : String) : Except TextFault (Package Document) := do
  let json ← (Json.parse text).mapError .json
  (ofDocument (.ofJson json)).mapError .shape

/-! YAML is written and read by a library, of which nothing else is used than its two functions. -/

def dumpedBy (dump : Json → String) (package : Package Document) : Except CodecFault String := do
  return dump (← package.toJson)

/-- An empty document is an empty package. -/
def loadedBy (load : String → Except TextFault Document) (text : String) : Except TextFault (Package Document) := do
  let document ← load text
  (ofDocument (if document.truthy then document else .dict [])).mapError .shape

def toYamlText (package : Package Document) : Except CodecFault String :=
  package.dumpedBy Yaml.ofJson

def loadYaml (text : String) : Except TextFault Document :=
  (Yaml.parse text).mapError .yaml

def ofYamlText (text : String) : Except TextFault (Package Document) :=
  loadedBy loadYaml text

end Package

end Extension.Manifest
