import ComponentLoader.Component.Basic
import ComponentLoader.Yaml.Value

/-!
The blocks and the top level of a component as YAML documents.
-/
namespace ComponentLoader

def Position.toYaml (p : Position) : Yaml :=
  .record [("offset", .number p.offset), ("line", .number p.line), ("column", .number p.column)]

def Span.toYaml (s : Span) : Yaml :=
  .record [("start", s.start.toYaml), ("end", s.stop.toYaml)]

def BlockAttribute.yamlFields (a : BlockAttribute) : List (String × Yaml) :=
  [("name", .string a.name), ("value", a.value.elim .null .string)]

def Block.yamlFields (b : Block) : List (String × Yaml) :=
  [("kind", .string b.kind.tag), ("attrs", .sequence (b.attributes.map (·.yamlFields))),
   ("loc", b.span.toYaml), ("content_loc", b.content.toYaml), ("synthetic", .bool b.synthetic)]

def LayoutNode.yamlFields : LayoutNode → List (String × Yaml)
  | block index => [("type", .string "block"), ("index", .number index)]
  | element name span =>
    [("type", .string "element"), ("name", .string name), ("loc", span.toYaml)]
  | text span => [("type", .string "text"), ("loc", span.toYaml)]
  | comment span => [("type", .string "comment"), ("loc", span.toYaml)]

namespace Component

def blocksYaml (c : Component) : String :=
  Yaml.document [("filename", .string c.filename),
    ("blocks", .sequence (c.blocks.map (·.yamlFields))), ("present", .string c.present.describe)]

def nodesYaml (c : Component) : String :=
  Yaml.document [("nodes", .sequence (c.layout.nodes.map (·.yamlFields)))]

end Component

end ComponentLoader
