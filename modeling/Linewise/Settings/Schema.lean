import Linewise.Json
import Linewise.Settings

/-!
# The schema of the settings

A machine-readable description of the documents that hold settings.

## Main definitions

* `Settings.schema` — the description as a value.
* `Settings.schemaText` — its text.
-/

namespace Linewise.Settings

/-- A text that is known in full. -/
def word (s : String) : Json :=
  .text (utf8 s)

/-- The type of a setting. -/
def typeOf (key : Key) : Json :=
  match initial.get key with
  | .text _ => word "string"
  | .number _ => word "integer"

/-- The description of one setting. -/
def property (key : Key) : Bytes × Json :=
  (key.name, .object [(utf8 "type", typeOf key)])

/-- The name of the description of the section. -/
def sectionType : String := "TransformConfig"

/-- **The description of the settings.** -/
def schema : Json :=
  .object
    [(utf8 "$schema", word "https://json-schema.org/draft/2020-12/schema"),
      (utf8 "$id", word "https://github.com/grovetools/codeclean/config/config"),
      (utf8 "$defs", .object
        [(utf8 sectionType, .object
          [(utf8 "properties", .object (Key.ofSection.map property)),
            (utf8 "type", word "object")])]),
      (utf8 "properties", .object
        ((Key.sectionName, .object [(utf8 "$ref", word ("#/$defs/" ++ sectionType))])
          :: Key.ofTop.map property)),
      (utf8 "type", word "object"),
      (utf8 "title", word "codeclean Configuration"),
      (utf8 "description", word "Schema for the 'codeclean' extension in grove.yml.")]

/-- The text of the description. -/
def schemaText : Bytes :=
  schema.indented 0

end Linewise.Settings
