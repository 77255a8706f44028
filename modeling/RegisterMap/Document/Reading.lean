import RegisterMap.Document.Decoding
import RegisterMap.Document.JsonText
import RegisterMap.Document.TomlText

namespace RegisterMap

/-- Decodes JSON text. The text is read as far as the decoding goes, so a fault of shape wins over
one of the text that comes later. -/
def decodeJsonText {α : Type} (decode : Decoder α) (text : String) : Except Problem α := do
  let (node, ended) := JsonText.read text
  let a ← decode .json node
  if ended then return a else .error .malformed

/-- Decodes TOML text. The text has to be in order before anything in it is looked at. -/
def decodeTomlText {α : Type} (decode : Decoder α) (text : String) : Except Problem α :=
  match TomlText.read? text with
  | some node => decode .toml node
  | none => .error .malformed

end RegisterMap
