import RegisterMap.Description.Schema
import RegisterMap.Document.Reading

namespace RegisterMap.Description

def ofJson : String → Except Problem Description := decodeJsonText decodeDescription

def ofToml : String → Except Problem Description := decodeTomlText decodeDescription

end RegisterMap.Description
