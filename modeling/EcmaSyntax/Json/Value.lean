/-! # Values of JSON documents

Objects keep their members in order and may repeat a key; numbers keep their spelling. A string, or
a key, whose escapes leave half of a surrogate pair alone has no text. -/
namespace EcmaSyntax

inductive Json
  | null
  | bool (value : Bool)
  | number (spelling : String)
  | string (text : Option String)
  | array (items : List Json)
  | object (members : List (Option String × Json))

namespace Json

def ofNat (n : Nat) : Json := .number (toString n)

def ofString (text : String) : Json := .string (some text)

/-- An object with the given members. -/
def record (members : List (String × Json)) : Json :=
  .object (members.map fun (key, value) => (some key, value))

end Json
end EcmaSyntax
