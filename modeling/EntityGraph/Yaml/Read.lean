import EntityGraph.Yaml.Level

/-!
Reading YAML documents, given as text or as bytes in UTF-8 or, with a byte order mark, UTF-16.
-/
namespace EntityGraph.Yaml

/-- The value of a document given as text. -/
def readString (s : String) : Except Fault Value :=
  valueOf s.toList

/-- The text of a document given as bytes. -/
def decodeBytes (bs : List UInt8) : Except Text.DecodeFault (List Char) :=
  let mark := Char.ofNat 0xfeff
  match bs with
  | 0xff :: 0xfe :: rest => (Text.decode .utf16LE false 0 rest).map (mark :: ·)
  | 0xfe :: 0xff :: rest => (Text.decode .utf16BE false 0 rest).map (mark :: ·)
  | bs => Text.decode .utf8 false 0 bs

/-- The value of a document given as bytes. -/
def readBytes (bs : List UInt8) : Except Fault Value :=
  match decodeBytes bs with
  | .ok cs => valueOf cs
  | .error _ => .error .malformed

end EntityGraph.Yaml
