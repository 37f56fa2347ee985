import EntityGraph.Value.Portable

/-!
Writing JSON documents: compact, or with one entry a line and an indentation.
-/
namespace EntityGraph.Json

/-- How a character stands in a JSON text: only quotation marks, backslashes, controls and halves of
    surrogate pairs are escaped. -/
def escapedChar (c : Char) : List Char :=
  if c == '"' || c == '\\' then ['\\', c]
  else if c.toNat == 8 then ['\\', 'b']
  else if c == '\t' then ['\\', 't']
  else if c == '\n' then ['\\', 'n']
  else if c.toNat == 12 then ['\\', 'f']
  else if c == '\r' then ['\\', 'r']
  else if c.toNat < 0x20 then '\\' :: 'u' :: Text.hexDigits 4 c.toNat
  else match Text.half? c with
    | some n => '\\' :: 'u' :: Text.hexDigits 4 n
    | none => [c]

/-- A JSON text. -/
def writeText (s : String) : String :=
  String.ofList ('"' :: s.toList.flatMap escapedChar ++ ['"'])

/-- How the parts of a document are separated. -/
inductive Style where
  | compact
  | indented (width : Nat)
  deriving DecidableEq, Repr

/-- The break in front of a part at a depth. -/
def Style.lineBreak : Style → (depth : Nat) → String
  | .compact, _ => ""
  | .indented width, depth => "\n" ++ String.ofList (List.replicate (width * depth) ' ')

/-- What stands between a key and its value. -/
def Style.colon : Style → String
  | .compact => ":"
  | .indented _ => ": "

/-- Parts between an opening and a closing mark; no break where there are none. -/
def Style.enclose (style : Style) (depth : Nat) (opening closing : String)
    (parts : List String) : String :=
  match parts with
  | [] => opening ++ closing
  | _ =>
    opening ++ ",".intercalate (parts.map (style.lineBreak (depth + 1) ++ ·)) ++
      style.lineBreak depth ++ closing

mutual

/-- The JSON text of a portable value at a depth. -/
def writeAt (style : Style) (depth : Nat) : Value → String
  | .null => "null"
  | .bool b => if b then "true" else "false"
  | .int n => toString n
  | .float x => Decimal.Layout.document.write x
  | .text s => writeText s
  | .list xs => style.enclose depth "[" "]" (writeAll style (depth + 1) xs)
  | .mapping es => style.enclose depth "\x7b" "\x7d" (writeEntries style (depth + 1) es)
  | .bytes bs => writeText (Value.bytesText bs)
  | .date d => writeText d.iso
  | .moment t => writeText t.iso
  | .pair a b => style.enclose depth "[" "]" [writeAt style (depth + 1) a, writeAt style (depth + 1) b]
  | .set xs => style.enclose depth "[" "]" (writeAll style (depth + 1) xs)
  | .again v => writeAt style depth v

/-- The JSON texts of values. -/
def writeAll (style : Style) (depth : Nat) : List Value → List String
  | [] => []
  | x :: rest => writeAt style depth x :: writeAll style depth rest

/-- The JSON texts of entries. -/
def writeEntries (style : Style) (depth : Nat) : List (Value × Value) → List String
  | [] => []
  | (k, v) :: rest =>
    (writeText (Value.keyText k) ++ style.colon ++ writeAt style depth v) ::
      writeEntries style depth rest

end

/-- The JSON document of a value. -/
def write (style : Style) (v : Value) : String :=
  writeAt style 0 v.portable

/-- The message about a value that cannot be written. -/
def writeFaultMessage (f : Value.PortableFault) : String :=
  "Error serializing to JSON: " ++
    match f with
    | .endless | .tooDeep => "ValueError: " ++ f.message
    | .undecodable f =>
      match f.cause with
      | .endOfData => "incomplete utf-8 byte sequence from index " ++ toString f.start
      | _ =>
        "invalid utf-8 sequence of " ++ toString f.length ++ " bytes from index " ++
          toString f.start

end EntityGraph.Json
