import EntityGraph.Text.Quoted

/-!
Byte encodings of text: UTF-8, UTF-16 and UTF-32. A decoding that fails says where the first bad
sequence lies, how long it is and what is wrong with it.
-/
namespace EntityGraph.Text

/-- The byte encodings that a source may use. -/
inductive Encoding where
  | utf8 | utf16LE | utf16BE | utf32LE | utf32BE
  deriving DecidableEq, Repr

/-- The name of an encoding in messages. -/
def Encoding.label : Encoding → String
  | .utf8 => "utf-8"
  | .utf16LE => "utf-16-le"
  | .utf16BE => "utf-16-be"
  | .utf32LE => "utf-32-le"
  | .utf32BE => "utf-32-be"

/-- What makes a byte sequence undecodable. -/
inductive BadBytes where
  | invalidStart | invalidContinuation | endOfData | truncated | endOfSurrogate
  | illegalEncoding | illegalSurrogate | outOfRange
  deriving DecidableEq, Repr

/-- The wording of a decoding failure. -/
def BadBytes.reason : BadBytes → String
  | .invalidStart => "invalid start byte"
  | .invalidContinuation => "invalid continuation byte"
  | .endOfData => "unexpected end of data"
  | .truncated => "truncated data"
  | .endOfSurrogate => "unexpected end of data"
  | .illegalEncoding => "illegal encoding"
  | .illegalSurrogate => "illegal UTF-16 surrogate"
  | .outOfRange => "code point not in range(0x110000)"

/-- A failed decoding: the bad sequence begins at `start`, with the byte `first`, and is `length`
    bytes long. -/
structure DecodeFault where
  encoding : Encoding
  start : Nat
  length : Nat
  first : Nat
  cause : BadBytes
  deriving DecidableEq, Repr

/-- The message of a failed decoding. -/
def DecodeFault.message (f : DecodeFault) : String :=
  let place :=
    if f.length = 1 then
      "byte 0x" ++ String.ofList (hexDigits 2 f.first) ++ " in position " ++ toString f.start
    else
      "bytes in position " ++ toString f.start ++ "-" ++ toString (f.start + f.length - 1)
  "'" ++ f.encoding.label ++ "' codec can't decode " ++ place ++ ": " ++ f.cause.reason

/-! ## UTF-8 -/

/-- How a lead byte is followed: the count of continuation bytes, the range of the first one, and
    the payload of the lead byte itself. -/
def leadByte? (surrogates : Bool) (b : UInt8) : Option (Nat × Nat × Nat × Nat) :=
  let n := b.toNat
  if n < 0xc2 then none
  else if n < 0xe0 then some (1, 0x80, 0xbf, n - 0xc0)
  else if n < 0xf0 then
    some (2, if n = 0xe0 then 0xa0 else 0x80, if n = 0xed && !surrogates then 0x9f else 0xbf,
      n - 0xe0)
  else if n < 0xf5 then
    some (3, if n = 0xf0 then 0x90 else 0x80, if n = 0xf4 then 0x8f else 0xbf, n - 0xf0)
  else none

/-- Reads continuation bytes: how many were good, and the code point if all were. -/
def continuation : Nat → Nat → Nat → Nat → Nat → List UInt8 → Nat × Option (Nat × List UInt8) × Bool
  | 0, _, _, acc, seen, rest => (seen, some (acc, rest), false)
  | _ + 1, _, _, _, seen, [] => (seen, none, true)
  | k + 1, lo, hi, acc, seen, b :: rest =>
    if lo ≤ b.toNat && b.toNat ≤ hi then
      continuation k 0x80 0xbf (acc * 64 + (b.toNat - 0x80)) (seen + 1) rest
    else (seen, none, false)

/-- Decodes UTF-8 with `fuel` at least the number of bytes. -/
def decodeUtf8From (surrogates : Bool) :
    Nat → Nat → List UInt8 → List Char → Except DecodeFault (List Char)
  | 0, _, _, acc => .ok acc.reverse
  | _, _, [], acc => .ok acc.reverse
  | fuel + 1, pos, b :: rest, acc =>
    if b.toNat < 0x80 then
      decodeUtf8From surrogates fuel (pos + 1) rest (Char.ofNat b.toNat :: acc)
    else
      match leadByte? surrogates b with
      | none => .error ⟨.utf8, pos, 1, b.toNat, .invalidStart⟩
      | some (k, lo, hi, payload) =>
        match continuation k lo hi payload 0 rest with
        | (_, some (n, rest), _) =>
          decodeUtf8From surrogates fuel (pos + 1 + k) rest (codePoint n :: acc)
        | (seen, none, true) => .error ⟨.utf8, pos, 1 + seen, b.toNat, .endOfData⟩
        | (seen, none, false) => .error ⟨.utf8, pos, 1 + seen, b.toNat, .invalidContinuation⟩

/-! ## UTF-16 -/

/-- Decodes UTF-16 whose units are read by `unit`, with `fuel` at least the number of bytes. A lone
    surrogate is refused unless `surrogates`. -/
def decodeUtf16From (encoding : Encoding) (unit : UInt8 → UInt8 → Nat) (surrogates : Bool) :
    Nat → Nat → List UInt8 → List Char → Except DecodeFault (List Char)
  | 0, _, _, acc => .ok acc.reverse
  | _, _, [], acc => .ok acc.reverse
  | _, pos, [b], _ => .error ⟨encoding, pos, 1, b.toNat, .truncated⟩
  | fuel + 1, pos, a :: b :: rest, acc =>
    let n := unit a b
    if n < 0xd800 || 0xe000 ≤ n then
      decodeUtf16From encoding unit surrogates fuel (pos + 2) rest (codePoint n :: acc)
    else if n < 0xdc00 then
      match rest with
      | c :: d :: rest' =>
        let m := unit c d
        if 0xdc00 ≤ m && m < 0xe000 then
          decodeUtf16From encoding unit surrogates fuel (pos + 4) rest'
            (codePoint (0x10000 + (n - 0xd800) * 0x400 + (m - 0xdc00)) :: acc)
        else if surrogates then
          decodeUtf16From encoding unit surrogates fuel (pos + 2) rest (codePoint n :: acc)
        else .error ⟨encoding, pos, 2, a.toNat, .illegalSurrogate⟩
      | _ =>
        if surrogates then
          decodeUtf16From encoding unit surrogates fuel (pos + 2) rest (codePoint n :: acc)
        else .error ⟨encoding, pos, 2 + rest.length, a.toNat, .endOfSurrogate⟩
    else if surrogates then
      decodeUtf16From encoding unit surrogates fuel (pos + 2) rest (codePoint n :: acc)
    else .error ⟨encoding, pos, 2, a.toNat, .illegalEncoding⟩

/-- A unit with the low byte first. -/
def littleUnit (a b : UInt8) : Nat := a.toNat + b.toNat * 256

/-- A unit with the high byte first. -/
def bigUnit (a b : UInt8) : Nat := a.toNat * 256 + b.toNat

/-! ## UTF-32 -/

/-- Decodes UTF-32 whose units are read by `unit`, with `fuel` at least the number of bytes. -/
def decodeUtf32From (encoding : Encoding) (unit : UInt8 → UInt8 → UInt8 → UInt8 → Nat) :
    Nat → Nat → List UInt8 → List Char → Except DecodeFault (List Char)
  | 0, _, _, acc => .ok acc.reverse
  | _, _, [], acc => .ok acc.reverse
  | fuel + 1, pos, a :: b :: c :: d :: rest, acc =>
    let n := unit a b c d
    if n < 0x110000 then decodeUtf32From encoding unit fuel (pos + 4) rest (codePoint n :: acc)
    else .error ⟨encoding, pos, 4, a.toNat, .outOfRange⟩
  | _, pos, a :: rest, _ => .error ⟨encoding, pos, 1 + rest.length, a.toNat, .truncated⟩

/-- The text of a byte sequence in an encoding, where the first byte has position `start`. Code
    points of surrogates are refused unless `surrogates`. -/
def decode (encoding : Encoding) (surrogates : Bool) (start : Nat) (bs : List UInt8) :
    Except DecodeFault (List Char) :=
  match encoding with
  | .utf8 => decodeUtf8From surrogates bs.length start bs []
  | .utf16LE => decodeUtf16From .utf16LE littleUnit surrogates bs.length start bs []
  | .utf16BE => decodeUtf16From .utf16BE bigUnit surrogates bs.length start bs []
  | .utf32LE =>
    decodeUtf32From .utf32LE (fun a b c d => littleUnit a b + littleUnit c d * 65536)
      bs.length start bs []
  | .utf32BE =>
    decodeUtf32From .utf32BE (fun a b c d => bigUnit a b * 65536 + bigUnit c d)
      bs.length start bs []

/-- The text of a UTF-8 byte sequence without surrogates, if it is one. -/
def utf8? (bs : List UInt8) : Option (List Char) :=
  (decode .utf8 false 0 bs).toOption

end EntityGraph.Text
