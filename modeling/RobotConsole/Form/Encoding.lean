import RobotConsole.Form
import RobotConsole.Text.Decimal

/-!
# Form bodies

A form travels as the media type application/x-www-form-urlencoded: pairs joined by `&`, key and
value joined by `=`, and in both of them the bytes of their UTF-8 form, of which ASCII letters,
digits and `*`, `-`, `.`, `_` stand for themselves, the space becomes `+`, and every other byte is
written as `%` and two hexadecimal digits.

`decode` is the usual reader of that type.  It skips empty pieces, cuts each piece at its first `=`,
leaves a `%` without two hexadecimal digits as it is, and refuses bytes that are not UTF-8.
-/

set_option autoImplicit false

namespace RobotConsole.Form

def isPlainByte (byte : UInt8) : Bool :=
  let c := Char.ofNat byte.toNat
  decide (byte < 0x80) && (c.isAlphanum || c == '*' || c == '-' || c == '.' || c == '_')

def upperHexDigit (value : Nat) : Char :=
  if value < 10 then Char.ofNat (value + '0'.toNat) else Char.ofNat (value - 10 + 'A'.toNat)

def encodeByte (byte : UInt8) : List Char :=
  if isPlainByte byte then [Char.ofNat byte.toNat]
  else if byte = 0x20 then ['+']
  else ['%', upperHexDigit (byte.toNat / 16), upperHexDigit (byte.toNat % 16)]

def encodeChars (cs : List Char) : List Char :=
  cs.flatMap fun c => (String.utf8EncodeChar c).flatMap encodeByte

def encodePair (pair : String × String) : List Char :=
  encodeChars pair.1.toList ++ '=' :: encodeChars pair.2.toList

def encodeRest : List (String × String) → List Char
  | [] => []
  | pair :: rest => '&' :: encodePair pair ++ encodeRest rest

def encodePairs : List (String × String) → List Char
  | [] => []
  | pair :: rest => encodePair pair ++ encodeRest rest

def encode (form : Form) : String :=
  String.ofList (encodePairs form.pairs)

/-- The bytes that a written key or value stands for. -/
def decodeBytes : List Char → List UInt8
  | [] => []
  | '%' :: high :: low :: rest =>
      if Text.isHexDigit high && Text.isHexDigit low then
        UInt8.ofNat (16 * Text.hexValue high + Text.hexValue low) :: decodeBytes rest
      else String.utf8EncodeChar '%' ++ decodeBytes (high :: low :: rest)
  | c :: rest =>
      if c = '+' then 0x20 :: decodeBytes rest
      else String.utf8EncodeChar c ++ decodeBytes rest

def decodeText? (cs : List Char) : Option String :=
  String.fromUTF8? (decodeBytes cs).toByteArray

def decodePiece? (piece : List Char) : Option (String × String) :=
  let key := piece.takeWhile (· != '=')
  let value := (piece.dropWhile (· != '=')).drop 1
  match decodeText? key, decodeText? value with
  | some key, some value => some (key, value)
  | _, _ => none

def decode? (body : String) : Option (List (String × String)) :=
  ((body.toList.splitOn '&').filter fun piece => !piece.isEmpty).mapM decodePiece?

end RobotConsole.Form
