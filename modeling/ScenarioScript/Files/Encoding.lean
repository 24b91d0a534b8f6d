/-!
# Files/Encoding — bytes read as text

Three encodings are known.  One byte to a character: `ascii` for the first 128 characters, `latin1`
for the first 256; and `utf8`, in which every text can be written (`decode_utf8`).
-/

namespace ScenarioScript

/-- How the bytes of a file stand for text. -/
inductive Encoding where
  | utf8
  | latin1
  | ascii
  deriving DecidableEq, Repr, Inhabited

namespace Encoding

/-- The name of an encoding. -/
def name : Encoding → String
  | utf8 => "utf-8"
  | latin1 => "latin-1"
  | ascii => "ascii"

/-- The encoding with a name. -/
def ofName? (name : String) : Option Encoding := [utf8, latin1, ascii].find? (·.name == name)

/-- The text of bytes that stand for one character each. -/
def bytewise (bytes : ByteArray) : String :=
  String.ofList (bytes.data.toList.map fun b => Char.ofNat b.toNat)

/-- **The text that bytes stand for**, if they stand for one. -/
def decode (bytes : ByteArray) : Encoding → Option String
  | utf8 => String.fromUTF8? bytes
  | latin1 => some (bytewise bytes)
  | ascii => if bytes.data.toList.all (· < 128) then some (bytewise bytes) else none

/-- **Every text can be written** in `utf8`, and is read back. -/
theorem decode_utf8 (text : String) : decode text.toUTF8 utf8 = some text := by
  simp [decode, String.fromUTF8?, text.isValidUTF8]
  rfl

end Encoding

end ScenarioScript
