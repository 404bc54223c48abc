import SourceTidy.Text.Basic

/-!
# Text and bytes

Files hold bytes.  A file is text when its bytes are the UTF-8 form of some
text, and that text is then unique.
-/

namespace SourceTidy
namespace Text

def encode (text : Text) : ByteArray :=
  (String.ofList text).toUTF8

def decode? (bytes : ByteArray) : Option Text :=
  (String.fromUTF8? bytes).map String.toList

theorem decode?_encode (text : Text) : decode? (encode text) = some text := by
  have valid : (String.ofList text).toUTF8.IsValidUTF8 := (String.ofList text).isValidUTF8
  have reads : String.fromUTF8? (String.ofList text).toUTF8 = some (String.ofList text) :=
    dif_pos valid
  rw [decode?, encode, reads, Option.map_some, String.toList_ofList]

theorem encode_injective : Function.Injective encode := by
  intro text other h
  rw [← Option.some.injEq, ← decode?_encode, ← decode?_encode, h]

theorem encode_of_decode? {bytes : ByteArray} {text : Text} (h : decode? bytes = some text) :
    encode text = bytes := by
  rw [decode?, String.fromUTF8?] at h
  split at h
  · cases h
    rw [encode, String.ofList_toList]
    rfl
  · cases h

/-!
# Bytes that need not be text

Names of files are bytes of any kind.  Read as UTF-8 they give a character for each
well-formed stretch and nothing for each stretch that is broken.  A broken stretch ends
before the first byte with which no character could go on.
-/

def bytes (text : Text) : List UInt8 :=
  text.flatMap String.utf8EncodeChar

def isContinuation (b : UInt8) : Bool :=
  0x80 ≤ b && b ≤ 0xBF

/-- Whether the second byte can go on with what the first one begins, if this is a form of
three or four bytes. -/
def mayFollow (first second : UInt8) : Bool :=
  if first = 0xE0 then 0xA0 ≤ second && second ≤ 0xBF
  else if first = 0xED then 0x80 ≤ second && second ≤ 0x9F
  else if first = 0xF0 then 0x90 ≤ second && second ≤ 0xBF
  else if first = 0xF4 then 0x80 ≤ second && second ≤ 0x8F
  else 0xE1 ≤ first && first ≤ 0xF3 && isContinuation second

def brokenLength : List UInt8 → Nat
  | first :: second :: third :: _ =>
      if !mayFollow first second then 1
      else if 0xF0 ≤ first && isContinuation third then 3
      else 2
  | [first, second] => if mayFollow first second then 2 else 1
  | _ => 1

/-- The stretches of the given bytes, after `skip` bytes that belong to a stretch already
read. -/
def stretches : Nat → List UInt8 → List (Option Char)
  | _, [] => []
  | skip + 1, _ :: rest => stretches skip rest
  | 0, b :: rest =>
      match ByteArray.utf8DecodeChar? ⟨((b :: rest).take 4).toArray⟩ 0 with
      | some c => some c :: stretches (c.utf8Size - 1) rest
      | none => none :: stretches (brokenLength (b :: rest) - 1) rest

/-- The text whose UTF-8 form consists of the given bytes, if there is one. -/
def ofBytes? (bytes : List UInt8) : Option Text :=
  (stretches 0 bytes).mapM id

/-- The text that bytes are shown as, with the replacement character for each stretch that
is broken. -/
def shown (bytes : List UInt8) : Text :=
  (stretches 0 bytes).map fun c? => c?.getD '\uFFFD'

end Text
end SourceTidy
