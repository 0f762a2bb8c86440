import ComponentTree.Text.Basic

/-!
This module contains the reading and writing of text as UTF-8 bytes. Bytes that are no well-formed
UTF-8 are read as a list of characters with gaps: each longest run of bytes that starts a character
but does not complete it is one gap, and so is each byte that cannot start one.
-/

namespace ComponentTree

abbrev Bytes := List UInt8

namespace Text.Utf8

inductive Lead where
  | single
  | opening (bits : Nat) (low high : UInt8) (more : Nat)
  | stray

def Lead.ofByte (b : UInt8) : Lead :=
  if b < 0x80 then .single
  else if b < 0xC2 then .stray
  else if b < 0xE0 then .opening (b.toNat - 0xC0) 0x80 0xBF 1
  else if b = 0xE0 then .opening 0 0xA0 0xBF 2
  else if b = 0xED then .opening 0xD 0x80 0x9F 2
  else if b < 0xF0 then .opening (b.toNat - 0xE0) 0x80 0xBF 2
  else if b = 0xF0 then .opening 0 0x90 0xBF 3
  else if b < 0xF4 then .opening (b.toNat - 0xF0) 0x80 0xBF 3
  else if b = 0xF4 then .opening 4 0x80 0x8F 3
  else .stray

def continued (bits : Nat) (low high : UInt8) : (more : Nat) → Bytes → Option Nat × Bytes
  | 0, bytes => (some bits, bytes)
  | _ + 1, [] => (none, [])
  | more + 1, b :: bytes =>
    if low ≤ b && b ≤ high then
      continued (bits * 0x40 + (b.toNat - 0x80)) 0x80 0xBF more bytes
    else
      (none, b :: bytes)

theorem length_continued_le (bits : Nat) (low high : UInt8) (more : Nat) (bytes : Bytes) :
    (continued bits low high more bytes).2.length ≤ bytes.length := by
  fun_induction continued bits low high more bytes with
  | case1 => simp
  | case2 => simp
  | case3 bits low high more b bytes h ih => simp only [List.length_cons]; omega
  | case4 => simp

def decodeWithGaps : Bytes → List (Option Char)
  | [] => []
  | b :: bytes =>
    match Lead.ofByte b with
    | .single => some (Char.ofNat b.toNat) :: decodeWithGaps bytes
    | .stray => none :: decodeWithGaps bytes
    | .opening bits low high more =>
      (continued bits low high more bytes).1.map Char.ofNat ::
        decodeWithGaps (continued bits low high more bytes).2
termination_by bytes => bytes.length
decreasing_by
  · simp
  · simp
  · have := length_continued_le bits low high more bytes
    simp only [List.length_cons]
    omega

def decode? (bytes : Bytes) : Option Text :=
  (decodeWithGaps bytes).mapM id

def decodeLossy (bytes : Bytes) : Text :=
  (decodeWithGaps bytes).map (·.getD '\uFFFD')

def encode (text : Text) : Bytes :=
  text.flatMap String.utf8EncodeChar

theorem encode_injective {text other : Text} (h : encode text = encode other) : text = other := by
  apply String.ofList_injective
  rw [← String.toByteArray_inj, String.toByteArray_ofList, String.toByteArray_ofList]
  exact congrArg List.toByteArray h

end Text.Utf8

end ComponentTree
