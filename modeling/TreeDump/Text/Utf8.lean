/-!
# UTF-8

Reading bytes as text, strictly or with replacement.  One function, `first`, looks at the
front of the bytes: it finds a whole character, or the longest stretch that begins a character
and cannot be completed.

* `decode` accepts exactly the bytes that are characters from end to end, and otherwise names
  the first stretch that is not.
* `decodeLossy` reads every such stretch as one replacement character.
-/

namespace TreeDump.Utf8

/-- Why a stretch of bytes is not a character. -/
inductive Cause where
  | startByte
  | continuation
  | truncated
deriving Repr, DecidableEq

/-- The first stretch of bytes that is not a character. -/
structure Fault where
  offset : Nat
  /-- The number of bytes after the first one. -/
  extra : Nat
  byte : UInt8
  cause : Cause
deriving Repr, DecidableEq

/-- What a first byte asks for: the number of bytes that follow, the range of the first of
them, and the bits that the first byte itself contributes.  The range excludes overlong forms,
surrogates and numbers above the last code point. -/
structure Lead where
  count : Nat
  low : UInt8
  high : UInt8
  bits : Nat

/-- The demands of a first byte, unless it can begin no character. -/
def lead? (b : UInt8) : Option Lead :=
  if b < 0x80 then some ⟨0, 0, 0, b.toNat⟩
  else if b < 0xc2 then none
  else if b < 0xe0 then some ⟨1, 0x80, 0xbf, b.toNat - 0xc0⟩
  else if b == 0xe0 then some ⟨2, 0xa0, 0xbf, 0⟩
  else if b == 0xed then some ⟨2, 0x80, 0x9f, 0xd⟩
  else if b < 0xf0 then some ⟨2, 0x80, 0xbf, b.toNat - 0xe0⟩
  else if b == 0xf0 then some ⟨3, 0x90, 0xbf, 0⟩
  else if b < 0xf4 then some ⟨3, 0x80, 0xbf, b.toNat - 0xf0⟩
  else if b == 0xf4 then some ⟨3, 0x80, 0x8f, 4⟩
  else none

/-- Takes `count` further bytes into the code point, the next of them between `low` and `high`.
A failure counts the bytes that were still good. -/
def continued (low high : UInt8) (taken bits : Nat) : Nat → List UInt8 → Except (Cause × Nat) Nat
  | 0, _ => .ok bits
  | _ + 1, [] => .error (.truncated, taken)
  | count + 1, b :: rest =>
    if low ≤ b && b ≤ high then
      continued 0x80 0xbf (taken + 1) (64 * bits + (b.toNat - 0x80)) count rest
    else .error (.continuation, taken)

/-- The character at the front of `b :: rest` and the number of bytes of `rest` that it takes,
or why there is none and how many bytes of `rest` belong to the failed attempt. -/
def first (b : UInt8) (rest : List UInt8) : Except (Cause × Nat) (Char × Nat) :=
  match lead? b with
  | none => .error (.startByte, 0)
  | some lead =>
    match continued lead.low lead.high 0 lead.bits lead.count rest with
    | .ok code => .ok (Char.ofNat code, lead.count)
    | .error fault => .error fault

/-- Strict reading from `offset` on, after the text `text`. -/
def decodeFrom (offset : Nat) (text : String) : List UInt8 → Except Fault String
  | [] => .ok text
  | b :: rest =>
    match first b rest with
    | .ok (c, n) => decodeFrom (offset + 1 + n) (text.push c) (rest.drop n)
    | .error (cause, n) => .error ⟨offset, n, b, cause⟩
termination_by bytes => bytes.length
decreasing_by simp only [List.length_drop, List.length_cons]; omega

/-- The text that the bytes encode, or the first stretch that encodes nothing. -/
def decode (bytes : ByteArray) : Except Fault String := decodeFrom 0 "" bytes.toList

/-- Reading with replacement, after the text `text`. -/
def decodeLossyFrom (text : String) : List UInt8 → String
  | [] => text
  | b :: rest =>
    match first b rest with
    | .ok (c, n) => decodeLossyFrom (text.push c) (rest.drop n)
    | .error (_, n) => decodeLossyFrom (text.push '\ufffd') (rest.drop n)
termination_by bytes => bytes.length
decreasing_by all_goals (simp only [List.length_drop, List.length_cons]; omega)

/-- The text of the bytes, with one replacement character for each stretch that encodes
nothing. -/
def decodeLossy (bytes : ByteArray) : String := decodeLossyFrom "" bytes.toList

/-- Whether the bytes are UTF-8 from end to end. -/
def isValid (bytes : ByteArray) : Bool := (decode bytes).toOption.isSome

end TreeDump.Utf8
