import TrackedDelivery.Bytes
/-!
# Base64

The standard alphabet with mandatory padding. Reading is strict: only the text that `encode`
writes is accepted. The first fault from the left is reported, except that a text one symbol too
long whose last byte is no symbol is refused for that byte.
-/
namespace TrackedDelivery.Base64

inductive Fault
  | invalidSymbol (byte : UInt8) (offset : Nat)
  | invalidLength (length : Nat)
  | invalidPadding
  | invalidLastSymbol (byte : UInt8) (offset : Nat)
  deriving DecidableEq, Repr

def Fault.message : Fault → String
  | .invalidSymbol byte offset => s!"Invalid symbol {byte}, offset {offset}."
  | .invalidLength length => s!"Invalid input length: {length}"
  | .invalidPadding => "Invalid padding"
  | .invalidLastSymbol byte offset => s!"Invalid last symbol {byte}, offset {offset}."

def padding : UInt8 := 61

/-- The symbol of a value below 64: capitals, small letters, digits, plus and slash. -/
def symbol (value : Nat) : UInt8 :=
  if value < 26 then UInt8.ofNat (65 + value)
  else if value < 52 then UInt8.ofNat (97 + (value - 26))
  else if value < 62 then UInt8.ofNat (48 + (value - 52))
  else if value = 62 then 43
  else 47

def value? (byte : UInt8) : Option Nat :=
  let n := byte.toNat
  if 65 ≤ n && n ≤ 90 then some (n - 65)
  else if 97 ≤ n && n ≤ 122 then some (n - 97 + 26)
  else if 48 ≤ n && n ≤ 57 then some (n - 48 + 52)
  else if n = 43 then some 62
  else if n = 47 then some 63
  else none

/-- Symbols and values below 64 stand for each other. -/
theorem value?_symbol {v : Nat} (h : v < 64) : value? (symbol v) = some v := by
  have : ∀ v < 64, value? (symbol v) = some v := by decide
  exact this v h

theorem symbol_ne_padding {v : Nat} (h : v < 64) : symbol v ≠ padding := by
  have : ∀ v < 64, symbol v ≠ padding := by decide
  exact this v h

/-- Three bytes become four symbols; the last one or two bytes are padded to four. -/
def encode : Bytes → Bytes
  | [] => []
  | [a] => [symbol (a.toNat / 4), symbol (a.toNat % 4 * 16), padding, padding]
  | [a, b] =>
      [symbol (a.toNat / 4), symbol (a.toNat % 4 * 16 + b.toNat / 16),
       symbol (b.toNat % 16 * 4), padding]
  | a :: b :: c :: rest =>
      symbol (a.toNat / 4) :: symbol (a.toNat % 4 * 16 + b.toNat / 16)
        :: symbol (b.toNat % 16 * 4 + c.toNat / 64) :: symbol (c.toNat % 64) :: encode rest

/-- The value of the symbol at an offset. -/
def readSymbol (offset : Nat) (byte : UInt8) : Except Fault Nat :=
  match value? byte with
  | some value => .ok value
  | none => .error (.invalidSymbol byte offset)

/-- The three bytes of four symbols. -/
def joinQuad (a b c d : Nat) : Bytes :=
  [UInt8.ofNat (a * 4 + b / 16), UInt8.ofNat (b % 16 * 16 + c / 4), UInt8.ofNat (c % 4 * 64 + d)]

/-- The symbols at the start of the last quad, each with its offset, and the offset of the
padding after them. Padding may not stand at the first two places, nor a symbol after it. -/
def readLastSymbols (start : Nat) (index : Nat) : Bytes → Except Fault (List Nat × Nat)
  | [] => .ok ([], 0)
  | byte :: rest =>
      if byte = padding then
        if index < 2 then .error (.invalidSymbol padding (start + index))
        else if rest.all (· = padding) then .ok ([], 1 + rest.length)
        else .error (.invalidSymbol padding (start + index))
      else do
        let value ← readSymbol (start + index) byte
        let (values, paddings) ← readLastSymbols start (index + 1) rest
        return (value :: values, paddings)

/-- Reads the last quad, which holds one to four bytes and begins at the offset `start`. -/
def decodeLast (start : Nat) (quad : Bytes) : Except Fault Bytes := do
  let (values, paddings) ← readLastSymbols start 0 quad
  let excess (unused : Nat) (result : Bytes) : Except Fault Bytes :=
    if unused = 0 then .ok result
    else
      let index := values.length - 1
      .error (.invalidLastSymbol (quad.getD index 0) (start + index))
  match values, paddings with
  | [a, b, c, d], 0 => .ok (joinQuad a b c d)
  | [a, b, c], 1 => excess (c % 4) ((joinQuad a b c 0).take 2)
  | [a, b], 2 => excess (b % 16) ((joinQuad a b 0 0).take 1)
  | [], _ => .error (.invalidLength start)
  | [_], _ => .error (.invalidLength (start + 1))
  | _, _ => .error .invalidPadding

/-- Reads quads from the offset `start` on. All but the last hold four symbols. -/
def decodeFrom (start : Nat) : Bytes → Except Fault Bytes
  | a :: b :: c :: d :: e :: rest => do
      let a ← readSymbol start a
      let b ← readSymbol (start + 1) b
      let c ← readSymbol (start + 2) c
      let d ← readSymbol (start + 3) d
      let bytes ← decodeFrom (start + 4) (e :: rest)
      return joinQuad a b c d ++ bytes
  | [] => .ok []
  | quad => decodeLast start quad

/-- The last byte of a text that is one byte too long, if it is no symbol. -/
def strayByte? (text : Bytes) : Option UInt8 :=
  if text.length % 4 = 1 then
    text.getLast?.filter fun byte => byte ≠ padding && (value? byte).isNone
  else none

def decode (text : Bytes) : Except Fault Bytes :=
  match strayByte? text with
  | some byte => .error (.invalidSymbol byte (text.length - 1))
  | none => decodeFrom 0 text

@[simp] theorem decode_nil : decode [] = .ok [] := rfl

end TrackedDelivery.Base64
