import TrackedDelivery.Bytes
/-!
# Strings in JSON

Writing: a quote, a backslash and every character below U+0020 are escaped, five of those by a
letter and the others by four hexadecimal digits; all else stands for itself. Reading keeps
apart the scan, which finds the closing quote and needs only well-formed escapes, and the
content, which also needs paired surrogates and valid UTF-8.
-/
namespace TrackedDelivery.Json

def hexDigit (n : Nat) : Char := if n < 10 then Char.ofNat (48 + n) else Char.ofNat (87 + n)

def escapeChar (c : Char) : List Char :=
  if c = '"' then ['\\', '"']
  else if c = '\\' then ['\\', '\\']
  else if c = '\x08' then ['\\', 'b']
  else if c = '\x0c' then ['\\', 'f']
  else if c = '\n' then ['\\', 'n']
  else if c = '\r' then ['\\', 'r']
  else if c = '\t' then ['\\', 't']
  else if c.toNat < 0x20 then
    ['\\', 'u', '0', '0', hexDigit (c.toNat / 16), hexDigit (c.toNat % 16)]
  else [c]

/-- The text between quotes. -/
def quote (s : String) : String :=
  String.ofList ('"' :: s.toList.flatMap escapeChar ++ ['"'])

inductive Fault
  | endOfInput
  | malformed
  deriving DecidableEq, Repr

/-- What stands between the quotes: bytes for themselves and numeric escapes. -/
inductive Part
  | byte (b : UInt8)
  | unit (code : Nat)
  deriving DecidableEq, Repr

def hexValue? (b : UInt8) : Option Nat :=
  let n := b.toNat
  if 48 ≤ n && n ≤ 57 then some (n - 48)
  else if 65 ≤ n && n ≤ 70 then some (n - 55)
  else if 97 ≤ n && n ≤ 102 then some (n - 87)
  else none

def hexValues? (a b c d : UInt8) : Option Nat := do
  return (((← hexValue? a) * 16 + (← hexValue? b)) * 16 + (← hexValue? c)) * 16 + (← hexValue? d)

/-- The byte that an escape by one letter stands for. -/
def shortEscape? (b : UInt8) : Option UInt8 :=
  if b = 34 || b = 92 || b = 47 then some b
  else if b = 98 then some 8
  else if b = 102 then some 12
  else if b = 110 then some 10
  else if b = 114 then some 13
  else if b = 116 then some 9
  else none

/-- Scans to the closing quote. Returns the parts passed, and either what follows the quote or
the fault that ended the scan. Fewer than four bytes after a numeric escape end the input. -/
def scanParts (parts : List Part) : Bytes → List Part × Except Fault Bytes
  | [] => (parts.reverse, .error .endOfInput)
  | b :: rest =>
      if b = 34 then (parts.reverse, .ok rest)
      else if b = 92 then
        match rest with
        | [] => (parts.reverse, .error .endOfInput)
        | e :: rest =>
            if e = 117 then
              match rest with
              | h₁ :: h₂ :: h₃ :: h₄ :: rest =>
                  match hexValues? h₁ h₂ h₃ h₄ with
                  | some code => scanParts (.unit code :: parts) rest
                  | none => (parts.reverse, .error .malformed)
              | _ => (parts.reverse, .error .endOfInput)
            else
              match shortEscape? e with
              | some b => scanParts (.byte b :: parts) rest
              | none => (parts.reverse, .error .malformed)
      else if b < 32 then (parts.reverse, .error .malformed)
      else scanParts (.byte b :: parts) rest

def isHighSurrogate (code : Nat) : Bool := 0xD800 ≤ code && code ≤ 0xDBFF
def isLowSurrogate (code : Nat) : Bool := 0xDC00 ≤ code && code ≤ 0xDFFF

/-- The code point of a surrogate pair. -/
def joinSurrogates (high low : Nat) : Nat := 0x10000 + (high - 0xD800) * 0x400 + (low - 0xDC00)

/-- The bytes that the parts spell. A surrogate without its partner is a fault, unless the scan
ended right after it for lack of input. -/
def partBytes (ending : Option Fault) : List Part → Except Fault Bytes
  | [] => .ok []
  | .byte b :: rest => (partBytes ending rest).map (b :: ·)
  | .unit code :: rest =>
      if isHighSurrogate code then
        match rest with
        | [] => .error (ending.getD .malformed)
        | .unit low :: rest =>
            if isLowSurrogate low then
              (partBytes ending rest).map
                (String.utf8EncodeChar (Char.ofNat (joinSurrogates code low)) ++ ·)
            else .error .malformed
        | _ => .error .malformed
      else if isLowSurrogate code then .error .malformed
      else (partBytes ending rest).map (String.utf8EncodeChar (Char.ofNat code) ++ ·)

/-- The text that bytes encode, if they are valid UTF-8. -/
def decodeUtf8 (bytes : Bytes) : Except Fault String :=
  match Bytes.toText? bytes with
  | some s => .ok s
  | none => .error .malformed

/-- The text that a scanned string spells. Faults in its parts precede the one at its end. -/
def content (parts : List Part) (ending : Option Fault) : Except Fault String := do
  let bytes ← partBytes ending parts
  match ending with
  | some fault => .error fault
  | none => decodeUtf8 bytes

end TrackedDelivery.Json
