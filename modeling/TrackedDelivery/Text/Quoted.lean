import TrackedDelivery.Text.Printable
/-!
# Quoted text

The form in which a text stands inside a message: between double quotes, with the quote, the
backslash and four controls escaped by a letter, and with every other character that does not
show or that joins the one before it written as its code point in hexadecimal.
-/
namespace TrackedDelivery.Text

/-- Lower case, without leading zeros. -/
def hexDigits (n : Nat) : List Char := Nat.toDigits 16 n

def escapeChar (c : Char) : List Char :=
  if c = '"' then ['\\', '"']
  else if c = '\\' then ['\\', '\\']
  else if c = '\n' then ['\\', 'n']
  else if c = '\r' then ['\\', 'r']
  else if c = '\t' then ['\\', 't']
  else if c = '\x00' then ['\\', '0']
  else if isPrintable c && !extendsGrapheme c then [c]
  else ['\\', 'u', '\x7b'] ++ hexDigits c.toNat ++ ['\x7d']

def quoted (s : String) : String :=
  String.ofList ('"' :: s.toList.flatMap escapeChar ++ ['"'])

end TrackedDelivery.Text
