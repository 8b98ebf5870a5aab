import LayeredConfig.Text.Printable

set_option autoImplicit false

/-!
# Quoted texts in messages

A text is shown between double quotes. A backslash stands in front of quotes, backslashes and the
letters for tab, line feed, carriage return and NUL; a character that cannot be printed, or that
would attach itself to the one before it, is shown by its code point.
-/
namespace LayeredConfig.Text

def quoteChar (c : Char) : List Char :=
  if c = '"' then ['\\', '"']
  else if c = '\\' then ['\\', '\\']
  else if c = '\t' then ['\\', 't']
  else if c = '\r' then ['\\', 'r']
  else if c = '\n' then ['\\', 'n']
  else if c = '\x00' then ['\\', '0']
  else if extendsGrapheme c || !isPrintable c then
    ['\\', 'u', '\x7b'] ++ Nat.toDigits 16 c.toNat ++ ['\x7d']
  else [c]

def quote (s : String) : String :=
  String.ofList ('"' :: s.toList.flatMap quoteChar ++ ['"'])

end LayeredConfig.Text
