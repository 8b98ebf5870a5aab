set_option autoImplicit false

/-!
# Comparison without ASCII case

Two texts agree when they differ only in the case of ASCII letters. Every other character, `ſ` and
the Kelvin sign included, agrees with itself alone.
-/
namespace LayeredConfig.Text

def lowerAscii (s : String) : List Char := s.toList.map Char.toLower

def agree (s t : String) : Bool := lowerAscii s == lowerAscii t

end LayeredConfig.Text
