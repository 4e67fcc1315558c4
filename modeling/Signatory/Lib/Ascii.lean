import Mathlib.Tactic

/-!
# Texts as bytes

A text is a list of bytes.  `toLower` is `strings.ToLower`: texts of ASCII are lowered byte by byte, and what is done to
the runes of other texts is a parameter.
-/

namespace Signatory.Lib.Ascii

def ascii (s : String) : List UInt8 := s.toList.map fun c => UInt8.ofNat c.toNat

def isAscii (s : List UInt8) : Bool := s.all (· < 0x80)

def lower (c : UInt8) : UInt8 := if 0x41 ≤ c ∧ c ≤ 0x5a then c + 0x20 else c

def toLower (lowerRunes : List UInt8 → List UInt8) (s : List UInt8) : List UInt8 :=
  if isAscii s then s.map lower else lowerRunes s

end Signatory.Lib.Ascii
