import Typesheet.Text.Unprintable
import Typesheet.Text.Combining

/-! Quoted text.

Words taken from a source are shown between double quotes, with every character
that would be invisible or ambiguous there written as an escape. -/
namespace Typesheet.Text

/-- Whether a code point lies in one of the ranges. -/
def inRanges (ranges : List (Nat × Nat)) (n : Nat) : Bool :=
  ranges.any fun (low, high) => low ≤ n && n ≤ high

/-- The letters of Hangul that fill an empty place and are drawn as nothing. -/
def isFiller (c : Char) : Bool :=
  c.toNat == 0x115f || c.toNat == 0x1160 || c.toNat == 0x3164 || c.toNat == 0xffa0

/-- Whether a character stands by itself on the page: it is printable, visible,
and no mark on the character before it. -/
def standsAlone (c : Char) : Bool :=
  if c.toNat < 0x7f then 0x20 ≤ c.toNat
  else if c.toNat < 0x10000 then
    !inRanges unprintableBasic c.toNat && !inRanges combiningBasic c.toNat && !isFiller c
  else !inRanges unprintableSupplementary c.toNat && !inRanges combiningSupplementary c.toNat

/-- A code point in lower-case hexadecimal between braces. -/
def codePoint (c : Char) : List Char :=
  ['\\', 'u', '\x7b'] ++ Nat.toDigits 16 c.toNat ++ ['\x7d']

/-- A character as it is written between quotes. -/
def quotedChar (c : Char) : List Char :=
  if c = '\x00' then ['\\', '0']
  else if c = '\t' then ['\\', 't']
  else if c = '\r' then ['\\', 'r']
  else if c = '\n' then ['\\', 'n']
  else if c = '\\' || c = '"' then ['\\', c]
  else if standsAlone c then [c]
  else codePoint c

/-- A text between quotes. -/
def quoted (text : String) : String :=
  String.ofList ('"' :: text.toList.flatMap quotedChar ++ ['"'])

end Typesheet.Text
