import Catwalk.Text.Printable

/-!
# Quoted text

Text between quotes, on one line and printable throughout. The quote is an apostrophe, unless the
text holds an apostrophe and no quotation mark. The quote itself and the reverse solidus are
preceded by a reverse solidus; tab, line feed and carriage return have short escapes; any other
unprintable code point is written as a hexadecimal number of the shortest of three widths.
-/

namespace Catwalk.Text

/-- How one code point is written between quotes. -/
def quotedOne (quote c : CodePoint) : Text :=
  if c = quote ∨ c = CodePoint.reverseSolidus then [CodePoint.reverseSolidus, c]
  else if c.val = 0x09 then ofString "\\t"
  else if c.val = 0x0A then ofString "\\n"
  else if c.val = 0x0D then ofString "\\r"
  else if c.isPrintable then [c]
  else if c.val < 0x100 then ofString "\\x" ++ ofHex 2 c.val
  else if c.val < 0x10000 then ofString "\\u" ++ ofHex 4 c.val
  else ofString "\\U" ++ ofHex 8 c.val

/-- The quote that goes around a text. -/
def quoteFor (t : Text) : CodePoint :=
  let apostrophe : CodePoint := 0x27
  let quotationMark : CodePoint := 0x22
  if t.contains apostrophe && !t.contains quotationMark then quotationMark else apostrophe

/-- The text between quotes. -/
def quoted (t : Text) : Text :=
  let quote := quoteFor t
  quote :: t.flatMap (quotedOne quote) ++ [quote]

end Catwalk.Text
