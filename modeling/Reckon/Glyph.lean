import Reckon.Operator

namespace Reckon

/-- What each glyph stands for. A longer key counts only where it is pressed as a whole. -/
structure GlyphMap where
  entries : List (String × String)
  deriving DecidableEq, Repr

namespace GlyphMap

def standard : GlyphMap := ⟨[("×", "*"), ("÷", "/"), ("−", "-"), ("π", "PI")]⟩

def resolve (g : GlyphMap) (s : String) : String := (g.entries.lookup s).getD s

def resolveChar (g : GlyphMap) (c : Char) : String := g.resolve (String.ofList [c])

def normalize (g : GlyphMap) (s : String) : String := String.join (s.toList.map g.resolveChar)

def operator? (g : GlyphMap) (s : String) : Option Operator := Operator.ofText? (g.resolve s)

end GlyphMap

end Reckon
