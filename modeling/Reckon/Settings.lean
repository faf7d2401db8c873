import Reckon.Glyph

namespace Reckon

structure Limits where
  cacheSize : Int := 1000
  maxLength : Int := 1000
  deriving DecidableEq, Repr

structure Labels where
  errorDisplay : String := "Error"
  emptyDisplay : String := "0"
  expressionColumn : String := "expression"
  resultColumn : String := "result"
  errorColumn : String := "error"
  prompt : String := "> "
  logLevel : String := "WARNING"
  logFormat : String := "%(asctime)s - %(name)s - %(levelname)s - %(message)s"
  deriving DecidableEq, Repr

def labels : Labels := {}

structure Settings where
  limits : Limits := {}
  glyphs : GlyphMap := GlyphMap.standard
  deriving DecidableEq, Repr

inductive SettingsFault
  | cacheSize
  | maxLength
  | glyph
  deriving DecidableEq, Repr

def SettingsFault.message : SettingsFault → String
  | .cacheSize => "缓存大小必须为正"
  | .maxLength => "长度上限必须为正"
  | .glyph => "字形必须是单个字符"

def Settings.check (s : Settings) : Except SettingsFault Unit :=
  if s.limits.cacheSize ≤ 0 then .error .cacheSize
  else if s.limits.maxLength ≤ 0 then .error .maxLength
  else if s.glyphs.entries.all (·.1.length = 1) then .ok ()
  else .error .glyph

end Reckon
