namespace Reckon.Csv

def isSpecial (c : Char) : Bool := c = ',' || c = '"' || c = '\n'

def double : List Char → List Char
  | [] => []
  | c :: s => if c = '"' then '"' :: '"' :: double s else c :: double s

def writeField (s : List Char) : List Char :=
  if s.any isSpecial then '"' :: double s ++ ['"'] else s

def writeFields : List (List Char) → List Char
  | [] => []
  | [f] => writeField f
  | f :: fs => writeField f ++ ',' :: writeFields fs

def write (records : List (List (List Char))) : List Char :=
  records.flatMap fun r => writeFields r ++ ['\n']

end Reckon.Csv
