import Reckon.Csv.Reader

/-!
The columns of a table by name. A column without a name is called by its place, and a repeated name
gets a number, so that every name is the name of one column. When rows are wider than the header,
the fields before the named columns are the label of the row.
-/

namespace Reckon.Csv

structure Naming where
  names : List String
  counts : List (String × Nat)

namespace Naming

def count (n : Naming) (name : String) : Nat := (n.counts.lookup name).getD 0

def numbered (name : String) (k : Nat) : String := name ++ "." ++ toString k

/-- The least number from `k` on that makes a name not in use. One of as many numbers as there are
names, and one more, does. -/
def free (names : List String) (name : String) (k : Nat) : Nat :=
  ((List.range (names.length + 1)).map (k + ·)).find? (fun j => !names.contains (numbered name j))
    |>.getD k

def give (n : Naming) (i : Nat) : Naming :=
  let name := n.names.getD i ""
  let taken := n.count name
  if taken = 0 then { n with counts := (name, 1) :: n.counts }
  else
    let k := free n.names name taken
    let new := numbered name k
    ⟨n.names.set i new, (new, n.count new + 1) :: (name, k + 1) :: n.counts⟩

end Naming

def columnNames (header : List (List Char)) : List String :=
  let places := List.range header.length
  let (unnamed, named) := places.partition fun i => header.getD i [] = []
  let names := places.map fun i =>
    if header.getD i [] = [] then "Unnamed: " ++ toString i else String.ofList (header.getD i [])
  ((named ++ unnamed).foldl Naming.give ⟨names, []⟩).names

inductive RowLabel
  | place : Nat → RowLabel
  | fields : List String → RowLabel
  deriving DecidableEq, Repr

def Sheet.leading (sheet : Sheet) (row : List (List Char)) : Nat :=
  row.length - sheet.header.length

def Sheet.label (sheet : Sheet) (place : Nat) (row : List (List Char)) : RowLabel :=
  if sheet.leading row = 0 then .place place
  else .fields ((row.take (sheet.leading row)).map String.ofList)

def Sheet.column? (sheet : Sheet) (name : String) : Option (List (RowLabel × String)) :=
  ((columnNames sheet.header).idxOf? name).map fun i =>
    sheet.rows.zipIdx.map fun (row, place) =>
      (sheet.label place row, String.ofList (row.getD (sheet.leading row + i) []))

end Reckon.Csv
