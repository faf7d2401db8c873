namespace Reckon

abbrev Recent := List (String × Float)

namespace Recent

def keys (r : Recent) : List String := r.map (·.1)

def get? (r : Recent) (key : String) : Option Float := r.lookup key

def touch (r : Recent) (key : String) : Recent :=
  r.filter (·.1 ≠ key) ++ r.filter (·.1 = key)

def push (r : Recent) (key : String) (v : Float) : Recent := r ++ [(key, v)]

/-- The `size` most recent entries. A negative size cannot be reached by dropping entries. -/
def trim (size : Int) (r : Recent) : Option Recent :=
  if size < 0 then none else some (r.drop (r.length - size.toNat))

@[simp] theorem keys_push (r : Recent) (key : String) (v : Float) :
    (r.push key v).keys = r.keys ++ [key] := by
  simp [keys, push]

theorem keys_touch (r : Recent) (key : String) :
    (r.touch key).keys = r.keys.filter (· ≠ key) ++ r.keys.filter (· = key) := by
  simp [keys, touch, List.filter_map, Function.comp_def]

theorem keys_trim {r kept : Recent} {size : Int} (h : r.trim size = some kept) :
    kept.keys = r.keys.drop (r.length - size.toNat) := by
  grind [trim, keys, List.map_drop]

end Recent

end Reckon
