import Reckon.Console
import Mathlib.Data.List.Basic
import Mathlib.Data.List.TakeWhile

namespace Reckon

namespace Console

variable {lines : List String} {l : List Char} {x : String}

/-- The entries of lines that are read one after the other. Blank lines give none. -/
def admitted : List String → List String
  | [] => []
  | line :: lines =>
    let x := String.ofList (Text.strip line.toList)
    if x = "quit" ∨ x = "exit" then [] else if x = "" then admitted lines else x :: admitted lines

theorem ne_lineEnd (h : '\n' ∉ l) : ∀ c ∈ l, decide (c ≠ '\n') = true := by
  intro c mem
  simpa using ne_of_mem_of_not_mem mem h

theorem splitLines_of_not_mem (h : '\n' ∉ l) : splitLines l = [l] := by
  have none : l.dropWhile (· ≠ '\n') = [] := List.dropWhile_eq_nil_iff.2 (ne_lineEnd h)
  rw [splitLines]
  split
  · rfl
  · rename_i eq
    rw [none] at eq
    cases eq

theorem splitLines_append (h : '\n' ∉ l) (rest : List Char) :
    splitLines (l ++ '\n' :: rest) = l :: splitLines rest := by
  have back : (l ++ '\n' :: rest).dropWhile (· ≠ '\n') = '\n' :: rest :=
    List.dropWhile_append_of_pos (ne_lineEnd h)
  have front : (l ++ '\n' :: rest).takeWhile (· ≠ '\n') = l :=
    (List.takeWhile_append_of_pos (ne_lineEnd h)).trans (List.append_nil l)
  rw [splitLines]
  split
  · rename_i eq
    rw [back] at eq
    cases eq
  · rename_i eq
    rw [back] at eq
    cases eq
    rw [front]

theorem splitLines_intercalate {lines : List (List Char)} (nonempty : lines ≠ [])
    (h : ∀ l ∈ lines, '\n' ∉ l) : splitLines (['\n'].intercalate lines) = lines := by
  induction lines with
  | nil => contradiction
  | cons l lines ih =>
    rw [List.forall_mem_cons] at h
    cases lines with
    | nil => rw [List.intercalate_singleton, splitLines_of_not_mem h.1]
    | cons m lines =>
      rw [List.intercalate_cons_cons, List.append_assoc, List.singleton_append,
        splitLines_append h.1, ih (by simp) h.2]

theorem entries_eq_admitted (text : String) :
    entries text = admitted ((splitLines text.toList).map String.ofList) := by
  rw [entries]
  induction splitLines text.toList with
  | nil => rfl
  | cons l lines ih =>
    rw [List.map_cons, List.map_cons, admitted, String.toList_ofList, ← ih]
    by_cases last : String.ofList (Text.strip l) = "quit" ∨ String.ofList (Text.strip l) = "exit"
    · rw [if_pos last, List.takeWhile_cons_of_neg (by simpa [← not_or] using last), List.filter_nil]
    · rw [if_neg last, List.takeWhile_cons_of_pos (by simpa [not_or] using last)]
      by_cases blank : String.ofList (Text.strip l) = ""
      · rw [if_pos blank, List.filter_cons_of_neg (by simpa using blank)]
      · rw [if_neg blank, List.filter_cons_of_pos (by simpa using blank)]

theorem entries_intercalate (h : ∀ line ∈ lines, '\n' ∉ line.toList) :
    entries ("\n".intercalate lines) = admitted lines := by
  rw [entries_eq_admitted, String.toList_intercalate, show "\n".toList = ['\n'] from rfl]
  cases lines with
  | nil =>
    rw [List.map_nil, List.intercalate_nil, splitLines_of_not_mem List.not_mem_nil]
    decide
  | cons line lines =>
    have lists : ∀ l ∈ (line :: lines).map String.toList, '\n' ∉ l := by simpa using h
    rw [splitLines_intercalate (by simp) lists]
    simp

structure IsEntry (x : String) : Prop where
  nonempty : x ≠ ""
  line : '\n' ∉ x.toList
  first : ∀ c ∈ x.toList.head?, Text.isBlank c = false
  last : ∀ c ∈ x.toList.getLast?, Text.isBlank c = false
  goesOn : x ≠ "quit" ∧ x ≠ "exit"

theorem IsEntry.strip (h : IsEntry x) : String.ofList (Text.strip x.toList) = x := by
  have stays {l : List Char} (first : ∀ c ∈ l.head?, Text.isBlank c = false) :
      l.dropWhile Text.isBlank = l := by
    cases l with
    | nil => rfl
    | cons c l => exact List.dropWhile_cons_of_neg (by simp [first c rfl])
  have front := stays h.first
  have back : x.toList.reverse.dropWhile Text.isBlank = x.toList.reverse :=
    stays (by rw [List.head?_reverse]; exact h.last)
  rw [Text.strip, front, back, List.reverse_reverse, String.ofList_toList]

theorem admitted_of_isEntry {xs : List String} (h : ∀ x ∈ xs, IsEntry x) : admitted xs = xs := by
  induction xs with
  | nil => rfl
  | cons x xs ih =>
    rw [List.forall_mem_cons] at h
    simp [admitted, h.1.strip, h.1.goesOn, h.1.nonempty, ih h.2]

end Console

end Reckon
