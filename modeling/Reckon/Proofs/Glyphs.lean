import Reckon.Glyph
import Reckon.Proofs.Number.Literal

namespace Reckon.GlyphMap

theorem normalize_append (g : GlyphMap) (a b : String) :
    g.normalize (a ++ b) = g.normalize a ++ g.normalize b := by
  rw [normalize, String.toList_append, List.map_append, String.join_append, normalize, normalize]

theorem normalize_eq_self {g : GlyphMap} {s : String}
    (h : ∀ c ∈ s.toList, g.resolveChar c = String.ofList [c]) : g.normalize s = s := by
  rw [normalize, List.map_congr_left h, ← String.toList_inj, String.toList_join]
  induction s.toList with
  | nil => rfl
  | cons c cs ih => simp_all

theorem resolveChar_standard {c : Char} (h : c ∉ ['×', '÷', '−', 'π']) :
    standard.resolveChar c = String.ofList [c] := by
  have other {d : Char} (ne : ¬c = d) : (String.ofList [c] == String.ofList [d]) = false := by
    simpa [← String.toList_inj] using ne
  simp only [List.mem_cons, List.not_mem_nil, or_false, not_or] at h
  obtain ⟨times, divide, minus, pi⟩ := h
  change (List.lookup (String.ofList [c]) [(String.ofList ['×'], "*"), (String.ofList ['÷'], "/"),
    (String.ofList ['−'], "-"), (String.ofList ['π'], "PI")]).getD _ = _
  simp only [List.lookup, other times, other divide, other minus, other pi, Option.getD_none]

theorem normalize_display {v : Float} (finite : v.isFinite) (nonzero : v ≠ -0.0) :
    standard.normalize (display v) = display v := by
  apply normalize_eq_self
  intro c mem
  apply resolveChar_standard
  have written := display_chars finite nonzero c mem
  intro glyph
  revert written
  simp only [List.mem_cons, List.not_mem_nil, or_false] at glyph
  rcases glyph with rfl | rfl | rfl | rfl <;> decide

theorem toList_normalize (g : GlyphMap) (s : String) :
    (g.normalize s).toList = s.toList.flatMap fun c => (g.resolveChar c).toList := by
  rw [normalize, String.toList_join, List.flatMap_map]

theorem mem_resolveChar_standard {c d : Char} (h : d ∈ (standard.resolveChar c).toList) :
    d = c ∧ c ∉ ['×', '÷', '−', 'π'] ∨ d ∈ ['*', '/', '-', 'P', 'I'] := by
  have times : standard.resolveChar '×' = "*" := by decide
  have divide : standard.resolveChar '÷' = "/" := by decide
  have minus : standard.resolveChar '−' = "-" := by decide
  have pi : standard.resolveChar 'π' = "PI" := by decide
  by_cases glyph : c ∈ ['×', '÷', '−', 'π']
  · refine .inr ?_
    simp only [List.mem_cons, List.not_mem_nil, or_false] at glyph
    rcases glyph with rfl | rfl | rfl | rfl <;> revert h <;>
      simp +contextual [times, divide, minus, pi]
  · rw [resolveChar_standard glyph, String.toList_ofList, List.mem_singleton] at h
    exact .inl ⟨h, glyph⟩

theorem mem_normalize_standard {s : String} {d : Char} (h : d ∈ (standard.normalize s).toList) :
    d ∉ ['×', '÷', '−', 'π'] ∧ (d ∈ s.toList ∨ d ∈ ['*', '/', '-', 'P', 'I']) := by
  rw [toList_normalize, List.mem_flatMap] at h
  obtain ⟨c, mem, resolved⟩ := h
  rcases mem_resolveChar_standard resolved with ⟨rfl, other⟩ | known
  · exact ⟨other, .inl mem⟩
  · refine ⟨?_, .inr known⟩
    simp only [List.mem_cons, List.not_mem_nil, or_false] at known
    rcases known with rfl | rfl | rfl | rfl | rfl <;> simp

theorem normalize_normalize (s : String) :
    standard.normalize (standard.normalize s) = standard.normalize s :=
  normalize_eq_self fun _ mem => resolveChar_standard (mem_normalize_standard mem).1

theorem count_normalize_standard {d : Char}
    (other : d ∉ ['×', '÷', '−', 'π', '*', '/', '-', 'P', 'I']) (s : String) :
    (standard.normalize s).toList.count d = s.toList.count d := by
  rw [toList_normalize]
  induction s.toList with
  | nil => rfl
  | cons c cs ih =>
    rw [List.flatMap_cons, List.count_append, ih, List.count_cons, Nat.add_comm]
    congr 1
    by_cases glyph : c ∈ ['×', '÷', '−', 'π']
    · have away : d ∉ (standard.resolveChar c).toList := fun mem => by
        rcases mem_resolveChar_standard mem with ⟨-, no⟩ | known
        · exact no glyph
        · simp_all
      have ne : c ≠ d := by
        rintro rfl
        simp_all
      simp [List.count_eq_zero_of_not_mem away, ne]
    · rw [resolveChar_standard glyph, String.toList_ofList, List.count_singleton]

end Reckon.GlyphMap
