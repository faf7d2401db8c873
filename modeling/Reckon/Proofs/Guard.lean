import Reckon.Proofs.Repetition

namespace Reckon

namespace Operator

theorem text_eq_of_ofText? (h : ofText? s = some o) : o.text = s := by
  simpa using List.find?_some h

theorem ofText?_singleton (c : Char) : ofText? (String.ofList [c]) = ofChar? c := by
  have same (o : Operator) : decide (o.text = String.ofList [c]) = decide (o.symbol = c) := by
    simp [text, ← String.toList_inj]
  simp only [ofText?, ofChar?, same]

end Operator

namespace GlyphMap

variable {g : GlyphMap} {a b c : Char} {s t : List Char}

def charOperator? (g : GlyphMap) (c : Char) : Option Operator := g.operator? (String.ofList [c])

/-- Behind an operator that a sign may follow there may be a sign, and no operator else. -/
def MayFollow (g : GlyphMap) (c d : Char) : Prop :=
  ∀ p ∈ g.charOperator? c, ∀ o ∈ g.charOperator? d, o = .sub ∧ Session.signMayFollow p

def Guarded (g : GlyphMap) (s : List Char) : Prop := s.IsChain g.MayFollow

def NonAscii (g : GlyphMap) : Prop :=
  ∀ e ∈ g.entries, ∃ c : Char, e.1 = String.ofList [c] ∧ 128 ≤ c.toNat

theorem nonAscii_standard : standard.NonAscii := by
  simp only [NonAscii, standard, List.forall_mem_cons]
  exact ⟨⟨'×', by decide⟩, ⟨'÷', by decide⟩, ⟨'−', by decide⟩, ⟨'π', by decide⟩, by simp⟩

theorem NonAscii.charOperator?_eq (h : g.NonAscii) (ascii : c.toNat < 128) :
    g.charOperator? c = Operator.ofChar? c := by
  have missing : g.entries.lookup (String.ofList [c]) = none := by
    refine List.lookup_eq_none_iff.2 fun e mem => ?_
    obtain ⟨d, eq, other⟩ := h e mem
    have ne : c ≠ d := by
      rintro rfl
      omega
    simpa [eq, ← String.toList_inj] using ne
  rw [charOperator?, operator?, resolve, missing, Option.getD_none, Operator.ofText?_singleton]

theorem NonAscii.charOperator?_run (h : g.NonAscii) (run : Lexeme.isRunChar c) :
    g.charOperator? c = none := by
  have word : c.isAlphanum ∨ c = '.' := by
    simp only [Lexeme.isRunChar, Bool.or_eq_true, decide_eq_true_eq] at run
    exact run.imp_left fun digit => by simp [Char.isAlphanum, digit]
  have bound := (Lexeme.toNat_word word).2
  rw [h.charOperator?_eq (by omega)]
  exact (Lexeme.not_special word).2.2.2.2.2

theorem NonAscii.charOperator?_call (h : g.NonAscii) (f : Func) :
    ∀ c ∈ (f.text ++ "(").toList, g.charOperator? c = none := by
  have names : (f.text ++ "(").toList.all fun c => c.toNat < 128 ∧ Operator.ofChar? c = none := by
    cases f <;> decide
  intro c mem
  obtain ⟨ascii, other⟩ := of_decide_eq_true (List.all_eq_true.1 names c mem)
  rw [h.charOperator?_eq ascii, other]

namespace Guarded

theorem nil : g.Guarded [] := List.IsChain.nil

theorem dropLast (h : g.Guarded s) : g.Guarded s.dropLast := List.IsChain.dropLast h

theorem concat_iff :
    g.Guarded (s ++ [c]) ↔ g.Guarded s ∧ ∀ b ∈ s.getLast?, g.MayFollow b c := by
  simp [Guarded, List.isChain_append]

theorem append (h : g.Guarded s) (plain : ∀ c ∈ t, g.charOperator? c = none) :
    g.Guarded (s ++ t) := by
  have follows (b c : Char) (mem : c ∈ t) : g.MayFollow b c := by
    intro p _ o operator
    rw [plain c mem] at operator
    cases operator
  refine List.IsChain.append h (List.Pairwise.isChain ?_) fun b _ c mem => ?_
  · exact List.pairwise_of_forall_mem_list fun b _ c mem => follows b c mem
  · exact follows b c (List.mem_of_mem_head? mem)

theorem literal (plain : ∀ c ∈ t, g.charOperator? c = none) (negative : Bool) :
    g.Guarded (Lexeme.literal negative t).text := by
  cases negative with
  | false => exact nil.append plain
  | true => exact append (.singleton '-') plain

theorem display (foreign : g.NonAscii) {v : Float} (finite : v.isFinite) :
    g.Guarded (Reckon.display v).toList := by
  obtain ⟨run, is, text, -⟩ := display_literal (shown_isFinite finite) (shown_ne v)
  rw [← display_shown, text]
  exact literal (fun c mem => foreign.charOperator?_run (is.chars c mem)) _

theorem not_three (h : g.Guarded s) (row : [a, b, c] <:+: s) :
    g.charOperator? a = none ∨ g.charOperator? b = none ∨ g.charOperator? c = none := by
  simp only [Option.eq_none_iff_forall_ne_some]
  by_contra operators
  push Not at operators
  obtain ⟨⟨p, first⟩, ⟨q, second⟩, ⟨o, third⟩⟩ := operators
  have chain := List.IsChain.infix h row
  have pairs := List.isChain_cons_cons.1 chain
  obtain ⟨rfl, -⟩ := pairs.1 p first q second
  cases ((List.isChain_cons_cons.1 pairs.2).1 .sub second o third).2

end Guarded

end GlyphMap

theorem eq_empty_or_char {s : String} (h : s.length ≤ 1) : s = "" ∨ ∃ c, s = String.ofList [c] := by
  rw [← String.length_toList] at h
  match chars : s.toList with
  | [] => exact .inl (String.toList_eq_nil_iff.1 chars)
  | [c] => exact .inr ⟨c, by rw [← chars, String.ofList_toList]⟩
  | c :: d :: cs => simp [chars] at h

namespace Session

variable {limits : Limits} {g : GlyphMap} {s : Session}

def Command.single : Command → Bool
  | .press value => value.length ≤ 1
  | .setInput _ => false
  | .pressFunction _ | .delete | .clear | .calculate | .key _ => true

structure Guards (limits : Limits) (g : GlyphMap) (s : Session) : Prop where
  glyphs : s.glyphs = g
  evaluator : s.evaluator.Sound limits
  input : g.Guarded s.input.toList

theorem press_fst (s : Session) (value : String) : (s.press value).1 = s.accepts value := by
  rw [press]
  split
  · rename_i accepted
    exact accepted.symm
  · rename_i refused
    exact (Bool.eq_false_iff.2 refused).symm

theorem accepts_char {c : Char} :
    s.accepts (String.ofList [c]) ↔ ∀ b ∈ s.input.toList.getLast?, s.glyphs.MayFollow b c := by
  have filled : (String.ofList [c]).isEmpty = false := by simp
  have pressed : s.glyphs.operator? (String.ofList [c]) = s.glyphs.charOperator? c := rfl
  have last : s.lastOperator? = s.input.toList.getLast?.bind s.glyphs.charOperator? := rfl
  rw [accepts, filled, pressed, last]
  cases s.input.toList.getLast? with
  | none => cases s.glyphs.charOperator? c <;> simp
  | some b =>
    rw [Option.bind_some]
    cases typed : s.glyphs.charOperator? c <;> cases before : s.glyphs.charOperator? b <;>
      simp [GlyphMap.MayFollow, typed, before]

theorem types_of_stroke {k : String} (h : s.stroke k = .press) : s.types k := by
  rw [stroke] at h
  iterate 3 split at h; · cases h
  split at h
  · assumption
  · cases h

theorem char_of_types {k : String} (h : s.types k) : ∃ c, k = String.ofList [c] := by
  rw [types] at h
  split at h
  · rename_i c eq
    exact ⟨c, by rw [← eq, String.ofList_toList]⟩
  · cases h

theorem calculate_input (h : s.evaluator.Sound limits) :
    s.calculate.2.input = s.input ∨ s.calculate.2.input = "" ∨
      ∃ v : Float, v.isFinite ∧ s.calculate.2.input = Reckon.display v := by
  cases attempted : s.evaluator.attempt (.text s.expression : Input Unit) with
  | mk o next =>
    rcases o with f | e | v
    · exact .inl (by rw [calculate, attempted])
    · exact .inr (.inl (by rw [calculate, attempted]))
    · have value : s.calculate.1 = .ok (some v) := by rw [calculate, attempted]
      obtain ⟨-, total, shown⟩ := calculate_eq_value h value
      exact .inr (.inr ⟨v, isFinite_of_evaluate total, shown⟩)

namespace Guards

theorem press_char (h : s.Guards limits g) (c : Char) :
    g.Guarded (s.press (String.ofList [c])).2.input.toList := by
  rw [press]
  split
  · rename_i accepted
    rw [append, String.toList_append, String.toList_ofList]
    exact GlyphMap.Guarded.concat_iff.2 ⟨h.input, h.glyphs ▸ accepts_char.1 accepted⟩
  · exact h.input

theorem press_single (h : s.Guards limits g) {value : String} (single : value.length ≤ 1) :
    g.Guarded (s.press value).2.input.toList := by
  rcases eq_empty_or_char single with rfl | ⟨c, rfl⟩
  · exact h.input
  · exact h.press_char c

theorem pressFunction (h : s.Guards limits g) (foreign : g.NonAscii) (name : String) :
    g.Guarded (s.pressFunction name).2.input.toList := by
  rw [Session.pressFunction]
  split
  · rename_i f named
    rw [append, String.toList_append]
    exact h.input.append (foreign.charOperator?_call f)
  · exact h.input

theorem calculate (h : s.Guards limits g) (foreign : g.NonAscii) :
    g.Guarded s.calculate.2.input.toList := by
  rcases calculate_input h.evaluator with same | empty | ⟨v, finite, result⟩
  · exact same ▸ h.input
  · exact empty ▸ .nil
  · exact result ▸ .display foreign finite

theorem delete (h : s.Guards limits g) : g.Guarded s.delete.input.toList := by
  rw [Session.delete, String.toList_ofList]
  exact h.input.dropLast

theorem key (h : s.Guards limits g) (foreign : g.NonAscii) (k : String) :
    g.Guarded (s.key k).2.input.toList := by
  rw [Session.key]
  cases stroke : s.stroke k with
  | calculate => exact h.calculate foreign
  | delete => exact h.delete
  | clear => exact .nil
  | press =>
    obtain ⟨c, rfl⟩ := char_of_types (types_of_stroke stroke)
    exact h.press_char c
  | ignored => exact h.input

theorem perform (h : s.Guards limits g) (foreign : g.NonAscii) {c : Command} (single : c.single) :
    (s.perform c).2.Guards limits g := by
  have input : g.Guarded (s.perform c).2.input.toList := by
    cases c with
    | press value => exact h.press_single (of_decide_eq_true single)
    | pressFunction name => exact h.pressFunction foreign name
    | delete => exact h.delete
    | clear => exact .nil
    | calculate => exact h.calculate foreign
    | key k => exact h.key foreign k
    | setInput value => cases single
  rcases s.perform_keeps c with same | ⟨text, error, same⟩
  · rw [same] at input ⊢
    exact ⟨s.calculate_glyphs.trans h.glyphs, calculate_sound h.evaluator, input⟩
  · rw [same] at input ⊢
    exact ⟨h.glyphs, h.evaluator, input⟩

theorem run (h : s.Guards limits g) (foreign : g.NonAscii) {cs : List Command}
    (single : ∀ c ∈ cs, c.single) : (s.run cs).Guards limits g := by
  induction cs generalizing s with
  | nil => exact h
  | cons c cs ih =>
    rw [List.forall_mem_cons] at single
    exact ih (h.perform foreign single.1) single.2

theorem new (limits : Limits) (past : List (Evaluator.Command β α)) (g : GlyphMap) :
    Guards limits g { evaluator := Evaluator.run { limits } past, glyphs := g } :=
  ⟨rfl, (Evaluator.Sound.new limits).run past, .nil⟩

/-- The guard refuses what would leave an input that is not guarded, and nothing else. -/
theorem press_refused_iff (h : s.Guards limits g) {value : String} (single : value.length ≤ 1) :
    (s.press value).1 = false ↔ value = "" ∨ ¬g.Guarded (s.append value).input.toList := by
  rcases eq_empty_or_char single with rfl | ⟨c, rfl⟩
  · simp [press, accepts]
  · have filled : String.ofList [c] ≠ "" := by simp [← String.toList_inj]
    have extends_iff : g.Guarded (s.append (String.ofList [c])).input.toList ↔
        s.accepts (String.ofList [c]) := by
      rw [append, String.toList_append, String.toList_ofList, GlyphMap.Guarded.concat_iff,
        and_iff_right h.input, accepts_char, h.glyphs]
    rw [or_iff_right filled, extends_iff, press_fst, Bool.not_eq_true]

end Guards

/-- In every input of a session, typed one character at a time with glyphs that are not ASCII, an
operator stands directly behind another one only as a sign behind one of `* / % ^`, and three never
stand in a row. A press is refused when it would break this, when it is empty, and in no other
case. -/
theorem run_guarded (limits : Limits) (past : List (Evaluator.Command β α)) (g : GlyphMap)
    (cs : List Command) (s : Session) (foreign : g.NonAscii) (single : ∀ c ∈ cs, c.single)
    (made : s = run { evaluator := Evaluator.run { limits } past, glyphs := g } cs) :
    g.Guarded s.input.toList ∧
    (∀ a b c, [a, b, c] <:+: s.input.toList →
      g.charOperator? a = none ∨ g.charOperator? b = none ∨ g.charOperator? c = none) ∧
    ∀ value, value.length ≤ 1 →
      ((s.press value).1 = false ↔ value = "" ∨ ¬g.Guarded (s.append value).input.toList) := by
  have guards : s.Guards limits g := made ▸ (Guards.new limits past g).run foreign single
  exact ⟨guards.input, fun a b c => guards.input.not_three,
    fun value => guards.press_refused_iff⟩

def signed : Session := run {} [.press "1", .key "-", .press "2", .calculate, .press "÷"]

theorem signed_spec : signed.glyphs = GlyphMap.standard ∧ signed.input = "-1÷" := by
  have typed : run {} [.press "1", .key "-", .press "2"] = differing := by decide
  have signed : signed = (differing.calculate.2.press "÷").2 := by rw [← typed]; rfl
  have glyphs := sound_differing.calculate.glyphs
  have input := (sound_differing.of_calculate calculate_differing).2.2
  rw [show Reckon.display (-1) = "-1" by decide +kernel] at input
  have one : GlyphMap.standard.operator? "1" = none := by decide
  simp [signed, press, accepts, lastOperator?, append, glyphs, input, one]

theorem run_guarded_signed :
    GlyphMap.standard.NonAscii ∧ signed.input = "-1÷" ∧
      GlyphMap.standard.Guarded "-1÷−".toList ∧ ¬GlyphMap.standard.Guarded "-1÷×".toList := by
  obtain ⟨glyphs, input⟩ := signed_spec
  have pressed (value : String) :
      (signed.press value).1 = Session.accepts { input := "-1÷" } value := by
    rw [press_fst, accepts, lastOperator?, glyphs, input]
    rfl
  obtain ⟨-, -, refused⟩ := @run_guarded Nat Unit {} [] GlyphMap.standard _ signed
    GlyphMap.nonAscii_standard (by decide) rfl
  have minus := (refused "−" (by decide)).not.1 (by rw [pressed]; decide)
  have times := (refused "×" (by decide)).1 (by rw [pressed]; decide)
  rw [append, input] at minus times
  rw [not_or, not_not] at minus
  exact ⟨GlyphMap.nonAscii_standard, input, minus.2, times.resolve_left (by decide)⟩

end Session

end Reckon
