import Reckon.Session
import Reckon.Proofs.Glyphs

namespace Reckon

inductive Spelled : Char → Char → Prop
  | same (c : Char) : Spelled c c
  | mul : Spelled '*' '×'
  | div : Spelled '/' '÷'
  | sub : Spelled '-' '−'

/-- The same text, but for operators that are written as their glyphs. -/
def Respelled (s t : String) : Prop := List.Forall₂ Spelled s.toList t.toList

theorem Spelled.resolveChar (h : Spelled c d) :
    GlyphMap.standard.resolveChar c = GlyphMap.standard.resolveChar d := by
  cases h with
  | same => rfl
  | mul | div | sub => decide

theorem Spelled.isRunChar (h : Spelled c d) : Lexeme.isRunChar c = Lexeme.isRunChar d := by
  cases h with
  | same => rfl
  | mul | div | sub => decide

namespace GlyphMap

theorem operator?_eq_none {s : String} (h : s.toList.length ≠ 1) : standard.operator? s = none := by
  have other {t : String} (single : t.toList.length = 1) : s ≠ t := by
    rintro rfl
    exact h single
  have alone : standard.entries.lookup s = none := by
    rw [List.lookup_eq_none_iff]
    intro entry mem
    have single : entry.1.toList.length = 1 := by
      simp only [standard, List.mem_cons, List.not_mem_nil, or_false] at mem
      rcases mem with rfl | rfl | rfl | rfl <;> decide
    simpa using other single
  rw [operator?, resolve, alone, Option.getD_none, Operator.ofText?, List.find?_eq_none]
  intro o _
  have single : o.text.toList.length = 1 := by simp [Operator.text]
  simpa using (other single).symm

end GlyphMap

namespace Respelled

variable {s t u v : String}

theorem refl (s : String) : Respelled s s := List.forall₂_same.2 fun c _ => .same c

theorem append (h : Respelled s t) (h' : Respelled u v) : Respelled (s ++ u) (t ++ v) := by
  rw [Respelled, String.toList_append, String.toList_append]
  exact List.rel_append h h'

theorem dropLast (h : Respelled s t) :
    Respelled (String.ofList s.toList.dropLast) (String.ofList t.toList.dropLast) := by
  rw [Respelled, String.toList_ofList, String.toList_ofList, List.dropLast_eq_take,
    List.dropLast_eq_take, h.length_eq]
  exact List.forall₂_take _ h

theorem length (h : Respelled s t) : s.length = t.length := by
  rw [← String.length_toList, ← String.length_toList, h.length_eq]

theorem isEmpty (h : Respelled s t) : s.isEmpty = t.isEmpty := by
  rw [Bool.eq_iff_iff, String.isEmpty_iff, String.isEmpty_iff, ← String.toList_eq_nil_iff,
    ← String.toList_eq_nil_iff, ← List.length_eq_zero_iff, h.length_eq, List.length_eq_zero_iff]

theorem normalize (h : Respelled s t) :
    GlyphMap.standard.normalize s = GlyphMap.standard.normalize t := by
  have same : s.toList.map GlyphMap.standard.resolveChar =
      t.toList.map GlyphMap.standard.resolveChar := by
    rw [← List.forall₂_eq_eq_eq, List.forall₂_map_left_iff, List.forall₂_map_right_iff]
    exact h.imp fun _ _ => Spelled.resolveChar
  rw [GlyphMap.normalize, same, GlyphMap.normalize]

theorem operator? (h : Respelled s t) :
    GlyphMap.standard.operator? s = GlyphMap.standard.operator? t := by
  by_cases single : s.toList.length = 1
  · obtain ⟨c, left⟩ := List.length_eq_one_iff.1 single
    obtain ⟨d, right⟩ := List.length_eq_one_iff.1 (h.length_eq ▸ single)
    rw [Respelled, left, right] at h
    have spelled := (List.forall₂_cons.1 h).1.resolveChar
    obtain rfl : String.ofList [c] = s := by rw [← left, String.ofList_toList]
    obtain rfl : String.ofList [d] = t := by rw [← right, String.ofList_toList]
    exact congrArg Operator.ofText? spelled
  · rw [GlyphMap.operator?_eq_none single, GlyphMap.operator?_eq_none (h.length_eq ▸ single)]

theorem eq_iff (h : Respelled s t) (plain : u.toList.all (· ∉ ['*', '/', '-', '×', '÷', '−'])) :
    s = u ↔ t = u := by
  have same {l m : List Char} (h : List.Forall₂ Spelled l m)
      (plain : l.all (· ∉ ['*', '/', '-', '×', '÷', '−']) ∨
        m.all (· ∉ ['*', '/', '-', '×', '÷', '−'])) : l = m := by
    induction h with
    | nil => rfl
    | cons spelled _ ih =>
      simp only [List.all_cons, Bool.and_eq_true] at plain
      rw [ih (plain.imp And.right And.right)]
      cases spelled with
      | same => rfl
      | mul | div | sub => exact absurd (plain.imp And.left And.left) (by decide)
  constructor
  · rintro rfl
    exact (String.toList_inj.1 (same h (.inl plain))).symm
  · rintro rfl
    exact String.toList_inj.1 (same h (.inr plain))

end Respelled

namespace Session

variable {s t : Session} {c d : Command}

inductive Command.Respelled : Command → Command → Prop
  | press (h : Reckon.Respelled v w) : Respelled (.press v) (.press w)
  | pressFunction (name : String) : Respelled (.pressFunction name) (.pressFunction name)
  | delete : Respelled .delete .delete
  | clear : Respelled .clear .clear
  | calculate : Respelled .calculate .calculate
  | key (h : Reckon.Respelled k l) : Respelled (.key k) (.key l)
  | setInput (h : Reckon.Respelled v w) : Respelled (.setInput v) (.setInput w)

/-- Sessions that only the glyphs of their inputs tell apart. -/
structure Mirrors (s t : Session) : Prop where
  left : s.glyphs = GlyphMap.standard
  right : t.glyphs = GlyphMap.standard
  evaluator : s.evaluator = t.evaluator
  input : Respelled s.input t.input
  error : s.error = t.error

namespace Mirrors

theorem expression (h : s.Mirrors t) : s.expression = t.expression := by
  rw [Session.expression, Session.expression, h.left, h.right, h.input.normalize]

theorem lastOperator? (h : s.Mirrors t) : s.lastOperator? = t.lastOperator? := by
  have back := List.rel_reverse h.input
  rw [Session.lastOperator?, Session.lastOperator?, h.left, h.right, List.getLast?_eq_head?_reverse,
    List.getLast?_eq_head?_reverse]
  generalize s.input.toList.reverse = l at *
  generalize t.input.toList.reverse = m at *
  cases back with
  | nil => rfl
  | cons spelled _ => exact congrArg Operator.ofText? spelled.resolveChar

theorem accepts (h : s.Mirrors t) (typed : Respelled v w) : s.accepts v = t.accepts w := by
  rw [Session.accepts, Session.accepts, typed.isEmpty, h.lastOperator?, h.left, h.right,
    typed.operator?]

theorem append (h : s.Mirrors t) (typed : Respelled v w) : (s.append v).Mirrors (t.append w) :=
  ⟨h.left, h.right, h.evaluator, h.input.append typed, rfl⟩

theorem press (h : s.Mirrors t) (typed : Respelled v w) :
    (s.press v).1 = (t.press w).1 ∧ (s.press v).2.Mirrors (t.press w).2 := by
  rw [Session.press, Session.press, h.accepts typed]
  cases t.accepts w with
  | true => exact ⟨rfl, h.append typed⟩
  | false => exact ⟨rfl, h⟩

theorem pressFunction (h : s.Mirrors t) (name : String) :
    (s.pressFunction name).1 = (t.pressFunction name).1 ∧
      (s.pressFunction name).2.Mirrors (t.pressFunction name).2 := by
  rw [Session.pressFunction, Session.pressFunction]
  cases Func.ofText? name with
  | some f => exact ⟨rfl, h.append (.refl _)⟩
  | none => exact ⟨rfl, h⟩

theorem delete (h : s.Mirrors t) : s.delete.Mirrors t.delete :=
  ⟨h.left, h.right, h.evaluator, h.input.dropLast, h.error⟩

theorem setInput (h : s.Mirrors t) (typed : Respelled v w) :
    (s.setInput v).Mirrors (t.setInput w) :=
  ⟨h.left, h.right, h.evaluator, typed, h.error⟩

theorem clear (h : s.Mirrors t) : s.clear.Mirrors t.clear :=
  ⟨h.left, h.right, h.evaluator, .refl "", rfl⟩

theorem calculate (h : s.Mirrors t) :
    s.calculate.1 = t.calculate.1 ∧ s.calculate.2.Mirrors t.calculate.2 := by
  rw [Session.calculate, Session.calculate, h.expression, h.evaluator]
  cases t.evaluator.attempt (.text t.expression : Input Unit) with
  | mk o next =>
    rcases o with f | e | v
    · exact ⟨rfl, h.left, h.right, rfl, h.input, h.error⟩
    · exact ⟨rfl, h.left, h.right, rfl, .refl "", rfl⟩
    · exact ⟨rfl, h.left, h.right, rfl, .refl _, rfl⟩

theorem types (h : s.Mirrors t) (typed : Respelled k l) : s.types k = t.types l := by
  have operator := typed.operator?
  rw [Session.types, Session.types, h.left, h.right, operator]
  rw [Respelled] at typed
  generalize k.toList = m at *
  generalize l.toList = n at *
  rcases typed with _ | ⟨spelled, _ | ⟨_, _⟩⟩
  · rfl
  · exact congrArg (· || _) spelled.isRunChar
  · rfl

theorem stroke (h : s.Mirrors t) (typed : Respelled k l) : s.stroke k = t.stroke l := by
  have enter : k = "Enter" ↔ l = "Enter" := typed.eq_iff (by decide)
  have equals : k = "=" ↔ l = "=" := typed.eq_iff (by decide)
  have backspace : k = "Backspace" ↔ l = "Backspace" := typed.eq_iff (by decide)
  have small : k = "c" ↔ l = "c" := typed.eq_iff (by decide)
  have capital : k = "C" ↔ l = "C" := typed.eq_iff (by decide)
  have escape : k = "Escape" ↔ l = "Escape" := typed.eq_iff (by decide)
  simp only [Session.stroke, enter, equals, backspace, small, capital, escape, h.types typed]

theorem key (h : s.Mirrors t) (typed : Respelled k l) :
    (s.key k).1 = (t.key l).1 ∧ (s.key k).2.Mirrors (t.key l).2 := by
  rw [Session.key, Session.key, h.stroke typed]
  cases t.stroke l with
  | calculate => exact h.calculate.imp_left (congrArg (Except.map fun _ => true))
  | delete => exact ⟨rfl, h.delete⟩
  | clear => exact ⟨rfl, h.clear⟩
  | press => exact ⟨rfl, (h.press typed).2⟩
  | ignored => exact ⟨rfl, h⟩

theorem perform (h : s.Mirrors t) (same : c.Respelled d) :
    (s.perform c).1 = (t.perform d).1 ∧ (s.perform c).2.Mirrors (t.perform d).2 := by
  cases same with
  | press typed =>
    obtain ⟨answer, next⟩ := h.press typed
    exact ⟨by rw [Session.perform, Session.perform, answer], next⟩
  | pressFunction name =>
    obtain ⟨answer, next⟩ := h.pressFunction name
    exact ⟨by rw [Session.perform, Session.perform, answer], next⟩
  | delete => exact ⟨rfl, h.delete⟩
  | clear => exact ⟨rfl, h.clear⟩
  | calculate =>
    obtain ⟨answer, next⟩ := h.calculate
    exact ⟨by rw [Session.perform, Session.perform, answer], next⟩
  | key typed =>
    obtain ⟨answer, next⟩ := h.key typed
    exact ⟨by rw [Session.perform, Session.perform, answer], next⟩
  | setInput typed => exact ⟨rfl, h.setInput typed⟩

end Mirrors

def steps (s : Session) : List Command → List (Except Refusal Answer × Session)
  | [] => []
  | c :: cs => s.perform c :: (s.perform c).2.steps cs

theorem Mirrors.steps (h : s.Mirrors t) {cs ds : List Command}
    (same : List.Forall₂ Command.Respelled cs ds) :
    List.Forall₂ (fun a b => a.1 = b.1 ∧ a.2.Mirrors b.2) (s.steps cs) (t.steps ds) := by
  induction same generalizing s t with
  | nil => exact .nil
  | cons first _ ih =>
    obtain ⟨answer, mirrors⟩ := h.perform first
    exact .cons ⟨answer, mirrors⟩ (ih mirrors)

/-- Two new sessions with the standard glyphs in which the same is done, but for operators that are
written as glyphs, answer the same at every step, hold the same error and the same evaluator, with
its counters, and inputs as long that have the same normal form. -/
theorem steps_respelled (evaluator : Evaluator) (cs ds : List Command)
    (same : List.Forall₂ Command.Respelled cs ds) :
    List.Forall₂ (fun a b => a.1 = b.1 ∧ a.2.error = b.2.error ∧
        a.2.evaluator = b.2.evaluator ∧ a.2.input.length = b.2.input.length ∧
        GlyphMap.standard.normalize a.2.input = GlyphMap.standard.normalize b.2.input)
      (steps { evaluator } cs) (steps { evaluator } ds) := by
  have new : Mirrors { evaluator } { evaluator } := ⟨rfl, rfl, rfl, .refl "", rfl⟩
  refine (new.steps same).imp fun a b ⟨answer, h⟩ => ?_
  exact ⟨answer, h.error, h.evaluator, h.input.length, h.input.normalize⟩

theorem steps_respelled_signs :
    let cs : List Command := [.press "8", .key "*", .press "-", .press "-", .delete, .key "-",
      .press "2", .setInput "6/-2-", .delete, .calculate]
    let ds : List Command := [.press "8", .key "×", .press "−", .press "-", .delete, .key "−",
      .press "2", .setInput "6÷-2−", .delete, .calculate]
    List.Forall₂ Command.Respelled cs ds ∧
      List.Forall₂ (fun a b => a.1 = b.1 ∧ a.2.error = b.2.error ∧
          a.2.evaluator = b.2.evaluator ∧ a.2.input.length = b.2.input.length ∧
          GlyphMap.standard.normalize a.2.input = GlyphMap.standard.normalize b.2.input)
        (steps {} cs) (steps {} ds) := by
  have times : Respelled "*" "×" := .cons .mul .nil
  have minus : Respelled "-" "−" := .cons .sub .nil
  have text : Respelled "6/-2-" "6÷-2−" :=
    .cons (.same '6') (.cons .div (.cons (.same '-') (.cons (.same '2') (.cons .sub .nil))))
  have same : List.Forall₂ Command.Respelled _ _ :=
    .cons (.press (.refl "8")) (.cons (.key times) (.cons (.press minus)
      (.cons (.press (.refl "-")) (.cons .delete (.cons (.key minus) (.cons (.press (.refl "2"))
        (.cons (.setInput text) (.cons .delete (.cons .calculate .nil)))))))))
  exact ⟨same, steps_respelled {} _ _ same⟩

end Session

end Reckon
