import EventBus.Interface.Templates

/-!
# What a subject template means

A template means its text with each placeholder replaced by the field it names.  The macro
writes the text into a format string as it is, where a closing brace means something else;
without placeholders there is no format string.

`meaning_iff` says for which of the accepted templates the subject is what the template means.
-/

set_option autoImplicit false

namespace EventBus.Analysis

open EventBus.Lib.FormatString EventBus.Model EventBus.Interface

variable {parseIdent : String → Option String} {fieldIdents : List String}

/-- What a template means, where the fields print as `display` says. -/
def meaning (display : String → String) (ps : List (Piece String)) : String :=
  String.ofList (fill (fun field => (display field).toList) ps)

/-- INTERNAL: a template without placeholders is its text.
SRC: event.rs:218-220 -/
theorem eval_of_no_holes {ps : List (Piece String)} (h : holes ps = [])
    (display : String → String) :
    (expressionOf ps).eval display = some (meaning display ps) := by
  unfold expressionOf meaning
  rw [if_pos h, fill_eq_emit _ h]
  rfl

/-- INTERNAL: with placeholders, it is collapsed and filled.
SRC: event.rs:222 -/
theorem eval_of_holes {ps : List (Piece String)} (hopen : Piece.char '{' ∉ ps) (h : holes ps ≠ [])
    (display : String → String) :
    (expressionOf ps).eval display =
      ((collapse ps).map (fill fun field => (display field).toList)).map String.ofList := by
  unfold expressionOf
  rw [if_neg h, SubjectExpression.eval, String.toList_ofList, format_emit _ hopen]

/-- INTERNAL: a template means what it says unless a closing brace is lost. -/
theorem eval_expressionOf_iff {ps : List (Piece String)} (hopen : Piece.char '{' ∉ ps)
    (display : String → String) :
    (expressionOf ps).eval display = some (meaning display ps) ↔
      holes ps = [] ∨ Piece.char '}' ∉ ps := by
  by_cases h : holes ps = []
  · simp only [eval_of_no_holes h, h, true_or]
  · rw [eval_of_holes hopen h, ← format_emit _ hopen, or_iff_right h,
      ← format_emit_eq_iff (fun field => (display field).toList) hopen]
    constructor
    · intro heval
      obtain ⟨s, hs, hmeaning⟩ := Option.map_eq_some_iff.mp heval
      rw [hs, String.ofList_injective hmeaning]
    · intro hformat
      rw [hformat]
      rfl

/-- **The subject is what its template means exactly if the template has no placeholder, or no
closing brace outside its placeholders.**  Every opening brace of a template that is accepted
opens a placeholder. -/
theorem meaning_iff {template : String} {expression : SubjectExpression}
    (h : buildSubjectExpression parseIdent fieldIdents template = .ok expression) :
    ∃ ps, Reads parseIdent fieldIdents template.toList ps ∧ ∀ display,
      (expression.eval display = some (meaning display ps) ↔
        holes ps = [] ∨ Piece.char '}' ∉ ps) := by
  obtain ⟨ps, hreads, rfl⟩ := buildSubjectExpression_eq_ok_iff.mp h
  exact ⟨ps, hreads, eval_expressionOf_iff hreads.char_notMem⟩

/-! ## Templates with one placeholder -/

/-- INTERNAL: the result on the subject of an order that is shipped. -/
theorem meaning_shipped :
    buildSubjectExpression plainIdent ["id", "order_id"] "orders.\x7bself.order_id\x7d.shipped" =
        .ok (.format "orders.\x7b\x7d.shipped" ["order_id"]) ∧
      ∃ ps, Reads plainIdent ["id", "order_id"]
          "orders.\x7bself.order_id\x7d.shipped".toList ps ∧ ∀ display,
        ((SubjectExpression.format "orders.\x7b\x7d.shipped" ["order_id"]).eval display =
            some (meaning display ps) ↔ holes ps = [] ∨ Piece.char '\x7d' ∉ ps) := by
  have hbuild : buildSubjectExpression plainIdent ["id", "order_id"]
      "orders.\x7bself.order_id\x7d.shipped" =
        .ok (.format "orders.\x7b\x7d.shipped" ["order_id"]) := by
    decide +kernel
  exact ⟨hbuild, meaning_iff hbuild⟩

/-- A closing brace before a placeholder makes the subject fail to compile, and two of them are
taken for one; without the placeholder they stay. -/
theorem closing_brace_lost :
    (buildSubjectExpression plainIdent ["id"] "a\x7d.\x7bself.id\x7d" =
        .ok (.format "a\x7d.\x7b\x7d" ["id"]) ∧
      ∀ display, (SubjectExpression.format "a\x7d.\x7b\x7d" ["id"]).eval display = none) ∧
    (buildSubjectExpression plainIdent ["id"] "a\x7d\x7d.\x7bself.id\x7d" =
        .ok (.format "a\x7d\x7d.\x7b\x7d" ["id"]) ∧
      (SubjectExpression.format "a\x7d\x7d.\x7b\x7d" ["id"]).eval (fun _ => "7") =
        some "a\x7d.7") ∧
    buildSubjectExpression plainIdent ["id"] "a\x7d\x7d" = .ok (.toOwned "a\x7d\x7d") := by
  refine ⟨⟨?_, ?_⟩, ⟨?_, ?_⟩, ?_⟩
  · decide +kernel
  · intro display
    rfl
  · decide +kernel
  · decide
  · decide +kernel

end EventBus.Analysis
