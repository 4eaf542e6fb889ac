import Mathlib.Data.List.Forall2
import EventBus.Interface.Templates
import EventBus.Lib.Topic

/-!
# The shape of a derived subject

A template says which tokens a subject has and which of them are fixed, and subscribers filter
by that.  The macro looks at neither the text of a template nor the values, so a subject has
the shape of its template only if both happen to fit: `keepsShape_iff`.
-/

set_option autoImplicit false

namespace EventBus.Analysis

open EventBus.Lib EventBus.Lib.FormatString EventBus.Model EventBus.Interface

variable {parseIdent : String → Option String} {fieldIdents : List String}
  {display : String → String} {ps ps' : List (Piece String)}

/-- The tokens of a template; the dots in its placeholders do not count. -/
def templateTokens (ps : List (Piece String)) : List (List (Piece String)) :=
  ps.splitOn (.char '.')

/-- A token of a template as one of a filter: a wildcard if there is a placeholder in it. -/
def shapeToken (token : List (Piece String)) : List Char :=
  if holes token = [] then emit token else ['*']

/-- The template as a filter, with one `*` for each token that has a placeholder. -/
def shapeFilter (ps : List (Piece String)) : String :=
  String.ofList (['.'].intercalate ((templateTokens ps).map shapeToken))

/-- A blank or a wildcard. -/
def isSpecial (c : Char) : Bool := Topic.isBlank c || c == '*' || c == '>'

/-- The subject is one that can be published to, with the tokens of its template, and every
filter that the template matches lets it pass. -/
structure KeepsShape (ps : List (Piece String)) (subject : String) : Prop where
  nonempty : ∀ token ∈ Topic.tokens subject, token ≠ []
  plain : ∀ c ∈ subject.toList, isSpecial c = false
  count : (Topic.tokens subject).length = (templateTokens ps).length
  routed : ∀ filter, Topic.covers filter (shapeFilter ps) = true →
    Topic.passes filter subject = true

/-- The values have no dots, blanks and wildcards, the text of the template has no blanks and
wildcards, no token is left empty, and where there are placeholders there is no closing brace
in a token without one. -/
structure FitsShape (display : String → String) (ps : List (Piece String)) : Prop where
  values : ∀ field ∈ holes ps, ∀ c ∈ (display field).toList, c ≠ '.' ∧ isSpecial c = false
  text : ∀ c, Piece.char c ∈ ps → isSpecial c = false
  filled : ∀ token ∈ templateTokens ps,
    (∃ c, Piece.char c ∈ token) ∨ ∃ field ∈ holes token, display field ≠ ""
  braces : holes ps ≠ [] → ∀ token ∈ templateTokens ps, holes token = [] →
    Piece.char '}' ∉ token

/-! ## What is read of a template -/

/-- Part of a template and what the subject has of it: the part itself if the template has no
placeholders, else the part as it is read in a format string. -/
def ReadAs (ps t t' : List (Piece String)) : Prop :=
  (holes ps = [] ∧ t' = t) ∨ (holes ps ≠ [] ∧ collapse t = some t')

/-- The characters that a field prints. -/
def printed (display : String → String) (field : String) : List Char := (display field).toList

/-- INTERNAL: a subject is the template filled, as it is read. -/
theorem readAs_of_eval {subject : String} (hopen : Piece.char '{' ∉ ps)
    (h : (expressionOf ps).eval display = some subject) :
    ∃ ps', ReadAs ps ps ps' ∧ subject.toList = fill (printed display) ps' := by
  unfold expressionOf at h
  split at h
  · rename_i hnone
    obtain rfl := Option.some.inj h
    refine ⟨ps, .inl ⟨hnone, rfl⟩, ?_⟩
    rw [String.toList_ofList, fill_eq_emit _ hnone]
  · rename_i hsome
    rw [SubjectExpression.eval, String.toList_ofList, format_emit _ hopen] at h
    obtain ⟨s, hs, rfl⟩ := Option.map_eq_some_iff.mp h
    obtain ⟨ps', hps', rfl⟩ := Option.map_eq_some_iff.mp hs
    refine ⟨ps', .inr ⟨hsome, hps'⟩, ?_⟩
    rw [String.toList_ofList]
    rfl

namespace ReadAs

variable {t t' : List (Piece String)}

/-- INTERNAL: what is read has the same characters. -/
theorem mem_fill (h : ReadAs ps t t') {c : Char} :
    c ∈ fill (printed display) t' ↔ c ∈ fill (printed display) t := by
  rcases h with ⟨-, rfl⟩ | ⟨-, hcollapse⟩
  · rfl
  · exact mem_fill_collapse hcollapse

/-- INTERNAL: what is read has the same placeholders. -/
theorem holes_eq (h : ReadAs ps t t') : holes t' = holes t := by
  rcases h with ⟨-, rfl⟩ | ⟨-, hcollapse⟩
  · rfl
  · exact (kept_of_collapse hcollapse).2

/-- INTERNAL: what is read is empty when the text is. -/
theorem fill_eq_nil_iff (h : ReadAs ps t t') :
    fill (printed display) t' = [] ↔ fill (printed display) t = [] := by
  simp only [List.eq_nil_iff_forall_not_mem, h.mem_fill]

/-- INTERNAL: the tokens are read as the whole is. -/
theorem tokens (h : ReadAs ps ps ps') :
    List.Forall₂ (ReadAs ps) (templateTokens ps) (templateTokens ps') := by
  rcases h with ⟨hnone, rfl⟩ | ⟨hsome, hcollapse⟩
  · apply List.forall₂_same.mpr
    intro t _
    exact .inl ⟨hnone, rfl⟩
  · have htokens := splitOn_collapse (d := '.') (by decide) hcollapse
    apply htokens.imp
    intro t t' ht
    exact .inr ⟨hsome, ht⟩

/-- INTERNAL: a token without a placeholder comes out as it is written exactly if it has no
closing brace, unless there is no placeholder anywhere. -/
theorem fill_eq_emit_iff (h : ReadAs ps t t') (ht : holes t = []) :
    fill (printed display) t' = emit t ↔ (holes ps ≠ [] → Piece.char '}' ∉ t) := by
  rw [← fill_eq_emit (printed display) ht]
  rcases h with ⟨hnone, rfl⟩ | ⟨hsome, hcollapse⟩
  · simp only [hnone, ne_eq, not_true_eq_false, false_implies]
  · constructor
    · intro hfill _
      exact (length_fill_collapse (printed display) hcollapse).2 (congrArg List.length hfill)
    · intro hbrace
      obtain rfl := Option.some.inj ((collapse_of_notMem (hbrace hsome)).symm.trans hcollapse)
      rfl

end ReadAs

/-- INTERNAL: a list that is not empty has a member. -/
theorem ne_nil_iff_exists_mem {s : List Char} : s ≠ [] ↔ ∃ c, c ∈ s := by
  constructor
  · exact List.exists_mem_of_ne_nil s
  · rintro ⟨c, hc⟩
    exact List.ne_nil_of_mem hc

/-- INTERNAL: a token is filled if there is a character or a value in it. -/
theorem fill_ne_nil_iff {t : List (Piece String)} :
    fill (printed display) t ≠ [] ↔
      (∃ c, Piece.char c ∈ t) ∨ ∃ field ∈ holes t, display field ≠ "" := by
  have hempty : ∀ field, display field ≠ "" ↔ ∃ c, c ∈ printed display field := by
    intro field
    rw [← ne_nil_iff_exists_mem, printed, ne_eq, ne_eq, String.toList_eq_nil_iff]
  rw [ne_nil_iff_exists_mem]
  simp only [mem_fill, exists_or, hempty]
  constructor
  · rintro (htext | ⟨c, field, hfield, hc⟩)
    · exact .inl htext
    · exact .inr ⟨field, hfield, c, hc⟩
  · rintro (htext | ⟨field, hfield, c, hc⟩)
    · exact .inl htext
    · exact .inr ⟨c, field, hfield, hc⟩

/-! ## The template as a filter -/

/-- INTERNAL: the tokens of the template as a filter. -/
theorem tokens_shapeFilter (ps : List (Piece String)) :
    Topic.tokens (shapeFilter ps) = (templateTokens ps).map shapeToken := by
  unfold Topic.tokens shapeFilter
  rw [String.toList_ofList]
  apply List.splitOn_intercalate
  · intro token htoken hdot
    obtain ⟨t, ht, rfl⟩ := List.mem_map.mp htoken
    unfold shapeToken at hdot
    split at hdot
    · rename_i hnone
      exact (of_mem_splitOn ht).1 ((mem_emit hnone).mp hdot)
    · revert hdot
      decide
  · simp only [ne_eq, List.map_eq_nil_iff]
    exact List.splitOn_ne_nil _ _

/-- INTERNAL: a token without wildcards is itself as a token of a filter. -/
theorem filterToken_of_plain {t : List Char} (h : ∀ c ∈ t, isSpecial c = false) :
    Topic.filterToken t = .lit t := by
  unfold Topic.filterToken
  split
  · exact absurd (h '*' List.mem_cons_self) (by decide)
  · exact absurd (h '>' List.mem_cons_self) (by decide)
  · rfl

/-- INTERNAL: the tokens of a subject match those of its template exactly if no token that has
no placeholder has lost a brace. -/
theorem matches_shape_iff {tokens tokens' : List (List (Piece String))}
    (htext : ∀ t ∈ tokens, ∀ c, Piece.char c ∈ t → isSpecial c = false)
    (h : List.Forall₂ (ReadAs ps) tokens tokens') :
    Topic.matchesTokens ((tokens.map shapeToken).map Topic.filterToken)
        (tokens'.map (fill (printed display))) = true ↔
      (holes ps ≠ [] → ∀ t ∈ tokens, holes t = [] → Piece.char '}' ∉ t) := by
  induction h with
  | nil => simp [Topic.matchesTokens]
  | @cons t t' tokens tokens' ht _ ih =>
    obtain ⟨htext, hrest⟩ := List.forall_mem_cons.mp htext
    have hlater := ih hrest
    by_cases hnone : holes t = []
    · have hplain : ∀ c ∈ emit t, isSpecial c = false := fun c hc =>
        htext c ((mem_emit hnone).mp hc)
      have hfirst : fill (printed display) t' = emit t ↔ _ := ht.fill_eq_emit_iff hnone
      have hlit : Topic.filterToken (shapeToken t) = .lit (emit t) := by
        rw [shapeToken, if_pos hnone, filterToken_of_plain hplain]
      simp only [List.map_cons, hlit, Topic.matchesTokens, Bool.and_eq_true, decide_eq_true_eq,
        hlater, eq_comm (a := emit t), hfirst, List.forall_mem_cons, hnone, true_implies]
      exact forall_and.symm
    · have hone : Topic.filterToken (shapeToken t) = .one := by
        rw [shapeToken, if_neg hnone]
        rfl
      simp only [List.map_cons, hone, Topic.matchesTokens, hlater, List.forall_mem_cons, hnone,
        false_implies, true_and]

/-! ## Which subjects keep their shape -/

section

variable {subject : String} (hread : ReadAs ps ps ps')
  (hsubject : subject.toList = fill (printed display) ps')

include hread hsubject

/-- INTERNAL: without dots in the values, the tokens of the subject are those of the template. -/
theorem tokens_of_values (hvalues : ∀ field ∈ holes ps, '.' ∉ printed display field) :
    Topic.tokens subject = (templateTokens ps').map (fill (printed display)) := by
  unfold Topic.tokens
  rw [hsubject]
  apply splitOn_fill
  rw [hread.holes_eq]
  exact hvalues

/-- INTERNAL: a character of the subject is of the template or of a value. -/
theorem mem_subject_iff {c : Char} :
    c ∈ subject.toList ↔ Piece.char c ∈ ps ∨ ∃ field ∈ holes ps, c ∈ (display field).toList := by
  rw [hsubject, hread.mem_fill, FormatString.mem_fill]
  rfl

/-- INTERNAL: what fits keeps its shape. -/
theorem keepsShape_of_fitsShape (h : FitsShape display ps) : KeepsShape ps subject := by
  have htokens := tokens_of_values hread hsubject
    (fun field hfield hdot => (h.values field hfield '.' hdot).1 rfl)
  have hread' := hread.tokens
  constructor
  · intro token htoken
    rw [htokens] at htoken
    obtain ⟨t', ht', rfl⟩ := List.mem_map.mp htoken
    obtain ⟨t, ht, htt'⟩ := exists_left_of_mem hread' ht'
    intro hnil
    exact (fill_ne_nil_iff.mpr (h.filled t ht)) (htt'.fill_eq_nil_iff.mp hnil)
  · intro c hc
    rcases (mem_subject_iff hread hsubject).mp hc with htext | ⟨field, hfield, hvalue⟩
    · exact h.text c htext
    · exact (h.values field hfield c hvalue).2
  · rw [htokens, List.length_map, hread'.length_eq]
  · intro filter hcovers
    apply Topic.passes_of_covers hcovers
    unfold Topic.passes
    rw [tokens_shapeFilter, htokens]
    apply (matches_shape_iff _ hread').mpr h.braces
    intro t ht c hc
    exact h.text c ((of_mem_splitOn ht).2 _ hc)

/-- INTERNAL: what keeps its shape fits. -/
theorem fitsShape_of_keepsShape (h : KeepsShape ps subject) : FitsShape display ps := by
  have hread' := hread.tokens
  have htext : ∀ c, Piece.char c ∈ ps → isSpecial c = false := fun c hc =>
    h.plain c ((mem_subject_iff hread hsubject).mpr (.inl hc))
  have hdots : ∀ field ∈ holes ps, '.' ∉ printed display field := by
    rw [← hread.holes_eq]
    apply (length_splitOn_fill (printed display)).2
    rw [← hsubject]
    exact h.count.trans hread'.length_eq
  have htokens := tokens_of_values hread hsubject hdots
  constructor
  · intro field hfield c hc
    refine ⟨?_, h.plain c ((mem_subject_iff hread hsubject).mpr (.inr ⟨field, hfield, hc⟩))⟩
    rintro rfl
    exact hdots field hfield hc
  · exact htext
  · intro t ht
    obtain ⟨t', ht', htt'⟩ := exists_right_of_mem hread' ht
    apply fill_ne_nil_iff.mp
    intro hnil
    apply h.nonempty (fill (printed display) t')
    · rw [htokens]
      exact List.mem_map_of_mem ht'
    · exact htt'.fill_eq_nil_iff.mpr hnil
  · have hpasses := h.routed (shapeFilter ps) (Topic.covers_self _)
    unfold Topic.passes at hpasses
    rw [tokens_shapeFilter, htokens] at hpasses
    apply (matches_shape_iff _ hread').mp hpasses
    intro t ht c hc
    exact htext c ((of_mem_splitOn ht).2 _ hc)

end

/-- INTERNAL: the same for a template as it is read. -/
theorem keepsShape_iff_fitsShape {template : List Char} {subject : String}
    (hreads : Reads parseIdent fieldIdents template ps)
    (hsubject : (expressionOf ps).eval display = some subject) :
    KeepsShape ps subject ↔ FitsShape display ps := by
  obtain ⟨ps', hread, hfill⟩ := readAs_of_eval hreads.char_notMem hsubject
  exact ⟨fitsShape_of_keepsShape hread hfill, keepsShape_of_fitsShape hread hfill⟩

/-- **A subject keeps the shape of its template exactly if the text and the values fit it.** -/
theorem keepsShape_iff {template subject : String} {expression : SubjectExpression}
    (h : buildSubjectExpression parseIdent fieldIdents template = .ok expression)
    (hsubject : expression.eval display = some subject) :
    ∃ ps, Reads parseIdent fieldIdents template.toList ps ∧
      (KeepsShape ps subject ↔ FitsShape display ps) := by
  obtain ⟨ps, hreads, rfl⟩ := buildSubjectExpression_eq_ok_iff.mp h
  exact ⟨ps, hreads, keepsShape_iff_fitsShape hreads hsubject⟩

/-! ## Subjects of one template -/

/-- The subjects of orders, by the name of the customer. -/
def customerTemplate : String := "orders.\x7bself.customer\x7d.created"

def customerSubject : SubjectExpression := .format "orders.\x7b\x7d.created" ["customer"]

/-- INTERNAL: the template of a customer is accepted. -/
theorem build_customerTemplate :
    buildSubjectExpression plainIdent ["id", "customer"] customerTemplate =
      .ok customerSubject := by
  decide +kernel

/-- INTERNAL: the result on this template and a plain value. -/
theorem keepsShape_customer :
    ∃ ps, Reads plainIdent ["id", "customer"] customerTemplate.toList ps ∧
      (KeepsShape ps "orders.acme.created" ↔ FitsShape (fun _ => "acme") ps) :=
  keepsShape_iff build_customerTemplate (by decide)

/-- A name with a dot in it moves the subject to another level, where the filter of the
template does not let it pass. -/
theorem shape_not_kept :
    buildSubjectExpression plainIdent ["id", "customer"] customerTemplate = .ok customerSubject ∧
      customerSubject.eval (fun _ => "acme.eu") = some "orders.acme.eu.created" ∧
      Topic.passes "orders.*.created" "orders.acme.eu.created" = false ∧
      ∀ ps, Reads plainIdent ["id", "customer"] customerTemplate.toList ps →
        ¬ KeepsShape ps "orders.acme.eu.created" := by
  refine ⟨build_customerTemplate, by decide, by decide, ?_⟩
  intro ps hreads hkeeps
  have hbuild := buildSubjectExpression_eq_ok_iff.mpr ⟨ps, hreads, rfl⟩
  have hexpression : expressionOf ps = customerSubject :=
    Except.ok.inj (hbuild.symm.trans build_customerTemplate)
  have heval : (expressionOf ps).eval (fun _ => "acme.eu") = some "orders.acme.eu.created" := by
    rw [hexpression]
    decide
  have hfits := (keepsShape_iff_fitsShape hreads heval).mp hkeeps
  have hholes : holes ps = ["customer"] := by
    unfold expressionOf customerSubject at hexpression
    split at hexpression
    · cases hexpression
    · exact (SubjectExpression.format.inj hexpression).2
  have hdot := hfits.values "customer" (hholes ▸ List.mem_cons_self) '.' (by decide)
  exact hdot.1 rfl

end EventBus.Analysis
