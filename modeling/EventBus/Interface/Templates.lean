import EventBus.Model.SubjectTemplate

/-!
# The templates that are accepted

`Reads` is the grammar of subject templates: a template is a text in which every opening brace
opens a placeholder that is closed and names a field.  `scan_sound` and `scan_complete` say
that the loop of the macro accepts these templates and no others, and what it makes of them.
-/

set_option autoImplicit false

namespace EventBus.Interface

open EventBus.Lib EventBus.Lib.FormatString EventBus.Model

variable {parseIdent : String → Option String} {fieldIdents : List String}

/-- The text of a placeholder names a field: between blanks it is `self.` and what reads as
the identifier of the field. -/
def NamesField (parseIdent : String → Option String) (fieldIdents : List String)
    (inside : List Char) (field : String) : Prop :=
  ∃ name, trimText inside = "self.".toList ++ name ∧
    parseIdent (String.ofList name) = some field ∧ field ∈ fieldIdents

/-- The grammar of templates. -/
inductive Reads (parseIdent : String → Option String) (fieldIdents : List String) :
    List Char → List (Piece String) → Prop
  | nil : Reads parseIdent fieldIdents [] []
  | char {c : Char} {s : List Char} {ps : List (Piece String)} (hc : c ≠ '{')
      (hs : Reads parseIdent fieldIdents s ps) :
      Reads parseIdent fieldIdents (c :: s) (.char c :: ps)
  | hole {inside s : List Char} {field : String} {ps : List (Piece String)}
      (hinside : '}' ∉ inside) (hfield : NamesField parseIdent fieldIdents inside field)
      (hs : Reads parseIdent fieldIdents s ps) :
      Reads parseIdent fieldIdents ('{' :: (inside ++ '}' :: s)) (.hole field :: ps)

namespace Reads

variable {s : List Char} {ps ps' : List (Piece String)}

/-- INTERNAL: what is read has no opening brace. -/
theorem char_notMem (h : Reads parseIdent fieldIdents s ps) : Piece.char '{' ∉ ps := by
  induction h with
  | nil => exact List.not_mem_nil
  | char hc _ ih =>
    intro hmem
    rcases List.mem_cons.mp hmem with heq | hmem
    · exact hc (Piece.char.inj heq).symm
    · exact ih hmem
  | hole _ _ _ ih =>
    intro hmem
    rcases List.mem_cons.mp hmem with heq | hmem
    · cases heq
    · exact ih hmem

/-- A template is read in one way only. -/
theorem unique (h : Reads parseIdent fieldIdents s ps)
    (h' : Reads parseIdent fieldIdents s ps') : ps = ps' := by
  induction h generalizing ps' with
  | nil =>
    cases h'
    rfl
  | char hc _ ih =>
    cases h' with
    | char _ hs' => rw [ih hs']
    | hole _ _ _ => exact absurd rfl hc
  | @hole inside rest field ps hinside hfield hs ih =>
    generalize htext : '{' :: (inside ++ '}' :: rest) = text at h'
    cases h' with
    | nil => cases htext
    | char hc _ => exact absurd (List.cons.inj htext).1.symm hc
    | @hole inside' rest' field' ps' hinside' hfield' hs' =>
      obtain ⟨rfl, rfl⟩ := append_cons_inj hinside hinside' (List.cons.inj htext).2
      obtain ⟨name, htrim, hparse, -⟩ := hfield
      obtain ⟨name', htrim', hparse', -⟩ := hfield'
      obtain rfl : name = name' := List.append_cancel_left (htrim.symm.trans htrim')
      obtain rfl : field = field' := Option.some.inj (hparse.symm.trans hparse')
      rw [ih hs']

/-- INTERNAL: text may stand before it. -/
theorem append_char {text : List Char} (htext : '{' ∉ text)
    (h : Reads parseIdent fieldIdents s ps) :
    Reads parseIdent fieldIdents (text ++ s) (text.map .char ++ ps) := by
  induction text with
  | nil => exact h
  | cons c text ih =>
    have hc : c ≠ '{' := by
      rintro rfl
      exact htext List.mem_cons_self
    exact .char hc (ih fun hmem => htext (List.mem_cons_of_mem _ hmem))

end Reads

/-! ## The loop -/

/-- INTERNAL: what is between braces is accepted exactly if it names a field.
SRC: event.rs:186-212 -/
theorem interpolatedField_eq_ok_iff {inside : List Char} {field : String} :
    interpolatedField parseIdent fieldIdents inside = .ok field ↔
      NamesField parseIdent fieldIdents inside field := by
  unfold interpolatedField NamesField
  constructor
  · intro h
    simp only at h
    split at h
    · rename_i hstart
      obtain ⟨name, hname⟩ := List.isPrefixOf_iff_prefix.mp hstart
      have hdrop : (trimText inside).drop 5 = name := by
        rw [← hname]
        rfl
      rw [hdrop] at h
      split at h
      · cases h
      · rename_i fieldIdent hparse
        split at h
        · rename_i hknown
          obtain rfl := Except.ok.inj h
          exact ⟨name, hname.symm, hparse, hknown⟩
        · cases h
    · cases h
  · rintro ⟨name, hname, hparse, hknown⟩
    have hstart : "self.".toList.isPrefixOf (trimText inside) = true := by
      rw [hname]
      exact List.isPrefixOf_iff_prefix.mpr (List.prefix_append _ _)
    have hdrop : (trimText inside).drop 5 = name := by
      rw [hname]
      rfl
    simp only [hstart, if_true, hdrop, hparse, hknown]

section

variable {rest text inside afterOpen afterClose formatString : List Char} {field : String}
  {arguments : List String}

/-- INTERNAL: a rest without opening braces is taken as it is. -/
theorem scan_text (h : '{' ∉ rest) :
    scanTemplate parseIdent fieldIdents rest formatString arguments =
      .ok (formatString ++ rest, arguments) := by
  have hnone := splitOnce_eq_none_iff.mpr h
  rw [scanTemplate]
  split
  · rfl
  · rename_i hsome
    rw [hnone] at hsome
    cases hsome

/-- INTERNAL: one round of the loop. -/
theorem scan_placeholder (htext : '{' ∉ text) (hinside : '}' ∉ inside)
    (hfield : NamesField parseIdent fieldIdents inside field) :
    scanTemplate parseIdent fieldIdents (text ++ '{' :: (inside ++ '}' :: rest)) formatString
        arguments =
      scanTemplate parseIdent fieldIdents rest (formatString ++ text ++ ['{', '}'])
        (arguments ++ [field]) := by
  have hopened := splitOnce_append_cons (z := inside ++ '}' :: rest) htext
  have hclosed := splitOnce_append_cons (z := rest) hinside
  rw [scanTemplate]
  split
  · rename_i hnone
    rw [hopened] at hnone
    cases hnone
  · rename_i hsome
    rw [hopened] at hsome
    obtain ⟨rfl, rfl⟩ := Prod.mk.inj (Option.some.inj hsome)
    split
    · rename_i hnone
      rw [hclosed] at hnone
      cases hnone
    · rename_i hsome
      rw [hclosed] at hsome
      obtain ⟨rfl, rfl⟩ := Prod.mk.inj (Option.some.inj hsome)
      rw [interpolatedField_eq_ok_iff.mpr hfield]
      rfl

end

/-- INTERNAL: what the scan accepts can be read.
SRC: event.rs:161-223 -/
theorem scan_sound {rest formatString formatString' : List Char}
    {arguments arguments' : List String}
    (h : scanTemplate parseIdent fieldIdents rest formatString arguments =
      .ok (formatString', arguments')) :
    ∃ ps, Reads parseIdent fieldIdents rest ps ∧ formatString' = formatString ++ emit ps ∧
      arguments' = arguments ++ holes ps := by
  induction rest, formatString, arguments using
    scanTemplate.induct parseIdent fieldIdents with
  | case1 rest formatString arguments hnone =>
    have htext := splitOnce_eq_none_iff.mp hnone
    rw [scan_text htext] at h
    obtain ⟨rfl, rfl⟩ := Prod.mk.inj (Except.ok.inj h)
    have hnil : Reads parseIdent fieldIdents [] [] := .nil
    have hreads := Reads.append_char htext hnil
    rw [List.append_nil, List.append_nil] at hreads
    refine ⟨rest.map .char, hreads, ?_, ?_⟩
    · rw [emit_map_char]
    · rw [holes_map_char, List.append_nil]
  | case2 rest formatString arguments text afterOpen hopen hnone =>
    obtain ⟨rfl, htext⟩ := splitOnce_eq_some hopen
    have hopened := splitOnce_append_cons (z := afterOpen) htext
    rw [scanTemplate] at h
    split at h
    · rename_i hsplit
      rw [hopened] at hsplit
      cases hsplit
    · rename_i hsplit
      rw [hopened] at hsplit
      obtain ⟨rfl, rfl⟩ := Prod.mk.inj (Option.some.inj hsplit)
      split at h
      · cases h
      · rename_i hsome
        rw [hnone] at hsome
        cases hsome
  | case3 rest formatString arguments text afterOpen hopen inside afterClose hclose e herror =>
    rw [scanTemplate] at h
    split at h
    · rename_i hsplit
      rw [hopen] at hsplit
      cases hsplit
    · rename_i hsplit
      rw [hopen] at hsplit
      obtain ⟨rfl, rfl⟩ := Prod.mk.inj (Option.some.inj hsplit)
      split at h
      · cases h
      · rename_i hsome
        rw [hclose] at hsome
        obtain ⟨rfl, rfl⟩ := Prod.mk.inj (Option.some.inj hsome)
        rw [herror] at h
        cases h
  | case4 rest formatString arguments text afterOpen hopen inside afterClose hclose field hfield
      ih =>
    have hnames := interpolatedField_eq_ok_iff.mp hfield
    obtain ⟨rfl, htext⟩ := splitOnce_eq_some hopen
    obtain ⟨rfl, hinside⟩ := splitOnce_eq_some hclose
    rw [scan_placeholder htext hinside hnames] at h
    obtain ⟨ps, hreads, rfl, rfl⟩ := ih h
    refine ⟨text.map .char ++ .hole field :: ps, ?_, ?_, ?_⟩
    · exact Reads.append_char htext (.hole hinside hnames hreads)
    · rw [emit_append, emit_map_char, emit]
      simp
    · rw [holes_append, holes_map_char, holes]
      simp

/-- INTERNAL: the same template with a text before it that the loop has not passed yet. -/
theorem scan_complete {s : List Char} {ps : List (Piece String)}
    (h : Reads parseIdent fieldIdents s ps) {text : List Char} (htext : '{' ∉ text)
    (formatString : List Char) (arguments : List String) :
    scanTemplate parseIdent fieldIdents (text ++ s) formatString arguments =
      .ok (formatString ++ text ++ emit ps, arguments ++ holes ps) := by
  induction h generalizing text formatString arguments with
  | nil =>
    rw [List.append_nil, scan_text htext, emit, holes, List.append_nil, List.append_nil]
  | @char c s ps hc _ ih =>
    have htext' : '{' ∉ text ++ [c] := by
      intro hmem
      rcases List.mem_append.mp hmem with hmem | hmem
      · exact htext hmem
      · exact hc (List.mem_singleton.mp hmem).symm
    have hscan := ih htext' formatString arguments
    simpa only [List.append_assoc, List.singleton_append, emit, holes] using hscan
  | @hole inside s field ps hinside hfield _ ih =>
    rw [scan_placeholder htext hinside hfield]
    have hscan := ih List.not_mem_nil (formatString ++ text ++ ['{', '}']) (arguments ++ [field])
    simpa only [List.append_assoc, List.nil_append, List.cons_append, emit, holes] using hscan

/-! ## The expression -/

/-- The expression for a template, as it has been read. -/
def expressionOf (ps : List (Piece String)) : SubjectExpression :=
  if holes ps = [] then .toOwned (String.ofList (emit ps))
  else .format (String.ofList (emit ps)) (holes ps)

/-- **The derive accepts the templates of the grammar and no others.** -/
theorem buildSubjectExpression_eq_ok_iff {template : String} {expression : SubjectExpression} :
    buildSubjectExpression parseIdent fieldIdents template = .ok expression ↔
      ∃ ps, Reads parseIdent fieldIdents template.toList ps ∧ expression = expressionOf ps := by
  unfold buildSubjectExpression
  constructor
  · intro h
    split at h
    · cases h
    · rename_i formatString arguments hscan
      obtain ⟨ps, hreads, rfl, rfl⟩ := scan_sound hscan
      refine ⟨ps, hreads, ?_⟩
      unfold expressionOf
      simp only [List.nil_append] at h
      split at h
      · rename_i hnone
        rw [if_pos hnone]
        exact (Except.ok.inj h).symm
      · rename_i hsome
        rw [if_neg hsome]
        exact (Except.ok.inj h).symm
  · rintro ⟨ps, hreads, rfl⟩
    have hnil : '{' ∉ ([] : List Char) := List.not_mem_nil
    have hscan := scan_complete hreads hnil [] []
    simp only [List.nil_append] at hscan
    rw [hscan]
    unfold expressionOf
    simp only
    split <;> rfl

end EventBus.Interface
