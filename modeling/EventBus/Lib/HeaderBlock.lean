import Mathlib.Data.List.Infix

/-!
# Header blocks

A block of headers is a version line, a line for each header and an empty line.  Each line
ends in a line break, a carriage return followed by a line feed; a header's line is its name, a
colon, a blank and its value.  The reader goes from line to line, up to the empty one, and
splits each at its first colon.

Nothing is escaped, so a value with a line break in it does not come back:
`decode_encode_iff`.
-/

set_option autoImplicit false

namespace EventBus.Lib.HeaderBlock

/-- A line break. -/
def crlf : List Char := ['\r', '\n']

/-- A text with a line break in it. -/
def HasBreak (t : List Char) : Prop := crlf <:+: t

instance (t : List Char) : Decidable (HasBreak t) := inferInstanceAs (Decidable (crlf <:+: t))

/-- The lines of a text; what follows the last line break is a line as well. -/
def lines : List Char → List (List Char)
  | [] => [[]]
  | '\r' :: '\n' :: rest => [] :: lines rest
  | c :: rest => (c :: (lines rest).headD []) :: (lines rest).tail

def isBlank (c : Char) : Bool := c == ' ' || c == '\t'

/-- A text without the blanks around it. -/
def trim (t : List Char) : List Char :=
  ((t.dropWhile isBlank).reverse.dropWhile isBlank).reverse

/-! ## Writing and reading -/

variable {version : List Char}

/-- The line of a header, with its line break. -/
def encodeHeader (h : List Char × List Char) : List Char :=
  h.1 ++ ':' :: ' ' :: h.2 ++ crlf

def encodeHeaders (hs : List (List Char × List Char)) : List Char :=
  hs.flatMap encodeHeader ++ crlf

/-- A block of headers. -/
def encode (version : List Char) (hs : List (List Char × List Char)) : List Char :=
  version ++ crlf ++ encodeHeaders hs

/-- A line read as a header: what is before its first colon, and what is after it. -/
def decodeHeader (line : List Char) : Option (List Char × List Char) :=
  if ':' ∈ line then
    some (line.takeWhile (· ≠ ':'), trim ((line.dropWhile (· ≠ ':')).drop 1))
  else none

/-- The headers up to the empty line. -/
def decodeLines : List (List Char) → Option (List (List Char × List Char))
  | [] => none
  | [] :: _ => some []
  | line :: ls =>
    match decodeHeader line, decodeLines ls with
    | some h, some hs => some (h :: hs)
    | _, _ => none

/-- The headers of a block; the version line is passed over. -/
def decode (block : List Char) : Option (List (List Char × List Char)) :=
  decodeLines ((lines block).drop 1)

/-! ## Lines -/

/-- INTERNAL: a character that begins no line break goes to the first line. -/
theorem lines_cons {c : Char} {rest : List Char} (h : ¬ (c = '\r' ∧ rest.head? = some '\n')) :
    ∃ line ls, lines rest = line :: ls ∧ lines (c :: rest) = (c :: line) :: ls := by
  have hne : lines rest ≠ [] := by
    unfold lines
    split <;> exact List.cons_ne_nil _ _
  obtain ⟨line, ls, hlines⟩ := List.exists_cons_of_ne_nil hne
  refine ⟨line, ls, hlines, ?_⟩
  rw [lines.eq_3 c rest, hlines, List.headD_cons, List.tail_cons]
  rintro tail rfl rfl
  exact h ⟨rfl, rfl⟩

/-- INTERNAL: a line that has no break in it is read up to the break that follows it. -/
theorem lines_append {t : List Char} (h : ¬ HasBreak t) (rest : List Char) :
    lines (t ++ crlf ++ rest) = t :: lines rest := by
  induction t with
  | nil => rfl
  | cons c t ih =>
    have htail : ¬ HasBreak t := by
      intro hbreak
      exact h (hbreak.trans (List.suffix_cons c t).isInfix)
    have hnot : ¬ (c = '\r' ∧ (t ++ crlf ++ rest).head? = some '\n') := by
      rintro ⟨rfl, hhead⟩
      cases t with
      | nil => cases hhead
      | cons b t =>
        obtain rfl : b = '\n' := Option.some.inj hhead
        exact h (List.prefix_append crlf t).isInfix
    obtain ⟨line, ls, hlines, hcons⟩ := lines_cons hnot
    rw [ih htail] at hlines
    obtain ⟨rfl, rfl⟩ := List.cons.inj hlines
    exact hcons

/-- INTERNAL: what comes first in a text is its first line. -/
theorem prefix_of_lines_eq {t line : List Char} {ls : List (List Char)}
    (h : lines t = line :: ls) : line <+: t := by
  induction t generalizing line ls with
  | nil =>
    obtain ⟨rfl, -⟩ := List.cons.inj h
    exact List.nil_prefix
  | cons c rest ih =>
    by_cases hbreak : c = '\r' ∧ rest.head? = some '\n'
    · obtain ⟨rfl, hhead⟩ := hbreak
      cases rest with
      | nil => cases hhead
      | cons b rest =>
        obtain rfl : b = '\n' := Option.some.inj hhead
        obtain ⟨rfl, -⟩ := List.cons.inj h
        exact List.nil_prefix
    · obtain ⟨first, others, hlines, hcons⟩ := lines_cons hbreak
      obtain ⟨rfl, -⟩ := List.cons.inj (hcons.symm.trans h)
      exact List.cons_prefix_cons.mpr ⟨rfl, ih hlines⟩

/-- INTERNAL: no line has a break in it. -/
theorem not_hasBreak_of_mem_lines {t line : List Char} (h : line ∈ lines t) :
    ¬ HasBreak line := by
  induction t using lines.induct generalizing line with
  | case1 =>
    obtain rfl := List.mem_singleton.mp h
    decide
  | case2 rest ih =>
    rcases List.mem_cons.mp h with rfl | h
    · decide
    · exact ih h
  | case3 c rest hnot ih =>
    have hbreak : ¬ (c = '\r' ∧ rest.head? = some '\n') := by
      rintro ⟨rfl, hhead⟩
      cases rest with
      | nil => cases hhead
      | cons b rest =>
        obtain rfl : b = '\n' := Option.some.inj hhead
        exact hnot rest rfl rfl
    obtain ⟨first, others, hlines, hcons⟩ := lines_cons hbreak
    rw [hlines] at ih
    rw [hcons] at h
    rcases List.mem_cons.mp h with rfl | h
    · intro hfirst
      rcases List.infix_cons_iff.mp hfirst with hstart | hinner
      · -- the break would begin where this line does, and end in what follows in the text
        obtain ⟨hc, hhead⟩ := List.cons_prefix_cons.mp hstart
        have htext := hhead.trans (prefix_of_lines_eq hlines)
        obtain ⟨tail, rfl⟩ := htext
        exact hbreak ⟨hc.symm, rfl⟩
      · exact ih List.mem_cons_self hinner
    · exact ih (List.mem_cons_of_mem _ h)

/-! ## Values -/

/-- INTERNAL: a stretch of what is not dropped stays. -/
theorem isInfix_dropWhile {p : Char → Bool} {w t : List Char} (hne : w ≠ [])
    (hw : ∀ c ∈ w, p c = false) (h : w <:+: t) : w <:+: t.dropWhile p := by
  induction t with
  | nil => exact h
  | cons c t ih =>
    cases hc : p c with
    | false => rwa [List.dropWhile_cons_of_neg (by simp [hc])]
    | true =>
      rw [List.dropWhile_cons_of_pos hc]
      rcases List.infix_cons_iff.mp h with hstart | hinner
      · obtain ⟨b, w, rfl⟩ := List.exists_cons_of_ne_nil hne
        obtain ⟨rfl, -⟩ := List.cons_prefix_cons.mp hstart
        rw [hw b List.mem_cons_self] at hc
        cases hc
      · exact ih hinner

/-- INTERNAL: trimming takes no line break away. -/
theorem hasBreak_trim {t : List Char} : HasBreak (trim t) ↔ HasBreak t := by
  constructor
  · intro h
    have htrim : trim t <:+: t := by
      unfold trim
      apply List.reverse_infix.mp
      rw [List.reverse_reverse]
      have hdropped := (List.dropWhile_suffix isBlank (l := t)).isInfix
      exact (List.dropWhile_suffix isBlank).isInfix.trans (List.reverse_infix.mpr hdropped)
    exact h.trans htrim
  · intro h
    have hblank : ∀ c ∈ crlf, isBlank c = false := by
      unfold crlf
      simp only [List.forall_mem_cons]
      exact ⟨rfl, rfl, fun c hc => absurd hc List.not_mem_nil⟩
    have hdropped : crlf <:+: t.dropWhile isBlank := isInfix_dropWhile nofun hblank h
    unfold HasBreak trim
    apply List.reverse_infix.mp
    rw [List.reverse_reverse]
    apply isInfix_dropWhile
    · exact nofun
    · intro c hc
      exact hblank c (List.mem_reverse.mp hc)
    · exact List.reverse_infix.mpr hdropped

/-- INTERNAL: a blank in front is trimmed. -/
theorem trim_cons_blank (t : List Char) : trim (' ' :: t) = trim t := rfl

/-- INTERNAL: a value that is read from a line has a break only if the line has. -/
theorem not_hasBreak_of_decodeHeader {line : List Char} {h : List Char × List Char}
    (hline : ¬ HasBreak line) (hh : decodeHeader line = some h) : ¬ HasBreak h.2 := by
  unfold decodeHeader at hh
  split at hh
  · obtain rfl := Option.some.inj hh
    intro hbreak
    have hinner : HasBreak ((line.dropWhile (· ≠ ':')).drop 1) := hasBreak_trim.mp hbreak
    have hsuffix := (List.drop_suffix 1 (line.dropWhile (· ≠ ':'))).trans (List.dropWhile_suffix _)
    exact hline (hinner.trans hsuffix.isInfix)
  · cases hh

/-- INTERNAL: no value that is read has a line break. -/
theorem not_hasBreak_of_decodeLines {ls : List (List Char)} {hs : List (List Char × List Char)}
    (hls : ∀ line ∈ ls, ¬ HasBreak line) (h : decodeLines ls = some hs) :
    ∀ h ∈ hs, ¬ HasBreak h.2 := by
  induction ls generalizing hs with
  | nil => cases h
  | cons line ls ih =>
    cases line with
    | nil =>
      obtain rfl := Option.some.inj h
      intro h hmem
      cases hmem
    | cons c line =>
      unfold decodeLines at h
      split at h
      · rename_i first others hfirst hothers
        obtain rfl := Option.some.inj h
        intro h' hmem
        rcases List.mem_cons.mp hmem with rfl | hmem
        · exact not_hasBreak_of_decodeHeader (hls _ List.mem_cons_self) hfirst
        · exact ih (fun l hl => hls l (List.mem_cons_of_mem _ hl)) hothers h' hmem
      · cases h

/-! ## What comes back -/

/-- A text that can name a header: it has neither a colon nor what begins a line break. -/
structure IsName (name : List Char) : Prop where
  noColon : ':' ∉ name
  noBreak : '\r' ∉ name

/-- A header as it is read back. -/
def trimmed (h : List Char × List Char) : List Char × List Char := (h.1, trim h.2)

/-- INTERNAL: a line is read as its header. -/
theorem decodeHeader_line {h : List Char × List Char} (hname : IsName h.1) :
    decodeHeader (h.1 ++ ':' :: ' ' :: h.2) = some (trimmed h) := by
  unfold decodeHeader
  rw [if_pos (List.mem_append_right _ List.mem_cons_self)]
  have hbefore : ∀ c ∈ h.1, (decide (c ≠ ':')) = true := by
    intro c hc
    apply decide_eq_true
    rintro rfl
    exact hname.noColon hc
  rw [List.takeWhile_append_of_pos hbefore, List.dropWhile_append_of_pos hbefore]
  simp [trimmed, trim_cons_blank]

/-- INTERNAL: a line break cannot begin in a stretch without a carriage return. -/
theorem HasBreak.of_append {a t : List Char} (ha : '\r' ∉ a) (h : HasBreak (a ++ t)) :
    HasBreak t := by
  induction a with
  | nil => exact h
  | cons c a ih =>
    rcases List.infix_cons_iff.mp h with hstart | hinner
    · obtain ⟨rfl, -⟩ := List.cons_prefix_cons.mp hstart
      exact absurd List.mem_cons_self ha
    · exact ih (fun hmem => ha (List.mem_cons_of_mem _ hmem)) hinner

/-- INTERNAL: a break does not reach over a character that is no part of one. -/
theorem HasBreak.of_append_cons {a b : List Char} {c : Char} (hc : c ∉ crlf)
    (h : HasBreak (a ++ c :: b)) : HasBreak a ∨ HasBreak b := by
  induction a with
  | nil =>
    right
    rcases List.infix_cons_iff.mp h with hstart | hinner
    · obtain ⟨rfl, -⟩ := List.cons_prefix_cons.mp hstart
      exact absurd (by decide) hc
    · exact hinner
  | cons d a ih =>
    rcases List.infix_cons_iff.mp h with hstart | hinner
    · left
      obtain ⟨rfl, hrest⟩ := List.cons_prefix_cons.mp hstart
      cases a with
      | nil =>
        obtain ⟨rfl, -⟩ := List.cons_prefix_cons.mp hrest
        exact absurd (by decide) hc
      | cons e a =>
        obtain ⟨rfl, -⟩ := List.cons_prefix_cons.mp hrest
        exact (List.prefix_append crlf a).isInfix
    · rcases ih hinner with ha | hb
      · exact .inl (List.infix_cons ha)
      · exact .inr hb

/-- INTERNAL: a header's line has a break only if its value has. -/
theorem not_hasBreak_line {h : List Char × List Char} (hname : IsName h.1)
    (hvalue : ¬ HasBreak h.2) : ¬ HasBreak (h.1 ++ ':' :: ' ' :: h.2) := by
  intro hbreak
  have hblank : HasBreak (':' :: ' ' :: h.2) := hbreak.of_append hname.noBreak
  have hrest : HasBreak h.2 := HasBreak.of_append (a := [':', ' ']) (by decide) hblank
  exact hvalue hrest

/-- INTERNAL: the first line, and then the others. -/
theorem decodeLines_cons {line : List Char} {ls : List (List Char)}
    {h : List Char × List Char} {hs : List (List Char × List Char)} (hne : line ≠ [])
    (hline : decodeHeader line = some h) (hls : decodeLines ls = some hs) :
    decodeLines (line :: ls) = some (h :: hs) := by
  cases line with
  | nil => exact absurd rfl hne
  | cons c line => simp only [decodeLines, hline, hls]

/-- INTERNAL: values of one line each are read back, trimmed. -/
theorem decodeLines_encodeHeaders {hs : List (List Char × List Char)}
    (hnames : ∀ h ∈ hs, IsName h.1) (hvalues : ∀ h ∈ hs, ¬ HasBreak h.2) :
    decodeLines (lines (encodeHeaders hs)) = some (hs.map trimmed) := by
  induction hs with
  | nil => rfl
  | cons h hs ih =>
    have hname := hnames h List.mem_cons_self
    have hline := not_hasBreak_line hname (hvalues h List.mem_cons_self)
    have hrest := ih (fun h' hh' => hnames h' (List.mem_cons_of_mem _ hh'))
      (fun h' hh' => hvalues h' (List.mem_cons_of_mem _ hh'))
    have hlines : lines (encodeHeaders (h :: hs)) =
        (h.1 ++ ':' :: ' ' :: h.2) :: lines (encodeHeaders hs) := by
      rw [← lines_append hline]
      simp only [encodeHeaders, encodeHeader, List.flatMap_cons, List.append_assoc]
    rw [hlines]
    apply decodeLines_cons (by simp) (decodeHeader_line hname) hrest

/-- **Headers come back, without the blanks around their values, exactly if no value has a
line break in it.** -/
theorem decode_encode_iff {hs : List (List Char × List Char)} (hversion : ¬ HasBreak version)
    (hnames : ∀ h ∈ hs, IsName h.1) :
    decode (encode version hs) = some (hs.map trimmed) ↔ ∀ h ∈ hs, ¬ HasBreak h.2 := by
  have hlines : (lines (encode version hs)).drop 1 = lines (encodeHeaders hs) := by
    unfold encode
    rw [lines_append hversion, List.drop_one, List.tail_cons]
  unfold decode
  rw [hlines]
  constructor
  · intro hdecode h hmem hbreak
    have hread := not_hasBreak_of_decodeLines (fun _ hl => not_hasBreak_of_mem_lines hl) hdecode
    exact hread (trimmed h) (List.mem_map_of_mem hmem) (hasBreak_trim.mpr hbreak)
  · exact decodeLines_encodeHeaders hnames

end EventBus.Lib.HeaderBlock
