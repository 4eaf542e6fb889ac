import Mathlib.Data.List.Basic

/-!
# Topics and filters

A topic is a list of tokens; a filter may have a wildcard for a token, and at its end one
for all that follows.  In text, tokens stand between dots, `*` is any one token and `>` any
number of tokens, but at least one.

`matches_both_overlap` is what keeps streams apart: filters that match a common topic
overlap.
-/

set_option autoImplicit false

namespace EventBus.Lib.Topic

/-- What a filter asks of a token, or of all tokens from here on. -/
inductive FilterToken (T : Type) where
  | lit (t : T)
  | one
  | rest
  deriving DecidableEq

variable {T : Type} [DecidableEq T]

/-- Whether a topic passes a filter. -/
def matchesTokens : List (FilterToken T) → List T → Bool
  | [], [] => true
  | .rest :: _, _ :: _ => true
  | .one :: f, _ :: ts => matchesTokens f ts
  | .lit a :: f, t :: ts => decide (a = t) && matchesTokens f ts
  | _, _ => false

/-- Whether some topic passes both filters. -/
def overlapTokens : List (FilterToken T) → List (FilterToken T) → Bool
  | [], [] => true
  | .rest :: _, _ :: _ => true
  | _ :: _, .rest :: _ => true
  | .lit a :: f, .lit b :: g => decide (a = b) && overlapTokens f g
  | _ :: f, _ :: g => overlapTokens f g
  | _, _ => false

/-- **Filters that pass a common topic overlap.** -/
theorem matches_both_overlap {f g : List (FilterToken T)} {ts : List T}
    (hf : matchesTokens f ts = true) (hg : matchesTokens g ts = true) :
    overlapTokens f g = true := by
  induction ts generalizing f g with
  | nil =>
    cases f with
    | nil =>
      cases g with
      | nil => rfl
      | cons b g => cases b <;> simp [matchesTokens] at hg
    | cons a f => cases a <;> simp [matchesTokens] at hf
  | cons t ts ih =>
    cases f with
    | nil => simp [matchesTokens] at hf
    | cons a f =>
      cases g with
      | nil => simp [matchesTokens] at hg
      | cons b g =>
        cases a with
        | rest => rfl
        | one =>
          have hf : matchesTokens f ts = true := hf
          cases b with
          | rest => rfl
          | one =>
            have hfg : overlapTokens f g = true := ih hf hg
            exact hfg
          | lit b =>
            have hfg : overlapTokens f g = true := ih hf (Bool.and_eq_true_iff.mp hg).2
            exact hfg
        | lit a =>
          obtain ⟨ha, hf⟩ := Bool.and_eq_true_iff.mp hf
          cases b with
          | rest => rfl
          | one =>
            have hfg : overlapTokens f g = true := ih hf hg
            exact hfg
          | lit b =>
            obtain ⟨hb, hg⟩ := Bool.and_eq_true_iff.mp hg
            have hab : a = b := (of_decide_eq_true ha).trans (of_decide_eq_true hb).symm
            exact Bool.and_eq_true_iff.mpr ⟨decide_eq_true hab, ih hf hg⟩

/-- Whether a filter asks for no more than another does, token by token. -/
def coversTokens : List (FilterToken T) → List (FilterToken T) → Bool
  | [], [] => true
  | .rest :: _, _ :: _ => true
  | .one :: f, .one :: g => coversTokens f g
  | .one :: f, .lit _ :: g => coversTokens f g
  | .lit a :: f, .lit b :: g => decide (a = b) && coversTokens f g
  | _, _ => false

/-- INTERNAL: a filter covers itself, token by token. -/
theorem coversTokens_self (f : List (FilterToken T)) : coversTokens f f = true := by
  induction f with
  | nil => rfl
  | cons a f ih =>
    cases a with
    | lit a => exact Bool.and_eq_true_iff.mpr ⟨decide_eq_true rfl, ih⟩
    | one => exact ih
    | rest => rfl

/-- **What passes a filter passes every filter that covers it.** -/
theorem matchesTokens_of_covers {f g : List (FilterToken T)} {ts : List T}
    (hfg : coversTokens f g = true) (hg : matchesTokens g ts = true) :
    matchesTokens f ts = true := by
  induction ts generalizing f g with
  | nil =>
    cases g with
    | nil =>
      cases f with
      | nil => rfl
      | cons a f => cases a <;> simp [coversTokens] at hfg
    | cons b g => cases b <;> simp [matchesTokens] at hg
  | cons t ts ih =>
    cases f with
    | nil =>
      cases g with
      | nil => exact hg
      | cons b g => simp [coversTokens] at hfg
    | cons a f =>
      cases a with
      | rest => rfl
      | one =>
        cases g with
        | nil => simp [coversTokens] at hfg
        | cons b g =>
          cases b with
          | rest => simp [coversTokens] at hfg
          | one => exact ih (f := f) (g := g) hfg hg
          | lit b =>
            have hrest := (Bool.and_eq_true_iff.mp hg).2
            exact ih (f := f) (g := g) hfg hrest
      | lit a =>
        cases g with
        | nil => simp [coversTokens] at hfg
        | cons b g =>
          cases b with
          | rest => simp [coversTokens] at hfg
          | one => simp [coversTokens] at hfg
          | lit b =>
            obtain ⟨hab, hcovers⟩ := Bool.and_eq_true_iff.mp hfg
            obtain ⟨hbt, hrest⟩ := Bool.and_eq_true_iff.mp hg
            have hat : a = t := (of_decide_eq_true hab).trans (of_decide_eq_true hbt)
            exact Bool.and_eq_true_iff.mpr ⟨decide_eq_true hat, ih hcovers hrest⟩

/-! ## Topics and filters in text -/

/-- The tokens of a topic. -/
def tokens (topic : String) : List (List Char) :=
  topic.toList.splitOn '.'

/-- A token of a filter. -/
def filterToken : List Char → FilterToken (List Char)
  | ['*'] => .one
  | ['>'] => .rest
  | token => .lit token

/-- A blank, a form feed among them. -/
def isBlank (c : Char) : Bool := c.isWhitespace || c == Char.ofNat 12

/-- A name that may be given to a stream or a consumer: no dots, wildcards, slashes or
blanks. -/
def admits (name : String) : Bool :=
  !name.isEmpty && name.toList.all fun c =>
    !(c == '.' || c == '*' || c == '>' || c == '/' || c == '\\' || isBlank c)

/-- Whether a topic passes a filter. -/
def passes (filter topic : String) : Bool :=
  matchesTokens ((tokens filter).map filterToken) (tokens topic)

/-- Whether two filters overlap. -/
def overlap (filter filter' : String) : Bool :=
  overlapTokens ((tokens filter).map filterToken) ((tokens filter').map filterToken)

/-- Whether a filter covers another. -/
def covers (filter filter' : String) : Bool :=
  coversTokens ((tokens filter).map filterToken) ((tokens filter').map filterToken)

/-- INTERNAL: a filter covers itself. -/
theorem covers_self (filter : String) : covers filter filter = true :=
  coversTokens_self _

/-- INTERNAL: what passes a filter passes one that covers it. -/
theorem passes_of_covers {filter filter' topic : String} (h : covers filter filter' = true)
    (hpasses : passes filter' topic = true) : passes filter topic = true :=
  matchesTokens_of_covers h hpasses

/-- INTERNAL: two filters that one topic passes overlap. -/
theorem overlap_of_passes {filter filter' topic : String} (h : passes filter topic = true)
    (h' : passes filter' topic = true) : overlap filter filter' = true :=
  matches_both_overlap h h'

/-- INTERNAL: whatever the tokens are, a topic passes itself read as a filter. -/
theorem matchesTokens_self (ts : List (List Char)) :
    matchesTokens (ts.map filterToken) ts = true := by
  induction ts with
  | nil => rfl
  | cons t ts ih =>
    rw [List.map_cons]
    unfold filterToken
    split
    · exact ih
    · rfl
    · exact Bool.and_eq_true_iff.mpr ⟨decide_eq_true rfl, ih⟩

/-- INTERNAL: a topic is a filter that it passes. -/
theorem passes_self (topic : String) : passes topic topic = true :=
  matchesTokens_self (tokens topic)

end EventBus.Lib.Topic
