import Mathlib.Data.List.Basic

/-!
# Texts joined by a separator

Two texts that are joined by a separator can be told apart again as long as the separator
occurs in neither of them.  When it may occur, the joined text of a pair is that of another
pair exactly if a part between two separators has moved from one side to the other:
`join_eq_iff`.
-/

set_option autoImplicit false

namespace EventBus.Lib

section List

variable {α : Type} {a : α} {x y z w : List α}

/-- INTERNAL: two lists agree up to the first separator, and after it. -/
theorem append_cons_inj (hx : a ∉ x) (hy : a ∉ y) (h : x ++ a :: z = y ++ a :: w) :
    x = y ∧ z = w := by
  induction x generalizing y with
  | nil =>
    cases y with
    | nil => exact ⟨rfl, (List.cons.inj h).2⟩
    | cons b y =>
      have hab : a = b := (List.cons.inj h).1
      exact absurd (hab ▸ List.mem_cons_self) hy
  | cons c x ih =>
    cases y with
    | nil =>
      have hca : c = a := (List.cons.inj h).1
      exact absurd (hca ▸ List.mem_cons_self) hx
    | cons b y =>
      obtain ⟨rfl, htail⟩ := List.cons.inj h
      obtain ⟨rfl, rfl⟩ := ih (fun hm => hx (List.mem_cons_of_mem _ hm))
        (fun hm => hy (List.mem_cons_of_mem _ hm)) htail
      exact ⟨rfl, rfl⟩

/-- INTERNAL: two ways to cut one list at a separator are the same, or one cuts further to
the right. -/
theorem append_cons_eq_iff :
    x ++ a :: y = z ++ a :: w ↔
      (x = z ∧ y = w) ∨ (∃ m, z = x ++ a :: m ∧ y = m ++ a :: w) ∨
        ∃ m, x = z ++ a :: m ∧ w = m ++ a :: y := by
  constructor
  · intro h
    rcases List.append_eq_append_iff.mp h with ⟨m, hz, hy⟩ | ⟨m, hx, hw⟩
    · cases m with
      | nil =>
        left
        exact ⟨by simpa using hz.symm, (List.cons.inj hy).2⟩
      | cons b m =>
        right
        left
        obtain ⟨rfl, hrest⟩ := List.cons.inj hy
        exact ⟨m, hz, hrest⟩
    · cases m with
      | nil =>
        left
        exact ⟨by simpa using hx, (List.cons.inj hw).2.symm⟩
      | cons b m =>
        right
        right
        obtain ⟨rfl, hrest⟩ := List.cons.inj hw
        exact ⟨m, hx, hrest⟩
  · rintro (⟨rfl, rfl⟩ | ⟨m, rfl, rfl⟩ | ⟨m, rfl, rfl⟩) <;> simp

/-- What is before the first separator and what is after it, if there is one. -/
def splitOnce [DecidableEq α] (a : α) : List α → Option (List α × List α)
  | [] => none
  | b :: x =>
    if b = a then some ([], x)
    else (splitOnce a x).map fun yz => (b :: yz.1, yz.2)

/-- INTERNAL: a list is not split exactly when the separator is not in it. -/
theorem splitOnce_eq_none_iff [DecidableEq α] : splitOnce a x = none ↔ a ∉ x := by
  induction x with
  | nil => simp [splitOnce]
  | cons b x ih =>
    unfold splitOnce
    split
    · rename_i hb
      simp [hb]
    · rename_i hb
      rw [Option.map_eq_none_iff, ih, List.mem_cons, not_or]
      exact ⟨fun hx => ⟨Ne.symm hb, hx⟩, And.right⟩

/-- INTERNAL: a list is split at the first separator. -/
theorem splitOnce_append_cons [DecidableEq α] (hy : a ∉ y) :
    splitOnce a (y ++ a :: z) = some (y, z) := by
  induction y with
  | nil => exact if_pos rfl
  | cons b y ih =>
    have hb : b ≠ a := by
      rintro rfl
      exact hy List.mem_cons_self
    rw [List.cons_append, splitOnce, if_neg hb, ih fun h => hy (List.mem_cons_of_mem _ h)]
    rfl

/-- INTERNAL: what a list is split into. -/
theorem splitOnce_eq_some [DecidableEq α] (h : splitOnce a x = some (y, z)) :
    x = y ++ a :: z ∧ a ∉ y := by
  induction x generalizing y with
  | nil => cases h
  | cons b x ih =>
    unfold splitOnce at h
    split at h
    · rename_i hb
      obtain ⟨rfl, rfl⟩ := Prod.mk.inj (Option.some.inj h)
      exact ⟨by rw [hb, List.nil_append], List.not_mem_nil⟩
    · rename_i hb
      obtain ⟨⟨y', z'⟩, hsplit, hyz⟩ := Option.map_eq_some_iff.mp h
      obtain ⟨rfl, rfl⟩ := Prod.mk.inj hyz
      obtain ⟨rfl, hy⟩ := ih hsplit
      refine ⟨rfl, ?_⟩
      intro hmem
      rcases List.mem_cons.mp hmem with rfl | hmem
      · exact hb rfl
      · exact hy hmem

/-- INTERNAL: what comes after the separator is shorter. -/
theorem length_of_splitOnce [DecidableEq α] (h : splitOnce a x = some (y, z)) :
    z.length < x.length := by
  obtain ⟨rfl, -⟩ := splitOnce_eq_some h
  rw [List.length_append, List.length_cons]
  omega

end List

/-- The second pair is the first with a part of its second text moved to the first one. -/
def Regrouped (sep : String) (p q : String × String) : Prop :=
  ∃ m, q.1 = p.1 ++ sep ++ m ∧ p.2 = m ++ sep ++ q.2

/-- INTERNAL: pairs that are regrouped differ. -/
theorem Regrouped.ne {sep : String} {p q : String × String} (h : Regrouped sep p q)
    (hsep : sep ≠ "") : p ≠ q := by
  rintro rfl
  obtain ⟨m, hq, -⟩ := h
  have hlength := congrArg String.length hq
  simp only [String.length_append] at hlength
  have hpos : sep.length ≠ 0 := fun h0 => hsep (String.length_eq_zero_iff.mp h0)
  omega

section

variable {sep : String} {c : Char} (hsep : sep.toList = [c]) (p q : String × String)

include hsep

/-- INTERNAL: the characters of two joined texts. -/
theorem toList_join : (p.1 ++ sep ++ p.2).toList = p.1.toList ++ c :: p.2.toList := by
  rw [String.toList_append, String.toList_append, hsep, List.append_assoc, List.singleton_append]

/-- INTERNAL: pairs are regrouped when the text between their separators changes sides. -/
theorem regrouped_iff :
    Regrouped sep p q ↔
      ∃ m, q.1.toList = p.1.toList ++ c :: m ∧ p.2.toList = m ++ c :: q.2.toList := by
  constructor
  · rintro ⟨m, hq, hp⟩
    refine ⟨m.toList, ?_, ?_⟩
    · rw [hq, toList_join hsep (p.1, m)]
    · rw [hp, toList_join hsep (m, q.2)]
  · rintro ⟨m, hq, hp⟩
    refine ⟨String.ofList m, ?_, ?_⟩
    · apply String.toList_inj.mp
      rw [hq, toList_join hsep (p.1, String.ofList m), String.toList_ofList]
    · apply String.toList_inj.mp
      rw [hp, toList_join hsep (String.ofList m, q.2), String.toList_ofList]

/-- **Two pairs are joined to one text exactly if they are the same or regrouped**, for a
separator of one character. -/
theorem join_eq_iff :
    p.1 ++ sep ++ p.2 = q.1 ++ sep ++ q.2 ↔ p = q ∨ Regrouped sep p q ∨ Regrouped sep q p := by
  rw [← String.toList_inj, toList_join hsep, toList_join hsep, append_cons_eq_iff,
    regrouped_iff hsep p q, regrouped_iff hsep q p, String.toList_inj, String.toList_inj,
    Prod.ext_iff]

end

end EventBus.Lib
