/-
# Blanks around a text

What is left of a text without the blanks at its ends is a part of it: there is nothing but
blanks around this part, and it neither begins nor ends with one.  This says which part it is
(`trim_eq_iff`).
-/
import Concolic.Text.Blank
import Mathlib.Data.List.DropRight

namespace Concolic.Text

/-- The second text is the first one without the blanks at its ends. -/
structure IsTrimmed (s t : String) : Prop where
  /-- Nothing but blanks is around it. -/
  around : ∃ front back, s.toList = front ++ t.toList ++ back ∧
    (∀ c ∈ front, isBlank c = true) ∧ ∀ c ∈ back, isBlank c = true
  /-- It begins with no blank. -/
  begins : ∀ c ∈ t.toList.head?, isBlank c = false
  /-- It ends with no blank. -/
  ends : ∀ c ∈ t.toList.getLast?, isBlank c = false

variable {s t : String} {cs front back : List Char}

/-! ## Blanks at the end -/

lemma dropBlankEnd_eq (cs : List Char) : dropBlankEnd cs = cs.rdropWhile isBlank := rfl

lemma dropBlankEnd_append (hback : ∀ c ∈ back, isBlank c = true) (cs : List Char) :
    dropBlankEnd (cs ++ back) = dropBlankEnd cs := by
  rw [dropBlankEnd, dropBlankEnd, List.reverse_append,
    List.dropWhile_append_of_pos fun c hc => hback c (List.mem_reverse.mp hc)]

lemma dropBlankEnd_eq_self (hends : ∀ c ∈ cs.getLast?, isBlank c = false) :
    dropBlankEnd cs = cs := by
  rw [dropBlankEnd_eq, List.rdropWhile_eq_self_iff]
  intro hne
  simp [hends _ (List.getLast?_eq_some_getLast hne)]

lemma trimEnd_line {c : Char} (hc : isBlank c = false) :
    trimEnd (String.ofList (cs ++ [c]) ++ "\n") = String.ofList (cs ++ [c]) := by
  have hblank : isBlank '\n' = true := by decide
  have hbreak : ∀ c ∈ ['\n'], isBlank c = true := List.forall_mem_singleton.mpr hblank
  have hends : ∀ c' ∈ (cs ++ [c]).getLast?, isBlank c' = false := by simpa using hc
  rw [trimEnd, String.toList_append, String.toList_ofList]
  exact congrArg String.ofList ((dropBlankEnd_append hbreak _).trans (dropBlankEnd_eq_self hends))

/-! ## Blanks at both ends -/

lemma isTrimmed_trim (s : String) : IsTrimmed s (trim s) := by
  have hprefix : strip s.toList <+: s.toList.dropWhile isBlank := List.rdropWhile_prefix isBlank _
  refine ⟨⟨s.toList.takeWhile isBlank, (s.toList.dropWhile isBlank).rtakeWhile isBlank, ?_,
    fun c hc => List.mem_takeWhile_imp hc, fun c hc => List.mem_rtakeWhile_imp hc⟩, ?_, ?_⟩
  · rw [trim, String.toList_ofList, strip, dropBlankEnd_eq, List.append_assoc,
      List.rdropWhile_append_rtakeWhile, List.takeWhile_append_dropWhile]
  · -- the first character that is not blank stays in front when the end is cut
    rw [trim, String.toList_ofList]
    intro c hc
    obtain ⟨rest, hrest⟩ := List.head?_eq_some_iff.mp hc
    obtain ⟨cut, hcut⟩ := hprefix
    have hhead := List.head?_dropWhile_not isBlank s.toList
    rw [← hcut, hrest] at hhead
    simpa using hhead
  · rw [trim, String.toList_ofList]
    intro c hc
    obtain ⟨hne, rfl⟩ := List.mem_getLast?_eq_getLast hc
    exact Bool.eq_false_iff.mpr (List.rdropWhile_last_not isBlank _ hne)

lemma IsTrimmed.trim_eq (h : IsTrimmed s t) : trim s = t := by
  obtain ⟨⟨front, back, heq, hfront, hback⟩, hbegins, hends⟩ := h
  rw [trim, strip, heq, List.append_assoc, List.dropWhile_append_of_pos hfront]
  have hkept : (t.toList ++ back).dropWhile isBlank = t.toList ++ back ∨ t.toList = [] := by
    rcases hchars : t.toList with _ | ⟨c, cs⟩
    · exact .inr rfl
    · rw [hchars] at hbegins
      exact .inl (List.dropWhile_cons_of_neg (by simp [hbegins c rfl]))
  rcases hkept with hkept | hempty
  · rw [hkept, dropBlankEnd_append hback, dropBlankEnd_eq_self hends, String.ofList_toList]
  · -- all is blank
    rw [hempty, List.nil_append, List.dropWhile_eq_nil_iff.mpr hback]
    exact (String.toList_eq_nil_iff.mp hempty).symm

/-- **Without the blanks at its ends, a text is the part of it around which there is nothing but
blanks and that neither begins nor ends with one.** -/
lemma trim_eq_iff : trim s = t ↔ IsTrimmed s t := by
  constructor
  · rintro rfl
    exact isTrimmed_trim s
  · exact IsTrimmed.trim_eq

lemma trim_trim (s : String) : trim (trim s) = trim s := by
  obtain ⟨-, hbegins, hends⟩ := isTrimmed_trim s
  exact trim_eq_iff.mpr ⟨⟨[], [], by simp, by simp, by simp⟩, hbegins, hends⟩

end Concolic.Text
