/-
# The compact form tells values apart

Values that are written in the same way are equal, if their numbers are whole.  What is shown
along a value is more: its form also tells where it ends in a longer text, as long as nothing
goes on with a number (`Ends`), and so no two containers are written in the same way either.

The first character of a form tells the kind of the value (`kindOf?`).  A string ends at the
first quote that no backslash belongs to, a number with its digits, and a container where a
closing character stands in the place of a comma (`listed_append_injective`).
-/
import Concolic.Proofs.Json.RoundTrip

namespace Concolic.Json

open Parse

/-! ## First characters -/

/-- The sorts of values. -/
inductive Kind where
  /-- Nothing. -/
  | null
  /-- One of the truth values. -/
  | bool (b : Bool)
  /-- A number without a sign. -/
  | unsigned
  /-- A number with a sign. -/
  | signed
  /-- A text. -/
  | string
  /-- A sequence. -/
  | array
  /-- Named values. -/
  | object
  deriving DecidableEq

/-- The kind of a value. -/
def kind : Json → Kind
  | .null => .null
  | .bool b => .bool b
  | .number (.negative _) => .signed
  | .number _ => .unsigned
  | .string _ => .string
  | .array _ => .array
  | .object _ => .object

/-- The kind of the values that begin with a character, if there are such values. -/
def kindOf? (c : Char) : Option Kind :=
  if c.isDigit then some .unsigned
  else match c with
    | 'n' => some .null
    | 't' => some (.bool true)
    | 'f' => some (.bool false)
    | '-' => some .signed
    | '"' => some .string
    | '[' => some .array
    | '\x7b' => some .object
    | _ => none

lemma exists_chars_eq_cons (j : Json) : ∃ c cs, j.chars = c :: cs ∧ kindOf? c = some j.kind := by
  cases j with
  | null => exact ⟨_, _, rfl, rfl⟩
  | bool b => cases b <;> exact ⟨_, _, rfl, rfl⟩
  | number n =>
    cases n with
    | natural n =>
      obtain ⟨c, cs, hdigits⟩ := List.exists_cons_of_ne_nil (Nat.toDigits_ne_nil (b := 10) (n := n))
      have hdigits : digitChars n = c :: cs := hdigits
      have hc : c.isDigit = true := isDigit_of_mem_digitChars c (by rw [hdigits]; exact .head _)
      exact ⟨c, cs, hdigits, if_pos hc⟩
    | negative n => exact ⟨_, _, rfl, rfl⟩
    | real => exact ⟨_, _, rfl, rfl⟩
  | string s => exact ⟨_, _, rfl, rfl⟩
  | array items => exact ⟨_, _, chars_array items, rfl⟩
  | object fields => exact ⟨_, _, chars_object fields, rfl⟩

lemma kind_eq_of_chars_append_eq {j j' : Json} {rest rest' : List Char}
    (h : j.chars ++ rest = j'.chars ++ rest') : j.kind = j'.kind := by
  obtain ⟨c, cs, hj, hc⟩ := exists_chars_eq_cons j
  obtain ⟨c', cs', hj', hc'⟩ := exists_chars_eq_cons j'
  rw [hj, hj', List.cons_append, List.cons_append] at h
  rw [(List.cons.inj h).1, hc'] at hc
  exact (Option.some.inj hc).symm

/-- No value begins like the end of a container. -/
lemma chars_append_ne {j : Json} {closing : Char} (hclosing : closing = ']' ∨ closing = '\x7d')
    (rest cs : List Char) : j.chars ++ rest ≠ closing :: cs := by
  obtain ⟨c, cs', hj, hc⟩ := exists_chars_eq_cons j
  rw [hj, List.cons_append]
  intro h
  have hnone : kindOf? closing = none := by rcases hclosing with rfl | rfl <;> rfl
  rw [(List.cons.inj h).1, hnone] at hc
  exact nomatch hc

/-! ## Where a form ends -/

/-- In a longer text the forms of `a` and `b` take the same characters only if `a` and `b` are
the same. -/
def ToldApart {α : Type} (chars : α → List Char) (a b : α) : Prop :=
  ∀ rest rest', Ends rest → Ends rest' → chars a ++ rest = chars b ++ rest' → a = b ∧ rest = rest'

lemma digitChars_append_injective {n n' : Nat} {rest rest' : List Char} (hrest : Ends rest)
    (hrest' : Ends rest') (h : digitChars n ++ rest = digitChars n' ++ rest') :
    n = n' ∧ rest = rest' := by
  have hread := digits_digitChars n hrest
  rw [h, digits_digitChars n' hrest'] at hread
  obtain ⟨hdigits, hrest⟩ := Prod.mk.inj (Except.ok.inj hread)
  refine ⟨?_, hrest.symm⟩
  rw [← valueTo_digitChars n, ← valueTo_digitChars n', hdigits]

lemma quotedChars_append_injective {s s' : String} {rest rest' : List Char}
    (h : quotedChars s ++ rest = quotedChars s' ++ rest') : s = s' ∧ rest = rest' := by
  have htext : ∀ (s : String) (rest : List Char),
      quotedChars s ++ rest = '"' :: (s.toList.flatMap escaped ++ '"' :: rest) := by
    simp [quotedChars]
  rw [htext, htext] at h
  have hread := quotedText_content s rest
  rw [(List.cons.inj h).2, quotedText_content s' rest'] at hread
  obtain ⟨hs, hrest⟩ := Prod.mk.inj (Except.ok.inj hread)
  exact ⟨hs.symm, hrest.symm⟩

section Containers

variable {α : Type} {chars : α → List Char} {closing : Char} {as bs : List α}
  {rest rest' : List Char}

lemma following_append_injective (hclosing : closing = ']' ∨ closing = '\x7d')
    (hitems : ∀ a ∈ as, ∀ b ∈ bs, ToldApart chars a b)
    (h : following chars as closing ++ rest = following chars bs closing ++ rest') :
    as = bs ∧ rest = rest' := by
  have hcomma : closing ≠ ',' := by rcases hclosing with rfl | rfl <;> decide
  have hcons : ∀ (a : α) (as : List α) (rest : List Char), following chars (a :: as) closing ++ rest
      = ',' :: (chars a ++ (following chars as closing ++ rest)) := by simp [following]
  have hnil : ∀ rest : List Char, following chars [] closing ++ rest = closing :: rest :=
    fun _ => rfl
  induction as generalizing bs with
  | nil =>
    cases bs with
    | nil => exact ⟨rfl, (List.cons.inj h).2⟩
    | cons b bs =>
      rw [hnil, hcons] at h
      exact absurd (List.cons.inj h).1 hcomma
  | cons a as ih =>
    cases bs with
    | nil =>
      rw [hnil, hcons] at h
      exact absurd (List.cons.inj h).1.symm hcomma
    | cons b bs =>
      rw [hcons, hcons] at h
      obtain ⟨rfl, hafter⟩ := hitems a (.head _) b (.head _) _ _
        (ends_following hclosing rest) (ends_following hclosing rest') (List.cons.inj h).2
      obtain ⟨rfl, hrest⟩ :=
        ih (fun a ha b hb => hitems a (.tail _ ha) b (.tail _ hb)) hafter
      exact ⟨rfl, hrest⟩

/-- Items are told apart by where the commas stand, if no item begins like the end. -/
lemma listed_append_injective (hclosing : closing = ']' ∨ closing = '\x7d')
    (hbegin : ∀ a rest cs, chars a ++ rest ≠ closing :: cs)
    (hitems : ∀ a ∈ as, ∀ b ∈ bs, ToldApart chars a b)
    (h : listed chars closing as ++ rest = listed chars closing bs ++ rest') :
    as = bs ∧ rest = rest' := by
  cases as with
  | nil =>
    cases bs with
    | nil => exact ⟨rfl, (List.cons.inj h).2⟩
    | cons b bs =>
      rw [listed, listed, List.append_assoc] at h
      exact absurd h.symm (hbegin b _ _)
  | cons a as =>
    cases bs with
    | nil =>
      rw [listed, listed, List.append_assoc] at h
      exact absurd h (hbegin a _ _)
    | cons b bs =>
      rw [listed, listed, List.append_assoc, List.append_assoc] at h
      obtain ⟨rfl, hafter⟩ := hitems a (.head _) b (.head _) _ _
        (ends_following hclosing rest) (ends_following hclosing rest') h
      obtain ⟨rfl, hrest⟩ := following_append_injective hclosing
        (fun a ha b hb => hitems a (.tail _ ha) b (.tail _ hb)) hafter
      exact ⟨rfl, hrest⟩

end Containers

/-! ## Values -/

/-- All numbers in the value are whole. -/
inductive IsWhole : Json → Prop
  | null : IsWhole .null
  | bool (b : Bool) : IsWhole (.bool b)
  | natural (n : Nat) : IsWhole (.natural n)
  | negative (n : Nat) : IsWhole (.number (.negative n))
  | string (s : String) : IsWhole (.string s)
  | array {items : List Json} : (∀ j ∈ items, IsWhole j) → IsWhole (.array items)
  | object {fields : List (String × Json)} : (∀ f ∈ fields, IsWhole f.2) →
    IsWhole (.object fields)

lemma toldApart_field {f f' : String × Json} (h : ToldApart chars f.2 f'.2) :
    ToldApart fieldChars f f' := by
  obtain ⟨name, value⟩ := f
  obtain ⟨name', value'⟩ := f'
  intro rest rest' hrest hrest' heq
  rw [fieldChars, fieldChars, List.append_assoc, List.append_assoc] at heq
  obtain ⟨rfl, hvalue⟩ := quotedChars_append_injective heq
  obtain ⟨rfl, hrest⟩ := h rest rest' hrest hrest' (List.cons.inj hvalue).2
  exact ⟨rfl, hrest⟩

/-- Only forms that begin alike need to be told apart. -/
lemma toldApart_of_kind {j j' : Json} (h : j.kind = j'.kind → ToldApart chars j j') :
    ToldApart chars j j' :=
  fun rest rest' hrest hrest' heq =>
    h (kind_eq_of_chars_append_eq heq) rest rest' hrest hrest' heq

/-- The form of a value tells the value, and where it ends. -/
lemma toldApart_chars {j j' : Json} (hj : IsWhole j) (hj' : IsWhole j') :
    ToldApart chars j j' := by
  induction hj generalizing j' with
  | null =>
    refine toldApart_of_kind fun hkind _ _ _ _ h => ?_
    cases hj' with
    | null => exact ⟨rfl, List.append_cancel_left h⟩
    | _ => cases hkind
  | bool b =>
    refine toldApart_of_kind fun hkind _ _ _ _ h => ?_
    cases hj' with
    | bool b' =>
      obtain rfl : b = b' := Kind.bool.inj hkind
      exact ⟨rfl, List.append_cancel_left h⟩
    | _ => cases hkind
  | natural n =>
    refine toldApart_of_kind fun hkind _ _ hrest hrest' h => ?_
    cases hj' with
    | natural n' =>
      obtain ⟨rfl, hrest⟩ := digitChars_append_injective hrest hrest' h
      exact ⟨rfl, hrest⟩
    | _ => cases hkind
  | negative n =>
    refine toldApart_of_kind fun hkind _ _ hrest hrest' h => ?_
    cases hj' with
    | negative n' =>
      obtain ⟨rfl, hrest⟩ := digitChars_append_injective hrest hrest' (List.cons.inj h).2
      exact ⟨rfl, hrest⟩
    | _ => cases hkind
  | string s =>
    refine toldApart_of_kind fun hkind _ _ _ _ h => ?_
    cases hj' with
    | string s' =>
      obtain ⟨rfl, hrest⟩ := quotedChars_append_injective h
      exact ⟨rfl, hrest⟩
    | _ => cases hkind
  | array _ ih =>
    refine toldApart_of_kind fun hkind _ _ _ _ h => ?_
    cases hj' with
    | array hitems =>
      rw [chars_array, chars_array] at h
      obtain ⟨rfl, hrest⟩ := listed_append_injective (.inl rfl)
        (fun _ => chars_append_ne (.inl rfl)) (fun j hj j' hj' => ih j hj (hitems j' hj'))
        (List.cons.inj h).2
      exact ⟨rfl, hrest⟩
    | _ => cases hkind
  | object _ ih =>
    refine toldApart_of_kind fun hkind _ _ _ _ h => ?_
    cases hj' with
    | object hfields =>
      rw [chars_object, chars_object] at h
      obtain ⟨rfl, hrest⟩ := listed_append_injective (.inr rfl) (by simp [fieldChars, quotedChars])
        (fun f hf f' hf' => toldApart_field (ih f hf (hfields f' hf'))) (List.cons.inj h).2
      exact ⟨rfl, hrest⟩
    | _ => cases hkind

/-- Values with whole numbers are equal if they are written in the same way. -/
theorem print_injective {j j' : Json} (hj : IsWhole j) (hj' : IsWhole j')
    (h : j.print = j'.print) : j = j' := by
  have hchars : j.chars = j'.chars := String.ofList_injective h
  exact (toldApart_chars hj hj' [] [] ends_nil ends_nil (congrArg (· ++ []) hchars)).1

end Concolic.Json
