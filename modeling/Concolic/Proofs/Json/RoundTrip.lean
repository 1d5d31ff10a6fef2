/-
# The compact form is read back

A value that is written in its compact form is got back by reading, if it fits: its numbers are
whole and hold in 64 bits, and its containers do not lie deeper in one another than is read.

Reading a value takes its characters off a text and leaves what follows.  A number has no end
of its own, so what follows must not go on with it: `Ends` says what stands behind a value, and
`Reads` says of one step of reading what is shown of all of them.  A container is read item by
item, and this is shown once, for items and fields alike (`items_listed`); then `reads_value`
goes along the value.
-/
import Concolic.Json.Parser
import Concolic.Proofs.Json.Compact
import Concolic.Proofs.Text.Parse

namespace Concolic.Json

open Parse

variable {rest : List Char}

/-! ## What may follow a value -/

/-- Nothing follows, or a comma or the end of a container. -/
def Ends (rest : List Char) : Prop := ∀ c ∈ rest.head?, c = ',' ∨ c = ']' ∨ c = '\x7d'

lemma ends_nil : Ends [] := by simp [Ends]

lemma ends_cons {c : Char} (h : c = ',' ∨ c = ']' ∨ c = '\x7d') : Ends (c :: rest) := by
  intro d hd
  obtain rfl : c = d := by simpa using hd
  exact h

/-- Reading takes these characters for the value and leaves what follows.  They begin with
neither white space nor the end of a container. -/
structure Reads {α : Type} (p : Parse α) (cs : List Char) (a : α) : Prop where
  starts : ∃ c cs', cs = c :: cs' ∧ isSpace c = false ∧ c ≠ ']' ∧ c ≠ '\x7d'
  takes : ∀ rest, Ends rest → p (cs ++ rest) = .ok (a, rest)

lemma space_of_head {cs : List Char} (h : ∀ c ∈ cs.head?, isSpace c = false) :
    space cs = .ok ((), cs) := by
  have htake : takeWhile isSpace ([] ++ cs) = .ok ([], cs) := takeWhile_append (by simp) h
  exact bind_of_ok htake

lemma space_of_ends (h : Ends rest) : space rest = .ok ((), rest) := by
  refine space_of_head fun c hc => ?_
  rcases h c hc with rfl | rfl | rfl <;> decide

lemma Reads.space_append {α : Type} {p : Parse α} {cs : List Char} {a : α} (h : Reads p cs a)
    (rest : List Char) : space (cs ++ rest) = .ok ((), cs ++ rest) := by
  obtain ⟨c, cs', rfl, hspace, -, -⟩ := h.starts
  exact space_of_head (by simpa using hspace)

/-! ## Strings -/

lemma unit?_control : ∀ n < 0x20,
    unit? '0' '0' (Hex.digit (n / 16)) (Hex.digit (n % 16)) = some n := by decide

lemma stringRest_escaped (c : Char) (rest : List Char) :
    stringRest (escaped c ++ rest) = before (some c) (stringRest rest) := by
  unfold escaped
  split
  case h_8 hquote hslash _ _ _ _ _ =>
    split
    · rename_i hcontrol
      have hc : c.toNat < 0x20 := hcontrol
      have hunit : ofUnit? c.toNat = some c := by
        rw [ofUnit?, if_neg (by simp; omega), Char.ofNat_toNat]
      simp only [List.cons_append, List.nil_append]
      rw [stringRest, unit?_control c.toNat hc]
      simp only [hunit]
    · rename_i hcontrol
      rw [List.singleton_append, stringRest.eq_6 _ _ hquote (fun _ _ _ _ _ h _ => hslash h)
        (fun _ _ h _ => hslash h) (fun h _ => hslash h), if_neg hcontrol]
  all_goals
    rw [List.cons_append, List.singleton_append, stringRest.eq_4 _ _ (by simp)]
    rfl

lemma stringRest_content (content rest : List Char) :
    stringRest (content.flatMap escaped ++ '"' :: rest) = some (content, rest) := by
  induction content with
  | nil => rw [List.flatMap_nil, List.nil_append, stringRest]
  | cons c content ih =>
    rw [List.flatMap_cons, List.append_assoc, stringRest_escaped, ih]
    rfl

lemma quotedText_content (s : String) (rest : List Char) :
    quotedText (s.toList.flatMap escaped ++ '"' :: rest) = .ok (s, rest) := by
  rw [quotedText, stringRest_content]
  simp

/-! ## Numbers -/

lemma isDigit_of_mem_digitChars {n : Nat} : ∀ c ∈ digitChars n, c.isDigit = true :=
  fun _ hc => Nat.isDigit_of_mem_toDigits (by decide) (by decide) hc

lemma digitTo?_of_isDigit {c : Char} (h : c.isDigit = true) :
    Numeral.digitTo? 10 c = some (c.toNat - 48) := by
  have hbound : c.toNat - 48 < 10 := by
    have hnine : c.toNat ≤ 57 := by
      simp only [Char.isDigit, Bool.and_eq_true, decide_eq_true_eq] at h
      exact h.2
    omega
  rw [Numeral.digitTo?, if_pos h]
  exact if_pos hbound

lemma valueTo_digitChars (n : Nat) : Numeral.valueTo 10 (digitChars n) = n := by
  have hfold : ∀ (cs : List Char) (acc : Nat), (∀ c ∈ cs, c.isDigit = true) →
      cs.foldl (fun n c => n * 10 + (Numeral.digitTo? 10 c).getD 0) acc
        = Nat.ofDigitChars 10 cs acc := by
    intro cs
    induction cs with
    | nil => intro acc _; rfl
    | cons c cs ih =>
      intro acc hcs
      obtain ⟨hc, hcs⟩ := List.forall_mem_cons.mp hcs
      rw [List.foldl_cons, digitTo?_of_isDigit hc, ih _ hcs, Nat.ofDigitChars_cons, Nat.mul_comm]
      rfl
  rw [Numeral.valueTo, hfold _ _ isDigit_of_mem_digitChars, digitChars,
    Nat.ofDigitChars_ten_toDigits]

lemma head?_digitChars_ne {n : Nat} (h : 0 < n) : (digitChars n).head? ≠ some '0' := by
  have hdigit : ∀ d < 10, 0 < d → [d.digitChar].head? ≠ some '0' := by decide
  induction n using Nat.strongRecOn with
  | ind n ih =>
    rcases Nat.lt_or_ge n 10 with hn | hn
    · rw [digitChars, Nat.toDigits_of_lt_base hn]
      exact hdigit n hn h
    · -- the first digit is that of a tenth of the number
      have hhead : (digitChars n).head? = (digitChars (n / 10)).head? := by
        rw [digitChars, Nat.toDigits_of_base_le (by decide) hn, List.head?_append, ← digitChars]
        rcases hd : digitChars (n / 10) with _ | ⟨c, cs⟩
        · exact absurd hd Nat.toDigits_ne_nil
        · rfl
      rw [hhead]
      exact ih (n / 10) (by omega) (by omega)

/-- A number is written without digits that count for nothing. -/
lemma check_digitChars (n : Nat) (cs : List Char) :
    check (decide ((digitChars n).length = 1) || decide ((digitChars n).head? ≠ some '0')) cs
      = .ok ((), cs) := by
  have hdigits : (decide ((digitChars n).length = 1)
      || decide ((digitChars n).head? ≠ some '0')) = true := by
    rcases Nat.eq_zero_or_pos n with rfl | hpos
    · decide
    · simp [head?_digitChars_ne hpos]
  rw [hdigits]
  rfl

lemma digits_digitChars (n : Nat) (hrest : Ends rest) :
    digits (digitChars n ++ rest) = .ok (digitChars n, rest) := by
  have hstop : ∀ c ∈ rest.head?, c.isDigit = false := by
    intro c hc
    rcases hrest c hc with rfl | rfl | rfl <;> decide
  have hne : (digitChars n).isEmpty = false := by
    simp [digitChars]
  rw [digits, bind_of_ok (takeWhile_append isDigit_of_mem_digitChars hstop), hne]
  rfl

lemma fraction_of_ends (hrest : Ends rest) : fraction rest = .ok ([], rest) := by
  cases rest with
  | nil => rfl
  | cons c rest =>
    have hne : c ≠ '.' := by rcases hrest c rfl with rfl | rfl | rfl <;> decide
    rw [fraction, bind_of_ok (accept_of_head_ne rfl hne)]
    rfl

lemma exponent_of_ends (hrest : Ends rest) : exponent rest = .ok (none, rest) := by
  cases rest with
  | nil => rfl
  | cons c rest => rcases hrest c rfl with rfl | rfl | rfl <;> rfl

lemma numeral_natural {n : Nat} (hn : n < Numeral.wordLimit) (hrest : Ends rest) :
    numeral false (digitChars n ++ rest) = .ok (.natural n, rest) := by
  rw [numeral, bind_of_ok (digits_digitChars n hrest), bind_of_ok (check_digitChars n rest),
    bind_of_ok (fraction_of_ends hrest), bind_of_ok (exponent_of_ends hrest)]
  simp only [valueTo_digitChars, List.isEmpty_nil, Option.isNone_none, Bool.and_self, if_true,
    Bool.false_eq_true, if_false, hn]
  rfl

lemma numeral_negative {n : Nat} (hpos : n ≠ 0) (hn : n ≤ Numeral.signedLimit)
    (hrest : Ends rest) : numeral true (digitChars n ++ rest) = .ok (.negative n, rest) := by
  have hbound : (decide (n ≠ 0) && decide (n ≤ Numeral.signedLimit)) = true := by
    simp [hpos, hn]
  rw [numeral, bind_of_ok (digits_digitChars n hrest), bind_of_ok (check_digitChars n rest),
    bind_of_ok (fraction_of_ends hrest), bind_of_ok (exponent_of_ends hrest)]
  simp only [valueTo_digitChars, List.isEmpty_nil, Option.isNone_none, Bool.and_self, if_true,
    hbound]
  rfl

/-! ## Values that are no container -/

lemma ne_of_isDigit {c d : Char} (hc : c.isDigit = true) (hd : d.isDigit = false) : c ≠ d := by
  rintro rfl
  exact absurd (hc.symm.trans hd) (by decide)

lemma scalar_of_isDigit {c : Char} {cs : List Char} (h : c.isDigit = true) :
    scalar (c :: cs) = (.number <$> numeral false : Parse Json) (c :: cs) := by
  rw [scalar, ifAccept_of_head_ne rfl (ne_of_isDigit h rfl),
    ifAccept_of_head_ne rfl (ne_of_isDigit h rfl), ifAccept_of_head_ne rfl (ne_of_isDigit h rfl),
    ifAccept_of_head_ne rfl (ne_of_isDigit h rfl), ifAccept_of_head_ne rfl (ne_of_isDigit h rfl)]

lemma value_eq_scalar {c : Char} {cs : List Char} (harray : c ≠ '[') (hobject : c ≠ '\x7b')
    (depth : Nat) : value depth (c :: cs) = scalar (c :: cs) := by
  cases depth with
  | zero => rfl
  | succ depth =>
    rw [value, ifAccept_of_head_ne rfl harray, ifAccept_of_head_ne rfl hobject]

/-! ## Containers -/

/-- What stands behind the first item of a container: further items, each behind a comma, and
the closing character. -/
def following {α : Type} (chars : α → List Char) (as : List α) (closing : Char) : List Char :=
  as.flatMap (fun a => ',' :: chars a) ++ [closing]

/-- What stands behind the opening character of a container. -/
def listed {α : Type} (chars : α → List Char) (closing : Char) : List α → List Char
  | [] => [closing]
  | a :: as => chars a ++ following chars as closing

lemma ends_following {α : Type} {chars : α → List Char} {as : List α} {closing : Char}
    (hclosing : closing = ']' ∨ closing = '\x7d') (rest : List Char) :
    Ends (following chars as closing ++ rest) := by
  cases as with
  | nil => exact ends_cons (.inr hclosing)
  | cons a as => exact ends_cons (.inl rfl)

section Containers

variable {α : Type} {item : Parse α} {chars : α → List Char} {as : List α} {closing : String}
  {c : Char}

lemma loop_following (hc : closing.toList = [c]) (hends : c = ']' ∨ c = '\x7d')
    (has : ∀ a ∈ as, Reads item (chars a) a) (rest : List Char) {fuel : Nat}
    (hfuel : as.length < fuel) :
    loop (accept closing) (do
        expect ","
        space
        let a ← item
        space
        pure a) fuel (following chars as c ++ rest) = .ok (as, rest) := by
  obtain ⟨fuel, rfl⟩ := Nat.exists_eq_add_one_of_ne_zero (Nat.ne_zero_of_lt hfuel)
  induction as generalizing fuel with
  | nil =>
    rw [loop]
    exact ifAccept_head hc
  | cons a as ih =>
    obtain ⟨ha, has⟩ := List.forall_mem_cons.mp has
    have hcomma : ',' ≠ c := by rcases hends with rfl | rfl <;> decide
    have hafter : Ends (following chars as c ++ rest) := ends_following hends rest
    have htext : following chars (a :: as) c ++ rest
        = ',' :: (chars a ++ (following chars as c ++ rest)) := by
      simp [following]
    have hitem : (do
        expect ","
        space
        let a ← item
        space
        pure a : Parse α) (',' :: (chars a ++ (following chars as c ++ rest)))
          = .ok (a, following chars as c ++ rest) := by
      rw [bind_of_ok (expect_head rfl), bind_of_ok (ha.space_append _),
        bind_of_ok (ha.takes _ hafter), bind_of_ok (space_of_ends hafter)]
      rfl
    have hlength : as.length < fuel := by simpa using hfuel
    obtain ⟨fuel, rfl⟩ := Nat.exists_eq_add_one_of_ne_zero (Nat.ne_zero_of_lt hlength)
    rw [loop, htext, ifAccept_of_head_ne hc hcomma, bind_of_ok hitem,
      bind_of_ok (ih has fuel hlength)]
    rfl

lemma length_le_following : as.length ≤ (following chars as c).length := by
  have hflat : as.length ≤ (as.flatMap fun a => ',' :: chars a).length := by
    induction as with
    | nil => simp
    | cons a as ih =>
      rw [List.flatMap_cons, List.length_append, List.length_cons, List.length_cons]
      omega
  rw [following, List.length_append]
  omega

lemma space_listed (hends : c = ']' ∨ c = '\x7d') (has : ∀ a ∈ as, Reads item (chars a) a)
    (rest : List Char) :
    space (listed chars c as ++ rest) = .ok ((), listed chars c as ++ rest) := by
  cases as with
  | nil => exact space_of_ends (ends_cons (.inr hends))
  | cons a as =>
    rw [listed, List.append_assoc]
    exact (has a (.head _)).space_append _

lemma items_listed (hc : closing.toList = [c]) (hends : c = ']' ∨ c = '\x7d')
    (has : ∀ a ∈ as, Reads item (chars a) a) (rest : List Char) :
    items closing item (listed chars c as ++ rest) = .ok (as, rest) := by
  cases as with
  | nil => exact ifAccept_head hc
  | cons a as =>
    obtain ⟨ha, has⟩ := List.forall_mem_cons.mp has
    obtain ⟨d, cs, hcs, -, hbracket, hbrace⟩ := ha.starts
    have hafter : Ends (following chars as c ++ rest) := ends_following hends rest
    have hopen : accept closing (chars a ++ (following chars as c ++ rest))
        = .ok (false, chars a ++ (following chars as c ++ rest)) := by
      rw [hcs]
      exact accept_of_head_ne hc (by rcases hends with rfl | rfl <;> assumption)
    have hlength : as.length < (following chars as c ++ rest).length + 1 := by
      have hfollowing : as.length ≤ (following chars as c).length := length_le_following
      rw [List.length_append]
      omega
    rw [listed, List.append_assoc, items, bind_of_ok hopen]
    simp only [Bool.false_eq_true, if_false]
    rw [bind_of_ok (ha.takes _ hafter), bind_of_ok (space_of_ends hafter)]
    exact bind_of_ok (loop_following hc hends has rest hlength)

end Containers

lemma chars_array (items : List Json) :
    (Json.array items).chars = '[' :: listed chars ']' items := by
  have hitems : ∀ rest, itemsChars rest = rest.flatMap fun j => ',' :: chars j := by
    intro rest
    induction rest with
    | nil => rfl
    | cons item rest ih => rw [itemsChars, ih, List.flatMap_cons, List.cons_append]
  cases items with
  | nil => rfl
  | cons item rest => rw [chars, hitems, listed, following]

lemma chars_object (fields : List (String × Json)) :
    (Json.object fields).chars = '\x7b' :: listed fieldChars '\x7d' fields := by
  have hfields : ∀ rest, fieldsChars rest = rest.flatMap fun f => ',' :: fieldChars f := by
    intro rest
    induction rest with
    | nil => rfl
    | cons f rest ih => rw [fieldsChars, ih, List.flatMap_cons, List.cons_append]
  cases fields with
  | nil => rfl
  | cons f rest => rw [chars, hfields, listed, following]

/-! ## Values -/

/-- The value has a compact form that is read back: its containers lie in one another at most
as deep as the limit says, and its numbers are whole and fit 64 bits. -/
inductive Writable : Nat → Json → Prop
  | null {depth : Nat} : Writable depth .null
  | bool {depth : Nat} (b : Bool) : Writable depth (.bool b)
  | natural {depth n : Nat} : n < Numeral.wordLimit → Writable depth (.natural n)
  | negative {depth n : Nat} : n ≠ 0 → n ≤ Numeral.signedLimit →
    Writable depth (.number (.negative n))
  | string {depth : Nat} (s : String) : Writable depth (.string s)
  | array {depth : Nat} {items : List Json} : (∀ j ∈ items, Writable depth j) →
    Writable (depth + 1) (.array items)
  | object {depth : Nat} {fields : List (String × Json)} : (∀ f ∈ fields, Writable depth f.2) →
    Writable (depth + 1) (.object fields)

lemma reads_of_scalar {c : Char} {cs : List Char} {j : Json} {depth : Nat}
    (hspace : isSpace c = false) (hc : c ∉ ['[', ']', '\x7b', '\x7d'])
    (h : ∀ rest, Ends rest → scalar (c :: cs ++ rest) = .ok (j, rest)) :
    Reads (value depth) (c :: cs) j := by
  simp only [List.mem_cons, List.not_mem_nil, or_false, not_or] at hc
  obtain ⟨harray, hbracket, hobject, hbrace⟩ := hc
  refine ⟨⟨c, cs, rfl, hspace, hbracket, hbrace⟩, fun rest hrest => ?_⟩
  rw [List.cons_append, value_eq_scalar harray hobject]
  exact h rest hrest

lemma reads_digitChars {n depth : Nat} (hn : n < Numeral.wordLimit) :
    Reads (value depth) (digitChars n) (.natural n) := by
  obtain ⟨c, cs, hdigits⟩ := List.exists_cons_of_ne_nil (Nat.toDigits_ne_nil (b := 10) (n := n))
  have hdigits : digitChars n = c :: cs := hdigits
  have hc : c.isDigit = true := isDigit_of_mem_digitChars c (by rw [hdigits]; exact .head _)
  rw [hdigits]
  refine reads_of_scalar ?_ ?_ fun rest hrest => ?_
  · have hspace : c ≠ ' ' ∧ c ≠ '\t' ∧ c ≠ '\n' ∧ c ≠ '\r' :=
      ⟨ne_of_isDigit hc rfl, ne_of_isDigit hc rfl, ne_of_isDigit hc rfl, ne_of_isDigit hc rfl⟩
    simpa [isSpace, and_assoc] using hspace
  · simp [ne_of_isDigit hc (d := '[') rfl, ne_of_isDigit hc (d := ']') rfl,
      ne_of_isDigit hc (d := '\x7b') rfl, ne_of_isDigit hc (d := '\x7d') rfl]
  · rw [List.cons_append, scalar_of_isDigit hc, ← List.cons_append, ← hdigits]
    exact map_of_ok (numeral_natural hn hrest)

lemma reads_quotedChars {depth : Nat} (s : String) :
    Reads (value depth) (quotedChars s) (.string s) := by
  refine reads_of_scalar (by decide) (by decide) fun rest _ => ?_
  have htext : '"' :: (s.toList.flatMap escaped ++ ['"']) ++ rest
      = '"' :: (s.toList.flatMap escaped ++ '"' :: rest) := by simp
  rw [htext]
  exact map_of_ok (quotedText_content s rest)

lemma reads_array {depth : Nat} {items : List Json}
    (h : ∀ j ∈ items, Reads (value depth) j.chars j) :
    Reads (value (depth + 1)) (Json.array items).chars (.array items) := by
  rw [chars_array]
  refine ⟨⟨'[', _, rfl, by decide, by decide, by decide⟩, fun rest _ => ?_⟩
  rw [List.cons_append, value, ifAccept_head rfl, bind_of_ok (space_listed (.inl rfl) h rest)]
  exact map_of_ok (items_listed rfl (.inl rfl) h rest)

lemma reads_field {p : Parse Json} {name : String} {v : Json} (h : Reads p v.chars v) :
    Reads (field p) (fieldChars (name, v)) (name, v) where
  starts := ⟨'"', _, rfl, by decide, by decide, by decide⟩
  takes rest hrest := by
    have htext : fieldChars (name, v) ++ rest
        = '"' :: (name.toList.flatMap escaped ++ '"' :: ':' :: (v.chars ++ rest)) := by
      simp [fieldChars, quotedChars]
    rw [htext, field, bind_of_ok (expect_head rfl), bind_of_ok (quotedText_content name _),
      bind_of_ok (space_of_head (by simp [isSpace])), bind_of_ok (expect_head rfl),
      bind_of_ok (h.space_append rest), bind_of_ok (h.takes rest hrest)]
    rfl

lemma reads_object {depth : Nat} {fields : List (String × Json)}
    (h : ∀ f ∈ fields, Reads (value depth) f.2.chars f.2) :
    Reads (value (depth + 1)) (Json.object fields).chars (.object fields) := by
  have hfields : ∀ f ∈ fields, Reads (field (value depth)) (fieldChars f) f :=
    fun f hf => reads_field (h f hf)
  rw [chars_object]
  refine ⟨⟨'\x7b', _, rfl, by decide, by decide, by decide⟩, fun rest _ => ?_⟩
  rw [List.cons_append, value, ifAccept_of_head_ne rfl (by decide), ifAccept_head rfl,
    bind_of_ok (space_listed (.inr rfl) hfields rest)]
  exact map_of_ok (items_listed rfl (.inr rfl) hfields rest)

/-- What follows the value is left as it is. -/
lemma reads_value {depth : Nat} {j : Json} (h : Writable depth j) :
    Reads (value depth) j.chars j := by
  induction h with
  | null => exact reads_of_scalar (by decide) (by decide) fun _ _ => rfl
  | bool b =>
    cases b with
    | false => exact reads_of_scalar (by decide) (by decide) fun _ _ => rfl
    | true => exact reads_of_scalar (by decide) (by decide) fun _ _ => rfl
  | natural hn => exact reads_digitChars hn
  | negative hpos hn =>
    exact reads_of_scalar (by decide) (by decide) fun _ hrest =>
      map_of_ok (numeral_negative hpos hn hrest)
  | string s => exact reads_quotedChars s
  | array _ ih => exact reads_array ih
  | object _ ih => exact reads_object ih

/-- **Reading undoes writing.** -/
theorem parse_print {j : Json} (h : Writable nestingLimit j) : parse j.print = .ok j := by
  have hread := reads_value h
  have hvalue : value nestingLimit j.chars = .ok (j, []) := by
    simpa using hread.takes [] ends_nil
  have hspace : space j.chars = .ok ((), j.chars) := by
    simpa using hread.space_append []
  have hdocument : document j.chars = .ok (j, []) := by
    rw [document, bind_of_ok hspace, bind_of_ok hvalue, bind_of_ok (space_of_ends ends_nil)]
    rfl
  rw [parse, print, String.toList_ofList, run_of_ok hdocument]

end Concolic.Json
