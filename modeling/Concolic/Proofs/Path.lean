/-
# Paths piece by piece

A path that is joined from two has the pieces of the first and then those of the second, if
the first one ends in a name and the second one is relative.  Paths that are joined from names
are the ones that output is written to, so their pieces are known without following them.
-/
import Concolic.Path
import Concolic.Proofs.Text.Utf8
import Std.Data.String.ToNat

namespace Concolic

namespace Bytes

variable {separator : UInt8}

lemma splitOn_ne_nil (separator : UInt8) (b : Bytes) : splitOn separator b ≠ [] := by
  cases b with
  | nil => simp [splitOn]
  | cons x b =>
    rw [splitOn]
    split
    · simp
    · split <;> simp

/-- Bytes without separators are written before the first piece. -/
lemma splitOn_append_of_not_mem {a b first : Bytes} {rest : List Bytes} (ha : separator ∉ a)
    (hb : splitOn separator b = first :: rest) :
    splitOn separator (a ++ b) = (a ++ first) :: rest := by
  induction a with
  | nil => exact hb
  | cons x a ih =>
    obtain ⟨hx, ha'⟩ : separator ≠ x ∧ separator ∉ a := by simpa using ha
    rw [List.cons_append, splitOn, if_neg (Ne.symm hx), ih ha', List.cons_append]

lemma splitOn_append_cons (a b : Bytes) :
    splitOn separator (a ++ separator :: b) = splitOn separator a ++ splitOn separator b := by
  induction a with
  | nil => simp [splitOn]
  | cons x a ih =>
    by_cases hx : x = separator
    · simp [splitOn, hx, ih]
    · obtain ⟨first, rest, ha⟩ := List.exists_cons_of_ne_nil (splitOn_ne_nil separator a)
      rw [List.cons_append, splitOn, if_neg hx, ih, splitOn, if_neg hx, ha]
      rfl

lemma splitOn_of_not_mem {b : Bytes} (h : separator ∉ b) : splitOn separator b = [b] := by
  induction b with
  | nil => rfl
  | cons x b ih =>
    obtain ⟨hx, hb⟩ : separator ≠ x ∧ separator ∉ b := by simpa using h
    rw [splitOn, if_neg (Ne.symm hx), ih hb]

lemma not_mem_of_mem_splitOn {b piece : Bytes} (h : piece ∈ splitOn separator b) :
    separator ∉ piece := by
  induction b generalizing piece with
  | nil =>
    obtain rfl : piece = [] := by simpa [splitOn] using h
    simp
  | cons x b ih =>
    by_cases hx : x = separator
    · rw [splitOn, if_pos hx] at h
      rcases List.mem_cons.mp h with rfl | h
      · simp
      · exact ih h
    · rw [splitOn, if_neg hx] at h
      split at h
      · obtain rfl : piece = [x] := by simpa using h
        simpa using Ne.symm hx
      · rename_i first rest hsplit
        rcases List.mem_cons.mp h with rfl | h
        · have hfirst : separator ∉ first := ih (by rw [hsplit]; exact List.mem_cons_self)
          simpa using ⟨Ne.symm hx, hfirst⟩
        · exact ih (by rw [hsplit]; exact List.mem_cons_of_mem first h)

/-- Pieces without separators are the pieces of what they are joined to. -/
lemma splitOn_intercalate {pieces : List Bytes} (hne : pieces ≠ [])
    (h : ∀ piece ∈ pieces, separator ∉ piece) :
    splitOn separator (List.intercalate [separator] pieces) = pieces := by
  induction pieces with
  | nil => exact absurd rfl hne
  | cons piece rest ih =>
    obtain ⟨hpiece, hrest⟩ := List.forall_mem_cons.mp h
    cases rest with
    | nil => simpa [List.intercalate] using splitOn_of_not_mem hpiece
    | cons next rest =>
      have hsplit : List.intercalate [separator] (piece :: next :: rest)
          = piece ++ separator :: List.intercalate [separator] (next :: rest) := by
        simp [List.intercalate]
      rw [hsplit, splitOn_append_cons, splitOn_of_not_mem hpiece, ih (by simp) hrest]
      rfl

end Bytes

namespace Utf8

/-- Digits are written as bytes of their own, none of which is a separator of pieces. -/
lemma slash_notMem_encode_repr (n : Nat) : Path.slash ∉ encode n.repr := by
  intro hmem
  rw [encode_eq_flatMap, Nat.toList_repr, List.mem_flatMap] at hmem
  obtain ⟨c, hc, hbyte⟩ := hmem
  have hdigit : c.isDigit = true := Nat.isDigit_of_mem_toDigits (by decide) (by decide) hc
  have hrange : 48 ≤ c.val.toNat ∧ c.val.toNat ≤ 57 := by
    simpa [Char.isDigit, UInt32.le_iff_toNat_le] using hdigit
  have hval : 47 = c.val.toNat := toNat_eq_of_mem_utf8EncodeChar hbyte (by decide)
  omega

/-- The pieces of a text are texts again. -/
lemma exists_encode_eq_of_mem_splitOn {s : String} {piece : Bytes}
    (h : piece ∈ Bytes.splitOn Path.slash (encode s)) : ∃ t : String, piece = encode t := by
  have hchars : ∀ (cs : List Char) (piece : Bytes),
      piece ∈ Bytes.splitOn Path.slash (cs.flatMap String.utf8EncodeChar) →
        ∃ ds : List Char, piece = ds.flatMap String.utf8EncodeChar := by
    intro cs
    induction cs with
    | nil =>
      intro piece hpiece
      exact ⟨[], by simpa [Bytes.splitOn] using hpiece⟩
    | cons c cs ih =>
      intro piece hpiece
      rw [List.flatMap_cons] at hpiece
      by_cases hslash : Path.slash ∈ String.utf8EncodeChar c
      · obtain rfl : c = '/' := by
          have hval : 47 = c.val.toNat := toNat_eq_of_mem_utf8EncodeChar hslash (by decide)
          exact Char.ext (UInt32.toNat_inj.mp hval.symm)
        have hsplit : Bytes.splitOn Path.slash
            (String.utf8EncodeChar '/' ++ cs.flatMap String.utf8EncodeChar)
            = [] :: Bytes.splitOn Path.slash (cs.flatMap String.utf8EncodeChar) := rfl
        rw [hsplit] at hpiece
        rcases List.mem_cons.mp hpiece with rfl | hrest
        · exact ⟨[], rfl⟩
        · exact ih piece hrest
      · obtain ⟨first, rest, hsplit⟩ := List.exists_cons_of_ne_nil
          (Bytes.splitOn_ne_nil Path.slash (cs.flatMap String.utf8EncodeChar))
        rw [Bytes.splitOn_append_of_not_mem hslash hsplit] at hpiece
        rcases List.mem_cons.mp hpiece with rfl | hrest
        · obtain ⟨ds, rfl⟩ := ih first (by rw [hsplit]; exact List.mem_cons_self)
          exact ⟨c :: ds, rfl⟩
        · exact ih piece (by rw [hsplit]; exact List.mem_cons_of_mem first hrest)
  rw [encode_eq_flatMap] at h
  obtain ⟨ds, rfl⟩ := hchars s.toList piece h
  exact ⟨String.ofList ds, by rw [encode_eq_flatMap, String.toList_ofList]⟩

end Utf8

namespace Path

/-- The bytes can be a single piece that stands for something. -/
structure IsName (name : Bytes) : Prop where
  /-- There is something to stand for it. -/
  ne_nil : name ≠ []
  /-- It is one piece. -/
  slash_notMem : slash ∉ name

/-- The path ends in a name, not in a separator. -/
def EndsInName (p : Path) : Prop := ∃ b, p.bytes.getLast? = some b ∧ b ≠ slash

variable {name : Bytes} {p q : Path}

lemma IsName.endsInName (h : IsName name) : (Path.mk name).EndsInName := by
  refine ⟨name.getLast h.ne_nil, List.getLast?_eq_some_getLast h.ne_nil, ?_⟩
  rintro heq
  exact h.slash_notMem (heq ▸ List.getLast_mem h.ne_nil)

lemma IsName.isAbsolute (h : IsName name) : (Path.mk name).isAbsolute = false := by
  rcases name with _ | ⟨b, rest⟩
  · exact absurd rfl h.ne_nil
  · have hb : slash ≠ b ∧ slash ∉ rest := by simpa using h.slash_notMem
    simpa [Path.isAbsolute] using hb.1.symm

lemma IsName.pieces (h : IsName name) : (Path.mk name).pieces = [name] :=
  Bytes.splitOn_of_not_mem h.slash_notMem

/-- Components that are names make up a path of the kind that is asked for. -/
lemma isAbsolute_ofComponents {components : List Bytes} (hne : components ≠ [])
    (h : ∀ x ∈ components, IsName x) (absolute : Bool) :
    (ofComponents absolute components).isAbsolute = absolute := by
  cases absolute with
  | true => rfl
  | false =>
    obtain ⟨first, rest, rfl⟩ := List.exists_cons_of_ne_nil hne
    obtain ⟨b, bs, rfl⟩ := List.exists_cons_of_ne_nil (h first List.mem_cons_self).ne_nil
    have hb : b ≠ slash := fun heq =>
      (h _ List.mem_cons_self).slash_notMem (heq ▸ List.mem_cons_self)
    cases rest <;> simpa [ofComponents, isAbsolute, List.intercalate] using hb

lemma pieces_ofComponents {components : List Bytes} (hne : components ≠ [])
    (h : ∀ x ∈ components, IsName x) (absolute : Bool) :
    (ofComponents absolute components).pieces
      = (if absolute then [[]] else []) ++ components := by
  have hsplit := Bytes.splitOn_intercalate hne fun x hx => (h x hx).slash_notMem
  cases absolute with
  | true =>
    show Bytes.splitOn slash (slash :: List.intercalate [slash] components) = _
    rw [Bytes.splitOn, if_pos rfl, hsplit]
    rfl
  | false => exact hsplit

/-- Behind a name, joining puts a separator between two paths. -/
lemma join_of_endsInName (hp : p.EndsInName) (hq : q.isAbsolute = false) :
    p.join q = ⟨p.bytes ++ slash :: q.bytes⟩ := by
  obtain ⟨b, hb, hne⟩ := hp
  have hnil : p.bytes.isEmpty = false := by
    rcases hbytes : p.bytes with _ | _
    · rw [hbytes] at hb
      simp at hb
    · rfl
  have hlast : (p.bytes.getLast? == some slash) = false := by
    rw [hb]
    simpa using hne
  rw [join, hq, hnil, hlast]
  simp

lemma pieces_join (hp : p.EndsInName) (hq : q.isAbsolute = false) :
    (p.join q).pieces = p.pieces ++ q.pieces := by
  rw [join_of_endsInName hp hq]
  exact Bytes.splitOn_append_cons p.bytes q.bytes

/-- A path that is joined from two starts where the first one does. -/
lemma isAbsolute_join (hq : q.isAbsolute = false) : (p.join q).isAbsolute = p.isAbsolute := by
  rw [join, hq]
  rcases hbytes : p.bytes with _ | ⟨b, bs⟩
  · simp only [isAbsolute] at hq ⊢
    simp [hbytes, hq]
  · by_cases hlast : (b :: bs).getLast? = some slash
    · simp [isAbsolute, hbytes, hlast]
    · simp [isAbsolute, hbytes, hlast]

/-- In a path that is joined from two, the pieces of the second one come last, behind those of
the first one without the empty piece in which it may end. -/
lemma exists_pieces_join (p : Path) (hq : q.isAbsolute = false) :
    ∃ front, (p.join q).pieces = front ++ q.pieces ∧
      (p.pieces = front ∨ p.pieces = front ++ [[]]) := by
  by_cases hp : p.EndsInName
  · exact ⟨p.pieces, pieces_join hp hq, .inl rfl⟩
  rcases List.eq_nil_or_concat p.bytes with hbytes | ⟨bs, b, hbytes⟩
  · refine ⟨[], ?_, .inr ?_⟩
    · rw [join, hq, hbytes]
      rfl
    · rw [pieces, hbytes]
      rfl
  · -- what does not end in a name ends in a separator
    have hb : b = slash := by
      by_contra hne
      exact hp ⟨b, by simp [hbytes], hne⟩
    rw [hb, List.concat_eq_append] at hbytes
    refine ⟨Bytes.splitOn slash bs, ?_, .inr ?_⟩
    · have hjoin : (p.join q).bytes = bs ++ slash :: q.bytes := by
        simp [join, hq, hbytes]
      rw [pieces, hjoin]
      exact Bytes.splitOn_append_cons bs q.bytes
    · rw [pieces, hbytes]
      exact Bytes.splitOn_append_cons bs []

lemma endsInName_join (hq : q.EndsInName) : (p.join q).EndsInName := by
  obtain ⟨b, hb, hne⟩ := hq
  refine ⟨b, ?_, hne⟩
  unfold join
  split
  · exact hb
  split
  · simp [List.getLast?_append, hb]
  · simp [List.getLast?_append, List.getLast?_cons, hb]

lemma mem_names_of_fileName? (h : p.fileName? = some name) : name ∈ p.names := by
  unfold fileName? at h
  split at h
  · rename_i last hlast
    split at h
    · exact absurd h (by simp)
    · obtain rfl := Option.some.inj h
      exact List.mem_of_getLast? hlast
  · exact absurd h (by simp)

lemma isName_of_mem_names (h : name ∈ p.names) : IsName name := by
  obtain ⟨hmem, hstands⟩ := List.mem_filter.mp h
  refine ⟨?_, Bytes.not_mem_of_mem_splitOn hmem⟩
  intro hnil
  simp [hnil] at hstands

/-- A base name is a name. -/
lemma isName_of_fileName? (h : p.fileName? = some name) : IsName name :=
  isName_of_mem_names (mem_names_of_fileName? h)

/-- The base name of a path that a text spells is a text. -/
lemma exists_encode_eq_of_fileName? {s : String} (h : (ofString s).fileName? = some name) :
    ∃ t : String, name = Utf8.encode t :=
  Utf8.exists_encode_eq_of_mem_splitOn (List.mem_filter.mp (mem_names_of_fileName? h)).1

end Path

end Concolic
